import NextInfra.Sync.Identity

/-!
# Projection, snapshots and diffs

What the engine makes of one validated observation and the row it may already
have: the row to write, the snapshot of a row, the field-by-field difference of
two snapshots and the `Change` that records it.
-/

namespace NextInfra

/-! ## §1  Rows -/

/-- `project_resource`. -/
def projectResource (validated : ValidatedResource) (resourceId : ResourceId) (run : SyncRun)
    (existing : Option Resource) : Resource :=
  let changed : Bool := match existing with
    | none => true
    | some old => decide (old.fingerprint ≠ validated.fingerprint) || decide (old.lifecycle ≠ .active)
  { resourceId := resourceId
    connectionId := validated.key.connectionId
    kind := validated.key.kind
    externalId := validated.key.externalId
    name := validated.name
    displayName := validated.displayName
    scope := validated.scope
    labels := validated.labels
    lifecycle := .active
    health := validated.health
    attributes := validated.attributes
    attributeSchemaVersion := validated.attributeSchemaVersion
    fingerprint := validated.fingerprint
    firstSeenAt := (existing.map Resource.firstSeenAt).getD validated.observedAt
    lastSeenAt := validated.observedAt
    lastChangedAt :=
      if changed then validated.observedAt
      else (existing.map Resource.lastChangedAt).getD validated.observedAt
    lastSyncRunId := run.syncRunId }

/-- `project_relation`. -/
def projectRelation (validated : ValidatedRelation) (relationId : RelationId)
    (sourceResourceId targetResourceId : ResourceId) (existing : Option Relation) : Relation :=
  { relationId := relationId
    sourceResourceId := sourceResourceId
    targetResourceId := targetResourceId
    kind := validated.key.kind
    evidenceKey := validated.key.evidenceKey
    evidence := validated.evidence
    firstSeenAt := (existing.map Relation.firstSeenAt).getD validated.observedAt
    lastSeenAt := validated.observedAt
    lifecycle := .active }

/-- `tombstone_resource`. -/
def tombstoneResource (existing : Resource) (run : SyncRun) (at_ : Timestamp) : Resource :=
  { existing with
    lifecycle := .tombstoned
    lastChangedAt := at_
    lastSyncRunId := run.syncRunId }

/-! ## §2  Snapshots -/

/-- `resource_snapshot`. -/
def resourceSnapshot (r : Resource) : Value :=
  .mkObject [("resource_id", .string r.resourceId.val),
    ("connection_id", .string r.connectionId.val), ("kind", .string r.kind.val),
    ("external_id", .string r.externalId.val), ("name", .string r.name),
    ("display_name", .string r.displayName), ("scope", .string r.scope.val),
    ("labels", labelsToValue r.labels), ("lifecycle", r.lifecycle.toValue),
    ("health", r.health.toValue), ("attributes", r.attributes),
    ("attribute_schema_version", .ofNat r.attributeSchemaVersion.val),
    ("fingerprint", .string r.fingerprint.val)]

/-- `relation_snapshot`. -/
def relationSnapshot (r : Relation) : Value :=
  .mkObject [("relation_id", .string r.relationId.val),
    ("source_resource_id", .string r.sourceResourceId.val),
    ("target_resource_id", .string r.targetResourceId.val), ("kind", .string r.kind.val),
    ("evidence_key", .string r.evidenceKey.val), ("evidence", r.evidence.toValue),
    ("lifecycle", r.lifecycle.toValue)]

/-! ## §3  Diffs -/

/-- `diff_fields`: the listed fields whose values differ. -/
def diffFields (before after : Value) (fields : List FieldPath) : List FieldChange :=
  fields.filterMap fun field =>
    let old := before.get field.val
    let new := after.get field.val
    if old ≠ new then some { path := field, before := old, after := new } else none

def FieldPath.resource : FieldPath := ⟨"resource", by decide⟩

def FieldPath.relation : FieldPath := ⟨"relation", by decide⟩

def FieldPath.lifecycle : FieldPath := ⟨"lifecycle", by decide⟩

def resourceDiffPaths : List FieldPath :=
  [⟨"name", by decide⟩, ⟨"display_name", by decide⟩, ⟨"scope", by decide⟩,
    ⟨"labels", by decide⟩, ⟨"lifecycle", by decide⟩, ⟨"health", by decide⟩,
    ⟨"attributes", by decide⟩, ⟨"attribute_schema_version", by decide⟩,
    ⟨"fingerprint", by decide⟩]

def relationDiffPaths : List FieldPath := [⟨"evidence", by decide⟩, ⟨"lifecycle", by decide⟩]

/-- The shape `resource_diff` and `relation_diff` share: everything is new, or
the listed fields that differ. -/
def snapshotDiff {α : Type} (snapshot : α → Value) (whole : FieldPath) (paths : List FieldPath)
    (existing : Option α) (row : α) : List FieldChange :=
  match existing with
  | none => [{ path := whole, before := none, after := some (snapshot row) }]
  | some old => diffFields (snapshot old) (snapshot row) paths

/-- `resource_diff`. -/
def resourceDiff (existing : Option Resource) (r : Resource) : List FieldChange :=
  snapshotDiff resourceSnapshot .resource resourceDiffPaths existing r

/-- `relation_diff`. -/
def relationDiff (existing : Option Relation) (r : Relation) : List FieldChange :=
  snapshotDiff relationSnapshot .relation relationDiffPaths existing r

/-! ## §4  Changes -/

/-- The shape `resource_change` and `relation_change` share. A row that existed
and shows no difference is recorded as a lifecycle change. -/
def subjectChange {name : String} (subjectId : StringValue name) (subject : ChangeSubject)
    (before : Option Lifecycle) (after : Lifecycle) (fields : List FieldChange)
    (run : SyncRunId) (observedAt : Timestamp) : Change :=
  { changeId := changeId subjectId run
    subject := subject
    observedAt := observedAt
    fields :=
      if fields.isEmpty && before.isSome then
        [{ path := .lifecycle
           before := some ((before.map Lifecycle.toValue).getD .null)
           after := some after.toValue }]
      else fields
    origin := .syncRun run }

/-- `resource_change`. -/
def resourceChange (r : Resource) (existing : Option Resource) (fields : List FieldChange)
    (run : SyncRunId) (observedAt : Timestamp) : Change :=
  subjectChange r.resourceId (.resource r.resourceId) (existing.map Resource.lifecycle) r.lifecycle
    fields run observedAt

/-- `relation_change`. -/
def relationChange (r : Relation) (existing : Option Relation) (fields : List FieldChange)
    (run : SyncRunId) (observedAt : Timestamp) : Change :=
  subjectChange r.relationId (.relation r.relationId) (existing.map Relation.lifecycle) r.lifecycle
    fields run observedAt

end NextInfra
