import NextInfra.Core.Model

/-!
# The projection store: tables and reads

The SQLite schema of `next-infra-store` as keyed tables, one field a table,
each keyed by its primary key. Columns that hold JSON or enumeration texts are
kept as the values they encode; `consecutive_missing_json` is the map it
serializes. `maintenance_runs` and the migration ledger are read and written by
no function modelled here.

The connection runs with `foreign_keys = ON`, so a foreign key is checked where
a row is written (`Store.Write`).
-/

namespace NextInfra


/-- The map `consecutive_missing_json` holds: scope, then resource, then count. -/
abbrev PersistedMissingEvidence := OrderedMap Scope (OrderedMap ResourceId Nat)

/-- A row of `connector_state`. -/
structure ConnectorState where
  connectionId : ConnectionId
  syncCursor : Option SyncCursor
  consecutiveMissing : PersistedMissingEvidence
deriving DecidableEq

/-- A row of `connection_secrets`. -/
structure ConnectionSecret where
  connectionId : ConnectionId
  secret : List UInt8
deriving DecidableEq

/-- A row of `inference_outputs`. -/
structure InferenceOutput where
  inferenceRunId : InferenceRunId
  relationId : RelationId
  evidenceKey : EvidenceKey
deriving DecidableEq

def InferenceOutput.key (o : InferenceOutput) : InferenceRunId ×ₗ RelationId :=
  toLex (o.inferenceRunId, o.relationId)

structure Store where
  connections : KeyedTable Connection.connectionId
  connectorState : KeyedTable ConnectorState.connectionId
  syncRuns : KeyedTable SyncRun.syncRunId
  resources : KeyedTable Resource.resourceId
  resourceVersions : KeyedTable ResourceVersion.versionId
  relations : KeyedTable Relation.relationId
  relationVersions : KeyedTable RelationVersion.relationVersionId
  bindings : KeyedTable Binding.bindingId
  changes : KeyedTable Change.changeId
  inferenceRuns : KeyedTable InferenceRun.inferenceRunId
  inferenceOutputs : KeyedTable InferenceOutput.key
  connectionSecrets : KeyedTable ConnectionSecret.connectionId
  committedRevision : Nat

/-- A freshly migrated database. -/
def Store.fresh : Store where
  connections := .empty
  connectorState := .empty
  syncRuns := .empty
  resources := .empty
  resourceVersions := .empty
  relations := .empty
  relationVersions := .empty
  bindings := .empty
  changes := .empty
  inferenceRuns := .empty
  inferenceOutputs := .empty
  connectionSecrets := .empty
  committedRevision := 0

/-- The constraint a rejected statement violated. -/
inductive SqliteConstraint
  | primaryKey
  | unique
  | foreignKey
deriving DecidableEq

inductive StoreError
  | sqlite (constraint : SqliteConstraint)
  | contract (message : String)
deriving DecidableEq

/-! ## Reads -/

namespace Store

def getConnection (s : Store) (id : ConnectionId) : Option Connection := s.connections.get id

def getResource (s : Store) (id : ResourceId) : Option Resource := s.resources.get id

def getRelation (s : Store) (id : RelationId) : Option Relation := s.relations.get id

def getSyncRun (s : Store) (id : SyncRunId) : Option SyncRun := s.syncRuns.get id

def connectionSecret (s : Store) (id : ConnectionId) : Option (List UInt8) :=
  (s.connectionSecrets.get id).map ConnectionSecret.secret

/-- `ORDER BY observed_at, relation_version_id`: `b` comes after `a`. -/
def laterVersion (a b : RelationVersion) : Bool :=
  decide (a.observedAt < b.observedAt) ||
    (decide (a.observedAt = b.observedAt) && decide (a.relationVersionId < b.relationVersionId))

/-- The last row of a list in that order: `ORDER BY .. DESC LIMIT 1`. -/
def latestVersion : List RelationVersion → Option RelationVersion
  | [] => none
  | v :: vs =>
      match latestVersion vs with
      | none => some v
      | some w => if laterVersion v w then some w else some v

def latestRelationVersionFingerprint (s : Store) (id : RelationId) : Option Fingerprint :=
  (latestVersion (s.relationVersions.rows.filter fun v => decide (v.relationId = id))).map
    RelationVersion.fingerprint

/-- The most recent version of a relation. -/
def latestRelationVersion (s : Store) (id : RelationId) : Option RelationVersion :=
  latestVersion (s.relationVersions.rows.filter fun v => decide (v.relationId = id))

theorem latestVersion_mem {w : RelationVersion} : ∀ {vs : List RelationVersion},
    latestVersion vs = some w → w ∈ vs
  | x :: xs, h => by
      unfold latestVersion at h
      cases hlast : latestVersion xs with
      | none =>
          rw [hlast] at h
          cases h
          exact List.mem_cons_self
      | some u =>
          rw [hlast] at h
          simp only at h
          split at h
          · cases h
            exact List.mem_cons_of_mem _ (latestVersion_mem hlast)
          · cases h
            exact List.mem_cons_self

/-- A version newer than all others is the latest one. -/
theorem latestVersion_of_newest {v : RelationVersion} : ∀ {vs : List RelationVersion}, v ∈ vs →
    (∀ u ∈ vs, u ≠ v → u.observedAt < v.observedAt) → latestVersion vs = some v
  | x :: xs, hv, hnewest => by
      unfold latestVersion
      by_cases htail : v ∈ xs
      · rw [latestVersion_of_newest htail fun u hu => hnewest u (List.mem_cons_of_mem _ hu)]
        simp only
        by_cases hxv : x = v
        · rw [hxv]
          split <;> rfl
        · have hbefore := hnewest x List.mem_cons_self hxv
          rw [if_pos (by simp [laterVersion, hbefore])]
      · have hxv : x = v := by
          rcases List.mem_cons.mp hv with h | h
          · exact h.symm
          · exact absurd h htail
        subst hxv
        cases hlast : latestVersion xs with
        | none => rfl
        | some w =>
            have hw : w ∈ xs := latestVersion_mem hlast
            have hne : w ≠ x := by
              rintro rfl
              exact htail hw
            have hbefore := hnewest w (List.mem_cons_of_mem _ hw) hne
            simp only
            rw [if_neg]
            simp [laterVersion, not_lt_of_gt hbefore, ne_of_gt hbefore]

def syncCursor (s : Store) (id : ConnectionId) : Option SyncCursor :=
  (s.connectorState.get id).bind ConnectorState.syncCursor

/-- `ORDER BY resource_id` is the row order of the table. -/
def listResourcesForScope (s : Store) (id : ConnectionId) (scope : Scope) : List Resource :=
  s.resources.rows.filter fun r => decide (r.connectionId = id) && decide (r.scope = scope)

/-- The whole counter map of a connection; no row means the empty map. -/
def persistedMissing (s : Store) (id : ConnectionId) : PersistedMissingEvidence :=
  match s.connectorState.get id with
  | some row => row.consecutiveMissing
  | none => .empty

/-- `read_missing_evidence_state`: the entry of one scope. -/
def readMissingEvidenceState (persisted : PersistedMissingEvidence) (scope : Scope) :
    Option MissingEvidenceState :=
  (OrderedMap.lookup persisted scope).map fun counts => { scope := scope, counts := counts }

def missingEvidenceState (s : Store) (id : ConnectionId) (scope : Scope) :
    Option MissingEvidenceState :=
  match s.connectorState.get id with
  | some row => readMissingEvidenceState row.consecutiveMissing scope
  | none => none

theorem mem_listResourcesForScope {s : Store} {id : ConnectionId} {scope : Scope} {r : Resource} :
    r ∈ s.listResourcesForScope id scope ↔
      s.resources.get r.resourceId = some r ∧ r.connectionId = id ∧ r.scope = scope := by
  simp [listResourcesForScope, List.mem_filter, KeyedTable.mem_iff_get]

/-- The stored counter of one resource in one scope, if there is one. -/
def missingEntry (s : Store) (id : ConnectionId) (scope : Scope) (r : ResourceId) : Option Nat :=
  (OrderedMap.lookup (s.persistedMissing id) scope).bind fun counts => OrderedMap.lookup counts r

/-- The counter a commit of this scope starts from. -/
def missingCount (s : Store) (id : ConnectionId) (scope : Scope) (r : ResourceId) : Nat :=
  (s.missingEntry id scope r).getD 0

/-- The state of a scope, or the empty one, looks up the stored counters. -/
theorem lookup_missingEvidenceState (s : Store) (id : ConnectionId) (scope : Scope)
    (r : ResourceId) :
    OrderedMap.lookup ((s.missingEvidenceState id scope).getD (.new scope)).counts r =
      s.missingEntry id scope r := by
  unfold missingEvidenceState missingEntry persistedMissing readMissingEvidenceState
  cases s.connectorState.get id with
  | none => rfl
  | some row =>
      cases hl : OrderedMap.lookup row.consecutiveMissing scope with
      | none => simp [hl, MissingEvidenceState.new]
      | some counts => simp [hl]

theorem scope_missingEvidenceState (s : Store) (id : ConnectionId) (scope : Scope) :
    ((s.missingEvidenceState id scope).getD (.new scope)).scope = scope := by
  unfold missingEvidenceState readMissingEvidenceState
  cases s.connectorState.get id with
  | none => rfl
  | some row =>
      cases hl : OrderedMap.lookup row.consecutiveMissing scope with
      | none => simp [hl, MissingEvidenceState.new]
      | some counts => simp [hl]

end Store

end NextInfra
