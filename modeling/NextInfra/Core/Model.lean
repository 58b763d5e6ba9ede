import NextInfra.Core.Ids
import NextInfra.Core.Json
import NextInfra.Lib.KeyedTable

/-!
# The domain model

The records and enumerations of `next-infra-core`: coverage, evidence, status,
connections, resources, relations, their versions, bindings, sync runs, changes,
the commit handed to the store and its result. `serde` names appear where a modelled
function serializes the value into a snapshot.
-/

namespace NextInfra

/-! ## §1  Status enumerations -/

inductive Lifecycle
  | active
  | tombstoned
  | orphaned
deriving DecidableEq

inductive ResourceHealth
  | healthy
  | degraded
  | unhealthy
  | unknown
deriving DecidableEq

inductive ConnectorHealth
  | healthy
  | degraded
  | authFailed
  | rateLimited
  | unreachable
  | disabled
deriving DecidableEq

inductive SyncMode
  | full
  | incremental
  | targeted
deriving DecidableEq

inductive SyncTrigger
  | schedule
  | user
  | startup
  | recovery
deriving DecidableEq

inductive SyncRunStatus
  | running
  | succeeded
  | partial_
  | failed
  | cancelled
  | interrupted
deriving DecidableEq

def Lifecycle.toValue : Lifecycle → Value
  | .active => .string "active"
  | .tombstoned => .string "tombstoned"
  | .orphaned => .string "orphaned"

def ResourceHealth.toValue : ResourceHealth → Value
  | .healthy => .string "healthy"
  | .degraded => .string "degraded"
  | .unhealthy => .string "unhealthy"
  | .unknown => .string "unknown"

/-! ## §2  Coverage -/

inductive CoverageGapReason
  | permissionDenied
  | paginationIncomplete
  | rateLimited
  | providerUnavailable
  | schemaIncompatible
  | other (detail : String)
deriving DecidableEq

inductive SyncCoverage
  | authoritativeFull (scope : Scope)
  | incremental (cursor : SyncCursor)
  | partial_ (scope : Option Scope) (reason : CoverageGapReason)
  | targeted (resourceIds : List ResourceId)
deriving DecidableEq

/-! ## §3  Evidence and origins -/

inductive EvidenceType
  | provider
  | configured
  | inferred
deriving DecidableEq

/-- Basis points, at most `10000`. -/
structure Confidence where
  basisPoints : Nat
  bounded : basisPoints ≤ 10000
deriving DecidableEq

inductive RelationEvidence
  | provider (connectionId : ConnectionId) (syncRunId : SyncRunId) (fieldPath : FieldPath)
  | configured (bindingId : BindingId)
  | inferred (ruleVersion : RuleVersion) (inputResourceVersionIds : List ResourceVersionId)
      (inputRelationVersionIds : List RelationVersionId) (confidence : Confidence)
deriving DecidableEq

def RelationEvidence.evidenceType : RelationEvidence → EvidenceType
  | .provider .. => .provider
  | .configured .. => .configured
  | .inferred .. => .inferred

/-- `#[serde(tag = "type", rename_all = "snake_case")]`. -/
def RelationEvidence.toValue : RelationEvidence → Value
  | .provider connectionId syncRunId fieldPath =>
      .mkObject [("type", .string "provider"), ("connection_id", .string connectionId.val),
        ("sync_run_id", .string syncRunId.val), ("field_path", .string fieldPath.val)]
  | .configured bindingId =>
      .mkObject [("type", .string "configured"), ("binding_id", .string bindingId.val)]
  | .inferred ruleVersion resourceVersions relationVersions confidence =>
      .mkObject [("type", .string "inferred"), ("rule_version", .string ruleVersion.val),
        ("input_resource_version_ids", .array (resourceVersions.map fun v => .string v.val)),
        ("input_relation_version_ids", .array (relationVersions.map fun v => .string v.val)),
        ("confidence", .ofNat confidence.basisPoints)]

inductive OriginRef
  | syncRun (syncRunId : SyncRunId)
  | binding (bindingId : BindingId)
  | inference (ruleVersion : RuleVersion) (inputResourceVersionIds : List ResourceVersionId)
      (inputRelationVersionIds : List RelationVersionId)
deriving DecidableEq

/-! ## §4  Keys -/

structure ResourceKey where
  connectionId : ConnectionId
  kind : ResourceKind
  externalId : ExternalId

namespace ResourceKey

/-- The derived `Ord`: lexicographic in declaration order. -/
def toLexKey (k : ResourceKey) : ConnectionId ×ₗ (ResourceKind ×ₗ ExternalId) :=
  toLex (k.connectionId, toLex (k.kind, k.externalId))

theorem toLexKey_injective : Function.Injective toLexKey := by
  rintro ⟨c, k, e⟩ ⟨c', k', e'⟩ h
  have h1 := toLex.injective h
  have h2 := toLex.injective (congrArg Prod.snd h1)
  simp only [Prod.mk.injEq] at h1 h2
  obtain ⟨rfl, _⟩ := h1
  obtain ⟨rfl, rfl⟩ := h2
  rfl

instance : LinearOrder ResourceKey := LinearOrder.lift' toLexKey toLexKey_injective

def toValue (k : ResourceKey) : Value :=
  .mkObject [("connection_id", .string k.connectionId.val), ("kind", .string k.kind.val),
    ("external_id", .string k.externalId.val)]

end ResourceKey

/-! ## §5  Records -/

/-- A stored connection. `secret_ref` is carried by the row but no modelled
function reads it. -/
structure Connection where
  connectionId : ConnectionId
  connectorType : ConnectorType
  displayName : String
  enabled : Bool
  config : Value
  health : ConnectorHealth
  lastSuccessAt : Option Timestamp
  lastAttemptAt : Option Timestamp
  configSchemaVersion : SchemaVersion
  deletedAt : Option Timestamp
deriving DecidableEq

structure Resource where
  resourceId : ResourceId
  connectionId : ConnectionId
  kind : ResourceKind
  externalId : ExternalId
  name : String
  displayName : String
  scope : Scope
  labels : OrderedMap LabelKey String
  lifecycle : Lifecycle
  health : ResourceHealth
  attributes : Value
  attributeSchemaVersion : SchemaVersion
  fingerprint : Fingerprint
  firstSeenAt : Timestamp
  lastSeenAt : Timestamp
  lastChangedAt : Timestamp
  lastSyncRunId : SyncRunId
deriving DecidableEq

def Resource.key (r : Resource) : ResourceKey :=
  { connectionId := r.connectionId, kind := r.kind, externalId := r.externalId }

structure FieldChange where
  path : FieldPath
  before : Option Value
  after : Option Value
deriving DecidableEq

structure ResourceVersion where
  versionId : ResourceVersionId
  resourceId : ResourceId
  observedAt : Timestamp
  syncRunId : SyncRunId
  normalizedSnapshot : Value
  fingerprint : Fingerprint
  schemaVersion : SchemaVersion
  changeSummary : List FieldChange
deriving DecidableEq

structure Relation where
  relationId : RelationId
  sourceResourceId : ResourceId
  targetResourceId : ResourceId
  kind : RelationKind
  evidenceKey : EvidenceKey
  evidence : RelationEvidence
  firstSeenAt : Timestamp
  lastSeenAt : Timestamp
  lifecycle : Lifecycle
deriving DecidableEq

structure RelationKey where
  sourceResourceId : ResourceId
  targetResourceId : ResourceId
  kind : RelationKind
  evidenceType : EvidenceType
  evidenceKey : EvidenceKey
deriving DecidableEq

def Relation.key (r : Relation) : RelationKey :=
  { sourceResourceId := r.sourceResourceId
    targetResourceId := r.targetResourceId
    kind := r.kind
    evidenceType := r.evidence.evidenceType
    evidenceKey := r.evidenceKey }

structure RelationVersion where
  relationVersionId : RelationVersionId
  relationId : RelationId
  observedAt : Timestamp
  normalizedSnapshot : Value
  fingerprint : Fingerprint
  schemaVersion : SchemaVersion
  origin : OriginRef
deriving DecidableEq

/-- `SyncRunCounts`; `u64` counters of list lengths, kept as naturals. -/
structure SyncRunCounts where
  read : Nat := 0
  created : Nat := 0
  updated : Nat := 0
  unchanged : Nat := 0
  warnings : Nat := 0
deriving DecidableEq

structure SyncRunWarning where
  code : ErrorCode
  message : String
deriving DecidableEq

structure SyncRun where
  syncRunId : SyncRunId
  connectionId : ConnectionId
  mode : SyncMode
  trigger : SyncTrigger
  startedAt : Timestamp
  finishedAt : Option Timestamp
  status : SyncRunStatus
  coverage : SyncCoverage
  cursorBefore : Option SyncCursor
  cursorAfter : Option SyncCursor
  counts : SyncRunCounts
  errors : List DomainError
  warnings : List SyncRunWarning
deriving DecidableEq

inductive ChangeSubject
  | resource (resourceId : ResourceId)
  | relation (relationId : RelationId)
  | binding (bindingId : BindingId)
deriving DecidableEq

structure Change where
  changeId : ChangeId
  subject : ChangeSubject
  observedAt : Timestamp
  fields : List FieldChange
  origin : OriginRef
deriving DecidableEq

inductive BindingStatus
  | active
  | unresolved
  | disabled
deriving DecidableEq

def BindingStatus.toValue : BindingStatus → Value
  | .active => .string "active"
  | .unresolved => .string "unresolved"
  | .disabled => .string "disabled"

structure Binding where
  bindingId : BindingId
  sourceResourceId : ResourceId
  targetResourceId : ResourceId
  kind : RelationKind
  status : BindingStatus
  createdAt : Timestamp
  updatedAt : Timestamp
deriving DecidableEq

inductive InferenceRunStatus
  | running
  | completed
  | failed
deriving DecidableEq

structure InferenceRun where
  inferenceRunId : InferenceRunId
  ruleVersion : RuleVersion
  startedAt : Timestamp
  finishedAt : Option Timestamp
  status : InferenceRunStatus
  inputResourceVersionIds : List ResourceVersionId
  inputRelationVersionIds : List RelationVersionId
  outputRelationIds : List RelationId
deriving DecidableEq

/-! ## §6  Missing evidence -/

/-- Consecutive-absence counters of one scope; the counters are `u8`. -/
structure MissingEvidenceState where
  scope : Scope
  counts : OrderedMap ResourceId Nat
deriving DecidableEq

namespace MissingEvidenceState

def new (scope : Scope) : MissingEvidenceState := { scope := scope, counts := KeyedTable.empty }

def countFor (state : MissingEvidenceState) (resourceId : ResourceId) : Nat :=
  (OrderedMap.lookup state.counts resourceId).getD 0

end MissingEvidenceState

/-- `saturating_add` of the unsigned integers of that many bits. -/
def saturatingAdd (bits a b : Nat) : Nat := min (a + b) (2 ^ bits - 1)

/-! ## §7  Commits -/

structure SyncCommit where
  syncRun : SyncRun
  resources : List Resource
  resourceVersions : List ResourceVersion
  relations : List Relation
  relationVersions : List RelationVersion
  changes : List Change
  cursorAfter : Option SyncCursor
  missingEvidence : Option MissingEvidenceState
deriving DecidableEq

structure BindingCommit where
  binding : Binding
  relations : List Relation
  relationVersions : List RelationVersion
  changes : List Change
deriving DecidableEq

structure InferenceCommit where
  run : InferenceRun
  relations : List Relation
  relationVersions : List RelationVersion
  changes : List Change
deriving DecidableEq

structure CommitResult where
  resourcesWritten : Nat := 0
  resourceVersionsWritten : Nat := 0
  relationsWritten : Nat := 0
  relationVersionsWritten : Nat := 0
  changesWritten : Nat := 0
deriving DecidableEq

end NextInfra
