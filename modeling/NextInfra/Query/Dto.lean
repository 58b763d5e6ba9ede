import NextInfra.Query.Timestamp

/-!
# Query data-transfer objects

The DTOs of `next-infra-query` that the paged queries and the topology return,
and the functions of the committed query source that make them of stored
records. The DTO crate has its own copies of the lifecycle, health, freshness
and evidence enumerations, mapped value by value; the core's are used here.
-/

namespace NextInfra

/-! ## §1  DTOs -/

/-- `QUERY_DTO_SCHEMA_VERSION`. -/
def queryDtoSchemaVersion : SchemaVersion := .one

structure SnapshotMetadata where
  schemaVersion : SchemaVersion
  snapshotVersion : String
  generatedAt : String
deriving DecidableEq

structure PageInfo where
  nextCursor : Option String
deriving DecidableEq

structure ErrorEnvelope where
  schemaVersion : SchemaVersion
  code : String
  message : String
  retryable : Bool
deriving DecidableEq

structure ResourceDto where
  resourceId : String
  connectionId : String
  kind : String
  displayName : String
  scope : String
  lifecycle : Lifecycle
  health : ResourceHealth
  freshness : Freshness
  observedAt : String
deriving DecidableEq

inductive RelationEvidenceDto
  | provider (connectorType connectionId syncRunId fieldPath : String)
  | configured (bindingId createdAt : String)
  | inferred (ruleVersion : String) (inputResourceVersionIds inputRelationVersionIds : List String)
      (confidenceBasisPoints : Nat)
deriving DecidableEq

structure RelationDto where
  relationId : String
  sourceResourceId : String
  targetResourceId : String
  kind : String
  lifecycle : Lifecycle
  evidenceType : EvidenceType
  evidence : RelationEvidenceDto
  lastSeenAt : String
deriving DecidableEq

inductive ChangeSubjectDto
  | resource (resourceId : String)
  | relation (relationId : String)
  | binding (bindingId : String)
deriving DecidableEq

structure FieldChangeDto where
  path : String
  before : Option Value
  after : Option Value
deriving DecidableEq

/-- `ChangeOriginDto` and `TimelineOriginDto`, which have the same variants. -/
inductive ChangeOriginDto
  | syncRun (syncRunId : String)
  | binding (bindingId : String)
  | inference (ruleVersion : String)
      (inputResourceVersionIds inputRelationVersionIds : List String)
deriving DecidableEq

structure ChangeDto where
  changeId : String
  subject : ChangeSubjectDto
  observedAt : String
  fields : List FieldChangeDto
  origin : ChangeOriginDto
deriving DecidableEq

inductive TimelineVersionLinkDto
  | resource (resourceId resourceVersionId : String)
  | relation (relationId relationVersionId : String)
deriving DecidableEq

structure TimelineItemDto where
  change : ChangeDto
  versionLinks : List TimelineVersionLinkDto
deriving DecidableEq

structure TimelineGroupDto where
  groupId : String
  origin : ChangeOriginDto
  occurredAt : String
  items : List TimelineItemDto
deriving DecidableEq

inductive FrontierDirectionDto
  | incoming
  | outgoing
deriving DecidableEq

structure TopologyFrontierDto where
  resourceId : String
  direction : FrontierDirectionDto
deriving DecidableEq

/-! ## §2  Errors of the source -/

/-- `QuerySourceError`. -/
inductive QuerySourceError
  | store (error : ReadError)
  | invalidInterval
  | contract (message : String)
deriving DecidableEq

/-- `map_err(QuerySourceError::from)` on a read of the store. -/
def readStore {ρ : Type} (read : Except ReadError ρ) : Except QuerySourceError ρ :=
  read.mapError .store

/-! ## §3  Conversions -/

def resourceDto (source : Resource) (freshness : Freshness) : ResourceDto where
  resourceId := source.resourceId.val
  connectionId := source.connectionId.val
  kind := source.kind.val
  displayName := source.displayName
  scope := source.scope.val
  lifecycle := source.lifecycle
  health := source.health
  freshness := freshness
  observedAt := formatTimestamp source.lastSeenAt

/-- The evidence of a relation: provider evidence needs the joined connector
type, configured evidence the joined creation time. -/
def relationEvidenceDto (projected : ProjectedRelation) :
    Except QuerySourceError RelationEvidenceDto :=
  match projected.relation.evidence with
  | .provider connectionId syncRunId fieldPath =>
      match projected.providerConnectorType with
      | none => .error (.contract "provider connector type is missing")
      | some connectorType =>
          .ok (.provider connectorType.val connectionId.val syncRunId.val fieldPath.val)
  | .configured bindingId =>
      match projected.configuredCreatedAt with
      | none => .error (.contract "configured relation creation time is missing")
      | some createdAt => .ok (.configured bindingId.val (formatTimestamp createdAt))
  | .inferred ruleVersion resourceVersionIds relationVersionIds confidence =>
      .ok (.inferred ruleVersion.val (resourceVersionIds.map StringValue.val)
        (relationVersionIds.map StringValue.val) confidence.basisPoints)

def projectedRelationDto (projected : ProjectedRelation) : Except QuerySourceError RelationDto :=
  (relationEvidenceDto projected).map fun evidence =>
    { relationId := projected.relation.relationId.val
      sourceResourceId := projected.relation.sourceResourceId.val
      targetResourceId := projected.relation.targetResourceId.val
      kind := projected.relation.kind.val
      lifecycle := projected.relation.lifecycle
      evidenceType := projected.relation.evidence.evidenceType
      evidence := evidence
      lastSeenAt := formatTimestamp projected.relation.lastSeenAt }

def changeSubjectDto : ChangeSubject → ChangeSubjectDto
  | .resource resourceId => .resource resourceId.val
  | .relation relationId => .relation relationId.val
  | .binding bindingId => .binding bindingId.val

def changeOriginDto : OriginRef → ChangeOriginDto
  | .syncRun syncRunId => .syncRun syncRunId.val
  | .binding bindingId => .binding bindingId.val
  | .inference ruleVersion resourceVersionIds relationVersionIds =>
      .inference ruleVersion.val (resourceVersionIds.map StringValue.val)
        (relationVersionIds.map StringValue.val)

def changeDto (change : Change) : ChangeDto where
  changeId := change.changeId.val
  subject := changeSubjectDto change.subject
  observedAt := formatTimestamp change.observedAt
  fields := change.fields.map fun field =>
    { path := field.path.val, before := field.before, after := field.after }
  origin := changeOriginDto change.origin

def timelineVersionLinkDto : TimelineVersionLinkProjection → TimelineVersionLinkDto
  | .resource resourceId resourceVersionId => .resource resourceId.val resourceVersionId.val
  | .relation relationId relationVersionId => .relation relationId.val relationVersionId.val

/-- `timeline_group_id`. -/
def timelineGroupId (origin : OriginRef) (observedAt : Timestamp) : String :=
  let joined (ids : List String) : String := ",".intercalate ids
  let origin :=
    match origin with
    | .syncRun syncRunId => "sync_run:" ++ syncRunId.val
    | .binding bindingId => "binding:" ++ bindingId.val
    | .inference ruleVersion resourceVersionIds relationVersionIds =>
        "inference:" ++ ruleVersion.val ++ ":resources=" ++
          joined (resourceVersionIds.map StringValue.val) ++ ":relations=" ++
          joined (relationVersionIds.map StringValue.val)
  "timeline:" ++ origin ++ ":" ++ observedAt.text

end NextInfra
