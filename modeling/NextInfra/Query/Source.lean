import NextInfra.Query.Dto

/-!
# The committed query source

`CommittedQuerySource` of `next-infra-runtime` takes one snapshot of the query
context, reads the committed projection and maps its records to DTOs.

The fields of the catalog that no modelled query returns are left out.
-/

namespace NextInfra

open Sql

/-! ## §1  Context and catalog -/

/-- The interval is a `u64`. -/
structure QuerySchedule where
  intervalMillis : Nat
  nextScheduledAt : Option Timestamp

structure QueryContextSnapshot where
  evaluatedAt : Timestamp
  queryContextRevision : Nat
  schedules : OrderedMap ConnectionId QuerySchedule

namespace QueryContextSnapshot

def schedule (context : QueryContextSnapshot) (id : ConnectionId) : Option QuerySchedule :=
  OrderedMap.lookup context.schedules id

end QueryContextSnapshot

structure ConnectorCoverageSnapshot where
  connectorType : ConnectorType
  connectorVersion : String

/-- `ConnectorCatalogSnapshot::fingerprint`. -/
def catalogFingerprint (catalog : List ConnectorCoverageSnapshot) : String :=
  let versions := catalog.map fun connector =>
    connector.connectorType.val ++ "@" ++ connector.connectorVersion
  ",".intercalate (versions.insertionSort (· ≤ ·))

structure CommittedQuerySource where
  store : Store
  catalog : List ConnectorCoverageSnapshot
  context : QueryContextSnapshot

/-! ## §2  Plans and pages -/

structure ResourceSearchPlan where
  query : Option String
  kinds : OrderedSet String
  connectorTypes : OrderedSet String
  health : List ResourceHealth
  freshness : List Freshness
  labels : OrderedMap String String
  limit : Nat
  after : Option String

structure RecentChangesPlan where
  since : Option String
  resourceId : Option String
  kinds : OrderedSet String
  limit : Nat
  after : Option String

structure TimelinePlan where
  limit : Nat
  after : Option String

abbrev SourcePage (ρ : Type) := Keyset.Page String ρ

structure TimelineSourcePage where
  groups : List TimelineGroupDto
  itemCount : Nat
  nextAfter : Option String

structure SourceSnapshot (ρ : Type) where
  metadata : SnapshotMetadata
  body : ρ

/-! ## §3  Cutoffs and metadata -/

/-- The nearest `i64`. -/
def saturateI64 (value : Int) : Int := max (-(2 ^ 63)) (min value (2 ^ 63 - 1))

/-- The cutoffs of one schedule: an interval ago, and three of them. -/
def scheduleCutoffs (evaluatedAt : Timestamp) (schedule : QuerySchedule) : FreshnessCutoffs :=
  let interval := saturateI64 schedule.intervalMillis
  let triple := saturateI64 (interval * 3)
  { freshAfterMillis := saturateI64 (evaluatedAt.unixMillis - interval)
    expiredAfterMillis := saturateI64 (evaluatedAt.unixMillis - triple) }

namespace QueryContextSnapshot

def cutoffs (context : QueryContextSnapshot) : OrderedMap ConnectionId FreshnessCutoffs where
  rows := context.schedules.rows.map fun (id, schedule) =>
    (id, scheduleCutoffs context.evaluatedAt schedule)
  ascending := List.pairwise_map.mpr (context.schedules.ascending.imp fun h => h)

end QueryContextSnapshot

namespace CommittedQuerySource

/-- `format!("nis1:{}:{}:{}:{}", ..)`. -/
def metadata (source : CommittedQuerySource) (committedRevision : Nat) : SnapshotMetadata where
  schemaVersion := queryDtoSchemaVersion
  snapshotVersion :=
    "nis1:" ++ toString committedRevision ++ ":" ++ catalogFingerprint source.catalog ++ ":" ++
      source.context.evaluatedAt.text ++ ":" ++ toString source.context.queryContextRevision
  generatedAt := formatTimestamp source.context.evaluatedAt

/-- A snapshot of the source around a body made of the projection. -/
def snapshot {ρ σ : Type} (source : CommittedQuerySource) (projection : ProjectionSnapshot ρ)
    (body : σ) : SourceSnapshot σ where
  metadata := source.metadata projection.committedRevision
  body := body

/-! ## §4  Paged queries -/

def searchResources (toLowercase : String → String) (source : CommittedQuerySource)
    (plan : ResourceSearchPlan) :
    Except QuerySourceError (SourceSnapshot (SourcePage ResourceDto)) := do
  let projection ← readStore (source.store.queryResources toLowercase
    { query := plan.query
      kinds := plan.kinds
      connectorTypes := plan.connectorTypes
      health := plan.health
      freshness := plan.freshness
      labels := plan.labels
      cutoffs := source.context.cutoffs
      limit := plan.limit
      after := plan.after })
  return source.snapshot projection
    { items := projection.body.items.map fun item => resourceDto item.resource item.freshness
      nextAfter := projection.body.nextAfter }

/-- The ids of a set of strings; the error is the domain error's message. -/
def resourceIdsOf (ids : List String) : Except QuerySourceError (OrderedSet ResourceId) :=
  ((ids.mapM fun id => (StringValue.new id : Except DomainError ResourceId)).mapError
    fun error => .contract error.message).map KeyedTable.empty.putAll

def relationsForResources (source : CommittedQuerySource) (resourceIds : OrderedSet String)
    (limit : Nat) (after : Option String) :
    Except QuerySourceError (SourceSnapshot (SourcePage RelationDto)) := do
  let ids ← resourceIdsOf resourceIds.rows
  let projection ← readStore (source.store.queryRelationsWithinResources ids limit after)
  let items ← projection.body.items.mapM projectedRelationDto
  return source.snapshot projection { items := items, nextAfter := projection.body.nextAfter }

/-- `plan.since.as_deref().map(parse_timestamp).transpose()`. -/
def sinceMillisOf : Option String → Except QuerySourceError (Option Int)
  | none => .ok none
  | some since => ((parseTimestamp since).mapError .contract).map some

def resourceIdOf : Option String → Except QuerySourceError (Option ResourceId)
  | none => .ok none
  | some id =>
      ((StringValue.new id : Except DomainError ResourceId).mapError
        fun error => .contract error.message).map some

def getRecentChanges (source : CommittedQuerySource) (plan : RecentChangesPlan) :
    Except QuerySourceError (SourceSnapshot (SourcePage ChangeDto)) := do
  let sinceMillis ← sinceMillisOf plan.since
  let resourceId ← resourceIdOf plan.resourceId
  let projection ← readStore (source.store.queryRecentChanges
    { sinceMillis := sinceMillis
      resourceId := resourceId
      kinds := plan.kinds
      limit := plan.limit
      after := plan.after })
  return source.snapshot projection
    { items := projection.body.items.map changeDto, nextAfter := projection.body.nextAfter }

def timelineItemDto (item : TimelineProjectionItem) : TimelineItemDto where
  change := changeDto item.change
  versionLinks := item.versionLinks.map timelineVersionLinkDto

/-- An item joins the last group when that has its id, and opens a group of its
own otherwise. The groups are kept last first. -/
def pushItem (groups : List TimelineGroupDto) (item : TimelineProjectionItem) :
    List TimelineGroupDto :=
  let groupId := timelineGroupId item.change.origin item.change.observedAt
  let opened : TimelineGroupDto :=
    { groupId := groupId
      origin := changeOriginDto item.change.origin
      occurredAt := formatTimestamp item.change.observedAt
      items := [timelineItemDto item] }
  match groups with
  | [] => [opened]
  | group :: rest =>
      if group.groupId = groupId then
        { group with items := group.items ++ [timelineItemDto item] } :: rest
      else opened :: group :: rest

def timelineGroups (items : List TimelineProjectionItem) : List TimelineGroupDto :=
  (items.foldl pushItem []).reverse

/-- `groups.iter().map(|group| group.items.len()).sum()`. -/
def countItems (groups : List TimelineGroupDto) : Nat :=
  groups.foldr (fun group count => group.items.length + count) 0

def getTimeline (source : CommittedQuerySource) (plan : TimelinePlan) :
    Except QuerySourceError (SourceSnapshot TimelineSourcePage) := do
  let projection ← readStore (source.store.queryTimeline plan.limit plan.after)
  let groups := timelineGroups projection.body.items
  return source.snapshot projection
    { groups := groups, itemCount := countItems groups, nextAfter := projection.body.nextAfter }

end CommittedQuerySource

end NextInfra
