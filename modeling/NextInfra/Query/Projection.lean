import NextInfra.Core.LocalRelation
import NextInfra.Lib.Keyset
import NextInfra.Query.Sql
import NextInfra.Store.Tables
import Mathlib.Data.List.Sort
import Mathlib.Data.Prod.Lex

/-!
# The reads behind the queries

`next-infra-store`'s query projection: the pages of resources, of relations and
of changes, each a statement that fetches one row beyond the limit, and the
version links of the timeline.

`ORDER BY` a table's primary key is its row order. A join goes through the
primary key of the other table, so it looks that row up. `str::to_lowercase`
knows all of Unicode; it is a parameter of the reads that take a search text.
-/

namespace NextInfra

open Keyset Sql

/-! ## §1  Records -/

abbrev ProjectionPage (ρ : Type) := Page String ρ

inductive Freshness
  | fresh
  | stale
  | expired
deriving DecidableEq

structure FreshnessCutoffs where
  freshAfterMillis : Int
  expiredAfterMillis : Int
deriving DecidableEq

structure ResourceProjectionPlan where
  query : Option String
  kinds : OrderedSet String
  connectorTypes : OrderedSet String
  health : List ResourceHealth
  freshness : List Freshness
  labels : OrderedMap String String
  cutoffs : OrderedMap ConnectionId FreshnessCutoffs
  limit : Nat
  after : Option String

structure ProjectedResource where
  resource : Resource
  connectorType : ConnectorType
  freshness : Freshness
deriving DecidableEq

structure ProjectedRelation where
  relation : Relation
  providerConnectorType : Option ConnectorType
  configuredCreatedAt : Option Timestamp
deriving DecidableEq

structure RecentChangesProjectionPlan where
  sinceMillis : Option Int
  resourceId : Option ResourceId
  kinds : OrderedSet String
  limit : Nat
  after : Option String

inductive TimelineVersionLinkProjection
  | resource (resourceId : ResourceId) (resourceVersionId : ResourceVersionId)
  | relation (relationId : RelationId) (relationVersionId : RelationVersionId)
deriving DecidableEq

structure TimelineProjectionItem where
  change : Change
  versionLinks : List TimelineVersionLinkProjection
deriving DecidableEq

/-- `MAX_PROJECTION_PAGE_LIMIT`. -/
def maxProjectionPageLimit : Nat := 512

def validateLimit (limit : Nat) : Except ReadError Unit :=
  if limit = 0 ∨ maxProjectionPageLimit < limit then
    .error (.contract "projection limit is outside the supported range")
  else .ok ()

/-! ## §2  Freshness -/

/-- The instant a row was last seen, as the `i64` the cutoffs are compared with. -/
def Resource.lastSeenMillis (r : Resource) : Int := r.lastSeenAt.unixMillis

def classifyMillis (lastSeenAt : Int) (cutoff : FreshnessCutoffs) : Freshness :=
  if cutoff.freshAfterMillis ≤ lastSeenAt then .fresh
  else if cutoff.expiredAfterMillis ≤ lastSeenAt then .stale
  else .expired

def classifyFreshness (r : Resource) (cutoffs : OrderedMap ConnectionId FreshnessCutoffs) :
    Except ReadError Freshness :=
  match OrderedMap.lookup cutoffs r.connectionId with
  | none => .error (.contract "freshness cutoff disappeared during query")
  | some cutoff => .ok (classifyMillis r.lastSeenMillis cutoff)

/-- The first connection of a list without cutoffs is reported. -/
def firstUncovered (cutoffs : OrderedMap ConnectionId FreshnessCutoffs) :
    List ConnectionId → Except ReadError Unit
  | [] => .ok ()
  | id :: ids =>
      match OrderedMap.lookup cutoffs id with
      | none => .error (.contract ("freshness cutoff is missing for connection " ++ id.val))
      | some _ => firstUncovered cutoffs ids

def validateCutoffs (s : Store) (cutoffs : OrderedMap ConnectionId FreshnessCutoffs) :
    Except ReadError Unit :=
  if (OrderedMap.values cutoffs).any
      (fun cutoff => decide (cutoff.freshAfterMillis < cutoff.expiredAfterMillis)) then
    .error (.contract "freshness cutoffs are inverted")
  else
    firstUncovered cutoffs (OrderedSet.sorted (s.resources.rows.map Resource.connectionId))

/-! ## §3  Pages of resources -/

/-- A row of `resources r JOIN connections c`. -/
abbrev ResourceRow := Resource × ConnectorType

namespace Store

def resourceRows (s : Store) : List ResourceRow :=
  s.resources.rows.filterMap fun r =>
    (s.connections.get r.connectionId).map fun c => (r, c.connectorType)

end Store

/-- The columns a search text is looked up in. -/
def searchedColumns (r : Resource) : List String :=
  [r.displayName, r.name, r.kind.val, r.externalId.val, r.resourceId.val]

def searchPattern (toLowercase : String → String) (query : String) : String :=
  "%" ++ escapeLike (toLowercase query) ++ "%"

/-- The clause of a search text: one test a column, in the order of the statement. -/
def searchClause (toLowercase : String → String) (query : String) : Clause ResourceRow :=
  let pattern := searchPattern toLowercase query
  [fun row => like pattern (lower row.1.displayName),
    fun row => like pattern (lower row.1.name),
    fun row => like pattern (lower row.1.kind.val),
    fun row => like pattern (lower row.1.externalId.val),
    fun row => like pattern (lower row.1.resourceId.val)]

def resourceHealthText : ResourceHealth → String
  | .healthy => "healthy"
  | .degraded => "degraded"
  | .unhealthy => "unhealthy"
  | .unknown => "unknown"

/-- `EXISTS (.. json_each(r.labels_json) label WHERE label.key = ? AND .. = ?)`. -/
def labelClause (label : String × String) : Clause ResourceRow :=
  .of fun row => row.1.labels.rows.any fun held =>
    decide (held.1.val = label.1) && decide (held.2 = label.2)

def freshnessBranch (lastSeenAt : Int) (cutoff : FreshnessCutoffs) : Freshness → Bool
  | .fresh => decide (cutoff.freshAfterMillis ≤ lastSeenAt)
  | .stale =>
      decide (lastSeenAt < cutoff.freshAfterMillis) &&
        decide (cutoff.expiredAfterMillis ≤ lastSeenAt)
  | .expired => decide (lastSeenAt < cutoff.expiredAfterMillis)

/-- The selected freshness values, in the order of the enumeration. -/
def requestedFreshness (requested : List Freshness) : List Freshness :=
  [.fresh, .stale, .expired].filter fun value => decide (value ∈ requested)

/-- `push_freshness_filter`: one alternative for each connection with cutoffs. -/
def freshnessFilter (requested : List Freshness)
    (cutoffs : OrderedMap ConnectionId FreshnessCutoffs) : List (Clause ResourceRow) :=
  let values := requestedFreshness requested
  if values.isEmpty || values.length == 3 then []
  else
    [cutoffs.rows.map fun (id, cutoff) row =>
      decide (row.1.connectionId = id) &&
        values.any fun value => freshnessBranch row.1.lastSeenMillis cutoff value]

/-- The clauses of the plan, in the order they are appended. -/
def ResourceProjectionPlan.clauses (toLowercase : String → String)
    (plan : ResourceProjectionPlan) : List (Clause ResourceRow) :=
  (plan.after.toList.map fun after => .of fun row => decide (after < row.1.resourceId.val)) ++
    plan.query.toList.map (searchClause toLowercase) ++
    inSet (fun row => row.1.kind.val) plan.kinds.rows ++
    inSet (fun row => row.2.val) plan.connectorTypes.rows ++
    inSet (fun row => resourceHealthText row.1.health) (plan.health.map resourceHealthText) ++
    plan.labels.rows.map labelClause ++
    freshnessFilter plan.freshness plan.cutoffs

/-- A fetched row, with its freshness. -/
def classifiedResource (cutoffs : OrderedMap ConnectionId FreshnessCutoffs) (row : ResourceRow) :
    Except ReadError ProjectedResource :=
  (classifyFreshness row.1 cutoffs).map fun freshness =>
    { resource := row.1, connectorType := row.2, freshness := freshness }

def resourceCursor (item : ProjectedResource) : String := item.resource.resourceId.val

/-- `i64::try_from(limit + 1)`. -/
def fetchLimit (limit : Nat) : Except ReadError Int :=
  if maxI64 < limit + 1 then .error (.contract "limit overflow") else .ok (limit + 1 : Nat)

def readResourcePage (toLowercase : String → String) (s : Store)
    (plan : ResourceProjectionPlan) : Except ReadError (ProjectionPage ProjectedResource) := do
  let fetched ← fetchLimit plan.limit
  let matching ← prepare (plan.clauses toLowercase)
  let items ← (limitRows fetched (s.resourceRows.filter matching)).mapM
    (classifiedResource plan.cutoffs)
  return Keyset.trim resourceCursor plan.limit items

/-! ## §4  Pages of relations -/

namespace Store

/-- The two left joins of a relation row. -/
def readProjectedRelation (s : Store) (r : Relation) : ProjectedRelation where
  relation := r
  providerConnectorType :=
    match r.evidence with
    | .provider connectionId _ _ => (s.connections.get connectionId).map Connection.connectorType
    | _ => none
  configuredCreatedAt :=
    match r.evidence with
    | .configured bindingId => (s.bindings.get bindingId).map Binding.createdAt
    | _ => none

end Store

/-- The endpoints of a row against the given resources: both of them, or either. -/
def endpointTest (resourceIds : OrderedSet ResourceId) (requireBothEndpoints : Bool)
    (r : Relation) : Bool :=
  let source := decide (r.sourceResourceId ∈ resourceIds.rows)
  let target := decide (r.targetResourceId ∈ resourceIds.rows)
  if requireBothEndpoints then source && target else source || target

def relationCursor (item : ProjectedRelation) : String := item.relation.relationId.val

def readRelationsForResources (s : Store) (resourceIds : OrderedSet ResourceId) (limit : Nat)
    (after : Option String) (requireBothEndpoints : Bool) :
    Except ReadError (ProjectionPage ProjectedRelation) :=
  if resourceIds.rows.isEmpty then .ok { items := [], nextAfter := none }
  else do
    let matching ← prepare (Clause.of (endpointTest resourceIds requireBothEndpoints) ::
      after.toList.map fun after => Clause.of fun r => decide (after < r.relationId.val))
    let rows := limitRows (asI64 (limit + 1)) (s.relations.rows.filter matching)
    return Keyset.trim relationCursor limit (rows.map s.readProjectedRelation)

/-! ## §5  Pages of changes -/

/-- `change_cursor`: `{millis}:{change id}`. -/
def changeCursor (change : Change) : String :=
  change.observedAt.text ++ ":" ++ change.changeId.val

/-- A sign, if any, and the digits behind it. -/
def splitSign : List Char → Bool × List Char
  | '-' :: digits => (true, digits)
  | '+' :: digits => (false, digits)
  | digits => (false, digits)

/-- `str::parse::<i64>`: at least one digit, and in range. -/
def parseI64 (text : List Char) : Option Int :=
  let (negative, digits) := splitSign text
  if digits = [] ∨ digits.any (fun c => !c.isDigit) then none
  else
    let magnitude := Nat.ofDigitChars 10 digits 0
    if negative then
      if magnitude ≤ maxI64 + 1 then some (-magnitude) else none
    else if magnitude ≤ maxI64 then some magnitude
    else none

/-- `split_once(':')`. -/
def splitOnce (sep : Char) : List Char → Option (List Char × List Char)
  | [] => none
  | c :: cs =>
      if c = sep then some ([], cs)
      else (splitOnce sep cs).map fun parts => (c :: parts.1, parts.2)

def parseChangeCursor (value : String) : Except ReadError (Int × String) :=
  match splitOnce ':' value.toList with
  | none => .error (.contract "change cursor is invalid")
  | some (millis, changeId) =>
      match parseI64 millis with
      | none => .error (.contract "change cursor is invalid")
      | some observedAt =>
          if changeId = [] then .error (.contract "change cursor is invalid")
          else .ok (observedAt, String.ofList changeId)

def Change.observedMillis (c : Change) : Int := c.observedAt.unixMillis

/-- `observed_at` and then `change_id`, the columns changes are ordered by. -/
def Change.orderKey (c : Change) : Timestamp ×ₗ ChangeId := toLex (c.observedAt, c.changeId)

/-- `ORDER BY observed_at DESC, change_id DESC`. -/
def newestFirst (changes : List Change) : List Change :=
  changes.insertionSort fun a b => b.orderKey ≤ a.orderKey

namespace Store

/-- The subject of the change is the resource, or a relation that ends in it. -/
def concerns (s : Store) (resourceId : ResourceId) (c : Change) : Bool :=
  match c.subject with
  | .resource id => decide (id = resourceId)
  | .relation id =>
      (s.relations.get id).any fun r =>
        decide (r.sourceResourceId = resourceId) || decide (r.targetResourceId = resourceId)
  | .binding _ => false

/-- The subject of the change is a resource or a relation of one of the kinds. -/
def ofKinds (s : Store) (kinds : List String) (c : Change) : Bool :=
  match c.subject with
  | .resource id => (s.resources.get id).any fun r => decide (r.kind.val ∈ kinds)
  | .relation id => (s.relations.get id).any fun r => decide (r.kind.val ∈ kinds)
  | .binding _ => false

end Store

/-- The clauses a plan of changes selects by, the cursor's aside. -/
def RecentChangesProjectionPlan.clauses (s : Store) (plan : RecentChangesProjectionPlan) :
    List (Clause Change) :=
  (plan.sinceMillis.toList.map fun since => .of fun c => decide (since ≤ c.observedMillis)) ++
    (plan.resourceId.toList.map fun id => .of (s.concerns id)) ++
    (if plan.kinds.rows.isEmpty then [] else [.of (s.ofKinds plan.kinds.rows)])

/-- `observed_at < ? OR (observed_at = ? AND change_id < ?)`. -/
def olderThan (observedAt : Int) (changeId : String) (c : Change) : Bool :=
  decide (c.observedMillis < observedAt) ||
    (decide (c.observedMillis = observedAt) && decide (c.changeId.val < changeId))

/-- The clause of a cursor, which has to parse. -/
def afterClause (after : Option String) : Except ReadError (List (Clause Change)) :=
  match after with
  | none => .ok []
  | some value =>
      (parseChangeCursor value).map fun (observedAt, changeId) =>
        [.of (olderThan observedAt changeId)]

def readRecentChanges (s : Store) (plan : RecentChangesProjectionPlan) :
    Except ReadError (ProjectionPage Change) := do
  let after ← afterClause plan.after
  let matching ← prepare (plan.clauses s ++ after)
  let rows := limitRows (asI64 (plan.limit + 1)) (newestFirst (s.changes.rows.filter matching))
  return Keyset.trim changeCursor plan.limit rows

/-! ## §6  Version links of the timeline -/

namespace Store

/-- `ORDER BY relation_version_id DESC LIMIT 1`. -/
def readRelationVersionLinks (s : Store) (relationId : RelationId) (observedAt : Timestamp)
    (origin : OriginRef) : List TimelineVersionLinkProjection :=
  ((s.relationVersions.rows.filter fun v =>
      decide (v.relationId = relationId) && decide (v.observedAt = observedAt) &&
        decide (v.origin = origin)).getLast?.map fun v =>
    .relation relationId v.relationVersionId).toList

/-- `read_timeline_version_links`. Origins are compared as their JSON texts,
which are equal when the origins are. -/
def readTimelineVersionLinks (s : Store) (change : Change) : List TimelineVersionLinkProjection :=
  match change.subject with
  | .resource resourceId =>
      match change.origin with
      | .syncRun syncRunId =>
          ((s.resourceVersions.rows.filter fun v =>
              decide (v.resourceId = resourceId) && decide (v.observedAt = change.observedAt) &&
                decide (v.syncRunId = syncRunId)).getLast?.map fun v =>
            .resource resourceId v.versionId).toList
      | _ => []
  | .relation relationId => s.readRelationVersionLinks relationId change.observedAt change.origin
  | .binding _ =>
      match change.origin with
      | .binding _ =>
          let versions := s.relationVersions.rows.filter fun v =>
            decide (v.observedAt = change.observedAt) && decide (v.origin = change.origin)
          (versions.insertionSort fun a b =>
              toLex (a.relationId, a.relationVersionId) ≤
                toLex (b.relationId, b.relationVersionId)).map fun v =>
            .relation v.relationId v.relationVersionId
      | _ => []

end Store

/-! ## §7  The snapshot reads -/

/-- `ProjectionSnapshot`; the clock value `committed_at` is not kept. -/
structure ProjectionSnapshot (ρ : Type) where
  committedRevision : Nat
  body : ρ

namespace Store

/-- `with_projection_snapshot`: the read and the metadata see one state. -/
def withProjectionSnapshot {ρ : Type} (s : Store) (read : Except ReadError ρ) :
    Except ReadError (ProjectionSnapshot ρ) :=
  read.map fun body => { committedRevision := s.committedRevision, body := body }

def queryResources (toLowercase : String → String) (s : Store) (plan : ResourceProjectionPlan) :
    Except ReadError (ProjectionSnapshot (ProjectionPage ProjectedResource)) := do
  validateLimit plan.limit
  s.withProjectionSnapshot do
    validateCutoffs s plan.cutoffs
    readResourcePage toLowercase s plan

def queryRelationsForResources (s : Store) (resourceIds : OrderedSet ResourceId) (limit : Nat)
    (after : Option String) :
    Except ReadError (ProjectionSnapshot (ProjectionPage ProjectedRelation)) := do
  validateLimit limit
  if maxProjectionPageLimit < resourceIds.rows.length then
    .error (.contract "too many topology frontier resources")
  else s.withProjectionSnapshot (readRelationsForResources s resourceIds limit after false)

def queryRelationsWithinResources (s : Store) (resourceIds : OrderedSet ResourceId) (limit : Nat)
    (after : Option String) :
    Except ReadError (ProjectionSnapshot (ProjectionPage ProjectedRelation)) := do
  validateLimit limit
  if maxProjectionPageLimit < resourceIds.rows.length then
    .error (.contract "too many resource ids")
  else s.withProjectionSnapshot (readRelationsForResources s resourceIds limit after true)

def queryResourcesByIds (s : Store) (resourceIds : OrderedSet ResourceId) :
    Except ReadError (ProjectionSnapshot (List Resource)) :=
  if maxProjectionPageLimit < resourceIds.rows.length then
    .error (.contract "too many resource ids")
  else s.withProjectionSnapshot (.ok (s.resources.rows.filter fun r =>
    decide (r.resourceId ∈ resourceIds.rows)))

def queryRecentChanges (s : Store) (plan : RecentChangesProjectionPlan) :
    Except ReadError (ProjectionSnapshot (ProjectionPage Change)) := do
  validateLimit plan.limit
  s.withProjectionSnapshot (readRecentChanges s plan)

def queryTimeline (s : Store) (limit : Nat) (after : Option String) :
    Except ReadError (ProjectionSnapshot (ProjectionPage TimelineProjectionItem)) := do
  validateLimit limit
  s.withProjectionSnapshot do
    let page ← readRecentChanges s
      { sinceMillis := none, resourceId := none, kinds := .empty, limit := limit, after := after }
    return { items := page.items.map fun change =>
               { change := change, versionLinks := s.readTimelineVersionLinks change }
             nextAfter := page.nextAfter }

end Store

end NextInfra
