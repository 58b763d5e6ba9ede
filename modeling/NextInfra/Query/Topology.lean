import Mathlib.Data.Set.Card
import NextInfra.Core.Text
import NextInfra.Lib.LayeredSearch
import NextInfra.Purge.Closure
import NextInfra.Query.Freshness

/-!
# The topology of a resource

`build_topology` of `next-infra-runtime` draws the relations around a resource, one layer at a
time, with a limit on the nodes and one on the edges. It is a layered search of `Lib.LayeredSearch`
over the stored relations: each layer reads one page of the relations at its frontier, and each
relation of the page is drawn, marked as left out, or passed over because it has been drawn.

Whatever is left out marks the result as truncated, and so a result without the mark has the whole
ball around the resource (`topology_sound_and_complete`). The limits do not have to be exceeded for
the mark: the page of a layer has the relations drawn before once more, and a layer after the last
edge is not read at all (`TopologyPlan.LayerFits`).
-/

namespace NextInfra

open LayeredSearch Sql

/-! ## §1  The query -/

/-- The depth is a `u8`. -/
structure TopologyPlan where
  focusResourceId : String
  depth : Nat
  maxNodes : Nat
  maxEdges : Nat

structure TopologyBody where
  nodes : List ResourceDto
  edges : List RelationDto
  frontier : List TopologyFrontierDto
  truncated : Bool

def frontierDirectionKey : FrontierDirectionDto → Nat
  | .incoming => 0
  | .outgoing => 1

def frontierDirection (value : Nat) : FrontierDirectionDto :=
  if value = 0 then .incoming else .outgoing

/-- What the loop of `build_topology` carries along, its frontier aside. -/
structure TopologyWalk where
  visited : OrderedSet ResourceId
  nextFrontier : OrderedSet ResourceId
  projectedEdges : OrderedMap String ProjectedRelation
  frontier : OrderedSet (String ×ₗ Nat)
  truncated : Bool

def addFrontierForRelation (frontier : OrderedSet (String ×ₗ Nat)) (relation : Relation)
    (visited : OrderedSet ResourceId) : OrderedSet (String ×ₗ Nat) :=
  if relation.sourceResourceId ∈ visited.rows ∧ relation.targetResourceId ∉ visited.rows then
    frontier.put (toLex (relation.targetResourceId.val, frontierDirectionKey .outgoing))
  else if relation.targetResourceId ∈ visited.rows ∧
      relation.sourceResourceId ∉ visited.rows then
    frontier.put (toLex (relation.sourceResourceId.val, frontierDirectionKey .incoming))
  else frontier

/-- The other end of a relation at the frontier, and the direction it lies in. -/
def neighborOf (frontierIds : OrderedSet ResourceId) (relation : Relation) :
    Option (ResourceId × FrontierDirectionDto) :=
  if relation.sourceResourceId ∈ frontierIds.rows then some (relation.targetResourceId, .outgoing)
  else if relation.targetResourceId ∈ frontierIds.rows then
    some (relation.sourceResourceId, .incoming)
  else none

/-- The body of the loop over a page of relations. -/
def visitRelation (plan : TopologyPlan) (frontierIds : OrderedSet ResourceId)
    (walk : TopologyWalk) (projected : ProjectedRelation) : TopologyWalk :=
  let relation := projected.relation
  let relationId := relation.relationId.val
  if (OrderedMap.lookup walk.projectedEdges relationId).isSome then walk
  else
    match neighborOf frontierIds relation with
    | none => walk
    | some (neighbor, direction) =>
        if neighbor ∉ walk.visited.rows ∧ plan.maxNodes ≤ walk.visited.rows.length then
          { walk with
            truncated := true
            frontier := walk.frontier.put (toLex (neighbor.val, frontierDirectionKey direction)) }
        else if plan.maxEdges ≤ walk.projectedEdges.rows.length then
          { walk with
            truncated := true
            frontier := addFrontierForRelation walk.frontier relation walk.visited }
        else if neighbor ∈ walk.visited.rows then
          { walk with projectedEdges := OrderedMap.insert walk.projectedEdges relationId projected }
        else
          { walk with
            projectedEdges := OrderedMap.insert walk.projectedEdges relationId projected
            visited := walk.visited.put neighbor
            nextFrontier := walk.nextFrontier.put neighbor }

/-- The locals before the first layer. -/
def focusWalk (focusId : ResourceId) : TopologyWalk where
  visited := KeyedTable.empty.put focusId
  nextFrontier := .empty
  projectedEdges := .empty
  frontier := .empty
  truncated := false

namespace Store

/-- The loop over the layers, with so many of them left. -/
def expandFrom (s : Store) (metadata : Nat) (plan : TopologyPlan) :
    (left : Nat) → (frontierIds : OrderedSet ResourceId) → TopologyWalk →
      Except QuerySourceError TopologyWalk
  | 0, _, walk => .ok walk
  | left + 1, frontierIds, walk =>
      if frontierIds.rows.isEmpty then .ok walk
      else
        let remainingEdges := plan.maxEdges - walk.projectedEdges.rows.length
        if remainingEdges = 0 then .ok { walk with truncated := true }
        else do
          let projection ← readStore
            (s.queryRelationsForResources frontierIds (remainingEdges + 1) none)
          if projection.committedRevision ≠ metadata then
            .error (.contract "topology projections changed during query")
          else
            let layer := projection.body.items.foldl (visitRelation plan frontierIds)
              { walk with
                nextFrontier := .empty
                truncated := walk.truncated || projection.body.nextAfter.isSome }
            expandFrom s metadata plan left layer.nextFrontier layer

/-- `build_topology`: the metadata, and a body when the focus is stored. -/
def buildTopology (s : Store) (focusId : ResourceId) (plan : TopologyPlan)
    (context : QueryContextSnapshot) : Except QuerySourceError (Nat × Option TopologyBody) := do
  let focus ← readStore (s.queryResourcesByIds (KeyedTable.empty.put focusId))
  let metadata := focus.committedRevision
  if focus.body.isEmpty then return (metadata, none)
  let walk ← s.expandFrom metadata plan plan.depth (KeyedTable.empty.put focusId)
    (focusWalk focusId)
  let resources ← readStore (s.queryResourcesByIds walk.visited)
  if resources.committedRevision ≠ metadata then
    .error (.contract "topology projections changed during query")
  else
    let nodes ← resources.body.mapM fun resource => resourceDtoFromContext resource context
    let edges ← (OrderedMap.values walk.projectedEdges).mapM projectedRelationDto
    return (metadata, some
      { nodes := nodes
        edges := edges
        frontier := walk.frontier.rows.map fun mark =>
          { resourceId := (ofLex mark).1, direction := frontierDirection (ofLex mark).2 }
        truncated := walk.truncated })

end Store

/-- `Display` of `StoreError`, for the errors of a read. -/
def ReadError.text : ReadError → String
  | .sqlite message => "store SQLite error: " ++ message
  | .contract message => "store contract error: " ++ message

/-- `Display` of `QuerySourceError`. -/
def QuerySourceError.text : QuerySourceError → String
  | .store error => "store query failed: " ++ error.text
  | .invalidInterval => "query context failed: query schedule interval is invalid"
  | .contract message => message

def CommittedQuerySource.getTopology (source : CommittedQuerySource) (plan : TopologyPlan) :
    Except QuerySourceError (SourceSnapshot (Option TopologyBody)) := do
  if plan.depth = 0 ∨ plan.maxNodes = 0 ∨ plan.maxEdges = 0 then
    .error (.contract "topology bounds must be positive")
  else
    let focusId ← (StringValue.new plan.focusResourceId : Except DomainError ResourceId).mapError
      fun error => .contract error.message
    let (revision, body) ← readStore ((source.store.buildTopology focusId plan
      source.context).mapError fun error => .contract error.text)
    return { metadata := source.metadata revision, body := body }

/-! ## §2  One relation -/

/-- The graph of the stored relations. -/
def relationEnds : Ends ResourceId Relation where
  source := Relation.sourceResourceId
  target := Relation.targetResourceId

def Store.edges (s : Store) : Set Relation := {r | r ∈ s.relations.rows}

def members (ids : OrderedSet ResourceId) : Set ResourceId := {id | id ∈ ids.rows}

namespace TopologyWalk

def drawn (walk : TopologyWalk) : Set Relation :=
  {r | ∃ row ∈ walk.projectedEdges.rows, row.2.relation = r}

/-- One of the limits is reached. -/
def Full (plan : TopologyPlan) (walk : TopologyWalk) : Prop :=
  plan.maxNodes ≤ walk.visited.rows.length ∨ plan.maxEdges ≤ walk.projectedEdges.rows.length

/-- The limits are kept, the edges are stored relations, and what the frontier marks is not
visited and, the walk being full, never will be. -/
structure Keeps (s : Store) (plan : TopologyPlan) (walk : TopologyWalk) : Prop where
  stored : ∀ row ∈ walk.projectedEdges.rows, ∃ r ∈ s.relations.rows,
    row = (r.relationId.val, s.readProjectedRelation r)
  nodes : walk.visited.rows.length ≤ plan.maxNodes
  edges : walk.projectedEdges.rows.length ≤ plan.maxEdges
  apart : ∀ mark ∈ walk.frontier.rows, walk.Full plan ∧
    ∀ id ∈ walk.visited.rows, id.val ≠ (ofLex mark).1

end TopologyWalk

namespace TopologyPlan

/-- All of these fit the limits. -/
structure Room (plan : TopologyPlan) (nodes : Set ResourceId) (edges : Set Relation) : Prop where
  nodes_finite : nodes.Finite
  edges_finite : edges.Finite
  nodes_le : nodes.ncard ≤ plan.maxNodes
  edges_le : edges.ncard ≤ plan.maxEdges

/-- A layer at this distance is read, its page is the last one, and what it leads to fits the
limits. -/
structure LayerFits (plan : TopologyPlan) (s : Store) (focus : ResourceId) (k : Nat) : Prop where
  read : (near relationEnds s.edges focus k).ncard < plan.maxEdges
  last : (near relationEnds s.edges focus k).ncard +
    (edgesAt relationEnds s.edges (sphere relationEnds s.edges focus k)).ncard ≤ plan.maxEdges + 1
  nodes : (ball relationEnds s.edges focus (k + 1)).ncard ≤ plan.maxNodes
  edges : (near relationEnds s.edges focus (k + 1)).ncard ≤ plan.maxEdges

/-- Every layer that has resources at its distance fits. -/
def Fits (plan : TopologyPlan) (s : Store) (focus : ResourceId) : Prop :=
  ∀ k < plan.depth, (sphere relationEnds s.edges focus k).Nonempty → plan.LayerFits s focus k

end TopologyPlan

section

variable {s : Store} {plan : TopologyPlan} {frontierIds : OrderedSet ResourceId}
  {walk : TopologyWalk} {r : Relation}

theorem length_members (ids : OrderedSet ResourceId) :
    ids.rows.length = (members ids).ncard := by
  have hmembers : members ids = (ids.rows.toFinset : Set ResourceId) := by
    ext id
    simp [members]
  rw [hmembers, Set.ncard_coe_finset, List.toFinset_card_of_nodup ids.rows_nodup]

theorem TopologyWalk.Keeps.length_drawn (hkeeps : walk.Keeps s plan) :
    walk.projectedEdges.rows.length = walk.drawn.ncard := by
  classical
  have hdrawn : walk.drawn =
      ((walk.projectedEdges.rows.map fun row => row.2.relation).toFinset : Set Relation) := by
    ext r
    simp [TopologyWalk.drawn]
  have hnodup : (walk.projectedEdges.rows.map fun row => row.2.relation).Nodup := by
    refine walk.projectedEdges.rows_nodup.map_on fun row hrow row' hrow' hsame => ?_
    obtain ⟨r, -, rfl⟩ := hkeeps.stored row hrow
    obtain ⟨r', -, rfl⟩ := hkeeps.stored row' hrow'
    have hsame : r = r' := hsame
    rw [hsame]
  rw [hdrawn, Set.ncard_coe_finset, List.toFinset_card_of_nodup hnodup, List.length_map]

theorem neighborOf_incident (h : ∃ u ∈ frontierIds.rows, relationEnds.Incident r u) :
    ∃ u ∈ frontierIds.rows, ∃ v direction, neighborOf frontierIds r = some (v, direction) ∧
      relationEnds.Joins r u v := by
  unfold neighborOf
  by_cases hsource : r.sourceResourceId ∈ frontierIds.rows
  · rw [if_pos hsource]
    exact ⟨_, hsource, _, _, rfl, .inl ⟨rfl, rfl⟩⟩
  · rw [if_neg hsource]
    have htarget : r.targetResourceId ∈ frontierIds.rows := by
      obtain ⟨u, hu, hincident | hincident⟩ := h
      · have hu' : u = r.sourceResourceId := hincident.symm
        exact absurd (hu' ▸ hu) hsource
      · have hu' : u = r.targetResourceId := hincident.symm
        exact hu' ▸ hu
    rw [if_pos htarget]
    exact ⟨_, htarget, _, _, rfl, .inr ⟨rfl, rfl⟩⟩

/-- A mark is put for a resource that has not been visited. -/
theorem mem_put_mark {frontier : OrderedSet (String ×ₗ Nat)} {visited : OrderedSet ResourceId}
    {neighbor : ResourceId} (hnew : neighbor ∉ visited.rows) {direction : Nat}
    {mark : String ×ₗ Nat} (h : mark ∈ (frontier.put (toLex (neighbor.val, direction))).rows) :
    mark ∈ frontier.rows ∨ ∀ id ∈ visited.rows, id.val ≠ (ofLex mark).1 := by
  rcases KeyedTable.mem_put.mp h with rfl | ⟨hold, -⟩
  · right
    intro id hid heq
    have hsame : id = neighbor := StringValue.ext_val heq
    exact hnew (hsame ▸ hid)
  · exact .inl hold

theorem mem_addFrontier {frontier : OrderedSet (String ×ₗ Nat)} {visited : OrderedSet ResourceId}
    {mark : String ×ₗ Nat} (h : mark ∈ (addFrontierForRelation frontier r visited).rows) :
    mark ∈ frontier.rows ∨ ∀ id ∈ visited.rows, id.val ≠ (ofLex mark).1 := by
  unfold addFrontierForRelation at h
  split at h
  · rename_i hends
    exact mem_put_mark hends.2 h
  split at h
  · rename_i hends
    exact mem_put_mark hends.2 h
  · exact .inl h

/-- What visiting a relation at the frontier can do: nothing, when it has been drawn; leave it out,
when a limit is reached; draw it, and visit its other end if that is new. -/
theorem visitRelation_cases (h : ∃ u ∈ frontierIds.rows, relationEnds.Incident r u)
    (projected : ProjectedRelation) (hr : projected.relation = r) :
    (∃ p, OrderedMap.lookup walk.projectedEdges r.relationId.val = some p) ∧
        visitRelation plan frontierIds walk projected = walk ∨
    (∃ frontier : OrderedSet (String ×ₗ Nat),
      visitRelation plan frontierIds walk projected =
        { walk with truncated := true, frontier := frontier } ∧
      (OrderedMap.lookup walk.projectedEdges r.relationId.val = none ∧
        ((∃ v, relationEnds.Incident r v ∧ v ∉ walk.visited.rows) ∧
            plan.maxNodes ≤ walk.visited.rows.length ∨
          plan.maxEdges ≤ walk.projectedEdges.rows.length)) ∧
      ∀ mark ∈ frontier.rows, mark ∈ walk.frontier.rows ∨
        ∀ id ∈ walk.visited.rows, id.val ≠ (ofLex mark).1) ∨
    OrderedMap.lookup walk.projectedEdges r.relationId.val = none ∧
      walk.projectedEdges.rows.length < plan.maxEdges ∧
      ∃ u ∈ frontierIds.rows, ∃ v, relationEnds.Joins r u v ∧
        (v ∈ walk.visited.rows ∧ visitRelation plan frontierIds walk projected =
          { walk with
            projectedEdges :=
              OrderedMap.insert walk.projectedEdges r.relationId.val projected } ∨
        v ∉ walk.visited.rows ∧ walk.visited.rows.length < plan.maxNodes ∧
          visitRelation plan frontierIds walk projected =
            { walk with
              projectedEdges := OrderedMap.insert walk.projectedEdges r.relationId.val projected
              visited := walk.visited.put v
              nextFrontier := walk.nextFrontier.put v }) := by
  subst hr
  obtain ⟨u, hu, v, direction, hneighbor, hjoins⟩ := neighborOf_incident h
  unfold visitRelation
  dsimp only
  cases hlookup : OrderedMap.lookup walk.projectedEdges projected.relation.relationId.val with
  | some p => exact .inl ⟨⟨p, rfl⟩, by simp⟩
  | none =>
      right
      rw [hneighbor, if_neg (by simp)]
      dsimp only
      by_cases hnodes : v ∉ walk.visited.rows ∧ plan.maxNodes ≤ walk.visited.rows.length
      · rw [if_pos hnodes]
        exact .inl ⟨_, rfl, ⟨rfl, .inl ⟨⟨v, hjoins.symm.incident, hnodes.1⟩, hnodes.2⟩⟩,
          fun mark hmark => mem_put_mark hnodes.1 hmark⟩
      rw [if_neg hnodes]
      by_cases hedges : plan.maxEdges ≤ walk.projectedEdges.rows.length
      · rw [if_pos hedges]
        exact .inl ⟨_, rfl, ⟨rfl, .inr hedges⟩, fun mark hmark => mem_addFrontier hmark⟩
      rw [if_neg hedges]
      refine .inr ⟨rfl, by omega, u, hu, v, hjoins, ?_⟩
      by_cases hvisited : v ∈ walk.visited.rows
      · rw [if_pos hvisited]
        exact .inl ⟨hvisited, rfl⟩
      · rw [if_neg hvisited]
        push Not at hnodes
        exact .inr ⟨hvisited, hnodes hvisited, rfl⟩

theorem members_put (ids : OrderedSet ResourceId) (id : ResourceId) :
    members (ids.put id) = insert id (members ids) := by
  ext v
  show v ∈ (ids.put id).rows ↔ v = id ∨ v ∈ ids.rows
  rw [KeyedTable.mem_put]
  by_cases hv : v = id
  · simp [hv]
  · simp [hv]

theorem members_empty : members .empty = ∅ := by
  ext v
  simp [members]

theorem drawn_insert {projected : ProjectedRelation}
    (hnone : OrderedMap.lookup walk.projectedEdges projected.relation.relationId.val = none) :
    { walk with
      projectedEdges := OrderedMap.insert walk.projectedEdges
        projected.relation.relationId.val projected }.drawn =
      insert projected.relation walk.drawn := by
  ext r
  show (∃ row ∈ (walk.projectedEdges.put (_, projected)).rows, row.2.relation = r) ↔
    r = projected.relation ∨ ∃ row ∈ walk.projectedEdges.rows, row.2.relation = r
  have hfresh : ∀ row ∈ walk.projectedEdges.rows,
      row.1 ≠ projected.relation.relationId.val := by
    rintro ⟨id, p⟩ hrow rfl
    rw [OrderedMap.lookup_eq_some_iff.mpr hrow] at hnone
    cases hnone
  constructor
  · rintro ⟨row, hrow, rfl⟩
    rcases KeyedTable.mem_put.mp hrow with rfl | ⟨hold, -⟩
    · exact .inl rfl
    · exact .inr ⟨row, hold, rfl⟩
  · rintro (rfl | ⟨row, hold, rfl⟩)
    · exact ⟨_, KeyedTable.mem_put.mpr (.inl rfl), rfl⟩
    · exact ⟨row, KeyedTable.mem_put.mpr (.inr ⟨hold, hfresh row hold⟩), rfl⟩

/-- Relations of one id are one relation, and its edge is drawn for it. -/
theorem TopologyWalk.Keeps.drawn_of_lookup (hkeeps : walk.Keeps s plan)
    (hr : r ∈ s.relations.rows) {p : ProjectedRelation}
    (hlookup : OrderedMap.lookup walk.projectedEdges r.relationId.val = some p) :
    r ∈ walk.drawn := by
  have hrow := OrderedMap.lookup_eq_some_iff.mp hlookup
  obtain ⟨r', hr', heq⟩ := hkeeps.stored _ hrow
  have hid : r.relationId = r'.relationId := StringValue.ext_val (congrArg Prod.fst heq)
  have hsame : r = r' := s.relations.row_unique hr hr' hid
  refine ⟨_, hrow, ?_⟩
  rw [congrArg Prod.snd heq, hsame]
  rfl

theorem TopologyWalk.Keeps.lookup_of_drawn (hkeeps : walk.Keeps s plan) (h : r ∈ walk.drawn) :
    (OrderedMap.lookup walk.projectedEdges r.relationId.val).isSome := by
  obtain ⟨row, hrow, rfl⟩ := h
  obtain ⟨r, -, rfl⟩ := hkeeps.stored row hrow
  have hfound : OrderedMap.lookup walk.projectedEdges r.relationId.val =
      some (s.readProjectedRelation r) := OrderedMap.lookup_eq_some_iff.mpr hrow
  show (OrderedMap.lookup walk.projectedEdges r.relationId.val).isSome = true
  rw [hfound]
  rfl

/-- A visit keeps the limits. -/
theorem TopologyWalk.Keeps.visit (hkeeps : walk.Keeps s plan) (hr : r ∈ s.relations.rows)
    (h : ∃ u ∈ frontierIds.rows, relationEnds.Incident r u) :
    (visitRelation plan frontierIds walk (s.readProjectedRelation r)).Keeps s plan := by
  have hstored : ∀ row ∈ (OrderedMap.insert walk.projectedEdges r.relationId.val
      (s.readProjectedRelation r)).rows, ∃ r' ∈ s.relations.rows,
        row = (r'.relationId.val, s.readProjectedRelation r') := by
    intro row hrow
    rcases KeyedTable.mem_put.mp hrow with rfl | ⟨hold, -⟩
    · exact ⟨r, hr, rfl⟩
    · exact hkeeps.stored row hold
  have hlength := KeyedTable.length_put_le walk.projectedEdges
    (r.relationId.val, s.readProjectedRelation r)
  rcases @visitRelation_cases plan frontierIds walk r h (s.readProjectedRelation r) rfl with
    ⟨-, heq⟩ | ⟨frontier, heq, ⟨-, hfull⟩, hmarks⟩ | ⟨-, hedges, u, hu, v, hjoins, hvisit⟩
  · rw [heq]
    exact hkeeps
  · rw [heq]
    refine ⟨hkeeps.stored, hkeeps.nodes, hkeeps.edges, fun mark hmark =>
      ⟨hfull.imp And.right id, ?_⟩⟩
    rcases hmarks mark hmark with hold | hnew
    · exact (hkeeps.apart mark hold).2
    · exact hnew
  · have hfull : ∀ mark ∈ walk.frontier.rows, plan.maxNodes ≤ walk.visited.rows.length := by
      intro mark hmark
      rcases (hkeeps.apart mark hmark).1 with hnodes | hfull
      · exact hnodes
      · omega
    rcases hvisit with ⟨hold, heq⟩ | ⟨hnew, hnodes, heq⟩
    · rw [heq]
      refine ⟨hstored, hkeeps.nodes, le_trans hlength hedges, fun mark hmark => ?_⟩
      exact ⟨.inl (hfull mark hmark), (hkeeps.apart mark hmark).2⟩
    · rw [heq]
      refine ⟨hstored, le_trans (KeyedTable.length_put_le walk.visited v) hnodes,
        le_trans hlength hedges, fun mark hmark => ?_⟩
      exact absurd (hfull mark hmark) (by omega)

/-- A visit expands the search by at most the relation. -/
theorem expands_visit {drawn : Set Relation} {visited : Set ResourceId}
    (hexp : Expands relationEnds s.edges (members frontierIds) drawn visited walk.drawn
      (members walk.visited) (members walk.nextFrontier))
    (hfrontier : members frontierIds ⊆ visited) (hr : r ∈ s.relations.rows)
    (h : ∃ u ∈ frontierIds.rows, relationEnds.Incident r u) :
    Expands relationEnds s.edges (members frontierIds) drawn visited
      (visitRelation plan frontierIds walk (s.readProjectedRelation r)).drawn
      (members (visitRelation plan frontierIds walk (s.readProjectedRelation r)).visited)
      (members (visitRelation plan frontierIds walk (s.readProjectedRelation r)).nextFrontier) := by
  rcases @visitRelation_cases plan frontierIds walk r h (s.readProjectedRelation r) rfl with
    ⟨-, heq⟩ | ⟨frontier, heq, -, -⟩ | ⟨hnone, -, u, hu, v, hjoins, hvisit⟩
  · rw [heq]
    exact hexp
  · rw [heq]
    exact hexp
  · have hdrawn := @drawn_insert walk (s.readProjectedRelation r) hnone
    rcases hvisit with ⟨hold, heq⟩ | ⟨hnew, -, heq⟩
    · rw [heq]
      exact hdrawn ▸ hexp.draw hr hu hfrontier hjoins hold
    · rw [heq]
      show Expands _ _ _ _ _ _ (members (walk.visited.put v)) (members (walk.nextFrontier.put v))
      rw [members_put, members_put]
      exact hdrawn ▸ hexp.visit hr hu hfrontier hjoins hnew

/-- A visit draws its relation unless the walk is marked. -/
theorem visit_draws (hkeeps : walk.Keeps s plan) (hr : r ∈ s.relations.rows)
    (h : ∃ u ∈ frontierIds.rows, relationEnds.Incident r u) :
    walk.drawn ⊆ (visitRelation plan frontierIds walk (s.readProjectedRelation r)).drawn ∧
      ((visitRelation plan frontierIds walk (s.readProjectedRelation r)).truncated = false →
        walk.truncated = false ∧
          r ∈ (visitRelation plan frontierIds walk (s.readProjectedRelation r)).drawn) := by
  rcases @visitRelation_cases plan frontierIds walk r h (s.readProjectedRelation r) rfl with
    ⟨⟨p, hlookup⟩, heq⟩ | ⟨frontier, heq, -, -⟩ | ⟨hnone, -, u, hu, v, hjoins, hvisit⟩
  · rw [heq]
    exact ⟨fun _ hd => hd, fun hclear => ⟨hclear, hkeeps.drawn_of_lookup hr hlookup⟩⟩
  · rw [heq]
    exact ⟨fun _ hd => hd, fun hclear => by cases hclear⟩
  · have hdrawn := @drawn_insert walk (s.readProjectedRelation r) hnone
    have hgrown : walk.drawn ⊆ insert r walk.drawn := Set.subset_insert r walk.drawn
    rcases hvisit with ⟨-, heq⟩ | ⟨-, -, heq⟩
    · rw [heq]
      exact ⟨hdrawn ▸ hgrown, fun hclear => ⟨hclear, hdrawn ▸ Set.mem_insert r walk.drawn⟩⟩
    · rw [heq]
      exact ⟨hdrawn ▸ hgrown, fun hclear => ⟨hclear, hdrawn ▸ Set.mem_insert r walk.drawn⟩⟩

/-- Where all that may be drawn fits the limits, a visit does not mark the walk. -/
theorem visit_clears {nodes : Set ResourceId} {edges : Set Relation} (hkeeps : walk.Keeps s plan)
    (hroom : plan.Room nodes edges) (hvisited : members walk.visited ⊆ nodes)
    (hdrawn : walk.drawn ⊆ edges) (h : ∃ u ∈ frontierIds.rows, relationEnds.Incident r u)
    (hedge : r ∈ edges) (hends : ∀ v, relationEnds.Incident r v → v ∈ nodes) :
    (visitRelation plan frontierIds walk (s.readProjectedRelation r)).truncated = walk.truncated ∧
      members (visitRelation plan frontierIds walk (s.readProjectedRelation r)).visited ⊆ nodes ∧
      (visitRelation plan frontierIds walk (s.readProjectedRelation r)).drawn ⊆ edges := by
  rcases @visitRelation_cases plan frontierIds walk r h (s.readProjectedRelation r) rfl with
    ⟨-, heq⟩ | ⟨frontier, -, ⟨hnone, hfull⟩, -⟩ | ⟨hnone, -, u, hu, v, hjoins, hvisit⟩
  · rw [heq]
    exact ⟨rfl, hvisited, hdrawn⟩
  · exfalso
    rcases hfull with ⟨⟨v, hincident, hnew⟩, hnodes⟩ | hedges
    -- a full limit leaves no room in a set with one resource more, or with this relation
    · have hmore : (members walk.visited).ncard < nodes.ncard :=
        Set.ncard_lt_ncard ⟨hvisited, fun hsub => hnew (hsub (hends v hincident))⟩
          hroom.nodes_finite
      have := hroom.nodes_le
      rw [← length_members] at hmore
      omega
    · have hundrawn : r ∉ walk.drawn := by
        intro hold
        have hfound := hkeeps.lookup_of_drawn hold
        rw [hnone] at hfound
        cases hfound
      have hmore : walk.drawn.ncard < edges.ncard :=
        Set.ncard_lt_ncard ⟨hdrawn, fun hsub => hundrawn (hsub hedge)⟩ hroom.edges_finite
      have := hroom.edges_le
      rw [← hkeeps.length_drawn] at hmore
      omega
  · have hinsert := @drawn_insert walk (s.readProjectedRelation r) hnone
    have hgrown : insert r walk.drawn ⊆ edges := Set.insert_subset hedge hdrawn
    rcases hvisit with ⟨-, heq⟩ | ⟨-, -, heq⟩
    · rw [heq]
      exact ⟨rfl, hvisited, hinsert ▸ hgrown⟩
    · rw [heq]
      refine ⟨rfl, ?_, hinsert ▸ hgrown⟩
      show members (walk.visited.put v) ⊆ nodes
      rw [members_put]
      exact Set.insert_subset (hends v hjoins.symm.incident) hvisited

theorem foldl_clears {nodes : Set ResourceId} {edges : Set Relation} {rows : List Relation}
    (hrows : ∀ r ∈ rows, r ∈ s.relations.rows ∧
      ∃ u ∈ frontierIds.rows, relationEnds.Incident r u)
    (hedges : ∀ r ∈ rows, r ∈ edges ∧ ∀ v, relationEnds.Incident r v → v ∈ nodes)
    (hkeeps : walk.Keeps s plan) (hroom : plan.Room nodes edges)
    (hvisited : members walk.visited ⊆ nodes) (hdrawn : walk.drawn ⊆ edges) :
    ((rows.map s.readProjectedRelation).foldl (visitRelation plan frontierIds) walk).truncated =
      walk.truncated := by
  induction rows generalizing walk with
  | nil => rfl
  | cons r rows ih =>
      obtain ⟨hr, hat⟩ := hrows r List.mem_cons_self
      obtain ⟨hedge, hends⟩ := hedges r List.mem_cons_self
      obtain ⟨htruncated, hvisited', hdrawn'⟩ :=
        visit_clears hkeeps hroom hvisited hdrawn hat hedge hends
      exact (ih (fun r' hr' => hrows r' (List.mem_cons_of_mem _ hr'))
        (fun r' hr' => hedges r' (List.mem_cons_of_mem _ hr')) (hkeeps.visit hr hat) hvisited'
        hdrawn').trans htruncated

/-- A page of relations at the frontier keeps the limits, expands the search and draws all of them
unless the walk is marked. -/
theorem foldl_visit {drawn : Set Relation} {visited : Set ResourceId} {rows : List Relation}
    (hrows : ∀ r ∈ rows, r ∈ s.relations.rows ∧
      ∃ u ∈ frontierIds.rows, relationEnds.Incident r u)
    (hfrontier : members frontierIds ⊆ visited) (hkeeps : walk.Keeps s plan)
    (hexp : Expands relationEnds s.edges (members frontierIds) drawn visited walk.drawn
      (members walk.visited) (members walk.nextFrontier))
    {layer : TopologyWalk}
    (hlayer : (rows.map s.readProjectedRelation).foldl (visitRelation plan frontierIds) walk =
      layer) :
    layer.Keeps s plan ∧
      Expands relationEnds s.edges (members frontierIds) drawn visited layer.drawn
        (members layer.visited) (members layer.nextFrontier) ∧
      walk.drawn ⊆ layer.drawn ∧
      (layer.truncated = false → walk.truncated = false ∧ ∀ r ∈ rows, r ∈ layer.drawn) := by
  induction rows generalizing walk with
  | nil =>
      obtain rfl := hlayer
      exact ⟨hkeeps, hexp, fun _ hd => hd, fun hclear => ⟨hclear, fun _ hr => by cases hr⟩⟩
  | cons r rows ih =>
      obtain ⟨hr, hat⟩ := hrows r List.mem_cons_self
      obtain ⟨hgrown, hdraws⟩ := @visit_draws s plan frontierIds walk r hkeeps hr hat
      obtain ⟨hkept, hexpanded, hkeptDrawn, hclear⟩ :=
        ih (fun r' hr' => hrows r' (List.mem_cons_of_mem _ hr')) (hkeeps.visit hr hat)
          (expands_visit hexp hfrontier hr hat) hlayer
      refine ⟨hkept, hexpanded, fun _ hd => hkeptDrawn (hgrown hd), fun htruncated => ?_⟩
      obtain ⟨hvisit, hrest⟩ := hclear htruncated
      obtain ⟨hwalk, hdrawn⟩ := hdraws hvisit
      refine ⟨hwalk, fun r' hr' => ?_⟩
      rcases List.mem_cons.mp hr' with rfl | hr'
      · exact hkeptDrawn hdrawn
      · exact hrest r' hr'

end

/-! ## §3  Layers -/

section

variable {s : Store} {plan : TopologyPlan} {frontierIds : OrderedSet ResourceId}

/-- The frontier is visited, and so no larger. -/
theorem length_le_of_members {ids visited : OrderedSet ResourceId}
    (h : members ids ⊆ members visited) : ids.rows.length ≤ visited.rows.length :=
  (List.subperm_of_subset ids.rows_nodup fun _ hid => h hid).length_le

theorem projection_revision {limit : Nat}
    {projection : ProjectionSnapshot (ProjectionPage ProjectedRelation)}
    (h : s.queryRelationsForResources frontierIds limit none = .ok projection) :
    projection.committedRevision = s.committedRevision := by
  obtain ⟨_, -, h⟩ := bind_ok h
  split at h
  · cases h
  exact withProjectionSnapshot_revision h

/-- A request within the limits of the store is answered. -/
theorem queryRelationsForResources_eq {limit : Nat} (hsome : frontierIds.rows ≠ [])
    (hpos : 0 < limit) (hlimit : limit ≤ maxProjectionPageLimit)
    (hfits : frontierIds.rows.length ≤ maxProjectionPageLimit) :
    s.queryRelationsForResources frontierIds limit none =
      .ok { committedRevision := s.committedRevision
            body := Keyset.cut relationCursor limit ((s.relations.rows.filter fun r =>
              endpointTest frontierIds false r &&
                (none : Option String).all fun after => decide (after < r.relationId.val)).map
                  s.readProjectedRelation) } := by
  have hsmall : limit < maxI64 := lt_of_le_of_lt hlimit (by decide)
  unfold Store.queryRelationsForResources
  rw [validateLimit_of_le hpos hlimit]
  show (if _ then _ else _) = _
  rw [if_neg (by omega), Store.readRelationsForResources_eq hsmall hsome]
  rfl

/-- The page has a next one just when the relations at the frontier exceed the limit, and all of
them otherwise. -/
theorem page_at_frontier {limit : Nat}
    {projection : ProjectionSnapshot (ProjectionPage ProjectedRelation)}
    (h : s.queryRelationsForResources frontierIds limit none = .ok projection)
    (hsome : frontierIds.rows ≠ []) :
    ∃ rows : List Relation, projection.body.items = rows.map s.readProjectedRelation ∧
      (∀ r ∈ rows, r ∈ s.relations.rows ∧
        ∃ u ∈ frontierIds.rows, relationEnds.Incident r u) ∧
      (projection.body.nextAfter = none ↔
        (edgesAt relationEnds s.edges (members frontierIds)).ncard ≤ limit) ∧
      (projection.body.nextAfter = none →
        ∀ r ∈ edgesAt relationEnds s.edges (members frontierIds), r ∈ rows) := by
  classical
  obtain ⟨_, hlimit, h⟩ := bind_ok h
  split at h
  · cases h
  have hsmall : limit < maxI64 := lt_of_le_of_lt (validateLimit_ok hlimit).2 (by decide)
  have hpage := withProjectionSnapshot_ok h
  rw [Store.readRelationsForResources_eq hsmall hsome] at hpage
  have hbody := Except.ok.inj hpage
  have hat : ∀ r, endpointTest frontierIds false r = true ↔
      ∃ u ∈ frontierIds.rows, relationEnds.Incident r u := by
    intro r
    rw [endpointTest_iff]
    constructor
    · rintro (hsource | htarget)
      · exact ⟨_, hsource, .inl rfl⟩
      · exact ⟨_, htarget, .inr rfl⟩
    · rintro ⟨u, hu, hincident | hincident⟩
      · have hu' : u = r.sourceResourceId := hincident.symm
        exact .inl (hu' ▸ hu)
      · have hu' : u = r.targetResourceId := hincident.symm
        exact .inr (hu' ▸ hu)
  generalize hfound : (s.relations.rows.filter fun r => endpointTest frontierIds false r &&
    (none : Option String).all fun after => decide (after < r.relationId.val)) = found at hbody
  have hmem : ∀ r, r ∈ found ↔ r ∈ s.relations.rows ∧
      ∃ u ∈ frontierIds.rows, relationEnds.Incident r u := by
    intro r
    rw [← hfound, List.mem_filter, ← hat r]
    simp
  have hcount : (edgesAt relationEnds s.edges (members frontierIds)).ncard = found.length := by
    have hset : edgesAt relationEnds s.edges (members frontierIds) =
        (found.toFinset : Set Relation) := by
      ext r
      rw [List.coe_toFinset]
      exact (hmem r).symm
    have hnodup : found.Nodup := hfound ▸ s.relations.rows_nodup.filter _
    rw [hset, Set.ncard_coe_finset, List.toFinset_card_of_nodup hnodup]
  have hnext : projection.body.nextAfter = none ↔ found.length ≤ limit := by
    constructor
    · intro hlast
      by_contra hexceeds
      obtain ⟨init, last, rest, -, -, -, hcut⟩ := Keyset.cut_of_exceeds relationCursor
        (show limit < (found.map s.readProjectedRelation).length by
          rw [List.length_map]; omega) (validateLimit_ok hlimit).1
      rw [← hbody, hcut] at hlast
      cases hlast
    · intro hfits
      rw [← hbody, Keyset.cut_of_fits (by rwa [List.length_map])]
  refine ⟨found.take limit, ?_, fun r hr => (hmem r).mp (List.mem_of_mem_take hr), ?_, ?_⟩
  · rw [← hbody, Keyset.items_cut, List.map_take]
  · rw [hcount, hnext]
  · intro hlast r hr
    rw [List.take_of_length_le (hnext.mp hlast)]
    exact (hmem r).mpr hr

/-- A layer that has been read: unless it is marked it has drawn every edge at the frontier, and
where these fit the limits it marks nothing. -/
structure Layer (s : Store) (plan : TopologyPlan) (frontierIds : OrderedSet ResourceId)
    (walk layer : TopologyWalk) : Prop where
  some_frontier : frontierIds.rows ≠ []
  some_left : walk.projectedEdges.rows.length < plan.maxEdges
  keeps : layer.Keeps s plan
  expands : Expands relationEnds s.edges (members frontierIds) walk.drawn (members walk.visited)
    layer.drawn (members layer.visited) (members layer.nextFrontier)
  unmarked : layer.truncated = false → walk.truncated = false
  last : layer.truncated = false → walk.drawn.ncard +
    (edgesAt relationEnds s.edges (members frontierIds)).ncard ≤ plan.maxEdges + 1
  covers : layer.truncated = false →
    edgesAt relationEnds s.edges (members frontierIds) ⊆ layer.drawn
  clears : ∀ (nodes : Set ResourceId) (edges : Set Relation), plan.Room nodes edges →
    members walk.visited ⊆ nodes → walk.drawn ⊆ edges →
    (∀ r ∈ edgesAt relationEnds s.edges (members frontierIds),
      r ∈ edges ∧ ∀ v, relationEnds.Incident r v → v ∈ nodes) →
    walk.drawn.ncard +
      (edgesAt relationEnds s.edges (members frontierIds)).ncard ≤ plan.maxEdges + 1 →
    walk.truncated = false → layer.truncated = false

/-- What one round of the loop can do: stop at an empty frontier, stop marked when the edges are
used up, fail when the request is too large for the store, or read a layer. -/
theorem expandFrom_cases {metadata left levels : Nat} {focus : ResourceId} {walk : TopologyWalk}
    (hmetadata : metadata = s.committedRevision) (hkeeps : walk.Keeps s plan)
    (hsound : Sound relationEnds s.edges focus levels walk.drawn (members walk.visited)
      (members frontierIds)) :
    frontierIds.rows = [] ∧ s.expandFrom metadata plan (left + 1) frontierIds walk = .ok walk ∨
    (frontierIds.rows ≠ [] ∧ plan.maxEdges ≤ walk.projectedEdges.rows.length) ∧
      s.expandFrom metadata plan (left + 1) frontierIds walk =
        .ok { walk with truncated := true } ∨
    (∃ error, s.expandFrom metadata plan (left + 1) frontierIds walk = .error error) ∧
      (maxProjectionPageLimit ≤ plan.maxEdges ∨
        maxProjectionPageLimit < frontierIds.rows.length) ∨
    ∃ layer : TopologyWalk,
      s.expandFrom metadata plan (left + 1) frontierIds walk =
        s.expandFrom metadata plan left layer.nextFrontier layer ∧
      Layer s plan frontierIds walk layer := by
  subst hmetadata
  rw [Store.expandFrom]
  by_cases hempty : frontierIds.rows = []
  · exact .inl ⟨hempty, by rw [if_pos (by simp [hempty])]⟩
  rw [if_neg (by simpa using hempty)]
  dsimp only
  by_cases hused : plan.maxEdges - walk.projectedEdges.rows.length = 0
  · exact .inr (.inl ⟨⟨hempty, by omega⟩, by rw [if_pos hused]⟩)
  rw [if_neg hused]
  refine .inr (.inr ?_)
  cases hread : s.queryRelationsForResources frontierIds
      (plan.maxEdges - walk.projectedEdges.rows.length + 1) none with
  | error e =>
      refine .inl ⟨⟨_, rfl⟩, ?_⟩
      by_contra hfits
      push Not at hfits
      rw [queryRelationsForResources_eq hempty (by omega) (by omega) hfits.2] at hread
      cases hread
  | ok projection =>
      right
      obtain ⟨rows, hitems, hrows, hnext, hall⟩ := page_at_frontier hread hempty
      have hrevision := projection_revision hread
      have hstart : Expands relationEnds s.edges (members frontierIds) walk.drawn
          (members walk.visited) walk.drawn (members walk.visited) (members .empty) := by
        rw [members_empty]
        exact .start hsound.ends_visited
      have hopened : TopologyWalk.Keeps s plan
          { walk with
            nextFrontier := .empty
            truncated := walk.truncated || projection.body.nextAfter.isSome } :=
        ⟨hkeeps.stored, hkeeps.nodes, hkeeps.edges, hkeeps.apart⟩
      obtain ⟨hkept, hexp, -, hclear⟩ :=
        foldl_visit hrows hsound.frontier_visited hopened hstart rfl
      -- the page is asked for one relation more than there is room for
      have hroom : projection.body.nextAfter = none ↔ walk.drawn.ncard +
          (edgesAt relationEnds s.edges (members frontierIds)).ncard ≤ plan.maxEdges + 1 := by
        rw [hnext, hkeeps.length_drawn]
        have := hkeeps.length_drawn
        omega
      have hopen : ∀ {marked : Bool}, (walk.truncated || marked) = false →
          walk.truncated = false ∧ marked = false := fun h => Bool.or_eq_false_iff.mp h
      refine ⟨_, ?_, hempty, by omega, hkept, hexp, fun hwhole => ?_, fun hwhole => ?_,
        fun hwhole r hr => ?_, ?_⟩
      · show (if projection.committedRevision ≠ s.committedRevision then _ else _) = _
        rw [if_neg (not_not.mpr hrevision), hitems]
      · exact (hopen (hclear hwhole).1).1
      · exact hroom.mp (by simpa using (hopen (hclear hwhole).1).2)
      · obtain ⟨hbefore, hdrawn⟩ := hclear hwhole
        have hlast : projection.body.nextAfter = none := by simpa using (hopen hbefore).2
        exact hdrawn r (hall hlast r hr)
      · intro nodes edges hfits hvisited hdrawn hat hlast hwalk
        have hpage : ∀ r ∈ rows, r ∈ edges ∧ ∀ v, relationEnds.Incident r v → v ∈ nodes :=
          fun r hr => hat r (hrows r hr)
        rw [foldl_clears hrows hpage hopened hfits hvisited hdrawn, hroom.mpr hlast, hwalk]
        rfl

/-- The loop is a sound search, and an exhaustive one unless it is marked. -/
theorem expandFrom_spec {metadata left levels : Nat} {focus : ResourceId}
    {walk result : TopologyWalk} (hmetadata : metadata = s.committedRevision)
    (hdepth : levels + left = plan.depth)
    (h : s.expandFrom metadata plan left frontierIds walk = .ok result)
    (hkeeps : walk.Keeps s plan)
    (hsound : Sound relationEnds s.edges focus levels walk.drawn (members walk.visited)
      (members frontierIds))
    (hexhaustive : walk.truncated = false → Exhaustive relationEnds s.edges focus levels walk.drawn
      (members walk.visited) (members frontierIds)) :
    result.Keeps s plan ∧ ∃ frontier : Set ResourceId,
      Sound relationEnds s.edges focus plan.depth result.drawn (members result.visited) frontier ∧
      (result.truncated = false → Exhaustive relationEnds s.edges focus plan.depth result.drawn
        (members result.visited) frontier) := by
  induction left generalizing levels frontierIds walk with
  | zero =>
      obtain rfl := Except.ok.inj h
      obtain rfl : levels = plan.depth := hdepth
      exact ⟨hkeeps, _, hsound, hexhaustive⟩
  | succ left ih =>
      rcases @expandFrom_cases s plan frontierIds metadata left levels focus walk hmetadata hkeeps
          hsound with
        ⟨hempty, heq⟩ | ⟨-, heq⟩ | ⟨⟨e, heq⟩, -⟩ | ⟨layer, heq, hlayer⟩
      · obtain rfl := Except.ok.inj (heq.symm.trans h)
        have hnone : members frontierIds = ∅ := by
          ext id
          simp [members, hempty]
        rw [hnone] at hsound hexhaustive
        exact ⟨hkeeps, ∅, hsound.mono (by omega), fun hwhole =>
          (hexhaustive hwhole).of_empty_frontier (by omega)⟩
      · obtain rfl := Except.ok.inj (heq.symm.trans h)
        exact ⟨⟨hkeeps.stored, hkeeps.nodes, hkeeps.edges, hkeeps.apart⟩, _,
          hsound.mono (by omega), fun hwhole => by cases hwhole⟩
      · cases heq.symm.trans h
      · refine ih (by omega) (heq.symm.trans h) hlayer.keeps (hsound.layer hlayer.expands)
          fun hwhole => ?_
        exact (hexhaustive (hlayer.unmarked hwhole)).layer hlayer.expands (hlayer.covers hwhole)

/-- A mark stays. -/
theorem expandFrom_unmarked {metadata left levels : Nat} {focus : ResourceId}
    {walk result : TopologyWalk} (hmetadata : metadata = s.committedRevision)
    (h : s.expandFrom metadata plan left frontierIds walk = .ok result)
    (hkeeps : walk.Keeps s plan)
    (hsound : Sound relationEnds s.edges focus levels walk.drawn (members walk.visited)
      (members frontierIds)) (hwhole : result.truncated = false) : walk.truncated = false := by
  induction left generalizing levels frontierIds walk with
  | zero =>
      obtain rfl := Except.ok.inj h
      exact hwhole
  | succ left ih =>
      rcases @expandFrom_cases s plan frontierIds metadata left levels focus walk hmetadata hkeeps
          hsound with
        ⟨-, heq⟩ | ⟨-, heq⟩ | ⟨⟨e, heq⟩, -⟩ | ⟨layer, heq, hlayer⟩
      · obtain rfl := Except.ok.inj (heq.symm.trans h)
        exact hwhole
      · obtain rfl := Except.ok.inj (heq.symm.trans h)
        cases hwhole
      · cases heq.symm.trans h
      · exact hlayer.unmarked
          (ih (heq.symm.trans h) hlayer.keeps (hsound.layer hlayer.expands))

/-- The layer after an exhaustive search is marked unless it fits. -/
theorem Layer.truncated_iff {k : Nat} {focus : ResourceId} {walk layer : TopologyWalk}
    (hlayer : Layer s plan frontierIds walk layer) (hkeeps : walk.Keeps s plan)
    (hexhaustive : Exhaustive relationEnds s.edges focus k walk.drawn (members walk.visited)
      (members frontierIds)) (hwalk : walk.truncated = false) :
    layer.truncated = false ↔ plan.LayerFits s focus k := by
  have hread := hlayer.some_left
  rw [hkeeps.length_drawn, hexhaustive.drawn_eq] at hread
  constructor
  · intro hclear
    -- unmarked, the layer has drawn all there is one step further
    have hafter := hexhaustive.layer hlayer.expands (hlayer.covers hclear)
    have hlast := hlayer.last hclear
    rw [hexhaustive.drawn_eq, hexhaustive.frontier_eq] at hlast
    refine ⟨hread, hlast, ?_, ?_⟩
    · rw [← hafter.visited_eq, ← length_members]
      exact hlayer.keeps.nodes
    · rw [← hafter.drawn_eq, ← hlayer.keeps.length_drawn]
      exact hlayer.keeps.edges
  · intro hfits
    have hfinite : s.edges.Finite := s.relations.rows.finite_toSet
    -- and all it may draw lies in the next ball, which fits
    have hroom : plan.Room (ball relationEnds s.edges focus (k + 1))
        (near relationEnds s.edges focus (k + 1)) :=
      ⟨ball_finite hfinite, hfinite.subset fun r hr => hr.1, hfits.nodes, hfits.edges⟩
    refine hlayer.clears _ _ hroom ?_ ?_ ?_ ?_ hwalk
    · rw [hexhaustive.visited_eq]
      exact fun v hv => Within.mono_depth hv (Nat.le_succ k)
    · rw [hexhaustive.drawn_eq]
      rintro r ⟨hr, u, hincident, j, hj, hu⟩
      exact ⟨hr, u, hincident, j, Nat.lt_succ_of_lt hj, hu⟩
    · rw [hexhaustive.frontier_eq]
      rintro r ⟨hr, u, hu, hincident⟩
      exact ⟨⟨hr, u, hincident, k, Nat.lt_succ_self k, hu.1⟩, fun v hv =>
        ball_of_incident hu.1 hr hincident hv⟩
    · rw [hexhaustive.drawn_eq, hexhaustive.frontier_eq]
      exact hfits.last

/-- The loop marks its result unless every layer with resources at its distance fits. -/
theorem expandFrom_truncated_iff {metadata left levels : Nat} {focus : ResourceId}
    {walk result : TopologyWalk} (hmetadata : metadata = s.committedRevision)
    (hdepth : levels + left = plan.depth)
    (h : s.expandFrom metadata plan left frontierIds walk = .ok result)
    (hkeeps : walk.Keeps s plan)
    (hsound : Sound relationEnds s.edges focus levels walk.drawn (members walk.visited)
      (members frontierIds))
    (hexhaustive : Exhaustive relationEnds s.edges focus levels walk.drawn (members walk.visited)
      (members frontierIds)) (hwalk : walk.truncated = false) :
    result.truncated = false ↔ ∀ k, levels ≤ k → k < plan.depth →
      (sphere relationEnds s.edges focus k).Nonempty → plan.LayerFits s focus k := by
  induction left generalizing levels frontierIds walk with
  | zero =>
      obtain rfl := Except.ok.inj h
      exact ⟨fun _ k hle hlt => by omega, fun _ => hwalk⟩
  | succ left ih =>
      have hsome : frontierIds.rows ≠ [] →
          (sphere relationEnds s.edges focus levels).Nonempty := by
        intro hsome
        obtain ⟨id, hid⟩ := List.exists_mem_of_ne_nil _ hsome
        exact ⟨id, hexhaustive.frontier_eq ▸ hid⟩
      rcases @expandFrom_cases s plan frontierIds metadata left levels focus walk hmetadata hkeeps
          hsound with
        ⟨hempty, heq⟩ | ⟨⟨hfrontier, hused⟩, heq⟩ | ⟨⟨e, heq⟩, -⟩ | ⟨layer, heq, hlayer⟩
      · obtain rfl := Except.ok.inj (heq.symm.trans h)
        -- an empty frontier: no resource is this far away or further
        have hnone : sphere relationEnds s.edges focus levels = ∅ := by
          rw [← hexhaustive.frontier_eq]
          ext id
          simp [members, hempty]
        refine ⟨fun _ k hle _ hfar => ?_, fun _ => hwalk⟩
        rw [sphere_empty_of_le hnone hle] at hfar
        exact (Set.not_nonempty_empty hfar).elim
      · obtain rfl := Except.ok.inj (heq.symm.trans h)
        refine ⟨fun hwhole => (by cases hwhole), fun hfits => ?_⟩
        -- the layer is not read, but then the edges at hand are as many as there may be
        have hread := (hfits levels le_rfl (by omega) (hsome hfrontier)).read
        rw [← hexhaustive.drawn_eq, ← hkeeps.length_drawn] at hread
        omega
      · cases heq.symm.trans h
      · have hrest := heq.symm.trans h
        have hsound' := hsound.layer hlayer.expands
        have hfits := hlayer.truncated_iff hkeeps hexhaustive hwalk
        by_cases hclear : layer.truncated = false
        -- the layer fits, and what is left is the question for the layers after it
        · rw [ih (by omega) hrest hlayer.keeps hsound'
            (hexhaustive.layer hlayer.expands (hlayer.covers hclear)) hclear]
          constructor
          · intro hlater k hle hlt hfar
            rcases Nat.eq_or_lt_of_le hle with rfl | hlt'
            · exact hfits.mp hclear
            · exact hlater k hlt' hlt hfar
          · exact fun hall k hle hlt hfar => hall k (by omega) hlt hfar
        · constructor
          · intro hwhole
            exact absurd (expandFrom_unmarked hmetadata hrest hlayer.keeps hsound' hwhole) hclear
          · intro hall
            exact absurd (hfits.mpr (hall levels le_rfl (by omega) (hsome hlayer.some_frontier)))
              hclear

/-- Within the limits of the store the loop returns. -/
theorem expandFrom_returns {metadata left levels : Nat} {focus : ResourceId} {walk : TopologyWalk}
    (hmetadata : metadata = s.committedRevision) (hnodes : plan.maxNodes ≤ maxProjectionPageLimit)
    (hedges : plan.maxEdges < maxProjectionPageLimit) (hkeeps : walk.Keeps s plan)
    (hsound : Sound relationEnds s.edges focus levels walk.drawn (members walk.visited)
      (members frontierIds)) :
    ∃ result, s.expandFrom metadata plan left frontierIds walk = .ok result := by
  induction left generalizing levels frontierIds walk with
  | zero => exact ⟨walk, rfl⟩
  | succ left ih =>
      have hfits : frontierIds.rows.length ≤ maxProjectionPageLimit :=
        le_trans (length_le_of_members hsound.frontier_visited) (le_trans hkeeps.nodes hnodes)
      rcases @expandFrom_cases s plan frontierIds metadata left levels focus walk hmetadata hkeeps
          hsound with
        ⟨-, heq⟩ | ⟨-, heq⟩ | ⟨-, hlarge | hlarge⟩ | ⟨layer, heq, hlayer⟩
      · exact ⟨_, heq⟩
      · exact ⟨_, heq⟩
      · omega
      · omega
      · obtain ⟨result, hresult⟩ := ih hlayer.keeps (hsound.layer hlayer.expands)
        exact ⟨result, heq.trans hresult⟩

end

/-! ## §4  The answer -/

/-- The graph of an answer. -/
def answerEnds : Ends String RelationDto where
  source := RelationDto.sourceResourceId
  target := RelationDto.targetResourceId

namespace TopologyBody

def nodeIds (body : TopologyBody) : List String := body.nodes.map ResourceDto.resourceId

def edgeIds (body : TopologyBody) : List String := body.edges.map RelationDto.relationId

/-- What an answer always is: stored resources and relations within the limits, the focus among
them, each node within the depth over the edges, and a frontier outside of it. -/
structure Drawn (s : Store) (context : QueryContextSnapshot) (plan : TopologyPlan)
    (focus : ResourceId) (body : TopologyBody) : Prop where
  focus_shown : focus.val ∈ body.nodeIds
  nodes_once : body.nodeIds.Nodup
  nodes_bounded : body.nodes.length ≤ plan.maxNodes
  nodes_stored : ∀ node ∈ body.nodes, ∃ r ∈ s.resources.rows,
    resourceDtoFromContext r context = .ok node
  edges_bounded : body.edges.length ≤ plan.maxEdges
  edges_stored : ∀ e ∈ body.edges, ∃ r ∈ s.relations.rows,
    projectedRelationDto (s.readProjectedRelation r) = .ok e
  ends_shown : ∀ e ∈ body.edges, ∀ id, answerEnds.Incident e id → id ∈ body.nodeIds
  within : ∀ id ∈ body.nodeIds,
    Within answerEnds {e | e ∈ body.edges} focus.val plan.depth id
  frontier_apart : ∀ mark ∈ body.frontier, mark.resourceId ∉ body.nodeIds

/-- The answer has all there is within the depth. -/
structure Whole (s : Store) (plan : TopologyPlan) (focus : ResourceId) (body : TopologyBody) :
    Prop where
  nodes : ∀ id : ResourceId, id.val ∈ body.nodeIds ↔
    Within relationEnds s.edges focus plan.depth id
  edges : ∀ r ∈ s.relations.rows, r.relationId.val ∈ body.edgeIds ↔
    ∃ u, relationEnds.Incident r u ∧ ∃ k < plan.depth, Within relationEnds s.edges focus k u

end TopologyBody

section

variable {s : Store} {plan : TopologyPlan} {focus : ResourceId} {context : QueryContextSnapshot}

theorem queryResourcesByIds_ok {ids : OrderedSet ResourceId}
    {found : ProjectionSnapshot (List Resource)} (h : s.queryResourcesByIds ids = .ok found) :
    found = { committedRevision := s.committedRevision
              body := s.resources.rows.filter fun r => decide (r.resourceId ∈ ids.rows) } ∧
      ids.rows.length ≤ maxProjectionPageLimit := by
  unfold Store.queryResourcesByIds at h
  split at h
  · cases h
  · obtain rfl := Except.ok.inj h
    exact ⟨rfl, by omega⟩

theorem queryResourcesByIds_eq {ids : OrderedSet ResourceId}
    (h : ids.rows.length ≤ maxProjectionPageLimit) :
    s.queryResourcesByIds ids =
      .ok { committedRevision := s.committedRevision
            body := s.resources.rows.filter fun r => decide (r.resourceId ∈ ids.rows) } := by
  unfold Store.queryResourcesByIds
  rw [if_neg (by omega)]
  rfl

theorem focusWalk_keeps (hnodes : 0 < plan.maxNodes) : (focusWalk focus).Keeps s plan where
  stored := fun row hrow => by cases hrow
  nodes := hnodes
  edges := Nat.zero_le _
  apart := fun mark hmark => by cases hmark

theorem drawn_focusWalk : (focusWalk focus).drawn = ∅ := by
  ext r
  simp [TopologyWalk.drawn, focusWalk]

theorem members_focus : members (KeyedTable.empty.put focus) = {focus} := by
  rw [members_put, members_empty]
  exact insert_empty_eq focus

theorem focusWalk_sound : Sound relationEnds s.edges focus 0 (focusWalk focus).drawn
    (members (focusWalk focus).visited) (members (KeyedTable.empty.put focus)) := by
  rw [drawn_focusWalk, show (focusWalk focus).visited = KeyedTable.empty.put focus from rfl,
    members_focus]
  exact .initial

theorem focusWalk_exhaustive : Exhaustive relationEnds s.edges focus 0 (focusWalk focus).drawn
    (members (focusWalk focus).visited) (members (KeyedTable.empty.put focus)) := by
  rw [drawn_focusWalk, show (focusWalk focus).visited = KeyedTable.empty.put focus from rfl,
    members_focus]
  exact .initial

/-- What an answer is made of. -/
theorem buildTopology_some {metadata : Nat} {body : TopologyBody}
    (h : s.buildTopology focus plan context = .ok (metadata, some body)) :
    (s.resources.get focus).isSome ∧ ∃ walk,
      s.expandFrom s.committedRevision plan plan.depth (KeyedTable.empty.put focus)
        (focusWalk focus) = .ok walk ∧
      (s.resources.rows.filter fun r => decide (r.resourceId ∈ walk.visited.rows)).mapM
        (fun r => resourceDtoFromContext r context) = .ok body.nodes ∧
      (OrderedMap.values walk.projectedEdges).mapM projectedRelationDto = .ok body.edges ∧
      body.frontier = (walk.frontier.rows.map fun mark =>
        { resourceId := (ofLex mark).1, direction := frontierDirection (ofLex mark).2 }) ∧
      body.truncated = walk.truncated := by
  obtain ⟨found, hfound, h⟩ := bind_ok h
  obtain ⟨rfl, hfocus⟩ := queryResourcesByIds_ok (readStore_ok hfound)
  split at h
  · cases h
  rename_i hstored
  obtain ⟨walk, hwalk, h⟩ := bind_ok h
  obtain ⟨resources, hresources, h⟩ := bind_ok h
  obtain ⟨rfl, -⟩ := queryResourcesByIds_ok (readStore_ok hresources)
  split at h
  · cases h
  obtain ⟨nodes, hnodes, h⟩ := bind_ok h
  obtain ⟨edges, hedges, h⟩ := bind_ok h
  obtain ⟨-, hbody⟩ := Prod.mk.inj (Except.ok.inj h)
  obtain rfl := Option.some.inj hbody
  refine ⟨?_, walk, hwalk, hnodes, hedges, rfl, rfl⟩
  obtain ⟨r, hr⟩ := List.exists_mem_of_ne_nil _ (fun hnil => hstored (List.isEmpty_iff.mpr hnil))
  obtain ⟨hr, hid⟩ := List.mem_filter.mp hr
  have hfocus : r.resourceId = focus := by
    rcases KeyedTable.mem_put.mp (of_decide_eq_true hid) with hid | ⟨hid, -⟩
    · exact hid
    · cases hid
  rw [← hfocus, KeyedTable.get_of_mem hr]
  rfl

theorem resourceDtoFromContext_id {r : Resource} {dto : ResourceDto}
    (h : resourceDtoFromContext r context = .ok dto) : dto.resourceId = r.resourceId.val := by
  unfold resourceDtoFromContext at h
  cases hclass : context.classifyFreshness r with
  | error e =>
      rw [hclass] at h
      cases h
  | ok freshness =>
      rw [hclass] at h
      obtain rfl := Except.ok.inj h
      rfl

theorem projectedRelationDto_ends {projected : ProjectedRelation} {dto : RelationDto}
    (h : projectedRelationDto projected = .ok dto) :
    dto.relationId = projected.relation.relationId.val ∧
      dto.sourceResourceId = projected.relation.sourceResourceId.val ∧
      dto.targetResourceId = projected.relation.targetResourceId.val := by
  unfold projectedRelationDto at h
  cases hevidence : relationEvidenceDto projected with
  | error e =>
      rw [hevidence] at h
      cases h
  | ok evidence =>
      rw [hevidence] at h
      obtain rfl := Except.ok.inj h
      exact ⟨rfl, rfl, rfl⟩

/-- What has been visited is stored: it is the focus or an end of a stored relation. -/
theorem visited_stored {walk : TopologyWalk} {frontier : Set ResourceId} (hkeys : s.ForeignKeys)
    (hfocus : (s.resources.get focus).isSome)
    (hsound : Sound relationEnds s.edges focus plan.depth walk.drawn (members walk.visited)
      frontier) {id : ResourceId} (hid : id ∈ walk.visited.rows) :
    ∃ r ∈ s.resources.rows, r.resourceId = id := by
  have hstored : (s.resources.get id).isSome := by
    rcases (hsound.within id hid).start_or_end with rfl | ⟨e, he, hincident | hincident⟩
    · exact hfocus
    · exact (hincident : e.sourceResourceId = id) ▸ hkeys.relationSources e (hsound.stored he)
    · exact (hincident : e.targetResourceId = id) ▸ hkeys.relationTargets e (hsound.stored he)
  obtain ⟨r, hr⟩ := Option.isSome_iff_exists.mp hstored
  exact ⟨r, KeyedTable.mem_of_get hr, KeyedTable.key_of_get hr⟩

/-- The nodes of an answer are the visited resources. -/
theorem mem_nodeIds {body : TopologyBody} {walk : TopologyWalk} {frontier : Set ResourceId}
    (hkeys : s.ForeignKeys) (hfocus : (s.resources.get focus).isSome)
    (hsound : Sound relationEnds s.edges focus plan.depth walk.drawn (members walk.visited)
      frontier)
    (hnodes : body.nodeIds = (s.resources.rows.filter fun r =>
      decide (r.resourceId ∈ walk.visited.rows)).map fun r => r.resourceId.val) {id : String} :
    id ∈ body.nodeIds ↔ ∃ v ∈ walk.visited.rows, v.val = id := by
  rw [hnodes, List.mem_map]
  constructor
  · rintro ⟨r, hr, rfl⟩
    exact ⟨r.resourceId, of_decide_eq_true (List.mem_filter.mp hr).2, rfl⟩
  · rintro ⟨v, hv, rfl⟩
    obtain ⟨r, hr, rfl⟩ := visited_stored hkeys hfocus hsound hv
    exact ⟨r, List.mem_filter.mpr ⟨hr, decide_eq_true hv⟩, rfl⟩

/-- The edges of an answer are the drawn relations. -/
theorem TopologyWalk.Keeps.mem_values {walk : TopologyWalk} (hkeeps : walk.Keeps s plan)
    {projected : ProjectedRelation} :
    projected ∈ OrderedMap.values walk.projectedEdges ↔
      ∃ r ∈ walk.drawn, projected = s.readProjectedRelation r := by
  unfold OrderedMap.values
  rw [List.mem_map]
  constructor
  · rintro ⟨row, hrow, rfl⟩
    obtain ⟨r, -, heq⟩ := hkeeps.stored row hrow
    exact ⟨r, ⟨row, hrow, by rw [heq]; rfl⟩, by rw [heq]⟩
  · rintro ⟨r, ⟨row, hrow, hr⟩, rfl⟩
    obtain ⟨r', -, heq⟩ := hkeeps.stored row hrow
    have hsame : r' = r := by
      rw [← hr, heq]
      rfl
    exact ⟨row, hrow, by rw [heq, hsame]⟩

/-- The answer of a sound walk. -/
theorem drawn_of_walk {body : TopologyBody} {walk : TopologyWalk} {frontier : Set ResourceId}
    (hkeys : s.ForeignKeys) (hfocus : (s.resources.get focus).isSome)
    (hkeeps : walk.Keeps s plan)
    (hsound : Sound relationEnds s.edges focus plan.depth walk.drawn (members walk.visited)
      frontier)
    (hnodes : (s.resources.rows.filter fun r => decide (r.resourceId ∈ walk.visited.rows)).mapM
      (fun r => resourceDtoFromContext r context) = .ok body.nodes)
    (hedges : (OrderedMap.values walk.projectedEdges).mapM projectedRelationDto = .ok body.edges)
    (hfrontier : body.frontier = walk.frontier.rows.map fun mark =>
      { resourceId := (ofLex mark).1, direction := frontierDirection (ofLex mark).2 }) :
    body.Drawn s context plan focus := by
  have hids : body.nodeIds = (s.resources.rows.filter fun r =>
      decide (r.resourceId ∈ walk.visited.rows)).map fun r => r.resourceId.val :=
    Fallible.map_of_mapM hnodes fun _ _ => resourceDtoFromContext_id
  have hmem : ∀ {id : String}, id ∈ body.nodeIds ↔ ∃ v ∈ walk.visited.rows, v.val = id :=
    mem_nodeIds hkeys hfocus hsound hids
  have hedge : ∀ e ∈ body.edges, ∃ r ∈ walk.drawn,
      projectedRelationDto (s.readProjectedRelation r) = .ok e := by
    intro e he
    obtain ⟨projected, hprojected, hdto⟩ := Fallible.argument_of_mapM hedges he
    obtain ⟨r, hr, rfl⟩ := hkeeps.mem_values.mp hprojected
    exact ⟨r, hr, hdto⟩
  have hnodup : (s.resources.rows.filter fun r =>
      decide (r.resourceId ∈ walk.visited.rows)).map (fun r => r.resourceId) |>.Nodup :=
    s.resources.keys_nodup.sublist (List.filter_sublist.map _)
  refine ⟨?_, ?_, ?_, ?_, ?_, ?_, ?_, ?_, ?_⟩
  · exact hmem.mpr ⟨focus, hsound.start_visited, rfl⟩
  · have hvals := hnodup.map (f := StringValue.val) fun _ _ => StringValue.ext_val
    rw [List.map_map] at hvals
    exact hids ▸ hvals
  · rw [← Fallible.mapM_length hnodes, ← List.length_map (f := fun r : Resource => r.resourceId)]
    refine le_trans (List.subperm_of_subset hnodup fun id hid => ?_).length_le hkeeps.nodes
    obtain ⟨r, hr, rfl⟩ := List.mem_map.mp hid
    exact of_decide_eq_true (List.mem_filter.mp hr).2
  · intro node hnode
    obtain ⟨r, hr, hdto⟩ := Fallible.argument_of_mapM hnodes hnode
    exact ⟨r, List.mem_of_mem_filter hr, hdto⟩
  · rw [← Fallible.mapM_length hedges]
    unfold OrderedMap.values
    rw [List.length_map]
    exact hkeeps.edges
  · intro e he
    obtain ⟨r, hr, hdto⟩ := hedge e he
    exact ⟨r, hsound.stored hr, hdto⟩
  · intro e he id hincident
    obtain ⟨r, hr, hdto⟩ := hedge e he
    obtain ⟨-, hsource, htarget⟩ := projectedRelationDto_ends hdto
    rcases hincident with hincident | hincident
    · exact hmem.mpr ⟨r.sourceResourceId, hsound.ends_visited r hr _ (.inl rfl),
        hsource.symm.trans hincident⟩
    · exact hmem.mpr ⟨r.targetResourceId, hsound.ends_visited r hr _ (.inr rfl),
        htarget.symm.trans hincident⟩
  · intro id hid
    obtain ⟨v, hv, rfl⟩ := hmem.mp hid
    refine (hsound.within v hv).map fun r hr => ?_
    obtain ⟨e, he, hdto⟩ := Fallible.result_of_mapM hedges
      (hkeeps.mem_values.mpr ⟨r, hr, rfl⟩)
    obtain ⟨-, hsource, htarget⟩ := projectedRelationDto_ends hdto
    exact ⟨e, he, hsource, htarget⟩
  · intro mark hmark hshown
    rw [hfrontier] at hmark
    obtain ⟨key, hkey, rfl⟩ := List.mem_map.mp hmark
    obtain ⟨v, hv, hid⟩ := hmem.mp hshown
    exact (hkeeps.apart key hkey).2 v hv hid

/-- The answer of an exhaustive walk. -/
theorem whole_of_walk {body : TopologyBody} {walk : TopologyWalk} {frontier : Set ResourceId}
    (hkeys : s.ForeignKeys) (hfocus : (s.resources.get focus).isSome)
    (hkeeps : walk.Keeps s plan)
    (hsound : Sound relationEnds s.edges focus plan.depth walk.drawn (members walk.visited)
      frontier)
    (hexhaustive : Exhaustive relationEnds s.edges focus plan.depth walk.drawn
      (members walk.visited) frontier)
    (hnodes : (s.resources.rows.filter fun r => decide (r.resourceId ∈ walk.visited.rows)).mapM
      (fun r => resourceDtoFromContext r context) = .ok body.nodes)
    (hedges : (OrderedMap.values walk.projectedEdges).mapM projectedRelationDto = .ok body.edges) :
    body.Whole s plan focus := by
  have hids := Fallible.map_of_mapM hnodes fun _ _ => resourceDtoFromContext_id
  constructor
  · intro id
    rw [mem_nodeIds hkeys hfocus hsound hids]
    constructor
    · rintro ⟨v, hv, hid⟩
      exact StringValue.ext_val hid ▸ hexhaustive.visited_iff.mp hv
    · exact fun hwithin => ⟨id, hexhaustive.visited_iff.mpr hwithin, rfl⟩
  · intro r hr
    rw [← hexhaustive.drawn_iff hr]
    unfold TopologyBody.edgeIds
    rw [List.mem_map]
    constructor
    · rintro ⟨e, he, hid⟩
      obtain ⟨projected, hprojected, hdto⟩ := Fallible.argument_of_mapM hedges he
      obtain ⟨r', hr', rfl⟩ := hkeeps.mem_values.mp hprojected
      have hsame : r' = r := s.relations.row_unique (hsound.stored hr') hr
        (StringValue.ext_val ((projectedRelationDto_ends hdto).1.symm.trans hid))
      exact hsame ▸ hr'
    · intro hdrawn
      obtain ⟨e, he, hdto⟩ := Fallible.result_of_mapM hedges
        (hkeeps.mem_values.mpr ⟨r, hdrawn, rfl⟩)
      exact ⟨e, he, (projectedRelationDto_ends hdto).1⟩

theorem buildTopology_answer {metadata : Nat} {body : TopologyBody} (hkeys : s.ForeignKeys)
    (hpositive : 0 < plan.maxNodes)
    (h : s.buildTopology focus plan context = .ok (metadata, some body)) :
    body.Drawn s context plan focus ∧ (body.truncated = false → body.Whole s plan focus) ∧
      (body.truncated = false ↔ plan.Fits s focus) := by
  obtain ⟨hfocus, walk, hwalk, hnodes, hedges, hfrontier, htruncated⟩ := buildTopology_some h
  have hstart : (focusWalk focus).Keeps s plan := focusWalk_keeps hpositive
  obtain ⟨hkeeps, frontier, hsound, hexhaustive⟩ := expandFrom_spec rfl (Nat.zero_add _) hwalk
    hstart focusWalk_sound fun _ => focusWalk_exhaustive
  refine ⟨drawn_of_walk hkeys hfocus hkeeps hsound hnodes hedges hfrontier, fun hclear =>
    whole_of_walk hkeys hfocus hkeeps hsound (hexhaustive (htruncated ▸ hclear)) hnodes hedges, ?_⟩
  rw [htruncated, expandFrom_truncated_iff rfl (Nat.zero_add _) hwalk hstart focusWalk_sound
    focusWalk_exhaustive rfl]
  exact ⟨fun hfits k => hfits k (Nat.zero_le k), fun hfits k _ => hfits k⟩

/-- The limits the store answers to. -/
structure TopologyPlan.WithinLimits (plan : TopologyPlan) : Prop where
  depth_pos : 0 < plan.depth
  nodes_pos : 0 < plan.maxNodes
  nodes_le : plan.maxNodes ≤ maxProjectionPageLimit
  edges_pos : 0 < plan.maxEdges
  edges_lt : plan.maxEdges < maxProjectionPageLimit

/-- Within the limits of the store an answer is made, unless a row cannot be shown. -/
theorem buildTopology_returns (hfocus : (s.resources.get focus).isSome)
    (hlimits : plan.WithinLimits)
    (hresources : ∀ r ∈ s.resources.rows, ∃ dto, resourceDtoFromContext r context = .ok dto)
    (hrelations : ∀ r ∈ s.relations.rows,
      ∃ dto, projectedRelationDto (s.readProjectedRelation r) = .ok dto) :
    ∃ body, s.buildTopology focus plan context = .ok (s.committedRevision, some body) := by
  obtain ⟨walk, hwalk⟩ := @expandFrom_returns s plan _ s.committedRevision plan.depth 0 focus
    (focusWalk focus) rfl hlimits.nodes_le hlimits.edges_lt (focusWalk_keeps hlimits.nodes_pos)
    focusWalk_sound
  obtain ⟨hkeeps, _, hsound, -⟩ := expandFrom_spec rfl (Nat.zero_add _) hwalk
    (focusWalk_keeps hlimits.nodes_pos) focusWalk_sound fun _ => focusWalk_exhaustive
  have hfound : (s.resources.rows.filter fun r =>
      decide (r.resourceId ∈ (KeyedTable.empty.put focus : OrderedSet ResourceId).rows)) ≠ [] := by
    obtain ⟨r, hr⟩ := Option.isSome_iff_exists.mp hfocus
    refine List.ne_nil_of_mem (List.mem_filter.mpr ⟨KeyedTable.mem_of_get hr, ?_⟩)
    exact decide_eq_true (KeyedTable.mem_put.mpr (.inl (KeyedTable.key_of_get hr)))
  have hshown : ∃ nodes, (s.resources.rows.filter fun r =>
      decide (r.resourceId ∈ walk.visited.rows)).mapM
        (fun r => resourceDtoFromContext r context) = .ok nodes :=
    Fallible.mapM_ok_of_forall fun r hr => hresources r (List.mem_of_mem_filter hr)
  have hdrawn : ∃ edges, (OrderedMap.values walk.projectedEdges).mapM projectedRelationDto =
      .ok edges := by
    refine Fallible.mapM_ok_of_forall fun projected hprojected => ?_
    obtain ⟨r, hr, rfl⟩ := hkeeps.mem_values.mp hprojected
    exact hrelations r (hsound.stored hr)
  obtain ⟨nodes, hshown⟩ := hshown
  obtain ⟨edges, hdrawn⟩ := hdrawn
  refine ⟨⟨nodes, edges, walk.frontier.rows.map fun mark =>
    ⟨(ofLex mark).1, frontierDirection (ofLex mark).2⟩, walk.truncated⟩, ?_⟩
  unfold Store.buildTopology
  have hone : (KeyedTable.empty.put focus : OrderedSet ResourceId).rows.length ≤
      maxProjectionPageLimit := le_trans hlimits.nodes_pos hlimits.nodes_le
  rw [queryResourcesByIds_eq hone]
  show (if _ then _ else _) = _
  rw [if_neg (by simpa using hfound)]
  show (s.expandFrom _ _ _ _ _ >>= _) = _
  rw [hwalk]
  show (readStore (s.queryResourcesByIds walk.visited) >>= _) = _
  rw [queryResourcesByIds_eq (le_trans hkeeps.nodes hlimits.nodes_le)]
  show (if s.committedRevision ≠ s.committedRevision then _ else _) = _
  rw [if_neg (not_not.mpr rfl), hshown]
  show (List.mapM projectedRelationDto _ >>= _) = _
  rw [hdrawn]
  rfl

end

/-! ## §5  The service -/

structure GetTopologyRequest where
  focusResourceId : String
  depth : Option Nat
  maxNodes : Option Nat
  maxEdges : Option Nat

def defaultTopologyDepth : Nat := 1

def maxTopologyDepth : Nat := 3

def defaultTopologyNodes : Nat := 100

def defaultTopologyEdges : Nat := 200

def maxTopologyNodes : Nat := 200

def maxTopologyEdges : Nat := 400

structure TopologyDto where
  metadata : SnapshotMetadata
  focusResourceId : String
  depth : Nat
  nodes : List ResourceDto
  edges : List RelationDto
  frontier : List TopologyFrontierDto
  truncated : Bool

namespace QueryService

def invalidRequest (message : String) : ErrorEnvelope where
  schemaVersion := queryDtoSchemaVersion
  code := "invalid_request"
  message := message
  retryable := false

def notFound (code message : String) : ErrorEnvelope where
  schemaVersion := queryDtoSchemaVersion
  code := code
  message := message
  retryable := false

def sourceError : ErrorEnvelope where
  schemaVersion := queryDtoSchemaVersion
  code := "query_source_unavailable"
  message := "The local query snapshot is temporarily unavailable."
  retryable := true

def contractError (message : String) : ErrorEnvelope where
  schemaVersion := queryDtoSchemaVersion
  code := "query_contract_violation"
  message := message
  retryable := false

/-- `bounded_limit`, and `bounded_u8` for the depth. -/
def bounded (name : String) (value : Option Nat) (default maximum : Nat) :
    Except ErrorEnvelope Nat :=
  let value := value.getD default
  if value = 0 ∨ maximum < value then
    .error (invalidRequest (name ++ " is outside the supported range"))
  else .ok value

def boundedLimit : Option Nat → Nat → Nat → Except ErrorEnvelope Nat := bounded "limit"

def boundedU8 : Option Nat → Nat → Nat → Except ErrorEnvelope Nat := bounded "depth"

def requiredText (value field : String) : Except ErrorEnvelope String :=
  let trimmed := trim value.toList
  if trimmed.isEmpty ∨ 512 < Text.byteLength trimmed ∨ trimmed.any Text.isControl then
    .error (invalidRequest (field ++ " is invalid"))
  else .ok (String.ofList trimmed)

end QueryService

open QueryService

/-- The plan `QueryService::get_topology` hands to its source. -/
def GetTopologyRequest.plan (request : GetTopologyRequest) :
    Except ErrorEnvelope TopologyPlan := do
  let focusResourceId ← requiredText request.focusResourceId "focus_resource_id"
  let depth ← boundedU8 request.depth defaultTopologyDepth maxTopologyDepth
  let maxNodes ← boundedLimit request.maxNodes defaultTopologyNodes maxTopologyNodes
  let maxEdges ← boundedLimit request.maxEdges defaultTopologyEdges maxTopologyEdges
  return { focusResourceId := focusResourceId, depth := depth
           maxNodes := maxNodes, maxEdges := maxEdges }

/-- What the service shows of the body its source answers with. -/
def TopologyPlan.dto (plan : TopologyPlan) (metadata : SnapshotMetadata) (body : TopologyBody) :
    TopologyDto where
  metadata := metadata
  focusResourceId := plan.focusResourceId
  depth := plan.depth
  nodes := body.nodes
  edges := body.edges
  frontier := body.frontier
  truncated := body.truncated

/-- `QueryService::get_topology` over the committed source. -/
def CommittedQuerySource.serveTopology (source : CommittedQuerySource)
    (request : GetTopologyRequest) : Except ErrorEnvelope TopologyDto := do
  let plan ← request.plan
  let snapshot ← (source.getTopology plan).mapError fun _ => sourceError
  match snapshot.body with
  | none => .error (notFound "resource_not_found" "Topology focus was not found.")
  | some body =>
      if plan.maxNodes < body.nodes.length ∨ plan.maxEdges < body.edges.length then
        .error (QueryService.contractError "query source exceeded topology limits")
      else .ok (plan.dto snapshot.metadata body)

theorem bounded_ok {name : String} {value : Option Nat} {default maximum n : Nat}
    (h : bounded name value default maximum = .ok n) : 0 < n ∧ n ≤ maximum := by
  unfold bounded at h
  dsimp only at h
  split at h
  · cases h
  · obtain rfl := Except.ok.inj h
    omega

/-- A required text is an id. -/
theorem requiredText_new {value field text name : String}
    (h : requiredText value field = .ok text) :
    ∃ id : StringValue name, StringValue.new text = .ok id := by
  unfold requiredText at h
  dsimp only at h
  split at h
  · cases h
  rename_i hvalid
  obtain rfl := Except.ok.inj h
  have htrimmed : Trimmed (String.ofList (trim value.toList)) := by
    unfold Trimmed
    rw [String.toList_ofList, trim_trim]
    exact ⟨fun hnil => hvalid (.inl (List.isEmpty_iff.mpr hnil)), rfl⟩
  exact ⟨⟨_, htrimmed⟩, StringValue.new_val ⟨_, htrimmed⟩⟩

/-- What the service lets through is what the store answers to. -/
theorem GetTopologyRequest.plan_ok {request : GetTopologyRequest} {plan : TopologyPlan}
    (h : request.plan = .ok plan) :
    plan.WithinLimits ∧ ∃ focus : ResourceId, StringValue.new plan.focusResourceId = .ok focus := by
  unfold GetTopologyRequest.plan at h
  obtain ⟨text, htext, h⟩ := bind_ok h
  obtain ⟨depth, hdepth, h⟩ := bind_ok h
  obtain ⟨maxNodes, hnodes, h⟩ := bind_ok h
  obtain ⟨maxEdges, hedges, h⟩ := bind_ok h
  obtain rfl := Except.ok.inj h
  have hedges := bounded_ok hedges
  refine ⟨⟨(bounded_ok hdepth).1, (bounded_ok hnodes).1, ?_, hedges.1, ?_⟩,
    requiredText_new htext⟩
  · exact le_trans (bounded_ok hnodes).2 (by decide)
  · exact lt_of_le_of_lt hedges.2 (by decide)

section

variable {source : CommittedQuerySource} {plan : TopologyPlan} {focus : ResourceId}

/-- An answer of the source is one of `build_topology`. -/
theorem getTopology_ok {answer : SourceSnapshot (Option TopologyBody)} {body : TopologyBody}
    (hfocus : StringValue.new plan.focusResourceId = .ok focus)
    (h : source.getTopology plan = .ok answer) (hbody : answer.body = some body) :
    0 < plan.maxNodes ∧ ∃ metadata,
      source.store.buildTopology focus plan source.context = .ok (metadata, some body) := by
  unfold CommittedQuerySource.getTopology at h
  split at h
  · cases h
  rename_i hpositive
  rw [hfocus] at h
  obtain ⟨focus', hid, h⟩ := bind_ok h
  obtain rfl := Except.ok.inj hid
  obtain ⟨⟨revision, found⟩, hbuilt, h⟩ := bind_ok h
  obtain rfl := Except.ok.inj h
  obtain rfl : found = some body := hbody
  have hok := readStore_ok hbuilt
  refine ⟨by omega, revision, ?_⟩
  cases hread : source.store.buildTopology focus plan source.context with
  | error e =>
      rw [hread] at hok
      cases hok
  | ok result =>
      rw [hread] at hok
      exact congrArg Except.ok (Except.ok.inj hok)

/-- The source keeps the limits, and so the service shows what it answers. -/
theorem serveTopology_eq {request : GetTopologyRequest}
    {answer : SourceSnapshot (Option TopologyBody)} {body : TopologyBody}
    (hkeys : source.store.ForeignKeys) (hplan : request.plan = .ok plan)
    (h : source.getTopology plan = .ok answer) (hbody : answer.body = some body) :
    source.serveTopology request = .ok (plan.dto answer.metadata body) := by
  obtain ⟨-, focus, hfocus⟩ := GetTopologyRequest.plan_ok hplan
  obtain ⟨hpositive, metadata, hbuilt⟩ := getTopology_ok hfocus h hbody
  have hdrawn := (buildTopology_answer hkeys hpositive hbuilt).1
  unfold CommittedQuerySource.serveTopology
  rw [hplan]
  show ((source.getTopology plan).mapError _ >>= _) = _
  rw [h]
  show (match answer.body with | none => _ | some body => _) = _
  rw [hbody]
  have hnodes := hdrawn.nodes_bounded
  have hedges := hdrawn.edges_bounded
  exact if_neg (by omega)

end

/-- For every store, plan and context: an answer is a bounded, connected part of the relations
around the focus with a frontier outside of it, one that is not truncated is the whole ball of the
depth, and it is truncated unless each layer fits the limits. With limits the store answers to, a
stored focus has an answer unless a stored row cannot be shown; the service lets only such limits
through, and shows the answer it gets. -/
theorem topology_sound_and_complete (source : CommittedQuerySource)
    (hkeys : source.store.ForeignKeys) :
    (∀ (plan : TopologyPlan) (focus : ResourceId),
      StringValue.new plan.focusResourceId = .ok focus →
      (∀ answer body, source.getTopology plan = .ok answer → answer.body = some body →
        body.Drawn source.store source.context plan focus ∧
        (body.truncated = false → body.Whole source.store plan focus) ∧
        (body.truncated = false ↔ plan.Fits source.store focus)) ∧
      (plan.WithinLimits → (source.store.resources.get focus).isSome →
        (∀ r ∈ source.store.resources.rows,
          ∃ dto, resourceDtoFromContext r source.context = .ok dto) →
        (∀ r ∈ source.store.relations.rows,
          ∃ dto, projectedRelationDto (source.store.readProjectedRelation r) = .ok dto) →
        ∃ answer body, source.getTopology plan = .ok answer ∧ answer.body = some body)) ∧
    ∀ (request : GetTopologyRequest) (plan : TopologyPlan), request.plan = .ok plan →
      (plan.WithinLimits ∧ ∃ focus : ResourceId,
        StringValue.new plan.focusResourceId = .ok focus) ∧
      ∀ answer body, source.getTopology plan = .ok answer → answer.body = some body →
        source.serveTopology request = .ok (plan.dto answer.metadata body) := by
  refine ⟨fun plan focus hfocus => ⟨?_, ?_⟩, fun request plan hplan =>
    ⟨GetTopologyRequest.plan_ok hplan, fun answer body => serveTopology_eq hkeys hplan⟩⟩
  · intro answer body h hbody
    obtain ⟨hpositive, metadata, hbuilt⟩ := getTopology_ok hfocus h hbody
    exact buildTopology_answer hkeys hpositive hbuilt
  · intro hlimits hstored hresources hrelations
    obtain ⟨body, hbuilt⟩ := buildTopology_returns hstored hlimits hresources hrelations
    have hdepth := hlimits.depth_pos
    have hnodes := hlimits.nodes_pos
    have hedges := hlimits.edges_pos
    unfold CommittedQuerySource.getTopology
    rw [if_neg (by omega), hfocus]
    show ∃ answer body, (readStore ((source.store.buildTopology focus plan source.context).mapError
      _) >>= _) = _ ∧ _
    rw [hbuilt]
    exact ⟨_, body, rfl, rfl⟩

namespace Fixture

/-- The links of `x`, with a schedule for each connection. -/
def linkedSource : CommittedQuerySource where
  store := movedAcross.store
  catalog := []
  context :=
    { evaluatedAt := time 30
      queryContextRevision := 1
      schedules := OrderedMap.ofEntries
        [(text "a", { intervalMillis := 60, nextScheduledAt := none }),
          (text "c", { intervalMillis := 60, nextScheduledAt := none })] }

/-- Two steps around `x`. -/
def aroundX : TopologyPlan where
  focusResourceId := (text "x" : ResourceId).val
  depth := 2
  maxNodes := 10
  maxEdges := 10

theorem linkedSource_shown :
    linkedSource.store.ForeignKeys ∧
    (∀ r ∈ linkedSource.store.resources.rows,
      (resourceDtoFromContext r linkedSource.context).toOption.isSome) ∧
    (∀ r ∈ linkedSource.store.relations.rows,
      (projectedRelationDto (linkedSource.store.readProjectedRelation r)).toOption.isSome) ∧
    (linkedSource.store.resources.get (text "x")).isSome := by
  decide +kernel

end Fixture

open Fixture in
theorem topology_sound_and_complete_around :
    ∃ answer body, linkedSource.getTopology aroundX = .ok answer ∧ answer.body = some body ∧
      body.Drawn linkedSource.store linkedSource.context aroundX (text "x") ∧
      (body.truncated = false → body.Whole linkedSource.store aroundX (text "x")) ∧
      (body.truncated = false ↔ aroundX.Fits linkedSource.store (text "x")) := by
  obtain ⟨hkeys, hresources, hrelations, hstored⟩ := linkedSource_shown
  have hlimits : aroundX.WithinLimits := by constructor <;> decide
  have hfocus : StringValue.new aroundX.focusResourceId = .ok (text "x" : ResourceId) :=
    StringValue.new_val _
  obtain ⟨hsound, hreturns⟩ := (topology_sound_and_complete linkedSource hkeys).1 aroundX
    (text "x") hfocus
  have hok : ∀ {ε α : Type} {x : Except ε α}, x.toOption.isSome → ∃ a, x = .ok a :=
    fun h => (Option.isSome_iff_exists.mp h).imp fun _ => toOption_eq_some_iff.mp
  obtain ⟨answer, body, hanswer, hbody⟩ := hreturns hlimits hstored
    (fun r hr => hok (hresources r hr)) (fun r hr => hok (hrelations r hr))
  exact ⟨answer, body, hanswer, hbody, hsound answer body hanswer hbody⟩

end NextInfra
