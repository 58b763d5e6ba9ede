import NextInfra.Query.Projection

/-!
# Paging hands out every row once

The three pagers of the query projection are read as pagers of `Lib.Keyset`:
each request cuts the rows that stand after its cursor in the documented order.
For resources and relations a cursor is an id and the order is the id's; for
changes it is the text of an instant and an id, and what it says is read back
whatever instants the rows share.

A listing of resources that asks for some of the freshness values is refused
when there are no cutoffs at all: its clause has nothing to join.
-/

namespace NextInfra

open Keyset Sql

/-! ## §1  Reads that succeed -/

/-- Steps that all succeed collect their results. -/
theorem mapM_of_ok {ε α β : Type} {f : α → Except ε β} {g : α → β} :
    ∀ {rows : List α}, (∀ row ∈ rows, f row = .ok (g row)) → rows.mapM f = .ok (rows.map g)
  | [], _ => rfl
  | row :: rows, h => by
      rw [List.mapM_cons, h row List.mem_cons_self,
        mapM_of_ok fun r hr => h r (List.mem_cons_of_mem _ hr)]
      rfl

theorem fetchLimit_of_lt {limit : Nat} (h : limit < maxI64) :
    fetchLimit limit = .ok (limit + 1 : Nat) := by
  unfold fetchLimit
  rw [if_neg (by omega)]

/-! ## §2  Resources -/

/-- What a plan selects, row by row: the text, the sets, the labels and the
freshness, each only when the plan names it. -/
structure ResourceProjectionPlan.Matches (toLowercase : String → String)
    (plan : ResourceProjectionPlan) (item : ProjectedResource) : Prop where
  query : ∀ q, plan.query = some q → ∃ column ∈ searchedColumns item.resource,
    like (searchPattern toLowercase q) (lower column) = true
  kinds : plan.kinds.rows = [] ∨ item.resource.kind.val ∈ plan.kinds.rows
  connectorTypes : plan.connectorTypes.rows = [] ∨
    item.connectorType.val ∈ plan.connectorTypes.rows
  health : plan.health = [] ∨ item.resource.health ∈ plan.health
  labels : ∀ label ∈ plan.labels.rows, ∃ held ∈ item.resource.labels.rows,
    held.1.val = label.1 ∧ held.2 = label.2
  freshness : plan.freshness = [] ∨ item.freshness ∈ plan.freshness

/-- A stored resource as a listing shows it: with the type of its connection and
its freshness. -/
structure Store.Presents (s : Store) (cutoffs : OrderedMap ConnectionId FreshnessCutoffs)
    (item : ProjectedResource) : Prop where
  stored : s.resources.get item.resource.resourceId = some item.resource
  connected : ∃ c, s.connections.get item.resource.connectionId = some c ∧
    item.connectorType = c.connectorType
  classified : ∃ cutoff, OrderedMap.lookup cutoffs item.resource.connectionId = some cutoff ∧
    item.freshness = classifyMillis item.resource.lastSeenMillis cutoff

/-- The freshness filter of the plan has nothing to join: some of the values are
asked for, but not all, and no connection has cutoffs. -/
def ResourceProjectionPlan.JoinsNothing (plan : ResourceProjectionPlan) : Prop :=
  (requestedFreshness plan.freshness ≠ [] ∧ (requestedFreshness plan.freshness).length ≠ 3) ∧
    plan.cutoffs.rows = []

instance (plan : ResourceProjectionPlan) : Decidable plan.JoinsNothing := by
  unfold ResourceProjectionPlan.JoinsNothing
  infer_instance

theorem mem_requestedFreshness {requested : List Freshness} {value : Freshness} :
    value ∈ requestedFreshness requested ↔ value ∈ requested := by
  unfold requestedFreshness
  rw [List.mem_filter]
  cases value <;> simp

/-- All three values are requested, or fewer. -/
theorem requestedFreshness_full {requested : List Freshness} :
    (requestedFreshness requested).length = 3 ↔ ∀ value, value ∈ requested := by
  unfold requestedFreshness
  constructor
  · intro h value
    have hall := List.length_filter_eq_length_iff.mp
      (h : _ = [Freshness.fresh, .stale, .expired].length)
    have hvalue : value ∈ [Freshness.fresh, .stale, .expired] := by
      cases value <;> simp
    simpa using hall value hvalue
  · intro h
    rw [List.filter_eq_self.mpr]
    · rfl
    · intro value _
      simpa using h value

theorem resourceHealthText_injective : Function.Injective resourceHealthText := by
  intro a b h
  cases a <;> cases b <;> first | rfl | exact absurd h (by decide)

/-- The tests of the freshness values tell which value a row is classified as. -/
theorem freshnessBranch_iff {lastSeenAt : Int} {cutoff : FreshnessCutoffs}
    (hordered : cutoff.expiredAfterMillis ≤ cutoff.freshAfterMillis) {value : Freshness} :
    freshnessBranch lastSeenAt cutoff value = true ↔ classifyMillis lastSeenAt cutoff = value := by
  unfold classifyMillis
  by_cases hfresh : cutoff.freshAfterMillis ≤ lastSeenAt
  · rw [if_pos hfresh]
    cases value with
    | fresh => simpa [freshnessBranch] using hfresh
    | stale => simp [freshnessBranch, hfresh]
    | expired =>
        have : ¬ lastSeenAt < cutoff.expiredAfterMillis := by omega
        simp [freshnessBranch, this]
  · rw [if_neg hfresh]
    by_cases hstale : cutoff.expiredAfterMillis ≤ lastSeenAt
    · rw [if_pos hstale]
      cases value with
      | fresh => simpa [freshnessBranch] using hfresh
      | stale => simpa [freshnessBranch, hstale] using hfresh
      | expired => simpa [freshnessBranch] using hstale
    · rw [if_neg hstale]
      cases value with
      | fresh => simpa [freshnessBranch] using hfresh
      | stale => simp [freshnessBranch, hstale]
      | expired => simpa [freshnessBranch] using hstale

theorem firstUncovered_ok {cutoffs : OrderedMap ConnectionId FreshnessCutoffs} :
    ∀ {ids : List ConnectionId}, firstUncovered cutoffs ids = .ok () →
      ∀ id ∈ ids, ∃ cutoff, OrderedMap.lookup cutoffs id = some cutoff
  | id :: ids, h, id', hmem => by
      unfold firstUncovered at h
      cases hl : OrderedMap.lookup cutoffs id with
      | none =>
          rw [hl] at h
          cases h
      | some cutoff =>
          rw [hl] at h
          rcases List.mem_cons.mp hmem with rfl | hmem'
          · exact ⟨cutoff, hl⟩
          · exact firstUncovered_ok h id' hmem'

theorem firstUncovered_of_covered {cutoffs : OrderedMap ConnectionId FreshnessCutoffs} :
    ∀ {ids : List ConnectionId},
      (∀ id ∈ ids, ∃ cutoff, OrderedMap.lookup cutoffs id = some cutoff) →
        firstUncovered cutoffs ids = .ok ()
  | [], _ => rfl
  | id :: ids, h => by
      obtain ⟨cutoff, hcutoff⟩ := h id List.mem_cons_self
      unfold firstUncovered
      rw [hcutoff]
      exact firstUncovered_of_covered fun id hid => h id (List.mem_cons_of_mem _ hid)

/-- Valid cutoffs are not inverted, and cover every stored resource. -/
theorem validateCutoffs_ok {s : Store} {cutoffs : OrderedMap ConnectionId FreshnessCutoffs}
    (h : validateCutoffs s cutoffs = .ok ()) :
    (∀ id cutoff, OrderedMap.lookup cutoffs id = some cutoff →
      cutoff.expiredAfterMillis ≤ cutoff.freshAfterMillis) ∧
    ∀ r ∈ s.resources.rows, ∃ cutoff, OrderedMap.lookup cutoffs r.connectionId = some cutoff := by
  unfold validateCutoffs at h
  split at h
  · cases h
  · rename_i hinverted
    refine ⟨?_, ?_⟩
    · intro id cutoff hl
      rw [List.any_eq_true] at hinverted
      push Not at hinverted
      have := hinverted cutoff (OrderedMap.mem_values.mpr ⟨id, hl⟩)
      simpa using this
    · intro r hr
      exact firstUncovered_ok h _
        (OrderedSet.mem_sorted.mpr (List.mem_map.mpr ⟨r, hr, rfl⟩))

namespace Store

theorem mem_resourceRows {s : Store} {row : ResourceRow} :
    row ∈ s.resourceRows ↔ row.1 ∈ s.resources.rows ∧
      ∃ c, s.connections.get row.1.connectionId = some c ∧ row.2 = c.connectorType := by
  unfold resourceRows
  rw [List.mem_filterMap]
  constructor
  · rintro ⟨r, hr, hrow⟩
    obtain ⟨c, hc, rfl⟩ := Option.map_eq_some_iff.mp hrow
    exact ⟨hr, c, hc, rfl⟩
  · rintro ⟨hr, c, hc, hrow⟩
    refine ⟨row.1, hr, ?_⟩
    rw [hc, Option.map_some, ← hrow]

theorem resourceRows_ascending (s : Store) :
    s.resourceRows.Pairwise fun a b => a.1.resourceId < b.1.resourceId := by
  unfold resourceRows
  rw [List.pairwise_filterMap]
  apply s.resources.ascending.imp
  intro a b hab x hx y hy
  obtain ⟨c, _, rfl⟩ := Option.map_eq_some_iff.mp hx
  obtain ⟨d, _, rfl⟩ := Option.map_eq_some_iff.mp hy
  exact hab

end Store

namespace ResourceProjectionPlan

variable {toLowercase : String → String} {plan : ResourceProjectionPlan}

/-- The plan's clauses behind the cursor's. -/
def filters (toLowercase : String → String) (plan : ResourceProjectionPlan) :
    List (Clause ResourceRow) :=
  { plan with after := none }.clauses toLowercase

theorem clauses_eq (after : Option String) :
    { plan with after := after }.clauses toLowercase =
      (after.toList.map fun after => Clause.of fun row : ResourceRow =>
        decide (after < row.1.resourceId.val)) ++ plan.filters toLowercase := by
  unfold filters clauses
  simp only [Option.toList_none, List.map_nil, List.nil_append, List.append_assoc]

theorem spelled_freshnessFilter :
    Spelled (freshnessFilter plan.freshness plan.cutoffs) ↔ ¬ plan.JoinsNothing := by
  unfold freshnessFilter JoinsNothing
  by_cases hall : requestedFreshness plan.freshness = [] ∨
      (requestedFreshness plan.freshness).length = 3
  · have hcond : ((requestedFreshness plan.freshness).isEmpty ||
        (requestedFreshness plan.freshness).length == 3) = true := by
      simpa [List.isEmpty_iff] using hall
    rw [if_pos hcond]
    constructor
    · rintro - ⟨⟨hsome, hfew⟩, -⟩
      rcases hall with h | h
      · exact hsome h
      · exact hfew h
    · intro _ clause hmem
      cases hmem
  · push Not at hall
    have hcond : ¬ ((requestedFreshness plan.freshness).isEmpty ||
        (requestedFreshness plan.freshness).length == 3) = true := by
      simpa [List.isEmpty_iff] using hall
    rw [if_neg hcond]
    simp [Spelled, hall]

theorem spelled_filters :
    Spelled (plan.filters toLowercase) ↔ ¬ plan.JoinsNothing := by
  have hquery : Spelled (plan.query.toList.map (searchClause toLowercase)) := by
    intro clause hmem
    obtain ⟨q, _, rfl⟩ := List.mem_map.mp hmem
    exact List.cons_ne_nil _ _
  unfold filters clauses
  simp only [spelled_append, spelled_freshnessFilter]
  constructor
  · exact fun h => h.2
  · intro h
    exact ⟨⟨⟨⟨⟨⟨spelled_map_of _ _, hquery⟩, spelled_inSet⟩, spelled_inSet⟩, spelled_inSet⟩,
      spelled_map_of _ _⟩, h⟩

/-- The row as the listing shows it; a row that is listed has cutoffs. -/
def shown (cutoffs : OrderedMap ConnectionId FreshnessCutoffs) (row : ResourceRow) :
    ProjectedResource where
  resource := row.1
  connectorType := row.2
  freshness :=
    match OrderedMap.lookup cutoffs row.1.connectionId with
    | some cutoff => classifyMillis row.1.lastSeenMillis cutoff
    | none => .expired

/-- The freshness filter passes the rows of the requested values. -/
theorem holds_freshnessFilter {row : ResourceRow} {cutoff : FreshnessCutoffs}
    (hcovered : OrderedMap.lookup plan.cutoffs row.1.connectionId = some cutoff)
    (hordered : cutoff.expiredAfterMillis ≤ cutoff.freshAfterMillis) :
    holds (freshnessFilter plan.freshness plan.cutoffs) row = true ↔
      plan.freshness = [] ∨ classifyMillis row.1.lastSeenMillis cutoff ∈ plan.freshness := by
  have hnil : requestedFreshness plan.freshness = [] ↔ plan.freshness = [] := by
    rw [List.eq_nil_iff_forall_not_mem, List.eq_nil_iff_forall_not_mem]
    simp only [mem_requestedFreshness]
  unfold freshnessFilter
  by_cases hempty : plan.freshness = []
  · rw [if_pos (by simp [hnil.mpr hempty])]
    simp [hempty]
  by_cases hfull : (requestedFreshness plan.freshness).length = 3
  · have hall := requestedFreshness_full.mp hfull
    simp [hfull, hall]
  · rw [if_neg (by simpa [hnil, hempty] using hfull)]
    have halternatives : (plan.cutoffs.rows.any fun held =>
          decide (row.1.connectionId = held.1) &&
            (requestedFreshness plan.freshness).any fun value =>
              freshnessBranch row.1.lastSeenMillis held.2 value) = true ↔
        classifyMillis row.1.lastSeenMillis cutoff ∈ plan.freshness := by
      rw [List.any_eq_true]
      constructor
      · rintro ⟨⟨id, held⟩, hmem, htest⟩
        simp only [Bool.and_eq_true, decide_eq_true_eq, List.any_eq_true] at htest
        obtain ⟨rfl, value, hvalue, hbranch⟩ := htest
        -- a connection has one pair of cutoffs
        have hheld : held = cutoff := by
          have := OrderedMap.lookup_eq_some_iff.mpr hmem
          rw [hcovered] at this
          exact (Option.some.inj this).symm
        rw [hheld] at hbranch
        rw [(freshnessBranch_iff hordered).mp hbranch]
        exact mem_requestedFreshness.mp hvalue
      · intro hvalue
        refine ⟨(row.1.connectionId, cutoff), OrderedMap.lookup_eq_some_iff.mp hcovered, ?_⟩
        simp only [Bool.and_eq_true, decide_eq_true_eq, List.any_eq_true]
        exact ⟨trivial, _, mem_requestedFreshness.mpr hvalue, (freshnessBranch_iff hordered).mpr rfl⟩
    rw [holds_cons, holds_nil, Bool.and_true, List.any_map]
    simp only [hempty, false_or]
    exact halternatives

theorem holds_labels {row : ResourceRow} :
    holds (plan.labels.rows.map labelClause) row = true ↔
      ∀ label ∈ plan.labels.rows, ∃ held ∈ row.1.labels.rows,
        held.1.val = label.1 ∧ held.2 = label.2 := by
  rw [holds_iff, List.forall_mem_map]
  simp [labelClause, Clause.of]

theorem holds_search {row : ResourceRow} :
    holds (plan.query.toList.map (searchClause toLowercase)) row = true ↔
      ∀ q, plan.query = some q → ∃ column ∈ searchedColumns row.1,
        like (searchPattern toLowercase q) (lower column) = true := by
  cases plan.query with
  | none => simp
  | some q => simp [searchClause, searchedColumns]

theorem mem_healthTexts {health : ResourceHealth} :
    (plan.health.map resourceHealthText = [] ∨
        resourceHealthText health ∈ plan.health.map resourceHealthText) ↔
      plan.health = [] ∨ health ∈ plan.health := by
  rw [List.map_eq_nil_iff, List.mem_map_of_injective resourceHealthText_injective]

/-- The statement passes the rows the plan selects. -/
theorem holds_filters {row : ResourceRow} {cutoff : FreshnessCutoffs}
    (hcovered : OrderedMap.lookup plan.cutoffs row.1.connectionId = some cutoff)
    (hordered : cutoff.expiredAfterMillis ≤ cutoff.freshAfterMillis) :
    holds (plan.filters toLowercase) row = true ↔
      plan.Matches toLowercase (shown plan.cutoffs row) := by
  have hshown : (shown plan.cutoffs row).freshness =
      classifyMillis row.1.lastSeenMillis cutoff := by
    unfold shown
    simp only [hcovered]
  unfold filters clauses
  simp only [Option.toList_none, List.map_nil, List.nil_append, holds_append, Bool.and_eq_true,
    holds_search, holds_inSet, mem_healthTexts, holds_labels,
    holds_freshnessFilter hcovered hordered]
  constructor
  · rintro ⟨⟨⟨⟨⟨hquery, hkinds⟩, htypes⟩, hhealth⟩, hlabels⟩, hfreshness⟩
    exact ⟨hquery, hkinds, htypes, hhealth, hlabels, by rw [hshown]; exact hfreshness⟩
  · rintro ⟨hquery, hkinds, htypes, hhealth, hlabels, hfreshness⟩
    rw [hshown] at hfreshness
    exact ⟨⟨⟨⟨⟨hquery, hkinds⟩, htypes⟩, hhealth⟩, hlabels⟩, hfreshness⟩

end ResourceProjectionPlan

/-- The order of a resource listing. -/
def resourceBefore (a b : ProjectedResource) : Bool :=
  decide (a.resource.resourceId < b.resource.resourceId)

namespace Store

variable {toLowercase : String → String} {s : Store} {plan : ResourceProjectionPlan}

/-- Everything a plan selects, in the order of the statement. -/
def resourceListing (toLowercase : String → String) (s : Store) (plan : ResourceProjectionPlan) :
    List ProjectedResource :=
  (s.resourceRows.filter (holds (plan.filters toLowercase))).map
    (ResourceProjectionPlan.shown plan.cutoffs)

theorem resourceListing_ordered :
    (s.resourceListing toLowercase plan).Pairwise fun a b => resourceBefore a b = true := by
  unfold resourceListing
  rw [List.pairwise_map]
  apply (s.resourceRows_ascending.sublist List.filter_sublist).imp
  intro a b hab
  exact decide_eq_true hab

theorem mem_resourceListing (hvalid : validateCutoffs s plan.cutoffs = .ok ())
    {item : ProjectedResource} :
    item ∈ s.resourceListing toLowercase plan ↔
      s.Presents plan.cutoffs item ∧ plan.Matches toLowercase item := by
  obtain ⟨hordered, hcovers⟩ := validateCutoffs_ok hvalid
  unfold resourceListing
  rw [List.mem_map]
  constructor
  · rintro ⟨row, hrow, rfl⟩
    obtain ⟨hmem, hholds⟩ := List.mem_filter.mp hrow
    obtain ⟨hr, hconnected⟩ := mem_resourceRows.mp hmem
    obtain ⟨cutoff, hcutoff⟩ := hcovers row.1 hr
    refine ⟨⟨KeyedTable.get_of_mem hr, hconnected, cutoff, hcutoff, ?_⟩, ?_⟩
    · simp [ResourceProjectionPlan.shown, hcutoff]
    · exact (ResourceProjectionPlan.holds_filters hcutoff (hordered _ _ hcutoff)).mp hholds
  · rintro ⟨⟨hstored, hconnected, cutoff, hcutoff, hclass⟩, hmatches⟩
    have hitem : ResourceProjectionPlan.shown plan.cutoffs (item.resource, item.connectorType) =
        item := by
      unfold ResourceProjectionPlan.shown
      simp only [hcutoff, ← hclass]
    refine ⟨(item.resource, item.connectorType), List.mem_filter.mpr ⟨?_, ?_⟩, hitem⟩
    · exact mem_resourceRows.mpr ⟨KeyedTable.mem_of_get hstored, hconnected⟩
    · rw [ResourceProjectionPlan.holds_filters hcutoff (hordered _ _ hcutoff), hitem]
      exact hmatches

/-- Fetched rows all have cutoffs. -/
theorem classifiedResource_ok (hvalid : validateCutoffs s plan.cutoffs = .ok ()) {row : ResourceRow}
    (hrow : row ∈ s.resourceRows) :
    classifiedResource plan.cutoffs row = .ok (ResourceProjectionPlan.shown plan.cutoffs row) := by
  obtain ⟨cutoff, hcutoff⟩ := (validateCutoffs_ok hvalid).2 row.1 (mem_resourceRows.mp hrow).1
  unfold classifiedResource classifyFreshness ResourceProjectionPlan.shown
  simp [hcutoff, Except.map]

/-- A read cuts what its statement selects. -/
theorem readResourcePage_eq (hvalid : validateCutoffs s plan.cutoffs = .ok ())
    (hspelled : ¬ plan.JoinsNothing) (hlimit : plan.limit < maxI64) (after : Option String) :
    readResourcePage toLowercase s { plan with after := after } =
      .ok (cut resourceCursor plan.limit ((s.resourceRows.filter
        (holds ({ plan with after := after }.clauses toLowercase))).map
          (ResourceProjectionPlan.shown plan.cutoffs))) := by
  have hclauses : Spelled ({ plan with after := after }.clauses toLowercase) := by
    rw [ResourceProjectionPlan.clauses_eq]
    exact spelled_append.mpr ⟨spelled_map_of _ _, ResourceProjectionPlan.spelled_filters.mpr hspelled⟩
  unfold readResourcePage
  rw [fetchLimit_of_lt hlimit, prepare_of_spelled hclauses]
  show ((limitRows _ _).mapM (classifiedResource plan.cutoffs) >>= _) = _
  rw [mapM_of_ok (g := ResourceProjectionPlan.shown plan.cutoffs), limitRows_ofNat]
  · show Except.ok (Keyset.trim resourceCursor plan.limit _) = _
    rw [List.map_take]
    rfl
  · intro row hrow
    rw [limitRows_ofNat] at hrow
    exact classifiedResource_ok hvalid (List.mem_of_mem_filter (List.mem_of_mem_take hrow))

/-- The reads of a resource plan are a pager over its listing. -/
theorem resources_served (hvalid : validateCutoffs s plan.cutoffs = .ok ())
    (hspelled : ¬ plan.JoinsNothing) (hlimit : plan.limit < maxI64) :
    Serves (fun after => readResourcePage toLowercase s { plan with after := after })
      resourceBefore resourceCursor plan.limit (s.resourceListing toLowercase plan) := by
  constructor
  · exact readResourcePage_eq hvalid hspelled hlimit none
  · intro item _
    rw [readResourcePage_eq hvalid hspelled hlimit]
    congr 2
    unfold resourceListing
    rw [List.filter_map, List.filter_filter]
    congr 2
    ext row
    rw [ResourceProjectionPlan.clauses_eq, holds_append, Option.toList_some, List.map_singleton,
      holds_cons, any_of, holds_nil, Bool.and_true]
    congr 1

end Store

/-! ## §3  Relations -/

/-- What a listing of relations shows: a stored relation with the required
endpoints among the given resources, and its two joined values. -/
structure Store.PresentsRelation (s : Store) (resourceIds : OrderedSet ResourceId)
    (requireBothEndpoints : Bool) (item : ProjectedRelation) : Prop where
  stored : s.relations.get item.relation.relationId = some item.relation
  endpoints :
    if requireBothEndpoints then
      item.relation.sourceResourceId ∈ resourceIds.rows ∧
        item.relation.targetResourceId ∈ resourceIds.rows
    else
      item.relation.sourceResourceId ∈ resourceIds.rows ∨
        item.relation.targetResourceId ∈ resourceIds.rows
  joined : item = s.readProjectedRelation item.relation

/-- The order of a relation listing. -/
def relationBefore (a b : ProjectedRelation) : Bool :=
  decide (a.relation.relationId < b.relation.relationId)

theorem endpointTest_iff {resourceIds : OrderedSet ResourceId} {requireBothEndpoints : Bool}
    {r : Relation} :
    endpointTest resourceIds requireBothEndpoints r = true ↔
      if requireBothEndpoints then
        r.sourceResourceId ∈ resourceIds.rows ∧ r.targetResourceId ∈ resourceIds.rows
      else r.sourceResourceId ∈ resourceIds.rows ∨ r.targetResourceId ∈ resourceIds.rows := by
  cases requireBothEndpoints <;> simp [endpointTest]

namespace Store

variable {s : Store} {resourceIds : OrderedSet ResourceId} {requireBothEndpoints : Bool}

/-- Everything a request for relations selects, in the order of the statement. -/
def relationListing (s : Store) (resourceIds : OrderedSet ResourceId)
    (requireBothEndpoints : Bool) : List ProjectedRelation :=
  (s.relations.rows.filter (endpointTest resourceIds requireBothEndpoints)).map s.readProjectedRelation

theorem relationListing_ordered :
    (s.relationListing resourceIds requireBothEndpoints).Pairwise
      fun a b => relationBefore a b = true := by
  unfold relationListing
  rw [List.pairwise_map]
  apply (s.relations.ascending.sublist List.filter_sublist).imp
  intro a b hab
  exact decide_eq_true hab

theorem mem_relationListing {item : ProjectedRelation} :
    item ∈ s.relationListing resourceIds requireBothEndpoints ↔
      s.PresentsRelation resourceIds requireBothEndpoints item := by
  unfold relationListing
  rw [List.mem_map]
  constructor
  · rintro ⟨r, hr, rfl⟩
    obtain ⟨hmem, hends⟩ := List.mem_filter.mp hr
    exact ⟨KeyedTable.get_of_mem hmem, endpointTest_iff.mp hends, rfl⟩
  · rintro ⟨hstored, hends, hjoined⟩
    exact ⟨item.relation, List.mem_filter.mpr
      ⟨KeyedTable.mem_of_get hstored, endpointTest_iff.mpr hends⟩, hjoined.symm⟩

/-- No resources select no relations. -/
theorem relationListing_of_empty (h : resourceIds.rows = []) :
    s.relationListing resourceIds requireBothEndpoints = [] := by
  unfold relationListing
  rw [List.map_eq_nil_iff, List.filter_eq_nil_iff]
  intro r _
  rw [endpointTest_iff, h]
  cases requireBothEndpoints <;> simp

/-- A read cuts what its statement selects, when there are resources to select by. -/
theorem readRelationsForResources_eq {limit : Nat} (hlimit : limit < maxI64)
    (hsome : resourceIds.rows ≠ []) (after : Option String) :
    readRelationsForResources s resourceIds limit after requireBothEndpoints =
      .ok (cut relationCursor limit ((s.relations.rows.filter fun r =>
        endpointTest resourceIds requireBothEndpoints r &&
          after.all fun after => decide (after < r.relationId.val)).map s.readProjectedRelation)) := by
  have hspelled : Spelled (Clause.of (endpointTest resourceIds requireBothEndpoints) ::
      after.toList.map fun after => Clause.of fun r : Relation =>
        decide (after < r.relationId.val)) := by
    intro clause hmem
    rcases List.mem_cons.mp hmem with rfl | hmem'
    · exact List.cons_ne_nil _ _
    · exact spelled_map_of _ _ clause hmem'
  have hholds : holds (Clause.of (endpointTest resourceIds requireBothEndpoints) ::
      after.toList.map fun after => Clause.of fun r : Relation =>
        decide (after < r.relationId.val)) =
      fun r => endpointTest resourceIds requireBothEndpoints r &&
        after.all fun after => decide (after < r.relationId.val) := by
    funext r
    cases after with
    | none => simp
    | some after => simp
  unfold readRelationsForResources
  rw [if_neg (by simpa using hsome), prepare_of_spelled hspelled, asI64_of_le (by omega)]
  show Except.ok (Keyset.trim relationCursor limit ((limitRows _ _).map _)) = _
  rw [limitRows_ofNat, List.map_take, hholds]
  rfl

/-- The reads of a request for relations are a pager over its listing. -/
theorem relations_served {limit : Nat} (hlimit : limit < maxI64) :
    Serves (fun after => readRelationsForResources s resourceIds limit after requireBothEndpoints)
      relationBefore relationCursor limit
      (s.relationListing resourceIds requireBothEndpoints) := by
  by_cases hsome : resourceIds.rows = []
  · rw [relationListing_of_empty hsome]
    constructor
    · unfold readRelationsForResources
      rw [if_pos (by simpa using hsome), cut_of_fits (Nat.zero_le _)]
    · intro item hitem
      cases hitem
  · constructor
    · rw [readRelationsForResources_eq hlimit hsome]
      congr 3
      simp
    · intro item _
      rw [readRelationsForResources_eq hlimit hsome]
      congr 2
      unfold relationListing
      rw [List.filter_map, List.filter_filter]
      congr 2
      ext r
      rw [Bool.and_comm]
      congr 1

end Store

/-! ## §4  Changes -/

/-- What a listing of changes shows: a stored change that is recent enough,
concerns the resource and is of one of the kinds, each when the plan asks for it. -/
structure Store.PresentsChange (s : Store) (plan : RecentChangesProjectionPlan) (c : Change) :
    Prop where
  stored : s.changes.get c.changeId = some c
  recent : ∀ since, plan.sinceMillis = some since → since ≤ c.observedMillis
  concerns : ∀ id, plan.resourceId = some id → s.concerns id c = true
  kinds : plan.kinds.rows = [] ∨ s.ofKinds plan.kinds.rows c = true

/-- Newest first; among changes of one instant the greater id first. -/
def changeBefore (a b : Change) : Bool := decide (b.orderKey < a.orderKey)


theorem changeBefore_iff {a b : Change} :
    changeBefore a b = true ↔ b.observedAt < a.observedAt ∨
      b.observedAt = a.observedAt ∧ b.changeId < a.changeId := by
  unfold changeBefore
  rw [decide_eq_true_eq]
  exact Prod.Lex.lt_iff

theorem orderKey_inj {a b : Change} (h : a.orderKey = b.orderKey) : a.changeId = b.changeId :=
  congrArg (fun k : Timestamp ×ₗ ChangeId => (ofLex k).2) h

theorem newestFirst_perm (changes : List Change) : (newestFirst changes).Perm changes :=
  List.perm_insertionSort _ _

theorem newestFirst_ordered {changes : List Change} (hids : (changes.map Change.changeId).Nodup) :
    (newestFirst changes).Pairwise fun a b => changeBefore a b = true := by
  have hsorted : (newestFirst changes).Pairwise fun a b => b.orderKey ≤ a.orderKey :=
    List.pairwise_insertionSort _ _
  have hnodup : (newestFirst changes).Pairwise fun a b => a.changeId ≠ b.changeId :=
    List.pairwise_map.mp (((newestFirst_perm changes).map Change.changeId).nodup_iff.mpr hids)
  apply (hsorted.and hnodup).imp
  rintro a b ⟨hle, hne⟩
  exact decide_eq_true (lt_of_le_of_ne hle fun h => hne (orderKey_inj h).symm)

/-- Selecting and ordering commute: the selected rows of an ordered listing are
the ordered listing of the selected rows. -/
theorem newestFirst_filter {changes : List Change} (hids : (changes.map Change.changeId).Nodup)
    (p : Change → Bool) : newestFirst (changes.filter p) = (newestFirst changes).filter p := by
  have hsub : ((changes.filter p).map Change.changeId).Nodup :=
    hids.sublist (List.filter_sublist.map _)
  refine List.Perm.eq_of_pairwise ?_ (newestFirst_ordered hsub)
    ((newestFirst_ordered hids).sublist List.filter_sublist)
    ((newestFirst_perm _).trans ((newestFirst_perm changes).filter p).symm)
  intro a b _ _ hab hba
  exact absurd (of_decide_eq_true hab) (lt_asymm (of_decide_eq_true hba))

/-! ### The cursor of a change -/

theorem splitOnce_append {sep : Char} : ∀ {left : List Char} {right : List Char}, sep ∉ left →
    splitOnce sep (left ++ sep :: right) = some (left, right)
  | [], _, _ => by simp [splitOnce]
  | c :: cs, right, h => by
      rw [List.mem_cons, not_or] at h
      rw [List.cons_append]
      unfold splitOnce
      rw [if_neg (Ne.symm h.1), splitOnce_append h.2]
      rfl

theorem splitSign_digits {digits : List Char} (h : ∀ c ∈ digits, c.isDigit = true) :
    splitSign digits = (false, digits) := by
  unfold splitSign
  split
  · exact absurd (h '-' List.mem_cons_self) (by decide)
  · exact absurd (h '+' List.mem_cons_self) (by decide)
  · rfl

/-- The digits of an instant parse to it. -/
theorem parseI64_text (t : Timestamp) : parseI64 t.text.toList = some (t.unixMillis : Int) := by
  have hdigits : ∀ c ∈ t.text.toList, c.isDigit = true := by
    intro c hc
    rw [Timestamp.text_toList] at hc
    exact Nat.isDigit_of_mem_toDigits (by decide) (by decide) hc
  have hvalue : Nat.ofDigitChars 10 t.text.toList 0 = t.unixMillis := by
    rw [Timestamp.text_toList, Nat.ofDigitChars_ten_toDigits]
  have hrange : t.unixMillis ≤ maxI64 := t.isI64
  unfold parseI64
  rw [splitSign_digits hdigits]
  simp only
  rw [if_neg, hvalue]
  · simp [hrange]
  · rintro (hnil | hany)
    · rw [Timestamp.text_toList] at hnil
      exact Nat.toDigits_ne_nil hnil
    · rw [List.any_eq_true] at hany
      obtain ⟨c, hc, hbad⟩ := hany
      rw [hdigits c hc] at hbad
      cases hbad

/-- Reading a cursor back gives the instant and the id it was made from. -/
theorem parseChangeCursor_cursor (c : Change) :
    parseChangeCursor (changeCursor c) = .ok (c.observedMillis, c.changeId.val) := by
  have hcolon : ':' ∉ c.observedAt.text.toList := by
    intro hmem
    rw [Timestamp.text_toList] at hmem
    have := Nat.isDigit_of_mem_toDigits (by decide) (by decide) hmem
    revert this
    decide
  have htext : (changeCursor c).toList =
      c.observedAt.text.toList ++ ':' :: c.changeId.val.toList := by
    unfold changeCursor
    simp only [String.toList_append, List.append_assoc]
    rfl
  have hid : c.changeId.val.toList ≠ [] := by
    intro hnil
    have hself := c.changeId.trimmed.2
    exact c.changeId.trimmed.1 (hself.trans hnil)
  unfold parseChangeCursor
  rw [htext, splitOnce_append hcolon]
  simp only [parseI64_text]
  rw [if_neg hid, String.ofList_toList]
  rfl

namespace Store

variable {s : Store} {plan : RecentChangesProjectionPlan}

/-- Everything a plan of changes selects, in the order of the statement. -/
def changeListing (s : Store) (plan : RecentChangesProjectionPlan) : List Change :=
  newestFirst (s.changes.rows.filter (holds (plan.clauses s)))

theorem changeListing_ordered :
    (s.changeListing plan).Pairwise fun a b => changeBefore a b = true :=
  newestFirst_ordered (s.changes.keys_nodup.sublist (List.filter_sublist.map _))

theorem holds_changeClauses {c : Change} :
    holds (plan.clauses s) c = true ↔
      (∀ since, plan.sinceMillis = some since → since ≤ c.observedMillis) ∧
      (∀ id, plan.resourceId = some id → s.concerns id c = true) ∧
      (plan.kinds.rows = [] ∨ s.ofKinds plan.kinds.rows c = true) := by
  have hkinds : holds (if plan.kinds.rows.isEmpty then []
      else [Clause.of (s.ofKinds plan.kinds.rows)]) c = true ↔
        plan.kinds.rows = [] ∨ s.ofKinds plan.kinds.rows c = true := by
    by_cases h : plan.kinds.rows = [] <;> simp [h]
  unfold RecentChangesProjectionPlan.clauses
  simp only [holds_append, Bool.and_eq_true, hkinds, and_assoc]
  cases plan.sinceMillis <;> cases plan.resourceId <;> simp

theorem mem_changeListing {c : Change} : c ∈ s.changeListing plan ↔ s.PresentsChange plan c := by
  unfold changeListing
  rw [(newestFirst_perm _).mem_iff, List.mem_filter, holds_changeClauses]
  constructor
  · rintro ⟨hmem, hrecent, hconcerns, hkinds⟩
    exact ⟨KeyedTable.get_of_mem hmem, hrecent, hconcerns, hkinds⟩
  · rintro ⟨hstored, hrecent, hconcerns, hkinds⟩
    exact ⟨KeyedTable.mem_of_get hstored, hrecent, hconcerns, hkinds⟩

theorem spelled_changeClauses : Spelled (plan.clauses s) := by
  unfold RecentChangesProjectionPlan.clauses
  refine spelled_append.mpr ⟨spelled_append.mpr ⟨spelled_map_of _ _, spelled_map_of _ _⟩, ?_⟩
  intro clause hmem
  split at hmem
  · cases hmem
  · rw [List.mem_singleton.mp hmem]
    exact List.cons_ne_nil _ _

/-- A read cuts what its statement selects, once its cursor has parsed. -/
theorem readRecentChanges_eq (hlimit : plan.limit < maxI64) {after : Option String}
    {clauses : List (Clause Change)} (hafter : afterClause after = .ok clauses)
    (hspelled : Spelled clauses) :
    readRecentChanges s { plan with after := after } =
      .ok (cut changeCursor plan.limit ((s.changeListing plan).filter (holds clauses))) := by
  unfold readRecentChanges
  rw [hafter]
  show ((prepare ({ plan with after := after }.clauses s ++ clauses)) >>= _) = _
  rw [prepare_of_spelled (spelled_append.mpr ⟨spelled_changeClauses, hspelled⟩),
    asI64_of_le (by exact hlimit)]
  show Except.ok (Keyset.trim changeCursor plan.limit (limitRows _ _)) = _
  rw [limitRows_ofNat]
  have hholds : holds ({ plan with after := after }.clauses s ++ clauses) =
      fun c => holds clauses c && holds (plan.clauses s) c := by
    funext c
    rw [holds_append, Bool.and_comm]
    rfl
  unfold changeListing
  rw [← newestFirst_filter (s.changes.keys_nodup.sublist (List.filter_sublist.map _)),
    List.filter_filter, hholds]
  rfl

/-- The reads of a plan of changes are a pager over its listing. -/
theorem changes_served (hlimit : plan.limit < maxI64) :
    Serves (fun after => readRecentChanges s { plan with after := after })
      changeBefore changeCursor plan.limit (s.changeListing plan) := by
  constructor
  · rw [@readRecentChanges_eq s plan hlimit none [] rfl (fun _ h => by cases h),
      List.filter_eq_self.mpr fun c _ => holds_nil c]
  · intro c _
    have hclause : afterClause (some (changeCursor c)) =
        .ok [.of (olderThan c.observedMillis c.changeId.val)] := by
      unfold afterClause
      simp only
      rw [parseChangeCursor_cursor]
      rfl
    rw [readRecentChanges_eq hlimit hclause (by simp [Spelled, Clause.of])]
    congr 3
    ext d
    rw [holds_cons, any_of, holds_nil, Bool.and_true, Bool.eq_iff_iff, changeBefore_iff]
    unfold olderThan Change.observedMillis
    rw [Bool.or_eq_true, Bool.and_eq_true, decide_eq_true_eq, decide_eq_true_eq,
      decide_eq_true_eq, Timestamp.lt_iff, StringValue.lt_iff, Int.ofNat_lt, Int.ofNat_inj,
      Timestamp.unixMillis_injective.eq_iff]

end Store

/-! ## §5  The listings -/

/-- A paged read of the store, its cursor left open. -/
inductive Listing
  | resources (plan : ResourceProjectionPlan)
  | relations (resourceIds : OrderedSet ResourceId) (limit : Nat) (requireBothEndpoints : Bool)
  | changes (plan : RecentChangesProjectionPlan)

namespace Listing

def limit : Listing → Nat
  | .resources plan => plan.limit
  | .relations _ limit _ => limit
  | .changes plan => plan.limit

/-- The snapshot of a resource query is read only with valid cutoffs. -/
def Admitted (s : Store) : Listing → Prop
  | .resources plan => validateCutoffs s plan.cutoffs = .ok ()
  | _ => True

/-- Following the cursors from the first page ends, with every selected row
handed out once: by ascending id, and for changes newest first, the greater id
first among those of one instant. -/
def Exhausted (toLowercase : String → String) (s : Store) : Listing → Prop
  | .resources plan =>
      Exhausts (fun after => readResourcePage toLowercase s { plan with after := after })
        (fun a b => a.resource.resourceId < b.resource.resourceId)
        (fun item => s.Presents plan.cutoffs item ∧ plan.Matches toLowercase item) plan.limit
  | .relations resourceIds limit requireBothEndpoints =>
      Exhausts
        (fun after => readRelationsForResources s resourceIds limit after requireBothEndpoints)
        (fun a b => a.relation.relationId < b.relation.relationId)
        (s.PresentsRelation resourceIds requireBothEndpoints) limit
  | .changes plan =>
      Exhausts (fun after => readRecentChanges s { plan with after := after })
        (fun a b => b.observedAt < a.observedAt ∨
          b.observedAt = a.observedAt ∧ b.changeId < a.changeId)
        (s.PresentsChange plan) plan.limit

/-- The freshness filter has nothing to join. -/
def JoinsNothing : Listing → Prop
  | .resources plan => plan.JoinsNothing
  | _ => False

end Listing

variable {toLowercase : String → String} {s : Store}

theorem resources_exhausted {plan : ResourceProjectionPlan}
    (hvalid : validateCutoffs s plan.cutoffs = .ok ()) (hspelled : ¬ plan.JoinsNothing)
    (hpos : 1 ≤ plan.limit) (hlimit : plan.limit < maxI64) :
    (Listing.resources plan).Exhausted toLowercase s := by
  have h := (s.resources_served hvalid hspelled hlimit).exhausts
    (@Store.resourceListing_ordered toLowercase s plan) (fun a b hab => ?_) hpos
    (fun _ => Store.mem_resourceListing hvalid)
  · simpa only [Listing.Exhausted, resourceBefore, decide_eq_true_eq] using h
  · exact decide_eq_false (lt_asymm (of_decide_eq_true hab))

/-- A filter with nothing to join is refused with the first request. -/
theorem resources_refused {plan : ResourceProjectionPlan} (hjoins : plan.JoinsNothing)
    (hlimit : plan.limit < maxI64) : ¬ (Listing.resources plan).Exhausted toLowercase s := by
  apply not_exhausts_of_refused
  have hunspelled : ¬ Spelled ({ plan with after := none }.clauses toLowercase) := by
    intro h
    exact ResourceProjectionPlan.spelled_filters.mp h hjoins
  unfold readResourcePage
  rw [fetchLimit_of_lt hlimit, prepare_of_unspelled hunspelled]
  exact rfl

theorem relations_exhausted {resourceIds : OrderedSet ResourceId} {limit : Nat}
    {requireBothEndpoints : Bool} (hpos : 1 ≤ limit) (hlimit : limit < maxI64) :
    (Listing.relations resourceIds limit requireBothEndpoints).Exhausted toLowercase s := by
  have h := (s.relations_served hlimit).exhausts
    (@Store.relationListing_ordered s resourceIds requireBothEndpoints) (fun a b hab => ?_) hpos
    (fun _ => Store.mem_relationListing)
  · simpa only [Listing.Exhausted, relationBefore, decide_eq_true_eq] using h
  · exact decide_eq_false (lt_asymm (of_decide_eq_true hab))

theorem changes_exhausted {plan : RecentChangesProjectionPlan} (hpos : 1 ≤ plan.limit)
    (hlimit : plan.limit < maxI64) : (Listing.changes plan).Exhausted toLowercase s := by
  have h := (s.changes_served hlimit).exhausts Store.changeListing_ordered (fun a b hab => ?_)
    hpos (fun _ => Store.mem_changeListing)
  · simpa only [Listing.Exhausted, changeBefore_iff] using h
  · exact decide_eq_false (lt_asymm (of_decide_eq_true hab))

theorem seventy_le : 70 ≤ maxTimestampMillis := by decide

/-- Three changes of one instant. -/
def tiedStore : Store :=
  let change (id : ChangeId) : Change :=
    { changeId := id, subject := .resource ⟨"shared", by decide⟩, observedAt := ⟨70, seventy_le⟩
      fields := [], origin := .syncRun ⟨"one-run", by decide⟩ }
  { Store.fresh with
    changes := KeyedTable.empty.putAll
      [change ⟨"change:1", by decide⟩, change ⟨"change:2", by decide⟩, change ⟨"change:3", by decide⟩] }

def allChanges (limit : Nat) : RecentChangesProjectionPlan :=
  { sinceMillis := none, resourceId := none, kinds := .empty, limit := limit, after := none }

/-- The ids a page shows, and its cursor. -/
def shownChanges (page : Except ReadError (ProjectionPage Change)) :
    Option (List String × Option String) :=
  page.toOption.map fun page => (page.items.map fun c => c.changeId.val, page.nextAfter)

example :
    shownChanges (readRecentChanges tiedStore (allChanges 2)) =
        some (["change:3", "change:2"], some "70:change:2") ∧
      shownChanges (readRecentChanges tiedStore { allChanges 2 with after := some "70:change:2" }) =
        some (["change:1"], none) := by
  decide +kernel

/-- Every fresh resource, asked for when nothing is connected. -/
def freshOnly : ResourceProjectionPlan :=
  { query := none, kinds := .empty, connectorTypes := .empty, health := []
    freshness := [.fresh], labels := .empty, cutoffs := .empty, limit := 25, after := none }

end NextInfra
