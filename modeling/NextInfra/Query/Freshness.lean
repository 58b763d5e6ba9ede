import NextInfra.Lib.Entries
import NextInfra.Query.Paging
import NextInfra.Query.Source

/-!
# Freshness has one meaning

The freshness of a resource is computed three times: by the runtime from the
schedule of its connection, by the store from the cutoffs the runtime derives,
and by the clause of the SQL statement that filters on it. The three agree for
every interval a context can hold, also where the cutoffs saturate: instants are
not negative, so a saturated cutoff is already below every one of them.

The health summary counts what the store classifies.
-/

namespace NextInfra

open Sql

/-! ## §1  The context and the runtime's classifier -/

inductive QueryContextError
  | invalidInterval
  | revisionMustIncrease
deriving DecidableEq

def QuerySchedule.new (intervalMillis : Nat) (nextScheduledAt : Option Timestamp) :
    Except QueryContextError QuerySchedule :=
  if intervalMillis = 0 then .error .invalidInterval
  else .ok { intervalMillis := intervalMillis, nextScheduledAt := nextScheduledAt }

/-- `QueryContextSnapshot::new`; of several entries for one connection the last one stays. -/
def QueryContextSnapshot.new (evaluatedAt : Timestamp) (queryContextRevision : Nat)
    (schedules : List (ConnectionId × Nat × Option Timestamp)) :
    Except QueryContextError QueryContextSnapshot := do
  let entries ← schedules.mapM fun (id, intervalMillis, nextScheduledAt) =>
    (QuerySchedule.new intervalMillis nextScheduledAt).map fun schedule => (id, schedule)
  return { evaluatedAt := evaluatedAt
           queryContextRevision := queryContextRevision
           schedules := OrderedMap.ofEntries entries }

/-- `i128::saturating_mul(3)`. -/
def tripleI128 (interval : Int) : Int := max (-(2 ^ 127)) (min (interval * 3) (2 ^ 127 - 1))

/-- The `classify_freshness` of the runtime. -/
def QueryContextSnapshot.classifyFreshness (context : QueryContextSnapshot) (r : Resource) :
    Except QuerySourceError Freshness :=
  match context.schedule r.connectionId with
  | none => .error (.contract "freshness schedule is missing")
  | some schedule =>
      let interval : Int := schedule.intervalMillis
      if interval = 0 then .error .invalidInterval
      else
        let age := max ((context.evaluatedAt.unixMillis : Int) - r.lastSeenAt.unixMillis) 0
        if age ≤ interval then .ok .fresh
        else if age ≤ tripleI128 interval then .ok .stale
        else .ok .expired

/-- `resource_dto_from_context`: a resource as the detail and the topology show it. -/
def resourceDtoFromContext (source : Resource) (context : QueryContextSnapshot) :
    Except QuerySourceError ResourceDto :=
  (context.classifyFreshness source).map (resourceDto source)

/-! ## §2  The health summary -/

structure HealthProjection where
  resourceHealth : List (ResourceHealth × Nat)
  freshness : List (Freshness × Nat)
  connectorHealth : List (ConnectorHealth × Nat)

/-- `SELECT health, COUNT(*) .. GROUP BY health`: the values that occur, in the order of
their texts. -/
def groupedCounts {α : Type} [DecidableEq α] (byText values : List α) : List (α × Nat) :=
  (byText.filter fun value => decide (value ∈ values)).map fun value => (value, values.count value)

namespace Store

def readHealthProjection (s : Store) (cutoffs : OrderedMap ConnectionId FreshnessCutoffs) :
    Except ReadError HealthProjection := do
  let classes ← s.resources.rows.mapM fun r => NextInfra.classifyFreshness r cutoffs
  return { resourceHealth := groupedCounts [.degraded, .healthy, .unhealthy, .unknown]
             (s.resources.rows.map Resource.health)
           freshness := [.fresh, .stale, .expired].map fun value => (value, classes.count value)
           connectorHealth := groupedCounts
             [.authFailed, .degraded, .disabled, .healthy, .rateLimited, .unreachable]
             ((s.connections.rows.filter fun c => c.deletedAt.isNone).map Connection.health) }

def queryHealthSummary (s : Store) (cutoffs : OrderedMap ConnectionId FreshnessCutoffs) :
    Except ReadError (ProjectionSnapshot HealthProjection) :=
  s.withProjectionSnapshot do
    validateCutoffs s cutoffs
    s.readHealthProjection cutoffs

end Store

/-! ## §3  One classification -/

/-- A constructed context holds no empty interval. -/
theorem interval_of_new {evaluatedAt : Timestamp} {revision : Nat}
    {entries : List (ConnectionId × Nat × Option Timestamp)} {context : QueryContextSnapshot}
    (h : QueryContextSnapshot.new evaluatedAt revision entries = .ok context)
    {id : ConnectionId} {schedule : QuerySchedule} (hs : context.schedule id = some schedule) :
    schedule.intervalMillis ≠ 0 := by
  obtain ⟨schedules, hread, hcontext⟩ := bind_ok h
  obtain rfl := Except.ok.inj hcontext
  have hmem : (id, schedule) ∈ (OrderedMap.ofEntries schedules).rows :=
    OrderedMap.lookup_eq_some_iff.mp hs
  obtain ⟨before, after, hsplit, _⟩ := OrderedMap.mem_ofEntries_iff.mp hmem
  obtain ⟨entry, _, hentry⟩ := Fallible.argument_of_mapM hread (hsplit ▸ by simp : (id, schedule) ∈ schedules)
  obtain ⟨id', intervalMillis, nextScheduledAt⟩ := entry
  have hnew : (QuerySchedule.new intervalMillis nextScheduledAt).map
      (fun schedule => (id', schedule)) = .ok (id, schedule) := hentry
  unfold QuerySchedule.new at hnew
  by_cases hzero : intervalMillis = 0
  · rw [if_pos hzero] at hnew
    cases hnew
  · rw [if_neg hzero] at hnew
    cases hnew
    exact hzero

/-- The cutoffs of a schedule put an instant where its age puts it. -/
theorem classifyMillis_scheduleCutoffs (evaluatedAt seenAt : Timestamp) (schedule : QuerySchedule) :
    classifyMillis seenAt.unixMillis (scheduleCutoffs evaluatedAt schedule) =
      let interval : Int := schedule.intervalMillis
      let age := max ((evaluatedAt.unixMillis : Int) - seenAt.unixMillis) 0
      if age ≤ interval then Freshness.fresh
      else if age ≤ tripleI128 interval then .stale
      else .expired := by
  have hseen := seenAt.isI64
  have hevaluated := evaluatedAt.isI64
  unfold maxTimestampMillis at hseen hevaluated
  unfold classifyMillis scheduleCutoffs saturateI64 tripleI128
  simp only
  have hfresh : max (-(2 ^ 63)) (min ((evaluatedAt.unixMillis : Int) -
      max (-(2 ^ 63)) (min (schedule.intervalMillis : Int) (2 ^ 63 - 1))) (2 ^ 63 - 1)) ≤
        (seenAt.unixMillis : Int) ↔
      max ((evaluatedAt.unixMillis : Int) - seenAt.unixMillis) 0 ≤ schedule.intervalMillis := by
    omega
  have hstale : max (-(2 ^ 63)) (min ((evaluatedAt.unixMillis : Int) -
      max (-(2 ^ 63)) (min (max (-(2 ^ 63)) (min (schedule.intervalMillis : Int) (2 ^ 63 - 1)) * 3)
        (2 ^ 63 - 1))) (2 ^ 63 - 1)) ≤ (seenAt.unixMillis : Int) ↔
      max ((evaluatedAt.unixMillis : Int) - seenAt.unixMillis) 0 ≤
        max (-(2 ^ 127)) (min ((schedule.intervalMillis : Int) * 3) (2 ^ 127 - 1)) := by
    omega
  simp only [hfresh, hstale]

theorem lookup_cutoffs {context : QueryContextSnapshot} {id : ConnectionId} :
    OrderedMap.lookup context.cutoffs id =
      (context.schedule id).map (scheduleCutoffs context.evaluatedAt) := by
  apply Option.ext
  intro cutoff
  rw [OrderedMap.lookup_eq_some_iff, Option.map_eq_some_iff]
  show (id, cutoff) ∈ context.schedules.rows.map _ ↔ _
  rw [List.mem_map]
  constructor
  · rintro ⟨⟨id', schedule⟩, hmem, hrow⟩
    cases hrow
    exact ⟨schedule, OrderedMap.lookup_eq_some_iff.mpr hmem, rfl⟩
  · rintro ⟨schedule, hs, rfl⟩
    exact ⟨(id, schedule), OrderedMap.lookup_eq_some_iff.mp hs, rfl⟩

/-- Three intervals ago is not after one interval ago. -/
theorem scheduleCutoffs_ordered (evaluatedAt : Timestamp) (schedule : QuerySchedule) :
    (scheduleCutoffs evaluatedAt schedule).expiredAfterMillis ≤
      (scheduleCutoffs evaluatedAt schedule).freshAfterMillis := by
  unfold scheduleCutoffs saturateI64
  simp only
  omega

/-- The context has a schedule for the connection. -/
def QueryContextSnapshot.Lists (context : QueryContextSnapshot) (id : ConnectionId) : Prop :=
  (context.schedule id).isSome = true

instance (context : QueryContextSnapshot) (id : ConnectionId) : Decidable (context.Lists id) :=
  inferInstanceAs (Decidable (_ = true))

/-- The cutoffs of a context are valid where it lists the connection of each resource. -/
theorem validateCutoffs_context_iff {s : Store} {context : QueryContextSnapshot} :
    validateCutoffs s context.cutoffs = .ok () ↔
      ∀ r ∈ s.resources.rows, context.Lists r.connectionId := by
  have hlists : ∀ id, context.Lists id ↔
      ∃ cutoff, OrderedMap.lookup context.cutoffs id = some cutoff := by
    intro id
    unfold QueryContextSnapshot.Lists
    rw [lookup_cutoffs, Option.isSome_iff_exists]
    simp [Option.map_eq_some_iff]
  constructor
  · intro h r hr
    exact (hlists _).mpr ((validateCutoffs_ok h).2 r hr)
  · intro h
    unfold validateCutoffs
    rw [if_neg]
    · apply firstUncovered_of_covered
      intro id hid
      obtain ⟨r, hr, rfl⟩ := List.mem_map.mp (OrderedSet.mem_sorted.mp hid)
      exact (hlists _).mp (h r hr)
    · rw [List.any_eq_true]
      rintro ⟨cutoff, hcutoff, hinverted⟩
      obtain ⟨id, hid⟩ := OrderedMap.mem_values.mp hcutoff
      rw [lookup_cutoffs, Option.map_eq_some_iff] at hid
      obtain ⟨schedule, _, rfl⟩ := hid
      have hordered := scheduleCutoffs_ordered context.evaluatedAt schedule
      have := of_decide_eq_true hinverted
      omega

/-- Entries without an empty interval make a context, and it lists their connections. -/
theorem QueryContextSnapshot.new_of_intervals (evaluatedAt : Timestamp) (revision : Nat)
    {entries : List (ConnectionId × Nat × Option Timestamp)} (h : ∀ e ∈ entries, e.2.1 ≠ 0) :
    ∃ context, QueryContextSnapshot.new evaluatedAt revision entries = .ok context ∧
      context.queryContextRevision = revision ∧
      ∀ id, context.Lists id ↔ ∃ e ∈ entries, e.1 = id := by
  have hentry : ∀ e ∈ entries, (QuerySchedule.new e.2.1 e.2.2).map (fun schedule => (e.1, schedule)) =
      .ok (e.1, ⟨e.2.1, e.2.2⟩) := by
    intro e he
    unfold QuerySchedule.new
    rw [if_neg (h e he)]
    rfl
  let schedules := entries.map fun e => (e.1, (⟨e.2.1, e.2.2⟩ : QuerySchedule))
  refine ⟨⟨evaluatedAt, revision, OrderedMap.ofEntries schedules⟩, ?_, rfl, ?_⟩
  · unfold QueryContextSnapshot.new
    exact congrArg (fun read => read >>= _) (mapM_of_ok hentry)
  · intro id
    unfold QueryContextSnapshot.Lists QueryContextSnapshot.schedule
    rw [OrderedMap.isSome_lookup_ofEntries]
    simp [schedules]

section

variable {evaluatedAt : Timestamp} {revision : Nat}
  {entries : List (ConnectionId × Nat × Option Timestamp)} {context : QueryContextSnapshot}
  {class_ : Freshness} {r : Resource}

/-- The runtime and the store classify alike; without a schedule neither does. -/
theorem classifyFreshness_iff (h : QueryContextSnapshot.new evaluatedAt revision entries = .ok context) :
    context.classifyFreshness r = .ok class_ ↔
      classifyFreshness r context.cutoffs = .ok class_ := by
  unfold QueryContextSnapshot.classifyFreshness NextInfra.classifyFreshness
  rw [lookup_cutoffs]
  cases hs : context.schedule r.connectionId with
  | none =>
      constructor
      · intro hclass
        cases hclass
      · intro hclass
        cases hclass
  | some schedule =>
      have hinterval : (schedule.intervalMillis : Int) ≠ 0 := by
        have := interval_of_new h hs
        omega
      have hmillis := classifyMillis_scheduleCutoffs context.evaluatedAt r.lastSeenAt schedule
      simp only [Option.map_some, Except.ok.injEq, if_neg hinterval, Resource.lastSeenMillis,
        hmillis]
      split
      · simp
      · split
        · simp
        · simp

/-- The store's class comes from the cutoffs of the resource's connection. -/
theorem cutoff_of_class (h : QueryContextSnapshot.new evaluatedAt revision entries = .ok context)
    (hclass : context.classifyFreshness r = .ok class_) :
    ∃ cutoff, OrderedMap.lookup context.cutoffs r.connectionId = some cutoff ∧
      cutoff.expiredAfterMillis ≤ cutoff.freshAfterMillis ∧
      classifyMillis r.lastSeenMillis cutoff = class_ := by
  have hstore := (classifyFreshness_iff h).mp hclass
  unfold NextInfra.classifyFreshness at hstore
  rw [lookup_cutoffs] at hstore
  rw [lookup_cutoffs]
  cases hs : context.schedule r.connectionId with
  | none =>
      rw [hs] at hstore
      cases hstore
  | some schedule =>
      rw [hs] at hstore
      exact ⟨_, rfl, scheduleCutoffs_ordered _ _, Except.ok.inj hstore⟩

/-- The clause of the statement passes the resources of the requested classes. -/
theorem freshnessFilter_iff
    (h : QueryContextSnapshot.new evaluatedAt revision entries = .ok context)
    (hclass : context.classifyFreshness r = .ok class_) (connectorType : ConnectorType)
    {plan : ResourceProjectionPlan} (hplan : plan.cutoffs = context.cutoffs) :
    holds (freshnessFilter plan.freshness context.cutoffs) (r, connectorType) = true ↔
      plan.freshness = [] ∨ class_ ∈ plan.freshness := by
  obtain ⟨cutoff, hcovered, hordered, rfl⟩ := cutoff_of_class h hclass
  rw [← hplan] at hcovered ⊢
  exact ResourceProjectionPlan.holds_freshnessFilter hcovered hordered

/-- The summary counts each class as often as the runtime gives it. -/
theorem readHealthProjection_freshness
    (h : QueryContextSnapshot.new evaluatedAt revision entries = .ok context) {s : Store}
    {summary : HealthProjection} (hread : s.readHealthProjection context.cutoffs = .ok summary) :
    summary.freshness = [.fresh, .stale, .expired].map fun value =>
      (value, s.resources.rows.countP fun r =>
        decide (context.classifyFreshness r = .ok value)) := by
  obtain ⟨classes, hclasses, hsummary⟩ := bind_ok hread
  obtain rfl := Except.ok.inj hsummary
  have hcount : ∀ value : Freshness, classes.count value =
      s.resources.rows.countP fun r => decide (context.classifyFreshness r = .ok value) := by
    intro value
    refine Fallible.countP_of_mapM hclasses fun r _ stored hstored => ?_
    rw [(classifyFreshness_iff h).mpr hstored]
    by_cases hsame : stored = value <;> simp [hsame]
  simp only [List.map_cons, List.map_nil, hcount]

/-- A listing of some classes is the whole listing less the other classes. -/
theorem resourceListing_freshness {toLowercase : String → String} {s : Store}
    {plan : ResourceProjectionPlan} (hvalid : validateCutoffs s plan.cutoffs = .ok ())
    (hsome : plan.freshness ≠ []) :
    s.resourceListing toLowercase plan =
      (s.resourceListing toLowercase { plan with freshness := [] }).filter fun item =>
        decide (item.freshness ∈ plan.freshness) := by
  obtain ⟨hordered, hcovers⟩ := validateCutoffs_ok hvalid
  unfold Store.resourceListing
  rw [List.filter_map, List.filter_filter]
  congr 1
  apply List.filter_congr
  intro row hrow
  obtain ⟨cutoff, hcutoff⟩ := hcovers row.1 (Store.mem_resourceRows.mp hrow).1
  have hfilters : ∀ p : ResourceProjectionPlan, p.cutoffs = plan.cutoffs →
      (holds (p.filters toLowercase) row = true ↔
        p.Matches toLowercase (ResourceProjectionPlan.shown p.cutoffs row)) := by
    intro p hp
    rw [← hp] at hcutoff hordered
    exact ResourceProjectionPlan.holds_filters hcutoff (hordered _ _ hcutoff)
  have hplan := hfilters plan rfl
  have hall := hfilters { plan with freshness := [] } rfl
  rw [Bool.eq_iff_iff, Bool.and_eq_true, hplan, hall, Function.comp_apply, decide_eq_true_iff]
  constructor
  · rintro ⟨hquery, hkinds, htypes, hhealth, hlabels, hfreshness⟩
    exact ⟨hfreshness.resolve_left hsome, hquery, hkinds, htypes, hhealth, hlabels, Or.inl rfl⟩
  · rintro ⟨hfreshness, hquery, hkinds, htypes, hhealth, hlabels, _⟩
    exact ⟨hquery, hkinds, htypes, hhealth, hlabels, Or.inr hfreshness⟩

/-- A page shows fetched rows. -/
theorem mem_of_mem_trim {ρ γ : Type} {cursor : ρ → γ} {limit : Nat} {fetched : List ρ} {item : ρ}
    (h : item ∈ (Keyset.trim cursor limit fetched).items) : item ∈ fetched := by
  unfold Keyset.trim at h
  split at h
  · exact List.mem_of_mem_dropLast h
  · exact h

theorem mem_of_mem_limitRows {ρ : Type} {limit : Int} {rows : List ρ} {row : ρ}
    (h : row ∈ limitRows limit rows) : row ∈ rows := by
  unfold limitRows at h
  split at h
  · exact h
  · exact List.mem_of_mem_take h

/-- A page of resources shows stored rows under the class of the store. -/
theorem readResourcePage_classified {toLowercase : String → String} {s : Store}
    {plan : ResourceProjectionPlan} {page : ProjectionPage ProjectedResource}
    (hread : readResourcePage toLowercase s plan = .ok page) {item : ProjectedResource}
    (hitem : item ∈ page.items) :
    item.resource ∈ s.resources.rows ∧
      NextInfra.classifyFreshness item.resource plan.cutoffs = .ok item.freshness := by
  obtain ⟨fetched, _, hread⟩ := bind_ok hread
  obtain ⟨matching, _, hread⟩ := bind_ok hread
  obtain ⟨items, hitems, hread⟩ := bind_ok hread
  obtain rfl := Except.ok.inj hread
  obtain ⟨row, hrow, hclass⟩ := Fallible.argument_of_mapM hitems (mem_of_mem_trim hitem)
  have hstored := (Store.mem_resourceRows.mp
    (List.mem_of_mem_filter (mem_of_mem_limitRows hrow))).1
  unfold classifiedResource at hclass
  cases hfresh : NextInfra.classifyFreshness row.1 plan.cutoffs with
  | error e =>
      rw [hfresh] at hclass
      cases hclass
  | ok value =>
      rw [hfresh] at hclass
      cases hclass
      exact ⟨hstored, hfresh⟩

theorem readStore_ok {ρ : Type} {read : Except ReadError ρ} {found : ρ}
    (h : readStore read = .ok found) : read = .ok found := by
  cases read with
  | error e => cases h
  | ok a =>
      cases h
      rfl

theorem validateLimit_ok {limit : Nat} (h : validateLimit limit = .ok ()) :
    0 < limit ∧ limit ≤ maxProjectionPageLimit := by
  unfold validateLimit at h
  split at h
  · cases h
  · omega

theorem validateLimit_of_le {limit : Nat} (hpos : 0 < limit)
    (hlimit : limit ≤ maxProjectionPageLimit) : validateLimit limit = .ok () := by
  unfold validateLimit
  rw [if_neg (by omega)]

theorem withProjectionSnapshot_revision {ρ : Type} {s : Store} {read : Except ReadError ρ}
    {found : ProjectionSnapshot ρ} (h : s.withProjectionSnapshot read = .ok found) :
    found.committedRevision = s.committedRevision := by
  unfold Store.withProjectionSnapshot at h
  cases read with
  | error e => cases h
  | ok body =>
      obtain rfl := Except.ok.inj h
      rfl

theorem withProjectionSnapshot_ok {ρ : Type} {s : Store} {read : Except ReadError ρ}
    {found : ProjectionSnapshot ρ} (h : s.withProjectionSnapshot read = .ok found) :
    read = .ok found.body := by
  unfold Store.withProjectionSnapshot at h
  cases read with
  | error e => cases h
  | ok body =>
      obtain rfl := Except.ok.inj h
      rfl

theorem queryResources_ok {toLowercase : String → String} {s : Store}
    {plan : ResourceProjectionPlan} {found : ProjectionSnapshot (ProjectionPage ProjectedResource)}
    (h : s.queryResources toLowercase plan = .ok found) :
    readResourcePage toLowercase s plan = .ok found.body := by
  obtain ⟨_, _, h⟩ := bind_ok h
  obtain ⟨_, _, hpage⟩ := bind_ok (withProjectionSnapshot_ok h)
  exact hpage

/-- What a search shows is what the detail of the resource shows. -/
theorem searchResources_shown {toLowercase : String → String} {source : CommittedQuerySource}
    (h : QueryContextSnapshot.new evaluatedAt revision entries = .ok source.context)
    {plan : ResourceSearchPlan} {page : SourceSnapshot (SourcePage ResourceDto)}
    (hread : source.searchResources toLowercase plan = .ok page) :
    ∀ dto ∈ page.body.items, ∃ r ∈ source.store.resources.rows,
      resourceDtoFromContext r source.context = .ok dto := by
  intro dto hdto
  obtain ⟨projection, hprojection, hread⟩ := bind_ok hread
  obtain rfl := Except.ok.inj hread
  obtain ⟨item, hitem, rfl⟩ := List.mem_map.mp hdto
  obtain ⟨hstored, hclass⟩ :=
    readResourcePage_classified (queryResources_ok (readStore_ok hprojection)) hitem
  refine ⟨item.resource, hstored, ?_⟩
  unfold resourceDtoFromContext
  rw [(classifyFreshness_iff h).mpr hclass]
  rfl

end

/-! ## §4  Agreement -/

/-- In every context the constructors build: the runtime and the store give a resource the
same class, the clause of the statement passes the resources of the requested classes, the
health summary counts the classes, and a search shows the class the detail shows, so that
asking for some classes leaves exactly the resources shown with one of them. -/
theorem freshness_agreement (toLowercase : String → String) (source : CommittedQuerySource)
    (evaluatedAt : Timestamp) (revision : Nat)
    (entries : List (ConnectionId × Nat × Option Timestamp))
    (h : QueryContextSnapshot.new evaluatedAt revision entries = .ok source.context) :
    (∀ r class_, source.context.classifyFreshness r = .ok class_ ↔
      classifyFreshness r source.context.cutoffs = .ok class_) ∧
    (∀ r class_, source.context.classifyFreshness r = .ok class_ →
      ∀ connectorType (plan : ResourceProjectionPlan), plan.cutoffs = source.context.cutoffs →
        (holds (freshnessFilter plan.freshness source.context.cutoffs) (r, connectorType) = true ↔
          plan.freshness = [] ∨ class_ ∈ plan.freshness)) ∧
    (∀ summary, source.store.readHealthProjection source.context.cutoffs = .ok summary →
      summary.freshness = [.fresh, .stale, .expired].map fun value =>
        (value, source.store.resources.rows.countP fun r =>
          decide (source.context.classifyFreshness r = .ok value))) ∧
    (∀ plan page, source.searchResources toLowercase plan = .ok page →
      ∀ dto ∈ page.body.items, ∃ r ∈ source.store.resources.rows,
        resourceDtoFromContext r source.context = .ok dto) ∧
    ∀ plan : ResourceProjectionPlan, plan.cutoffs = source.context.cutoffs →
      validateCutoffs source.store plan.cutoffs = .ok () → plan.freshness ≠ [] →
        source.store.resourceListing toLowercase plan =
          (source.store.resourceListing toLowercase { plan with freshness := [] }).filter
            fun item => decide (item.freshness ∈ plan.freshness) := by
  refine ⟨?_, ?_, ?_, ?_, ?_⟩
  · exact fun r class_ => classifyFreshness_iff h
  · exact fun r class_ hclass connectorType plan hplan =>
      freshnessFilter_iff h hclass connectorType hplan
  · exact fun summary hread => readHealthProjection_freshness h hread
  · exact fun plan page hread => searchResources_shown h hread
  · exact fun plan _ hvalid hsome => resourceListing_freshness hvalid hsome

def lastMoment : Timestamp := ⟨maxTimestampMillis, le_rfl⟩

/-- A connection scheduled once in `u64::MAX` milliseconds, evaluated as late as possible. -/
def rarelySynced : CommittedQuerySource where
  store := Store.fresh
  catalog := []
  context :=
    { evaluatedAt := lastMoment
      queryContextRevision := 1
      schedules := OrderedMap.ofEntries
        [(⟨"lab", trimmed_lab⟩, { intervalMillis := 2 ^ 64 - 1, nextScheduledAt := none })] }

/-- A resource of that connection, last seen at the epoch. -/
def longUnseen : Resource where
  resourceId := ⟨"resource:lab", by decide⟩
  connectionId := ⟨"lab", trimmed_lab⟩
  kind := ⟨"compute.host", by decide +kernel⟩
  externalId := ⟨"lab", trimmed_lab⟩
  name := "lab"
  displayName := "lab"
  scope := ⟨"all", trimmed_all⟩
  labels := .empty
  lifecycle := .active
  health := .unknown
  attributes := .object []
  attributeSchemaVersion := .one
  fingerprint := ⟨"f", by decide⟩
  firstSeenAt := ⟨0, Nat.zero_le _⟩
  lastSeenAt := ⟨0, Nat.zero_le _⟩
  lastChangedAt := ⟨0, Nat.zero_le _⟩
  lastSyncRunId := ⟨"run", trimmed_run⟩

theorem freshness_agreement_saturated :
    rarelySynced.context.classifyFreshness longUnseen = .ok .fresh ∧
      classifyFreshness longUnseen rarelySynced.context.cutoffs = .ok .fresh := by
  have hruntime : rarelySynced.context.classifyFreshness longUnseen = .ok .fresh := by
    decide +kernel
  have hagree := (freshness_agreement lower rarelySynced lastMoment 1
    [(⟨"lab", trimmed_lab⟩, 2 ^ 64 - 1, none)] rfl).1 longUnseen .fresh
  exact ⟨hruntime, hagree.mp hruntime⟩

end NextInfra
