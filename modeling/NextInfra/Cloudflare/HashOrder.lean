import NextInfra.Cloudflare.Fits
import NextInfra.Lib.StableSort

/-!
# The order of the hash maps

The three child modules come back in hash maps, each walked in an order of its own.
§1 is what the merges leave for an order, §2 the orders that put one entry before
another, and §3 when no order shows.
-/

namespace NextInfra

namespace Cloudflare

/-! ## §1  What the merges leave -/

section

variable {β : Type}

/-- The rows of the map of a child module. -/
abbrev ChildRow (β : Type) : Type := String × List β × Option ConnectorFailure

def recordsMessage (zoneId : String) : String :=
  "Cloudflare module dns_records for zone " ++ zoneId ++ " is partial"

def tunnelsMessage (accountId : String) : String :=
  "Cloudflare module tunnels for account " ++ accountId ++ " is partial"

def workersMessage (accountId : String) : String :=
  "Cloudflare module workers for account " ++ accountId ++ " is partial"

theorem enclosed_injective (front back : String) :
    Function.Injective fun text : String => front ++ text ++ back := by
  intro a b h
  have hlist := congrArg String.toList h
  simp only [String.toList_append] at hlist
  exact String.toList_injective (List.append_cancel_left (List.append_cancel_right hlist))

/-- A message tells the id it is about. -/
theorem messages_injective : Function.Injective recordsMessage ∧
    Function.Injective tunnelsMessage ∧ Function.Injective workersMessage :=
  ⟨enclosed_injective _ _, enclosed_injective _ _, enclosed_injective _ _⟩

/-- Rows are noted one after the other, their items aside. -/
def Collector.notes (message : String → String) (c : Collector) (rows : List (ChildRow β)) :
    Collector :=
  rows.foldl (fun c row => c.note (message row.1) row.2.2) c

def itemsOf (rows : List (ChildRow β)) : List β := rows.flatMap fun row => row.2.1

/-- The warning a row leaves. -/
def warningOf (message : String → String) (row : ChildRow β) : Option ObservationWarning :=
  row.2.2.map fun failure => { code := failure.code, message := message row.1 }

theorem note_warnings (message : String → String) (c : Collector) (row : ChildRow β) :
    (c.note (message row.1) row.2.2).warnings =
      c.warnings ++ (warningOf message row).toList := by
  unfold Collector.note warningOf
  cases row.2.2 with
  | none => exact (List.append_nil _).symm
  | some f => rfl

theorem notes_warnings (message : String → String) (c : Collector) (rows : List (ChildRow β)) :
    (c.notes message rows).warnings = c.warnings ++ rows.filterMap (warningOf message) := by
  unfold Collector.notes
  induction rows generalizing c with
  | nil => exact (List.append_nil _).symm
  | cons row rows ih =>
      rw [List.foldl_cons, ih, note_warnings, List.filterMap_cons, List.append_assoc]
      cases warningOf message row with
      | none => rfl
      | some w => rfl

theorem bump_bump (counts : OrderedMap String Nat) (key key' : String) :
    bump (bump counts key) key' = bump (bump counts key') key := by
  apply OrderedMap.ext_lookup
  intro k
  unfold bump
  simp only [OrderedMap.lookup_insert]
  by_cases hkey : key = key'
  · rw [hkey]
  · by_cases hk : k = key
    · by_cases hk' : k = key' <;> simp_all [eq_comm]
    · by_cases hk' : k = key' <;> simp_all [eq_comm]

/-- Two rows are noted in either order where one of them did not fail. -/
theorem note_note (message : String → String) (c : Collector) {x y : ChildRow β}
    (h : x.2.2 = none ∨ y.2.2 = none) :
    (c.note (message x.1) x.2.2).note (message y.1) y.2.2 =
      (c.note (message y.1) y.2.2).note (message x.1) x.2.2 := by
  have hone : ∀ m m' : String, ∀ f : Option ConnectorFailure,
      (c.note m f).note m' none = (c.note m' none).note m f := by
    intro m m' f
    cases f with
    | none => rfl
    | some f =>
        unfold Collector.note
        dsimp only
        rw [bump_bump]
  rcases h with h | h
  · rw [h]
    exact (hone _ _ _).symm
  · rw [h]
    exact hone _ _ _

/-- Where at most one row failed, the rows are noted alike in any order. -/
theorem notes_perm (message : String → String) (c : Collector) {rows rows' : List (ChildRow β)}
    (hperm : rows.Perm rows')
    (hone : ∀ x ∈ rows, ∀ y ∈ rows, x.2.2 ≠ none → y.2.2 ≠ none → x = y) :
    c.notes message rows = c.notes message rows' := by
  apply hperm.foldl_eq'
  intro x hx y hy z
  by_cases hfailed : x.2.2 ≠ none ∧ y.2.2 ≠ none
  · rw [hone x hx y hy hfailed.1 hfailed.2]
  · apply note_note message z
    by_cases hnone : x.2.2 = none
    · exact Or.inl hnone
    · exact Or.inr (not_not.mp fun h => hfailed ⟨hnone, h⟩)

/-- A merge notes its rows and takes their items. -/
theorem merge_eq {take : Collector → List β → Collector} {order : HashOrder}
    {message : String → String} (hnil : ∀ c, take c [] = c)
    (happend : ∀ c a b, take (take c a) b = take c (a ++ b))
    (hnote : ∀ c items m f, (take c items).note m f = take (c.note m f) items) (c : Collector)
    (results : OrderedMap String (List β × Option ConnectorFailure)) :
    c.merge order message take results =
      take (c.notes message (order.visit results.rows)) (itemsOf (order.visit results.rows)) := by
  have hrows : ∀ rows : List (ChildRow β), ∀ c items,
      rows.foldl (fun c (id, items, failure) => take (c.note (message id) failure) items)
        (take c items) = take (c.notes message rows) (items ++ itemsOf rows) := by
    intro rows
    induction rows with
    | nil =>
        intro c items
        exact congrArg (take c) (List.append_nil items).symm
    | cons row rows ih =>
        intro c items
        rw [List.foldl_cons]
        show List.foldl _ (take ((take c items).note (message row.1) row.2.2) row.2.1) rows = _
        rw [hnote, happend, ih, List.append_assoc]
        rfl
  have h := hrows (order.visit results.rows) c []
  rw [hnil, List.nil_append] at h
  exact h

end

section

variable {wire : Wire} {lists : Lists}

/-- What the merges note. -/
def noted (wire : Wire) (orders : HashOrders) (lists : Lists) : Collector :=
  let c : Collector := { accounts := lists.accounts, zones := lists.zones }
  let c := c.notes recordsMessage (orders.records.visit (zoneRecords wire lists).rows)
  let c := c.notes tunnelsMessage (orders.tunnels.visit (accountTunnels wire lists).rows)
  c.notes workersMessage (orders.workers.visit (accountWorkers wire lists).rows)

/-- Noting leaves the items alone. -/
theorem notes_with {β : Type} (message : String → String) (c : Collector) (rows : List (ChildRow β))
    (records : List DnsRecordDto) (tunnels : List TunnelWithAccount)
    (workers : List WorkerWithAccount) :
    Collector.notes message
        { c with records := records, tunnels := tunnels, workers := workers } rows =
      { c.notes message rows with records := records, tunnels := tunnels, workers := workers } := by
  unfold Collector.notes
  induction rows generalizing c with
  | nil => rfl
  | cons row rows ih =>
      rw [List.foldl_cons, List.foldl_cons, ← ih]
      unfold Collector.note
      cases row.2.2 with
      | none => rfl
      | some f => rfl

theorem notes_keeps {β : Type} (message : String → String) (c : Collector)
    (rows : List (ChildRow β)) :
    (c.notes message rows).accounts = c.accounts ∧ (c.notes message rows).zones = c.zones ∧
      (c.notes message rows).records = c.records ∧ (c.notes message rows).tunnels = c.tunnels ∧
      (c.notes message rows).workers = c.workers := by
  unfold Collector.notes
  induction rows generalizing c with
  | nil => exact ⟨rfl, rfl, rfl, rfl, rfl⟩
  | cons row rows ih =>
      obtain ⟨ha, hz, hr, ht, hw⟩ := note_keeps (message row.1) c row.2.2
      obtain ⟨iha, ihz, ihr, iht, ihw⟩ := ih (c.note (message row.1) row.2.2)
      exact ⟨iha.trans ha, ihz.trans hz, ihr.trans hr, iht.trans ht, ihw.trans hw⟩

theorem mergeZoneRecords_eq (order : HashOrder) (c : Collector)
    (results : OrderedMap String (List DnsRecordDto × Option ConnectorFailure)) :
    c.mergeZoneRecords order results =
      { c.notes recordsMessage (order.visit results.rows) with
        records := c.records ++ itemsOf (order.visit results.rows)
        tunnels := c.tunnels
        workers := c.workers } := by
  obtain ⟨_, _, hr, ht, hw⟩ := notes_keeps recordsMessage c (order.visit results.rows)
  have hmerge := @merge_eq DnsRecordDto (fun c items => { c with records := c.records ++ items })
    order recordsMessage ?_ ?_ ?_ c results
  · rw [hr] at hmerge
    rw [← ht, ← hw]
    exact hmerge
  · exact fun c => by rw [List.append_nil]
  · exact fun c a b => by rw [List.append_assoc]
  · exact fun c items m f => by cases f <;> rfl

theorem mergeTunnels_eq (order : HashOrder) (c : Collector)
    (results : OrderedMap String (List TunnelWithAccount × Option ConnectorFailure)) :
    c.mergeTunnels order results =
      { c.notes tunnelsMessage (order.visit results.rows) with
        records := c.records
        tunnels := c.tunnels ++ itemsOf (order.visit results.rows)
        workers := c.workers } := by
  obtain ⟨_, _, hr, ht, hw⟩ := notes_keeps tunnelsMessage c (order.visit results.rows)
  have hmerge := @merge_eq TunnelWithAccount (fun c items => { c with tunnels := c.tunnels ++ items })
    order tunnelsMessage ?_ ?_ ?_ c results
  · rw [ht] at hmerge
    rw [← hr, ← hw]
    exact hmerge
  · exact fun c => by rw [List.append_nil]
  · exact fun c a b => by rw [List.append_assoc]
  · exact fun c items m f => by cases f <;> rfl

theorem mergeWorkers_eq (order : HashOrder) (c : Collector)
    (results : OrderedMap String (List WorkerWithAccount × Option ConnectorFailure)) :
    c.mergeWorkers order results =
      { c.notes workersMessage (order.visit results.rows) with
        records := c.records
        tunnels := c.tunnels
        workers := c.workers ++ itemsOf (order.visit results.rows) } := by
  obtain ⟨_, _, hr, ht, hw⟩ := notes_keeps workersMessage c (order.visit results.rows)
  have hmerge := @merge_eq WorkerWithAccount (fun c items => { c with workers := c.workers ++ items })
    order workersMessage ?_ ?_ ?_ c results
  · rw [hw] at hmerge
    rw [← hr, ← ht]
    exact hmerge
  · exact fun c => by rw [List.append_nil]
  · exact fun c a b => by rw [List.append_assoc]
  · exact fun c items m f => by cases f <;> rfl

theorem collect_eq (orders : HashOrders) :
    collect wire orders lists =
      { noted wire orders lists with
        records := itemsOf (orders.records.visit (zoneRecords wire lists).rows)
        tunnels := itemsOf (orders.tunnels.visit (accountTunnels wire lists).rows)
        workers := itemsOf (orders.workers.visit (accountWorkers wire lists).rows) } := by
  unfold collect noted
  dsimp only
  rw [mergeZoneRecords_eq, mergeTunnels_eq, mergeWorkers_eq]
  simp only [notes_with, List.nil_append]

end

/-! ## §2  Orders that show -/

namespace HashOrder

theorem stored_perm {α : Type} (entries : List (String × α)) : entries.Perm entries :=
  .refl entries

/-- The entries as they stand. -/
def stored : HashOrder where
  visit := fun entries => entries
  perm := @stored_perm

/-- The entry of an id first. -/
def front (id : String) : HashOrder where
  visit := fun entries =>
    entries.filter (fun e => decide (e.1 = id)) ++ entries.filter fun e => !decide (e.1 = id)
  perm := fun entries => List.filter_append_perm _ entries

/-- The entry of one id, then that of another. -/
def lead (id id' : String) : HashOrder where
  visit := fun entries => (front id).visit ((front id').visit entries)
  perm := fun entries => ((front id).perm _).trans ((front id').perm entries)

variable {α : Type} {entries : List (String × α)} {x y : String × α}

theorem front_visit (hkeys : (entries.map Prod.fst).Nodup) (hx : x ∈ entries) :
    (front x.1).visit entries = x :: entries.filter fun e => !decide (e.1 = x.1) := by
  have hfilter : entries.filter (fun e => decide (e.1 = x.1)) = [x] :=
    StableSort.under_of_nodup hkeys hx
  unfold front
  dsimp only
  rw [hfilter]
  rfl

/-- Two entries first, in either order, and the rest as it is. -/
theorem lead_visit (hkeys : (entries.map Prod.fst).Nodup) (hx : x ∈ entries) (hy : y ∈ entries)
    (hne : x.1 ≠ y.1) :
    ∃ rest, (lead x.1 y.1).visit entries = x :: y :: rest ∧
      (lead y.1 x.1).visit entries = y :: x :: rest := by
  have hlead : ∀ {x y : String × α}, x ∈ entries → y ∈ entries → x.1 ≠ y.1 →
      (lead x.1 y.1).visit entries = x :: y :: (entries.filter fun e => !decide (e.1 = y.1)).filter
        fun e => !decide (e.1 = x.1) := by
    intro x y hx hy hne
    have hperm := (front y.1).perm entries
    have hnodup : (((front y.1).visit entries).map Prod.fst).Nodup :=
      (hperm.map Prod.fst).nodup_iff.mpr hkeys
    have hmem : x ∈ (front y.1).visit entries := hperm.mem_iff.mpr hx
    show (front x.1).visit ((front y.1).visit entries) = _
    rw [front_visit hnodup hmem, front_visit hkeys hy, List.filter_cons_of_pos]
    simpa using hne.symm
  refine ⟨_, hlead hx hy hne, ?_⟩
  rw [hlead hy hx hne.symm, List.filter_comm]

end HashOrder

section

variable {β : Type} {observe : β → Except String ResourceObservation}
  {results : OrderedMap String (List β × Option ConnectorFailure)}

/-- What the items of a list come to under one kind and id. -/
def observed (observe : β → Except String ResourceObservation) (key : ResourceKind ×ₗ ExternalId)
    (items : List β) : List ResourceObservation :=
  StableSort.under resourceKey key (Fallible.results observe items)

theorem observed_itemsOf (key : ResourceKind ×ₗ ExternalId) (rows : List (ChildRow β)) :
    observed observe key (itemsOf rows) = rows.flatMap fun row => observed observe key row.2.1 := by
  unfold observed itemsOf
  rw [Fallible.results_flatMap, StableSort.under_flatMap]

theorem row_keys_nodup : (results.rows.map Prod.fst).Nodup := results.keys_nodup

/-- Where the warnings are the same in every order, at most one row failed. -/
theorem one_failed_of_warnings {message : String → String} (hmessage : Function.Injective message)
    (h : ∀ order order' : HashOrder, (order.visit results.rows).filterMap (warningOf message) =
      (order'.visit results.rows).filterMap (warningOf message)) :
    ∀ x ∈ results.rows, ∀ y ∈ results.rows, x.2.2 ≠ none → y.2.2 ≠ none → x = y := by
  intro x hx y hy hfx hfy
  by_contra hne
  have hid : x.1 ≠ y.1 := fun hid => hne (results.row_unique hx hy hid)
  obtain ⟨rest, hxy, hyx⟩ := HashOrder.lead_visit row_keys_nodup hx hy hid
  have hwarning : ∀ row : ChildRow β, row.2.2 ≠ none → ∃ failure,
      warningOf message row = some { code := failure, message := message row.1 } := by
    intro row hrow
    obtain ⟨failure, hfailure⟩ := Option.ne_none_iff_exists'.mp hrow
    refine ⟨failure.code, ?_⟩
    unfold warningOf
    rw [hfailure]
    rfl
  obtain ⟨codeX, hwx⟩ := hwarning x hfx
  obtain ⟨codeY, hwy⟩ := hwarning y hfy
  have hsame := h (.lead x.1 y.1) (.lead y.1 x.1)
  rw [hxy, hyx, List.filterMap_cons_some hwx, List.filterMap_cons_some hwy,
    List.filterMap_cons_some hwy] at hsame
  have hfirst := (List.cons.inj hsame).1
  exact hid (hmessage (congrArg ObservationWarning.message hfirst))

/-- Where the items come to the same in every order, those of two rows do. -/
theorem commute_of_observed {key : ResourceKind ×ₗ ExternalId}
    (h : ∀ order order' : HashOrder, observed observe key (itemsOf (order.visit results.rows)) =
      observed observe key (itemsOf (order'.visit results.rows))) :
    ∀ x ∈ results.rows, ∀ y ∈ results.rows,
      observed observe key x.2.1 ++ observed observe key y.2.1 =
        observed observe key y.2.1 ++ observed observe key x.2.1 := by
  intro x hx y hy
  by_cases hid : x.1 = y.1
  · rw [results.row_unique hx hy hid]
  · obtain ⟨rest, hxy, hyx⟩ := HashOrder.lead_visit row_keys_nodup hx hy hid
    have hsame := h (.lead x.1 y.1) (.lead y.1 x.1)
    rw [hxy, hyx, observed_itemsOf, observed_itemsOf] at hsame
    simp only [List.flatMap_cons] at hsame
    rw [← List.append_assoc, ← List.append_assoc] at hsame
    exact List.append_cancel_right hsame

/-- Rows that commute come to the same in every order. -/
theorem observed_of_commute {key : ResourceKind ×ₗ ExternalId}
    (h : ∀ x ∈ results.rows, ∀ y ∈ results.rows,
      observed observe key x.2.1 ++ observed observe key y.2.1 =
        observed observe key y.2.1 ++ observed observe key x.2.1) (order order' : HashOrder) :
    observed observe key (itemsOf (order.visit results.rows)) =
      observed observe key (itemsOf (order'.visit results.rows)) := by
  rw [observed_itemsOf, observed_itemsOf]
  apply StableSort.flatMap_eq_of_commute
  · exact (order.perm results.rows).trans (order'.perm results.rows).symm
  · intro x hx y hy
    exact h x ((order.perm results.rows).mem_iff.mp hx) y ((order.perm results.rows).mem_iff.mp hy)

end

/-! ## §3  The outcome -/

/-- At most one list of a child module failed and left its entry. -/
def AtMostOneFails {α : Type} (decode : Body → Option (List α))
    (children : List (String × ListFetch)) : Prop :=
  ∀ id fetch failure id' fetch' failure', Kept decode children id fetch →
    fetch.items decode = .error failure → Kept decode children id' fetch' →
    fetch'.items decode = .error failure' → id = id'

/-- What two lists of a child module observe under one kind and id is the same whichever
of the two comes first. -/
def Interchangeable {α β : Type} (decode : Body → Option (List α)) (withId : String → α → β)
    (observe : β → Except String ResourceObservation) (children : List (String × ListFetch)) :
    Prop :=
  ∀ id fetch items id' fetch' items' key, Kept decode children id fetch →
    fetch.items decode = .ok items → Kept decode children id' fetch' →
    fetch'.items decode = .ok items' →
    observed observe key (items.map (withId id)) ++ observed observe key (items'.map (withId id')) =
      observed observe key (items'.map (withId id')) ++ observed observe key (items.map (withId id))

section

variable {α β : Type} {decode : Body → Option (List α)} {withId : String → α → β}
  {observe : β → Except String ResourceObservation} {children : List (String × ListFetch)}

theorem atMostOneFails_iff :
    AtMostOneFails decode children ↔ ∀ x ∈ (childResults decode withId children).rows,
      ∀ y ∈ (childResults decode withId children).rows, x.2.2 ≠ none → y.2.2 ≠ none → x = y := by
  have hfailed : ∀ {row : ChildRow β}, row ∈ (childResults decode withId children).rows →
      row.2.2 ≠ none → ∃ fetch failure, Kept decode children row.1 fetch ∧
        fetch.items decode = .error failure := by
    intro row hrow hne
    obtain ⟨fetch, read, hkept, hoptional, _⟩ := mem_childResults_iff.mp hrow
    rcases optional_eq_some_iff.mp hoptional with ⟨_, hnone⟩ | ⟨failure, herror, _⟩
    · exact absurd hnone hne
    · exact ⟨fetch, failure, hkept, herror⟩
  have hrow : ∀ {id fetch failure}, Kept decode children id fetch →
      fetch.items decode = .error failure →
      (id, [], some failure) ∈ (childResults decode withId children).rows := by
    intro id fetch failure hkept herror
    have hcalm : isChildModuleFatal failure = false := by
      obtain ⟨_, _, _, hsome, _⟩ := hkept
      by_contra hfatal
      exact hsome (optional_eq_none_iff.mpr ⟨failure, herror, by simpa using hfatal⟩)
    exact mem_childResults_iff.mpr ⟨fetch, [], hkept,
      optional_eq_some_iff.mpr (Or.inr ⟨failure, herror, hcalm, rfl, rfl⟩), rfl⟩
  constructor
  · intro h x hx y hy hfx hfy
    obtain ⟨fetch, failure, hkept, herror⟩ := hfailed hx hfx
    obtain ⟨fetch', failure', hkept', herror'⟩ := hfailed hy hfy
    exact (childResults decode withId children).row_unique hx hy
      (h _ fetch failure _ fetch' failure' hkept herror hkept' herror')
  · intro h id fetch failure id' fetch' failure' hkept herror hkept' herror'
    have hsame := h _ (hrow hkept herror) _ (hrow hkept' herror') (Option.some_ne_none _)
      (Option.some_ne_none _)
    exact congrArg Prod.fst hsame

theorem interchangeable_iff :
    Interchangeable decode withId observe children ↔
      ∀ key, ∀ x ∈ (childResults decode withId children).rows,
        ∀ y ∈ (childResults decode withId children).rows,
          observed observe key x.2.1 ++ observed observe key y.2.1 =
            observed observe key y.2.1 ++ observed observe key x.2.1 := by
  constructor
  · intro h key x hx y hy
    obtain ⟨fetch, read, hkept, hoptional, hitems⟩ := mem_childResults_iff.mp hx
    obtain ⟨fetch', read', hkept', hoptional', hitems'⟩ := mem_childResults_iff.mp hy
    rw [hitems, hitems']
    -- a list that failed has no items
    rcases optional_eq_some_iff.mp hoptional with ⟨hok, _⟩ | ⟨_, _, _, rfl, _⟩
    · rcases optional_eq_some_iff.mp hoptional' with ⟨hok', _⟩ | ⟨_, _, _, rfl, _⟩
      · exact h _ fetch read _ fetch' read' key hkept hok hkept' hok'
      · exact List.append_nil _
    · exact (List.append_nil _).symm
  · intro h id fetch items id' fetch' items' key hkept hok hkept' hok'
    have hrow : ∀ {id fetch items}, Kept decode children id fetch → fetch.items decode = .ok items →
        (id, items.map (withId id), none) ∈ (childResults decode withId children).rows := by
      intro id fetch items hkept hok
      exact mem_childResults_iff.mpr
        ⟨fetch, items, hkept, optional_eq_some_iff.mpr (Or.inl ⟨hok, rfl⟩), rfl⟩
    exact h key _ (hrow hkept hok) _ (hrow hkept' hok')

end

/-- Everything a sync would map fits. -/
structure Lists.Fit (wire : Wire) (lists : Lists) : Prop where
  accounts : ∀ v ∈ lists.accounts, v.Fits
  zones : ∀ v ∈ lists.zones, v.Fits
  records : ∀ v : DnsRecordDto,
    KeptItem wire.records (fun _ record => record) lists.records v → v.Fits
  tunnels : ∀ v : TunnelWithAccount,
    KeptItem wire.tunnels (fun id tunnel => ⟨tunnel, id⟩) lists.tunnels v → v.Fits
  workers : ∀ v : WorkerWithAccount,
    KeptItem wire.workers (fun id worker => ⟨worker, id⟩) lists.workers v → v.Fits

/-- No order of the maps shows in what is mapped and recorded. -/
structure Lists.Steady (wire : Wire) (ctx : Context) (lists : Lists) : Prop where
  failures : AtMostOneFails wire.records lists.records ∧
    AtMostOneFails wire.tunnels lists.tunnels ∧ AtMostOneFails wire.workers lists.workers
  observations :
    Interchangeable wire.records (fun _ record => record) (record ctx) lists.records ∧
      Interchangeable wire.tunnels (fun id tunnel => ⟨tunnel, id⟩) (tunnel ctx) lists.tunnels ∧
      Interchangeable wire.workers (fun id worker => ⟨worker, id⟩) (worker ctx) lists.workers

/-- The outcome is the same in every order of the maps. -/
def HashOrderFree (wire : Wire) (transport : Transport) (request : SyncRequest)
    (secret : Option (List UInt8)) : Prop :=
  ∀ orders orders' : HashOrders, sync wire transport orders request secret =
    sync wire transport orders' request secret

section

variable {wire : Wire} {transport : Transport} {lists : Lists} {ctx : Context}
  {request : SyncRequest}

theorem noted_keeps (orders : HashOrders) :
    (noted wire orders lists).accounts = lists.accounts ∧
      (noted wire orders lists).zones = lists.zones := by
  unfold noted
  dsimp only
  obtain ⟨ha, hz, _⟩ := notes_keeps recordsMessage
    { accounts := lists.accounts, zones := lists.zones }
    (orders.records.visit (zoneRecords wire lists).rows)
  obtain ⟨ha', hz', _⟩ := notes_keeps tunnelsMessage _
    (orders.tunnels.visit (accountTunnels wire lists).rows)
  obtain ⟨ha'', hz'', _⟩ := notes_keeps workersMessage _
    (orders.workers.visit (accountWorkers wire lists).rows)
  exact ⟨(ha''.trans ha').trans ha, (hz''.trans hz').trans hz⟩

theorem collect_fits_iff (orders : HashOrders) :
    (collect wire orders lists).Fits ↔ lists.Fit wire := by
  have h := @collect_collects wire orders lists
  constructor
  · intro hc
    refine ⟨h.accounts ▸ hc.accounts, h.zones ▸ hc.zones, ?_, ?_, ?_⟩
    · exact fun v hv => hc.records v ((h.records v).mpr hv)
    · exact fun v hv => hc.tunnels v ((h.tunnels v).mpr hv)
    · exact fun v hv => hc.workers v ((h.workers v).mpr hv)
  · intro hl
    refine ⟨h.accounts ▸ hl.accounts, h.zones ▸ hl.zones, ?_, ?_, ?_⟩
    · exact fun v hv => hl.records v ((h.records v).mp hv)
    · exact fun v hv => hl.tunnels v ((h.tunnels v).mp hv)
    · exact fun v hv => hl.workers v ((h.workers v).mp hv)

end

section

variable {wire : Wire} {transport : Transport} {lists : Lists} {ctx : Context}
  {request : SyncRequest}

/-- The warnings of a sync, module by module. -/
theorem collect_warnings (orders : HashOrders) :
    (collect wire orders lists).warnings =
      (orders.records.visit (zoneRecords wire lists).rows).filterMap (warningOf recordsMessage) ++
        (orders.tunnels.visit (accountTunnels wire lists).rows).filterMap
          (warningOf tunnelsMessage) ++
        (orders.workers.visit (accountWorkers wire lists).rows).filterMap
          (warningOf workersMessage) := by
  rw [collect_eq]
  unfold noted
  dsimp only
  rw [notes_warnings, notes_warnings, notes_warnings, List.nil_append]

/-- What was collected under one kind and id, module by module. -/
theorem collect_under (orders : HashOrders) (key : ResourceKind ×ₗ ExternalId) :
    StableSort.under resourceKey key ((collect wire orders lists).observations ctx) =
      observed (account ctx) key lists.accounts ++ observed (zone ctx) key lists.zones ++
        observed (record ctx) key
          (itemsOf (orders.records.visit (zoneRecords wire lists).rows)) ++
        observed (tunnel ctx) key
          (itemsOf (orders.tunnels.visit (accountTunnels wire lists).rows)) ++
        observed (worker ctx) key
          (itemsOf (orders.workers.visit (accountWorkers wire lists).rows)) := by
  obtain ⟨ha, hz⟩ := @noted_keeps wire lists orders
  unfold Collector.observations observed
  rw [collect_eq]
  dsimp only
  rw [ha, hz]
  simp only [StableSort.under_append]

/-- What was noted is the same in every order where at most one entry of a map failed. -/
theorem noted_eq (h : lists.Steady wire ctx) (orders orders' : HashOrders) :
    noted wire orders lists = noted wire orders' lists := by
  have hmodule : ∀ {α β : Type} {decode : Body → Option (List α)} {withId : String → α → β}
      {children : List (String × ListFetch)}, AtMostOneFails decode children →
      ∀ (message : String → String) (order order' : HashOrder) (c : Collector),
        c.notes message (order.visit (childResults decode withId children).rows) =
          c.notes message (order'.visit (childResults decode withId children).rows) := by
    intro α β decode withId children hone message order order' c
    have hperm := order.perm (childResults decode withId children).rows
    apply notes_perm message c
    · exact hperm.trans (order'.perm _).symm
    · intro x hx y hy
      exact atMostOneFails_iff.mp hone x (hperm.mem_iff.mp hx) y (hperm.mem_iff.mp hy)
  obtain ⟨hrecords, htunnels, hworkers⟩ := h.failures
  unfold noted zoneRecords accountTunnels accountWorkers
  dsimp only
  rw [hmodule hrecords recordsMessage orders.records orders'.records,
    hmodule htunnels tunnelsMessage orders.tunnels orders'.tunnels,
    hmodule hworkers workersMessage orders.workers orders'.workers]

theorem collect_under_eq (h : lists.Steady wire ctx) (orders orders' : HashOrders)
    (key : ResourceKind ×ₗ ExternalId) :
    StableSort.under resourceKey key ((collect wire orders lists).observations ctx) =
      StableSort.under resourceKey key ((collect wire orders' lists).observations ctx) := by
  obtain ⟨hrecords, htunnels, hworkers⟩ := h.observations
  have hr := observed_of_commute (interchangeable_iff.mp hrecords key) orders.records
    orders'.records
  have ht := observed_of_commute (interchangeable_iff.mp htunnels key) orders.tunnels
    orders'.tunnels
  have hw := observed_of_commute (interchangeable_iff.mp hworkers key) orders.workers
    orders'.workers
  rw [collect_under, collect_under]
  unfold zoneRecords accountTunnels accountWorkers
  rw [hr, ht, hw]

/-- The outcome of a sync that collected what fits. -/
theorem finish_of_fit (hfit : lists.Fit wire) (hmode : request.mode = .full)
    (orders : HashOrders) :
    ∃ output, mapCollected ctx (collect wire orders lists) = .ok output ∧
      (collect wire orders lists).finish ctx request =
        .ok ((collect wire orders lists).outcome ctx.scope output) := by
  obtain ⟨output, hmap⟩ := mapCollected_isOk_iff.mpr ((collect_fits_iff orders).mpr hfit)
  exact ⟨output, hmap, finish_of_mapped hmode hmap⟩

/-- Steady lists come to one outcome. -/
theorem finish_eq (h : lists.Fit wire → lists.Steady wire ctx) (hmode : request.mode = .full)
    (orders orders' : HashOrders) :
    (collect wire orders lists).finish ctx request =
      (collect wire orders' lists).finish ctx request := by
  by_cases hfit : lists.Fit wire
  · obtain ⟨output, hmap, hfinish⟩ := @finish_of_fit _ _ ctx _ hfit hmode orders
    obtain ⟨output', hmap', hfinish'⟩ := @finish_of_fit _ _ ctx _ hfit hmode orders'
    rw [hfinish, hfinish',
      mapCollected_congr hmap hmap' (collect_under_eq (h hfit) orders orders'),
      collect_eq, collect_eq, noted_eq (h hfit) orders orders']
    rfl
  · rw [finish_of_refused fun hc => hfit ((collect_fits_iff orders).mp hc),
      finish_of_refused fun hc => hfit ((collect_fits_iff orders').mp hc)]

theorem outcome_batch (c : Collector) (scope : Scope) (mapped : CloudflareMapperOutput) :
    (c.outcome scope mapped).batch.warnings = c.warnings ∧
      (c.outcome scope mapped).batch.resources = mapped.resources := by
  unfold Collector.outcome
  cases c.childFailures.head? with
  | none => exact ⟨rfl, rfl⟩
  | some failure => exact ⟨rfl, rfl⟩

/-- An outcome that is the same in every order shows the lists to be steady. -/
theorem steady_of_finish (hfit : lists.Fit wire) (hmode : request.mode = .full)
    (h : ∀ orders orders', (collect wire orders lists).finish ctx request =
      (collect wire orders' lists).finish ctx request) : lists.Steady wire ctx := by
  have hsame : ∀ orders orders', (collect wire orders lists).warnings =
      (collect wire orders' lists).warnings ∧ ∀ key,
        StableSort.under resourceKey key ((collect wire orders lists).observations ctx) =
          StableSort.under resourceKey key ((collect wire orders' lists).observations ctx) := by
    intro orders orders'
    obtain ⟨output, hmap, hfinish⟩ := @finish_of_fit _ _ ctx _ hfit hmode orders
    obtain ⟨output', hmap', hfinish'⟩ := @finish_of_fit _ _ ctx _ hfit hmode orders'
    have hok := h orders orders'
    rw [hfinish, hfinish'] at hok
    have hbatch := congrArg SyncOutcome.batch (Except.ok.inj hok)
    have hwarnings := congrArg ObservationBatch.warnings hbatch
    have hresources := congrArg ObservationBatch.resources hbatch
    rw [(outcome_batch _ _ _).1, (outcome_batch _ _ _).1] at hwarnings
    rw [(outcome_batch _ _ _).2, (outcome_batch _ _ _).2, (mapCollected_eq hmap).1,
      (mapCollected_eq hmap').1] at hresources
    exact ⟨hwarnings, StableSort.insertionSort_eq_iff.mp hresources⟩
  -- one map at a time is walked in two orders, the others as they stand
  have hrecords : ∀ order order' : HashOrder, _ := fun order order' =>
    hsame ⟨order, .stored, .stored⟩ ⟨order', .stored, .stored⟩
  have htunnels : ∀ order order' : HashOrder, _ := fun order order' =>
    hsame ⟨.stored, order, .stored⟩ ⟨.stored, order', .stored⟩
  have hworkers : ∀ order order' : HashOrder, _ := fun order order' =>
    hsame ⟨.stored, .stored, order⟩ ⟨.stored, .stored, order'⟩
  simp only [collect_warnings, collect_under, List.append_cancel_left_eq,
    List.append_cancel_right_eq] at hrecords htunnels hworkers
  refine ⟨⟨?_, ?_, ?_⟩, ?_, ?_, ?_⟩
  · apply atMostOneFails_iff.mpr
    exact one_failed_of_warnings messages_injective.1 fun o o' => (hrecords o o').1
  · apply atMostOneFails_iff.mpr
    exact one_failed_of_warnings messages_injective.2.1 fun o o' => (htunnels o o').1
  · apply atMostOneFails_iff.mpr
    exact one_failed_of_warnings messages_injective.2.2 fun o o' => (hworkers o o').1
  · exact interchangeable_iff.mpr fun key => commute_of_observed fun o o' => (hrecords o o').2 key
  · exact interchangeable_iff.mpr fun key => commute_of_observed fun o o' => (htunnels o o').2 key
  · exact interchangeable_iff.mpr fun key => commute_of_observed fun o o' => (hworkers o o').2 key

theorem sync_of_lists {token : List UInt8} {secret : Option (List UInt8)}
    (hadmitted : Admitted request secret token) (hlists : readLists wire transport token = .ok lists)
    (orders : HashOrders) :
    sync wire transport orders request secret =
      (collect wire orders lists).finish (contextOf request) request := by
  obtain ⟨hvalid, rfl, hmode⟩ := hadmitted
  unfold sync
  rw [hvalid]
  dsimp only
  rw [if_neg (not_not.mpr hmode), hlists]
  rfl

/-- The order of the maps shows in no outcome exactly when, of what a sync would map, at
most one list of a child module failed and any two agree on the observations they share. -/
theorem hash_order_free_iff (wire : Wire) (transport : Transport) (request : SyncRequest)
    (secret : Option (List UInt8)) :
    HashOrderFree wire transport request secret ↔
      ∀ token lists, Admitted request secret token → readLists wire transport token = .ok lists →
        lists.Fit wire → lists.Steady wire (contextOf request) := by
  constructor
  · intro h token lists hadmitted hlists hfit
    apply steady_of_finish hfit hadmitted.2.2
    intro orders orders'
    rw [← sync_of_lists hadmitted hlists, ← sync_of_lists hadmitted hlists]
    exact h orders orders'
  · intro h orders orders'
    by_cases hread : ∃ token lists, Admitted request secret token ∧
        readLists wire transport token = .ok lists
    · obtain ⟨token, lists, hadmitted, hlists⟩ := hread
      rw [sync_of_lists hadmitted hlists, sync_of_lists hadmitted hlists]
      exact finish_eq (h token lists hadmitted hlists) hadmitted.2.2 orders orders'
    · -- nothing was read that a map could hold
      unfold sync
      cases hvalid : validateConnection request.connection with
      | cons issue rest => rfl
      | nil =>
          cases secret with
          | none => rfl
          | some token =>
              by_cases hmode : request.mode = .full
              · cases hlists : readLists wire transport token with
                | error e =>
                    dsimp only
                    rw [if_neg (not_not.mpr hmode), if_neg (not_not.mpr hmode), hlists]
                    rfl
                | ok lists => exact absurd ⟨token, lists, ⟨hvalid, rfl, hmode⟩, hlists⟩ hread
              · dsimp only
                rw [if_pos hmode, if_pos hmode]

end


/-! ## §4  Two zones that fail -/

namespace Fixture

def otherZone : ZoneDto := { zone with id := "y", name := "example.org" }

def twoZones : Body :=
  body "\x7b\"result\":[\x7b\"id\":\"z\",\"name\":\"example.com\",\"account\":\x7b\"id\":\"a\",\"name\":\"A\"\x7d\x7d,\x7b\"id\":\"y\",\"name\":\"example.org\",\"account\":\x7b\"id\":\"a\",\"name\":\"A\"\x7d\x7d]\x7d"

def twoZoneWire : Wire :=
  { wire with zones := fun body => if body = twoZones then some [zone, otherZone] else none }

/-- The records of the first zone are rate limited, those of the second forbidden. -/
def twoZoneTransport : Transport := fun number _ =>
  match number with
  | 0 => .ok { status := 200, retryAfterSeconds := none, body := noAccounts }
  | 1 => .ok { status := 200, retryAfterSeconds := none, body := twoZones }
  | 2 => .ok { status := 429, retryAfterSeconds := some 30, body := [] }
  | _ => .ok { status := 403, retryAfterSeconds := none, body := [] }

def primaryCode : Except ConnectorFailure SyncOutcome → Option ErrorCode
  | .ok (.partial_ _ failure) => some failure.code
  | _ => none

end Fixture

open NextInfra.Cloudflare.Fixture in
/-- The primary failure is that of whichever zone comes first. -/
theorem two_zones_show_order :
    ¬HashOrderFree twoZoneWire twoZoneTransport request (some token) := by
  intro h
  have hsame := congrArg primaryCode
    (h ⟨.lead "z" "y", .stored, .stored⟩ ⟨.lead "y" "z", .stored, .stored⟩)
  have hfirst : primaryCode (sync twoZoneWire twoZoneTransport
      ⟨.lead "z" "y", .stored, .stored⟩ request (some token)) = some .rateLimited := by
    decide +kernel
  have hsecond : primaryCode (sync twoZoneWire twoZoneTransport
      ⟨.lead "y" "z", .stored, .stored⟩ request (some token)) = some .permissionDenied := by
    decide +kernel
  rw [hfirst, hsecond] at hsame
  cases hsame

end Cloudflare

end NextInfra
