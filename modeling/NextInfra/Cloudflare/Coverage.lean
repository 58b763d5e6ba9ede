import NextInfra.Cloudflare.Connector

/-!
# What a Cloudflare sync claims to have seen

A complete outcome says that everything was read. §1 says what it would take for one
list, §2 which lists are merged into the batch, §3 the three ways a list is left out
without a failure being recorded, and §4 that there is no other way.
-/

namespace NextInfra

namespace Cloudflare

section

variable {wire : Wire} {transport : Transport} {secret : List UInt8}

/-! ## §1  Lists -/

/-- A list of the sync was read by `fetch_pages`. -/
def ListFetch.Sent (wire : Wire) (transport : Transport) (secret : List UInt8)
    (fetch : ListFetch) : Prop :=
  fetch.pages = (fetchPages wire transport fetch.path secret fetch.number).1

/-- Every page of the list, up to the last that any of them reported, was answered with
success, and every item of every page is among the resources. -/
def ListFetch.Whole {α : Type} (wire : Wire) (transport : Transport) (secret : List UInt8)
    (decode : Body → Option (List α)) (observe : α → Except String ResourceObservation)
    (resources : List ResourceObservation) (fetch : ListFetch) : Prop :=
  ∃ pages, fetch.pages = .ok pages ∧
    (∀ body ∈ pages, ∀ total, wire.totalPages body = some total → total ≤ pages.length) ∧
    (∀ i body, pages[i]? = some body → ∃ request response,
      wire.request fetch.path secret (i + 1) = some request ∧
      transport (fetch.number + i) request = .ok response ∧ response.isSuccess = true ∧
      response.body = body) ∧
    ∀ body ∈ pages, ∃ items, decode body = some items ∧
      ∀ item ∈ items, ∃ r ∈ resources, observe item = .ok r

/-- A page reported more pages than the list ended with: more than a hundred, or more
than a later page did. -/
def ListFetch.Overreported (wire : Wire) (fetch : ListFetch) : Prop :=
  ∃ pages, fetch.pages = .ok pages ∧
    ∃ body ∈ pages, ∃ total, wire.totalPages body = some total ∧ pages.length < total

/-- The items of a list are those of its pages. -/
theorem items_ok_iff {α : Type} {decode : Body → Option (List α)} {fetch : ListFetch}
    {items : List α} :
    fetch.items decode = .ok items ↔
      ∃ pages decoded, fetch.pages = .ok pages ∧ pages.mapM decode = some decoded ∧
        decoded.flatten = items := by
  unfold ListFetch.items
  constructor
  · intro h
    split at h
    · cases h
    rename_i pages hpages
    split at h
    · cases h
    rename_i decoded hdecoded
    cases h
    exact ⟨pages, decoded, hpages, hdecoded, rfl⟩
  · rintro ⟨pages, decoded, hpages, hdecoded, rfl⟩
    rw [hpages]
    simp only [hdecoded]

/-- Each item is on a page, and each page decodes to items of the list. -/
theorem page_of_items {α : Type} {decode : Body → Option (List α)} {pages : List Body}
    {decoded : List (List α)} (h : pages.mapM decode = some decoded) :
    (∀ body ∈ pages, ∃ items, decode body = some items ∧ ∀ item ∈ items, item ∈ decoded.flatten) ∧
      ∀ item ∈ decoded.flatten, ∃ body ∈ pages, ∃ items, decode body = some items ∧ item ∈ items := by
  have hall := Fallible.mapM_some_iff.mp h
  clear h
  induction hall with
  | nil => simp
  | cons hab _ ih =>
      rename_i body items bodies rest _
      obtain ⟨ih1, ih2⟩ := ih
      constructor
      · intro b hb
        rcases List.mem_cons.mp hb with rfl | hb
        · exact ⟨items, hab, fun item hi => List.mem_append_left _ hi⟩
        · obtain ⟨items', hd, hin⟩ := ih1 b hb
          exact ⟨items', hd, fun item hi => List.mem_append_right _ (hin item hi)⟩
      · intro item hitem
        rcases List.mem_append.mp hitem with hitem | hitem
        · exact ⟨body, List.mem_cons_self, items, hab, hitem⟩
        · obtain ⟨b, hb, items', hd, hin⟩ := ih2 item hitem
          exact ⟨b, List.mem_cons_of_mem _ hb, items', hd, hin⟩

/-- A list that was read is whole exactly when no page reported more and every item is
among the resources. -/
theorem whole_iff {α : Type} {decode : Body → Option (List α)}
    {observe : α → Except String ResourceObservation} {resources : List ResourceObservation}
    {fetch : ListFetch} (hsent : fetch.Sent wire transport secret) :
    fetch.Whole wire transport secret decode observe resources ↔
      ¬fetch.Overreported wire ∧ ∃ items, fetch.items decode = .ok items ∧
        ∀ item ∈ items, ∃ r ∈ resources, observe item = .ok r := by
  constructor
  · rintro ⟨pages, hpages, htotal, _, hdecode⟩
    refine ⟨?_, ?_⟩
    · rintro ⟨pages', hpages', body, hbody, total, hreported, hlt⟩
      rw [hpages] at hpages'
      cases hpages'
      have := htotal body hbody total hreported
      omega
    · obtain ⟨decoded, hdecoded⟩ := Fallible.mapM_some_of_forall fun body hbody =>
        (hdecode body hbody).imp fun _ h => h.1
      refine ⟨decoded.flatten, items_ok_iff.mpr ⟨pages, decoded, hpages, hdecoded, rfl⟩, ?_⟩
      intro item hitem
      obtain ⟨body, hbody, items, hitems, hin⟩ := (page_of_items hdecoded).2 item hitem
      obtain ⟨items', hitems', hobserve⟩ := hdecode body hbody
      rw [hitems] at hitems'
      cases hitems'
      exact hobserve item hin
  · rintro ⟨hover, items, hitems, hobserve⟩
    obtain ⟨pages, decoded, hpages, hdecoded, rfl⟩ := items_ok_iff.mp hitems
    refine ⟨pages, hpages, ?_, ?_, ?_⟩
    · intro body hbody total htotal
      by_contra hlt
      exact hover ⟨pages, hpages, body, hbody, total, htotal, by omega⟩
    · intro i body hbody
      have hok : (fetchPagesFrom wire transport fetch.path secret maxPagesPerEndpoint
          fetch.number 1).1 = .ok pages := hsent.symm.trans hpages
      obtain ⟨request, response, hrequest, h⟩ := (fetchPagesFrom_ok hok).2.2.1 i body hbody
      rw [Nat.add_comm] at hrequest
      exact ⟨request, response, hrequest, h⟩
    · intro body hbody
      obtain ⟨items, hd, hin⟩ := (page_of_items hdecoded).1 body hbody
      exact ⟨items, hd, fun item hi => hobserve item (hin item hi)⟩

/-! ## §2  Child modules -/

section

variable {α β : Type} {decode : Body → Option (List α)} {withId : String → α → β}
  {children : List (String × ListFetch)}

/-- The credential was refused at one of the lists. -/
def Refused (decode : Body → Option (List α)) (children : List (String × ListFetch)) : Prop :=
  ∃ child ∈ children, ∃ failure, child.2.items decode = .error failure ∧
    isChildModuleFatal failure = true

/-- The list is the last under its id that was not refused, so its entry stays. -/
def Kept (decode : Body → Option (List α)) (children : List (String × ListFetch)) (id : String)
    (fetch : ListFetch) : Prop :=
  ∃ before after, children = before ++ (id, fetch) :: after ∧ fetch.optional decode ≠ none ∧
    ∀ child ∈ after, child.1 = id → child.2.optional decode = none

/-- An item of a list whose entry stays. -/
def KeptItem (decode : Body → Option (List α)) (withId : String → α → β)
    (children : List (String × ListFetch)) (item : β) : Prop :=
  ∃ id fetch items, Kept decode children id fetch ∧ fetch.items decode = .ok items ∧
    ∃ raw ∈ items, item = withId id raw

/-- A list whose entry stays failed. -/
def Recorded (decode : Body → Option (List α)) (children : List (String × ListFetch)) : Prop :=
  ∃ id fetch failure, Kept decode children id fetch ∧ fetch.items decode = .error failure

/-- A list that failed, or one of whose items no kept item observes, gave way to another
list under its id. -/
def Replaced (decode : Body → Option (List α)) (withId : String → α → β)
    (observe : β → Except String ResourceObservation) (children : List (String × ListFetch)) :
    Prop :=
  ∃ child ∈ children, child.2.optional decode ≠ none ∧ ¬Kept decode children child.1 child.2 ∧
    ∀ items, child.2.items decode = .ok items → ∃ raw ∈ items,
      ∀ item, KeptItem decode withId children item → observe item ≠ observe (withId child.1 raw)

theorem optional_eq_some_iff {fetch : ListFetch} {items : List α}
    {failure : Option ConnectorFailure} :
    fetch.optional decode = some (items, failure) ↔
      fetch.items decode = .ok items ∧ failure = none ∨
      ∃ f, fetch.items decode = .error f ∧ isChildModuleFatal f = false ∧ items = [] ∧
        failure = some f := by
  unfold ListFetch.optional
  cases hitems : fetch.items decode with
  | ok read =>
      constructor
      · intro h
        cases h
        exact Or.inl ⟨rfl, rfl⟩
      · rintro (⟨heq, rfl⟩ | ⟨_, heq, _⟩)
        · cases heq
          rfl
        · cases heq
  | error f =>
      simp only
      split
      · rename_i hfatal
        simp [hfatal]
      · rename_i hfatal
        constructor
        · intro h
          cases h
          exact Or.inr ⟨f, rfl, by simpa using hfatal, rfl, rfl⟩
        · rintro (⟨heq, _⟩ | ⟨_, heq, _, rfl, rfl⟩)
          · cases heq
          · cases heq
            rfl

/-- The rows of a child module are the entries that stay. -/
theorem mem_childResults_iff {id : String} {items : List β} {failure : Option ConnectorFailure} :
    (id, items, failure) ∈ (childResults decode withId children).rows ↔
      ∃ fetch read, Kept decode children id fetch ∧
        fetch.optional decode = some (read, failure) ∧ items = read.map (withId id) := by
  have h := @OrderedMap.mem_ofEntries_filterMap_iff _ _ _ _
    (fun child : String × ListFetch =>
      (child.2.optional decode).map fun read => (read.1.map (withId child.1), read.2))
    children id (items, failure)
  have hsame : childResults decode withId children = OrderedMap.ofEntries (children.filterMap
      fun child => ((child.2.optional decode).map fun read =>
        (read.1.map (withId child.1), read.2)).map fun a => (child.1, a)) := by
    unfold childResults
    congr 2
    funext child
    rw [Option.map_map]
    rfl
  rw [hsame, h]
  constructor
  · rintro ⟨before, fetch, after, heq, hkeep, hafter⟩
    obtain ⟨⟨read, failure'⟩, hread, hpair⟩ := Option.map_eq_some_iff.mp hkeep
    cases hpair
    refine ⟨fetch, read, ⟨before, after, heq, ?_, ?_⟩, hread, rfl⟩
    · exact fun hnone => by rw [hnone] at hread; cases hread
    · exact fun child hmem hid => Option.map_eq_none_iff.mp (hafter child hmem hid)
  · rintro ⟨fetch, read, ⟨before, after, heq, _, hafter⟩, hread, rfl⟩
    refine ⟨before, fetch, after, heq, Option.map_eq_some_iff.mpr ⟨(read, failure), hread, rfl⟩, ?_⟩
    exact fun child hmem hid => Option.map_eq_none_iff.mpr (hafter child hmem hid)

/-- What a merge takes from a child module. -/
theorem merged_item_iff {item : β} :
    (∃ row ∈ (childResults decode withId children).rows, item ∈ row.2.1) ↔
      KeptItem decode withId children item := by
  constructor
  · rintro ⟨⟨id, items, failure⟩, hrow, hitem⟩
    obtain ⟨fetch, read, hkept, hoptional, rfl⟩ := mem_childResults_iff.mp hrow
    obtain ⟨raw, hraw, rfl⟩ := List.mem_map.mp hitem
    rcases optional_eq_some_iff.mp hoptional with ⟨hok, _⟩ | ⟨_, _, _, rfl, _⟩
    · exact ⟨id, fetch, read, hkept, hok, raw, hraw, rfl⟩
    · cases hraw
  · rintro ⟨id, fetch, read, hkept, hok, raw, hraw, rfl⟩
    refine ⟨(id, read.map (withId id), none), ?_, List.mem_map_of_mem hraw⟩
    exact mem_childResults_iff.mpr
      ⟨fetch, read, hkept, optional_eq_some_iff.mpr (Or.inl ⟨hok, rfl⟩), rfl⟩

theorem merged_failure_iff (withId : String → α → β) :
    (∃ failure, ∃ row ∈ (childResults decode withId children).rows, row.2.2 = some failure) ↔
      Recorded decode children := by
  constructor
  · rintro ⟨failure, ⟨id, items, _⟩, hrow, rfl⟩
    obtain ⟨fetch, read, hkept, hoptional, _⟩ := mem_childResults_iff.mp hrow
    rcases optional_eq_some_iff.mp hoptional with ⟨_, hf⟩ | ⟨f, herr, _, _, hf⟩
    · cases hf
    · cases hf
      exact ⟨id, fetch, failure, hkept, herr⟩
  · rintro ⟨id, fetch, failure, hkept, herr⟩
    have hcalm : isChildModuleFatal failure = false := by
      obtain ⟨_, _, _, hsome, _⟩ := hkept
      cases hfatal : isChildModuleFatal failure with
      | false => rfl
      | true => simp [ListFetch.optional, herr, hfatal] at hsome
    refine ⟨failure, (id, [], some failure), ?_, rfl⟩
    exact mem_childResults_iff.mpr ⟨fetch, [], hkept,
      optional_eq_some_iff.mpr (Or.inr ⟨failure, herr, hcalm, rfl, rfl⟩), rfl⟩

/-- A list in the walk was refused, or its entry stays, or it gave way to another. -/
theorem optional_eq_none_iff {fetch : ListFetch} :
    fetch.optional decode = none ↔
      ∃ failure, fetch.items decode = .error failure ∧ isChildModuleFatal failure = true := by
  unfold ListFetch.optional
  cases hitems : fetch.items decode with
  | ok read => simp
  | error f =>
      cases hfatal : isChildModuleFatal f with
      | true => simp [hfatal]
      | false => simp [hfatal]

/-- With no failure recorded and every kept item observed among the resources, all lists
are read and observed there exactly when none was refused and none gave way. -/
theorem children_observed_iff {observe : β → Except String ResourceObservation}
    {resources : List ResourceObservation} (hrecorded : ¬Recorded decode children)
    (hevery : ∀ item, KeptItem decode withId children item → ∃ r ∈ resources, observe item = .ok r)
    (honly : ∀ item, ∀ r ∈ resources, observe item = .ok r →
      ∃ kept, KeptItem decode withId children kept ∧ observe kept = .ok r) :
    (∀ child ∈ children, ∃ items, child.2.items decode = .ok items ∧
      ∀ raw ∈ items, ∃ r ∈ resources, observe (withId child.1 raw) = .ok r) ↔
    ¬Refused decode children ∧ ¬Replaced decode withId observe children := by
  constructor
  · intro hall
    refine ⟨?_, ?_⟩
    · rintro ⟨child, hmem, failure, herr, _⟩
      obtain ⟨items, hok, _⟩ := hall child hmem
      rw [herr] at hok
      cases hok
    · rintro ⟨child, hmem, _, _, hlost⟩
      obtain ⟨items, hok, hobserved⟩ := hall child hmem
      obtain ⟨raw, hraw, hnone⟩ := hlost items hok
      obtain ⟨r, hr, hobserve⟩ := hobserved raw hraw
      obtain ⟨kept, hkept, hsame⟩ := honly _ r hr hobserve
      exact hnone kept hkept (hsame.trans hobserve.symm)
  · rintro ⟨hrefused, hreplaced⟩ child hmem
    have hsome : child.2.optional decode ≠ none := by
      intro hnone
      obtain ⟨failure, herr, hfatal⟩ := optional_eq_none_iff.mp hnone
      exact hrefused ⟨child, hmem, failure, herr, hfatal⟩
    by_cases hkept : Kept decode children child.1 child.2
    · cases hitems : child.2.items decode with
      | error failure => exact absurd ⟨child.1, child.2, failure, hkept, hitems⟩ hrecorded
      | ok items =>
          refine ⟨items, rfl, ?_⟩
          intro raw hraw
          exact hevery _ ⟨child.1, child.2, items, hkept, hitems, raw, hraw, rfl⟩
    · -- the list gave way, so every item of it is observed by a kept one
      have hno : ¬∀ items, child.2.items decode = .ok items → ∃ raw ∈ items,
          ∀ item, KeptItem decode withId children item →
            observe item ≠ observe (withId child.1 raw) :=
        fun hlost => hreplaced ⟨child, hmem, hsome, hkept, hlost⟩
      push Not at hno
      obtain ⟨items, hok, hobserved⟩ := hno
      refine ⟨items, hok, ?_⟩
      intro raw hraw
      obtain ⟨item, hitem, hsame⟩ := hobserved raw hraw
      obtain ⟨r, hr, hobserve⟩ := hevery item hitem
      exact ⟨r, hr, hsame ▸ hobserve⟩

end

/-! ## §3  The collector -/

/-- The failures a sync records. -/
def Lists.Recorded (wire : Wire) (lists : Lists) : Prop :=
  Cloudflare.Recorded wire.records lists.records ∨
    Cloudflare.Recorded wire.tunnels lists.tunnels ∨ Cloudflare.Recorded wire.workers lists.workers

/-- What the collector holds after the merges. -/
structure Collects (wire : Wire) (lists : Lists) (c : Collector) : Prop where
  accounts : c.accounts = lists.accounts
  zones : c.zones = lists.zones
  records : ∀ v, v ∈ c.records ↔ KeptItem wire.records (fun _ record => record) lists.records v
  tunnels : ∀ v, v ∈ c.tunnels ↔ KeptItem wire.tunnels (fun id tunnel => ⟨tunnel, id⟩) lists.tunnels v
  workers : ∀ v, v ∈ c.workers ↔ KeptItem wire.workers (fun id worker => ⟨worker, id⟩) lists.workers v
  failures : c.childFailures = [] ↔ ¬lists.Recorded wire

theorem collect_collects (orders : HashOrders) (lists : Lists) :
    Collects wire lists (collect wire orders lists) := by
  have hkeeps := note_keeps
  refine ⟨?_, ?_, ?_, ?_, ?_, ?_⟩
  · unfold collect zoneRecords accountTunnels accountWorkers Collector.mergeWorkers
      Collector.mergeTunnels Collector.mergeZoneRecords
    simp only
    rw [merge_other Collector.accounts (fun m c f => (hkeeps m c f).1) ?_,
      merge_other Collector.accounts (fun m c f => (hkeeps m c f).1) ?_,
      merge_other Collector.accounts (fun m c f => (hkeeps m c f).1) ?_]
    all_goals exact fun _ _ => rfl
  · unfold collect zoneRecords accountTunnels accountWorkers Collector.mergeWorkers
      Collector.mergeTunnels Collector.mergeZoneRecords
    simp only
    rw [merge_other Collector.zones (fun m c f => (hkeeps m c f).2.1) ?_,
      merge_other Collector.zones (fun m c f => (hkeeps m c f).2.1) ?_,
      merge_other Collector.zones (fun m c f => (hkeeps m c f).2.1) ?_]
    all_goals exact fun _ _ => rfl
  · intro v
    unfold collect zoneRecords accountTunnels accountWorkers Collector.mergeWorkers
      Collector.mergeTunnels Collector.mergeZoneRecords
    simp only
    rw [merge_other Collector.records (fun m c f => (hkeeps m c f).2.2.1) ?_,
      merge_other Collector.records (fun m c f => (hkeeps m c f).2.2.1) ?_,
      merge_items Collector.records (fun m c f => (hkeeps m c f).2.2.1) ?_,
      merged_item_iff]
    · simp
    all_goals exact fun _ _ => rfl
  · intro v
    unfold collect zoneRecords accountTunnels accountWorkers Collector.mergeWorkers
      Collector.mergeTunnels Collector.mergeZoneRecords
    simp only
    rw [merge_other Collector.tunnels (fun m c f => (hkeeps m c f).2.2.2.1) ?_,
      merge_items Collector.tunnels (fun m c f => (hkeeps m c f).2.2.2.1) ?_,
      merge_other Collector.tunnels (fun m c f => (hkeeps m c f).2.2.2.1) ?_,
      merged_item_iff]
    · simp
    all_goals exact fun _ _ => rfl
  · intro v
    unfold collect zoneRecords accountTunnels accountWorkers Collector.mergeWorkers
      Collector.mergeTunnels Collector.mergeZoneRecords
    simp only
    rw [merge_items Collector.workers (fun m c f => (hkeeps m c f).2.2.2.2) ?_,
      merge_other Collector.workers (fun m c f => (hkeeps m c f).2.2.2.2) ?_,
      merge_other Collector.workers (fun m c f => (hkeeps m c f).2.2.2.2) ?_,
      merged_item_iff]
    · simp
    all_goals exact fun _ _ => rfl
  · have hmem : (∃ f, f ∈ (collect wire orders lists).childFailures) ↔ lists.Recorded wire := by
      unfold collect zoneRecords accountTunnels accountWorkers Collector.mergeWorkers
        Collector.mergeTunnels Collector.mergeZoneRecords
      simp only
      unfold Lists.Recorded
      rw [← merged_failure_iff (fun _ record => record),
        ← merged_failure_iff (fun id tunnel => (⟨tunnel, id⟩ : TunnelWithAccount)),
        ← merged_failure_iff (fun id worker => (⟨worker, id⟩ : WorkerWithAccount)), ← exists_or,
        ← exists_or]
      refine exists_congr fun f => ?_
      rw [merge_failures ?_, merge_failures ?_, merge_failures ?_]
      · simp [or_assoc]
      all_goals exact fun _ _ => rfl
    rw [← hmem, List.eq_nil_iff_forall_not_mem]
    push Not
    rfl

/-! ## §4  The sync -/

/-- The lists of a sync are those of its walk. -/
structure Lists.Walked (wire : Wire) (transport : Transport) (secret : List UInt8)
    (lists : Lists) : Prop where
  accounts : lists.accountList.path = accountsPath ∧ lists.accountList.Sent wire transport secret ∧
    lists.accountList.items wire.accounts = .ok lists.accounts
  zones : lists.zoneList.path = zonesPath ∧ lists.zoneList.Sent wire transport secret ∧
    lists.zoneList.items wire.zones = .ok lists.zones
  recordIds : lists.records.map Prod.fst = lists.zones.map ZoneDto.id
  records : ∀ child ∈ lists.records,
    child.2.path = recordsPath child.1 ∧ child.2.Sent wire transport secret
  tunnelIds : lists.tunnels.map Prod.fst = lists.accounts.map AccountDto.id
  tunnels : ∀ child ∈ lists.tunnels,
    child.2.path = tunnelsPath child.1 ∧ child.2.Sent wire transport secret
  workerIds : lists.workers.map Prod.fst = lists.accounts.map AccountDto.id
  workers : ∀ child ∈ lists.workers,
    child.2.path = workersPath child.1 ∧ child.2.Sent wire transport secret

theorem fetchList_sent (path : String) (number : Nat) :
    (fetchList wire transport secret path number).1.path = path ∧
      (fetchList wire transport secret path number).1.Sent wire transport secret := by
  unfold fetchList ListFetch.Sent
  rcases fetchPages wire transport path secret number with ⟨pages, next⟩
  exact ⟨rfl, rfl⟩

theorem fetchLists_sent {path : String → String} (ids : List String) (number : Nat) :
    (fetchLists wire transport secret path ids number).1.map Prod.fst = ids ∧
      ∀ child ∈ (fetchLists wire transport secret path ids number).1,
        child.2.path = path child.1 ∧ child.2.Sent wire transport secret := by
  induction ids generalizing number with
  | nil => simp [fetchLists]
  | cons id ids ih =>
      obtain ⟨hids, hsent⟩ := ih (fetchList wire transport secret (path id) number).2
      refine ⟨congrArg (id :: ·) hids, ?_⟩
      intro child hchild
      rcases List.mem_cons.mp hchild with rfl | hchild
      · exact fetchList_sent (path id) number
      · exact hsent child hchild

theorem readLists_walked {lists : Lists} (h : readLists wire transport secret = .ok lists) :
    lists.Walked wire transport secret := by
  unfold readLists at h
  simp only [fetchList] at h
  obtain ⟨accounts, haccounts, h⟩ := bind_ok h
  obtain ⟨zones, hzones, h⟩ := bind_ok h
  cases h
  have hids : ∀ path ids number, (fetchLists wire transport secret path ids number).1.map Prod.fst =
      ids := fun _ ids number => (fetchLists_sent ids number).1
  have hsent : ∀ path ids number, ∀ child ∈ (fetchLists wire transport secret path ids number).1,
      child.2.path = path child.1 ∧ child.2.Sent wire transport secret :=
    fun _ ids number => (fetchLists_sent ids number).2
  exact ⟨⟨rfl, rfl, haccounts⟩, ⟨rfl, rfl, hzones⟩, hids _ _ _, hsent _ _ _, hids _ _ _,
    hsent _ _ _, hids _ _ _, hsent _ _ _⟩

/-- Every list of the walk is whole, with its items among the resources. -/
structure Lists.Seen (wire : Wire) (transport : Transport) (secret : List UInt8) (ctx : Context)
    (resources : List ResourceObservation) (lists : Lists) : Prop where
  accounts : lists.accountList.Whole wire transport secret wire.accounts (account ctx) resources
  zones : lists.zoneList.Whole wire transport secret wire.zones (zone ctx) resources
  records : ∀ child ∈ lists.records,
    child.2.Whole wire transport secret wire.records (record ctx) resources
  tunnels : ∀ child ∈ lists.tunnels,
    child.2.Whole wire transport secret wire.tunnels (fun value => tunnel ctx ⟨value, child.1⟩)
      resources
  workers : ∀ child ∈ lists.workers,
    child.2.Whole wire transport secret wire.workers (fun value => worker ctx ⟨value, child.1⟩)
      resources

/-- No list is left out in silence: no page reports more pages than its list ended with,
the credential is refused at no child list, and none that fails or has an item of its own
gives way to another under its id. -/
structure Lists.Sound (wire : Wire) (ctx : Context) (lists : Lists) : Prop where
  reported : ∀ fetch ∈ lists.accountList :: lists.zoneList :: (lists.records.map Prod.snd ++
    lists.tunnels.map Prod.snd ++ lists.workers.map Prod.snd), ¬fetch.Overreported wire
  refused : ¬Refused wire.records lists.records ∧ ¬Refused wire.tunnels lists.tunnels ∧
    ¬Refused wire.workers lists.workers
  replaced : ¬Replaced wire.records (fun _ record => record) (record ctx) lists.records ∧
    ¬Replaced wire.tunnels (fun id tunnel => ⟨tunnel, id⟩) (tunnel ctx) lists.tunnels ∧
    ¬Replaced wire.workers (fun id worker => ⟨worker, id⟩) (worker ctx) lists.workers

/-- The mapper takes what was collected. -/
def mapCollected (ctx : Context) (c : Collector) : Except String CloudflareMapperOutput :=
  mapResources ctx c.accounts c.zones c.records c.tunnels c.workers

/-- A root list is whole when nothing is reported beyond it. -/
theorem root_whole_iff {α : Type} {decode : Body → Option (List α)}
    (observe : α → Except String ResourceObservation) (resources : List ResourceObservation)
    {fetch : ListFetch} {items : List α} (hsent : fetch.Sent wire transport secret)
    (hitems : fetch.items decode = .ok items)
    (hobserved : ∀ item ∈ items, ∃ r ∈ resources, observe item = .ok r) :
    fetch.Whole wire transport secret decode observe resources ↔ ¬fetch.Overreported wire := by
  rw [whole_iff hsent]
  exact and_iff_left ⟨items, hitems, hobserved⟩

/-- The lists of a child module are whole when nothing is reported beyond them, none was
refused and none gave way. -/
theorem children_whole_iff {α β : Type} {decode : Body → Option (List α)} {withId : String → α → β}
    {observe : β → Except String ResourceObservation} {children : List (String × ListFetch)}
    {resources : List ResourceObservation}
    (hsent : ∀ child ∈ children, child.2.Sent wire transport secret)
    (hrecorded : ¬Recorded decode children)
    (hevery : ∀ item, KeptItem decode withId children item → ∃ r ∈ resources, observe item = .ok r)
    (honly : ∀ item, ∀ r ∈ resources, observe item = .ok r →
      ∃ kept, KeptItem decode withId children kept ∧ observe kept = .ok r) :
    (∀ child ∈ children, child.2.Whole wire transport secret decode
      (fun raw => observe (withId child.1 raw)) resources) ↔
      (∀ child ∈ children, ¬child.2.Overreported wire) ∧ ¬Refused decode children ∧
        ¬Replaced decode withId observe children := by
  rw [← children_observed_iff hrecorded hevery honly, ← forall₂_and]
  refine forall₂_congr ?_
  intro child hchild
  exact whole_iff (hsent child hchild)

/-- With no failure recorded, the whole walk is in the output exactly when no list is left
out in silence. -/
theorem seen_iff {lists : Lists} {c : Collector} {ctx : Context} {output : CloudflareMapperOutput}
    (hwalked : lists.Walked wire transport secret) (hc : Collects wire lists c)
    (hrecorded : ¬lists.Recorded wire) (hmap : mapCollected ctx c = .ok output) :
    lists.Seen wire transport secret ctx output.resources ↔ lists.Sound wire ctx := by
  have hmaps := maps_of_ok hmap
  unfold Lists.Recorded at hrecorded
  push Not at hrecorded
  obtain ⟨hnoRecords, hnoTunnels, hnoWorkers⟩ := hrecorded
  have haccounts := root_whole_iff (account ctx) output.resources
    hwalked.accounts.2.1 hwalked.accounts.2.2 (fun v hv => hmaps.everyAccount v (hc.accounts ▸ hv))
  have hzones := root_whole_iff (zone ctx) output.resources
    hwalked.zones.2.1 hwalked.zones.2.2 (fun v hv => hmaps.everyZone v (hc.zones ▸ hv))
  have hrecords := children_whole_iff (fun child hchild => (hwalked.records child hchild).2)
    hnoRecords (fun v hv => hmaps.everyRecord v ((hc.records v).mpr hv))
    (fun v r hr hobs => by
      obtain ⟨kept, hkept, hsame⟩ :=
        (hmaps.item_of_kind hr).1 ((@observation_kind ctx r).2.2.1 v hobs)
      exact ⟨kept, (hc.records kept).mp hkept, hsame⟩)
  have htunnels := children_whole_iff (fun child hchild => (hwalked.tunnels child hchild).2)
    hnoTunnels (fun v hv => hmaps.everyTunnel v ((hc.tunnels v).mpr hv))
    (fun v r hr hobs => by
      obtain ⟨kept, hkept, hsame⟩ :=
        (hmaps.item_of_kind hr).2.1 ((@observation_kind ctx r).2.2.2.1 v hobs)
      exact ⟨kept, (hc.tunnels kept).mp hkept, hsame⟩)
  have hworkers := children_whole_iff (fun child hchild => (hwalked.workers child hchild).2)
    hnoWorkers (fun v hv => hmaps.everyWorker v ((hc.workers v).mpr hv))
    (fun v r hr hobs => by
      obtain ⟨kept, hkept, hsame⟩ :=
        (hmaps.item_of_kind hr).2.2 ((@observation_kind ctx r).2.2.2.2 v hobs)
      exact ⟨kept, (hc.workers kept).mp hkept, hsame⟩)
  have hreported : (∀ fetch ∈ lists.accountList :: lists.zoneList ::
      (lists.records.map Prod.snd ++ lists.tunnels.map Prod.snd ++ lists.workers.map Prod.snd),
        ¬fetch.Overreported wire) ↔
      ¬lists.accountList.Overreported wire ∧ ¬lists.zoneList.Overreported wire ∧
        (∀ child ∈ lists.records, ¬child.2.Overreported wire) ∧
        (∀ child ∈ lists.tunnels, ¬child.2.Overreported wire) ∧
        ∀ child ∈ lists.workers, ¬child.2.Overreported wire := by
    simp only [List.forall_mem_cons, List.forall_mem_append, List.forall_mem_map, and_assoc]
  constructor
  · intro h
    obtain ⟨hr, hr1, hr2⟩ := hrecords.mp h.records
    obtain ⟨ht, ht1, ht2⟩ := htunnels.mp h.tunnels
    obtain ⟨hw, hw1, hw2⟩ := hworkers.mp h.workers
    exact ⟨hreported.mpr ⟨haccounts.mp h.accounts, hzones.mp h.zones, hr, ht, hw⟩, ⟨hr1, ht1, hw1⟩,
      hr2, ht2, hw2⟩
  · rintro ⟨hover, ⟨hr1, ht1, hw1⟩, hr2, ht2, hw2⟩
    obtain ⟨ha, hz, hr, ht, hw⟩ := hreported.mp hover
    exact ⟨haccounts.mpr ha, hzones.mpr hz, hrecords.mpr ⟨hr, hr1, hr2⟩,
      htunnels.mpr ⟨ht, ht1, ht2⟩, hworkers.mpr ⟨hw, hw1, hw2⟩⟩

/-- `validate_connection` and the checks of `sync` let the request through. -/
def Admitted (request : SyncRequest) (secret : Option (List UInt8)) (token : List UInt8) : Prop :=
  validateConnection request.connection = [] ∧ secret = some token ∧ request.mode = .full

theorem outcome_complete {c : Collector} {scope : Scope} {mapped : CloudflareMapperOutput}
    {batch : ObservationBatch} (h : c.outcome scope mapped = .complete batch) :
    c.childFailures = [] ∧ batch.resources = mapped.resources ∧
      batch.coverage = .authoritativeFull scope := by
  unfold Collector.outcome at h
  cases hfailures : c.childFailures with
  | nil =>
      simp only [hfailures, List.head?_nil] at h
      cases h
      exact ⟨rfl, rfl, rfl⟩
  | cons failure rest =>
      simp only [hfailures, List.head?_cons] at h
      cases h

theorem finish_complete {c : Collector} {ctx : Context} {request : SyncRequest}
    {batch : ObservationBatch} (h : c.finish ctx request = .ok (.complete batch)) :
    c.childFailures = [] ∧
      ∃ output, mapCollected ctx c = .ok output ∧ batch.resources = output.resources ∧
        batch.coverage = .authoritativeFull ctx.scope := by
  unfold Collector.finish at h
  split at h
  · cases h
  rename_i output hmap
  simp only at h
  split at h
  · cases h
  obtain ⟨hfailures, hresources⟩ := outcome_complete (Except.ok.inj h)
  exact ⟨hfailures, output, hmap, hresources⟩

theorem finish_of_no_failures {c : Collector} {ctx : Context} {request : SyncRequest}
    {output : CloudflareMapperOutput} (hmode : request.mode = .full) (hfailures : c.childFailures = [])
    (hmap : mapCollected ctx c = .ok output) :
    ∃ batch, c.finish ctx request = .ok (.complete batch) ∧ batch.resources = output.resources ∧
      batch.coverage = .authoritativeFull ctx.scope := by
  have houtcome : ∃ batch, c.outcome ctx.scope output = .complete batch ∧
      batch.resources = output.resources ∧ batch.coverage = .authoritativeFull ctx.scope ∧
      batch.redactionReport.secretSentinelsDetected = 0 := by
    unfold Collector.outcome
    rw [hfailures]
    exact ⟨_, rfl, rfl, rfl, rfl⟩
  obtain ⟨batch, hcomplete, hresources, hcoverage, hsecret⟩ := houtcome
  refine ⟨batch, ?_, hresources, hcoverage⟩
  have hvalid : (SyncOutcome.complete batch).validateFor request = .ok () := by
    rw [SyncOutcome.validateFor_ok_iff]
    refine ⟨?_, hsecret, ?_⟩
    · show request.mode.accepts batch.coverage = true
      rw [hmode, hcoverage]
      rfl
    · show batch.coverage.isPartial = true ↔ _
      rw [hcoverage]
      simp [SyncCoverage.isPartial]
  unfold Collector.finish
  rw [show mapResources ctx c.accounts c.zones c.records c.tunnels c.workers = .ok output from hmap]
  simp only [hcomplete, hvalid]

/-- A sync that completes read its roots, mapped what it collected and recorded no failure. -/
theorem sync_complete {orders : HashOrders} {request : SyncRequest}
    {secret : Option (List UInt8)} {batch : ObservationBatch}
    (h : sync wire transport orders request secret = .ok (.complete batch)) :
    ∃ token lists output, Admitted request secret token ∧
      readLists wire transport token = .ok lists ∧ ¬lists.Recorded wire ∧
      mapCollected (contextOf request) (collect wire orders lists) = .ok output ∧
      batch.resources = output.resources ∧ batch.coverage = .authoritativeFull request.scope := by
  unfold sync at h
  split at h
  · cases h
  rename_i hvalid
  split at h
  · cases h
  rename_i token
  split at h
  · cases h
  rename_i hmode
  obtain ⟨lists, hlists, h⟩ := bind_ok h
  obtain ⟨hfailures, output, hmap, hresources⟩ := finish_complete h
  exact ⟨token, lists, output, ⟨hvalid, rfl, not_not.mp hmode⟩, hlists,
    (collect_collects orders lists).failures.mp hfailures, hmap, hresources⟩

theorem sync_of_no_failures {orders : HashOrders} {request : SyncRequest}
    {secret : Option (List UInt8)} {token : List UInt8} {lists : Lists}
    {output : CloudflareMapperOutput} (hadmitted : Admitted request secret token)
    (hlists : readLists wire transport token = .ok lists) (hrecorded : ¬lists.Recorded wire)
    (hmap : mapCollected (contextOf request) (collect wire orders lists) = .ok output) :
    ∃ batch, sync wire transport orders request secret = .ok (.complete batch) ∧
      batch.resources = output.resources ∧ batch.coverage = .authoritativeFull request.scope := by
  obtain ⟨hvalid, rfl, hmode⟩ := hadmitted
  obtain ⟨batch, hfinish, h⟩ := finish_of_no_failures hmode
    ((collect_collects orders lists).failures.mpr hrecorded) hmap
  refine ⟨batch, ?_, h⟩
  unfold sync
  rw [hvalid]
  simp only [hmode, ne_eq, not_true_eq_false, if_false, hlists]
  exact hfinish

/-- An outcome that says it is a complete and authoritative account of the scope is one:
every list of the walk was read to the last page reported, and its items are in the batch. -/
def CoverageHonest (wire : Wire) (transport : Transport) (orders : HashOrders)
    (request : SyncRequest) (secret : Option (List UInt8)) : Prop :=
  ∀ batch scope, sync wire transport orders request secret = .ok (.complete batch) →
    batch.coverage = .authoritativeFull scope →
    ∃ token lists, secret = some token ∧ readLists wire transport token = .ok lists ∧
      lists.Walked wire transport token ∧
      lists.Seen wire transport token (contextOf request) batch.resources

/-- Complete outcomes are honest exactly when each sync that reads its roots and takes the
request records a failure, collects what does not map, or leaves no list out in silence. -/
theorem coverage_honest_iff (wire : Wire) (transport : Transport) (orders : HashOrders)
    (request : SyncRequest) (secret : Option (List UInt8)) :
    CoverageHonest wire transport orders request secret ↔
      ∀ token lists, Admitted request secret token → readLists wire transport token = .ok lists →
        lists.Recorded wire ∨
          (∀ output, mapCollected (contextOf request) (collect wire orders lists) ≠ .ok output) ∨
          lists.Sound wire (contextOf request) := by
  constructor
  · intro h token lists hadmitted hlists
    by_cases hrecorded : lists.Recorded wire
    · exact Or.inl hrecorded
    right
    by_cases hmapped : ∃ output,
        mapCollected (contextOf request) (collect wire orders lists) = .ok output
    · right
      obtain ⟨output, hmap⟩ := hmapped
      obtain ⟨batch, hsync, hresources, hcoverage⟩ :=
        sync_of_no_failures hadmitted hlists hrecorded hmap
      obtain ⟨token', lists', hsecret, hlists', hwalked, hseen⟩ := h batch _ hsync hcoverage
      cases hadmitted.2.1.symm.trans hsecret
      cases hlists.symm.trans hlists'
      rw [hresources] at hseen
      exact (seen_iff hwalked (collect_collects orders lists) hrecorded hmap).mp hseen
    · left
      exact fun output hmap => hmapped ⟨output, hmap⟩
  · intro h batch scope hsync _
    obtain ⟨token, lists, output, hadmitted, hlists, hrecorded, hmap, hresources, _⟩ :=
      sync_complete hsync
    refine ⟨token, lists, hadmitted.2.1, hlists, readLists_walked hlists, ?_⟩
    rcases h token lists hadmitted hlists with hno | hno | hsound
    · exact absurd hno hrecorded
    · exact absurd hmap (hno output)
    · rw [hresources]
      exact (seen_iff (readLists_walked hlists) (collect_collects orders lists) hrecorded hmap).mpr
        hsound

end

/-! ## §5  A refused list -/

namespace Fixture

def body (text : String) : Body := text.toUTF8.data.toList

def noAccounts : Body := body "\x7b\"result\":[]\x7d"

def oneZone : Body :=
  body "\x7b\"result\":[\x7b\"id\":\"z\",\"name\":\"example.com\",\"account\":\x7b\"id\":\"a\",\"name\":\"A\"\x7d\x7d]\x7d"

def zone : ZoneDto where
  id := "z"
  name := "example.com"
  account := { id := "a", name := "A" }
  status := none

/-- Two bodies, neither with a `result_info`. -/
def wire : Wire where
  join := fun path => some ("https://api.cloudflare.com" ++ path)
  pageEnvelope := fun _ => some { resultInfo := none }
  accounts := fun body => if body = noAccounts then some [] else none
  zones := fun body => if body = oneZone then some [zone] else none
  records := fun _ => none
  tunnels := fun _ => none
  workers := fun _ => none

/-- The token reads accounts and zones; the records answer 401. -/
def transport : Transport := fun number _ =>
  match number with
  | 0 => .ok { status := 200, retryAfterSeconds := none, body := noAccounts }
  | 1 => .ok { status := 200, retryAfterSeconds := none, body := oneZone }
  | _ => .ok { status := 401, retryAfterSeconds := none, body := [] }

def order : HashOrder where
  visit := fun entries => entries
  perm := fun entries => .refl entries

def orders : HashOrders := ⟨order, order, order⟩

def token : List UInt8 := body "token"

def request : SyncRequest where
  syncRunId := ⟨"r", trimmed_r⟩
  connection :=
    { connectionId := ⟨"c", trimmed_c⟩
      connectorType := .cloudflare
      config := .object []
      configSchemaVersion := .one }
  mode := .full
  scope := ⟨"all", trimmed_all⟩
  cursor := none
  targetedResources := []

def records : List (String × ListFetch) :=
  [("z",
    { path := recordsPath "z"
      number := 2
      pages := .error (clientError .authenticationFailed) })]

theorem readLists_eq : readLists wire transport token = .ok
    { accounts := []
      zones := [zone]
      accountList := { path := accountsPath, number := 0, pages := .ok [noAccounts] }
      zoneList := { path := zonesPath, number := 1, pages := .ok [oneZone] }
      records := records
      tunnels := []
      workers := [] } := by
  rfl

end Fixture

open NextInfra.Cloudflare.Fixture in
/-- The zone's records were never read, and the outcome is complete. -/
theorem refused_records_complete : ¬CoverageHonest wire transport orders request (some token) := by
  intro h
  have hcomplete : ∃ batch,
      sync wire transport orders request (some token) = .ok (.complete batch) ∧
      batch.coverage = .authoritativeFull request.scope := ⟨_, rfl, rfl⟩
  obtain ⟨batch, hsync, hcoverage⟩ := hcomplete
  obtain ⟨_, lists, hsecret, hlists, _, hseen⟩ := h batch _ hsync hcoverage
  cases hsecret
  cases readLists_eq.symm.trans hlists
  obtain ⟨pages, hpages, _⟩ := hseen.records _ List.mem_cons_self
  cases hpages

end Cloudflare

end NextInfra
