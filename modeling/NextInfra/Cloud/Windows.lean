import NextInfra.Cloud.Listing
import NextInfra.Lib.Entries

/-!
# The loops on fixed lists

A list is served when every page that is read is its window and its total the length.
On such lists a module that ends without a failure has read everything. The DNS walk has
not: it takes twenty domains, and of a domain the pages it takes for the records of all
domains so far to be as many as this one has (`recordsTaken`).
-/

namespace NextInfra

namespace Cloud

section

variable {ρ ι : Type} {transport : Transport ρ}

/-- Every page read is the window of the list at its index. No more than the pages of a
module are looked at. -/
def Listing.Serves (list : Listing ρ ι) (transport : Transport ρ) (size : Nat) (items : List ι) :
    Prop :=
  ∀ number page found total next, page < maxPagesPerModule →
    list.page transport number page = (.ok (found, total), next) →
    found = (items.drop (size * page)).take size ∧ total = items.length

/-- The pages up to one and its window are the pages up to the next. -/
theorem take_window (size page : Nat) (items : List ι) :
    items.take (size * page) ++ (items.drop (size * page)).take size =
      items.take (size * (page + 1)) := by
  rw [Nat.mul_add, Nat.mul_one, List.take_add]

/-- A list whose length is reached, or that has an empty window, is read. -/
theorem take_eq_self_of_end {size page : Nat} {items : List ι} (hsize : 0 < size)
    (h : items.length ≤ (items.take (size * (page + 1))).length ∨
      (items.drop (size * page)).take size = []) : items.take (size * (page + 1)) = items := by
  refine List.take_of_length_le ?_
  rcases h with h | h
  · rw [List.length_take] at h
    omega
  · rw [List.take_eq_nil_iff, List.drop_eq_nil_iff] at h
    rw [Nat.mul_add, Nat.mul_one]
    omega

/-! ## §1  Modules -/

theorem fetchModuleFrom_complete {list : Listing ρ ResourceDto} {obs : Observing} {size : Nat}
    {items : List ResourceDto} (hsize : 0 < size) (hserves : list.Serves transport size items)
    {left number page : Nat} {resources : List ResourceObservation}
    (hpages : left + page = maxPagesPerModule)
    (hread : (items.take (size * page)).mapM obs.observe = .ok resources)
    (hnone : (fetchModuleFrom transport list obs left number page resources).1.failure = none) :
    items.mapM obs.observe =
      .ok (fetchModuleFrom transport list obs left number page resources).1.resources := by
  induction left generalizing number page resources with
  | zero => cases hnone
  | succ left ih =>
      unfold fetchModuleFrom at hnone ⊢
      split at hnone
      · cases hnone
      rename_i hroom
      rw [if_neg hroom]
      rcases hpage : list.page transport number page with ⟨f | ⟨found, total⟩, next⟩
      · simp only [hpage] at hnone
        cases hnone
      simp only [hpage] at hnone ⊢
      obtain ⟨rfl, rfl⟩ := hserves number page found total next (by omega) hpage
      cases hobs : List.mapM obs.observe ((items.drop (size * page)).take size) with
      | error e =>
          simp only [hobs] at hnone
          cases hnone
      | ok observations =>
          simp only [hobs] at hnone ⊢
          have hmore := Fallible.mapM_append hread hobs
          rw [take_window] at hmore
          split at hnone
          · rename_i hend
            rw [if_pos hend]
            have hall : items.take (size * (page + 1)) = items := by
              refine take_eq_self_of_end hsize ?_
              rcases hend with hend | ⟨_, hend⟩
              · exact Or.inl (by rw [Fallible.mapM_length hmore]; exact hend)
              · exact Or.inr (List.isEmpty_iff.mp hend)
            rw [hall] at hmore
            exact hmore
          · rename_i hgo
            rw [if_neg hgo]
            exact ih (by omega) hmore hnone

/-- A module that ends without a failure has observed every item of its list. -/
theorem fetchModule_complete {list : Listing ρ ResourceDto} {obs : Observing} {size : Nat}
    {items : List ResourceDto} (hsize : 0 < size) (hserves : list.Serves transport size items)
    {number : Nat} (hnone : (fetchModule transport list obs number).1.failure = none) :
    items.mapM obs.observe = .ok (fetchModule transport list obs number).1.resources :=
  fetchModuleFrom_complete hsize hserves (Nat.add_zero _) (by rfl) hnone

/-! ## §2  Domains -/

/-- The page size of both DNS walks. -/
def pageSize : Nat := 100

/-- The walk goes on with the first twenty domains. -/
theorem listDomainsFrom_ok {list : Listing ρ String} {names : List String}
    (hserves : list.Serves transport pageSize names) {left number page : Nat}
    {domains : List String} (hdomains : domains = names.take (pageSize * page))
    (hpages : left + page = maxPagesPerModule) {result : List String} {next : Nat}
    (h : listDomainsFrom transport list left number page domains = (.ok result, next)) :
    result.take maxDnsDomains = names.take maxDnsDomains := by
  have htake : ∀ k, 0 < k →
      (names.take (pageSize * k)).take maxDnsDomains = names.take maxDnsDomains := by
    intro k hk
    rw [List.take_take]
    congr 1
    unfold maxDnsDomains pageSize
    omega
  induction left generalizing number page domains with
  | zero =>
      cases h
      rw [hdomains]
      exact htake page (by unfold maxPagesPerModule at hpages; omega)
  | succ left ih =>
      unfold listDomainsFrom at h
      split at h
      · rename_i henough
        cases h
        rw [hdomains]
        refine htake page ?_
        rw [hdomains, List.length_take] at henough
        unfold maxDnsDomains at henough
        cases page with
        | zero => omega
        | succ page => omega
      rcases hpage : list.page transport number page with ⟨f | ⟨found, total⟩, following⟩
      · simp only [hpage] at h
        cases h
      simp only [hpage] at h
      obtain ⟨rfl, rfl⟩ := hserves number page found total following (by omega) hpage
      have hmore : domains ++ (names.drop (pageSize * page)).take pageSize =
          names.take (pageSize * (page + 1)) := by
        rw [hdomains, take_window]
      split at h
      · cases h
        rw [hmore]
        exact htake (page + 1) (Nat.succ_pos page)
      · exact ih hmore (by omega) h

/-! ## §3  Records -/

/-- How many records of a domain are taken when `before` were taken of the others. -/
def recordsTaken (before total : Nat) : Nat := pageSize * max 1 ((total - before + 99) / 100)

/-- The records taken of each domain in turn. -/
def recordsSeen : (before : Nat) → List (List ι) → List ι
  | _, [] => []
  | before, records :: rest =>
      let taken := records.take (recordsTaken before records.length)
      taken ++ recordsSeen (before + taken.length) rest

theorem pushAll_ok {obs : Observing} {fetch : ModuleFetch} {items : List ResourceDto}
    (h : (pushAll obs fetch items).failure = none) :
    fetch.failure = none ∧ ∃ observations, items.mapM obs.observe = .ok observations ∧
      (pushAll obs fetch items).resources = fetch.resources ++ observations := by
  induction items generalizing fetch with
  | nil => exact ⟨h, [], rfl, by simp [pushAll]⟩
  | cons item items ih =>
      unfold pushAll at h ⊢
      cases hobs : obs.observe item with
      | error e =>
          simp only [hobs] at h
          cases h
      | ok observation =>
          simp only [hobs] at h ⊢
          obtain ⟨hnone, observations, hall, hresources⟩ := ih h
          refine ⟨hnone, observation :: observations, ?_, ?_⟩
          · exact Fallible.mapM_ok_iff.mpr (.cons hobs (Fallible.mapM_ok_iff.mp hall))
          · rw [hresources]
            simp

/-- A failure stays to the end. -/
theorem readRecordsFrom_clean {list : Listing ρ ResourceDto} {obs : Observing} {limited : Bool}
    {left number page : Nat} {fetch fetch' : ModuleFetch} {next : Nat}
    (h : readRecordsFrom transport list obs limited left number page fetch = some (fetch', next))
    (hnone : fetch'.failure = none) : fetch.failure = none := by
  induction left generalizing number page fetch with
  | zero =>
      unfold readRecordsFrom at h
      split at h
      · cases h
        cases hnone
      · cases h
  | succ left ih =>
      unfold readRecordsFrom at h
      split at h
      · cases h
        cases hnone
      rcases hpage : list.page transport number page with ⟨f | ⟨found, total⟩, following⟩
      · simp only [hpage] at h
        cases h
        cases hnone
      simp only [hpage] at h
      split at h
      · cases h
        exact (pushAll_ok hnone).1
      · exact (pushAll_ok (ih h)).1

/-- The walk of a domain ends with the page that makes the records of all domains as many
as its total. -/
theorem take_recordsTaken {before page : Nat} {items : List ι}
    (hshort : page = 0 ∨ before + pageSize * page < items.length)
    (hend : items.length ≤ before + (items.take (pageSize * (page + 1))).length ∨
      (items.drop (pageSize * page)).take pageSize = []) :
    items.take (recordsTaken before items.length) = items.take (pageSize * (page + 1)) := by
  have hreached : items.length ≤ before + min (pageSize * (page + 1)) items.length ∨
      items.length ≤ pageSize * page := by
    rcases hend with hend | hend
    · exact Or.inl (by rwa [List.length_take] at hend)
    · right
      rw [List.take_eq_nil_iff, List.drop_eq_nil_iff] at hend
      exact hend.resolve_left (by decide)
  unfold recordsTaken
  unfold pageSize at *
  by_cases hall : items.length ≤ 100 * (page + 1)
  · rw [List.take_of_length_le hall, List.take_of_length_le]
    omega
  · congr 1
    omega

/-- Of a domain, `recordsTaken` records are observed. The invariant: all turns before
this one fell short of the domain's total. -/
theorem readRecordsFrom_ok {list : Listing ρ ResourceDto} {obs : Observing} {limited : Bool}
    {items : List ResourceDto} (hserves : list.Serves transport pageSize items)
    {left number page : Nat} {fetch fetch' : ModuleFetch} {next : Nat}
    {base read : List ResourceObservation} (hbase : fetch.resources = base ++ read)
    (hread : (items.take (pageSize * page)).mapM obs.observe = .ok read)
    (hshort : page = 0 ∨ base.length + pageSize * page < items.length)
    (h : readRecordsFrom transport list obs limited left number page fetch = some (fetch', next))
    (hnone : fetch'.failure = none) :
    ∃ observations,
      (items.take (recordsTaken base.length items.length)).mapM obs.observe = .ok observations ∧
      fetch'.resources = base ++ observations := by
  induction left generalizing number page fetch read with
  | zero =>
      unfold readRecordsFrom at h
      split at h
      · cases h
        cases hnone
      · cases h
  | succ left ih =>
      unfold readRecordsFrom at h
      split at h
      · cases h
        cases hnone
      rename_i hroom
      -- all pages before this one were full, so there is room for this one
      have hfew : page < maxPagesPerModule := by
        rw [hbase, List.length_append, ← Fallible.mapM_length hread, List.length_take] at hroom
        unfold maxResourcesPerModule at hroom
        unfold maxPagesPerModule
        unfold pageSize at *
        omega
      rcases hpage : list.page transport number page with ⟨f | ⟨found, total⟩, following⟩
      · simp only [hpage] at h
        cases h
        cases hnone
      simp only [hpage] at h
      obtain ⟨rfl, rfl⟩ := hserves number page found total following hfew hpage
      have hclean : (pushAll obs fetch ((items.drop (pageSize * page)).take pageSize)).failure =
          none := by
        split at h
        · cases h
          exact hnone
        · exact readRecordsFrom_clean h hnone
      obtain ⟨_, observations, hall, hresources⟩ := pushAll_ok hclean
      have hmore := Fallible.mapM_append hread hall
      rw [take_window] at hmore
      rw [hbase, List.append_assoc] at hresources
      rw [hresources, List.length_append, ← Fallible.mapM_length hmore] at h
      split at h
      · rename_i hend
        cases h
        rw [take_recordsTaken hshort (hend.imp_right List.isEmpty_iff.mp)]
        exact ⟨read ++ observations, hmore, hresources⟩
      · rename_i hgo
        refine ih hresources hmore (Or.inr ?_) h
        rw [List.length_take] at hgo
        omega

/-- Of the domains, `recordsSeen` records are observed. -/
theorem readDomains_ok {listOf : String → Listing ρ ResourceDto} {obs : Observing} {limited : Bool}
    {turns : Nat} {records : String → List ResourceDto} {domains : List String}
    (hserves : ∀ domain ∈ domains, (listOf domain).Serves transport pageSize (records domain))
    {number next : Nat} {fetch fetch' : ModuleFetch}
    (h : readDomains transport listOf obs limited turns domains number fetch = some (fetch', next))
    (hnone : fetch'.failure = none) :
    fetch.failure = none ∧ ∃ observations,
      (recordsSeen fetch.resources.length (domains.map records)).mapM obs.observe =
        .ok observations ∧
      fetch'.resources = fetch.resources ++ observations := by
  induction domains generalizing number fetch with
  | nil =>
      cases h
      exact ⟨hnone, [], rfl, by simp⟩
  | cons domain domains ih =>
      unfold readDomains at h
      split at h
      · cases h
        cases hnone
      obtain ⟨⟨mid, following⟩, hmid, hrest⟩ := Option.bind_eq_some_iff.mp h
      obtain ⟨hclean, rest, hrestObs, hrestResources⟩ :=
        ih (fun d hd => hserves d (List.mem_cons_of_mem _ hd)) hrest
      obtain ⟨observations, hobs, hresources⟩ :=
        readRecordsFrom_ok (hserves domain List.mem_cons_self) (List.append_nil _).symm (by rfl) (Or.inl rfl) hmid
          hclean
      refine ⟨readRecordsFrom_clean hmid hclean, observations ++ rest, ?_, ?_⟩
      · refine Fallible.mapM_append hobs ?_
        rw [hresources, List.length_append] at hrestObs
        rw [Fallible.mapM_length hobs]
        exact hrestObs
      · rw [hrestResources, hresources, List.append_assoc]

/-- A DNS walk that ends without a failure has observed the records seen of the first
twenty domains. -/
theorem fetchDns_ok {domainList : Listing ρ String} {recordList : String → Listing ρ ResourceDto}
    {obs : Observing} {limited : Bool} {turns : Nat} {names : List String}
    {records : String → List ResourceDto} (hnames : domainList.Serves transport pageSize names)
    (hrecords : ∀ name ∈ names, (recordList name).Serves transport pageSize (records name))
    {number next : Nat} {fetch : ModuleFetch}
    (h : fetchDns transport domainList recordList obs limited turns number = some (fetch, next))
    (hnone : fetch.failure = none) :
    (recordsSeen 0 ((names.take maxDnsDomains).map records)).mapM obs.observe =
      .ok fetch.resources := by
  unfold fetchDns at h
  rcases hdomains : listDomainsFrom transport domainList maxPagesPerModule number 0 [] with
    ⟨f | domains, following⟩
  · simp only [hdomains] at h
    cases h
    cases hnone
  simp only [hdomains] at h
  have htake : domains.take maxDnsDomains = names.take maxDnsDomains :=
    listDomainsFrom_ok hnames (by simp) (Nat.add_zero _) hdomains
  rw [htake] at h
  obtain ⟨_, observations, hobs, hresources⟩ :=
    readDomains_ok (fun name hname => hrecords name (List.mem_of_mem_take hname)) h hnone
  rw [hresources]
  exact hobs

end

end Cloud

end NextInfra
