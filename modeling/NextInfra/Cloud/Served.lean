import NextInfra.Cloud.Coverage
import NextInfra.Cloud.Pages
import NextInfra.Cloud.Relations

/-!
# What of an account a sync reads

On the answers of an account a module takes the pages its items fill, and a domain the pages
its records fill beyond those taken before. §1 counts them and §2 says, by the account and the
answers alone, when all of them are read. §3 and §4 follow the loops: a sync ends without a
failure exactly then. §5 says when an outcome that covers the scope is honest.
-/

namespace NextInfra

namespace Cloud

/-! ## §1  Pages -/

/-- The pages of a list: one at least. -/
def pagesOf (size total : Nat) : Nat := max 1 ((total + (size - 1)) / size)

theorem pagesOf_pos (size total : Nat) : 0 < pagesOf size total :=
  Nat.lt_of_lt_of_le Nat.zero_lt_one (Nat.le_max_left _ _)

/-- There is a further page where the pages so far are full and do not hold the list. -/
theorem succ_lt_pagesOf_iff {size total page : Nat} (hsize : 0 < size) :
    page + 1 < pagesOf size total ↔ size * (page + 1) < total := by
  have hdiv : page + 2 ≤ (total + (size - 1)) / size ↔ (page + 2) * size ≤ total + (size - 1) :=
    Nat.le_div_iff_mul_le hsize
  have hexpand : (page + 2) * size = size * (page + 1) + size := by
    rw [Nat.mul_comm, show page + 2 = page + 1 + 1 from rfl, Nat.mul_add size (page + 1) 1,
      Nat.mul_one]
  unfold pagesOf
  rw [hexpand] at hdiv
  omega

/-! ## §2  What is read -/

/-- The first pages of a list are answered and can be read. -/
def Listing.Answered {ρ ι : Type} (list : Listing ρ ι) (transport : Transport ρ)
    (number pages : Nat) : Prop :=
  ∀ page < pages, ∃ found, list.answerAt transport number page = .ok found

section

variable {ρ : Type} (p : Provider ρ) (transport : Transport ρ) (session : Session)
  (holdings : Holdings)

/-- The items of a module fit into the pages it may take, these are answered, and every item
can be observed. -/
structure Provider.ModuleRead (m : Module) (number : Nat) : Prop where
  fits : pagesOf (p.modulePageSize m.module) (holdings.items m).length ≤ maxPagesPerModule
  answered : (p.moduleList session m).Answered transport number
    (pagesOf (p.modulePageSize m.module) (holdings.items m).length)
  observed : ∀ item ∈ holdings.items m, ∃ r, p.observe session m.kind item = .ok r

/-- The pages a domain takes when records were taken before. -/
def Holdings.recordPages (taken : Nat) (domain : String) : Nat :=
  pagesOf pageSize ((holdings.records domain).length - taken)

/-- The records taken of a domain. -/
def Holdings.recordsOf (taken : Nat) (domain : String) : List ResourceDto :=
  (holdings.records domain).take (pageSize * holdings.recordPages taken domain)

/-- Domain after domain, the pages fit under the limit on the records, are answered, and every
record taken can be observed. -/
inductive Provider.RecordsRead : List String → (number taken last : Nat) → Prop
  | done {number taken : Nat} : RecordsRead [] number taken number
  | next {domain : String} {domains : List String} {number taken last : Nat}
      (hfits : taken + pageSize * (holdings.recordPages taken domain - 1) < maxResourcesPerModule)
      (hanswered : (p.recordList session domain).Answered transport number
        (holdings.recordPages taken domain))
      (hobserved : ∀ item ∈ holdings.recordsOf taken domain,
        ∃ r, p.observe session p.dnsKind item = .ok r)
      (hrest : RecordsRead domains
        ((p.recordList session domain).startOf transport number
          (holdings.recordPages taken domain))
        (taken + (holdings.recordsOf taken domain).length) last) :
      RecordsRead (domain :: domains) number taken last

/-- Module after module is read; of the domains one page and the records of the first twenty. -/
inductive Provider.AllRead : List Module → (number : Nat) → Prop
  | done {number : Nat} : AllRead [] number
  | module {m : Module} {modules : List Module} {number : Nat} (hother : m.module ≠ p.dns)
      (hread : p.ModuleRead transport session holdings m number)
      (hrest : AllRead modules ((p.moduleList session m).startOf transport number
        (pagesOf (p.modulePageSize m.module) (holdings.items m).length))) :
      AllRead (m :: modules) number
  | dns {m : Module} {modules : List Module} {number last : Nat} (hdns : m.module = p.dns)
      (hanswered : (p.domainList session).Answered transport number 1)
      (hrecords : p.RecordsRead transport session holdings (holdings.domains.take maxDnsDomains)
        ((p.domainList session).startOf transport number 1) 0 last)
      (hrest : AllRead modules last) : AllRead (m :: modules) number

/-- The parents the items of an account name can be named. -/
def Provider.ParentsNamed : Prop :=
  ∀ m ∈ p.modules, m.module ≠ p.dns → (p.mapper.parentOf m.kind).isSome = true →
    ∀ item ∈ holdings.items m, ∀ id ∈ item.parentId, Unpadded id

end

/-! ## §3  One list -/

section

variable {ρ : Type} {transport : Transport ρ}

/-- What comes of a page when the pages before it have been asked for. -/
theorem page_startOf {ι : Type} (list : Listing ρ ι) (number page : Nat) :
    list.page transport (list.startOf transport number page) page =
      (list.answerAt transport number page, list.startOf transport number (page + 1)) :=
  Listing.page_eq _ _

/-- A page that is read is the window of its number, with the length of the list. -/
theorem Listing.Serves.window {ι : Type} {list : Listing ρ ι} {size number page total : Nat}
    {items found : List ι} (hserves : list.Serves transport size items)
    (hpage : page < maxPagesPerModule)
    (hanswer : list.answerAt transport number page = .ok (found, total)) :
    found = (items.drop (size * page)).take size ∧ total = items.length := by
  have hpaged := @page_startOf _ transport _ list number page
  rw [hanswer] at hpaged
  exact hserves _ page found total _ hpage hpaged

/-- A hundred pages of at most a hundred items stay under the limit on the resources. -/
theorem room_of_pages {obs : Observing} {size left page : Nat} {items : List ResourceDto}
    {resources : List ResourceObservation} (hsmall : size ≤ 100)
    (hpages : left + 1 + page = maxPagesPerModule)
    (hread : (items.take (size * page)).mapM obs.observe = .ok resources) :
    ¬maxResourcesPerModule ≤ resources.length := by
  have hlength : resources.length ≤ size * page := by
    rw [← Fallible.mapM_length hread, List.length_take]
    exact Nat.min_le_left _ _
  have hfew : size * page ≤ 100 * 99 :=
    Nat.mul_le_mul hsmall (by unfold maxPagesPerModule at hpages; omega)
  unfold maxResourcesPerModule
  omega

/-- The page with which a list has been gone through is its last. -/
theorem succ_eq_pagesOf {ι : Type} {size page : Nat} {items : List ι} (hsize : 0 < size)
    (hpage : page < pagesOf size items.length) (hall : items.take (size * (page + 1)) = items) :
    page + 1 = pagesOf size items.length := by
  have hfurther := @succ_lt_pagesOf_iff size items.length page hsize
  have hlong := congrArg List.length hall
  rw [List.length_take] at hlong
  omega

/-- From a page on, a module ends without a failure exactly where it is read from there. -/
theorem fetchModuleFrom_read_iff {list : Listing ρ ResourceDto} {obs : Observing} {size : Nat}
    {items : List ResourceDto} (hsize : 0 < size) (hsmall : size ≤ 100)
    (hserves : list.Serves transport size items) {number left page : Nat}
    {resources : List ResourceObservation} (hpages : left + page = maxPagesPerModule)
    (hpage : page < pagesOf size items.length)
    (hread : (items.take (size * page)).mapM obs.observe = .ok resources) :
    ((fetchModuleFrom transport list obs left (list.startOf transport number page) page
        resources).1.failure = none ↔
      pagesOf size items.length ≤ maxPagesPerModule ∧
        (∀ later, page ≤ later → later < pagesOf size items.length →
          ∃ found, list.answerAt transport number later = .ok found) ∧
        ∀ item ∈ items, ∃ r, obs.observe item = .ok r) ∧
    ((fetchModuleFrom transport list obs left (list.startOf transport number page) page
        resources).1.failure = none →
      (fetchModuleFrom transport list obs left (list.startOf transport number page) page
        resources).2 = list.startOf transport number (pagesOf size items.length)) := by
  induction left generalizing page resources with
  | zero =>
      refine ⟨iff_of_false (fun h => by cases h) ?_, fun h => by cases h⟩
      rintro ⟨hfits, _⟩
      omega
  | succ left ih =>
      unfold fetchModuleFrom
      rw [if_neg (room_of_pages hsmall hpages hread), page_startOf]
      cases hanswer : list.answerAt transport number page with
      | error f =>
          refine ⟨iff_of_false (fun h => by cases h) ?_, fun h => by cases h⟩
          rintro ⟨_, hanswered, _⟩
          obtain ⟨found, hfound⟩ := hanswered page le_rfl hpage
          cases hanswer.symm.trans hfound
      | ok found =>
          obtain ⟨found, total⟩ := found
          obtain ⟨rfl, rfl⟩ := hserves.window (by omega) hanswer
          dsimp only
          cases hobs : List.mapM obs.observe ((items.drop (size * page)).take size) with
          | error e =>
              refine ⟨iff_of_false (fun h => by cases h) ?_, fun h => by cases h⟩
              rintro ⟨_, _, hobserved⟩
              obtain ⟨observations, hok⟩ := Fallible.mapM_ok_of_forall
                fun item hitem => hobserved item (List.mem_of_mem_drop (List.mem_of_mem_take hitem))
              cases hobs.symm.trans hok
          | ok observations =>
              have hmore := Fallible.mapM_append hread hobs
              rw [take_window] at hmore
              have hreached : (resources ++ observations).length =
                  min (size * (page + 1)) items.length := by
                rw [← Fallible.mapM_length hmore, List.length_take]
              dsimp only
              split
              · rename_i hend
                -- the end the loop sees is the end of the list
                have hall : items.take (size * (page + 1)) = items := by
                  refine take_eq_self_of_end hsize ?_
                  rcases hend with hend | ⟨_, hend⟩
                  · exact .inl (by rw [Fallible.mapM_length hmore]; exact hend)
                  · exact .inr (List.isEmpty_iff.mp hend)
                have hlast := succ_eq_pagesOf hsize hpage hall
                rw [hall] at hmore
                refine ⟨iff_of_true rfl ⟨by omega, ?_, ?_⟩,
                  fun _ => congrArg (list.startOf transport number) hlast⟩
                · intro later hle hlt
                  obtain rfl : later = page := by omega
                  exact ⟨_, hanswer⟩
                · intro item hitem
                  obtain ⟨r, _, hr⟩ := Fallible.result_of_mapM hmore hitem
                  exact ⟨r, hr⟩
              · rename_i hgoes
                have hshort : size * (page + 1) < items.length := by
                  by_contra hfull
                  exact hgoes (.inl (by omega))
                obtain ⟨hiff, hlast⟩ :=
                  ih (by omega) ((succ_lt_pagesOf_iff hsize).mpr hshort) hmore
                refine ⟨hiff.trans (and_congr_right fun _ => and_congr_left fun _ => ?_), hlast⟩
                constructor
                · intro h later hle hlt
                  rcases Nat.lt_or_eq_of_le hle with hlater | rfl
                  · exact h later hlater hlt
                  · exact ⟨_, hanswer⟩
                · intro h later hle hlt
                  exact h later (by omega) hlt

/-- The page of a domain that is asked for, where the pages so far are full. -/
theorem recordPage_lt {taken total page : Nat} (hpage : page < pagesOf pageSize (total - taken)) :
    page = 0 ∨ taken + pageSize * page < total := by
  cases page with
  | zero => exact .inl rfl
  | succ page =>
      have h := (succ_lt_pagesOf_iff (by decide)).mp hpage
      exact .inr (by omega)

/-- The walk of a domain ends with its last page: with it there are as many records as its total,
or it is empty. -/
theorem succ_eq_recordPages_iff {items : List ResourceDto} {taken page : Nat}
    (hpage : page < pagesOf pageSize (items.length - taken)) :
    page + 1 = pagesOf pageSize (items.length - taken) ↔
      items.length ≤ taken + (items.take (pageSize * (page + 1))).length ∨
        ((items.drop (pageSize * page)).take pageSize).isEmpty = true := by
  have hfurther := @succ_lt_pagesOf_iff pageSize (items.length - taken) page (by decide)
  rw [List.length_take]
  constructor
  · intro hlast
    exact .inl (by omega)
  · intro hend
    have hreached : items.length ≤ taken + pageSize * (page + 1) := by
      rcases hend with hend | hend
      · omega
      · have hempty := List.isEmpty_iff.mp hend
        rw [List.take_eq_nil_iff, List.drop_eq_nil_iff] at hempty
        have := hempty.resolve_left (by decide)
        rw [Nat.mul_add]
        omega
    omega

theorem pushAll_of_ok {obs : Observing} {items : List ResourceDto}
    {observations : List ResourceObservation} (h : items.mapM obs.observe = .ok observations)
    (fetch : ModuleFetch) :
    pushAll obs fetch items = ⟨fetch.resources ++ observations, fetch.failure⟩ := by
  have hall := Fallible.mapM_ok_iff.mp h
  clear h
  induction hall generalizing fetch with
  | nil => simp [pushAll]
  | cons hobs _ ih =>
      unfold pushAll
      rw [hobs]
      dsimp only
      rw [ih, List.append_assoc]
      rfl

/-- A domain walked without a failure was answered page by page, under the limit. -/
theorem readRecordsFrom_read {list : Listing ρ ResourceDto} {obs : Observing} {limited : Bool}
    {items : List ResourceDto} (hserves : list.Serves transport pageSize items)
    {number left page next taken : Nat} {fetch result : ModuleFetch}
    (hlength : fetch.resources.length = taken + (items.take (pageSize * page)).length)
    (hpage : page < pagesOf pageSize (items.length - taken))
    (h : readRecordsFrom transport list obs limited left (list.startOf transport number page) page
      fetch = some (result, next)) (hnone : result.failure = none) :
    taken + pageSize * (pagesOf pageSize (items.length - taken) - 1) < maxResourcesPerModule ∧
      (∀ later, page ≤ later → later < pagesOf pageSize (items.length - taken) →
        ∃ found, list.answerAt transport number later = .ok found) ∧
      next = list.startOf transport number (pagesOf pageSize (items.length - taken)) := by
  induction left generalizing page fetch with
  | zero =>
      unfold readRecordsFrom at h
      split at h
      · cases h
        cases hnone
      · cases h
  | succ left ih =>
      unfold readRecordsFrom at h
      split at h
      · cases h
        cases hnone
      rename_i hroom
      have hfull := recordPage_lt hpage
      rw [hlength, List.length_take] at hroom
      -- the pages so far are full, so the count of records is that of their places
      have hunder : taken + pageSize * page < maxResourcesPerModule := by
        rcases hfull with rfl | hfull
        · omega
        · omega
      rw [page_startOf] at h
      cases hanswer : list.answerAt transport number page with
      | error f =>
          rw [hanswer] at h
          cases h
          cases hnone
      | ok found =>
          obtain ⟨found, total⟩ := found
          rw [hanswer] at h
          have hfew : page < maxPagesPerModule := by
            unfold maxResourcesPerModule pageSize at hunder
            unfold maxPagesPerModule
            omega
          obtain ⟨rfl, rfl⟩ := hserves.window hfew hanswer
          dsimp only at h
          have hclean : (pushAll obs fetch ((items.drop (pageSize * page)).take pageSize)).failure =
              none := by
            split at h
            · cases h
              exact hnone
            · exact readRecordsFrom_clean h hnone
          obtain ⟨_, observations, hall, hresources⟩ := pushAll_ok hclean
          have hmore : (pushAll obs fetch
              ((items.drop (pageSize * page)).take pageSize)).resources.length =
                taken + (items.take (pageSize * (page + 1))).length := by
            rw [hresources, List.length_append, hlength, ← Fallible.mapM_length hall, Nat.add_assoc,
              ← List.length_append, take_window]
          have hend := succ_eq_recordPages_iff hpage
          rw [hmore] at h
          split at h
          · rename_i hover
            have hlast := hend.mpr hover
            cases h
            rw [← hlast]
            refine ⟨hunder, fun later hle hlt => ?_, rfl⟩
            obtain rfl : later = page := by omega
            exact ⟨_, hanswer⟩
          · rename_i hgoes
            have hlater : page + 1 ≠ _ := fun hlast => hgoes (hend.mp hlast)
            obtain ⟨hfits, hanswered, hlast⟩ := ih hmore (by omega) h
            refine ⟨hfits, fun later hle hlt => ?_, hlast⟩
            rcases Nat.lt_or_eq_of_le hle with hlater | rfl
            · exact hanswered later hlater hlt
            · exact ⟨_, hanswer⟩

/-- A domain whose pages are answered under the limit, and whose records taken can be observed,
is walked without a failure. -/
theorem readRecordsFrom_reads {list : Listing ρ ResourceDto} {obs : Observing} {limited : Bool}
    {items : List ResourceDto} (hserves : list.Serves transport pageSize items)
    {number left page taken : Nat} {fetch : ModuleFetch}
    (hlength : fetch.resources.length = taken + (items.take (pageSize * page)).length)
    (hpage : page < pagesOf pageSize (items.length - taken)) (hclean : fetch.failure = none)
    (hturns : maxPagesPerModule ≤ left + page)
    (hfits : taken + pageSize * (pagesOf pageSize (items.length - taken) - 1) <
      maxResourcesPerModule)
    (hanswered : list.Answered transport number (pagesOf pageSize (items.length - taken)))
    (hobserved : ∀ item ∈ items.take (pageSize * pagesOf pageSize (items.length - taken)),
      ∃ r, obs.observe item = .ok r) :
    ∃ result, readRecordsFrom transport list obs limited left (list.startOf transport number page)
        page fetch =
        some (result, list.startOf transport number (pagesOf pageSize (items.length - taken))) ∧
      result.failure = none ∧
      result.resources.length = taken +
        (items.take (pageSize * pagesOf pageSize (items.length - taken))).length := by
  induction left generalizing page fetch with
  | zero =>
      unfold maxResourcesPerModule pageSize at hfits
      unfold maxPagesPerModule at hturns
      unfold pageSize at hpage
      omega
  | succ left ih =>
      have hfull := recordPage_lt hpage
      have hfew : page < maxPagesPerModule := by
        unfold maxResourcesPerModule pageSize at hfits
        unfold maxPagesPerModule
        unfold pageSize at hpage
        omega
      have hroom : ¬maxResourcesPerModule ≤ fetch.resources.length := by
        have hmul : pageSize * page ≤
            pageSize * (pagesOf pageSize (items.length - taken) - 1) :=
          Nat.mul_le_mul_left _ (by omega)
        rw [hlength, List.length_take]
        omega
      unfold readRecordsFrom
      rw [if_neg hroom, page_startOf]
      obtain ⟨⟨found, total⟩, hanswer⟩ := hanswered page hpage
      rw [hanswer]
      obtain ⟨rfl, rfl⟩ := hserves.window hfew hanswer
      have hshown : ∀ item ∈ (items.drop (pageSize * page)).take pageSize,
          ∃ r, obs.observe item = .ok r := by
        intro item hitem
        refine hobserved item (List.take_subset_take_left _ (Nat.mul_le_mul_left _ hpage) ?_)
        rw [← take_window]
        exact List.mem_append_right _ hitem
      obtain ⟨observations, hobs⟩ := Fallible.mapM_ok_of_forall hshown
      dsimp only
      rw [pushAll_of_ok hobs]
      have hmore : (fetch.resources ++ observations).length =
          taken + (items.take (pageSize * (page + 1))).length := by
        rw [List.length_append, hlength, ← Fallible.mapM_length hobs, Nat.add_assoc,
          ← List.length_append, take_window]
      have hend := succ_eq_recordPages_iff hpage
      dsimp only
      rw [hmore]
      split
      · rename_i hover
        have hlast := hend.mpr hover
        rw [← hlast]
        exact ⟨_, rfl, hclean, hmore⟩
      · rename_i hgoes
        have hlater : page + 1 ≠ _ := fun hlast => hgoes (hend.mp hlast)
        exact ih hmore (by omega) hclean (by omega)

/-- One page of the domains is asked for: it holds all of them, or enough. -/
theorem listDomainsFrom_eq {list : Listing ρ String} {names : List String}
    (hserves : list.Serves transport pageSize names) (number : Nat) :
    listDomainsFrom transport list maxPagesPerModule number 0 [] =
      ((list.answerAt transport number 0).map Prod.fst, list.startOf transport number 1) := by
  have hpage : list.page transport number 0 =
      (list.answerAt transport number 0, list.startOf transport number 1) := page_startOf _ _ 0
  -- two turns at most: a second one meets twenty names or more
  show listDomainsFrom transport list (98 + 1 + 1) number 0 [] = _
  rw [listDomainsFrom, if_neg (by decide), hpage]
  cases hanswer : list.answerAt transport number 0 with
  | error f => rfl
  | ok answer =>
      obtain ⟨found, total⟩ := answer
      obtain ⟨rfl, rfl⟩ := hserves.window (by decide) hanswer
      dsimp only
      split
      · rfl
      · rename_i hgoes
        have henough : maxDnsDomains ≤
            ([] ++ (names.drop (pageSize * 0)).take pageSize).length := by
          have hmany : ¬names.length ≤ ([] ++ (names.drop (pageSize * 0)).take pageSize).length :=
            fun hall => hgoes (.inl hall)
          rw [List.nil_append, Nat.mul_zero, List.drop_zero, List.length_take] at hmany ⊢
          unfold pageSize at hmany ⊢
          unfold maxDnsDomains
          omega
        rw [listDomainsFrom, if_pos henough]
        rfl

end

/-! ## §4  All lists -/

section

variable {ρ : Type} {p : Provider ρ} {transport : Transport ρ} {session : Session}
  {holdings : Holdings}

theorem fetchModule_read_iff (hserves : p.Serves transport session holdings) {m : Module}
    (hm : m ∈ p.modules) (hother : m.module ≠ p.dns) (number : Nat) :
    ((fetchModule transport (p.moduleList session m) (p.moduleObserving session m)
        number).1.failure = none ↔ p.ModuleRead transport session holdings m number) ∧
    ((fetchModule transport (p.moduleList session m) (p.moduleObserving session m)
        number).1.failure = none →
      (fetchModule transport (p.moduleList session m) (p.moduleObserving session m) number).2 =
        (p.moduleList session m).startOf transport number
          (pagesOf (p.modulePageSize m.module) (holdings.items m).length)) := by
  obtain ⟨hsize, hsmall⟩ := p.sizes_fit m hm
  obtain ⟨hiff, hnext⟩ :=
    @fetchModuleFrom_read_iff _ transport (p.moduleList session m) (p.moduleObserving session m)
      (p.modulePageSize m.module) (holdings.items m) hsize hsmall (hserves.items m hm hother)
      number maxPagesPerModule 0 [] (Nat.add_zero _) (pagesOf_pos _ _) rfl
  refine ⟨hiff.trans ⟨?_, ?_⟩, hnext⟩
  · rintro ⟨hfits, hanswered, hobserved⟩
    exact ⟨hfits, fun page hlt => hanswered page (Nat.zero_le _) hlt, hobserved⟩
  · intro hread
    exact ⟨hread.fits, fun page _ hlt => hread.answered page hlt, hread.observed⟩

/-- Domains walked without a failure are read. -/
theorem readDomains_read {domains : List String}
    (hserves : ∀ domain ∈ domains,
      (p.recordList session domain).Serves transport pageSize (holdings.records domain))
    {turns number next : Nat} {fetch result : ModuleFetch}
    (h : readDomains transport (p.recordList session) (p.recordObserving session) p.limited turns
      domains number fetch = some (result, next)) (hnone : result.failure = none) :
    p.RecordsRead transport session holdings domains number fetch.resources.length next := by
  induction domains generalizing number fetch with
  | nil =>
      cases h
      exact .done
  | cons domain domains ih =>
      unfold readDomains at h
      split at h
      · cases h
        cases hnone
      obtain ⟨⟨mid, following⟩, hmid, hrest⟩ := Option.bind_eq_some_iff.mp h
      have hserved := hserves domain List.mem_cons_self
      have hothers := fun d hd => hserves d (List.mem_cons_of_mem _ hd)
      have hclean := (readDomains_ok hothers hrest hnone).1
      obtain ⟨hfits, hanswered, rfl⟩ :=
        @readRecordsFrom_read _ transport (p.recordList session domain) (p.recordObserving session)
          p.limited (holdings.records domain) hserved number turns 0 following
          fetch.resources.length fetch mid (by simp) (pagesOf_pos _ _) hmid hclean
      obtain ⟨observations, hobs, hresources⟩ :=
        readRecordsFrom_ok hserved (List.append_nil _).symm (by rfl) (Or.inl rfl) hmid hclean
      have hmore := ih hothers hrest
      rw [hresources, List.length_append, ← Fallible.mapM_length hobs] at hmore
      refine .next hfits (fun page hlt => hanswered page (Nat.zero_le _) hlt) ?_ hmore
      intro item hitem
      obtain ⟨r, _, hr⟩ := Fallible.result_of_mapM hobs hitem
      exact ⟨r, hr⟩

/-- Domains that are read are walked without a failure, with turns enough. -/
theorem readDomains_reads {domains : List String}
    (hserves : ∀ domain ∈ domains,
      (p.recordList session domain).Serves transport pageSize (holdings.records domain))
    {turns number taken last : Nat} (hturns : maxPagesPerModule ≤ turns)
    (h : p.RecordsRead transport session holdings domains number taken last) {fetch : ModuleFetch}
    (hlength : fetch.resources.length = taken) (hclean : fetch.failure = none) :
    ∃ result, readDomains transport (p.recordList session) (p.recordObserving session) p.limited
      turns domains number fetch = some (result, last) ∧ result.failure = none := by
  induction h generalizing fetch with
  | done => exact ⟨_, rfl, hclean⟩
  | @next domain domains number taken last hfits hanswered hobserved _ ih =>
      obtain ⟨mid, hmid, hmidClean, hmidLength⟩ :=
        @readRecordsFrom_reads _ transport (p.recordList session domain) (p.recordObserving session)
          p.limited (holdings.records domain) (hserves domain List.mem_cons_self) number turns 0
          taken fetch (by simpa using hlength) (pagesOf_pos _ _) hclean hturns hfits hanswered
          hobserved
      obtain ⟨result, hresult, hnone⟩ :=
        ih (fun d hd => hserves d (List.mem_cons_of_mem _ hd)) hmidLength hmidClean
      refine ⟨result, ?_, hnone⟩
      unfold readDomains
      rw [if_neg (by omega)]
      exact Option.bind_eq_some_iff.mpr ⟨_, hmid, hresult⟩

theorem fetchDns_read (hserves : p.Serves transport session holdings) {turns number next : Nat}
    {result : ModuleFetch}
    (h : fetchDns transport (p.domainList session) (p.recordList session)
      (p.recordObserving session) p.limited turns number = some (result, next))
    (hnone : result.failure = none) :
    (p.domainList session).Answered transport number 1 ∧
      p.RecordsRead transport session holdings (holdings.domains.take maxDnsDomains)
        ((p.domainList session).startOf transport number 1) 0 next := by
  have hlisted := listDomainsFrom_eq hserves.domains number
  unfold fetchDns at h
  cases hanswer : (p.domainList session).answerAt transport number 0 with
  | error f =>
      rw [hlisted, hanswer] at h
      cases h
      cases hnone
  | ok answer =>
      rw [hanswer] at hlisted
      have htake := listDomainsFrom_ok hserves.domains (by simp) (Nat.add_zero _) hlisted
      rw [hlisted] at h
      change readDomains transport _ _ _ _ (answer.1.take maxDnsDomains) _ _ = _ at h
      rw [htake] at h
      refine ⟨fun page hpage => ?_, ?_⟩
      · obtain rfl : page = 0 := by omega
        exact ⟨answer, hanswer⟩
      · exact readDomains_read (fun domain hdomain =>
          hserves.records domain (List.mem_of_mem_take hdomain)) h hnone

theorem fetchDns_reads (hserves : p.Serves transport session holdings) {turns number last : Nat}
    (hturns : maxPagesPerModule ≤ turns)
    (hanswered : (p.domainList session).Answered transport number 1)
    (hrecords : p.RecordsRead transport session holdings (holdings.domains.take maxDnsDomains)
      ((p.domainList session).startOf transport number 1) 0 last) :
    ∃ result, fetchDns transport (p.domainList session) (p.recordList session)
      (p.recordObserving session) p.limited turns number = some (result, last) ∧
        result.failure = none := by
  have hlisted := listDomainsFrom_eq hserves.domains number
  obtain ⟨answer, hanswer⟩ := hanswered 0 Nat.zero_lt_one
  rw [hanswer] at hlisted
  have htake := listDomainsFrom_ok hserves.domains (by simp) (Nat.add_zero _) hlisted
  unfold fetchDns
  rw [hlisted]
  show ∃ result, readDomains transport _ _ _ _ (answer.1.take maxDnsDomains) _ _ = _ ∧ _
  rw [htake]
  exact readDomains_reads (fun domain hdomain =>
    hserves.records domain (List.mem_of_mem_take hdomain)) hturns hrecords rfl rfl

/-- Modules fetched without a failure are read. -/
theorem fetchAll_read (hserves : p.Serves transport session holdings) {turns : Nat}
    {modules : List Module} (hmodules : ∀ m ∈ modules, m ∈ p.modules) {number next : Nat}
    {gathered gathered' : Gathered}
    (h : p.fetchAll transport session turns modules number gathered = some (gathered', next))
    (hnone : gathered'.error = none) : p.AllRead transport session holdings modules number := by
  induction modules generalizing number gathered with
  | nil => exact .done
  | cons m modules ih =>
      unfold Provider.fetchAll at h
      obtain ⟨⟨fetch, following⟩, hfetch, hrest⟩ := Option.bind_eq_some_iff.mp h
      obtain ⟨hclean, _⟩ := Option.or_eq_none_iff.mp (fetchAll_ok hrest hnone).1
      have hall := ih (fun m' hm' => hmodules m' (List.mem_cons_of_mem _ hm')) hrest
      unfold Provider.fetch at hfetch
      split at hfetch
      · rename_i hdns
        obtain ⟨hanswered, hrecords⟩ := fetchDns_read hserves hfetch hclean
        exact .dns hdns hanswered hrecords hall
      · rename_i hother
        obtain ⟨hiff, hnext⟩ :=
          fetchModule_read_iff hserves (hmodules m List.mem_cons_self) hother number
        rw [Option.some.inj hfetch] at hiff hnext
        obtain rfl : following = _ := hnext hclean
        exact .module hother (hiff.mp hclean) hall

/-- Modules that are read are fetched without a failure, with turns enough. -/
theorem fetchAll_reads (hserves : p.Serves transport session holdings) {turns : Nat}
    (hturns : maxPagesPerModule ≤ turns) {modules : List Module}
    (hmodules : ∀ m ∈ modules, m ∈ p.modules) {number : Nat}
    (h : p.AllRead transport session holdings modules number) {gathered : Gathered}
    (hnone : gathered.error = none) :
    ∃ gathered' next, p.fetchAll transport session turns modules number gathered =
      some (gathered', next) ∧ gathered'.error = none := by
  induction h generalizing gathered with
  | done => exact ⟨_, _, rfl, hnone⟩
  | @module m modules number hother hread _ ih =>
      obtain ⟨hiff, hnext⟩ :=
        fetchModule_read_iff hserves (hmodules m List.mem_cons_self) hother number
      have hclean := hiff.mpr hread
      have hnone' : (⟨gathered.resources ++ (fetchModule transport (p.moduleList session m)
          (p.moduleObserving session m) number).1.resources, (fetchModule transport
          (p.moduleList session m) (p.moduleObserving session m) number).1.failure.or
            gathered.error⟩ : Gathered).error = none :=
        Option.or_eq_none_iff.mpr ⟨hclean, hnone⟩
      obtain ⟨gathered', next, hrest, hend⟩ :=
        ih (fun m' hm' => hmodules m' (List.mem_cons_of_mem _ hm')) hnone'
      refine ⟨gathered', next, Option.bind_eq_some_iff.mpr ⟨_, if_neg hother, ?_⟩, hend⟩
      dsimp only
      rw [hnext hclean]
      exact hrest
  | @dns m modules number last hdns hanswered hrecords _ ih =>
      obtain ⟨result, hfetch, hclean⟩ := fetchDns_reads hserves hturns hanswered hrecords
      have hnone' : (⟨gathered.resources ++ result.resources,
          result.failure.or gathered.error⟩ : Gathered).error = none :=
        Option.or_eq_none_iff.mpr ⟨hclean, hnone⟩
      obtain ⟨gathered', next, hrest, hend⟩ :=
        ih (fun m' hm' => hmodules m' (List.mem_cons_of_mem _ hm')) hnone'
      exact ⟨gathered', next,
        Option.bind_eq_some_iff.mpr ⟨_, (if_pos hdns).trans hfetch, hrest⟩, hend⟩

/-! ## §5  Honest coverage -/

/-- What is gathered without a failure can be related exactly where the account names its
parents. -/
theorem parentsUnpadded_iff (hserves : p.Serves transport session holdings)
    (hnoparent : p.mapper.parentOf p.dnsKind = none) {turns next : Nat} {gathered : Gathered}
    (h : p.fetchAll transport session turns p.modules 0 ⟨[], none⟩ = some (gathered, next))
    (hnone : gathered.error = none) :
    p.mapper.ParentsUnpadded gathered.resources ↔ p.ParentsNamed holdings := by
  obtain ⟨_, fetches, hall, hresources⟩ := fetchAll_ok h hnone
  obtain ⟨hfetchOf, hmoduleOf⟩ := mem_of_readWell hall
  rw [hresources, List.nil_append]
  constructor
  · intro hunpadded m hm hother hchild item hitem id hid
    obtain ⟨fetch, hfetch, hread⟩ := hfetchOf m hm
    have hseen := readWell_observed hserves hm hread
    rw [if_neg hother] at hseen
    obtain ⟨r, hr, hobs⟩ := Fallible.result_of_mapM hseen hitem
    obtain ⟨hkind, hparent⟩ := Mapper.map_ok hobs
    exact hunpadded r (List.mem_flatMap.mpr ⟨fetch, hfetch, hr⟩) (hkind.symm ▸ hchild) id
      (hparent.trans hid)
  · intro hnamed r hr hchild id hid
    obtain ⟨fetch, hfetch, hr⟩ := List.mem_flatMap.mp hr
    obtain ⟨m, hm, hread⟩ := hmoduleOf fetch hfetch
    have hseen := readWell_observed hserves hm hread
    split at hseen
    · obtain ⟨item, _, hobs⟩ := Fallible.argument_of_mapM hseen hr
      rw [(Mapper.map_ok hobs).1, hnoparent] at hchild
      cases hchild
    · rename_i hother
      obtain ⟨item, hitem, hobs⟩ := Fallible.argument_of_mapM hseen hr
      obtain ⟨hkind, hparent⟩ := Mapper.map_ok hobs
      exact hnamed m hm hother (hkind ▸ hchild) item hitem id (hparent.symm.trans hid)

/-- Where all of an account is read, and its parents can be named, no record is left out. -/
def Provider.NothingSilent (p : Provider ρ) (transport : Transport ρ) (holdings : Holdings)
    (request : SyncRequest) (secret : Option (List UInt8)) : Prop :=
  ∀ session, p.Admitted request secret session →
    p.AllRead transport session holdings p.modules 0 → p.ParentsNamed holdings →
    p.NoneLeftOut session holdings

section

variable (hevidence : StartsVisible p.mapper.evidence)
  (hnoparent : p.mapper.parentOf p.dnsKind = none) {request : SyncRequest}
  {secret : Option (List UInt8)}
  (hserves : ∀ session, p.Admitted request secret session → p.Serves transport session holdings)
include hevidence hnoparent hserves

theorem coverageHonest_of_nothingSilent
    (h : p.NothingSilent transport holdings request secret) (turns : Nat) :
    p.CoverageHonest transport holdings turns request secret := by
  intro outcome scope hsync hcoverage
  obtain ⟨session, gathered, next, hadmitted, hfetch, hnone, hrelations, hresources⟩ :=
    sync_covers hsync hcoverage
  have hserved := hserves session hadmitted
  refine ⟨session, hadmitted, ?_⟩
  rw [hresources, observes_iff hserved hfetch hnone]
  refine h session hadmitted (fetchAll_read hserved (fun m hm => hm) hfetch hnone) ?_
  rw [← parentsUnpadded_iff hserved hnoparent hfetch hnone, ← parentsUnpadded_sorted]
  exact (providerRelations_isSome_iff hevidence).mp hrelations

theorem nothingSilent_of_coverageHonest {turns : Nat} (hturns : maxPagesPerModule ≤ turns)
    (h : p.CoverageHonest transport holdings turns request secret) :
    p.NothingSilent transport holdings request secret := by
  intro session hadmitted hread hnamed
  have hserved := hserves session hadmitted
  have hstart : (⟨[], none⟩ : Gathered).error = none := rfl
  obtain ⟨gathered, next, hfetch, hnone⟩ :=
    fetchAll_reads hserved hturns (fun m hm => hm) hread hstart
  have hrelations : (p.mapper.providerRelations gathered.sorted).isSome = true := by
    rw [providerRelations_isSome_iff hevidence, parentsUnpadded_sorted,
      parentsUnpadded_iff hserved hnoparent hfetch hnone]
    exact hnamed
  obtain ⟨outcome, hfinish, hcoverage, hresources⟩ :=
    finish_of_no_error hadmitted.2.1 hnone hrelations
  have hsync : p.sync transport turns request secret = .returned (.ok outcome) := by
    rw [sync_of_admitted hadmitted, hfetch]
    exact hfinish
  obtain ⟨session', hadmitted', hobserves⟩ := h outcome _ hsync hcoverage
  obtain rfl := hadmitted'.unique hadmitted
  rw [hresources] at hobserves
  exact (observes_iff hserved hfetch hnone).mp hobserves

end

end

end Cloud

end NextInfra
