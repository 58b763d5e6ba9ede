import NextInfra.Cloud.Coverage
import NextInfra.Cloud.Pages
import NextInfra.Aliyun.Connector
import NextInfra.Tencent.Connector

/-!
# How many requests a listing takes

A page of a list takes one request and at most the retries, and every walk but one has a
limit on its pages: the walk over the records of a domain has none at the Tencent connector.
There it is over only with a page that is refused, empty, or announces no more records than
are there by then, and goes on for ever when no page is one of those.
-/

namespace NextInfra

namespace Cloud

/-! ## §1  The loops -/

section

variable {ρ : Type} {transport : Transport ρ}

theorem pushAll_resources (obs : Observing) (fetch : ModuleFetch) (items : List ResourceDto) :
    (pushAll obs fetch items).resources = fetch.resources ++ obs.upToRefused items := by
  induction items generalizing fetch with
  | nil => exact (List.append_nil _).symm
  | cons item items ih =>
      unfold pushAll Observing.upToRefused
      cases obs.observe item with
      | ok observation =>
          dsimp only
          rw [ih, List.append_assoc]
          rfl
      | error e => exact (List.append_nil _).symm

/-- The loop over a module walks its list to the end. -/
theorem fetchModuleFrom_walks {list : Listing ρ ResourceDto} {obs : Observing}
    {number left page : Nat} (hpages : left + page = maxPagesPerModule)
    (hreach : (moduleWalk transport list obs number).Reaches page) :
    ∃ pages failure, (moduleWalk transport list obs number).Over pages ∧
      fetchModuleFrom transport list obs left
          ((moduleWalk transport list obs number).startOf page) page
          ((moduleWalk transport list obs number).kept page) =
        (⟨(moduleWalk transport list obs number).kept pages, failure⟩,
          (moduleWalk transport list obs number).startOf pages) := by
  induction left generalizing page with
  | zero =>
      have hlimit : page = maxPagesPerModule := by omega
      exact ⟨page, _, hreach.over_here (.inr (congrArg some hlimit.symm)), rfl⟩
  | succ left ih =>
      have hlimit : (moduleWalk transport list obs number).limit ≠ some page := by
        intro h
        have : maxPagesPerModule = page := Option.some.inj h
        omega
      unfold fetchModuleFrom
      split
      · rename_i henough
        exact ⟨page, _, hreach.over_here (.inl henough), rfl⟩
      rename_i hroom
      have hpage : list.page transport ((moduleWalk transport list obs number).startOf page) page =
          _ := (moduleWalk transport list obs number).page_eq page
      rw [hpage]
      cases hanswer : (moduleWalk transport list obs number).answerAt page with
      | error f =>
          obtain ⟨hlast, hkept⟩ := Walk.lastPage_of_error hanswer
          refine ⟨page + 1, some f, hreach.over_next hroom hlimit hlast, ?_⟩
          rw [hkept]
      | ok answer =>
          obtain ⟨items, total⟩ := answer
          have hlast := Walk.lastPage_iff hanswer
          have hkept := Walk.kept_of_ok hanswer
          have hkeeps : (moduleWalk transport list obs number).keeps items = obs.allOf items := rfl
          unfold Observing.allOf at hkeeps
          dsimp only
          cases hobs : items.mapM obs.observe with
          | error e =>
              rw [hobs] at hkeeps
              rw [hkeeps, List.append_nil] at hkept
              -- a page with an item that is refused ends the module
              have hrefused : ∃ item ∈ items, ∀ r, obs.observe item ≠ .ok r := by
                by_contra hnone
                push Not at hnone
                obtain ⟨observations, hok⟩ := Fallible.mapM_ok_of_forall hnone
                cases hobs.symm.trans hok
              have hfinal : (moduleWalk transport list obs number).final items := Or.inl hrefused
              refine ⟨page + 1, some obs.refused,
                hreach.over_next hroom hlimit (hlast.mpr (Or.inl hfinal)), ?_⟩
              rw [hkept]
          | ok observations =>
              rw [hobs] at hkeeps
              rw [hkeeps] at hkept hlast
              dsimp only at hkept ⊢
              split
              · rename_i hend
                refine ⟨page + 1, none, hreach.over_next hroom hlimit (hlast.mpr ?_), ?_⟩
                · rcases hend with hend | ⟨hstops, hempty⟩
                  · exact .inr hend
                  · exact .inl (.inr ⟨hstops, List.isEmpty_iff.mp hempty⟩)
                · rw [hkept]
              · rename_i hgoes
                have hnext : ¬(moduleWalk transport list obs number).LastPage page := by
                  rw [hlast]
                  rintro ((⟨item, hitem, hrefused⟩ | ⟨hstops, rfl⟩) | hend)
                  · obtain ⟨r, _, hr⟩ := Fallible.result_of_mapM hobs hitem
                    exact hrefused r hr
                  · exact hgoes (.inr ⟨hstops, rfl⟩)
                  · exact hgoes (.inl hend)
                rw [← hkept]
                exact ih (by omega) (hreach.next hroom hlimit hnext)

theorem fetchModule_walks (list : Listing ρ ResourceDto) (obs : Observing) (number : Nat) :
    ∃ pages failure, (moduleWalk transport list obs number).Over pages ∧
      fetchModule transport list obs number =
        (⟨(moduleWalk transport list obs number).kept pages, failure⟩,
          (moduleWalk transport list obs number).startOf pages) :=
  fetchModuleFrom_walks (Nat.add_zero _) Walk.reaches_zero

/-- The loop over the list of domains walks it to the end, or to a page that cannot be read. -/
theorem listDomainsFrom_walks {list : Listing ρ String} {number left page : Nat}
    (hpages : left + page = maxPagesPerModule)
    (hreach : (domainWalk transport list number).Reaches page) :
    (∃ pages, (domainWalk transport list number).Over pages ∧
      (∀ page < pages, ∃ found, (domainWalk transport list number).answerAt page = .ok found) ∧
      listDomainsFrom transport list left ((domainWalk transport list number).startOf page) page
          ((domainWalk transport list number).kept page) =
        (.ok ((domainWalk transport list number).kept pages),
          (domainWalk transport list number).startOf pages)) ∨
    ∃ last f, (domainWalk transport list number).Over (last + 1) ∧
      (domainWalk transport list number).answerAt last = .error f ∧
      listDomainsFrom transport list left ((domainWalk transport list number).startOf page) page
          ((domainWalk transport list number).kept page) =
        (.error f, (domainWalk transport list number).startOf (last + 1)) := by
  induction left generalizing page with
  | zero =>
      have hlimit : page = maxPagesPerModule := by omega
      exact .inl ⟨page, hreach.over_here (.inr (congrArg some hlimit.symm)), hreach.read, rfl⟩
  | succ left ih =>
      have hlimit : (domainWalk transport list number).limit ≠ some page := by
        intro h
        have : maxPagesPerModule = page := Option.some.inj h
        omega
      unfold listDomainsFrom
      split
      · rename_i henough
        exact .inl ⟨page, hreach.over_here (.inl henough), hreach.read, rfl⟩
      rename_i hroom
      have hpage : list.page transport ((domainWalk transport list number).startOf page) page = _ :=
        (domainWalk transport list number).page_eq page
      rw [hpage]
      cases hanswer : (domainWalk transport list number).answerAt page with
      | error f =>
          have hlast := (Walk.lastPage_of_error hanswer).1
          exact .inr ⟨page, f, hreach.over_next hroom hlimit hlast, hanswer, rfl⟩
      | ok answer =>
          obtain ⟨found, total⟩ := answer
          have hlast := Walk.lastPage_iff hanswer
          have hkept : (domainWalk transport list number).kept (page + 1) =
              (domainWalk transport list number).kept page ++ found := Walk.kept_of_ok hanswer
          dsimp only
          split
          · rename_i hend
            have hover := hreach.over_next hroom hlimit
              (hlast.mpr (hend.symm.imp_left List.isEmpty_iff.mp))
            refine .inl ⟨page + 1, hover, fun earlier hearlier => ?_, by rw [hkept]⟩
            rcases Nat.lt_succ_iff_lt_or_eq.mp hearlier with hbefore | rfl
            · exact hreach.read earlier hbefore
            · exact ⟨_, hanswer⟩
          · rename_i hgoes
            have hnext : ¬(domainWalk transport list number).LastPage page := by
              rw [hlast]
              exact fun hend => hgoes (hend.symm.imp_right List.isEmpty_iff.mpr)
            rw [← hkept]
            exact ih (by omega) (hreach.next hroom hlimit hnext)

/-- The loop over the records of a domain walks them to the end. -/
theorem readRecordsFrom_walks {list : Listing ρ ResourceDto} {obs : Observing} {limited : Bool}
    {number : Nat} {before : List ResourceObservation} {left page next : Nat}
    {failure : Option ConnectorFailure} {result : ModuleFetch}
    (hlimited : limited = true → left + page = maxPagesPerModule)
    (hreach : (recordWalk transport list obs limited number before).Reaches page)
    (h : readRecordsFrom transport list obs limited left
      ((recordWalk transport list obs limited number before).startOf page) page
      ⟨(recordWalk transport list obs limited number before).kept page, failure⟩ =
        some (result, next)) :
    ∃ pages, (recordWalk transport list obs limited number before).Over pages ∧
      result.resources = (recordWalk transport list obs limited number before).kept pages ∧
      next = (recordWalk transport list obs limited number before).startOf pages := by
  induction left generalizing page failure with
  | zero =>
      unfold readRecordsFrom at h
      split at h
      · rename_i hcapped
        cases h
        have hlimit : page = maxPagesPerModule := by
          have := hlimited hcapped
          omega
        refine ⟨page, hreach.over_here (.inr ?_), rfl, rfl⟩
        rw [hlimit]
        exact if_pos hcapped
      · cases h
  | succ left ih =>
      have hlimit : (recordWalk transport list obs limited number before).limit ≠ some page := by
        show (if limited then some maxPagesPerModule else none) ≠ some page
        split
        · rename_i hcapped
          intro hsame
          have := hlimited hcapped
          have : maxPagesPerModule = page := Option.some.inj hsame
          omega
        · simp
      unfold readRecordsFrom at h
      split at h
      · rename_i henough
        cases h
        exact ⟨page, hreach.over_here (.inl henough), rfl, rfl⟩
      rename_i hroom
      have hpage : list.page transport
          ((recordWalk transport list obs limited number before).startOf page) page = _ :=
        (recordWalk transport list obs limited number before).page_eq page
      rw [hpage] at h
      cases hanswer : (recordWalk transport list obs limited number before).answerAt page with
      | error f =>
          rw [hanswer] at h
          cases h
          obtain ⟨hlast, hkept⟩ := Walk.lastPage_of_error hanswer
          exact ⟨page + 1, hreach.over_next hroom hlimit hlast, hkept.symm, rfl⟩
      | ok answer =>
          obtain ⟨items, total⟩ := answer
          rw [hanswer] at h
          have hlast := Walk.lastPage_iff hanswer
          have hkept := Walk.kept_of_ok hanswer
          have hpushed := pushAll_resources obs
            ⟨(recordWalk transport list obs limited number before).kept page, failure⟩ items
          change _ = _ ++
            (recordWalk transport list obs limited number before).keeps items at hpushed
          rw [← hkept] at hlast hpushed
          dsimp only at h
          split at h
          · rename_i hend
            cases h
            rw [hpushed] at hend
            have hover := hreach.over_next hroom hlimit
              (hlast.mpr (hend.symm.imp_left List.isEmpty_iff.mp))
            exact ⟨page + 1, hover, hpushed, rfl⟩
          · rename_i hgoes
            rw [hpushed] at hgoes
            have hnext : ¬(recordWalk transport list obs limited number before).LastPage page := by
              rw [hlast]
              exact fun hend => hgoes (hend.symm.imp_right List.isEmpty_iff.mpr)
            generalize pushAll obs _ items = fetch at hpushed h
            obtain ⟨resources, failure'⟩ := fetch
            obtain rfl : resources = _ := hpushed
            refine ih (fun hcapped => ?_) (hreach.next hroom hlimit hnext) h
            have := hlimited hcapped
            omega

/-- With turns enough for its walk, the loop over the records of a domain returns. -/
theorem readRecordsFrom_returns {list : Listing ρ ResourceDto} {obs : Observing} {number : Nat}
    {before : List ResourceObservation} {left page pages : Nat}
    {failure : Option ConnectorFailure} (hleft : pages < left + page) (hpage : page ≤ pages)
    (hreach : (recordWalk transport list obs false number before).Reaches page)
    (hover : (recordWalk transport list obs false number before).Over pages) :
    ∃ result, readRecordsFrom transport list obs false left
      ((recordWalk transport list obs false number before).startOf page) page
      ⟨(recordWalk transport list obs false number before).kept page, failure⟩ = some result := by
  induction left generalizing page failure with
  | zero => omega
  | succ left ih =>
      have hlimit : (recordWalk transport list obs false number before).limit ≠ some page := by
        intro h
        cases h
      unfold readRecordsFrom
      split
      · exact ⟨_, rfl⟩
      rename_i hroom
      have hread : list.page transport
          ((recordWalk transport list obs false number before).startOf page) page = _ :=
        (recordWalk transport list obs false number before).page_eq page
      rw [hread]
      cases hanswer : (recordWalk transport list obs false number before).answerAt page with
      | error f => exact ⟨_, rfl⟩
      | ok answer =>
          obtain ⟨items, total⟩ := answer
          have hlast := Walk.lastPage_iff hanswer
          have hkept := Walk.kept_of_ok hanswer
          have hpushed := pushAll_resources obs
            ⟨(recordWalk transport list obs false number before).kept page, failure⟩ items
          change _ = _ ++ (recordWalk transport list obs false number before).keeps items at hpushed
          rw [← hkept] at hlast hpushed
          dsimp only
          split
          · exact ⟨_, rfl⟩
          · rename_i hgoes
            rw [hpushed] at hgoes
            have hnext : ¬(recordWalk transport list obs false number before).LastPage page := by
              rw [hlast]
              exact fun hend => hgoes (hend.symm.imp_right List.isEmpty_iff.mpr)
            have hreach' := hreach.next hroom hlimit hnext
            -- the walk is not over here, so its last page is still ahead
            have hlater : page ≠ pages := by
              rintro rfl
              exact hreach'.not_ends (Nat.lt_succ_self page) hover.1
            generalize pushAll obs _ items = fetch at hpushed
            obtain ⟨resources, failure'⟩ := fetch
            obtain rfl : resources = _ := hpushed
            exact ih (by omega) (by omega) hreach'

end

/-! ## §2  The walked lists -/

section

variable {ρ : Type} (transport : Transport ρ)

/-- The domains the `for` loop comes to. -/
def walkedDomains (listOf : String → Listing ρ ResourceDto) (obs : Observing) (limited : Bool)
    (turns : Nat) : List String → (number : Nat) → ModuleFetch → Nat
  | [], _, _ => 0
  | domain :: domains, number, fetch =>
      if maxResourcesPerModule ≤ fetch.resources.length then 0
      else
        match readRecordsFrom transport (listOf domain) obs limited turns number 0 fetch with
        | none => 1
        | some (fetch, next) => walkedDomains listOf obs limited turns domains next fetch + 1

/-- The lists `fetch_dns` walks: the domains, and the records of each domain it comes to. -/
def walkedLists (domainList : Listing ρ String) (recordList : String → Listing ρ ResourceDto)
    (obs : Observing) (limited : Bool) (turns number : Nat) : Nat :=
  match listDomainsFrom transport domainList maxPagesPerModule number 0 [] with
  | (.error _, _) => 1
  | (.ok domains, next) =>
      walkedDomains transport recordList obs limited turns (domains.take maxDnsDomains) next ⟨[], none⟩
        + 1

variable {transport}

theorem readDomains_walks {listOf : String → Listing ρ ResourceDto} {obs : Observing}
    {limited : Bool} {turns number next : Nat} {domains : List String} {fetch result : ModuleFetch}
    (hlimited : limited = true → turns = maxPagesPerModule)
    (h : readDomains transport listOf obs limited turns domains number fetch =
      some (result, next)) :
    RecordWalks transport listOf obs limited domains number fetch.resources
      (walkedDomains transport listOf obs limited turns domains number fetch) next
      result.resources := by
  induction domains generalizing number fetch with
  | nil =>
      cases h
      exact .done
  | cons domain domains ih =>
      unfold readDomains at h
      unfold walkedDomains
      split at h
      · cases h
        rename_i henough
        rw [if_pos henough]
        exact .enough henough
      · rename_i hroom
        rw [if_neg hroom]
        obtain ⟨⟨mid, following⟩, hrecords, h⟩ := Option.bind_eq_some_iff.mp h
        obtain ⟨pages, hover, hkept, rfl⟩ :=
          @readRecordsFrom_walks _ transport (listOf domain) obs limited number fetch.resources
            turns 0 _ _ _ hlimited Walk.reaches_zero hrecords
        have hrest := ih h
        simp only [hrecords]
        rw [hkept] at hrest
        exact .walk hroom hover hrest

/-- Where the walks over the domains end, their loop returns with turns enough. -/
theorem readDomains_returns {listOf : String → Listing ρ ResourceDto} {obs : Observing}
    {domains : List String} {number walked last : Nat} {before resources : List ResourceObservation}
    (h : RecordWalks transport listOf obs false domains number before walked last resources) :
    ∃ bound, ∀ turns, bound ≤ turns → ∀ failure, ∃ result,
      readDomains transport listOf obs false turns domains number ⟨before, failure⟩ =
        some result := by
  induction h with
  | done => exact ⟨0, fun _ _ _ => ⟨_, rfl⟩⟩
  | enough henough =>
      refine ⟨0, fun _ _ _ => ?_⟩
      unfold readDomains
      exact ⟨_, if_pos henough⟩
  | @walk domain domains number pages walked last before resources hroom hover _ ih =>
      obtain ⟨bound, hbound⟩ := ih
      refine ⟨max bound (pages + 1), fun turns hturns failure => ?_⟩
      obtain ⟨⟨mid, following⟩, hrecords⟩ :=
        @readRecordsFrom_returns _ transport (listOf domain) obs number before turns 0 pages failure
          (by omega) (Nat.zero_le _) Walk.reaches_zero hover
      obtain ⟨pages', hover', hkept, rfl⟩ :=
        readRecordsFrom_walks (fun h => by cases h) Walk.reaches_zero hrecords
      obtain rfl := hover.unique hover'
      obtain ⟨midResources, midFailure⟩ := mid
      obtain rfl : midResources = _ := hkept
      obtain ⟨result, hresult⟩ := hbound turns (by omega) midFailure
      refine ⟨result, ?_⟩
      unfold readDomains
      rw [if_neg hroom]
      exact Option.bind_eq_some_iff.mpr ⟨_, hrecords, hresult⟩

theorem RecordWalks.unique {listOf : String → Listing ρ ResourceDto} {obs : Observing}
    {limited : Bool} {domains : List String} {number walked walked' last last' : Nat}
    {before resources resources' : List ResourceObservation}
    (h : RecordWalks transport listOf obs limited domains number before walked last resources)
    (h' : RecordWalks transport listOf obs limited domains number before walked' last' resources') :
    walked = walked' ∧ last = last' ∧ resources = resources' := by
  induction h generalizing walked' with
  | done =>
      cases h'
      exact ⟨rfl, rfl, rfl⟩
  | enough henough =>
      cases h' with
      | enough _ => exact ⟨rfl, rfl, rfl⟩
      | walk hroom _ _ => exact absurd henough hroom
  | walk hroom hover _ ih =>
      cases h' with
      | enough henough => exact absurd henough hroom
      | walk _ hover' hrest' =>
          obtain rfl := hover.unique hover'
          obtain ⟨rfl, rfl, rfl⟩ := ih hrest'
          exact ⟨rfl, rfl, rfl⟩

/-- A listing that returns has gone over its walks, as many as there were lists. -/
theorem fetchDns_walks {domainList : Listing ρ String} {recordList : String → Listing ρ ResourceDto}
    {obs : Observing} {limited : Bool} {turns number next : Nat} {result : ModuleFetch}
    (hlimited : limited = true → turns = maxPagesPerModule)
    (h : fetchDns transport domainList recordList obs limited turns number = some (result, next)) :
    DnsWalks transport domainList recordList obs limited number
      (walkedLists transport domainList recordList obs limited turns number) next
      result.resources := by
  unfold fetchDns at h
  unfold walkedLists
  rcases @listDomainsFrom_walks _ transport domainList number maxPagesPerModule 0 (Nat.add_zero _)
      Walk.reaches_zero with ⟨pages, hover, hread, hlist⟩ | ⟨last, f, hover, hfails, hlist⟩
  · have hlisted : listDomainsFrom transport domainList maxPagesPerModule number 0 [] = _ := hlist
    rw [hlisted] at h ⊢
    exact .listed hover hread (readDomains_walks hlimited h)
  · have hlisted : listDomainsFrom transport domainList maxPagesPerModule number 0 [] = _ := hlist
    rw [hlisted] at h ⊢
    cases h
    exact .unlisted hover hfails

theorem fetchDns_returns {domainList : Listing ρ String}
    {recordList : String → Listing ρ ResourceDto} {obs : Observing} {number walked last : Nat}
    {resources : List ResourceObservation}
    (h : DnsWalks transport domainList recordList obs false number walked last resources) :
    ∃ bound, ∀ turns, bound ≤ turns → ∃ result,
      fetchDns transport domainList recordList obs false turns number = some result := by
  unfold fetchDns
  rcases @listDomainsFrom_walks _ transport domainList number maxPagesPerModule 0 (Nat.add_zero _)
      Walk.reaches_zero with ⟨pages, hover, hread, hlist⟩ | ⟨page, f, hover, hfails, hlist⟩
  · have hlisted : listDomainsFrom transport domainList maxPagesPerModule number 0 [] = _ := hlist
    rw [hlisted]
    cases h with
    | unlisted hover' hfails =>
        obtain rfl := hover.unique hover'
        obtain ⟨found, hfound⟩ := hread _ (Nat.lt_succ_self _)
        cases hfails.symm.trans hfound
    | listed hover' _ hrest =>
        obtain rfl := hover.unique hover'
        obtain ⟨bound, hbound⟩ := readDomains_returns hrest
        exact ⟨bound, fun turns hturns => hbound turns hturns none⟩
  · have hlisted : listDomainsFrom transport domainList maxPagesPerModule number 0 [] = _ := hlist
    rw [hlisted]
    exact ⟨0, fun _ _ => ⟨_, rfl⟩⟩

theorem DnsWalks.unique {domainList : Listing ρ String}
    {recordList : String → Listing ρ ResourceDto}
    {obs : Observing} {limited : Bool} {number walked walked' last last' : Nat}
    {resources resources' : List ResourceObservation}
    (h : DnsWalks transport domainList recordList obs limited number walked last resources)
    (h' : DnsWalks transport domainList recordList obs limited number walked' last' resources') :
    walked = walked' ∧ last = last' ∧ resources = resources' := by
  cases h with
  | unlisted hover hfails =>
      cases h' with
      | unlisted hover' _ =>
          cases hover.unique hover'
          exact ⟨rfl, rfl, rfl⟩
      | listed hover' hread' _ =>
          cases hover.unique hover'
          obtain ⟨found, hfound⟩ := hread' _ (Nat.lt_succ_self _)
          cases hfails.symm.trans hfound
  | listed hover hread hrest =>
      cases h' with
      | unlisted hover' hfails =>
          cases hover.unique hover'
          obtain ⟨found, hfound⟩ := hread _ (Nat.lt_succ_self _)
          cases hfails.symm.trans hfound
      | listed hover' _ hrest' =>
          cases hover.unique hover'
          obtain ⟨rfl, rfl, rfl⟩ := hrest.unique hrest'
          exact ⟨rfl, rfl, rfl⟩

/-! ## §3  The limits -/

theorem RecordWalks.requests_le {listOf : String → Listing ρ ResourceDto} {obs : Observing}
    {domains : List String} {number walked last : Nat} {before resources : List ResourceObservation}
    (h : RecordWalks transport listOf obs true domains number before walked last resources) :
    last ≤ number + walked * (maxPagesPerModule * (1 + maxRetries)) := by
  induction h with
  | done => exact Nat.le_add_right _ _
  | enough _ => exact Nat.le_add_right _ _
  | @walk domain _ number pages _ _ before _ _ hover _ ih =>
      have hpages : (recordWalk transport (listOf domain) obs true number before).startOf pages ≤
        number + maxPagesPerModule * (1 + maxRetries) := hover.startOf_le rfl
      rw [Nat.succ_mul]
      exact ih.trans (by omega)

theorem DnsWalks.requests_le {domainList : Listing ρ String}
    {recordList : String → Listing ρ ResourceDto} {obs : Observing} {number walked last : Nat}
    {resources : List ResourceObservation}
    (h : DnsWalks transport domainList recordList obs true number walked last resources) :
    last ≤ number + walked * (maxPagesPerModule * (1 + maxRetries)) := by
  cases h with
  | unlisted hover _ =>
      rw [Nat.one_mul]
      exact hover.startOf_le rfl
  | @listed pages _ _ _ hover _ hrest =>
      have hpages : (domainWalk transport domainList number).startOf pages ≤
        number + maxPagesPerModule * (1 + maxRetries) := hover.startOf_le rfl
      have hrecords := hrest.requests_le
      rw [Nat.succ_mul]
      exact hrecords.trans (by omega)

end

/-! ## §4  The connectors -/

/-- The requests sent from a number on are within the budget of so many lists. -/
def WithinBudget (number lists : Nat) (result : ModuleFetch × Nat) : Prop :=
  result.2 ≤ number + lists * (maxPagesPerModule * (1 + maxRetries))

theorem fetchModule_within {ρ : Type} (transport : Transport ρ) (list : Listing ρ ResourceDto)
    (obs : Observing) (number : Nat) :
    WithinBudget number 1 (fetchModule transport list obs number) := by
  obtain ⟨pages, failure, hover, hfetch⟩ := @fetchModule_walks _ transport list obs number
  unfold WithinBudget
  rw [hfetch, Nat.one_mul]
  exact hover.startOf_le rfl

theorem fetchDns_limited {ρ : Type} {transport : Transport ρ} {domainList : Listing ρ String}
    {recordList : String → Listing ρ ResourceDto} {obs : Observing} (turns number : Nat) :
    ∃ result, fetchDns transport domainList recordList obs true turns number = some result := by
  unfold fetchDns
  split
  · exact ⟨_, rfl⟩
  · exact readDomains_ends _ _ _

/-- Watched long enough, a listing without a limit on the pages of a domain returns exactly
when its walks end. -/
theorem fetchDns_returns_iff {ρ : Type} {transport : Transport ρ} {domainList : Listing ρ String}
    {recordList : String → Listing ρ ResourceDto} {obs : Observing} {number : Nat} :
    (∃ turns result,
      fetchDns transport domainList recordList obs false turns number = some result) ↔
      ∃ walked last resources,
        DnsWalks transport domainList recordList obs false number walked last resources := by
  constructor
  · rintro ⟨turns, ⟨fetch, next⟩, hfetch⟩
    exact ⟨_, _, _, fetchDns_walks (fun h => by cases h) hfetch⟩
  · rintro ⟨walked, last, resources, hwalks⟩
    obtain ⟨bound, hbound⟩ := fetchDns_returns hwalks
    obtain ⟨result, hresult⟩ := hbound bound le_rfl
    exact ⟨bound, result, hresult⟩

/-- The listings of both connectors return within their budget, but for the DNS records at
Tencent: there the walks over the domains have to end, by the pages the provider answers with,
and their requests together with the retries to be within it. Where a walk does not end, the
listing never returns. -/
theorem listings_bounded (aliyun : Transport Aliyun.SignedRequest)
    (tencent : Transport Tencent.SignedRequest) (floatText : UInt64 → String)
    (fromSlice : Body → Option Value) (nowUnixSecs : Nat → Nat) (session : Session) (number : Nat) :
    let a := Aliyun.provider fromSlice
    let t := Tencent.provider floatText fromSlice nowUnixSecs
    (∀ m, WithinBudget number 1
      (fetchModule aliyun (a.moduleList session m) (a.moduleObserving session m) number)) ∧
    (∀ m, WithinBudget number 1
      (fetchModule tencent (t.moduleList session m) (t.moduleObserving session m) number)) ∧
    (∃ result,
      fetchDns aliyun (a.domainList session) (a.recordList session) (a.recordObserving session)
          a.limited maxPagesPerModule number = some result ∧
        WithinBudget number
          (walkedLists aliyun (a.domainList session) (a.recordList session)
            (a.recordObserving session) a.limited maxPagesPerModule number) result) ∧
    ((∃ turns result,
      fetchDns tencent (t.domainList session) (t.recordList session) (t.recordObserving session)
          t.limited turns number = some result ∧
        WithinBudget number
          (walkedLists tencent (t.domainList session) (t.recordList session)
            (t.recordObserving session) t.limited turns number) result) ↔
      ∃ walked last resources,
        DnsWalks tencent (t.domainList session) (t.recordList session) (t.recordObserving session)
          t.limited number walked last resources ∧
        last ≤ number + walked * (maxPagesPerModule * (1 + maxRetries))) ∧
    ((∃ turns result,
      fetchDns tencent (t.domainList session) (t.recordList session) (t.recordObserving session)
          t.limited turns number = some result) ↔
      ∃ walked last resources,
        DnsWalks tencent (t.domainList session) (t.recordList session) (t.recordObserving session)
          t.limited number walked last resources) := by
  intro a t
  refine ⟨fun m => fetchModule_within _ _ _ _, fun m => fetchModule_within _ _ _ _, ?_, ?_,
    fetchDns_returns_iff⟩
  · obtain ⟨⟨fetch, next⟩, hfetch⟩ := @fetchDns_limited _ aliyun (a.domainList session)
      (a.recordList session) (a.recordObserving session) maxPagesPerModule number
    exact ⟨_, hfetch, (fetchDns_walks (fun _ => rfl) hfetch).requests_le⟩
  · constructor
    · rintro ⟨turns, ⟨fetch, next⟩, hfetch, hwithin⟩
      exact ⟨_, _, _, fetchDns_walks (fun h => by cases h) hfetch, hwithin⟩
    · rintro ⟨walked, last, resources, hwalks, hwithin⟩
      obtain ⟨turns, ⟨fetch, next⟩, hfetch⟩ := fetchDns_returns_iff.mpr ⟨_, _, _, hwalks⟩
      refine ⟨turns, _, hfetch, ?_⟩
      obtain ⟨rfl, rfl, _⟩ := hwalks.unique (fetchDns_walks (fun h => by cases h) hfetch)
      exact hwithin

namespace RecordsFixture

def session : Session where
  scope := ⟨"tencent:ap-guangzhou", by decide⟩
  region := "ap-guangzhou"
  key := "id"
  secret := [0x6B]

/-- One domain is listed; its one record carries no id. -/
def transport : Transport Tencent.SignedRequest := fun _ request _ =>
  if request.action = "DescribeDomainList" then .ok [0] else .ok [1]

def fromSlice (body : Body) : Option Value :=
  let items : List Value :=
    if body = [0] then [.object [("Name", .string "example.com")]]
    else [.object [("Value", .string "192.0.2.1")]]
  some (.object [("Response", .object [("RecordList", .array items), ("TotalCount", .ofNat 1)])])

end RecordsFixture

open RecordsFixture in
/-- Every page of the records is the record without an id, announced as one. -/
theorem RecordsFixture.page_eq (number page : Nat) :
    (Tencent.recordList (fun _ => "") fromSlice (fun _ => 0) session "example.com").page transport
        number page = (.ok ([⟨"", none, none, none, none⟩], 1), number + 1) := by
  have hbuild : (Tencent.recordList (fun _ => "") fromSlice (fun _ => 0) session
      "example.com").build number page =
      some ⟨"https://dnspod.tencentcloudapi.com", "dnspod.tencentcloudapi.com", "dnspod",
        "DescribeRecordList", "2021-03-23", "ap-guangzhou", "id", 0, pageSize,
        Tencent.offsetOf page, [("Domain", "example.com")]⟩ := by
    unfold Tencent.recordList Tencent.request Tencent.SignedRequest.build
    dsimp only
    rw [if_neg (by decide +kernel), if_neg (by decide +kernel), if_pos (by decide +kernel)]
    rfl
  have hread : (Tencent.recordList (fun _ => "") fromSlice (fun _ => 0) session "example.com").read
      page [1] = .ok ([⟨"", none, none, none, none⟩], 1) := by
    rfl
  unfold Listing.page retryList retryFrom
  simp only [hbuild]
  show (Except.bind (.ok [1]) _, number + 1) = _
  exact Prod.ext hread rfl

open RecordsFixture in
/-- The record is not mapped, so the one record that is announced is never there. -/
theorem unmapped_record_never_ends :
    let t := Tencent.provider (fun _ => "") fromSlice fun _ => 0
    ¬ ∃ turns result,
      fetchDns transport (t.domainList session) (t.recordList session) (t.recordObserving session)
        t.limited turns 0 = some result := by
  intro t
  have hloop : ∀ left number page fetch, fetch.resources = [] →
      readRecordsFrom transport (t.recordList session "example.com") (t.recordObserving session)
        false left number page fetch = none := by
    intro left
    induction left with
    | zero => exact fun _ _ _ _ => rfl
    | succ left ih =>
        intro number page fetch hnone
        have hrefused : ∃ e, (t.recordObserving session).observe ⟨"", none, none, none, none⟩ =
            .error e := ⟨_, rfl⟩
        obtain ⟨e, hrefused⟩ := hrefused
        have hpushed : (pushAll (t.recordObserving session) fetch
            [⟨"", none, none, none, none⟩]).resources = [] := by
          unfold pushAll
          rw [hrefused]
          exact hnone
        have hpage : (t.recordList session "example.com").page transport number page = _ :=
          RecordsFixture.page_eq number page
        unfold readRecordsFrom
        rw [if_neg (by rw [hnone]; decide), hpage]
        simp only
        rw [if_neg (by rw [hpushed]; decide)]
        exact ih _ _ _ hpushed
  rintro ⟨turns, result, h⟩
  have hlist : listDomainsFrom transport (t.domainList session) maxPagesPerModule 0 0 [] =
      (.ok ["example.com"], 1) := by
    rfl
  unfold fetchDns at h
  rw [hlist] at h
  have hwalk : readDomains transport (t.recordList session) (t.recordObserving session) false turns
      ["example.com"] 1 ⟨[], none⟩ = none := by
    unfold readDomains
    rw [if_neg (by decide), hloop turns 1 0 _ rfl]
    rfl
  have hwalk' : readDomains transport (t.recordList session) (t.recordObserving session) false
      turns ["example.com"] 1 ⟨[], none⟩ = some result := h
  rw [hwalk] at hwalk'
  cases hwalk'

end Cloud

end NextInfra
