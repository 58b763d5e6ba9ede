import NextInfra.Dokploy.Pages

/-!
# What a Dokploy sync claims to have seen

§1 reads a walk that comes to its end: it goes through two lists for each of its
applications, and the budget, which counts lists, is out of its reach. §2 says, by what the
provider lists and over how many pages, when that is honest and when it is within the
budget.
-/

namespace NextInfra

namespace Dokploy

section

variable {wire : Wire} {transport : Transport} {secret : List UInt8}

/-! ## §1  A walk to its end -/

/-- The lists were read, one for each endpoint, in this order. -/
def Read (endpoints : List Endpoint) (lists : List ListFetch) : Prop :=
  List.Forall₂ (fun endpoint list => list.endpoint = endpoint ∧ ∃ pages, list.pages = .ok pages)
    endpoints lists

/-- The list of the endpoint was read. -/
def Sent.Fetched (sent : Sent) (endpoint : Endpoint) : Prop :=
  ∃ list ∈ sent.lists, list.endpoint = endpoint ∧ ∃ pages, list.pages = .ok pages

theorem fetched_iff {sent : Sent} {endpoints : List Endpoint} (h : Read endpoints sent.lists)
    {endpoint : Endpoint} : sent.Fetched endpoint ↔ endpoint ∈ endpoints := by
  unfold Sent.Fetched
  generalize sent.lists = lists at h
  induction h with
  | nil => simp
  | cons hab _ ih =>
      rename_i e list es lists _
      rw [List.exists_mem_cons_iff, List.mem_cons, ih]
      constructor
      · rintro (⟨heq, _⟩ | hmem)
        · exact Or.inl (heq.symm.trans hab.1)
        · exact Or.inr hmem
      · rintro (rfl | hmem)
        · exact Or.inl hab
        · exact Or.inr hmem

theorem fetchPagesRaw_ok {endpoint : Endpoint} {s t : Sent} {pages : List Body}
    (h : fetchPagesRaw wire transport secret endpoint s = (.ok pages, t)) :
    fetchPages wire transport endpoint.path secret s.requests = .ok pages ∧
      ∃ list, t.lists = s.lists ++ [list] ∧ list.endpoint = endpoint ∧ list.pages = .ok pages := by
  obtain ⟨hpages, rfl⟩ := Prod.mk.injEq _ _ _ _ ▸ h
  cases hfetch : fetchPages wire transport endpoint.path secret s.requests with
  | error e =>
      rw [hfetch] at hpages
      cases hpages
  | ok pages' =>
      rw [hfetch] at hpages
      cases hpages
      exact ⟨rfl, _, rfl, rfl, rfl⟩

/-- A turn with room in the budget for its two lists does not break. -/
theorem walkApplication_ok {app : ApplicationDto} {walk : Walk} {step : Walk × Bool} {s t : Sent}
    (hroom : walk.requestCount + 2 ≤ requestBudget)
    (h : walkApplication wire transport secret app walk s = (.ok step, t)) :
    step.2 = false ∧ step.1.primaryFailure = walk.primaryFailure ∧
      step.1.requestCount = walk.requestCount + 2 ∧
      ∃ lists, t.lists = s.lists ++ lists ∧ Read (endpointsOf app) lists := by
  unfold walkApplication at h
  rw [spent_eq_false (by omega), if_neg (by simp)] at h
  obtain ⟨depPages, s1, hdep, hrest⟩ := Attempt.bind_ok_iff.mp h
  obtain ⟨deps, s2, hdeps, hwalk⟩ := Attempt.bind_ok_iff.mp hrest
  obtain ⟨_, rfl⟩ := Attempt.ofExcept_ok_iff.mp hdeps
  rw [spent_eq_false (show walk.requestCount + 1 < requestBudget by omega), if_neg (by simp)]
    at hwalk
  obtain ⟨domPages, s3, hdom, hlast⟩ := Attempt.bind_ok_iff.mp hwalk
  obtain ⟨doms, s4, hdoms, hend⟩ := Attempt.bind_ok_iff.mp hlast
  obtain ⟨_, rfl⟩ := Attempt.ofExcept_ok_iff.mp hdoms
  cases hend
  obtain ⟨_, depList, hs1, hdepEndpoint, hdepOk⟩ := fetchPagesRaw_ok hdep
  obtain ⟨_, domList, hs3, hdomEndpoint, hdomOk⟩ := fetchPagesRaw_ok hdom
  refine ⟨rfl, rfl, rfl, [depList, domList], ?_, ?_⟩
  · rw [hs3, hs1, List.append_assoc]
    rfl
  · exact .cons ⟨hdepEndpoint, _, hdepOk⟩ (.cons ⟨hdomEndpoint, _, hdomOk⟩ .nil)

/-- A walk with room in the budget for two lists an application comes to its end. -/
theorem walkApplications_ok {apps : List ApplicationDto} {walk walk' : Walk} {s t : Sent}
    (hroom : walk.requestCount + 2 * apps.length ≤ requestBudget)
    (h : walkApplications wire transport secret apps walk s = (.ok walk', t)) :
    walk'.primaryFailure = walk.primaryFailure ∧
      ∃ lists, t.lists = s.lists ++ lists ∧ Read (apps.flatMap endpointsOf) lists := by
  induction apps generalizing walk s with
  | nil =>
      cases h
      exact ⟨rfl, [], by simp, .nil⟩
  | cons app rest ih =>
      rw [List.length_cons] at hroom
      unfold walkApplications at h
      obtain ⟨⟨next, broke⟩, u, hstep, h⟩ := Attempt.bind_ok_iff.mp h
      obtain ⟨hgoes, hsame, hcount, first, hfirst, hreadFirst⟩ :=
        walkApplication_ok (by omega) hstep
      simp only at hgoes hsame hcount h
      rw [hgoes, if_neg (by simp)] at h
      obtain ⟨hfailure, lists, hlists, hread⟩ := ih (by omega) h
      refine ⟨hfailure.trans hsame, first ++ lists, ?_, ?_⟩
      · rw [hlists, hfirst, List.append_assoc]
      · exact List.rel_append hreadFirst hread

/-- What a collected sync went through. -/
structure Walked (wire : Wire) (transport : Transport) (secret : List UInt8) (c : Collected)
    (sent : Sent) : Prop where
  projects : ∃ pages, fetchPages wire transport Endpoint.projectAll.path secret 0 = .ok pages ∧
    parsePages wire.projects pages = .ok c.projects
  unhindered : c.walk.primaryFailure = none
  lists : Read (.projectAll :: .serverAll ::
    (c.applications.take maxApplicationsWalk).flatMap endpointsOf) sent.lists

theorem collect_walked {c : Collected} {sent : Sent}
    (h : collect wire transport secret {} = (.ok c, sent)) :
    Walked wire transport secret c sent := by
  unfold collect at h
  obtain ⟨projectPages, s1, hfetch1, hrest⟩ := Attempt.bind_ok_iff.mp h
  obtain ⟨projects, s2, hprojects, hafter⟩ := Attempt.bind_ok_iff.mp hrest
  obtain ⟨hparsed, rfl⟩ := Attempt.ofExcept_ok_iff.mp hprojects
  obtain ⟨serverPages, s3, hfetch2, hserver⟩ := Attempt.bind_ok_iff.mp hafter
  obtain ⟨servers, s4, hservers, hwalks⟩ := Attempt.bind_ok_iff.mp hserver
  obtain ⟨_, rfl⟩ := Attempt.ofExcept_ok_iff.mp hservers
  obtain ⟨walk, s5, hwalk, hend⟩ := Attempt.bind_ok_iff.mp hwalks
  cases hend
  obtain ⟨hpages, list1, hs1, hendpoint1, hok1⟩ := fetchPagesRaw_ok hfetch1
  obtain ⟨_, list2, hs3, hendpoint2, hok2⟩ := fetchPagesRaw_ok hfetch2
  -- fifty applications at most, and two lists before them
  obtain ⟨hfailure, lists, hlists, hread⟩ := walkApplications_ok (by
    have htake := List.length_take_le maxApplicationsWalk (flattenApplications projects)
    show 2 + 2 * _ ≤ 200
    have : maxApplicationsWalk = 50 := rfl
    omega) hwalk
  refine ⟨⟨projectPages, hpages, hparsed⟩, hfailure, ?_⟩
  rw [hlists, hs3, hs1]
  exact .cons ⟨hendpoint1, _, hok1⟩ (.cons ⟨hendpoint2, _, hok2⟩ hread)

/-! ## §2  Coverage and budget -/

/-- An application of the old or of the new shape. -/
def ProjectDto.Holds (project : ProjectDto) (app : ApplicationDto) : Prop :=
  app ∈ project.applications ∨ ∃ environment ∈ project.environments, app ∈ environment.applications

/-- The ids walked for are those the projects hold. -/
theorem exists_flattened_iff {projects : List ProjectDto} {id : String} :
    (∃ app ∈ flattenApplications projects, app.id = id) ↔
      ∃ project ∈ projects, ∃ app, project.Holds app ∧ app.id = id := by
  unfold flattenApplications ProjectDto.Holds
  constructor
  · rintro ⟨app, happ, rfl⟩
    obtain ⟨project, hproject, happ⟩ := List.mem_flatMap.mp happ
    obtain ⟨held, hheld, rfl⟩ := List.mem_map.mp happ
    refine ⟨project, hproject, held, ?_, rfl⟩
    rcases List.mem_append.mp hheld with hheld | hheld
    · exact Or.inl hheld
    · exact Or.inr (List.mem_flatMap.mp hheld)
  · rintro ⟨project, hproject, held, hheld, rfl⟩
    refine ⟨{ held with projectId := some project.id }, ?_, rfl⟩
    refine List.mem_flatMap.mpr ⟨project, hproject, List.mem_map.mpr ⟨held, ?_, rfl⟩⟩
    rcases hheld with hheld | hheld
    · exact List.mem_append_left _ hheld
    · exact List.mem_append_right _ (List.mem_flatMap.mpr hheld)

/-- Both lists of the id were read exactly when it is one of the first fifty. -/
theorem fetched_of_id_iff {c : Collected} {sent : Sent} (h : Walked wire transport secret c sent)
    {id : String} :
    sent.Fetched (.deploymentAll id) ∧ sent.Fetched (.domainByApplicationId id) ↔
      id ∈ (c.applications.take maxApplicationsWalk).map ApplicationDto.id := by
  have hmem : ∀ endpoint, sent.Fetched endpoint ↔ _ := fun endpoint => fetched_iff h.lists
  rw [hmem, hmem, List.mem_map]
  simp [endpointsOf, eq_comm]

/-- `validate_connection` and the checks of `sync` let the request through. -/
def Admitted (request : SyncRequest) (secret : Option (List UInt8)) (token : List UInt8) : Prop :=
  validateConnection request.connection = [] ∧ secret = some token ∧ request.mode = .full

/-- An outcome that says it covers the scope has read the deployments and the domains of
every application of every project. -/
def CoverageHonest (wire : Wire) (transport : Transport) (request : SyncRequest)
    (secret : Option (List UInt8)) : Prop :=
  ∀ outcome sent scope, sync wire transport request secret {} = (.ok outcome, sent) →
    outcome.batch.coverage = .authoritativeFull scope →
    ∃ token pages projects, secret = some token ∧
      fetchPages wire transport Endpoint.projectAll.path token 0 = .ok pages ∧
      parsePages wire.projects pages = .ok projects ∧
      ∀ project ∈ projects, ∀ app, project.Holds app →
        sent.Fetched (.deploymentAll app.id) ∧ sent.Fetched (.domainByApplicationId app.id)

/-- A sync sends no more requests than its budget. -/
def Budgeted (wire : Wire) (transport : Transport) (request : SyncRequest)
    (secret : Option (List UInt8)) : Prop :=
  (sync wire transport request secret {}).2.requests ≤ requestBudget

theorem sync_of_admitted {request : SyncRequest} {secret : Option (List UInt8)}
    {token : List UInt8} (h : Admitted request secret token) :
    sync wire transport request secret = (do
      let collected ← collect wire transport token
      .ofExcept (collected.finish request)) := by
  obtain ⟨hvalid, rfl, hmode⟩ := h
  unfold sync
  rw [hvalid]
  simp only [hmode, ne_eq, not_true_eq_false, if_false]

/-- Nothing is sent for a request that is not admitted. -/
theorem sync_of_not_admitted {request : SyncRequest} {secret : Option (List UInt8)}
    (h : ∀ token, ¬Admitted request secret token) :
    ∃ failure, sync wire transport request secret = .fail failure := by
  unfold sync
  split
  · exact ⟨_, rfl⟩
  rename_i hvalid
  split
  · exact ⟨_, rfl⟩
  rename_i token
  split
  · exact ⟨_, rfl⟩
  rename_i hmode
  exact absurd ⟨hvalid, rfl, not_not.mp hmode⟩ (h token)

/-- A collected sync that maps is complete and claims the whole scope. -/
theorem finish_ok_iff {c : Collected} {request : SyncRequest} {outcome : SyncOutcome}
    (hmode : request.mode = .full) (hfailure : c.walk.primaryFailure = none) :
    c.finish request = .ok outcome ↔
      ∃ output, c.map (contextOf request) = .ok output ∧ c.outcome request.scope output = outcome := by
  unfold Collected.finish
  cases hmap : c.map (contextOf request) with
  | error e => simp
  | ok output =>
      have hvalid : (c.outcome request.scope output).validateFor request = .ok () := by
        rw [SyncOutcome.validateFor_ok_iff]
        unfold Collected.outcome
        rw [hfailure]
        refine ⟨?_, rfl, by simp [SyncOutcome.batch, SyncCoverage.isPartial]⟩
        show request.mode.accepts _ = true
        rw [hmode]
        rfl
      simp only [hvalid]
      constructor
      · intro h
        exact ⟨output, rfl, Except.ok.inj h⟩
      · rintro ⟨output', hsame, rfl⟩
        cases hsame
        rfl

theorem outcome_coverage {c : Collected} {scope : Scope} {output : DokployMapperOutput}
    (hfailure : c.walk.primaryFailure = none) :
    (c.outcome scope output).batch.coverage = .authoritativeFull scope := by
  unfold Collected.outcome
  rw [hfailure]
  rfl

/-- Coverage is honest exactly when the first fifty applications of what the provider lists,
where it maps, take all the ids there are. -/
theorem coverageHonest_iff {request : SyncRequest} {secret : Option (List UInt8)} :
    CoverageHonest wire transport request secret ↔
      ∀ token, Admitted request secret token → ∀ projects servers deployments domains,
        Provides wire transport token projects servers deployments domains →
        (∀ output, mapResources (contextOf request) projects (flattenApplications projects)
          deployments servers domains ≠ .ok output) ∨
          ∀ app ∈ flattenApplications projects,
            app.id ∈ ((flattenApplications projects).take maxApplicationsWalk).map
              ApplicationDto.id := by
  constructor
  · intro h token hadmitted projects servers deployments domains hprovides
    obtain ⟨sent, _, ⟨c, hread, hcollect⟩ | ⟨hnone, _⟩⟩ := @collect_cases wire transport token
    · obtain ⟨rfl, rfl, rfl, rfl⟩ := hprovides.unique hread
      have hwalked := collect_walked hcollect
      by_cases hmapped : ∃ output, c.map (contextOf request) = .ok output
      · right
        obtain ⟨output, hmap⟩ := hmapped
        have hsync : sync wire transport request secret {} =
            (.ok (c.outcome request.scope output), sent) := by
          rw [sync_of_admitted hadmitted]
          refine Attempt.bind_ok_iff.mpr ⟨c, sent, hcollect, Attempt.ofExcept_ok_iff.mpr ⟨?_, rfl⟩⟩
          exact (finish_ok_iff hadmitted.2.2 hwalked.unhindered).mpr ⟨output, hmap, rfl⟩
        obtain ⟨token', pages, projects, hsecret, hpages, hparsed, hfetched⟩ :=
          h _ sent _ hsync (outcome_coverage hwalked.unhindered)
        cases hadmitted.2.1.symm.trans hsecret
        obtain ⟨pages', hpages', hparsed'⟩ := hwalked.projects
        cases hpages.symm.trans hpages'
        cases hparsed.symm.trans hparsed'
        intro app happ
        obtain ⟨project, hproject, held, hheld, hid⟩ := exists_flattened_iff.mp ⟨app, happ, rfl⟩
        rw [← hid]
        exact (fetched_of_id_iff hwalked).mp (hfetched project hproject held hheld)
      · left
        exact fun output hmap => hmapped ⟨output, hmap⟩
    · exact absurd hprovides (hnone projects servers deployments domains)
  · intro h outcome sent scope hsync _
    by_cases hadmitted : ∃ token, Admitted request secret token
    · obtain ⟨token, hadmitted⟩ := hadmitted
      rw [sync_of_admitted hadmitted] at hsync
      obtain ⟨c, t, hcollect, hend⟩ := Attempt.bind_ok_iff.mp hsync
      obtain ⟨hfinish, rfl⟩ := Attempt.ofExcept_ok_iff.mp hend
      have hwalked := collect_walked hcollect
      obtain ⟨output, hmap, _⟩ :=
        (finish_ok_iff hadmitted.2.2 hwalked.unhindered).mp hfinish
      obtain ⟨pages, hpages, hparsed⟩ := hwalked.projects
      refine ⟨token, pages, c.projects, hadmitted.2.1, hpages, hparsed, ?_⟩
      intro project hproject app happ
      rcases h token hadmitted _ _ _ _ (provides_of_collect hcollect) with hno | hall
      · exact absurd hmap (hno output)
      · obtain ⟨flat, hflat, hid⟩ := exists_flattened_iff.mpr ⟨project, hproject, app, happ, rfl⟩
        rw [← hid]
        exact (fetched_of_id_iff hwalked).mpr (hall flat hflat)
    · obtain ⟨failure, hfail⟩ :=
        sync_of_not_admitted fun token hnot => hadmitted ⟨token, hnot⟩
      rw [hfail] at hsync
      cases hsync

/-- The budget is kept exactly when the lists a sync goes through are spread over no more
pages. Where the projects are not listed, they are all it asks for. -/
theorem budgeted_iff {request : SyncRequest} {secret : Option (List UInt8)} :
    Budgeted wire transport request secret ↔
      ∀ token, Admitted request secret token → ∀ projects,
        Lists wire transport token wire.projects .projectAll 0 projects →
        ∀ last, Through wire transport token (endpointsAfter projects)
          (after wire transport token .projectAll 0) last → last ≤ requestBudget := by
  have hsent : ∀ token, Admitted request secret token →
      (sync wire transport request secret {}).2.requests =
        (collect wire transport token {}).2.requests := by
    intro token hadmitted
    rw [sync_of_admitted hadmitted]
    exact congrArg Sent.requests (Attempt.bind_ofExcept_state _ _ _)
  unfold Budgeted
  constructor
  · intro h token hadmitted projects hprojects last hlast
    rw [hsent token hadmitted] at h
    rw [hlast.unique (collect_sends.through projects hprojects)]
    exact h
  · intro h
    by_cases hadmitted : ∃ token, Admitted request secret token
    · obtain ⟨token, hadmitted⟩ := hadmitted
      rw [hsent token hadmitted]
      by_cases hlisted : ∃ projects, Lists wire transport token wire.projects .projectAll 0 projects
      · obtain ⟨projects, hprojects⟩ := hlisted
        exact h token hadmitted projects hprojects _ (collect_sends.through projects hprojects)
      · have hspread : spread wire transport Endpoint.projectAll.path token 0 ≤ 100 := spread_le 0
        rw [collect_sends.projects hlisted]
        show 0 + spread wire transport Endpoint.projectAll.path token 0 ≤ 200
        omega
    · obtain ⟨failure, hfail⟩ := @sync_of_not_admitted wire transport request secret
        fun token hnot => hadmitted ⟨token, hnot⟩
      rw [hfail]
      exact Nat.zero_le _

end

/-- A sync is honest about its coverage and keeps its budget exactly when the first fifty
applications of what the provider lists, where it maps, take all the ids there are, and the
lists gone through are spread over no more pages than the budget. -/
theorem honest_and_budgeted_iff (wire : Wire) (transport : Transport) (request : SyncRequest)
    (secret : Option (List UInt8)) :
    CoverageHonest wire transport request secret ∧ Budgeted wire transport request secret ↔
      ∀ token, Admitted request secret token →
        (∀ projects servers deployments domains,
          Provides wire transport token projects servers deployments domains →
          (∀ output, mapResources (contextOf request) projects (flattenApplications projects)
            deployments servers domains ≠ .ok output) ∨
            ∀ app ∈ flattenApplications projects,
              app.id ∈ ((flattenApplications projects).take maxApplicationsWalk).map
                ApplicationDto.id) ∧
        ∀ projects, Lists wire transport token wire.projects .projectAll 0 projects →
          ∀ last, Through wire transport token (endpointsAfter projects)
            (after wire transport token .projectAll 0) last → last ≤ requestBudget := by
  rw [coverageHonest_iff, budgeted_iff]
  constructor
  · rintro ⟨hcoverage, hbudget⟩ token hadmitted
    exact ⟨hcoverage token hadmitted, hbudget token hadmitted⟩
  · intro h
    exact ⟨fun token hadmitted => (h token hadmitted).1,
      fun token hadmitted => (h token hadmitted).2⟩

/-! ## §3  A long list of projects -/

namespace Fixture

/-- `[]` -/
def emptyBody : Body := [0x5B, 0x5D]

/-- `[{"projectId":"p","name":"P","applications":[{"applicationId":"a","name":"A"}]}]` -/
def projectBody : Body :=
  ("[\x7b\"projectId\":\"p\",\"name\":\"P\",\"applications\":[\x7b\"applicationId\":\"a\"," ++
    "\"name\":\"A\"\x7d]\x7d]").toUTF8.data.toList

def project : ProjectDto where
  id := "p"
  name := "P"
  description := none
  applications :=
    [{ id := "a", name := "A", serverId := none, environmentId := none, projectId := none }]
  environments := []

def wire : Wire where
  join := fun path => some ("https://dokploy.example.test" ++ path)
  withCursor := fun url cursor => url ++ "?cursor=" ++ cursor
  projects := fun b =>
    if b = emptyBody then some [] else if b = projectBody then some [project] else none
  servers := fun b => if b = emptyBody then some [] else none
  deployments := fun b => if b = emptyBody then some [] else none
  domains := fun b => if b = emptyBody then some [] else none

/-- The projects and the servers take a hundred pages each, all empty but the first. -/
def transport : Transport := fun number _ =>
  .ok
    { status := 200
      retryAfterSeconds := none
      body := if number = 0 then projectBody else emptyBody
      nextCursor := if number < 199 ∧ number ≠ 99 then some "next" else none }

def token : List UInt8 := [0x74]

def request : SyncRequest where
  syncRunId := ⟨"r", trimmed_r⟩
  connection :=
    { connectionId := ⟨"c", trimmed_c⟩
      connectorType := .dokploy
      config := .mkObject [("base_url", .string "https://dokploy.example.test")]
      configSchemaVersion := .one }
  mode := .full
  scope := ⟨"all", trimmed_all⟩
  cursor := none
  targetedResources := []

end Fixture

open Fixture in
/-- One application behind two long lists takes the sync past its budget. -/
theorem long_lists_exceed_budget :
    ¬(CoverageHonest wire transport request (some token) ∧
      Budgeted wire transport request (some token)) := by
  rintro ⟨_, hbudget⟩
  have hrequests : (sync wire transport request (some token) {}).2.requests = 202 := by
    decide +kernel
  unfold Budgeted at hbudget
  rw [hrequests] at hbudget
  exact absurd hbudget (by decide)

end Dokploy

end NextInfra
