import NextInfra.Dokploy.Connector

/-!
# What a Dokploy provider lists

A list is the pages that lead to one another by their cursors, a hundred of them at most.
§1 says what a list holds and over how many pages it is spread, by the answers of the
provider alone, §2 what a sync meets that goes through list after list, and §3 that the
sync reads just that.
-/

namespace NextInfra

namespace Dokploy

/-! ## §1  One list -/

section

variable (wire : Wire) (transport : Transport) (path : String) (secret : List UInt8)

/-- The pages from a request on, each asked for with the cursor of the one before, up to one
that has none. -/
inductive Chain : (number : Nat) → (cursor : Option String) → List Body → Prop
  | last {number : Nat} {cursor : Option String} {body : Body}
      (h : fetchPage wire transport path secret number cursor = .ok (body, none)) :
      Chain number cursor [body]
  | next {number : Nat} {cursor : Option String} {body : Body} {following : String}
      {bodies : List Body}
      (h : fetchPage wire transport path secret number cursor = .ok (body, some following))
      (hrest : Chain (number + 1) (some following) bodies) :
      Chain number cursor (body :: bodies)

/-- The cursor a page is asked for with, where the pages before it lead there. -/
def cursorAt (number : Nat) : (page : Nat) → Option (Option String)
  | 0 => some none
  | page + 1 =>
      (cursorAt number page).bind fun cursor =>
        match fetchPage wire transport path secret (number + page) cursor with
        | .ok (_, some following) => some (some following)
        | _ => none

/-- How many of the first hundred pages of a list are led to; none where the path or the token
make no request. -/
def spread (number : Nat) : Nat :=
  if (wire.request path secret none).isSome then
    (List.range maxPagesPerEndpoint).countP fun page =>
      (cursorAt wire transport path secret number page).isSome
  else 0

variable {wire transport path secret}

theorem fetchPagesFrom_ok_iff {left number : Nat} {cursor : Option String} {bodies : List Body} :
    fetchPagesFrom wire transport path secret left number cursor = .ok bodies ↔
      Chain wire transport path secret number cursor bodies ∧ bodies.length ≤ left := by
  induction left generalizing number cursor bodies with
  | zero =>
      constructor
      · intro h
        cases h
      · rintro ⟨hchain, hlength⟩
        cases hchain with
        | last => exact absurd hlength (by simp)
        | next => exact absurd hlength (by simp)
  | succ left ih =>
      unfold fetchPagesFrom
      rcases hpage : fetchPage wire transport path secret number cursor with
        e | ⟨body, _ | following⟩
      · constructor
        · intro h
          cases h
        · rintro ⟨hchain, _⟩
          cases hchain with
          | last h => cases hpage.symm.trans h
          | next h _ => cases hpage.symm.trans h
      · constructor
        · intro h
          cases h
          exact ⟨.last hpage, Nat.succ_le_succ (Nat.zero_le _)⟩
        · rintro ⟨hchain, _⟩
          cases hchain with
          | last h =>
              cases hpage.symm.trans h
              rfl
          | next h _ => cases hpage.symm.trans h
      · constructor
        · intro h
          obtain ⟨rest, hrest, rfl⟩ := map_ok h
          obtain ⟨hchain, hlength⟩ := ih.mp hrest
          exact ⟨.next hpage hchain, Nat.succ_le_succ hlength⟩
        · rintro ⟨hchain, hlength⟩
          cases hchain with
          | last h => cases hpage.symm.trans h
          | next h hrest =>
              cases hpage.symm.trans h
              have hread := ih.mpr ⟨hrest, Nat.le_of_succ_le_succ hlength⟩
              simp only [hread]
              rfl

/-- A path and a token make a request with every cursor, or with none. -/
theorem request_isSome (cursor : Option String) :
    (wire.request path secret cursor).isSome = (wire.request path secret none).isSome := by
  unfold Wire.request
  cases wire.resource path with
  | none => rfl
  | some url =>
      cases headerToken secret with
      | none => rfl
      | some authorization => rfl

/-- Past a page that leads nowhere no page is led to. -/
theorem cursorAt_none {number page later : Nat}
    (h : cursorAt wire transport path secret number page = none) (hle : page ≤ later) :
    cursorAt wire transport path secret number later = none := by
  induction hle with
  | refl => exact h
  | step _ ih =>
      unfold cursorAt
      rw [ih]
      rfl

/-- From a page that is led to, the loop asks for the pages led to. -/
theorem askedFrom_eq (hsent : (wire.request path secret none).isSome = true) {number page : Nat}
    {cursor : Option String}
    (hcursor : cursorAt wire transport path secret number page = some cursor)
    (left : Nat) :
    askedFrom wire transport path secret left (number + page) cursor =
      (List.range' page left).countP fun p =>
        (cursorAt wire transport path secret number p).isSome := by
  induction left generalizing page cursor with
  | zero => rfl
  | succ left ih =>
      have hcons := List.countP_cons_of_pos
        (p := fun p => (cursorAt wire transport path secret number p).isSome)
        (l := List.range' (page + 1) left) (a := page) (by rw [hcursor]; rfl)
      rw [List.range'_succ, hcons]
      unfold askedFrom
      -- where the page names no other, none of those after it is led to
      have hends : cursorAt wire transport path secret number (page + 1) = none →
          1 = (List.range' (page + 1) left).countP
            (fun p => (cursorAt wire transport path secret number p).isSome) + 1 := by
        intro hnone
        have hzero : (List.range' (page + 1) left).countP
            (fun p => (cursorAt wire transport path secret number p).isSome) = 0 := by
          apply List.countP_eq_zero.mpr
          intro p hp
          rw [cursorAt_none hnone (List.mem_range'_1.mp hp).1]
          decide
        rw [hzero]
      rcases hpage : fetchPage wire transport path secret (number + page) cursor with
        e | ⟨body, _ | following⟩
      · dsimp only
        rw [request_isSome, if_pos hsent]
        refine hends ?_
        unfold cursorAt
        rw [hcursor, Option.bind_some, hpage]
      · refine hends ?_
        unfold cursorAt
        rw [hcursor, Option.bind_some, hpage]
      · dsimp only
        rw [Nat.add_assoc]
        congr 1
        refine ih ?_
        unfold cursorAt
        rw [hcursor, Option.bind_some, hpage]

/-- A sync asks for the pages of a list that are led to. -/
theorem asked_eq_spread (number : Nat) :
    asked wire transport path secret number = spread wire transport path secret number := by
  unfold asked spread
  split
  · rename_i hsent
    have hfirst : cursorAt wire transport path secret number 0 = some none := rfl
    rw [List.range_eq_range']
    exact askedFrom_eq hsent hfirst maxPagesPerEndpoint
  · rename_i hunsent
    have hnone : wire.request path secret none = none := by simpa using hunsent
    unfold maxPagesPerEndpoint askedFrom fetchPage
    rw [hnone]
    rfl

theorem spread_le (number : Nat) :
    spread wire transport path secret number ≤ maxPagesPerEndpoint := by
  unfold spread
  split
  · refine List.countP_le_length.trans ?_
    rw [List.length_range]
  · exact Nat.zero_le _

end

/-! ## §2  List after list -/

section

variable (wire : Wire) (transport : Transport) (secret : List UInt8)

/-- The list of an endpoint, read from a request on, holds these items. -/
def Lists {α : Type} (decode : Body → Option (List α)) (endpoint : Endpoint) (number : Nat)
    (items : List α) : Prop :=
  ∃ bodies, Chain wire transport endpoint.path secret number none bodies ∧
    bodies.length ≤ maxPagesPerEndpoint ∧ (bodies.mapM decode).map List.flatten = some items

/-- The request after those of a list. -/
def after (endpoint : Endpoint) (number : Nat) : Nat :=
  number + spread wire transport endpoint.path secret number

/-- The list comes to its end, and every page of it can be read. -/
def Held (endpoint : Endpoint) (number : Nat) : Prop :=
  match endpoint with
  | .projectAll => ∃ items, Lists wire transport secret wire.projects endpoint number items
  | .serverAll => ∃ items, Lists wire transport secret wire.servers endpoint number items
  | .deploymentAll _ => ∃ items, Lists wire transport secret wire.deployments endpoint number items
  | .domainByApplicationId _ =>
      ∃ items, Lists wire transport secret wire.domains endpoint number items

/-- One list after the other, up to the first that is not held: the request after their pages. -/
inductive Through : List Endpoint → (number last : Nat) → Prop
  | done {number : Nat} : Through [] number number
  | stops {endpoint : Endpoint} {rest : List Endpoint} {number : Nat}
      (h : ¬Held wire transport secret endpoint number) :
      Through (endpoint :: rest) number (after wire transport secret endpoint number)
  | goes {endpoint : Endpoint} {rest : List Endpoint} {number last : Nat}
      (h : Held wire transport secret endpoint number)
      (hrest : Through rest (after wire transport secret endpoint number) last) :
      Through (endpoint :: rest) number last

/-- The two lists of an application. -/
def endpointsOf (app : ApplicationDto) : List Endpoint :=
  [.deploymentAll app.id, .domainByApplicationId app.id]

/-- The lists that follow the projects. -/
def endpointsAfter (projects : List ProjectDto) : List Endpoint :=
  .serverAll :: ((flattenApplications projects).take maxApplicationsWalk).flatMap endpointsOf

/-- The deployments and the domains of applications, listed one after the other. -/
inductive AppLists :
    List ApplicationDto → (number : Nat) → List DeploymentDto → List DomainDto → Prop
  | nil {number : Nat} : AppLists [] number [] []
  | cons {app : ApplicationDto} {rest : List ApplicationDto} {number : Nat}
      {deployments deployments' : List DeploymentDto} {domains domains' : List DomainDto}
      (hdeployments : Lists wire transport secret wire.deployments (.deploymentAll app.id) number
        deployments)
      (hdomains : Lists wire transport secret wire.domains (.domainByApplicationId app.id)
        (after wire transport secret (.deploymentAll app.id) number) domains)
      (hrest : AppLists rest
        (after wire transport secret (.domainByApplicationId app.id)
          (after wire transport secret (.deploymentAll app.id) number)) deployments' domains') :
      AppLists (app :: rest) number (deployments ++ deployments') (domains ++ domains')

/-- What a provider lists for a sync: its projects and servers, and the deployments and domains
of the first fifty applications. -/
structure Provides (projects : List ProjectDto) (servers : List ServerDto)
    (deployments : List DeploymentDto) (domains : List DomainDto) : Prop where
  projectsListed : Lists wire transport secret wire.projects .projectAll 0 projects
  serversListed : Lists wire transport secret wire.servers .serverAll
    (after wire transport secret .projectAll 0) servers
  applicationsListed : AppLists wire transport secret
    ((flattenApplications projects).take maxApplicationsWalk)
    (after wire transport secret .serverAll (after wire transport secret .projectAll 0))
    deployments domains

variable {wire transport secret}

theorem chain_unique {path : String} {number : Nat} {cursor : Option String}
    {bodies bodies' : List Body} (h : Chain wire transport path secret number cursor bodies)
    (h' : Chain wire transport path secret number cursor bodies') : bodies = bodies' := by
  induction h generalizing bodies' with
  | last hpage =>
      cases h' with
      | last hpage' =>
          cases hpage.symm.trans hpage'
          rfl
      | next hpage' _ => cases hpage.symm.trans hpage'
  | next hpage _ ih =>
      cases h' with
      | last hpage' => cases hpage.symm.trans hpage'
      | next hpage' hrest' =>
          cases hpage.symm.trans hpage'
          rw [ih hrest']

theorem Lists.unique {α : Type} {decode : Body → Option (List α)} {endpoint : Endpoint}
    {number : Nat} {items items' : List α}
    (h : Lists wire transport secret decode endpoint number items)
    (h' : Lists wire transport secret decode endpoint number items') : items = items' := by
  obtain ⟨bodies, hchain, _, hitems⟩ := h
  obtain ⟨bodies', hchain', _, hitems'⟩ := h'
  obtain rfl := chain_unique hchain hchain'
  exact Option.some.inj (hitems.symm.trans hitems')

theorem AppLists.unique {apps : List ApplicationDto} {number : Nat}
    {deployments deployments' : List DeploymentDto} {domains domains' : List DomainDto}
    (h : AppLists wire transport secret apps number deployments domains)
    (h' : AppLists wire transport secret apps number deployments' domains') :
    deployments = deployments' ∧ domains = domains' := by
  induction h generalizing deployments' domains' with
  | nil =>
      cases h'
      exact ⟨rfl, rfl⟩
  | cons hdeployments hdomains _ ih =>
      cases h' with
      | cons hdeployments' hdomains' hrest' =>
          obtain ⟨rfl, rfl⟩ := ih hrest'
          rw [hdeployments.unique hdeployments', hdomains.unique hdomains']
          exact ⟨rfl, rfl⟩

theorem Provides.unique {projects projects' : List ProjectDto} {servers servers' : List ServerDto}
    {deployments deployments' : List DeploymentDto} {domains domains' : List DomainDto}
    (h : Provides wire transport secret projects servers deployments domains)
    (h' : Provides wire transport secret projects' servers' deployments' domains') :
    projects = projects' ∧ servers = servers' ∧ deployments = deployments' ∧
      domains = domains' := by
  obtain rfl := h.projectsListed.unique h'.projectsListed
  exact ⟨rfl, h.serversListed.unique h'.serversListed,
    h.applicationsListed.unique h'.applicationsListed⟩

theorem Through.unique {endpoints : List Endpoint} {number last last' : Nat}
    (h : Through wire transport secret endpoints number last)
    (h' : Through wire transport secret endpoints number last') : last = last' := by
  induction h with
  | done =>
      cases h'
      rfl
  | stops hnot =>
      cases h' with
      | stops => rfl
      | goes hheld _ => exact absurd hheld hnot
  | goes hheld _ ih =>
      cases h' with
      | stops hnot => exact absurd hheld hnot
      | goes _ hrest' => exact ih hrest'

/-! ## §3  What a sync reads -/

/-- Reading a list takes its pages, and gives what it holds or fails. -/
theorem list_cases {α : Type} (decode : Body → Option (List α)) (endpoint : Endpoint) (s : Sent) :
    ∃ t : Sent, t.requests = after wire transport secret endpoint s.requests ∧
      ((∃ items, Lists wire transport secret decode endpoint s.requests items ∧
        ∀ {β : Type} (next : List α → Sending β),
          (fetchPagesRaw wire transport secret endpoint >>= fun pages =>
            Attempt.ofExcept (parsePages decode pages) >>= next) s = next items t) ∨
      ((¬∃ items, Lists wire transport secret decode endpoint s.requests items) ∧
        ∃ f, ∀ {β : Type} (next : List α → Sending β),
          (fetchPagesRaw wire transport secret endpoint >>= fun pages =>
            Attempt.ofExcept (parsePages decode pages) >>= next) s = (.error f, t))) := by
  refine ⟨(fetchPagesRaw wire transport secret endpoint s).2, ?_, ?_⟩
  · show s.requests + asked wire transport endpoint.path secret s.requests = _
    rw [asked_eq_spread]
    rfl
  have hread : ∀ bodies,
      fetchPages wire transport endpoint.path secret s.requests = .ok bodies ↔ _ :=
    fun bodies => fetchPagesFrom_ok_iff
  have hstep : ∀ result : Except ClientError (List Body),
      fetchPages wire transport endpoint.path secret s.requests = result →
      fetchPagesRaw wire transport secret endpoint s =
        (result.mapError failure, (fetchPagesRaw wire transport secret endpoint s).2) := by
    rintro _ rfl
    rfl
  cases hfetch : fetchPages wire transport endpoint.path secret s.requests with
  | error e =>
      right
      refine ⟨?_, failure e, ?_⟩
      · rintro ⟨items, bodies, hchain, hlength, _⟩
        cases hfetch.symm.trans ((hread bodies).mpr ⟨hchain, hlength⟩)
      · intro β next
        rw [Attempt.bind_apply, hstep _ hfetch]
        rfl
  | ok bodies =>
      obtain ⟨hchain, hlength⟩ := (hread bodies).mp hfetch
      cases hparse : bodies.mapM decode with
      | none =>
          right
          refine ⟨?_, invalidResponse, ?_⟩
          · rintro ⟨items, bodies', hchain', _, hitems⟩
            obtain rfl := chain_unique hchain hchain'
            rw [hparse] at hitems
            cases hitems
          · intro β next
            rw [Attempt.bind_apply, hstep _ hfetch]
            show (Attempt.ofExcept (parsePages decode bodies) >>= next) _ = _
            unfold parsePages
            rw [hparse]
            rfl
      | some lists =>
          left
          refine ⟨lists.flatten, ⟨bodies, hchain, hlength, by rw [hparse]; rfl⟩, fun next => ?_⟩
          rw [Attempt.bind_apply, hstep _ hfetch]
          show (Attempt.ofExcept (parsePages decode bodies) >>= next) _ = _
          unfold parsePages
          rw [hparse]
          rfl

theorem spent_eq_false {walk : Walk} (h : walk.requestCount < requestBudget) :
    walk.spent = false := by
  unfold Walk.spent
  exact decide_eq_false (by omega)

/-- A turn with room in the budget for its two lists reads both, or fails at the first that is
not held. -/
theorem walkApplication_cases {app : ApplicationDto} {walk : Walk}
    (hroom : walk.requestCount + 2 ≤ requestBudget) (s : Sent) :
    ∃ t : Sent,
      (∃ deployments domains,
        Lists wire transport secret wire.deployments (.deploymentAll app.id) s.requests deployments ∧
        Lists wire transport secret wire.domains (.domainByApplicationId app.id)
          (after wire transport secret (.deploymentAll app.id) s.requests) domains ∧
        t.requests = after wire transport secret (.domainByApplicationId app.id)
          (after wire transport secret (.deploymentAll app.id) s.requests) ∧
        walkApplication wire transport secret app walk s =
          (.ok ((walk.addDeployments deployments).addDomains domains, false), t)) ∨
      ((¬∃ deployments domains,
        Lists wire transport secret wire.deployments (.deploymentAll app.id) s.requests deployments ∧
        Lists wire transport secret wire.domains (.domainByApplicationId app.id)
          (after wire transport secret (.deploymentAll app.id) s.requests) domains) ∧
        (∀ rest, Through wire transport secret (endpointsOf app ++ rest) s.requests t.requests) ∧
        ∃ f, walkApplication wire transport secret app walk s = (.error f, t)) := by
  unfold walkApplication
  rw [spent_eq_false (by omega), if_neg (by simp)]
  obtain ⟨t, ht, ⟨deployments, hdeployments, hread⟩ | ⟨hnot, f, hread⟩⟩ :=
    @list_cases wire transport secret _ wire.deployments (.deploymentAll app.id) s
  · rw [hread]
    -- the budget is looked at again between the two lists
    have hleft : (walk.addDeployments deployments).spent = false :=
      spent_eq_false (show walk.requestCount + 1 < requestBudget by omega)
    rw [hleft, if_neg (by simp)]
    obtain ⟨u, hu, ⟨domains, hdomains, hend⟩ | ⟨hnot, f, hend⟩⟩ :=
      @list_cases wire transport secret _ wire.domains (.domainByApplicationId app.id) t
    · rw [ht] at hu hdomains
      exact ⟨u, Or.inl ⟨deployments, domains, hdeployments, hdomains, hu, hend _⟩⟩
    · rw [ht] at hu hnot
      refine ⟨u, Or.inr ⟨?_, ?_, f, hend _⟩⟩
      · rintro ⟨_, domains, _, hdomains⟩
        exact hnot ⟨domains, hdomains⟩
      · intro rest
        rw [hu]
        exact .goes ⟨deployments, hdeployments⟩ (.stops hnot)
  · refine ⟨t, Or.inr ⟨?_, ?_, f, hread _⟩⟩
    · rintro ⟨deployments, _, hdeployments, _⟩
      exact hnot ⟨deployments, hdeployments⟩
    · intro rest
      rw [ht]
      exact .stops hnot

/-- A walk with room in the budget for two lists an application reads what is listed for them. -/
theorem walkApplications_cases {apps : List ApplicationDto} {walk : Walk}
    (hroom : walk.requestCount + 2 * apps.length ≤ requestBudget) (s : Sent) :
    ∃ t : Sent, Through wire transport secret (apps.flatMap endpointsOf) s.requests t.requests ∧
      ((∃ deployments domains walk',
        AppLists wire transport secret apps s.requests deployments domains ∧
        walk'.deployments = walk.deployments ++ deployments ∧
        walk'.domains = walk.domains ++ domains ∧
        walkApplications wire transport secret apps walk s = (.ok walk', t)) ∨
      ((¬∃ deployments domains,
          AppLists wire transport secret apps s.requests deployments domains) ∧
        ∃ f, walkApplications wire transport secret apps walk s = (.error f, t))) := by
  induction apps generalizing walk s with
  | nil =>
      exact ⟨s, .done, Or.inl ⟨[], [], walk, .nil, (List.append_nil _).symm,
        (List.append_nil _).symm, rfl⟩⟩
  | cons app rest ih =>
      rw [List.length_cons] at hroom
      unfold walkApplications
      rw [Attempt.bind_apply]
      obtain ⟨t, ⟨deployments, domains, hdeployments, hdomains, ht, hstep⟩ |
          ⟨hnot, hthrough, f, hstep⟩⟩ :=
        @walkApplication_cases wire transport secret app walk (by omega) s
      · rw [hstep]
        obtain ⟨u, hthrough, hrest⟩ :=
          @ih ((walk.addDeployments deployments).addDomains domains)
            (show walk.requestCount + 1 + 1 + _ ≤ _ by omega) t
        rw [ht] at hthrough hrest
        refine ⟨u, .goes ⟨deployments, hdeployments⟩ (.goes ⟨domains, hdomains⟩ hthrough), ?_⟩
        rcases hrest with ⟨deployments', domains', walk', happs, h₁, h₂, hend⟩ | ⟨hnot, f, hend⟩
        · refine Or.inl ⟨_, _, walk', .cons hdeployments hdomains happs, ?_, ?_, hend⟩
          · rw [h₁]
            exact List.append_assoc _ _ _
          · rw [h₂]
            exact List.append_assoc _ _ _
        · refine Or.inr ⟨?_, f, hend⟩
          rintro ⟨_, _, happs⟩
          cases happs with
          | cons _ _ happs => exact hnot ⟨_, _, happs⟩
      · rw [hstep]
        refine ⟨t, hthrough _, Or.inr ⟨?_, f, rfl⟩⟩
        rintro ⟨_, _, happs⟩
        cases happs with
        | cons hdeployments hdomains _ => exact hnot ⟨_, _, hdeployments, hdomains⟩

/-- The requests of a sync are those of the lists it goes through. -/
structure Sends (wire : Wire) (transport : Transport) (secret : List UInt8) (requests : Nat) :
    Prop where
  through : ∀ projects, Lists wire transport secret wire.projects .projectAll 0 projects →
    Through wire transport secret (endpointsAfter projects)
      (after wire transport secret .projectAll 0) requests
  projects : (¬∃ projects, Lists wire transport secret wire.projects .projectAll 0 projects) →
    requests = after wire transport secret .projectAll 0

/-- A sync collects what the provider lists for it. -/
theorem collect_cases :
    ∃ t : Sent, Sends wire transport secret t.requests ∧
      ((∃ c, Provides wire transport secret c.projects c.servers c.walk.deployments c.walk.domains ∧
        collect wire transport secret {} = (.ok c, t)) ∨
      ((∀ projects servers deployments domains,
        ¬Provides wire transport secret projects servers deployments domains) ∧
        ∃ f, collect wire transport secret {} = (.error f, t))) := by
  unfold collect
  obtain ⟨t, ht, ⟨projects, hprojects, hread⟩ | ⟨hnot, f, hread⟩⟩ :=
    @list_cases wire transport secret _ wire.projects .projectAll {}
  · rw [hread]
    have hsends : ∀ requests, Through wire transport secret (endpointsAfter projects)
        (after wire transport secret .projectAll 0) requests →
          Sends wire transport secret requests := by
      intro requests h
      refine ⟨fun projects' hprojects' => ?_, fun hnone => absurd ⟨projects, hprojects⟩ hnone⟩
      obtain rfl := hprojects.unique hprojects'
      exact h
    obtain ⟨u, hu, ⟨servers, hservers, hmore⟩ | ⟨hnot, f, hmore⟩⟩ :=
      @list_cases wire transport secret _ wire.servers .serverAll t
    · rw [ht] at hu hservers
      -- fifty applications at most, and two lists before them
      obtain ⟨v, hthrough, hwalked⟩ :=
        @walkApplications_cases wire transport secret
          ((flattenApplications projects).take maxApplicationsWalk)
          { requestCount := 2
            statusClassCounts :=
              addCount (addCount KeyedTable.empty "project" projects.length) "server"
                servers.length }
          (by
            have htake := List.length_take_le maxApplicationsWalk (flattenApplications projects)
            show 2 + 2 * _ ≤ 200
            have : maxApplicationsWalk = 50 := rfl
            omega) u
      rw [hu] at hthrough hwalked
      refine ⟨v, hsends _ (.goes ⟨servers, hservers⟩ hthrough), ?_⟩
      rw [hmore]
      rcases hwalked with ⟨deployments, domains, walk, happs, h₁, h₂, hend⟩ | ⟨hnot, f, hend⟩
      · refine Or.inl ⟨{ projects := projects, servers := servers, walk := walk }, ?_, ?_⟩
        · refine ⟨hprojects, hservers, ?_⟩
          rw [h₁, h₂]
          exact happs
        · rw [Attempt.bind_apply, hend]
          rfl
      · refine Or.inr ⟨?_, f, ?_⟩
        · rintro projects' _ _ _ ⟨hprojects', _, happs⟩
          obtain rfl := hprojects.unique hprojects'
          exact hnot ⟨_, _, happs⟩
        · rw [Attempt.bind_apply, hend]
    · rw [ht] at hu hnot
      refine ⟨u, hsends _ (hu ▸ .stops hnot), Or.inr ⟨?_, f, hmore _⟩⟩
      rintro _ servers _ _ ⟨_, hservers, _⟩
      exact hnot ⟨servers, hservers⟩
  · refine ⟨t, ⟨fun projects hprojects => absurd ⟨projects, hprojects⟩ hnot, fun _ => ht⟩,
      Or.inr ⟨?_, f, hread _⟩⟩
    rintro projects _ _ _ ⟨hprojects, _, _⟩
    exact hnot ⟨projects, hprojects⟩

theorem collect_sends :
    Sends wire transport secret (collect wire transport secret {}).2.requests := by
  obtain ⟨t, hsends, ⟨c, _, hcollect⟩ | ⟨_, f, hcollect⟩⟩ := @collect_cases wire transport secret
  · rw [hcollect]
    exact hsends
  · rw [hcollect]
    exact hsends

theorem provides_of_collect {c : Collected} {sent : Sent}
    (h : collect wire transport secret {} = (.ok c, sent)) :
    Provides wire transport secret c.projects c.servers c.walk.deployments c.walk.domains := by
  obtain ⟨t, _, ⟨c', hprovides, hcollect⟩ | ⟨_, f, hcollect⟩⟩ :=
    @collect_cases wire transport secret
  · cases h.symm.trans hcollect
    exact hprovides
  · cases h.symm.trans hcollect

end

end Dokploy

end NextInfra
