import NextInfra.GitHub.Links

/-!
# Following the pages of the API

The server chooses every URL after the first one, so what the loop of
`fetch_pages_with_budget` keeps to must hold of any answers: its budgets, no URL twice, the
token to the API only, one conditional request, and a result that is made of the pages that
were read. A run of the loop is a walk (`Walk`), a list of requests and their answers with
what the loop returns; every result below is by induction on it.
-/

namespace NextInfra

namespace GitHub

/-! ## §1  What has been sent -/

/-- The page an answer gives, if it succeeds. -/
def pageOf (answer : Except ConnectorFailure GitHubTransportResponse) : Option GitHubPage :=
  match answer with
  | .error _ => none
  | .ok response =>
      if response.isSuccess = true ∧ response.body.length ≤ maxResponseBodyBytes then
        some response.body
      else none

/-- No piece of the `Link` header announces a next page. -/
def NamesNoNext (response : GitHubTransportResponse) : Prop :=
  ∀ link, response.headers.link = some link → ∀ piece ∈ link.toList.splitOn ',', ¬ Announces piece

/-! ## §2  Walks -/

/-- What a turn that is the last one returns: the pages read so far with the one of its answer, if
it has one. All of them are returned as pages only if the answer names no next one. -/
structure Returns (pages : List GitHubPage)
    (answer : Except ConnectorFailure GitHubTransportResponse)
    (result : Except GitHubPaginationFailure GitHubFetch) : Prop where
  failed : ∀ failure, result = .error failure →
    failure.completedPages = pages ++ (pageOf answer).toList
  finished : ∀ fetched, result = .ok (.pages fetched) → ∃ response body,
    answer = .ok response ∧ NamesNoNext response ∧ pageOf answer = some body ∧
      fetched.pages = pages ++ [body]

/-- The loop before its next turn: the page is kept, the URL is one of the API. -/
structure Continues (wire : Wire) (w : Walking)
    (answer : Except ConnectorFailure GitHubTransportResponse) (w' : Walking) : Prop where
  kept : ∃ body, pageOf answer = some body ∧ w'.completedPages = w.completedPages ++ [body]
  validated : validateApiUrl wire w'.url = .ok ()
  seen : w'.seenUrls = w.url.text :: w.seenUrls
  counted : w'.requestSummary.requestCount = w.requestSummary.requestCount + 1

section

variable (wire : Wire) (transport : Transport) (endpointClass authorization : String)
  (requestEtag : Option String) (maxRequests : Nat)

/-- The runs of the loop. -/
inductive Walk : (left number : Nat) → Walking → List Sent →
    Except GitHubPaginationFailure GitHubFetch × Nat → Prop
  | stopped {left number : Nat} {w : Walking} (failure : ConnectorFailure) :
      Walk left number w [] (w.fail failure, number)
  | returned {left number : Nat} {w : Walking} {result}
      (hcount : w.requestSummary.requestCount < maxRequests) (hseen : w.url.text ∉ w.seenUrls)
      (hresult : Returns w.completedPages
        (transport number (w.request endpointClass authorization requestEtag)).answer result) :
      Walk (left + 1) number w
        [⟨w.request endpointClass authorization requestEtag,
          (transport number (w.request endpointClass authorization requestEtag)).answer⟩]
        (result, number + 1)
  | continued {left number : Nat} {w w' : Walking} {log : List Sent} {end_}
      (hcount : w.requestSummary.requestCount < maxRequests) (hseen : w.url.text ∉ w.seenUrls)
      (hturn : Continues wire w
        (transport number (w.request endpointClass authorization requestEtag)).answer w')
      (hrest : Walk left (number + 1) w' log end_) :
      Walk (left + 1) number w
        (⟨w.request endpointClass authorization requestEtag,
          (transport number (w.request endpointClass authorization requestEtag)).answer⟩ :: log)
        end_

end

theorem namesNoNext_iff {wire : Wire} {response : GitHubTransportResponse} :
    NamesNoNext response ↔
      ∀ link, response.headers.link = some link → nextUrl wire link = .ok none := by
  unfold NamesNoNext
  refine forall_congr' fun link => imp_congr_right fun _ => ?_
  rw [nextUrl_none_iff]
  unfold leads
  rw [List.map_eq_nil_iff, List.filter_eq_nil_iff]
  simp

/-- An answer that names a next page names one of the API. -/
theorem validated_of_nextUrl {wire : Wire} {link : String} {url : Url}
    (h : nextUrl wire link = .ok (some url)) : validateApiUrl wire url = .ok () := by
  rw [nextUrl_eq] at h
  rcases readTargets_ok wire h with ⟨_, hsome⟩ | ⟨target, found, _, _, hread, hsome⟩
  · cases hsome
  · cases hsome
    exact (readTarget_ok_iff.mp hread).2

/-- How a turn on an answered request goes on. -/
theorem receive_spec (wire : Wire) (w : Walking) (response : GitHubTransportResponse) (now : Nat) :
    (∃ result, w.receive wire response now = .done result ∧
      Returns w.completedPages (.ok response) result) ∨
    ∃ w', w.receive wire response now = .next w' ∧
      (∃ body, pageOf (.ok response) = some body ∧
        w'.completedPages = w.completedPages ++ [body]) ∧
      validateApiUrl wire w'.url = .ok () ∧ w'.seenUrls = w.seenUrls ∧
      w'.requestSummary = w.requestSummary := by
  have hfail : ∀ failure, pageOf (.ok response) = none →
      Returns w.completedPages (.ok response) (w.fail failure) := by
    intro failure hpage
    refine ⟨?_, fun _ h => by cases h⟩
    rintro _ h
    cases h
    rw [hpage]
    exact (List.append_nil _).symm
  by_cases h304 : response.status = 304
  · have hpage : pageOf (.ok response) = none := by
      unfold pageOf GitHubTransportResponse.isSuccess
      simp [h304]
    left
    by_cases hfirst : w.completedPages.isEmpty = false
    · exact ⟨_, by unfold Walking.receive; rw [if_pos h304, if_pos hfirst], hfail _ hpage⟩
    · refine ⟨_, by unfold Walking.receive; rw [if_pos h304, if_neg hfirst], ?_, ?_⟩
      · intro failure h
        cases h
      · intro fetched h
        cases h
  by_cases hsuccess : response.isSuccess = false
  · have hpage : pageOf (.ok response) = none := by
      unfold pageOf
      simp [hsuccess]
    exact .inl ⟨_, by unfold Walking.receive; rw [if_neg h304, if_pos hsuccess], hfail _ hpage⟩
  by_cases hbody : maxResponseBodyBytes < response.body.length
  · have hpage : pageOf (.ok response) = none := if_neg fun h => by omega
    exact .inl ⟨_, by unfold Walking.receive; rw [if_neg h304, if_neg hsuccess, if_pos hbody],
      hfail _ hpage⟩
  have hpage : pageOf (.ok response) = some response.body :=
    if_pos ⟨by simpa using hsuccess, by omega⟩
  unfold Walking.receive
  rw [if_neg h304, if_neg hsuccess, if_neg hbody]
  dsimp only
  cases hlink : response.headers.link with
  | none =>
      refine .inl ⟨_, rfl, ⟨(fun _ h => by cases h), ?_⟩⟩
      rintro _ h
      cases h
      exact ⟨response, response.body, rfl, (fun link h => by rw [hlink] at h; cases h),
        hpage, rfl⟩
  | some link =>
      dsimp only
      cases hnext : nextUrl wire link with
      | error failure =>
          refine .inl ⟨_, rfl, ⟨?_, fun _ h => by cases h⟩⟩
          rintro _ h
          cases h
          rw [hpage]
          rfl
      | ok next =>
          cases next with
          | none =>
              refine .inl ⟨_, rfl, ⟨(fun _ h => by cases h), ?_⟩⟩
              rintro _ h
              cases h
              refine ⟨response, response.body, rfl, (@namesNoNext_iff wire response).mpr ?_, hpage, rfl⟩
              intro link' h
              rw [hlink] at h
              cases h
              exact hnext
          | some url =>
              exact .inr ⟨_, rfl, ⟨response.body, hpage, rfl⟩, validated_of_nextUrl hnext, rfl, rfl⟩

/-- What the loop sends and returns is a walk, by induction on the pages it may still read. -/
theorem fetchPagesFrom_walk (wire : Wire) (transport : Transport)
    (endpointClass authorization : String) (requestEtag : Option String)
    (maxRequests left number : Nat) (w : Walking) :
    Walk wire transport endpointClass authorization requestEtag maxRequests left number w
      (sentFrom wire transport endpointClass authorization requestEtag maxRequests left number w)
      (fetchPagesFrom wire transport endpointClass authorization requestEtag maxRequests left
        number w) := by
  induction left generalizing number w with
  | zero => exact .stopped _
  | succ left ih =>
      unfold sentFrom fetchPagesFrom at ih ⊢
      rw [pagesFrom]
      by_cases hcount : maxRequests ≤ w.requestSummary.requestCount
      · rw [if_pos hcount]
        exact .stopped _
      rw [if_neg hcount]
      by_cases hseen : w.url.text ∈ w.seenUrls
      · rw [if_pos hseen]
        exact .stopped _
      rw [if_neg hseen]
      dsimp only
      cases hanswer : (transport number (w.request endpointClass authorization requestEtag)).answer with
      | error failure =>
          dsimp only
          rw [← hanswer]
          refine .returned (Nat.lt_of_not_le hcount) hseen ⟨?_, fun _ h => by cases h⟩
          rintro _ h
          cases h
          rw [hanswer]
          exact (List.append_nil _).symm
      | ok response =>
          dsimp only
          rcases receive_spec wire
            { w with
              seenUrls := w.url.text :: w.seenUrls
              requestSummary := answered (sentOne w.requestSummary) response } response
            (transport number (w.request endpointClass authorization requestEtag)).now with
            ⟨result, hdone, hreturns⟩ | ⟨w', hnext, hkept, hvalid, hseen', hsummary⟩
          · rw [hdone, ← hanswer]
            refine .returned (Nat.lt_of_not_le hcount) hseen ?_
            rw [hanswer]
            exact hreturns
          · rw [hnext, ← hanswer]
            refine .continued (Nat.lt_of_not_le hcount) hseen ⟨?_, hvalid, hseen', ?_⟩ (ih _ w')
            · rw [hanswer]
              exact hkept
            · rw [hsummary]
              rfl

/-! ## §3  What holds of every walk -/

/-- A URL the token may be sent to. -/
def Approved (wire : Wire) (url : Url) : Prop :=
  url.origin = wire.apiOrigin ∧ url.queryKeys.all isAllowedQueryKey = true

theorem approved_of_validateApiUrl {wire : Wire} {url : Url} (h : validateApiUrl wire url = .ok ()) :
    Approved wire url := by
  unfold validateApiUrl at h
  split at h
  · cases h
  split at h
  · cases h
  rename_i horigin hkeys
  simp only [not_or, not_not] at horigin
  exact ⟨horigin.1, by simpa using hkeys⟩

section

variable {wire : Wire} {transport : Transport} {endpointClass authorization : String}
  {requestEtag : Option String} {maxRequests left number : Nat} {w : Walking} {log : List Sent}
  {end_ : Except GitHubPaginationFailure GitHubFetch × Nat}

/-- A walk sends no more requests than are left, of pages and of requests. -/
theorem Walk.length_le
    (h : Walk wire transport endpointClass authorization requestEtag maxRequests left number w log
      end_) :
    log.length ≤ left ∧ (0 < log.length → w.requestSummary.requestCount + log.length ≤ maxRequests) ∧
      end_.2 = number + log.length := by
  induction h with
  | stopped failure => simp
  | returned hcount hseen hresult => simp; omega
  | continued hcount hseen hturn hrest ih =>
      obtain ⟨hleft, hrequests, hend⟩ := ih
      rw [hturn.counted] at hrequests
      refine ⟨by simpa using hleft, fun _ => ?_, by rw [hend, List.length_cons]; omega⟩
      rw [List.length_cons]
      omega

/-- The answers of a walk are those of the transport. -/
theorem Walk.answer_eq
    (h : Walk wire transport endpointClass authorization requestEtag maxRequests left number w log
      end_) :
    ∀ i sent, log[i]? = some sent → sent.answer = (transport (number + i) sent.request).answer := by
  induction h with
  | stopped failure =>
      intro i sent hsent
      simp at hsent
  | returned hcount hseen hresult =>
      intro i sent hsent
      cases i with
      | zero =>
          cases hsent
          rfl
      | succ i => simp at hsent
  | continued hcount hseen hturn hrest ih =>
      intro i sent hsent
      cases i with
      | zero =>
          cases hsent
          rfl
      | succ i =>
          rw [ih i sent hsent, Nat.add_right_comm]
          rfl

/-- No URL is requested twice, nor one that has been requested before. -/
theorem Walk.nodup
    (h : Walk wire transport endpointClass authorization requestEtag maxRequests left number w log
      end_) :
    (log.map fun sent => sent.request.url.text).Nodup ∧
      ∀ sent ∈ log, sent.request.url.text ∉ w.seenUrls := by
  induction h with
  | stopped failure => simp
  | returned hcount hseen hresult =>
      refine ⟨by simp, fun sent hsent => ?_⟩
      rw [List.mem_singleton.mp hsent]
      exact hseen
  | continued hcount hseen hturn hrest ih =>
      obtain ⟨hnodup, hfresh⟩ := ih
      rw [hturn.seen] at hfresh
      constructor
      · rw [List.map_cons, List.nodup_cons]
        refine ⟨fun hmem => ?_, hnodup⟩
        obtain ⟨sent, hsent, heq⟩ := List.mem_map.mp hmem
        exact hfresh sent hsent (by rw [heq]; exact List.mem_cons_self)
      · intro sent hsent
        rcases List.mem_cons.mp hsent with rfl | hsent
        · exact hseen
        · exact fun hmem => hfresh sent hsent (List.mem_cons_of_mem _ hmem)

/-- Only approved URLs are requested, if the first one is. -/
theorem Walk.approved
    (h : Walk wire transport endpointClass authorization requestEtag maxRequests left number w log
      end_) (hfirst : Approved wire w.url) : ∀ sent ∈ log, Approved wire sent.request.url := by
  induction h with
  | stopped failure => simp
  | returned hcount hseen hresult =>
      intro sent hsent
      rw [List.mem_singleton.mp hsent]
      exact hfirst
  | continued hcount hseen hturn hrest ih =>
      intro sent hsent
      rcases List.mem_cons.mp hsent with rfl | hsent
      · exact hfirst
      · exact ih (approved_of_validateApiUrl hturn.validated) sent hsent

/-- Once a page has been read, no request is conditional. -/
theorem Walk.unconditional
    (h : Walk wire transport endpointClass authorization requestEtag maxRequests left number w log
      end_) (hread : w.completedPages ≠ []) : ∀ sent ∈ log, sent.request.etag = none := by
  have hetag : ∀ {w : Walking}, w.completedPages ≠ [] →
      (w.request endpointClass authorization requestEtag).etag = none := by
    intro w hread
    unfold Walking.request
    rw [if_neg (by simpa using hread)]
  induction h with
  | stopped failure => simp
  | returned hcount hseen hresult =>
      intro sent hsent
      rw [List.mem_singleton.mp hsent]
      exact hetag hread
  | continued hcount hseen hturn hrest ih =>
      intro sent hsent
      rcases List.mem_cons.mp hsent with rfl | hsent
      · exact hetag hread
      · obtain ⟨body, _, hpages⟩ := hturn.kept
        exact ih (by rw [hpages]; simp) sent hsent

/-- The first request of a walk without pages is conditional, the others are not. -/
theorem Walk.conditional
    (h : Walk wire transport endpointClass authorization requestEtag maxRequests left number w log
      end_) (hread : w.completedPages = []) :
    ∀ i sent, log[i]? = some sent → sent.request.etag = if i = 0 then requestEtag else none := by
  have hetag : (w.request endpointClass authorization requestEtag).etag = requestEtag := by
    unfold Walking.request
    rw [if_pos (by rw [hread]; rfl)]
  cases h with
  | stopped failure =>
      intro i sent hsent
      simp at hsent
  | returned hcount hseen hresult =>
      intro i sent hsent
      cases i with
      | zero =>
          cases hsent
          exact hetag
      | succ i => simp at hsent
  | continued hcount hseen hturn hrest =>
      intro i sent hsent
      obtain ⟨body, _, hpages⟩ := hturn.kept
      cases i with
      | zero =>
          cases hsent
          exact hetag
      | succ i =>
          exact hrest.unconditional (by rw [hpages]; simp) sent (List.mem_of_getElem? hsent)

/-- A walk that fails returns the pages that succeeded. -/
theorem Walk.failed
    (h : Walk wire transport endpointClass authorization requestEtag maxRequests left number w log
      end_) : ∀ failure, end_.1 = .error failure →
      failure.completedPages = w.completedPages ++ log.filterMap fun sent => pageOf sent.answer := by
  induction h with
  | stopped failure =>
      rintro _ h
      cases h
      exact (List.append_nil _).symm
  | returned hcount hseen hresult =>
      intro failure h
      rw [hresult.failed failure h]
      cases hpage : pageOf _ <;> simp [hpage]
  | continued hcount hseen hturn hrest ih =>
      intro failure h
      obtain ⟨body, hpage, hpages⟩ := hturn.kept
      rw [ih failure h, hpages, List.filterMap_cons]
      simp [hpage]

/-- A walk that finishes returns the pages of all its answers, the last of which names no next
one. -/
theorem Walk.finished
    (h : Walk wire transport endpointClass authorization requestEtag maxRequests left number w log
      end_) : ∀ fetched, end_.1 = .ok (.pages fetched) →
      (∃ last response, log.getLast? = some last ∧ last.answer = .ok response ∧
        NamesNoNext response) ∧
      ∃ read, fetched.pages = w.completedPages ++ read ∧
        (log.map fun sent => pageOf sent.answer) = read.map some := by
  induction h with
  | stopped failure =>
      intro fetched h
      cases h
  | returned hcount hseen hresult =>
      intro fetched h
      obtain ⟨response, body, hanswer, hlast, hpage, hpages⟩ := hresult.finished fetched h
      exact ⟨⟨_, response, rfl, hanswer, hlast⟩, [body], hpages, by simp [hpage]⟩
  | continued hcount hseen hturn hrest ih =>
      intro fetched h
      obtain ⟨⟨last, response, hlast, hanswer, hnone⟩, read, hpages, hread⟩ := ih fetched h
      obtain ⟨body, hpage, hkept⟩ := hturn.kept
      refine ⟨⟨last, response, ?_, hanswer, hnone⟩, body :: read, ?_, ?_⟩
      · rw [List.getLast?_cons, hlast]
        rfl
      · rw [hpages, hkept, List.append_assoc]
        rfl
      · rw [List.map_cons, hread, List.map_cons, hpage]

end

/-! ## §4  Every fetch -/

/-- What the endpoints rely on in the URL library: a path without a query has no keys, and appended
pairs add theirs. -/
structure UrlLibrary (wire : Wire) : Prop where
  join_queryKeys : ∀ path url, path.toList.any (fun c => c == '?' || c == '#') = false →
    wire.join path = some url → url.queryKeys = []
  appendPairs_origin : ∀ url pairs, (wire.appendPairs url pairs).origin = url.origin
  appendPairs_queryKeys : ∀ url pairs,
    (wire.appendPairs url pairs).queryKeys = url.queryKeys ++ pairs.map Prod.fst

/-- An endpoint starts at an approved URL. -/
theorem UrlLibrary.approved_build {wire : Wire} (laws : UrlLibrary wire)
    {endpointClass path : String} {query : List (String × String)} {addDefaultPageSize : Bool}
    {endpoint : GitHubEndpoint}
    (h : GitHubEndpoint.build wire endpointClass path query addDefaultPageSize = .ok endpoint) :
    Approved wire endpoint.firstUrl := by
  unfold GitHubEndpoint.build at h
  split at h
  · cases h
  rename_i hpath
  simp only [not_or, Bool.not_eq_true] at hpath
  split at h
  · cases h
  rename_i url hjoin
  split at h
  · cases h
  rename_i horigin
  simp only [not_or, not_not] at horigin
  split at h
  · cases h
  rename_i hquery
  cases h
  constructor
  · rw [laws.appendPairs_origin]
    exact horigin.1
  · rw [laws.appendPairs_queryKeys, laws.join_queryKeys path url hpath.2.2.2 hjoin, List.nil_append,
      List.map_append, List.all_append, List.all_map, Bool.and_eq_true]
    refine ⟨by simpa using hquery, ?_⟩
    split
    · decide
    · rfl

/-- What a fetch keeps to, whatever the server answers: the requests sent from a number on, and
what is returned. -/
structure PaginatesSafely (wire : Wire) (transport : Transport) (etag : Option String)
    (budget : GitHubFetchBudget) (number : Nat) (log : List Sent)
    (result : Except GitHubPaginationFailure GitHubFetch × Nat) : Prop where
  bounded : log.length ≤ min budget.maxPages budget.maxRequests
  ends : result.2 = number + log.length
  answered : ∀ i sent, log[i]? = some sent →
    sent.answer = (transport (number + i) sent.request).answer
  nodup : (log.map fun sent => sent.request.url.text).Nodup
  approved : ∀ sent ∈ log, Approved wire sent.request.url
  conditional : ∀ i sent, log[i]? = some sent → sent.request.etag = if i = 0 then etag else none
  finished : ∀ fetched, result.1 = .ok (.pages fetched) →
    (∃ last response, log.getLast? = some last ∧ last.answer = .ok response ∧
      NamesNoNext response ∧
      ∀ entries, response.headers.link = some (linkHeader entries) → ∀ e ∈ entries, ¬ e.IsNext) ∧
    (log.map fun sent => pageOf sent.answer) = fetched.pages.map some
  failed : ∀ failure, result.1 = .error failure →
    failure.completedPages = log.filterMap fun sent => pageOf sent.answer

/-- A header of well-formed entries that announces no next page has no entry for one. -/
theorem NamesNoNext.entries {response : GitHubTransportResponse} (h : NamesNoNext response)
    {entries : List LinkEntry} (hlink : response.headers.link = some (linkHeader entries)) :
    ∀ e ∈ entries, ¬ e.IsNext := by
  rw [← leads_header_eq_nil_iff]
  unfold leads
  rw [List.map_eq_nil_iff, List.filter_eq_nil_iff]
  intro piece hpiece
  simpa using h _ hlink piece hpiece

/-- `fetch_pages_with_budget` keeps to its budget and to the API, asks for no page twice, and
returns what it has read, for every behaviour of the server. -/
theorem fetch_pages_safe (wire : Wire) (laws : UrlLibrary wire) (transport : Transport)
    (endpointClass path : String) (query : List (String × String)) (addDefaultPageSize : Bool)
    (endpoint : GitHubEndpoint)
    (hendpoint :
      GitHubEndpoint.build wire endpointClass path query addDefaultPageSize = .ok endpoint)
    (secret : List UInt8) (etag : Option String) (budget : GitHubFetchBudget) (number : Nat) :
    PaginatesSafely wire transport etag budget number
      (sentWithBudget wire transport endpoint secret etag budget number)
      (fetchPagesWithBudget wire transport endpoint secret etag budget number) := by
  have hnone : ∀ failure, PaginatesSafely wire transport etag budget number []
      (Walking.fail { url := endpoint.firstUrl } failure, number) := by
    intro failure
    refine ⟨by simp, rfl, by simp, by simp, by simp, by simp, ?_, ?_⟩
    · intro fetched h
      cases h
    · rintro _ h
      cases h
      rfl
  unfold sentWithBudget fetchPagesWithBudget
  cases headersOf wire secret etag with
  | error failure => exact hnone failure
  | ok authorization =>
      dsimp only
      have walk := fetchPagesFrom_walk wire transport endpoint.endpointClass authorization etag
        budget.maxRequests budget.maxPages number { url := endpoint.firstUrl }
      obtain ⟨hleft, hrequests, hend⟩ := walk.length_le
      refine ⟨?_, hend, walk.answer_eq, walk.nodup.1, walk.approved (laws.approved_build hendpoint),
        walk.conditional rfl, ?_, walk.failed⟩
      · refine Nat.le_min.mpr ⟨hleft, ?_⟩
        have hzero : ({ url := endpoint.firstUrl } : Walking).requestSummary.requestCount = 0 := rfl
        rw [hzero] at hrequests
        omega
      · intro fetched h
        obtain ⟨⟨last, response, hlast, hanswer, hnext⟩, read, hpages, hread⟩ := walk.finished fetched h
        refine ⟨⟨last, response, hlast, hanswer, hnext, fun entries => hnext.entries⟩, ?_⟩
        rw [hread, hpages]
        rfl

theorem apiWire_library : UrlLibrary apiWire where
  join_queryKeys := by
    rintro path url _ h
    cases h
    rfl
  appendPairs_origin _ _ := rfl
  appendPairs_queryKeys _ _ := rfl

/-- A server with two pages of repositories. -/
def twoPages : Transport := fun number _ =>
  { answer := .ok
      { status := 200
        headers :=
          { etag := none
            link :=
              if number = 0 then
                some "<https://api.github.com/user/repos?sort=full_name&page=2>; rel=\"next\""
              else none
            retryAfter := none
            rateLimitRemaining := none
            rateLimitReset := none }
        body := [91, 93]
        elapsedMs := 1 }
    now := 0 }

/-- Two requests read both pages. -/
theorem fetch_pages_safe_on_two_pages :
    (fetchPagesWithBudget apiWire twoPages
        { endpointClass := "repositories"
          firstUrl := apiUrl "https://api.github.com/user/repos?sort=full_name&per_page=100"
            ["sort", "per_page"] }
        [116] none ⟨20, 200, by decide, by decide⟩ 0).2 = 2 ∧
      PaginatesSafely apiWire twoPages none ⟨20, 200, by decide, by decide⟩ 0
        (sentWithBudget apiWire twoPages
          { endpointClass := "repositories"
            firstUrl := apiUrl "https://api.github.com/user/repos?sort=full_name&per_page=100"
              ["sort", "per_page"] }
          [116] none ⟨20, 200, by decide, by decide⟩ 0)
        (fetchPagesWithBudget apiWire twoPages
          { endpointClass := "repositories"
            firstUrl := apiUrl "https://api.github.com/user/repos?sort=full_name&per_page=100"
              ["sort", "per_page"] }
          [116] none ⟨20, 200, by decide, by decide⟩ 0) := by
  constructor
  · rfl
  · exact fetch_pages_safe apiWire apiWire_library twoPages "repositories" "/user/repos"
      [("sort", "full_name")] true _ rfl [116] none _ 0

end GitHub

end NextInfra
