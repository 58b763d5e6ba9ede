import NextInfra.GitHub.Connector

/-!
# Lists that are fetched page by page

An API that answers each URL one way while a sync lasts, and what a fetch from it can
come to: the list the API has from the first URL on, or no news since the tag that was
sent, or a failure. A fetch that is not exhausted goes the same way with more requests
to spend (`fetchPagesFrom_of_more`), and a tag that is no longer the page's changes
nothing (`fetchPagesFrom_unmatched`).
-/

namespace NextInfra

namespace GitHub

/-! ## §1  The API -/

/-- What the API answers where no tag is sent, by credential and URL. It tells nobody
that nothing has changed without being asked, and tags are texts a header can hold. -/
structure Api (wire : Wire) where
  respond : String → String → Except ConnectorFailure GitHubTransportResponse
  now : Nat
  modified : ∀ authorization url response, respond authorization url = .ok response →
    response.status ≠ 304
  tagged : ∀ authorization url response etag, respond authorization url = .ok response →
    response.headers.etag = some etag → wire.isHeaderText etag = true

namespace Api

variable {wire : Wire}

/-- The page is the one the tag was issued for. -/
def Matches (request : GitHubTransportRequest) (response : GitHubTransportResponse) : Prop :=
  response.isSuccess = true ∧ request.etag.isSome = true ∧ request.etag = response.headers.etag

instance (request : GitHubTransportRequest) (response : GitHubTransportResponse) :
    Decidable (Matches request response) :=
  inferInstanceAs (Decidable (_ ∧ _ ∧ _))

def answer (api : Api wire) (request : GitHubTransportRequest) :
    Except ConnectorFailure GitHubTransportResponse :=
  match api.respond request.authorization request.url.text with
  | .error failure => .error failure
  | .ok response =>
      if Matches request response then
        .ok { response with status := 304, body := [] }
      else .ok response

def transport (api : Api wire) : Transport := fun _ request =>
  { answer := api.answer request, now := api.now }

theorem answer_error {api : Api wire} {request : GitHubTransportRequest}
    {failure : ConnectorFailure}
    (h : api.respond request.authorization request.url.text = .error failure) :
    api.answer request = .error failure := by
  unfold answer
  rw [h]

theorem answer_matched {api : Api wire} {request : GitHubTransportRequest}
    {response : GitHubTransportResponse}
    (h : api.respond request.authorization request.url.text = .ok response)
    (hmatch : Matches request response) :
    api.answer request = .ok { response with status := 304, body := [] } := by
  unfold answer
  rw [h]
  exact if_pos hmatch

theorem answer_unmatched {api : Api wire} {request : GitHubTransportRequest}
    {response : GitHubTransportResponse}
    (h : api.respond request.authorization request.url.text = .ok response)
    (hmatch : ¬ Matches request response) : api.answer request = .ok response := by
  unfold answer
  rw [h]
  exact if_neg hmatch

end Api

/-! ## §2  Lists -/

def GitHubTransportResponse.next (wire : Wire) (response : GitHubTransportResponse) :
    Except ConnectorFailure (Option Url) :=
  match response.headers.link with
  | some link => nextUrl wire link
  | none => .ok none

/-- The pages the API has from a URL on, and the first tag among them. -/
inductive Lists (wire : Wire) (api : Api wire) (authorization : String) :
    String → List GitHubPage → Option String → Prop
  | last {url : String} {response : GitHubTransportResponse}
      (answer : api.respond authorization url = .ok response)
      (success : response.isSuccess = true)
      (fits : response.body.length ≤ maxResponseBodyBytes)
      (ends : response.next wire = .ok none) :
      Lists wire api authorization url [response.body] response.headers.etag
  | more {url : String} {response : GitHubTransportResponse} {next : Url}
      {pages : List GitHubPage} {etag : Option String}
      (answer : api.respond authorization url = .ok response)
      (success : response.isSuccess = true)
      (fits : response.body.length ≤ maxResponseBodyBytes)
      (goes : response.next wire = .ok (some next))
      (rest : Lists wire api authorization next.text pages etag) :
      Lists wire api authorization url (response.body :: pages) (response.headers.etag.or etag)

section

variable {wire : Wire} {api : Api wire} {authorization : String}

theorem Lists.unique {url : String} {pages pages' : List GitHubPage} {etag etag' : Option String}
    (h : Lists wire api authorization url pages etag)
    (h' : Lists wire api authorization url pages' etag') : pages = pages' ∧ etag = etag' := by
  induction h generalizing pages' etag' with
  | last answer success fits ends =>
      cases h' with
      | last answer' success' fits' ends' =>
          cases answer.symm.trans answer'
          exact ⟨rfl, rfl⟩
      | more answer' success' fits' goes' rest' =>
          cases answer.symm.trans answer'
          cases ends.symm.trans goes'
  | more answer success fits goes rest ih =>
      cases h' with
      | last answer' success' fits' ends' =>
          cases answer.symm.trans answer'
          cases goes.symm.trans ends'
      | more answer' success' fits' goes' rest' =>
          cases answer.symm.trans answer'
          cases goes.symm.trans goes'
          obtain ⟨rfl, rfl⟩ := ih rest'
          exact ⟨rfl, rfl⟩

theorem Lists.tagged {url : String} {pages : List GitHubPage} {etag : Option String}
    (h : Lists wire api authorization url pages etag) : ∀ tag, etag = some tag →
      wire.isHeaderText tag = true := by
  induction h with
  | last answer success fits ends => exact fun tag htag => api.tagged _ _ _ tag answer htag
  | more answer success fits goes rest ih =>
      intro tag htag
      rcases Option.or_eq_some_iff.mp htag with hhere | ⟨_, hlater⟩
      · exact api.tagged _ _ _ tag answer hhere
      · exact ih tag hlater

end

/-! ## §3  One turn of the loop -/

section

variable (wire : Wire) (api : Api wire) (endpointClass authorization : String)
  (requestEtag : Option String) (maxRequests : Nat)

/-- A request sent and answered. -/
def Walking.turn (w : Walking) : Turn :=
  let sent :=
    { w with
      seenUrls := w.url.text :: w.seenUrls
      requestSummary := sentOne w.requestSummary }
  match api.answer (w.request endpointClass authorization requestEtag) with
  | .error failure => .done (sent.fail failure)
  | .ok response =>
      { sent with requestSummary := answered sent.requestSummary response }.receive wire response
        api.now

theorem fetchPagesFrom_succ (left number : Nat) (w : Walking) :
    fetchPagesFrom wire api.transport endpointClass authorization requestEtag maxRequests
        (left + 1) number w =
      if maxRequests ≤ w.requestSummary.requestCount then (w.fail budgetExceeded, number)
      else if w.url.text ∈ w.seenUrls then
        (w.fail (invalidResponse "GitHub pagination contains a cycle"), number)
      else
        match w.turn wire api endpointClass authorization requestEtag with
        | .done result => (result, number + 1)
        | .next w =>
            fetchPagesFrom wire api.transport endpointClass authorization requestEtag maxRequests
              left (number + 1) w := by
  unfold fetchPagesFrom Walking.turn
  rw [pagesFrom]
  split
  · rfl
  split
  · rfl
  unfold Api.transport
  simp only
  cases api.answer (w.request endpointClass authorization requestEtag) with
  | error failure => rfl
  | ok response =>
      simp only
      cases hreceive : Walking.receive wire
          { w with
            seenUrls := w.url.text :: w.seenUrls
            requestSummary := answered (sentOne w.requestSummary) response }
          response api.now with
      | done result => rfl
      | next w => rfl

/-- How a turn ends: with a failure, with pages unchanged, with the last page, or with a
page that names the next one. Each has sent one request. -/
inductive Walking.Turns (w : Walking) : Turn → Prop
  | fails {w' : Walking} (failure : ConnectorFailure)
      (sent : w'.requestSummary.requestCount = w.requestSummary.requestCount + 1) :
      Turns w (.done (w'.fail failure))
  | unchanged {response : GitHubTransportResponse} {summary : ProviderRequestSummary}
      (none_read : w.completedPages = [])
      (answer : api.respond authorization w.url.text = .ok response)
      (same : Api.Matches (w.request endpointClass authorization requestEtag) response)
      (sent : summary.requestCount = w.requestSummary.requestCount + 1) :
      Turns w (.done (.ok (.notModified response.headers.etag summary)))
  | ends {response : GitHubTransportResponse} {summary : ProviderRequestSummary}
      (answer : api.respond authorization w.url.text = .ok response)
      (success : response.isSuccess = true)
      (fits : response.body.length ≤ maxResponseBodyBytes)
      (last : response.next wire = .ok none)
      (sent : summary.requestCount = w.requestSummary.requestCount + 1) :
      Turns w (.done (.ok (.pages
        { pages := w.completedPages ++ [response.body]
          etag := w.firstEtag.or response.headers.etag
          requestSummary := summary })))
  | goes {response : GitHubTransportResponse} {next : Url} {w' : Walking}
      (answer : api.respond authorization w.url.text = .ok response)
      (success : response.isSuccess = true)
      (fits : response.body.length ≤ maxResponseBodyBytes)
      (more : response.next wire = .ok (some next))
      (url : w'.url = next)
      (pages : w'.completedPages = w.completedPages ++ [response.body])
      (etag : w'.firstEtag = w.firstEtag.or response.headers.etag)
      (seen : w'.seenUrls = w.url.text :: w.seenUrls)
      (sent : w'.requestSummary.requestCount = w.requestSummary.requestCount + 1) :
      Turns w (.next w')

end

section

variable {wire : Wire} {api : Api wire} {endpointClass authorization : String}
  {requestEtag : Option String} {maxRequests : Nat}

/-- One more page has been read. -/
def Walking.read (w : Walking) (response : GitHubTransportResponse) : Walking :=
  { w with
    completedPages := w.completedPages ++ [response.body]
    firstEtag := w.firstEtag.or response.headers.etag }

theorem Walking.receive_read (w : Walking) {response : GitHubTransportResponse} {now : Nat}
    (hstatus : response.status ≠ 304) (hsuccess : response.isSuccess = true)
    (hfits : response.body.length ≤ maxResponseBodyBytes) :
    w.receive wire response now =
      match response.next wire with
      | .error failure => .done ((w.read response).fail failure)
      | .ok (some url) => .next { w.read response with url := url }
      | .ok none =>
          .done (.ok (.pages
            { pages := (w.read response).completedPages
              etag := (w.read response).firstEtag
              requestSummary := w.requestSummary })) := by
  have hsuccess' : ¬ response.isSuccess = false := by simp [hsuccess]
  unfold Walking.receive
  rw [if_neg hstatus, if_neg hsuccess', if_neg (Nat.not_lt.mpr hfits)]
  unfold GitHubTransportResponse.next
  cases response.headers.link with
  | none => rfl
  | some link =>
      simp only
      cases nextUrl wire link with
      | error failure => rfl
      | ok next =>
          cases next with
          | none => rfl
          | some url => rfl

theorem Walking.turn_cases (w : Walking) :
    w.Turns wire api endpointClass authorization requestEtag
      (w.turn wire api endpointClass authorization requestEtag) := by
  unfold Walking.turn
  simp only
  cases hanswer : api.respond authorization w.url.text with
  | error failure =>
      rw [@Api.answer_error wire api (w.request endpointClass authorization requestEtag) failure
        hanswer]
      exact .fails failure rfl
  | ok response =>
      by_cases hmatch : Api.Matches (w.request endpointClass authorization requestEtag) response
      · rw [Api.answer_matched hanswer hmatch]
        simp only
        unfold Walking.receive
        rw [if_pos rfl]
        split
        · exact .fails _ rfl
        · rename_i hempty
          have hnone : w.completedPages = [] := by simpa using hempty
          have hunchanged : w.Turns wire api endpointClass authorization requestEtag
              (.done (.ok (.notModified response.headers.etag
                (answered (sentOne w.requestSummary) { response with status := 304, body := [] })))) :=
            .unchanged hnone hanswer hmatch rfl
          exact hunchanged
      · rw [Api.answer_unmatched hanswer hmatch]
        simp only
        have hstatus : response.status ≠ 304 := api.modified _ _ _ hanswer
        by_cases hsuccess : response.isSuccess = true
        · by_cases hfits : response.body.length ≤ maxResponseBodyBytes
          · rw [Walking.receive_read _ hstatus hsuccess hfits]
            cases hnext : response.next wire with
            | error failure => exact .fails failure rfl
            | ok next =>
                cases next with
                | none => exact .ends hanswer hsuccess hfits hnext rfl
                | some url => exact .goes hanswer hsuccess hfits hnext rfl rfl rfl rfl rfl
          · unfold Walking.receive
            rw [if_neg hstatus, if_neg (by simp [hsuccess]), if_pos (Nat.lt_of_not_le hfits)]
            exact .fails _ rfl
        · unfold Walking.receive
          rw [if_neg hstatus, if_pos (by simpa using hsuccess)]
          exact .fails _ rfl

/-- After the first page no request is conditional. -/
theorem Walking.turn_unconditional {w : Walking} (hread : w.completedPages ≠ [])
    (etag etag' : Option String) :
    w.turn wire api endpointClass authorization etag =
      w.turn wire api endpointClass authorization etag' := by
  have hrequest : w.request endpointClass authorization etag =
      w.request endpointClass authorization etag' := by
    unfold Walking.request
    rw [if_neg (by simpa using hread), if_neg (by simpa using hread)]
  unfold Walking.turn
  rw [hrequest]

/-- A tag the page does not have changes nothing. -/
theorem Walking.turn_unmatched {w : Walking} (etag : Option String)
    (h : ∀ response, api.respond authorization w.url.text = .ok response →
      ¬ Api.Matches (w.request endpointClass authorization etag) response) :
    w.turn wire api endpointClass authorization etag =
      w.turn wire api endpointClass authorization none := by
  have hplain : ∀ response,
      ¬ Api.Matches (w.request endpointClass authorization none) response := by
    intro response hmatch
    have hsome := hmatch.2.1
    unfold Walking.request at hsome
    split at hsome
    · cases hsome
    · cases hsome
  have hanswer : api.answer (w.request endpointClass authorization etag) =
      api.answer (w.request endpointClass authorization none) := by
    cases hrespond : api.respond authorization w.url.text with
    | error failure => rw [Api.answer_error hrespond, Api.answer_error hrespond]
    | ok response =>
        rw [Api.answer_unmatched hrespond (h response hrespond),
          Api.answer_unmatched hrespond (hplain response)]
  unfold Walking.turn
  rw [hanswer]

/-! ## §4  A fetch -/

/-- The fetch has run out of pages or of requests. -/
def Exhausted {α : Type} (result : Except GitHubPaginationFailure α) : Prop :=
  ∃ failure, result = .error failure ∧ failure.failure = budgetExceeded

instance {α : Type} (result : Except GitHubPaginationFailure α) : Decidable (Exhausted result) :=
  match result with
  | .ok _ => isFalse nofun
  | .error failure =>
      decidable_of_iff (failure.failure = budgetExceeded)
        ⟨fun h => ⟨failure, rfl, h⟩, fun ⟨_, heq, h⟩ => Except.error.inj heq ▸ h⟩

/-- What a fetch has sent. -/
def summaryOf : Except GitHubPaginationFailure GitHubFetch → ProviderRequestSummary
  | .error failure => failure.requestSummary
  | .ok (.notModified _ summary) => summary
  | .ok (.pages pages) => pages.requestSummary

/-- How a fetch goes, turn by turn. -/
inductive Fetches (wire : Wire) (api : Api wire) (endpointClass authorization : String)
    (requestEtag : Option String) :
    Nat → Nat → Walking → Except GitHubPaginationFailure GitHubFetch × Nat → Prop
  | exhausted (left number : Nat) (w : Walking) :
      Fetches wire api endpointClass authorization requestEtag left number w
        (w.fail budgetExceeded, number)
  | cycles {left number : Nat} {w : Walking} (seen : w.url.text ∈ w.seenUrls)
      (failure : ConnectorFailure) :
      Fetches wire api endpointClass authorization requestEtag left number w
        (w.fail failure, number)
  | returns {left number : Nat} {w : Walking}
      {result : Except GitHubPaginationFailure GitHubFetch}
      (turn : w.Turns wire api endpointClass authorization requestEtag (.done result)) :
      Fetches wire api endpointClass authorization requestEtag left number w (result, number + 1)
  | continues {left number : Nat} {w w' : Walking}
      {end_ : Except GitHubPaginationFailure GitHubFetch × Nat}
      (turn : w.Turns wire api endpointClass authorization requestEtag (.next w'))
      (rest : Fetches wire api endpointClass authorization requestEtag left (number + 1) w' end_) :
      Fetches wire api endpointClass authorization requestEtag (left + 1) number w end_

theorem fetchPagesFrom_fetches (left number : Nat) (w : Walking) :
    Fetches wire api endpointClass authorization requestEtag left number w
      (fetchPagesFrom wire api.transport endpointClass authorization requestEtag maxRequests left
        number w) := by
  induction left generalizing number w with
  | zero => exact .exhausted 0 number w
  | succ left ih =>
      rw [fetchPagesFrom_succ]
      split
      · exact .exhausted _ number w
      split
      · rename_i hseen
        exact .cycles hseen _
      have hturns : w.Turns wire api endpointClass authorization requestEtag
        (w.turn wire api endpointClass authorization requestEtag) := w.turn_cases
      generalize w.turn wire api endpointClass authorization requestEtag = turn at hturns
      cases turn with
      | done result => exact .returns hturns
      | next w' => exact .continues hturns (ih (number + 1) w')

variable {left number : Nat} {w : Walking}
  {end_ : Except GitHubPaginationFailure GitHubFetch × Nat}

/-- The numbers of the requests and their count go together. -/
theorem Fetches.counted
    (h : Fetches wire api endpointClass authorization requestEtag left number w end_) :
    end_.2 + w.requestSummary.requestCount =
      number + (summaryOf end_.1).requestCount := by
  induction h with
  | exhausted left number w => rfl
  | cycles seen failure => rfl
  | returns turn =>
      rename_i number w result
      have hsent : (summaryOf result).requestCount = w.requestSummary.requestCount + 1 := by
        cases turn with
        | fails failure sent => exact sent
        | unchanged none_read answer same sent => exact sent
        | ends answer success fits last sent => exact sent
      show number + 1 + w.requestSummary.requestCount = number + (summaryOf result).requestCount
      omega
  | continues turn rest ih =>
      cases turn with
      | goes answer success fits more url pages etag seen sent => omega

/-- Pages are read by at least one request. -/
theorem Fetches.counted_pos
    (h : Fetches wire api endpointClass authorization requestEtag left number w end_)
    {fetched : GitHubPages} (hresult : end_.1 = .ok (.pages fetched)) :
    w.requestSummary.requestCount < fetched.requestSummary.requestCount := by
  induction h with
  | exhausted left number w => cases hresult
  | cycles seen failure => cases hresult
  | returns turn =>
      cases hresult
      cases turn with
      | ends answer success fits last sent =>
          show _ < ProviderRequestSummary.requestCount _
          rw [sent]
          exact Nat.lt_succ_self _
  | continues turn rest ih =>
      have hlater := ih hresult
      cases turn with
      | goes answer success fits more url pages etag seen sent => omega

/-- Pages that are fetched are pages the API has. -/
theorem Fetches.lists
    (h : Fetches wire api endpointClass authorization requestEtag left number w end_)
    {fetched : GitHubPages} (hresult : end_.1 = .ok (.pages fetched)) :
    ∃ rest etag, fetched.pages = w.completedPages ++ rest ∧ fetched.etag = w.firstEtag.or etag ∧
      Lists wire api authorization w.url.text rest etag := by
  induction h with
  | exhausted left number w => cases hresult
  | cycles seen failure => cases hresult
  | returns turn =>
      cases hresult
      cases turn with
      | ends answer success fits last sent =>
          exact ⟨_, _, rfl, rfl, .last answer success fits last⟩
  | continues turn rest ih =>
      obtain ⟨more, tag, hpages, hetag, hlists⟩ := ih hresult
      cases turn with
      | goes answer success fits goes url pages etag seen sent =>
          rw [pages] at hpages
          rw [etag, Option.or_assoc] at hetag
          rw [url] at hlists
          refine ⟨_ :: more, _, ?_, hetag, .more answer success fits goes hlists⟩
          rw [hpages, List.append_assoc]
          rfl

/-- Only the first page can be unchanged, and only by the tag that was sent. -/
theorem Fetches.unchanged
    (h : Fetches wire api endpointClass authorization requestEtag left number w end_)
    {etag : Option String} {summary : ProviderRequestSummary}
    (hresult : end_.1 = .ok (.notModified etag summary)) :
    w.completedPages = [] ∧ ∃ response, api.respond authorization w.url.text = .ok response ∧
      Api.Matches (w.request endpointClass authorization requestEtag) response ∧
      summary.requestCount = w.requestSummary.requestCount + 1 := by
  induction h with
  | exhausted left number w => cases hresult
  | cycles seen failure => cases hresult
  | returns turn =>
      cases hresult
      cases turn with
      | unchanged none_read answer same sent => exact ⟨none_read, _, answer, same, sent⟩
  | continues turn rest ih =>
      obtain ⟨hnone, _⟩ := ih hresult
      cases turn with
      | goes answer success fits goes url pages etag seen sent =>
          rw [pages] at hnone
          simp at hnone

/-- A request without a tag is answered in full. -/
theorem Walking.not_matches (hplain : w.completedPages ≠ [] ∨ requestEtag = none)
    (response : GitHubTransportResponse) :
    ¬ Api.Matches (w.request endpointClass authorization requestEtag) response := by
  have hnone : (w.request endpointClass authorization requestEtag).etag = none := by
    unfold Walking.request
    rcases hplain with hread | rfl
    · rw [if_neg (by simpa using hread)]
    · simp
  intro hmatch
  have hsome := hmatch.2.1
  rw [hnone] at hsome
  cases hsome

theorem Walking.turn_read {response : GitHubTransportResponse}
    (hplain : w.completedPages ≠ [] ∨ requestEtag = none)
    (answer : api.respond authorization w.url.text = .ok response)
    (success : response.isSuccess = true)
    (fits : response.body.length ≤ maxResponseBodyBytes) :
    (response.next wire = .ok none → ∃ summary,
      w.turn wire api endpointClass authorization requestEtag = .done (.ok (.pages
        { pages := w.completedPages ++ [response.body]
          etag := w.firstEtag.or response.headers.etag
          requestSummary := summary }))) ∧
    ∀ next, response.next wire = .ok (some next) → ∃ w',
      w.turn wire api endpointClass authorization requestEtag = .next w' ∧ w'.url = next ∧
        w'.completedPages = w.completedPages ++ [response.body] ∧
        w'.firstEtag = w.firstEtag.or response.headers.etag ∧
        w'.seenUrls = w.url.text :: w.seenUrls := by
  have hanswer : api.answer (w.request endpointClass authorization requestEtag) = .ok response :=
    Api.answer_unmatched answer (w.not_matches hplain response)
  unfold Walking.turn
  simp only
  rw [hanswer]
  simp only
  rw [Walking.receive_read _ (api.modified _ _ _ answer) success fits]
  refine ⟨fun hnext => ?_, fun next hnext => ?_⟩
  · rw [hnext]
    exact ⟨_, rfl⟩
  · rw [hnext]
    exact ⟨_, rfl, rfl, rfl, rfl, rfl⟩

/-- A fetch that is not exhausted reads the list the API has. -/
theorem fetchPagesFrom_of_lists {url : String} {pages : List GitHubPage} {etag : Option String}
    (h : Lists wire api authorization url pages etag) :
    ∀ (left number : Nat) (w : Walking), w.url.text = url →
      (w.completedPages ≠ [] ∨ requestEtag = none) →
      (∀ seen ∈ w.seenUrls, ∃ longer tag, Lists wire api authorization seen longer tag ∧
        pages.length < longer.length) →
      Exhausted (fetchPagesFrom wire api.transport endpointClass authorization requestEtag
          maxRequests left number w).1 ∨
        ∃ summary, (fetchPagesFrom wire api.transport endpointClass authorization requestEtag
          maxRequests left number w).1 =
            .ok (.pages
              { pages := w.completedPages ++ pages
                etag := w.firstEtag.or etag
                requestSummary := summary }) := by
  induction h with
  | last answer success fits ends =>
      intro left number w hurl hplain hfresh
      cases left with
      | zero => exact Or.inl ⟨_, rfl, rfl⟩
      | succ left =>
          rw [fetchPagesFrom_succ]
          split
          · exact Or.inl ⟨_, rfl, rfl⟩
          split
          · rename_i hseen
            obtain ⟨longer, tag, hlonger, hlt⟩ := hfresh _ hseen
            rw [hurl] at hlonger
            obtain ⟨rfl, _⟩ := hlonger.unique (.last answer success fits ends)
            exact absurd hlt (Nat.lt_irrefl _)
          rw [← hurl] at answer
          obtain ⟨summary, hturn⟩ :=
            (@Walking.turn_read wire api endpointClass _ _ w _ hplain answer success fits).1 ends
          rw [hturn]
          exact Or.inr ⟨summary, rfl⟩
  | more answer success fits goes rest ih =>
      rename_i following tag
      intro left number w hurl hplain hfresh
      cases left with
      | zero => exact Or.inl ⟨_, rfl, rfl⟩
      | succ left =>
          rw [fetchPagesFrom_succ]
          split
          · exact Or.inl ⟨_, rfl, rfl⟩
          split
          · rename_i hseen
            obtain ⟨longer, tag, hlonger, hlt⟩ := hfresh _ hseen
            rw [hurl] at hlonger
            obtain ⟨rfl, _⟩ := hlonger.unique (.more answer success fits goes rest)
            exact absurd hlt (Nat.lt_irrefl _)
          have hhere := Lists.more answer success fits goes rest
          rw [← hurl] at answer hhere
          obtain ⟨w', hturn, hnext, hpages, hetag, hseen⟩ :=
            (@Walking.turn_read wire api endpointClass _ _ w _ hplain answer success fits).2 _ goes
          rw [hturn]
          simp only
          have hread : w'.completedPages ≠ [] := by simp [hpages]
          have hlonger : ∀ seen ∈ w'.seenUrls, ∃ longer tag,
              Lists wire api authorization seen longer tag ∧ following.length < longer.length := by
            intro seen hmem
            rw [hseen] at hmem
            rcases List.mem_cons.mp hmem with rfl | hmem
            · exact ⟨_, _, hhere, Nat.lt_succ_self _⟩
            · obtain ⟨longer, tag, hlonger, hlt⟩ := hfresh seen hmem
              exact ⟨longer, tag, hlonger, Nat.lt_of_succ_lt hlt⟩
          rcases ih left (number + 1) w' (by rw [hnext]) (Or.inl hread) hlonger with hend | hend
          · exact Or.inl hend
          · obtain ⟨summary, hend⟩ := hend
            refine Or.inr ⟨summary, ?_⟩
            rw [hend, hpages, hetag, List.append_assoc, Option.or_assoc, List.singleton_append]

/-- With more requests to spend, a fetch that was not exhausted goes the same way. -/
theorem fetchPagesFrom_of_more {maxRequests' : Nat} (hle : maxRequests ≤ maxRequests') :
    ∀ (left number number' : Nat) (w : Walking),
      ¬ Exhausted (fetchPagesFrom wire api.transport endpointClass authorization requestEtag
        maxRequests left number w).1 →
      (fetchPagesFrom wire api.transport endpointClass authorization requestEtag maxRequests' left
          number' w).1 =
        (fetchPagesFrom wire api.transport endpointClass authorization requestEtag maxRequests left
          number w).1 := by
  intro left
  induction left with
  | zero => exact fun _ _ w hend => absurd ⟨_, rfl, rfl⟩ hend
  | succ left ih =>
      intro number number' w hend
      rw [fetchPagesFrom_succ] at hend ⊢
      rw [fetchPagesFrom_succ]
      by_cases hspent : maxRequests ≤ w.requestSummary.requestCount
      · rw [if_pos hspent] at hend
        exact absurd ⟨_, rfl, rfl⟩ hend
      · have hspent' : ¬ maxRequests' ≤ w.requestSummary.requestCount := by omega
        rw [if_neg hspent] at hend ⊢
        rw [if_neg hspent']
        by_cases hseen : w.url.text ∈ w.seenUrls
        · rw [if_pos hseen, if_pos hseen]
        · rw [if_neg hseen] at hend ⊢
          rw [if_neg hseen]
          cases hturn : w.turn wire api endpointClass authorization requestEtag with
          | done result => rfl
          | next w' =>
              rw [hturn] at hend
              exact ih (number + 1) (number' + 1) w' hend

/-- A tag the first page does not have changes nothing. -/
theorem fetchPagesFrom_unmatched (left number : Nat)
    (h : ∀ response, api.respond authorization w.url.text = .ok response →
      ¬ Api.Matches (w.request endpointClass authorization requestEtag) response) :
    fetchPagesFrom wire api.transport endpointClass authorization requestEtag maxRequests left
        number w =
      fetchPagesFrom wire api.transport endpointClass authorization none maxRequests left number
        w := by
  have hlater : ∀ (left number : Nat) (w : Walking), w.completedPages ≠ [] →
      fetchPagesFrom wire api.transport endpointClass authorization requestEtag maxRequests left
          number w =
        fetchPagesFrom wire api.transport endpointClass authorization none maxRequests left number
          w := by
    intro left
    induction left with
    | zero => exact fun _ _ _ => rfl
    | succ left ih =>
        intro number w hread
        rw [fetchPagesFrom_succ, fetchPagesFrom_succ,
          Walking.turn_unconditional hread requestEtag none]
        have hturns : w.Turns wire api endpointClass authorization none
          (w.turn wire api endpointClass authorization none) := w.turn_cases
        generalize w.turn wire api endpointClass authorization none = turn at hturns
        cases hturns with
        | goes answer success fits more url pages etag seen sent =>
            simp only
            rw [ih (number + 1) _ (by simp [pages])]
        | _ => rfl
  cases left with
  | zero => rfl
  | succ left =>
      rw [fetchPagesFrom_succ, fetchPagesFrom_succ, Walking.turn_unmatched requestEtag h]
      have hturns : w.Turns wire api endpointClass authorization none
        (w.turn wire api endpointClass authorization none) := w.turn_cases
      generalize w.turn wire api endpointClass authorization none = turn at hturns
      cases hturns with
      | goes answer success fits more url pages etag seen sent =>
          simp only
          rw [hlater left (number + 1) _ (by simp [pages])]
      | _ => rfl

/-- A tag the first page still has ends the fetch. -/
theorem fetchPagesFrom_matched {response : GitHubTransportResponse} (left number : Nat) {url : Url}
    (hbudget : 0 < maxRequests) (answer : api.respond authorization url.text = .ok response)
    (hmatch : Api.Matches (({ url := url } : Walking).request endpointClass authorization
      requestEtag) response) :
    ∃ summary, (fetchPagesFrom wire api.transport endpointClass authorization requestEtag
        maxRequests (left + 1) number { url := url }).1 =
          .ok (.notModified response.headers.etag summary) ∧ summary.requestCount = 1 := by
  have hanswer : api.answer (({ url := url } : Walking).request endpointClass authorization
      requestEtag) = .ok { response with status := 304, body := [] } :=
    Api.answer_matched answer hmatch
  rw [fetchPagesFrom_succ, if_neg (Nat.not_le.mpr hbudget), if_neg List.not_mem_nil]
  unfold Walking.turn
  simp only
  rw [hanswer]
  exact ⟨_, rfl, rfl⟩

end

end GitHub

end NextInfra
