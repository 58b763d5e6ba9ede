import NextInfra.Connector.Http
import NextInfra.Connector.Observation
import NextInfra.Core.Text

/-!
# The GitHub client

`fetch_pages_with_budget` follows the `next` link of each answer until an answer has
none, within a budget of pages and of requests. The first request may be conditional.
What is outside the repository is a parameter: the transport answers each request of a
sync by its number, `Wire` is the URL library and the derived deserializers.
-/

namespace NextInfra

namespace GitHub

/-! ## §1  The wire -/

/-- What the client asks of a `Url`. -/
structure Url where
  text : String
  origin : String
  scheme : String
  username : String
  password : Option String
  port : Option Nat
  fragment : Option String
  queryKeys : List String

structure RepositoryOwnerDto where
  login : String

structure RepositoryDto where
  id : Nat
  name : String
  owner : RepositoryOwnerDto
  visibility : String
  defaultBranch : Option String
  archived : Bool
  disabled : Bool
  createdAt : String
  updatedAt : String

structure WorkflowDto where
  id : Nat
  name : String
  path : String
  state : String
  createdAt : String
  updatedAt : String

structure WorkflowListDto where
  workflows : List WorkflowDto

structure WorkflowRunDto where
  id : Nat
  workflowId : Nat
  name : Option String
  displayTitle : String
  runNumber : Nat
  status : String
  conclusion : Option String
  createdAt : String

structure WorkflowRunListDto where
  workflowRuns : List WorkflowRunDto

/-- `Url::parse`, `Url::join` on the API origin, `query_pairs_mut`, what
`HeaderValue::from_str` lets through, and `serde_json::from_slice` at each type. -/
structure Wire where
  apiOrigin : String
  parse : String → Option Url
  join : String → Option Url
  appendPairs : Url → List (String × String) → Url
  isHeaderText : String → Bool
  repositories : Body → Option (List RepositoryDto)
  repository : Body → Option RepositoryDto
  workflowList : Body → Option WorkflowListDto
  runList : Body → Option WorkflowRunListDto

structure GitHubTransportRequest where
  url : Url
  authorization : String
  etag : Option String
  endpointClass : String

structure GitHubResponseHeaders where
  etag : Option String
  link : Option String
  retryAfter : Option String
  rateLimitRemaining : Option String
  rateLimitReset : Option String

structure GitHubTransportResponse where
  status : Nat
  headers : GitHubResponseHeaders
  body : Body
  elapsedMs : Nat

/-- An answer, and the epoch second at which the client classifies it. -/
structure Exchange where
  answer : Except ConnectorFailure GitHubTransportResponse
  now : Nat

/-- A request that has been sent, and its answer. -/
structure Sent where
  request : GitHubTransportRequest
  answer : Except ConnectorFailure GitHubTransportResponse

/-- The answer to the request of a number. -/
abbrev Transport := Nat → GitHubTransportRequest → Exchange

/-! ## §2  Failures -/

def invalidResponse (message : String) : ConnectorFailure :=
  { code := .invalidResponse, message := message, retryable := false, retryAfterMs := none }

def authentication (message : String) : ConnectorFailure :=
  { code := .authenticationFailed, message := message, retryable := false, retryAfterMs := none }

def maxRetryAfterMs : Nat := 60 * 60 * 1000

def parseU64 (text : String) : Option Nat := Text.parseUnsigned (2 ^ 64) text.toList

def retryAfterMs (headers : GitHubResponseHeaders) (now : Nat) : Option Nat :=
  match headers.retryAfter.bind parseU64 with
  | some seconds => some (min (secondsToMs seconds) maxRetryAfterMs)
  | none =>
      (headers.rateLimitReset.bind parseU64).map fun reset =>
        min (secondsToMs (reset - now)) maxRetryAfterMs

def classifyStatus (response : GitHubTransportResponse) (now : Nat) : ConnectorFailure :=
  let status := response.status
  if status = 401 then authentication "GitHub rejected the configured credential"
  else if status = 429 ∨ (status = 403 ∧ (response.headers.retryAfter.isSome = true ∨
      response.headers.rateLimitRemaining = some "0")) then
    { code := .rateLimited
      message := "GitHub rate limit prevented the request"
      retryable := true
      retryAfterMs := retryAfterMs response.headers now }
  else if status = 403 then
    { code := .permissionDenied
      message := "GitHub token lacks permission for the requested module"
      retryable := false
      retryAfterMs := none }
  else if status = 404 then
    { code := .notFound
      message := "GitHub endpoint or requested resource was not found"
      retryable := false
      retryAfterMs := none }
  else if 500 ≤ status ∧ status < 600 then
    { code := .providerUnavailable
      message := "GitHub REST API is temporarily unavailable"
      retryable := true
      retryAfterMs := none }
  else invalidResponse "GitHub returned an unexpected HTTP status"

/-! ## §3  Endpoints and links -/

def isAllowedQueryKey (key : String) : Bool :=
  key ∈ ["per_page", "page", "visibility", "affiliation", "type", "sort", "direction", "status",
    "environment", "ref", "sha", "branch", "event", "created", "exclude_pull_requests",
    "check_suite_id", "filter"]

structure GitHubEndpoint where
  endpointClass : String
  firstUrl : Url

def GitHubEndpoint.cacheKey (endpoint : GitHubEndpoint) : String := endpoint.firstUrl.text

section

variable (wire : Wire)

def GitHubEndpoint.build (endpointClass path : String) (query : List (String × String))
    (addDefaultPageSize : Bool) : Except ConnectorFailure GitHubEndpoint :=
  if endpointClass = "" ∨ ['/'].isPrefixOf path.toList = false ∨
      ['/', '/'].isPrefixOf path.toList = true ∨
      path.toList.any (fun c => c == '?' || c == '#') = true then
    .error (invalidResponse "GitHub endpoint class or path is invalid")
  else
    match wire.join path with
    | none => .error (invalidResponse "GitHub endpoint path is invalid")
    | some url =>
        if url.origin ≠ wire.apiOrigin ∨ url.fragment.isSome = true then
          .error (invalidResponse "GitHub endpoint must remain on the API origin")
        else if query.all (fun pair => isAllowedQueryKey pair.1) = false then
          .error (invalidResponse "GitHub endpoint contains an unsupported query key")
        else
          let pageSize :=
            if addDefaultPageSize && !query.any (fun pair => pair.1 == "per_page") then
              [("per_page", "100")]
            else []
          .ok { endpointClass := endpointClass, firstUrl := wire.appendPairs url (query ++ pageSize) }

def GitHubEndpoint.single (endpointClass path : String) : Except ConnectorFailure GitHubEndpoint :=
  GitHubEndpoint.build wire endpointClass path [] false

def GitHubEndpoint.new (endpointClass path : String) (query : List (String × String)) :
    Except ConnectorFailure GitHubEndpoint :=
  GitHubEndpoint.build wire endpointClass path query true

def validateApiUrl (url : Url) : Except ConnectorFailure Unit :=
  if url.origin ≠ wire.apiOrigin ∨ url.scheme ≠ "https" ∨ url.username ≠ "" ∨
      url.password.isSome = true ∨ url.port.isSome = true ∨ url.fragment.isSome = true then
    .error (invalidResponse "GitHub pagination left the approved API origin")
  else if url.queryKeys.all isAllowedQueryKey = false then
    .error (invalidResponse "GitHub pagination contains an unsupported query key")
  else .ok ()

/-- The text between the angle brackets of a link. -/
def linkTarget (target : List Char) : Option String :=
  match trim target with
  | '<' :: rest => (Text.stripSuffix '>' rest).map String.ofList
  | _ => none

/-- One entry of a `Link` header: the URL it gives for the next page, if it does. -/
def nextOfEntry (entry : List Char) : Except ConnectorFailure (Option Url) :=
  match (trim entry).splitOn ';' with
  | [] => .ok none
  | target :: parts =>
      if parts.any (fun part => trim part == "rel=\"next\"".toList) then
        match linkTarget target with
        | none => .error (invalidResponse "GitHub Link header is malformed")
        | some raw =>
            match wire.parse raw with
            | none => .error (invalidResponse "GitHub next link is not a valid URL")
            | some url => (validateApiUrl wire url).map fun _ => some url
      else .ok none

def nextOfEntries : List (List Char) → Option Url → Except ConnectorFailure (Option Url)
  | [], next => .ok next
  | entry :: rest, next => do
      match ← nextOfEntry wire entry, next with
      | some _, some _ =>
          .error (invalidResponse "GitHub Link header contains multiple next targets")
      | some url, none => nextOfEntries rest (some url)
      | none, next => nextOfEntries rest next

def nextUrl (link : String) : Except ConnectorFailure (Option Url) :=
  nextOfEntries wire (link.toList.splitOn ',') none

end

/-! ## §4  Pages -/

def maxPagesPerEndpoint : Nat := 20

def maxRequestsPerBatch : Nat := 200

/-- A budget within the transport contract. -/
structure GitHubFetchBudget where
  maxPages : Nat
  maxRequests : Nat
  pages_allowed : 0 < maxPages ∧ maxPages ≤ maxPagesPerEndpoint
  requests_allowed : 0 < maxRequests ∧ maxRequests ≤ maxRequestsPerBatch

def GitHubFetchBudget.new (maxPages maxRequests : Nat) : Except ConnectorFailure GitHubFetchBudget :=
  if h : (0 < maxPages ∧ maxPages ≤ maxPagesPerEndpoint) ∧
      0 < maxRequests ∧ maxRequests ≤ maxRequestsPerBatch then
    .ok ⟨maxPages, maxRequests, h.1, h.2⟩
  else .error (invalidResponse "GitHub fetch budget exceeds the transport contract")

abbrev GitHubPage := Body

structure GitHubPages where
  pages : List GitHubPage
  etag : Option String
  requestSummary : ProviderRequestSummary

inductive GitHubFetch
  | notModified (etag : Option String) (requestSummary : ProviderRequestSummary)
  | pages (pages : GitHubPages)

structure GitHubPaginationFailure where
  completedPages : List GitHubPage
  requestSummary : ProviderRequestSummary
  failure : ConnectorFailure

def authorizationHeader (secret : List UInt8) : Except ConnectorFailure String :=
  match String.fromUTF8? ⟨secret.toArray⟩ with
  | none => .error (authentication "GitHub token is not valid UTF-8")
  | some token =>
      if secret = [] ∨ 4096 < secret.length ∨ secret.all isAsciiGraphic = false then
        .error (authentication "GitHub token is empty or contains invalid characters")
      else .ok ("Bearer " ++ token)

def addCount (counts : OrderedMap String Nat) (key : String) (n : Nat) : OrderedMap String Nat :=
  OrderedMap.insert counts key (((OrderedMap.lookup counts key).getD 0) + n)

/-- One more request has been sent. -/
def sentOne (summary : ProviderRequestSummary) : ProviderRequestSummary :=
  { summary with requestCount := summary.requestCount + 1 }

/-- `elapsed_ms` and `count_status` of an answer. -/
def answered (summary : ProviderRequestSummary) (response : GitHubTransportResponse) :
    ProviderRequestSummary :=
  { summary with
    elapsedMs := saturatingAdd 64 summary.elapsedMs response.elapsedMs
    statusClassCounts :=
      addCount summary.statusClassCounts (toString (response.status / 100) ++ "xx") 1 }

/-- `StatusCode::is_success`. -/
def GitHubTransportResponse.isSuccess (response : GitHubTransportResponse) : Bool :=
  decide (200 ≤ response.status) && decide (response.status < 300)

def budgetExceeded : ConnectorFailure where
  code := .partialPagination
  message := "GitHub pagination exceeded its request budget"
  retryable := false
  retryAfterMs := none

section

variable (wire : Wire) (transport : Transport) (endpointClass authorization : String)
  (requestEtag : Option String) (maxRequests : Nat)

/-- What the loop has at hand before a turn. -/
structure Walking where
  url : Url
  completedPages : List GitHubPage := []
  seenUrls : List String := []
  requestSummary : ProviderRequestSummary := {}
  firstEtag : Option String := none

def Walking.fail (w : Walking) (failure : ConnectorFailure) :
    Except GitHubPaginationFailure GitHubFetch :=
  .error
    { completedPages := w.completedPages
      requestSummary := w.requestSummary
      failure := failure }

/-- The request of a turn. Only the first one is conditional. -/
def Walking.request (w : Walking) : GitHubTransportRequest where
  url := w.url
  authorization := authorization
  etag := if w.completedPages.isEmpty then requestEtag else none
  endpointClass := endpointClass

/-- How a turn goes on: the loop returns, or takes the next URL. -/
inductive Turn
  | done (result : Except GitHubPaginationFailure GitHubFetch)
  | next (walking : Walking)

/-- A turn on an answered request. -/
def Walking.receive (w : Walking) (response : GitHubTransportResponse) (now : Nat) : Turn :=
  if response.status = 304 then
    if w.completedPages.isEmpty = false then
      .done (w.fail (invalidResponse "GitHub returned not-modified after pagination began"))
    else .done (.ok (.notModified response.headers.etag w.requestSummary))
  else if response.isSuccess = false then .done (w.fail (classifyStatus response now))
  else if maxResponseBodyBytes < response.body.length then
    .done (w.fail (invalidResponse "GitHub response exceeds the body budget"))
  else
    let next :=
      match response.headers.link with
      | some link => nextUrl wire link
      | none => .ok none
    let w :=
      { w with
        completedPages := w.completedPages ++ [response.body]
        firstEtag := w.firstEtag.or response.headers.etag }
    match next with
    | .error failure => .done (w.fail failure)
    | .ok (some url) => .next { w with url := url }
    | .ok none =>
        .done (.ok (.pages
          { pages := w.completedPages, etag := w.firstEtag, requestSummary := w.requestSummary }))

/-- The loop with `left` of the pages it may read left: the requests it sends, its result,
and the number of the next request. -/
def pagesFrom : (left number : Nat) → Walking →
    List Sent × Except GitHubPaginationFailure GitHubFetch × Nat
  | 0, number, w => ([], w.fail budgetExceeded, number)
  | left + 1, number, w =>
      if maxRequests ≤ w.requestSummary.requestCount then ([], w.fail budgetExceeded, number)
      else if w.url.text ∈ w.seenUrls then
        ([], w.fail (invalidResponse "GitHub pagination contains a cycle"), number)
      else
        let request := w.request endpointClass authorization requestEtag
        let exchange := transport number request
        let sent : Sent := ⟨request, exchange.answer⟩
        let w :=
          { w with
            seenUrls := w.url.text :: w.seenUrls
            requestSummary := sentOne w.requestSummary }
        match exchange.answer with
        | .error failure => ([sent], w.fail failure, number + 1)
        | .ok response =>
            match { w with requestSummary := answered w.requestSummary response }.receive wire
              response exchange.now with
            | .done result => ([sent], result, number + 1)
            | .next w =>
                let rest := pagesFrom left (number + 1) w
                (sent :: rest.1, rest.2)

/-- What the loop returns, and the number of the next request. -/
def fetchPagesFrom (left number : Nat) (w : Walking) :
    Except GitHubPaginationFailure GitHubFetch × Nat :=
  (pagesFrom wire transport endpointClass authorization requestEtag maxRequests left number w).2

/-- The requests of the loop, in order. -/
def sentFrom (left number : Nat) (w : Walking) : List Sent :=
  (pagesFrom wire transport endpointClass authorization requestEtag maxRequests left number w).1

end

/-- The credential and the tag are checked before anything is sent. -/
def headersOf (wire : Wire) (secret : List UInt8) (etag : Option String) :
    Except ConnectorFailure String := do
  let authorization ← authorizationHeader secret
  if etag.all wire.isHeaderText = false then
    .error (invalidResponse "GitHub ETag contains invalid header bytes")
  else .ok authorization

theorem headersOf_eq (wire : Wire) {secret : List UInt8} {authorization : String}
    (hauth : authorizationHeader secret = .ok authorization) (etag : Option String) :
    headersOf wire secret etag =
      if etag.all wire.isHeaderText = false then
        .error (invalidResponse "GitHub ETag contains invalid header bytes")
      else .ok authorization := by
  unfold headersOf
  rw [hauth]
  rfl

theorem headersOf_ok {wire : Wire} {secret : List UInt8} {etag : Option String}
    {authorization : String} (h : headersOf wire secret etag = .ok authorization) :
    authorizationHeader secret = .ok authorization := by
  cases hauth : authorizationHeader secret with
  | error failure =>
      unfold headersOf at h
      rw [hauth] at h
      cases h
  | ok authorization' =>
      rw [headersOf_eq wire hauth] at h
      split at h
      · cases h
      · exact h

def fetchPagesWithBudget (wire : Wire) (transport : Transport) (endpoint : GitHubEndpoint)
    (secret : List UInt8) (etag : Option String) (budget : GitHubFetchBudget) (number : Nat) :
    Except GitHubPaginationFailure GitHubFetch × Nat :=
  let w : Walking := { url := endpoint.firstUrl }
  match headersOf wire secret etag with
  | .error failure => (w.fail failure, number)
  | .ok authorization =>
      fetchPagesFrom wire transport endpoint.endpointClass authorization etag budget.maxRequests
        budget.maxPages number w

/-- The requests of a fetch, in order. -/
def sentWithBudget (wire : Wire) (transport : Transport) (endpoint : GitHubEndpoint)
    (secret : List UInt8) (etag : Option String) (budget : GitHubFetchBudget) (number : Nat) :
    List Sent :=
  match headersOf wire secret etag with
  | .error _ => []
  | .ok authorization =>
      sentFrom wire transport endpoint.endpointClass authorization etag budget.maxRequests
        budget.maxPages number { url := endpoint.firstUrl }

end GitHub

end NextInfra
