import NextInfra.Connector.Http
import NextInfra.Core.Text

/-!
# The Cloudflare client

`fetch_pages` reads a list page by page until a page says it is the last. What is
outside the repository is a parameter: the transport answers each request of a sync
by its number, `Wire` is the URL library and the derived deserializers.
-/

namespace NextInfra

namespace Cloudflare

/-! ## §1  The wire -/

structure AccountDto where
  id : String
  name : String

structure ZoneDto where
  id : String
  name : String
  account : AccountDto
  status : Option String

structure DnsRecordDto where
  id : String
  zoneId : String
  recordType : String
  name : String
  content : String
  proxied : Option Bool

structure TunnelDto where
  id : String
  name : String
  status : Option String

structure WorkerDto where
  id : String
  modifiedOn : Option String

structure PageInfo where
  totalPages : Option Nat

structure PageEnvelope where
  resultInfo : Option PageInfo

/-- `Url::join` on the fixed origin, and `serde_json::from_slice` at each type. -/
structure Wire where
  join : String → Option String
  pageEnvelope : Body → Option PageEnvelope
  accounts : Body → Option (List AccountDto)
  zones : Body → Option (List ZoneDto)
  records : Body → Option (List DnsRecordDto)
  tunnels : Body → Option (List TunnelDto)
  workers : Body → Option (List WorkerDto)

structure CloudflareRequest where
  url : String
  page : Nat
  perPage : Nat
  authorization : String

/-- The answer to the request of a number. -/
abbrev Transport := Nat → CloudflareRequest → Except ClientError HttpAnswer

/-! ## §2  Requests -/

/-- `CloudflareEndpoint::resource`. -/
def Wire.resource (wire : Wire) (path : String) : Option String :=
  if path.toList.head? ≠ some '/' ∨ path.toList.any (fun c => c == '?' || c == '#') then none
  else wire.join path

def authorizationHeader (secret : List UInt8) : Option String :=
  (headerToken secret).map ("Bearer " ++ ·)

/-- The request of a page, where the path and the token make one. -/
def Wire.request (wire : Wire) (path : String) (secret : List UInt8) (page : Nat) :
    Option CloudflareRequest :=
  match wire.resource path, authorizationHeader secret with
  | some url, some authorization =>
      some { url := url, page := page, perPage := 100, authorization := authorization }
  | _, _ => none

/-! ## §3  Pages -/

def maxPagesPerEndpoint : Nat := 100

/-- The pages a body says there are. -/
def Wire.totalPages (wire : Wire) (body : Body) : Option Nat :=
  (wire.pageEnvelope body).bind fun envelope => envelope.resultInfo.bind PageInfo.totalPages

/-- `clamp(1, MAX_PAGES_PER_ENDPOINT)`. -/
def clampPages (total : Nat) : Nat := min (max 1 total) maxPagesPerEndpoint

def pageCount (wire : Wire) (body : Body) : Except ClientError Nat :=
  match wire.pageEnvelope body with
  | none => .error (clientError .invalidResponse)
  | some _ => .ok (clampPages ((wire.totalPages body).getD 1))

section

variable (wire : Wire) (transport : Transport) (path : String) (secret : List UInt8)

/-- One turn of the loop: the body of a page, and whether it is the last. -/
def fetchPage (number page : Nat) : Except ClientError (Body × Bool) :=
  match wire.request path secret page with
  | none => .error (clientError .authenticationFailed)
  | some request => do
      let answer ← transport number request
      let body ← answer.accept
      let total ← pageCount wire body
      .ok (body, decide (total ≤ page))

/-- Whether a turn sends its request. -/
def sends (page : Nat) : Nat := if (wire.request path secret page).isSome then 1 else 0

/-- The loop of `fetch_pages` with `left` of the pages it may read left: the pages, or
the failure, and the number of the next request. -/
def fetchPagesFrom : (left number page : Nat) → Except ClientError (List Body) × Nat
  | 0, number, _ => (.error (clientError .partialPagination), number)
  | left + 1, number, page =>
      match fetchPage wire transport path secret number page with
      | .error e => (.error e, number + sends wire path secret page)
      | .ok (body, true) => (.ok [body], number + 1)
      | .ok (body, false) =>
          let (rest, next) := fetchPagesFrom left (number + 1) (page + 1)
          (rest.map (body :: ·), next)

def fetchPages (number : Nat) : Except ClientError (List Body) × Nat :=
  fetchPagesFrom wire transport path secret maxPagesPerEndpoint number 1

/-! ## §4  What a list of pages is -/

variable {wire transport path secret}

/-- A page is the body of a successful answer to its request. -/
theorem fetchPage_ok {number page : Nat} {body : Body} {last : Bool}
    (h : fetchPage wire transport path secret number page = .ok (body, last)) :
    ∃ request response, wire.request path secret page = some request ∧
      transport number request = .ok response ∧ response.isSuccess = true ∧
      response.body = body ∧
      (last = true ↔ clampPages ((wire.totalPages body).getD 1) ≤ page) := by
  unfold fetchPage at h
  split at h
  · cases h
  rename_i request hrequest
  obtain ⟨response, hresponse, h⟩ := bind_ok h
  obtain ⟨accepted, haccept, h⟩ := bind_ok h
  obtain ⟨total, htotal, h⟩ := bind_ok h
  obtain ⟨hsuccess, rfl⟩ := HttpAnswer.accept_ok haccept
  unfold pageCount at htotal
  split at htotal
  · cases htotal
  cases htotal
  cases h
  exact ⟨request, response, hrequest, hresponse, hsuccess, rfl, by simp⟩

/-- The pages of a list are the bodies of successful answers to the requests of its
pages in a row, no more than it may read, and the last one says it is. -/
theorem fetchPagesFrom_ok {left number page : Nat} {pages : List Body}
    (h : (fetchPagesFrom wire transport path secret left number page).1 = .ok pages) :
    pages ≠ [] ∧ pages.length ≤ left ∧
      (∀ i body, pages[i]? = some body → ∃ request response,
        wire.request path secret (page + i) = some request ∧
        transport (number + i) request = .ok response ∧ response.isSuccess = true ∧
        response.body = body) ∧
      ∀ body, pages.getLast? = some body →
        clampPages ((wire.totalPages body).getD 1) < page + pages.length := by
  induction left generalizing number page pages with
  | zero => cases h
  | succ left ih =>
      unfold fetchPagesFrom at h
      cases hpage : fetchPage wire transport path secret number page with
      | error e =>
          simp only [hpage] at h
          cases h
      | ok result =>
          obtain ⟨body, last⟩ := result
          obtain ⟨request, response, hrequest, hresponse, hsuccess, hbody, hlast⟩ :=
            fetchPage_ok hpage
          cases last with
          | true =>
              simp only [hpage] at h
              cases h
              refine ⟨by simp, by simp, ?_, ?_⟩
              · intro i b hb
                cases i with
                | zero =>
                    cases hb
                    exact ⟨request, response, hrequest, hresponse, hsuccess, hbody⟩
                | succ i => simp at hb
              · intro b hb
                rw [List.getLast?_singleton] at hb
                cases hb
                have hle := hlast.mp rfl
                simp only [List.length_cons, List.length_nil]
                omega
          | false =>
              simp only [hpage] at h
              obtain ⟨rest, hrest, rfl⟩ := map_ok h
              obtain ⟨hne, hlen, hall, hfinal⟩ := ih hrest
              refine ⟨by simp, by simp; omega, ?_, ?_⟩
              · intro i b hb
                cases i with
                | zero =>
                    cases hb
                    exact ⟨request, response, hrequest, hresponse, hsuccess, hbody⟩
                | succ i =>
                    obtain ⟨request', response', h1, h2, h3, h4⟩ := hall i b hb
                    refine ⟨request', response', ?_, ?_, h3, h4⟩
                    · rw [← h1]
                      congr 1
                      omega
                    · rw [← h2]
                      congr 1
                      omega
              · intro b hb
                rw [List.getLast?_cons_of_ne_nil hne] at hb
                have hlt := hfinal b hb
                simp only [List.length_cons]
                omega

end

end Cloudflare

end NextInfra
