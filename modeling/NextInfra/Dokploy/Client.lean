import NextInfra.Connector.Http

/-!
# The Dokploy client

`fetch_pages` follows the cursor of each answer until an answer has none. As for every
client, the transport answers each request of a sync by its number, and the URL library
and the derived deserializers are parameters.
-/

namespace NextInfra

namespace Dokploy

/-! ## §1  The wire -/

structure ApplicationDto where
  id : String
  name : String
  serverId : Option String
  environmentId : Option String
  projectId : Option String

structure EnvironmentDto where
  applications : List ApplicationDto

structure ProjectDto where
  id : String
  name : String
  description : Option String
  applications : List ApplicationDto
  environments : List EnvironmentDto

structure DeploymentDto where
  id : String
  applicationId : Option String
  status : Option String
  createdAt : Option String
  title : Option String

structure ServerDto where
  id : String
  name : String
  description : Option String
  ipAddress : Option String
  status : Option String

structure DomainDto where
  id : String
  host : String
  applicationId : Option String
  https : Option Bool
  path : Option String

/-- `Url::join` on the base URL, `query_pairs_mut` with the cursor, and
`serde_json::from_slice` at each type. -/
structure Wire where
  join : String → Option String
  withCursor : String → String → String
  projects : Body → Option (List ProjectDto)
  servers : Body → Option (List ServerDto)
  deployments : Body → Option (List DeploymentDto)
  domains : Body → Option (List DomainDto)

structure DokployResponse extends HttpAnswer where
  nextCursor : Option String

structure DokployRequest where
  url : String
  authorization : String

/-- The answer to the request of a number. -/
abbrev Transport := Nat → DokployRequest → Except ClientError DokployResponse

/-! ## §2  Requests -/

/-- `DokployEndpoint::resource`. -/
def Wire.resource (wire : Wire) (path : String) : Option String :=
  if path.toList.head? ≠ some '/' ∨ path.toList.any (· == '#') then none else wire.join path

/-- The request of a page, where the path and the token make one. -/
def Wire.request (wire : Wire) (path : String) (secret : List UInt8) (cursor : Option String) :
    Option DokployRequest :=
  match wire.resource path, headerToken secret with
  | some url, some authorization =>
      some
        { url :=
            match cursor with
            | some cursor => wire.withCursor url cursor
            | none => url
          authorization := authorization }
  | _, _ => none

/-! ## §3  Pages -/

def maxPagesPerEndpoint : Nat := 100

section

variable (wire : Wire) (transport : Transport) (path : String) (secret : List UInt8)

/-- One turn of the loop: the body of a page and the cursor of the next one. -/
def fetchPage (number : Nat) (cursor : Option String) :
    Except ClientError (Body × Option String) :=
  match wire.request path secret cursor with
  | none => .error (clientError .authenticationFailed)
  | some request => do
      let response ← transport number request
      let body ← response.accept
      .ok (body, response.nextCursor)

/-- The loop of `fetch_pages` with `left` of the pages it may read left. -/
def fetchPagesFrom : (left number : Nat) → Option String → Except ClientError (List Body)
  | 0, _, _ => .error (clientError .partialPagination)
  | left + 1, number, cursor =>
      match fetchPage wire transport path secret number cursor with
      | .error e => .error e
      | .ok (body, none) => .ok [body]
      | .ok (body, some next) => (fetchPagesFrom left (number + 1) (some next)).map (body :: ·)

def fetchPages (number : Nat) : Except ClientError (List Body) :=
  fetchPagesFrom wire transport path secret maxPagesPerEndpoint number none

/-- The requests the loop sends. -/
def askedFrom : (left number : Nat) → Option String → Nat
  | 0, _, _ => 0
  | left + 1, number, cursor =>
      match fetchPage wire transport path secret number cursor with
      | .error _ => if (wire.request path secret cursor).isSome then 1 else 0
      | .ok (_, none) => 1
      | .ok (_, some next) => askedFrom left (number + 1) (some next) + 1

def asked (number : Nat) : Nat :=
  askedFrom wire transport path secret maxPagesPerEndpoint number none

end

end Dokploy

end NextInfra
