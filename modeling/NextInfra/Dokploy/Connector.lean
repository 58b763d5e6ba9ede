import NextInfra.Dokploy.Mapper
import NextInfra.Lib.Attempt

/-!
# The Dokploy connector

A sync reads the projects and the servers, then the deployments and the domains of each
application, one after the other. It takes the first fifty applications and counts the
lists it reads against a budget; the client's pages are not counted.
-/

namespace NextInfra

namespace Dokploy

/-! ## §1  Failures -/

def failure (error : ClientError) : ConnectorFailure where
  code := error.code
  message := "Dokploy transport request failed"
  retryable :=
    error.code == .rateLimited || error.code == .networkUnreachable ||
      error.code == .providerUnavailable
  retryAfterMs := error.retryAfterMs

def permanentFailure (code : ErrorCode) (message : String) : ConnectorFailure :=
  { code := code, message := message, retryable := false, retryAfterMs := none }

def invalidResponse : ConnectorFailure :=
  permanentFailure .invalidResponse "Dokploy response does not match the allowlisted DTO contract"

def budgetFailure : ConnectorFailure where
  code := .partialPagination
  message := "Dokploy request budget was exhausted"
  retryable := true
  retryAfterMs := none

structure ValidationIssue where
  code : ErrorCode
  message : String

def validateConnection (connection : ConnectionInput) : List ValidationIssue :=
  (if connection.connectorType ≠ .dokploy then
      [⟨.invalidDomainValue, "Dokploy connection uses a different connector type"⟩]
    else []) ++
  (if connection.configSchemaVersion ≠ .one then
      [⟨.schemaIncompatible, "Dokploy connection config schema is unsupported"⟩]
    else []) ++
  match connection.config.get "base_url" with
  | some (.string _) => []
  | _ => [⟨.invalidDomainValue, "Dokploy connection config requires a base_url"⟩]

/-! ## §2  Lists -/

inductive Endpoint
  | projectAll
  | serverAll
  | deploymentAll (applicationId : String)
  | domainByApplicationId (applicationId : String)
deriving DecidableEq

def Endpoint.path : Endpoint → String
  | .projectAll => "/api/project.all"
  | .serverAll => "/api/server.all"
  | .deploymentAll id => "/api/deployment.all?applicationId=" ++ id
  | .domainByApplicationId id => "/api/domain.byApplicationId?applicationId=" ++ id

/-- A list the sync went through: the number of its first request and what came of it. -/
structure ListFetch where
  endpoint : Endpoint
  number : Nat
  pages : Except ClientError (List Body)

/-- What a sync has sent: the requests, by their count, and the lists they were for. -/
structure Sent where
  requests : Nat := 0
  lists : List ListFetch := []

abbrev Sending := Attempt ConnectorFailure Sent

section

variable (wire : Wire) (transport : Transport) (secret : List UInt8)

def fetchPagesRaw (endpoint : Endpoint) : Sending (List Body) := fun sent =>
  let pages := fetchPages wire transport endpoint.path secret sent.requests
  (pages.mapError failure,
    { requests := sent.requests + asked wire transport endpoint.path secret sent.requests
      lists := sent.lists ++ [{ endpoint := endpoint, number := sent.requests, pages := pages }] })

def parsePages {α : Type} (decode : Body → Option (List α)) (pages : List Body) :
    Except ConnectorFailure (List α) :=
  match pages.mapM decode with
  | none => .error invalidResponse
  | some items => .ok items.flatten

/-! ## §3  The walk -/

def maxApplicationsWalk : Nat := 50

def maxRequestsPerSync : Nat := 200

/-- `request_budget` outside the tests. -/
def requestBudget : Nat := maxRequestsPerSync

/-- The applications of the old and the new shape, each with its project. -/
def flattenApplications (projects : List ProjectDto) : List ApplicationDto :=
  projects.flatMap fun project =>
    (project.applications ++ project.environments.flatMap EnvironmentDto.applications).map
      fun app => { app with projectId := some project.id }

structure Walk where
  requestCount : Nat
  deployments : List DeploymentDto := []
  domains : List DomainDto := []
  warnings : List ObservationWarning := []
  statusClassCounts : OrderedMap String Nat := KeyedTable.empty
  primaryFailure : Option ConnectorFailure := none

def addCount (counts : OrderedMap String Nat) (key : String) (n : Nat) : OrderedMap String Nat :=
  OrderedMap.insert counts key (((OrderedMap.lookup counts key).getD 0) + n)

def Walk.exhausted (walk : Walk) : Walk :=
  { walk with
    primaryFailure := some (walk.primaryFailure.getD budgetFailure)
    warnings :=
      walk.warnings ++
        [{ code := .partialPagination, message := "Dokploy request budget was exhausted" }] }

def Walk.addDeployments (walk : Walk) (deployments : List DeploymentDto) : Walk :=
  { walk with
    requestCount := walk.requestCount + 1
    statusClassCounts := addCount walk.statusClassCounts "deployment" deployments.length
    deployments := walk.deployments ++ deployments }

def Walk.addDomains (walk : Walk) (domains : List DomainDto) : Walk :=
  { walk with
    requestCount := walk.requestCount + 1
    statusClassCounts := addCount walk.statusClassCounts "domain" domains.length
    domains := walk.domains ++ domains }

/-- The budget is spent, so the walk ends. -/
def Walk.spent (walk : Walk) : Bool := decide (requestBudget ≤ walk.requestCount)

/-- One turn of the loop, and whether it breaks. -/
def walkApplication (app : ApplicationDto) (walk : Walk) : Sending (Walk × Bool) :=
  if walk.spent then pure (walk.exhausted, true)
  else do
    let pages ← fetchPagesRaw wire transport secret (.deploymentAll app.id)
    let deployments ← .ofExcept (parsePages wire.deployments pages)
    let walk := walk.addDeployments deployments
    if walk.spent then pure (walk.exhausted, true)
    else do
      let pages ← fetchPagesRaw wire transport secret (.domainByApplicationId app.id)
      let domains ← .ofExcept (parsePages wire.domains pages)
      pure (walk.addDomains domains, false)

def walkApplications : List ApplicationDto → Walk → Sending Walk
  | [], walk => pure walk
  | app :: rest, walk => do
      let (walk, broke) ← walkApplication wire transport secret app walk
      if broke then pure walk else walkApplications rest walk

/-! ## §4  The sync -/

structure Collected where
  projects : List ProjectDto
  servers : List ServerDto
  walk : Walk

def Collected.applications (c : Collected) : List ApplicationDto := flattenApplications c.projects

def collect : Sending Collected := do
  let pages ← fetchPagesRaw wire transport secret .projectAll
  let projects ← .ofExcept (parsePages wire.projects pages)
  let pages ← fetchPagesRaw wire transport secret .serverAll
  let servers ← .ofExcept (parsePages wire.servers pages)
  let counts := addCount (addCount KeyedTable.empty "project" projects.length) "server" servers.length
  let walk ← walkApplications wire transport secret
    ((flattenApplications projects).take maxApplicationsWalk)
    { requestCount := 2, statusClassCounts := counts }
  pure { projects := projects, servers := servers, walk := walk }

end

/-- The observations of one sync are stamped with the epoch. -/
def contextOf (request : SyncRequest) : Context where
  scope := request.scope
  observedAt := ⟨0, Nat.zero_le _⟩

def Collected.map (c : Collected) (ctx : Context) : Except String DokployMapperOutput :=
  mapResources ctx c.projects c.applications c.walk.deployments c.servers c.walk.domains

def Collected.outcome (c : Collected) (scope : Scope) (mapped : DokployMapperOutput) :
    SyncOutcome :=
  let batch (coverage : SyncCoverage) : ObservationBatch :=
    { resources := mapped.resources
      relations := mapped.relations
      coverage := coverage
      nextCursor := none
      warnings := c.walk.warnings
      redactionReport := {}
      providerRequestSummary :=
        { requestCount := c.walk.requestCount
          elapsedMs := 0
          statusClassCounts := c.walk.statusClassCounts } }
  match c.walk.primaryFailure with
  | some failure => .partial_ (batch (.partial_ (some scope) .paginationIncomplete)) failure
  | none => .complete (batch (.authoritativeFull scope))

def Collected.finish (c : Collected) (request : SyncRequest) : Except ConnectorFailure SyncOutcome :=
  match c.map (contextOf request) with
  | .error _ => .error invalidResponse
  | .ok mapped =>
      let outcome := c.outcome request.scope mapped
      match outcome.validateFor request with
      | .error _ => .error invalidResponse
      | .ok () => .ok outcome

/-- `DokployConnector::sync`. -/
def sync (wire : Wire) (transport : Transport) (request : SyncRequest)
    (secret : Option (List UInt8)) : Sending SyncOutcome :=
  match validateConnection request.connection with
  | issue :: _ => .fail (permanentFailure issue.code issue.message)
  | [] =>
      match secret with
      | none => .fail (permanentFailure .credentialUnavailable "Dokploy credential is unavailable")
      | some secret =>
          if request.mode ≠ .full then
            .fail (permanentFailure .invalidDomainValue
              "Dokploy supports full sync only in this release")
          else do
            let collected ← collect wire transport secret
            .ofExcept (collected.finish request)

end Dokploy

end NextInfra
