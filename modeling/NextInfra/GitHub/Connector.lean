import NextInfra.Core.LocalRelation
import NextInfra.GitHub.Mapper
import NextInfra.Lib.Attempt

/-!
# The GitHub connector

A sync reads the repositories, and of each selected one the workflows and the runs. One
connector serves every connection: it keeps the pages of a list under the URL of the
first, to be taken again when that page has not changed, and the routes of the last full
sync.
-/

namespace NextInfra

namespace GitHub

/-! ## §1  The connector and its caches -/

structure CachedPages where
  etag : Option String
  pages : List GitHubPage

structure GitHubConnector where
  pageCache : OrderedMap String CachedPages
  routeCache : List RepositoryRouteContext

/-- `GitHubConnector::new`. -/
def GitHubConnector.new : GitHubConnector := { pageCache := KeyedTable.empty, routeCache := [] }

/-- A list the sync asked for, and what came of it. -/
structure ListFetch where
  endpoint : GitHubEndpoint
  result : Except GitHubPaginationFailure GitHubPages

/-- What a sync works on: the connector, what it has sent, the requests by their count
and the lists they were for, and whether it left off with more to ask for. -/
structure Syncing where
  connector : GitHubConnector
  requests : Nat := 0
  lists : List ListFetch := []
  leftOff : Bool := false

abbrev Sending := Attempt ConnectorFailure Syncing

def boundedFailure : ConnectorFailure where
  code := .partialPagination
  message := "GitHub connector provides a bounded current view"
  retryable := false
  retryAfterMs := none

/-- What a fetch makes of the cache: new pages are kept, unchanged ones taken from it. -/
def GitHubConnector.settle (connector : GitHubConnector) (key : String)
    (cached : Option CachedPages) :
    Except GitHubPaginationFailure GitHubFetch →
      Except GitHubPaginationFailure GitHubPages × GitHubConnector
  | .error failure => (.error failure, connector)
  | .ok (.pages pages) =>
      (.ok pages,
        { connector with
          pageCache :=
            OrderedMap.insert connector.pageCache key
              { etag := pages.etag, pages := pages.pages } })
  | .ok (.notModified _ requestSummary) =>
      match cached with
      | some cached =>
          (.ok { pages := cached.pages, etag := cached.etag, requestSummary := requestSummary },
            connector)
      | none =>
          (.error
            { completedPages := []
              requestSummary := requestSummary
              failure := invalidResponse "GitHub returned not-modified without cached pages" },
            connector)

section

variable (wire : Wire) (transport : Transport) (secret : List UInt8)

def fetchCached (endpoint : GitHubEndpoint) (maxPages remainingRequests : Nat) :
    Attempt GitHubPaginationFailure Syncing GitHubPages := fun s =>
  if remainingRequests = 0 then
    (.error { completedPages := [], requestSummary := {}, failure := boundedFailure }, s)
  else
    let cached := OrderedMap.lookup s.connector.pageCache endpoint.cacheKey
    match GitHubFetchBudget.new maxPages (min remainingRequests maxRequestsPerBatch) with
    | .error failure => (.error { completedPages := [], requestSummary := {}, failure := failure }, s)
    | .ok budget =>
        let (fetch, requests) := fetchPagesWithBudget wire transport endpoint secret
          (cached.bind CachedPages.etag) budget s.requests
        let (result, connector) := s.connector.settle endpoint.cacheKey cached fetch
        (result,
          { s with
            connector := connector
            requests := requests
            lists := s.lists ++ [{ endpoint := endpoint, result := result }] })

/-! ## §2  Pages -/

def fatalIfAuth (failure : ConnectorFailure) : Except ConnectorFailure Unit :=
  if failure.code = .authenticationFailed ∨ failure.code = .credentialUnavailable then
    .error failure
  else .ok ()

/-- The pages that were read, and why no more were. -/
structure Read where
  pages : List GitHubPage
  requestSummary : ProviderRequestSummary
  failure : Option ConnectorFailure

def optionalPages : Except GitHubPaginationFailure GitHubPages → Except ConnectorFailure Read
  | .ok pages =>
      .ok { pages := pages.pages, requestSummary := pages.requestSummary, failure := none }
  | .error failure => do
      fatalIfAuth failure.failure
      return {
        pages := failure.completedPages
        requestSummary := failure.requestSummary
        failure := some failure.failure }

def requiredPages : Except GitHubPaginationFailure GitHubPages → Except ConnectorFailure Read
  | .ok pages => optionalPages (.ok pages)
  | .error failure =>
      if failure.completedPages = [] then .error failure.failure
      else optionalPages (.error failure)

/-- `GitHubPage::deserialize` of each page. -/
def deserialize {α : Type} (decode : Body → Option α) (pages : List GitHubPage) :
    Except ConnectorFailure (List α) :=
  match pages.mapM decode with
  | none => .error (invalidResponse "GitHub response body is not valid expected JSON")
  | some values => .ok values

/-! ## §3  The collector -/

structure Collector where
  scope : Scope
  observedAt : Timestamp
  resources : List ResourceObservation := []
  relations : List RelationObservation := []
  warnings : List ObservationWarning := []
  summary : ProviderRequestSummary := {}
  primaryFailure : Option ConnectorFailure := none
  remainingRequests : Nat := maxRequestsPerBatch

def Collector.addSummary (c : Collector) (summary : ProviderRequestSummary) : Collector :=
  { c with
    remainingRequests := c.remainingRequests - summary.requestCount
    summary :=
      { requestCount := saturatingAdd 64 c.summary.requestCount summary.requestCount
        elapsedMs := saturatingAdd 64 c.summary.elapsedMs summary.elapsedMs
        statusClassCounts :=
          summary.statusClassCounts.rows.foldl (fun counts p => addCount counts p.1 p.2)
            c.summary.statusClassCounts } }

/-- `get_or_insert_with` on the failure, and a warning. -/
def Collector.note (c : Collector) (failure : ConnectorFailure) (warning : ObservationWarning) :
    Collector :=
  { c with
    primaryFailure := some (c.primaryFailure.getD failure)
    warnings := c.warnings ++ [warning] }

def Collector.collectGap (c : Collector) (result : ModuleResult) : Collector :=
  match result.failure with
  | some failure =>
      c.note failure
        { code := failure.code, message := "GitHub module " ++ result.module ++ " is partial" }
  | none =>
      if result.bounded then
        c.note boundedFailure
          { code := .partialPagination
            message := "GitHub module " ++ result.module ++ " reached its bounded view" }
      else c

def Collector.mergeRepository (c : Collector) (output : RepositoryMapperOutput) : Collector :=
  output.modules.foldl Collector.collectGap { c with resources := c.resources ++ output.resources }

def Collector.mergeActions (c : Collector) (output : ActionMapperOutput) : Collector :=
  output.modules.foldl Collector.collectGap
    { c with
      resources := c.resources ++ output.resources
      relations := c.relations ++ output.relations }

def Collector.markBudgetExhausted (c : Collector) : Collector :=
  c.note boundedFailure
    { code := .partialPagination, message := "GitHub request budget was exhausted" }

/-- The collector is marked where no request is left for what comes next. -/
def leaveOff (collector : Collector) : Sending Collector := fun s =>
  (.ok collector.markBudgetExhausted, { s with leftOff := true })

def coverageReason : ErrorCode → CoverageGapReason
  | .permissionDenied => .permissionDenied
  | .rateLimited => .rateLimited
  | .providerUnavailable => .providerUnavailable
  | .networkUnreachable => .providerUnavailable
  | .schemaIncompatible => .schemaIncompatible
  | .invalidResponse => .schemaIncompatible
  | _ => .paginationIncomplete

/-- `{kind}:{external_id}`. -/
def locatorId (locator : ResourceLocator) : ResourceId where
  val := locator.kind.val ++ ":" ++ locator.externalId.val
  trimmed := by
    obtain ⟨init, d, hid, hd⟩ := locator.externalId.trimmed.last_visible
    exact trimmed_of_visible (locator.kind.startsVisible.append ":") ⟨init, d, hid, hd⟩

def rejectDuplicateObservations (resources : List ResourceObservation)
    (relations : List RelationObservation) : Except ConnectorFailure Unit :=
  if ¬(resources.map resourceOrder).Nodup then
    .error (invalidResponse "GitHub collector produced duplicate resources")
  else if ¬(relations.map relationOrder).Nodup then
    .error (invalidResponse "GitHub collector produced duplicate relations")
  else .ok ()

def Collector.coverage (c : Collector) (request : SyncRequest) : SyncCoverage :=
  match c.primaryFailure with
  | some failure => .partial_ (some c.scope) (coverageReason failure.code)
  | none =>
      if request.mode = .targeted then .targeted (request.targetedResources.map locatorId)
      else .authoritativeFull c.scope

def Collector.outcome (c : Collector) (request : SyncRequest) : SyncOutcome :=
  let batch : ObservationBatch :=
    { resources := sortResources c.resources
      relations := sortRelations c.relations
      coverage := c.coverage request
      nextCursor := none
      warnings := c.warnings
      redactionReport := {}
      providerRequestSummary := c.summary }
  match c.primaryFailure with
  | some failure => .partial_ batch failure
  | none => .complete batch

def Collector.finish (c : Collector) (request : SyncRequest) :
    Except ConnectorFailure SyncOutcome := do
  rejectDuplicateObservations (sortResources c.resources) (sortRelations c.relations)
  let outcome := c.outcome request
  match outcome.validateFor request with
  | .error _ => .error (invalidResponse "GitHub sync outcome violates the connector contract")
  | .ok () => .ok outcome

/-! ## §4  Repositories -/

structure ValidationIssue where
  code : ErrorCode
  message : String

def validateConnectionInput (connection : ConnectionInput) : List ValidationIssue :=
  (if connection.connectorType ≠ .github then
      [⟨.invalidDomainValue, "GitHub connection uses a different connector type"⟩]
    else []) ++
  (if connection.configSchemaVersion ≠ .one then
      [⟨.schemaIncompatible, "GitHub connection config schema is unsupported"⟩]
    else []) ++
  match (connection.config.get "selected_repository_ids").bind Value.asArray with
  | some (_ :: _) => []
  | _ => [⟨.invalidDomainValue, "GitHub connection config requires selected repositories"⟩]

def selectedRepositoryIds (config : Value) : Except ConnectorFailure (List String) :=
  match (config.get "selected_repository_ids").bind Value.asArray with
  | none => .error (invalidResponse "GitHub sync requires selected repositories")
  | some values =>
      let selected := values.filterMap Value.asStr
      if selected = [] then .error (invalidResponse "GitHub sync requires selected repositories")
      else .ok selected

def targetedRoutes (connector : GitHubConnector) (request : SyncRequest) :
    Except ConnectorFailure (List RepositoryRouteContext) :=
  if request.targetedResources = [] then
    .error (invalidResponse "GitHub targeted sync requires repository locators")
  else
    request.targetedResources.mapM fun locator =>
      if locator.kind ≠ repositoryKind then
        .error (invalidResponse "GitHub targeted sync accepts only repository locators")
      else findTargetedRoute connector.routeCache locator.externalId

def RepositoryRouteContext.endpoint (route : RepositoryRouteContext)
    (endpointClass suffix : String) : Except ConnectorFailure GitHubEndpoint :=
  if suffix = "" then
    GitHubEndpoint.single wire endpointClass ("/repos/" ++ route.owner ++ "/" ++ route.name)
  else
    GitHubEndpoint.new wire endpointClass
      ("/repos/" ++ route.owner ++ "/" ++ route.name ++ "/" ++ suffix) []

def repositoriesEndpoint : Except ConnectorFailure GitHubEndpoint :=
  GitHubEndpoint.new wire "repositories" "/user/repos"
    [("visibility", "all"), ("affiliation", "owner,collaborator,organization_member"),
      ("sort", "full_name"), ("direction", "asc")]

def isSelected (selected : List String) (repository : RepositoryDto) : Bool :=
  decide (toString repository.id ∈ selected)

def collectRepositories (request : SyncRequest) (collector : Collector) :
    Sending (RepositoryMapperOutput × Collector) := do
  let endpoint ← .ofExcept (repositoriesEndpoint wire)
  let fetched ← (fetchCached wire transport secret endpoint 20 collector.remainingRequests).result
  let read ← .ofExcept (requiredPages fetched)
  let collector := collector.addSummary read.requestSummary
  let selected ← .ofExcept (selectedRepositoryIds request.connection.config)
  let repositories ← .ofExcept (deserialize wire.repositories read.pages)
  let output ← .ofExcept
    (mapRepositories request.scope collector.observedAt
      (repositories.flatten.filter (isSelected selected)) read.failure.isSome read.failure)
  pure (output, collector)

/-- The loop of `collect_targeted_repositories`. -/
def collectTargetedRepositories (request : SyncRequest) :
    List RepositoryRouteContext → RepositoryMapperOutput → Collector →
      Sending (RepositoryMapperOutput × Collector)
  | [], output, collector => pure (output, collector)
  | route :: routes, output, collector =>
      if collector.remainingRequests = 0 then do
        let collector ← leaveOff collector
        pure (output, collector)
      else do
        let endpoint ← .ofExcept (route.endpoint wire "repository" "")
        let fetched ←
          (fetchCached wire transport secret endpoint 1 collector.remainingRequests).result
        let read ← .ofExcept (requiredPages fetched)
        let collector := collector.addSummary read.requestSummary
        let repositories ← .ofExcept (deserialize wire.repository read.pages)
        let mapped ← .ofExcept
          (mapRepositories request.scope collector.observedAt repositories read.failure.isSome
            read.failure)
        collectTargetedRepositories request routes (output.merge mapped) collector

/-! ## §5  Workflows and runs -/

def RepositoryRouteContext.context (route : RepositoryRouteContext) : GitHubRepositoryContext where
  repositoryExternalId := route.repositoryExternalId
  scope := route.scope
  observedAt := route.observedAt

/-- `sort_by_key` and `truncate`: the runs a repository keeps. -/
def keptRuns (runs : List WorkflowRunDto) : List WorkflowRunDto :=
  (runs.insertionSort fun a b => a.id ≤ b.id).take maxRunsPerRepository

def collectWorkflows (route : RepositoryRouteContext) (collector : Collector) :
    Sending Collector := do
  let endpoint ← .ofExcept (route.endpoint wire "workflows" "actions/workflows")
  let fetched ← (fetchCached wire transport secret endpoint 2 collector.remainingRequests).result
  let read ← .ofExcept (optionalPages fetched)
  let collector := collector.addSummary read.requestSummary
  let lists ← .ofExcept (deserialize wire.workflowList read.pages)
  let output ← .ofExcept
    (mapWorkflows route.context (lists.flatMap WorkflowListDto.workflows) read.failure.isSome
      read.failure)
  pure (collector.mergeActions output)

def collectRuns (route : RepositoryRouteContext) (collector : Collector) : Sending Collector := do
  let endpoint ← .ofExcept (route.endpoint wire "runs" "actions/runs")
  let fetched ← (fetchCached wire transport secret endpoint 1 collector.remainingRequests).result
  let read ← .ofExcept (optionalPages fetched)
  let collector := collector.addSummary read.requestSummary
  let lists ← .ofExcept (deserialize wire.runList read.pages)
  let runs := lists.flatMap WorkflowRunListDto.workflowRuns
  let output ← .ofExcept
    (mapRuns route.context (keptRuns runs)
      (decide (maxRunsPerRepository < runs.length) || read.failure.isSome) read.failure)
  pure (collector.mergeActions output)

def collectRepositoryChildren (route : RepositoryRouteContext) (collector : Collector) :
    Sending Collector := do
  let collector ← collectWorkflows wire transport secret route collector
  if collector.remainingRequests = 0 then leaveOff collector
  else collectRuns wire transport secret route collector

/-- The `for` loop over the active routes. -/
def collectChildren : List RepositoryRouteContext → Collector → Sending Collector
  | [], collector => pure collector
  | route :: routes, collector =>
      if collector.remainingRequests = 0 then leaveOff collector
      else do
        let collector ← collectRepositoryChildren wire transport secret route collector
        collectChildren routes collector

/-! ## §6  The sync -/

/-- `saturating_mul(1_000)` and `from_unix_millis`. -/
def observedAtOf (now : Nat) : Timestamp := ⟨min (now * 1000) maxTimestampMillis, Nat.min_le_right _ _⟩

def permanentFailure (code : ErrorCode) (message : String) : ConnectorFailure :=
  { code := code, message := message, retryable := false, retryAfterMs := none }

def keepRoutes (routes : List RepositoryRouteContext) : Sending Unit := fun s =>
  (.ok (), { s with connector := { s.connector with routeCache := routes } })

/-- The repositories of a sync, in the mode it was asked for. -/
def collectByMode (request : SyncRequest) (collector : Collector) :
    Sending (RepositoryMapperOutput × Collector) := fun s =>
  match request.mode with
  | .full => collectRepositories wire transport secret request collector s
  | .targeted =>
      match targetedRoutes s.connector request with
      | .error failure => (.error failure, s)
      | .ok routes =>
          collectTargetedRepositories wire transport secret request routes
            { resources := [], modules := [], routes := [] } collector s
  | .incremental =>
      (.error (permanentFailure .invalidDomainValue "GitHub incremental sync is not supported"), s)

/-- What a sync collects, `now` being the epoch second it starts in. -/
def collect (now : Nat) (request : SyncRequest) : Sending Collector := do
  let (output, collector) ← collectByMode wire transport secret request
    { scope := request.scope, observedAt := observedAtOf now }
  if request.mode = .full then keepRoutes output.routes
  collectChildren wire transport secret output.routes (collector.mergeRepository output)

end

/-- `GitHubConnector::sync`. -/
def sync (wire : Wire) (transport : Transport) (now : Nat) (request : SyncRequest)
    (secret : Option (List UInt8)) : Sending SyncOutcome :=
  match validateConnectionInput request.connection with
  | issue :: _ => .fail (permanentFailure issue.code issue.message)
  | [] =>
      match secret with
      | none => .fail (permanentFailure .credentialUnavailable "GitHub credential is unavailable")
      | some secret => do
          let collector ← collect wire transport secret now request
          .ofExcept (collector.finish request)

end GitHub

end NextInfra
