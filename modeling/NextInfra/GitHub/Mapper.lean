import Mathlib.Data.List.Sort
import NextInfra.GitHub.Client
import NextInfra.Normalizer.Scan

/-!
# The GitHub mappers

Repositories, workflows and runs become resources, and each workflow and run a relation
to it: from its repository, and from the workflow it names. Whether that workflow is
there too is not asked. One invalid item refuses them all.
-/

namespace NextInfra

namespace GitHub

/-! ## §1  Checks -/

def validateText (value field : String) : Except ConnectorFailure Unit :=
  let lower := toAsciiLowercase value
  if 1024 < value.utf8ByteSize ∨ value.toList.any Text.isControl = true ∨
      "bearer ".toList.isPrefixOf lower = true ∨
      containsText "-----begin private key-----".toList lower = true then
    .error (invalidResponse ("GitHub " ++ field ++ " is unsafe or too long"))
  else .ok ()

def validateRequired (value field : String) : Except ConnectorFailure Unit :=
  if value = "" then .error (invalidResponse ("GitHub " ++ field ++ " is empty"))
  else validateText value field

def validateOptional (value : Option String) (field : String) : Except ConnectorFailure Unit :=
  match value with
  | some value => validateText value field
  | none => .ok ()

def validateRouteSegment (value field : String) : Except ConnectorFailure Unit :=
  if value.toList.all (fun c => c.isAlphanum || c == '.' || c == '_' || c == '-') = false then
    .error (invalidResponse ("GitHub " ++ field ++ " is not a safe route segment"))
  else .ok ()

/-- `provider_external_id`, `external_id` and `evidence`. -/
def numbered {name : String} (mapper tag : String) (id : Nat) :
    Except ConnectorFailure (StringValue name) :=
  match StringValue.new (tag ++ ":" ++ toString id) with
  | .ok value => .ok value
  | .error _ => .error (invalidResponse (mapper ++ " produced an invalid domain value"))

def repositoryMapper : String := "GitHub repository mapper"

def actionMapper : String := "GitHub mapper"

/-! ## §2  Outputs -/

structure ModuleResult where
  module : String
  bounded : Bool
  failure : Option ConnectorFailure

structure ActionMapperOutput where
  resources : List ResourceObservation
  relations : List RelationObservation
  modules : List ModuleResult

def resourceOrder (r : ResourceObservation) : ResourceKind ×ₗ ExternalId :=
  toLex (r.kind, r.externalId)

def relationOrder (r : RelationObservation) :
    ResourceKind ×ₗ ExternalId ×ₗ ResourceKind ×ₗ ExternalId ×ₗ RelationKind ×ₗ EvidenceKey :=
  toLex (r.source.kind, toLex (r.source.externalId, toLex (r.target.kind,
    toLex (r.target.externalId, toLex (r.kind, r.evidenceKey)))))

def sortResources (resources : List ResourceObservation) : List ResourceObservation :=
  resources.insertionSort fun a b => resourceOrder a ≤ resourceOrder b

def sortRelations (relations : List RelationObservation) : List RelationObservation :=
  relations.insertionSort fun a b => relationOrder a ≤ relationOrder b

/-- The loop of a mapper: the items are mapped in order, and no identity occurs twice. -/
def mapEach {α γ : Type} (mapOne : α → Except ConnectorFailure (ResourceObservation × γ))
    (twice : ConnectorFailure) :
    List ExternalId → List α → Except ConnectorFailure (List (ResourceObservation × γ))
  | _, [] => .ok []
  | identities, item :: items => do
      let mapped ← mapOne item
      if mapped.1.externalId ∈ identities then .error twice
      else
        let rest ← mapEach mapOne twice (mapped.1.externalId :: identities) items
        return mapped :: rest

/-! ## §3  Repositories -/

def repositoryKind : ResourceKind := ⟨"github.repository", by decide +kernel⟩
def workflowKind : ResourceKind := ⟨"github.workflow", by decide +kernel⟩
def runKind : ResourceKind := ⟨"github.workflow_run", by decide +kernel⟩

def resourceTypeLabel : LabelKey := ⟨"github.resource_type", by decide +kernel⟩
def visibilityLabel : LabelKey := ⟨"github.visibility", by decide +kernel⟩
def statusLabel : LabelKey := ⟨"github.status", by decide +kernel⟩

structure RepositoryRouteContext where
  repositoryId : Nat
  repositoryExternalId : ExternalId
  owner : String
  name : String
  scope : Scope
  observedAt : Timestamp

structure RepositoryMapperOutput where
  resources : List ResourceObservation
  modules : List ModuleResult
  routes : List RepositoryRouteContext

def sortRoutes (routes : List RepositoryRouteContext) : List RepositoryRouteContext :=
  routes.insertionSort fun a b => a.repositoryExternalId ≤ b.repositoryExternalId

def sortModules (modules : List ModuleResult) : List ModuleResult :=
  modules.insertionSort fun a b => a.module ≤ b.module

def RepositoryMapperOutput.merge (output other : RepositoryMapperOutput) :
    RepositoryMapperOutput where
  resources := sortResources (output.resources ++ other.resources)
  modules := sortModules (output.modules ++ other.modules)
  routes := sortRoutes (output.routes ++ other.routes)

def maxRepositoriesPerBatch : Nat := 2000

/-- `json!` of an `Option<String>`. -/
def optionalText (text : Option String) : Value := (text.map Value.string).getD .null

def repositoryAttributes (repository : RepositoryDto) : Value :=
  .mkObject
    [("repository_id", .ofNat repository.id), ("visibility", .string repository.visibility),
      ("default_branch", optionalText repository.defaultBranch),
      ("archived", .bool repository.archived), ("disabled", .bool repository.disabled),
      ("created_at", .string repository.createdAt), ("updated_at", .string repository.updatedAt)]

def mapRepository (scope : Scope) (observedAt : Timestamp) (repository : RepositoryDto) :
    Except ConnectorFailure (ResourceObservation × RepositoryRouteContext) := do
  validateRequired repository.name "repository name"
  validateRequired repository.owner.login "repository owner"
  validateRouteSegment repository.owner.login "repository owner"
  validateRouteSegment repository.name "repository name"
  validateRequired repository.visibility "repository visibility"
  validateOptional repository.defaultBranch "repository default branch"
  validateRequired repository.createdAt "repository created_at"
  validateRequired repository.updatedAt "repository updated_at"
  if repository.visibility ∉ ["public", "private", "internal"] then
    .error (invalidResponse "GitHub repository visibility is unsupported")
  else
    let externalId ← numbered repositoryMapper "github-repository" repository.id
    return (
      { kind := repositoryKind
        externalId := externalId
        name := repository.name
        displayName := repository.name
        scope := scope
        labels :=
          OrderedMap.insert
            (OrderedMap.insert KeyedTable.empty resourceTypeLabel "repository")
            visibilityLabel repository.visibility
        health := .unknown
        attributes := repositoryAttributes repository
        attributeSchemaVersion := .one
        observedAt := observedAt },
      { repositoryId := repository.id
        repositoryExternalId := externalId
        owner := repository.owner.login
        name := repository.name
        scope := scope
        observedAt := observedAt })

def mapRepositories (scope : Scope) (observedAt : Timestamp) (repositories : List RepositoryDto)
    (bounded : Bool) (failure : Option ConnectorFailure) :
    Except ConnectorFailure RepositoryMapperOutput := do
  let mapped ← mapEach (mapRepository scope observedAt)
    (invalidResponse "GitHub repositories contain duplicate identities") []
    (repositories.take maxRepositoriesPerBatch)
  return {
    resources := sortResources (mapped.map Prod.fst)
    modules :=
      [{ module := "github.repositories"
         bounded := bounded || decide (maxRepositoriesPerBatch < repositories.length)
         failure := failure }]
    routes := sortRoutes (mapped.map Prod.snd) }

def findTargetedRoute (routes : List RepositoryRouteContext) (externalId : ExternalId) :
    Except ConnectorFailure RepositoryRouteContext :=
  match routes.find? fun route => decide (route.repositoryExternalId = externalId) with
  | some route => .ok route
  | none => .error (invalidResponse "GitHub targeted repository route context is unavailable")

/-! ## §4  Workflows and runs -/

structure GitHubRepositoryContext where
  repositoryExternalId : ExternalId
  scope : Scope
  observedAt : Timestamp

def maxWorkflowsPerRepository : Nat := 200

def maxRunsPerRepository : Nat := 100

def containsKind : RelationKind := ⟨"github.contains", by decide +kernel⟩
def executesKind : RelationKind := ⟨"github.executes", by decide +kernel⟩

/-- The field both relations are read from. -/
def workflowIdField : FieldPath := ⟨"attributes.workflow_id", by decide +kernel⟩

def actionLabels (resourceType : String) (status : Option String) : OrderedMap LabelKey String :=
  let labels := OrderedMap.insert KeyedTable.empty resourceTypeLabel resourceType
  match status with
  | some status => OrderedMap.insert labels statusLabel status
  | none => labels

def workflowAttributes (workflow : WorkflowDto) : Value :=
  .mkObject
    [("workflow_id", .ofNat workflow.id), ("path", .string workflow.path),
      ("state", .string workflow.state), ("created_at", .string workflow.createdAt),
      ("updated_at", .string workflow.updatedAt)]

def mapWorkflow (context : GitHubRepositoryContext) (workflow : WorkflowDto) :
    Except ConnectorFailure (ResourceObservation × RelationObservation) := do
  validateRequired workflow.name "workflow name"
  validateRequired workflow.path "workflow path"
  validateRequired workflow.state "workflow state"
  validateRequired workflow.createdAt "workflow created_at"
  validateRequired workflow.updatedAt "workflow updated_at"
  let externalId ← numbered actionMapper "github-workflow" workflow.id
  let evidenceKey ← numbered actionMapper "github-provider-workflow" workflow.id
  return (
    { kind := workflowKind
      externalId := externalId
      name := workflow.name
      displayName := workflow.name
      scope := context.scope
      labels := actionLabels "workflow" none
      health := .unknown
      attributes := workflowAttributes workflow
      attributeSchemaVersion := .one
      observedAt := context.observedAt },
    { source := { kind := repositoryKind, externalId := context.repositoryExternalId }
      target := { kind := workflowKind, externalId := externalId }
      kind := containsKind
      evidenceKey := evidenceKey
      fieldPath := workflowIdField
      observedAt := context.observedAt })

def actionHealth (status : String) (conclusion : Option String) : ResourceHealth :=
  if status ≠ "completed" then .unknown
  else
    match conclusion with
    | none => .unknown
    | some conclusion =>
        if conclusion = "success" then .healthy
        else if conclusion ∈ ["failure", "timed_out", "startup_failure", "action_required"] then
          .unhealthy
        else if conclusion ∈ ["cancelled", "stale"] then .degraded
        else .unknown

def runAttributes (run : WorkflowRunDto) : Value :=
  .mkObject
    [("run_id", .ofNat run.id), ("workflow_id", .ofNat run.workflowId),
      ("run_number", .ofNat run.runNumber), ("status", .string run.status),
      ("conclusion", optionalText run.conclusion), ("created_at", .string run.createdAt)]

def mapRun (context : GitHubRepositoryContext) (run : WorkflowRunDto) :
    Except ConnectorFailure (ResourceObservation × RelationObservation) := do
  validateOptional run.name "run name"
  validateRequired run.displayTitle "run display title"
  validateRequired run.status "run status"
  validateOptional run.conclusion "run conclusion"
  validateRequired run.createdAt "run created_at"
  let externalId ← numbered actionMapper "github-run" run.id
  let workflowExternalId ← numbered actionMapper "github-workflow" run.workflowId
  let evidenceKey ← numbered actionMapper "github-provider-run" run.id
  return (
    { kind := runKind
      externalId := externalId
      name := "run-" ++ toString run.runNumber
      displayName := run.displayTitle
      scope := context.scope
      labels := actionLabels "workflow_run" (some run.status)
      health := actionHealth run.status run.conclusion
      attributes := runAttributes run
      attributeSchemaVersion := .one
      observedAt := context.observedAt },
    { source := { kind := workflowKind, externalId := workflowExternalId }
      target := { kind := runKind, externalId := externalId }
      kind := executesKind
      evidenceKey := evidenceKey
      fieldPath := workflowIdField
      observedAt := context.observedAt })

/-- `output`: what the mapped items make of a module. -/
def actionOutput (module : String) (mapped : List (ResourceObservation × RelationObservation))
    (bounded : Bool) (failure : Option ConnectorFailure) : ActionMapperOutput where
  resources := sortResources (mapped.map Prod.fst)
  relations := sortRelations (mapped.map Prod.snd)
  modules := [{ module := module, bounded := bounded, failure := failure }]

def mapWorkflows (context : GitHubRepositoryContext) (workflows : List WorkflowDto)
    (bounded : Bool) (failure : Option ConnectorFailure) :
    Except ConnectorFailure ActionMapperOutput := do
  let mapped ← mapEach (mapWorkflow context)
    (invalidResponse "GitHub workflows contain duplicate identities") []
    (workflows.take maxWorkflowsPerRepository)
  return actionOutput "github.actions.workflows" mapped
    (bounded || decide (maxWorkflowsPerRepository < workflows.length)) failure

def mapRuns (context : GitHubRepositoryContext) (runs : List WorkflowRunDto)
    (bounded : Bool) (failure : Option ConnectorFailure) :
    Except ConnectorFailure ActionMapperOutput := do
  let mapped ← mapEach (mapRun context)
    (invalidResponse "GitHub workflow runs contain duplicate identities") []
    (runs.take maxRunsPerRepository)
  return actionOutput "github.actions.runs" mapped
    (bounded || decide (maxRunsPerRepository < runs.length)) failure

end GitHub

end NextInfra
