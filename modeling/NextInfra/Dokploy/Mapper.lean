import Mathlib.Data.List.Sort
import NextInfra.Connector.Mapping
import NextInfra.Dokploy.Client
import NextInfra.Lib.Entries

/-!
# The Dokploy mapper

Five kinds of items become resources. An application gets a relation from its project
and one to its server, a deployment or a domain one from its application, each only when
the other end is there too.
-/

namespace NextInfra

namespace Dokploy

/-! ## §1  One resource -/

def mapping : Mapping where
  labelKey := ⟨"dokploy.resource_type", by decide +kernel⟩
  invalidIdentity := "Dokploy resource identity is invalid"

theorem project_named : IsNamespaced "dokploy.project".toList := by decide
theorem application_named : IsNamespaced "dokploy.application".toList := by decide
theorem deployment_named : IsNamespaced "dokploy.deployment".toList := by decide
theorem server_named : IsNamespaced "dokploy.server".toList := by decide
theorem domain_named : IsNamespaced "dokploy.domain".toList := by decide

def projectKind : MappedKind := ⟨⟨"dokploy.project", project_named⟩, "project"⟩
def applicationKind : MappedKind := ⟨⟨"dokploy.application", application_named⟩, "application"⟩
def deploymentKind : MappedKind := ⟨⟨"dokploy.deployment", deployment_named⟩, "deployment"⟩
def serverKind : MappedKind := ⟨⟨"dokploy.server", server_named⟩, "server"⟩
def domainKind : MappedKind := ⟨⟨"dokploy.domain", domain_named⟩, "domain"⟩

def project (ctx : Context) (value : ProjectDto) : Except String ResourceObservation :=
  mapping.resource ctx projectKind value.id value.name
    (.mkObject [("description", optional value.description)])

def application (ctx : Context) (value : ApplicationDto) : Except String ResourceObservation :=
  mapping.resource ctx applicationKind value.id value.name
    (.mkObject
      [("project_id", optional value.projectId), ("server_id", optional value.serverId),
        ("environment_id", optional value.environmentId)])

def deployment (ctx : Context) (value : DeploymentDto) : Except String ResourceObservation :=
  mapping.resource ctx deploymentKind value.id value.id
    (.mkObject
      [("application_id", optional value.applicationId), ("status", optional value.status),
        ("created_at", optional value.createdAt), ("title", optional value.title)])

def server (ctx : Context) (value : ServerDto) : Except String ResourceObservation :=
  mapping.resource ctx serverKind value.id value.name
    (.mkObject
      [("address", optional value.ipAddress), ("description", optional value.description),
        ("status", optional value.status)])

def domain (ctx : Context) (value : DomainDto) : Except String ResourceObservation :=
  mapping.resource ctx domainKind value.id value.host
    (.mkObject
      [("application_id", optional value.applicationId),
        ("https", (value.https.map Value.bool).getD .null), ("path", optional value.path)])

/-! ## §2  The whole output -/

structure DokployMapperOutput where
  resources : List ResourceObservation
  relations : List RelationObservation

def containsKind : RelationKind := ⟨"dokploy.contains", by decide +kernel⟩
def runsOnKind : RelationKind := ⟨"dokploy.runs_on", by decide +kernel⟩
def deploysKind : RelationKind := ⟨"dokploy.deploys", by decide +kernel⟩
def exposesKind : RelationKind := ⟨"dokploy.exposes", by decide +kernel⟩

def providerRelation (ctx : Context) (source : ResourceLocator) (target : ResourceObservation)
    (kind : RelationKind) (field : String) : Except String RelationObservation := do
  let evidenceKey ← orMessage "invalid evidence key" <| StringValue.new <|
    "dokploy:" ++ kind.val ++ ":" ++ field ++ ":" ++ target.externalId.val
  let fieldPath ← orMessage "invalid field path" (StringValue.new field)
  .ok
    { source := source
      target := { kind := target.kind, externalId := target.externalId }
      kind := kind
      evidenceKey := evidenceKey
      fieldPath := fieldPath
      observedAt := ctx.observedAt }

abbrev ById := OrderedMap ExternalId ResourceObservation

/-- The id a text attribute of the resource names, and the resource that has it. -/
def named (byId : ById) (kind : MappedKind) (field : String) (resource : ResourceObservation) :
    Except String (Option (ExternalId × ResourceObservation)) :=
  match resource.attributes.get field with
  | some (.string value) => do
      let id ← external kind.kind.val value
      .ok ((OrderedMap.lookup byId id).map fun found => (id, found))
  | _ => .ok none

/-- The relations of an application, or of what belongs to one. -/
def relationsOf (ctx : Context) (byId : ById) (resource : ResourceObservation) :
    Except String (List RelationObservation) :=
  if resource.kind = applicationKind.kind then do
    let contains ←
      match ← named byId projectKind "project_id" resource with
      | some (projectId, _) =>
          (providerRelation ctx ⟨projectKind.kind, projectId⟩ resource containsKind
            "project_id").map ([·])
      | none => .ok []
    let runsOn ←
      match ← named byId serverKind "server_id" resource with
      | some (_, server) =>
          (providerRelation ctx ⟨applicationKind.kind, resource.externalId⟩ server runsOnKind
            "server_id").map ([·])
      | none => .ok []
    .ok (contains ++ runsOn)
  else if resource.kind = deploymentKind.kind ∨ resource.kind = domainKind.kind then do
    match ← named byId applicationKind "application_id" resource with
    | some (applicationId, _) =>
        (providerRelation ctx ⟨applicationKind.kind, applicationId⟩ resource
          (if resource.kind = deploymentKind.kind then deploysKind else exposesKind)
          "application_id").map ([·])
    | none => .ok []
  else .ok []

def resourceKey (r : ResourceObservation) : ResourceKind ×ₗ ExternalId :=
  toLex (r.kind, r.externalId)

def relationKey (r : RelationObservation) : ExternalId ×ₗ ExternalId ×ₗ RelationKind :=
  toLex (r.source.externalId, toLex (r.target.externalId, r.kind))

def mapResources (ctx : Context) (projects : List ProjectDto) (applications : List ApplicationDto)
    (deployments : List DeploymentDto) (servers : List ServerDto) (domains : List DomainDto) :
    Except String DokployMapperOutput := do
  let projects ← projects.mapM (project ctx)
  let applications ← applications.mapM (application ctx)
  let deployments ← deployments.mapM (deployment ctx)
  let servers ← servers.mapM (server ctx)
  let domains ← domains.mapM (domain ctx)
  let resources := projects ++ applications ++ deployments ++ servers ++ domains
  let byId := OrderedMap.ofEntries (resources.map fun r => (r.externalId, r))
  let relations ← resources.mapM (relationsOf ctx byId)
  .ok
    { resources := resources.insertionSort fun a b => resourceKey a ≤ resourceKey b
      relations := relations.flatten.insertionSort fun a b => relationKey a ≤ relationKey b }

end Dokploy

end NextInfra
