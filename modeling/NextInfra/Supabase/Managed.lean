import Mathlib.Data.List.Sort
import NextInfra.Connector.Http
import NextInfra.Connector.Naming
import NextInfra.Lib.Entries

/-!
# The managed Supabase connector

Two requests, each for one list, then the organizations and the projects are mapped and
each project is related to its organization. The id of the organization is not mapped:
it reaches the relations as the provider gave it (`managedRelations_isSome_iff`).
-/

namespace NextInfra

namespace Supabase

/-! ## §1  The wire -/

structure OrganizationDto where
  id : String
  name : String

structure ProjectDto where
  id : String
  name : String
  organizationId : Option String
  region : Option String
  status : Option String

/-- `Url::join` on the management origin, `HeaderValue::from_str` and
`serde_json::from_slice` at each type. -/
structure Wire where
  join : String → Option String
  headerValue : String → Option String
  projects : Body → Option (List ProjectDto)
  organizations : Body → Option (List OrganizationDto)

structure ManagementRequest where
  url : String
  authorization : String

/-- The answer to the request of a number. -/
abbrev Transport := Nat → ManagementRequest → Except ConnectorFailure Body

/-- `ManagementRequest::new`. -/
def Wire.request (wire : Wire) (path : String) (secret : List UInt8) : Option ManagementRequest :=
  if path.toList.head? ≠ some '/' ∨ (path.toList.any fun c => c == '?' || c == '#') = true then none
  else do
    let url ← wire.join path
    let token ← String.fromUTF8? ⟨secret.toArray⟩
    let authorization ← wire.headerValue ("Bearer " ++ token)
    some { url := url, authorization := authorization }

def failure (code : ErrorCode) (message : String) : ConnectorFailure :=
  { code := code, message := message, retryable := false, retryAfterMs := none }

def invalidResponse : ConnectorFailure :=
  failure .invalidResponse "Supabase Management API response is invalid"

structure ValidationIssue where
  code : ErrorCode
  message : String

def validateConnection (connection : ConnectionInput) : List ValidationIssue :=
  (if connection.connectorType ≠ .supabaseManaged then
      [⟨.invalidDomainValue, "Supabase managed connector type mismatch"⟩]
    else []) ++
  if connection.configSchemaVersion ≠ .one ∨
      (connection.config.asObject.any fun fields => fields.isEmpty) = false then
    [⟨.schemaIncompatible, "Supabase managed config schema is unsupported"⟩]
  else []

/-! ## §2  The mapper -/

def kind (name : String) (h : IsNamespaced name.toList := by decide +kernel) : ResourceKind :=
  ⟨name, h⟩

def organizationKind : ResourceKind := kind "supabase.managed.organization"

def projectKind : ResourceKind := kind "supabase.managed.project"

def map (kind : ResourceKind) (ctx : Context) (id name : String) (attributes : Value) :
    Except String ResourceObservation :=
  if id = "" ∨ name = "" then .error "Supabase managed identity is invalid"
  else do
    let externalId ← orMessage "invalid id" (StringValue.new (kind.val ++ ":" ++ id))
    .ok
      { kind := kind
        externalId := externalId
        name := id
        displayName := name
        scope := ctx.scope
        labels :=
          OrderedMap.insert KeyedTable.empty ⟨"supabase.control_plane", by decide +kernel⟩ "managed"
        health := .unknown
        attributes := attributes
        attributeSchemaVersion := .one
        observedAt := ctx.observedAt }

def mapOrganization (ctx : Context) (v : OrganizationDto) : Except String ResourceObservation :=
  map organizationKind ctx v.id v.name (.mkObject [])

def mapProject (ctx : Context) (v : ProjectDto) : Except String ResourceObservation :=
  map projectKind ctx v.id v.name
    (.mkObject
      [("organization_id", optional v.organizationId), ("region", optional v.region),
        ("status", optional v.status)])

/-! ## §3  The relations -/

def containsKind : RelationKind := ⟨"supabase.contains", by decide +kernel⟩

/-- The turn of the loop for one resource: `none` where the source unwraps a name that
is not valid, which panics. -/
def relationOf (resources : List ResourceObservation) (project : ResourceObservation) :
    Option (Option RelationObservation) :=
  if project.kind ≠ projectKind then some none
  else
    match (project.attributes.get "organization_id").bind Value.asStr with
    | none => some none
    | some organizationId => do
        let sourceId ← (StringValue.new (organizationKind.val ++ ":" ++ organizationId)).toOption
        if resources.any fun r => decide (r.kind = organizationKind ∧ r.externalId = sourceId) then do
          let evidenceKey ←
            (StringValue.new ("supabase:contains" ++ ":" ++ project.externalId.val)).toOption
          let fieldPath ← (StringValue.new "organization_id").toOption
          some <| some
            { source := { kind := organizationKind, externalId := sourceId }
              target := { kind := project.kind, externalId := project.externalId }
              kind := containsKind
              evidenceKey := evidenceKey
              fieldPath := fieldPath
              observedAt := project.observedAt }
        else some none

def managedRelations (resources : List ResourceObservation) : Option (List RelationObservation) :=
  (resources.mapM (relationOf resources)).map List.reduceOption

/-! ## §4  The sync -/

section

variable (wire : Wire) (transport : Transport)

/-- A request is made and sent. -/
def get (number : Nat) (path : String) (secret : List UInt8) : Except ConnectorFailure Body :=
  match wire.request path secret with
  | none => .error invalidResponse
  | some request => transport number request

/-- Both lists, once both are answered. -/
def fetch (secret : List UInt8) :
    Except ConnectorFailure (List ProjectDto × List OrganizationDto) := do
  let projectsBody ← get wire transport 0 "/v1/projects" secret
  let organizationsBody ← get wire transport 1 "/v1/organizations" secret
  match wire.projects projectsBody, wire.organizations organizationsBody with
  | some projects, some organizations => .ok (projects, organizations)
  | _, _ => .error invalidResponse

/-- The observations of one sync are stamped with the epoch. -/
def contextOf (request : SyncRequest) : Context where
  scope := request.scope
  observedAt := ⟨0, Nat.zero_le _⟩

def resourceKey (r : ResourceObservation) : ResourceKind ×ₗ ExternalId :=
  toLex (r.kind, r.externalId)

def mapResources (ctx : Context) (projects : List ProjectDto)
    (organizations : List OrganizationDto) : Except String (List ResourceObservation) := do
  let resources ← organizations.mapM (mapOrganization ctx)
  let mapped ← projects.mapM (mapProject ctx)
  .ok ((resources ++ mapped).insertionSort fun a b => resourceKey a ≤ resourceKey b)

def outcome (scope : Scope) (resources : List ResourceObservation)
    (relations : List RelationObservation) : SyncOutcome :=
  .complete
    { resources := resources
      relations := relations
      coverage := .authoritativeFull scope
      nextCursor := none
      warnings := []
      redactionReport := {}
      providerRequestSummary := { requestCount := 2 } }

def finish (request : SyncRequest) (resources : List ResourceObservation) :
    Option (Except ConnectorFailure SyncOutcome) :=
  (managedRelations resources).map fun relations =>
    let outcome := outcome request.scope resources relations
    match outcome.validateFor request with
    | .error _ => .error invalidResponse
    | .ok () => .ok outcome

/-- `SupabaseManagedConnector::sync`: `none` where it panics. -/
def sync (request : SyncRequest) (secret : Option (List UInt8)) :
    Option (Except ConnectorFailure SyncOutcome) :=
  match validateConnection request.connection with
  | issue :: _ => some (.error (failure issue.code issue.message))
  | [] =>
      match secret with
      | none =>
          some (.error (failure .credentialUnavailable
            "Supabase Management API credential is unavailable"))
      | some secret =>
          match fetch wire transport secret with
          | .error f => some (.error f)
          | .ok (projects, organizations) =>
              match mapResources (contextOf request) projects organizations with
              | .error _ => some (.error invalidResponse)
              | .ok resources => finish request resources

end

/-! ## §5  Where the relations can be named -/

/-- The identities the mapper takes. -/
def Mappable (id name : String) : Prop := id ≠ "" ∧ name ≠ "" ∧ Unpadded id

theorem map_isOk_iff {kind : ResourceKind} {ctx : Context} {id name : String} {attributes : Value} :
    (∃ r, map kind ctx id name attributes = .ok r) ↔ Mappable id name := by
  unfold map Mappable
  by_cases hempty : id = "" ∨ name = ""
  · rw [if_pos hempty]
    constructor
    · rintro ⟨_, h⟩
      cases h
    · rintro ⟨hid, hname, _⟩
      exact absurd hempty (not_or.mpr ⟨hid, hname⟩)
  · rw [if_neg hempty]
    rw [← trimmed_named_iff kind.startsVisible]
    constructor
    · rintro ⟨_, h⟩
      obtain ⟨externalId, hid, _⟩ := bind_ok h
      refine ⟨fun h => hempty (.inl h), fun h => hempty (.inr h), ?_⟩
      apply StringValue.new_ok_iff.mp
      unfold orMessage at hid
      split at hid
      · exact ⟨_, by assumption⟩
      · cases hid
    · rintro ⟨_, _, htrimmed⟩
      rw [StringValue.new_ok htrimmed]
      exact ⟨_, rfl⟩

/-- A mapped project keeps the id of its organization as it was given. -/
theorem mapProject_spec {ctx : Context} {v : ProjectDto} {r : ResourceObservation}
    (h : mapProject ctx v = .ok r) : r.kind = projectKind ∧
      (r.attributes.get "organization_id").bind Value.asStr = v.organizationId := by
  unfold mapProject map at h
  split at h
  · cases h
  obtain ⟨externalId, _, h⟩ := bind_ok h
  cases h
  refine ⟨rfl, ?_⟩
  show (Value.fieldOf _ (Value.setField _ _ _)).bind _ = _
  have hstatus : ¬"organization_id" = "status" := by decide
  have hregion : ¬"organization_id" = "region" := by decide
  rw [Value.fieldOf_setField, if_neg hstatus, Value.fieldOf_setField, if_neg hregion,
    Value.fieldOf_setField, if_pos rfl]
  cases v.organizationId <;> rfl

theorem mapOrganization_kind {ctx : Context} {v : OrganizationDto} {r : ResourceObservation}
    (h : mapOrganization ctx v = .ok r) : r.kind = organizationKind := by
  unfold mapOrganization map at h
  split at h
  · cases h
  obtain ⟨externalId, _, h⟩ := bind_ok h
  cases h
  rfl

theorem relationOf_isSome_iff {resources : List ResourceObservation} {r : ResourceObservation} :
    (relationOf resources r).isSome = true ↔
      (r.kind = projectKind →
        ∀ id, (r.attributes.get "organization_id").bind Value.asStr = some id → Unpadded id) := by
  unfold relationOf
  by_cases hkind : r.kind = projectKind
  · rw [if_neg (not_not.mpr hkind), imp_iff_right hkind]
    cases (r.attributes.get "organization_id").bind Value.asStr with
    | none => exact iff_of_true rfl fun id h => by cases h
    | some id =>
        have hone : (∀ id', some id = some id' → Unpadded id') ↔ Unpadded id :=
          ⟨fun h => h id rfl, fun h id' heq => Option.some.inj heq ▸ h⟩
        have hpath : (StringValue.new "organization_id" : Except DomainError FieldPath) =
            .ok ⟨"organization_id", by decide⟩ := StringValue.new_ok _
        obtain ⟨key, hkey⟩ := evidence_named "supabase:contains" ⟨'s', _, rfl, by decide⟩
          r.externalId
        rw [hone, ← @named_iff "ExternalId" id organizationKind]
        dsimp only
        cases (StringValue.new (organizationKind.val ++ ":" ++ id) :
            Except DomainError ExternalId).toOption with
        | none => exact Iff.rfl
        | some sourceId =>
            refine iff_of_true ?_ rfl
            simp only [Option.bind_eq_bind, Option.bind_some]
            split
            · rw [toOption_eq_some_iff.mpr hkey, toOption_eq_some_iff.mpr hpath]
              rfl
            · rfl
  · rw [if_pos hkind]
    exact iff_of_true rfl fun h => absurd h hkind

/-- The relations panic exactly at a project whose organization is padded. -/
theorem managedRelations_isSome_iff {resources : List ResourceObservation} :
    (managedRelations resources).isSome = true ↔
      ∀ r ∈ resources, r.kind = projectKind →
        ∀ id, (r.attributes.get "organization_id").bind Value.asStr = some id → Unpadded id := by
  unfold managedRelations
  rw [Option.isSome_map, Fallible.mapM_isSome_iff]
  exact forall₂_congr fun r _ => relationOf_isSome_iff

/-- What was mapped can be related exactly when no project names a padded organization. -/
theorem finish_isSome_iff {request : SyncRequest} {ctx : Context} {projects : List ProjectDto}
    {organizations : List OrganizationDto} {resources : List ResourceObservation}
    (h : mapResources ctx projects organizations = .ok resources) :
    (finish request resources).isSome = true ↔
      ∀ p ∈ projects, ∀ id ∈ p.organizationId, Unpadded id := by
  obtain ⟨mappedOrganizations, horganizations, h⟩ := bind_ok h
  obtain ⟨mappedProjects, hprojects, h⟩ := bind_ok h
  cases h
  unfold finish
  rw [Option.isSome_map, managedRelations_isSome_iff]
  simp only [List.mem_insertionSort, List.mem_append]
  constructor
  · intro hnamed p hp id hid
    obtain ⟨r, hr, hmap⟩ := Fallible.result_of_mapM hprojects hp
    obtain ⟨hkind, horganization⟩ := mapProject_spec hmap
    exact hnamed r (.inr hr) hkind id (horganization.trans hid)
  · intro hunpadded r hr hkind id hid
    rcases hr with hr | hr
    · obtain ⟨o, _, hmap⟩ := Fallible.argument_of_mapM horganizations hr
      rw [mapOrganization_kind hmap] at hkind
      exact absurd hkind (by decide +kernel)
    · obtain ⟨p, hp, hmap⟩ := Fallible.argument_of_mapM hprojects hr
      exact hunpadded p hp id ((mapProject_spec hmap).2.symm.trans hid)

theorem mapResources_isOk_iff {ctx : Context} {projects : List ProjectDto}
    {organizations : List OrganizationDto} :
    (∃ resources, mapResources ctx projects organizations = .ok resources) ↔
      (∀ o ∈ organizations, Mappable o.id o.name) ∧ ∀ p ∈ projects, Mappable p.id p.name := by
  constructor
  · rintro ⟨resources, h⟩
    obtain ⟨mappedOrganizations, horganizations, h⟩ := bind_ok h
    obtain ⟨mappedProjects, hprojects, _⟩ := bind_ok h
    constructor
    · intro o ho
      obtain ⟨r, _, hr⟩ := Fallible.result_of_mapM horganizations ho
      exact map_isOk_iff.mp ⟨r, hr⟩
    · intro p hp
      obtain ⟨r, _, hr⟩ := Fallible.result_of_mapM hprojects hp
      exact map_isOk_iff.mp ⟨r, hr⟩
  · rintro ⟨horganizations, hprojects⟩
    have hmapO : ∀ o ∈ organizations, ∃ r, mapOrganization ctx o = .ok r :=
      fun o ho => map_isOk_iff.mpr (horganizations o ho)
    have hmapP : ∀ p ∈ projects, ∃ r, mapProject ctx p = .ok r :=
      fun p hp => map_isOk_iff.mpr (hprojects p hp)
    obtain ⟨mappedOrganizations, hmappedO⟩ := Fallible.mapM_ok_of_forall hmapO
    obtain ⟨mappedProjects, hmappedP⟩ := Fallible.mapM_ok_of_forall hmapP
    unfold mapResources
    rw [hmappedO, hmappedP]
    exact ⟨_, rfl⟩

/-- A sync returns exactly when no project names a padded organization, or something keeps it
from the relations: the connection is refused, a list is not read, or an item is not mapped. -/
theorem sync_isSome_iff {wire : Wire} {transport : Transport} {request : SyncRequest}
    {secret : Option (List UInt8)} :
    (sync wire transport request secret).isSome = true ↔
      ∀ token projects organizations, validateConnection request.connection = [] →
        secret = some token → fetch wire transport token = .ok (projects, organizations) →
        (∀ o ∈ organizations, Mappable o.id o.name) → (∀ p ∈ projects, Mappable p.id p.name) →
        ∀ p ∈ projects, ∀ id ∈ p.organizationId, Unpadded id := by
  unfold sync
  cases hvalid : validateConnection request.connection with
  | cons issue issues => exact iff_of_true rfl fun _ _ _ h => by cases h
  | nil =>
      cases secret with
      | none => exact iff_of_true rfl fun _ _ _ _ h => by cases h
      | some token =>
          dsimp only
          rcases hfetch : fetch wire transport token with f | ⟨projects, organizations⟩
          · refine iff_of_true rfl fun token' _ _ _ htoken h => ?_
            cases htoken
            rw [hfetch] at h
            cases h
          · have hread : (∀ token' projects' organizations', [] = ([] : List ValidationIssue) →
                some token = some token' →
                fetch wire transport token' = .ok (projects', organizations') →
                (∀ o ∈ organizations', Mappable o.id o.name) →
                (∀ p ∈ projects', Mappable p.id p.name) →
                ∀ p ∈ projects', ∀ id ∈ p.organizationId, Unpadded id) ↔
                ((∀ o ∈ organizations, Mappable o.id o.name) ∧
                  (∀ p ∈ projects, Mappable p.id p.name) →
                  ∀ p ∈ projects, ∀ id ∈ p.organizationId, Unpadded id) := by
              constructor
              · exact fun h hmap => h token projects organizations rfl rfl hfetch hmap.1 hmap.2
              · intro h token' projects' organizations' _ htoken hfetch' horganizations hprojects
                cases htoken
                cases hfetch.symm.trans hfetch'
                exact h ⟨horganizations, hprojects⟩
            rw [hread, ← @mapResources_isOk_iff (contextOf request)]
            dsimp only
            cases hmapped : mapResources (contextOf request) projects organizations with
            | error e =>
                refine iff_of_true rfl ?_
                rintro ⟨_, h⟩
                cases h
            | ok resources =>
                show (finish request resources).isSome = true ↔ _
                rw [finish_isSome_iff hmapped]
                exact ⟨fun h _ => h, fun h => h ⟨resources, rfl⟩⟩

end Supabase

end NextInfra
