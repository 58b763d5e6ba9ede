import NextInfra.Connector.Http
import NextInfra.Connector.Naming
import NextInfra.Lib.Entries

/-!
# The self-hosted Supabase connector

One document lists the paths of an instance; each exposed path becomes a table and gets
a relation from the instance. A table is named by what follows the last dot of its path,
whatever stands before it.
-/

namespace NextInfra

namespace Supabase

namespace SelfHosted

/-! ## §1  The document -/

structure OpenApiSpec where
  paths : OrderedMap String Value
  security : List Value

/-- `serde_json::from_slice`. -/
abbrev Decode := Body → Option OpenApiSpec

/-- The name of the first security scheme. -/
def extractAuthRole (spec : OpenApiSpec) : Option String := do
  let security ← spec.security.head?
  let fields ← security.asObject
  let field ← fields.head?
  some field.1

/-- A path that is neither empty nor the root nor an admin route. -/
def isExposed (path : String) : Bool :=
  !path.isEmpty && !decide (path = "/") && !"/_".toList.isPrefixOf path.toList &&
    "/".toList.isPrefixOf path.toList

structure Table where
  name : String
  schema : Option String

/-- `path.trim_start_matches('/').split('.')`. -/
def segmentsOf (path : String) : List String :=
  ((path.toList.dropWhile fun c => c == '/').splitOn '.').map String.ofList

/-- The table of a path. The id the source makes of the whole path beside it is dropped by
its only caller. -/
def tableOf (path : String) : Table :=
  match segmentsOf path with
  | [schema, name] => { name := name, schema := some schema }
  | segments => { name := segments.getLast?.getD path, schema := none }

def parseTablesFromOpenapi (spec : OpenApiSpec) : List Table :=
  ((spec.paths.rows.map Prod.fst).filter isExposed).map tableOf

/-! ## §2  The mapper -/

def instanceKind : ResourceKind := ⟨"supabase.self_hosted.instance", by decide +kernel⟩

def tableKind : ResourceKind := ⟨"supabase.self_hosted.table", by decide +kernel⟩

theorem contains_named : IsNamespaced "supabase.contains".toList := by decide

def containsKind : RelationKind := ⟨"supabase.contains", contains_named⟩

theorem controlPlane_named : IsNamespaced "supabase.control_plane".toList := by decide

def labels : OrderedMap LabelKey String :=
  OrderedMap.insert
    (OrderedMap.insert KeyedTable.empty ⟨"supabase.control_plane", controlPlane_named⟩ "self_hosted")
    ⟨"supabase.source", by decide +kernel⟩ "openapi"

/-- `format!("{:016x}")`. -/
def hex16 (n : UInt64) : String :=
  String.ofList ((List.range 16).map fun i => Nat.digitChar (n.toNat / 16 ^ (15 - i) % 16))

/-- FNV-1a over the bytes of the scope. -/
def stableScopeDigest (scope : Scope) : String :=
  hex16 (scope.val.toUTF8.data.toList.foldl
    (fun digest byte => (digest ^^^ byte.toUInt64) * 0x100000001b3) 0xcbf29ce484222325)

def trimText (text : String) : String := String.ofList (trim text.toList)

def maxDisplayNameBytes : Nat := 120

def mapInstance (ctx : Context) (connectionDisplayName : String) :
    Except String ResourceObservation :=
  let displayName := trimText connectionDisplayName
  if displayName = "" ∨ maxDisplayNameBytes < displayName.utf8ByteSize then
    .error "invalid display name"
  else do
    let externalId ← orMessage "invalid id"
      (StringValue.new (instanceKind.val ++ ":" ++ stableScopeDigest ctx.scope))
    .ok
      { kind := instanceKind
        externalId := externalId
        name := displayName
        displayName := displayName
        scope := ctx.scope
        labels := labels
        health := .unknown
        attributes := .mkObject []
        attributeSchemaVersion := .one
        observedAt := ctx.observedAt }

def configuredDisplayName (config : Value) : Option String :=
  (((config.get "display_name").bind Value.asStr).map trimText).filter fun value =>
    decide (value ≠ "" ∧ value.utf8ByteSize ≤ maxDisplayNameBytes)

def tableAttributes (table : Table) (authRole : Option String) : Value :=
  .mkObject (("table", .string table.name) ::
    ((table.schema.map fun schema => ("schema", Value.string schema)).toList ++
      (authRole.map fun role => ("auth_role", Value.string role)).toList))

def mapTable (ctx : Context) (authRole : Option String) (table : Table) :
    Except String ResourceObservation := do
  let externalId ← orMessage "invalid id" (StringValue.new (tableKind.val ++ ":" ++ table.name))
  .ok
    { kind := tableKind
      externalId := externalId
      name := table.name
      displayName := table.name
      scope := ctx.scope
      labels := labels
      health := .unknown
      attributes := tableAttributes table authRole
      attributeSchemaVersion := .one
      observedAt := ctx.observedAt }

theorem evidence_trimmed (id : ExternalId) : Trimmed ("supabase:contains" ++ ":" ++ id.val) :=
  (trimmed_named_iff ⟨'s', _, rfl, by decide⟩).mpr (EndsVisible.unpadded id.trimmed.last_visible)

/-- The relation to one table. The names the source unwraps are always valid. -/
def tableRelation (instance_ table : ResourceObservation) : RelationObservation where
  source := { kind := instance_.kind, externalId := instance_.externalId }
  target := { kind := table.kind, externalId := table.externalId }
  kind := containsKind
  evidenceKey := ⟨"supabase:contains" ++ ":" ++ table.externalId.val, evidence_trimmed _⟩
  fieldPath := ⟨"paths", by decide⟩
  observedAt := table.observedAt

def mapTableRelations (instance_ : ResourceObservation) (tables : List ResourceObservation) :
    List RelationObservation :=
  tables.map (tableRelation instance_)

/-! ## §3  The sync -/

def maxTables : Nat := 500

def defaultInstanceDisplayName : String := "Supabase Self-hosted"

def connectorType : ConnectorType := ⟨"supabase-self-hosted", by decide⟩

def permanentFailure (code : ErrorCode) (message : String) : ConnectorFailure :=
  { code := code, message := message, retryable := false, retryAfterMs := none }

def invalidResponse : ConnectorFailure :=
  permanentFailure .invalidResponse "Supabase self-hosted source response is invalid"

/-- The observations of one sync are stamped with the epoch. -/
def contextOf (request : SyncRequest) : Context where
  scope := request.scope
  observedAt := ⟨0, Nat.zero_le _⟩

def displayNameOf (request : SyncRequest) : String :=
  (configuredDisplayName request.connection.config).getD defaultInstanceDisplayName

def outcomeOf (scope : Scope) (truncated : Bool) (instance_ : ResourceObservation)
    (tables : List ResourceObservation) : SyncOutcome :=
  let batch (coverage : SyncCoverage) (warnings : List ObservationWarning) : ObservationBatch :=
    { resources := instance_ :: tables
      relations := mapTableRelations instance_ tables
      coverage := coverage
      nextCursor := none
      warnings := warnings
      redactionReport := {}
      providerRequestSummary := {} }
  if truncated then
    .partial_
      (batch (.partial_ (some scope) .paginationIncomplete)
        [{ code := .partialPagination
           message := "Table inventory truncated: " ++ toString tables.length ++
            " tables found, limit " ++ toString maxTables }])
      { code := .partialPagination
        message := "Table inventory truncated"
        retryable := true
        retryAfterMs := none }
  else .complete (batch (.authoritativeFull scope) [])

/-- What the sync does with a document. -/
def finish (request : SyncRequest) (spec : OpenApiSpec) : Except ConnectorFailure SyncOutcome :=
  let tables := parseTablesFromOpenapi spec
  match (tables.take maxTables).mapM (mapTable (contextOf request) (extractAuthRole spec)),
    mapInstance (contextOf request) (displayNameOf request) with
  | .ok mapped, .ok instance_ =>
      let outcome :=
        outcomeOf request.scope (decide (maxTables < tables.length)) instance_ mapped
      match outcome.validateFor request with
      | .error _ => .error invalidResponse
      | .ok () => .ok outcome
  | _, _ => .error invalidResponse

/-- `SupabaseSelfHostedConnector::sync`: the one answer of the transport is `answer`. -/
def sync (decode : Decode) (answer : Except ConnectorFailure Body) (request : SyncRequest) :
    Except ConnectorFailure SyncOutcome :=
  if request.connection.connectorType ≠ connectorType then
    .error (permanentFailure .invalidDomainValue "Supabase self-hosted connector type mismatch")
  else do
    let body ← answer
    match decode body with
    | none => .error invalidResponse
    | some spec => finish request spec

end SelfHosted

end Supabase

end NextInfra
