import NextInfra.Cloud.Listing

/-!
# The sync of the two cloud connectors

A sync reads its modules one after the other, keeps what each has read and remembers
the last failure. Without one the outcome covers the whole scope.
-/

namespace NextInfra

namespace Cloud

/-! ## §1  A provider -/

/-- One row of the table of modules. -/
structure Module where
  module : String
  kind : ResourceKind
  action : String
  version : String

/-- What the requests of one sync have in common. -/
structure Session where
  scope : Scope
  region : String
  key : String
  secret : List UInt8

/-- The observations of one sync are stamped with the epoch. -/
def Session.context (session : Session) : Context where
  scope := session.scope
  observedAt := ⟨0, Nat.zero_le _⟩

/-- What a connector fills in: its table, its lists and its failures. -/
structure Provider (ρ : Type) where
  connectorType : ConnectorType
  keyField : String
  regionPrefix : String
  modules : List Module
  /-- The module that is walked domain by domain, and the kind of its records. -/
  dns : String
  dnsKind : ResourceKind
  mapper : Mapper
  /-- The page size a module is listed with. -/
  modulePageSize : String → Nat
  moduleList : Session → Module → Listing ρ ResourceDto
  domainList : Session → Listing ρ String
  recordList : Session → String → Listing ρ ResourceDto
  /-- The records of a domain have a page limit. -/
  limited : Bool
  /-- An empty page ends a module. -/
  stopsWhenEmpty : Bool
  typeMismatch : ConnectorFailure
  credentialUnavailable : ConnectorFailure
  keyMissing : ConnectorFailure
  invalidOutcome : ConnectorFailure
  moduleRefused : ConnectorFailure
  moduleExhausted : ConnectorFailure
  recordRefused : ConnectorFailure
  recordExhausted : ConnectorFailure
  /-- The failure is returned where nothing was read. -/
  returnsWhenEmpty : ErrorCode → Bool
  dns_listed : ∃ m ∈ modules, m.module = dns
  kinds_apart : ∀ m ∈ modules, m.module ≠ dns → m.kind ≠ dnsKind
  sizes_fit : ∀ m ∈ modules, 0 < modulePageSize m.module ∧ modulePageSize m.module ≤ 100

section

variable {ρ : Type} (p : Provider ρ) (transport : Transport ρ)

def Provider.observe (session : Session) (kind : ResourceKind) (v : ResourceDto) :
    Except String ResourceObservation :=
  p.mapper.map kind session.context v

def Provider.moduleObserving (session : Session) (m : Module) : Observing where
  observe := p.observe session m.kind
  refused := p.moduleRefused
  exhausted := p.moduleExhausted
  stopsWhenEmpty := p.stopsWhenEmpty

def Provider.recordObserving (session : Session) : Observing where
  observe := p.observe session p.dnsKind
  refused := p.recordRefused
  exhausted := p.recordExhausted
  stopsWhenEmpty := true

/-! ## §2  The modules -/

/-- One turn of the loop over the modules. A domain's records are read for `turns` pages. -/
def Provider.fetch (session : Session) (turns : Nat) (m : Module) (number : Nat) :
    Option (ModuleFetch × Nat) :=
  if m.module = p.dns then
    fetchDns transport (p.domainList session) (p.recordList session) (p.recordObserving session)
      p.limited turns number
  else
    some (fetchModule transport (p.moduleList session m) (p.moduleObserving session m) number)

structure Gathered where
  resources : List ResourceObservation
  error : Option ConnectorFailure

def Provider.fetchAll (session : Session) (turns : Nat) :
    List Module → (number : Nat) → Gathered → Option (Gathered × Nat)
  | [], number, gathered => some (gathered, number)
  | m :: modules, number, gathered => do
      let (fetch, next) ← p.fetch transport session turns m number
      Provider.fetchAll session turns modules next
        ⟨gathered.resources ++ fetch.resources, fetch.failure.or gathered.error⟩

/-! ## §3  The outcome -/

def gapReason : ErrorCode → CoverageGapReason
  | .rateLimited => .rateLimited
  | .partialPagination => .paginationIncomplete
  | .authenticationFailed => .permissionDenied
  | .permissionDenied => .permissionDenied
  | _ => .providerUnavailable

/-- How a sync ends: it may not have, it may panic, or it returns. -/
inductive Ending
  | running
  | panicked
  | returned (result : Except ConnectorFailure SyncOutcome)

def resourceKey (r : ResourceObservation) : ResourceKind ×ₗ ExternalId :=
  toLex (r.kind, r.externalId)

def Gathered.sorted (gathered : Gathered) : List ResourceObservation :=
  gathered.resources.insertionSort fun a b => resourceKey a ≤ resourceKey b

def Gathered.outcome (gathered : Gathered) (scope : Scope) (relations : List RelationObservation) :
    SyncOutcome :=
  let batch (coverage : SyncCoverage) : ObservationBatch :=
    { resources := gathered.sorted
      relations := relations
      coverage := coverage
      nextCursor := none
      warnings := []
      redactionReport := {}
      providerRequestSummary := {} }
  match gathered.error with
  | some f => .partial_ (batch (.partial_ (some scope) (gapReason f.code))) f
  | none => .complete (batch (.authoritativeFull scope))

/-- The failure that is returned in place of an empty outcome. -/
def Provider.bareFailure (gathered : Gathered) : Option ConnectorFailure :=
  gathered.error.filter fun f => gathered.resources.isEmpty && p.returnsWhenEmpty f.code

def Provider.finish (gathered : Gathered) (request : SyncRequest) : Ending :=
  match p.bareFailure gathered with
  | some f => .returned (.error f)
  | none =>
      match p.mapper.providerRelations gathered.sorted with
      | none => .panicked
      | some relations =>
          let outcome := gathered.outcome request.scope relations
          match outcome.validateFor request with
          | .error _ => .returned (.error p.invalidOutcome)
          | .ok () => .returned (.ok outcome)

/-- `strip_prefix` and `unwrap_or`. -/
def regionOf (regionPrefix : String) (scope : Scope) : String :=
  ((scope.val.dropPrefix? regionPrefix).map fun rest => rest.toString).getD scope.val

def Provider.sync (turns : Nat) (request : SyncRequest) (secret : Option (List UInt8)) : Ending :=
  if request.connection.connectorType ≠ p.connectorType then .returned (.error p.typeMismatch)
  else
    match secret with
    | none => .returned (.error p.credentialUnavailable)
    | some bytes =>
        match (request.connection.config.get p.keyField).bind Value.asStr with
        | none => .returned (.error p.keyMissing)
        | some key =>
            let session :=
              { scope := request.scope
                region := regionOf p.regionPrefix request.scope
                key := key
                secret := bytes }
            match p.fetchAll transport session turns p.modules 0 ⟨[], none⟩ with
            | none => .running
            | some (gathered, _) => p.finish gathered request

end

end Cloud

end NextInfra
