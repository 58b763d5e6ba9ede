import NextInfra.Core.Model

/-!
# Connector contracts

What a connector is asked (`SyncRequest`) and what it answers
(`ObservationBatch`, wrapped in `SyncOutcome`, or a `ConnectorFailure`), with
the checks the contract crate makes on an answer.
-/

namespace NextInfra

/-! ## §1  The request -/

structure ConnectionInput where
  connectionId : ConnectionId
  connectorType : ConnectorType
  config : Value
  configSchemaVersion : SchemaVersion

structure ResourceLocator where
  kind : ResourceKind
  externalId : ExternalId
deriving DecidableEq

structure SyncRequest where
  syncRunId : SyncRunId
  connection : ConnectionInput
  mode : SyncMode
  scope : Scope
  cursor : Option SyncCursor
  targetedResources : List ResourceLocator

/-- The mode and coverage pairs the contract crate and the sync engine both
list. -/
def SyncMode.accepts : SyncMode → SyncCoverage → Bool
  | .full, .authoritativeFull _ => true
  | .full, .partial_ _ _ => true
  | .incremental, .incremental _ => true
  | .incremental, .partial_ _ _ => true
  | .targeted, .targeted _ => true
  | .targeted, .partial_ _ _ => true
  | _, _ => false

def SyncRequest.acceptsCoverage (request : SyncRequest) (coverage : SyncCoverage) : Bool :=
  request.mode.accepts coverage

def SyncCoverage.isPartial : SyncCoverage → Bool
  | .partial_ _ _ => true
  | _ => false

/-! ## §2  Observations -/

structure ResourceObservation where
  kind : ResourceKind
  externalId : ExternalId
  name : String
  displayName : String
  scope : Scope
  labels : OrderedMap LabelKey String
  health : ResourceHealth
  attributes : Value
  attributeSchemaVersion : SchemaVersion
  observedAt : Timestamp

structure RelationObservation where
  source : ResourceLocator
  target : ResourceLocator
  kind : RelationKind
  evidenceKey : EvidenceKey
  fieldPath : FieldPath
  observedAt : Timestamp

structure RedactionReport where
  removedFields : Nat := 0
  unknownFieldsDropped : Nat := 0
  secretSentinelsDetected : Nat := 0
deriving DecidableEq

structure ProviderRequestSummary where
  requestCount : Nat := 0
  elapsedMs : Nat := 0
  statusClassCounts : OrderedMap String Nat := KeyedTable.empty
deriving DecidableEq

structure ObservationWarning where
  code : ErrorCode
  message : String
deriving DecidableEq

structure ObservationBatch where
  resources : List ResourceObservation
  relations : List RelationObservation
  coverage : SyncCoverage
  nextCursor : Option SyncCursor
  warnings : List ObservationWarning
  redactionReport : RedactionReport
  providerRequestSummary : ProviderRequestSummary

def ObservationBatch.validateFor (batch : ObservationBatch) (request : SyncRequest) :
    Except DomainError Unit :=
  if request.acceptsCoverage batch.coverage = false then
    .error (.invalidValue "observation coverage is incompatible with sync mode")
  else if batch.redactionReport.secretSentinelsDetected ≠ 0 then
    .error (.invalidValue "observation batch contains a secret sentinel")
  else .ok ()

/-! ## §3  Outcomes -/

structure ConnectorFailure where
  code : ErrorCode
  message : String
  retryable : Bool
  retryAfterMs : Option Nat
deriving DecidableEq

inductive SyncOutcome
  | complete (batch : ObservationBatch)
  | partial_ (batch : ObservationBatch) (failure : ConnectorFailure)

def SyncOutcome.batch : SyncOutcome → ObservationBatch
  | .complete batch => batch
  | .partial_ batch _ => batch

def SyncOutcome.validateFor (outcome : SyncOutcome) (request : SyncRequest) :
    Except DomainError Unit := do
  outcome.batch.validateFor request
  match outcome with
  | .complete batch =>
      if batch.coverage.isPartial then
        .error (.invalidValue "complete outcome cannot contain partial coverage")
      else .ok ()
  | .partial_ batch _ =>
      if batch.coverage.isPartial then .ok ()
      else .error (.invalidValue "partial outcome must contain partial coverage")

/-- An outcome may be returned: its coverage is partial exactly when it says so, and
the mode takes it. -/
theorem SyncOutcome.validateFor_ok_iff {outcome : SyncOutcome} {request : SyncRequest} :
    outcome.validateFor request = .ok () ↔
      request.acceptsCoverage outcome.batch.coverage = true ∧
        outcome.batch.redactionReport.secretSentinelsDetected = 0 ∧
        (outcome.batch.coverage.isPartial = true ↔ ∃ batch failure, outcome = .partial_ batch failure) := by
  have hbatch : ∀ batch : ObservationBatch, batch.validateFor request = .ok () ↔
      request.acceptsCoverage batch.coverage = true ∧
        batch.redactionReport.secretSentinelsDetected = 0 := by
    intro batch
    unfold ObservationBatch.validateFor
    split
    · rename_i h
      simp [h]
    · rename_i h
      split
      · rename_i hs
        simp [hs]
      · rename_i hs
        simp only [Bool.not_eq_false] at h
        simp only [not_not] at hs
        simp [h, hs]
  unfold SyncOutcome.validateFor
  constructor
  · intro h
    obtain ⟨_, hv, h⟩ := bind_ok h
    obtain ⟨haccepts, hsecret⟩ := (hbatch _).mp hv
    refine ⟨haccepts, hsecret, ?_⟩
    cases outcome with
    | complete batch => simpa [SyncOutcome.batch] using h
    | partial_ batch failure => simpa [SyncOutcome.batch] using h
  · rintro ⟨haccepts, hsecret, hpartial⟩
    rw [(hbatch _).mpr ⟨haccepts, hsecret⟩]
    cases outcome with
    | complete batch =>
        have hnot : batch.coverage.isPartial = false := by
          by_contra h
          obtain ⟨b, f, hb⟩ := hpartial.mp (by simpa [SyncOutcome.batch] using h)
          cases hb
        show (if batch.coverage.isPartial then _ else _) = _
        rw [hnot]
        rfl
    | partial_ batch failure =>
        have hyes : batch.coverage.isPartial = true := hpartial.mpr ⟨batch, failure, rfl⟩
        show (if batch.coverage.isPartial then _ else _) = _
        rw [hyes]
        rfl

end NextInfra
