import NextInfra.Ssh.Mapper

/-!
# The SSH connector

`sync` asks for the identity, plans the other probes from it and the allowlist, and
asks for them in a second batch. A failed, missing or unreadable probe leaves its
module partial; a wrong batch, a host key mismatch or a cancellation ends the sync.
-/

namespace NextInfra

namespace Ssh

/-! ## §1  Failures -/

def invalidConfig (message : String) : ConnectorFailure where
  code := .invalidDomainValue
  message := message
  retryable := false
  retryAfterMs := none

def invalidResponse : ConnectorFailure where
  code := .invalidResponse
  message := "SSH probe response is invalid"
  retryable := false
  retryAfterMs := none

def targetedPartialFailure : ConnectorFailure where
  code := .partialPagination
  message := "SSH targeted sync cannot provide authoritative missing evidence"
  retryable := false
  retryAfterMs := none

def coverageReason : ErrorCode → CoverageGapReason
  | .permissionDenied => .permissionDenied
  | .providerUnavailable => .providerUnavailable
  | .networkUnreachable => .providerUnavailable
  | .invalidResponse => .schemaIncompatible
  | .schemaIncompatible => .schemaIncompatible
  | _ => .other "ssh_module_partial"

/-! ## §2  Requests -/

def validateConnection (decode : Value → Option SshConnectionConfigV1)
    (connection : ConnectionInput) : Except ConnectorFailure SshConnectionConfigV1 :=
  if connection.connectorType ≠ .ssh then
    .error (invalidConfig "SSH connection uses a different connector type")
  else if connection.configSchemaVersion ≠ .one then
    .error
      { code := .schemaIncompatible
        message := "SSH connection config schema is unsupported"
        retryable := false
        retryAfterMs := none }
  else
    match SshConnectionConfigV1.fromJson decode connection.config with
    | .error e => .error e.toFailure
    | .ok config => .ok config

def validateSyncRequest (request : SyncRequest) (config : SshConnectionConfigV1) :
    Except ConnectorFailure Unit :=
  if request.cursor.isSome ∨ request.mode = .incremental then
    .error (invalidConfig "SSH incremental sync and cursors are unsupported")
  else if request.mode = .targeted ∧
      request.targetedResources ≠
        [{ kind := hostKind, externalId := config.hostIdentity.externalId }] then
    .error (invalidConfig "SSH targeted sync requires the configured host locator")
  else if request.mode = .full ∧ request.targetedResources ≠ [] then
    .error (invalidConfig "SSH full sync does not accept targeted locators")
  else .ok ()

/-! ## §3  Batches -/

def identityStdout (batch : SshBatchOutput) : Except ConnectorFailure (List UInt8) :=
  match batch.outcomes with
  | [.success output] =>
      if output.probeId = .hostIdentityV1 then .ok output.stdout else .error invalidResponse
  | [.failure _ failure] => .error failure
  | _ => .error invalidResponse

abbrev ProbeOutputs := List (ProbeId × List UInt8)

abbrev ModuleFailures := List (String × ConnectorFailure)

/-- The failures of one probe that end the whole sync. -/
def ErrorCode.endsSync (code : ErrorCode) : Bool :=
  code == .hostKeyMismatch || code == .cancelled

/-- The loop of `split_outcomes`, with the probes met so far. -/
def splitOutcomes (planned : List ProbeId) :
    List ProbeId → List ProbeOutcome → Except ConnectorFailure (ProbeOutputs × ModuleFailures)
  | _, [] => .ok ([], [])
  | seen, outcome :: rest =>
      if outcome.probeId ∉ planned ∨ outcome.probeId ∈ seen then .error invalidResponse
      else
        match outcome with
        | .success output => do
            let (outputs, failures) ← splitOutcomes planned (output.probeId :: seen) rest
            .ok ((output.probeId, output.stdout) :: outputs, failures)
        | .failure probeId failure =>
            if ErrorCode.endsSync failure.code then .error failure
            else do
              let (outputs, failures) ← splitOutcomes planned (probeId :: seen) rest
              .ok (outputs, (probeId.asStr, failure) :: failures)

def outputOf (outputs : ProbeOutputs) (id : ProbeId) : Option (List UInt8) :=
  (outputs.find? fun p => decide (p.1 = id)).map Prod.snd

def ProbeOutcome.statusClass : ProbeOutcome → String
  | .success _ => "success"
  | .failure _ _ => "failure"

def addSummary (summary : ProviderRequestSummary) (batch : SshBatchOutput) :
    ProviderRequestSummary where
  requestCount := saturatingAdd 64 summary.requestCount batch.outcomes.length
  elapsedMs := saturatingAdd 64 summary.elapsedMs batch.elapsedMs
  statusClassCounts :=
    batch.outcomes.foldl (fun counts outcome => countState counts outcome.statusClass)
      summary.statusClassCounts

/-! ## §4  The sync -/

def serviceProbe : HostPlatform → ProbeId
  | .darwin => .macosLaunchdServicesV1
  | .linux => .linuxSystemdServicesV1

def serviceModule : HostPlatform → String
  | .darwin => "macos.launchd_services.v1"
  | .linux => "linux.systemd_services.v1"

/-- The probes of the second batch. -/
def plannedProbes (config : SshConnectionConfigV1) (platform : HostPlatform) : List ProbeId :=
  [.hostUptimeV1, .hostFilesystemsV1, .hostProcessSummaryV1] ++
    if config.allowedServiceIds = [] then [] else [serviceProbe platform]

def mapServices (ctx : Context) (platform : HostPlatform) (stdout : List UInt8)
    (allowlist : List ServiceId) :
    Except ConnectorFailure (List (ResourceObservation × RelationObservation)) :=
  match platform with
  | .darwin =>
      match mapLaunchdServices ctx stdout allowlist with
      | .ok services => .ok services
      | .error _ => .error (serviceFailure "SSH launchd probe response is invalid")
  | .linux =>
      match mapSystemdServices ctx stdout allowlist with
      | .ok services => .ok services
      | .error _ => .error (serviceFailure "SSH systemd probe response is invalid")

/-- The services of the host; none are asked for with an empty allowlist. -/
def serviceResult (config : SshConnectionConfigV1) (ctx : Context) (platform : HostPlatform)
    (outputs : ProbeOutputs) :
    Except ConnectorFailure (List (ResourceObservation × RelationObservation)) :=
  if config.allowedServiceIds = [] then .ok []
  else
    match outputOf outputs (serviceProbe platform) with
    | none => .error invalidResponse
    | some stdout => mapServices ctx platform stdout config.allowedServiceIds

/-- `sort_and_validate`: two resources, or two relations, of one key are refused. -/
def sortAndValidate (resources : List ResourceObservation) (relations : List RelationObservation) :
    Except ConnectorFailure (List ResourceObservation × List RelationObservation) :=
  let resources := sortResources resources
  let relations := sortRelations relations
  if (resources.map ResourceObservation.sortKey).Nodup ∧
      (relations.map RelationObservation.sortKey).Nodup then
    .ok (resources, relations)
  else .error invalidResponse

/-- The outcome of the collected modules: partial with the first failure. -/
def finishSync (request : SyncRequest) (resources : List ResourceObservation)
    (relations : List RelationObservation) (failures : ModuleFailures)
    (summary : ProviderRequestSummary) : SyncOutcome :=
  let batch (coverage : SyncCoverage) : ObservationBatch :=
    { resources := resources
      relations := relations
      coverage := coverage
      nextCursor := none
      warnings := failures.map fun (module_, failure) =>
        { code := failure.code, message := "SSH module " ++ module_ ++ " is partial" }
      redactionReport := {}
      providerRequestSummary := summary }
  match failures.head? with
  | some (_, failure) =>
      .partial_ (batch (.partial_ (some request.scope) (coverageReason failure.code))) failure
  | none => .complete (batch (.authoritativeFull request.scope))

def contextOf (config : SshConnectionConfigV1) (request : SyncRequest) (now : Timestamp) :
    Context where
  hostIdentity := config.hostIdentity
  hostAlias := config.hostAlias
  scope := request.scope
  observedAt := now

/-- The probe outputs `map_common` is given. -/
def commonInput (identity : List UInt8) (outputs : ProbeOutputs) : CommonProbeInput where
  identity := some identity
  uptime := outputOf outputs .hostUptimeV1
  filesystems := outputOf outputs .hostFilesystemsV1
  processSummary := outputOf outputs .hostProcessSummaryV1

/-- The modules `map_common` left partial. -/
def partialModules (output : CommonMapperOutput) : ModuleFailures :=
  (output.modules.filter fun m => decide (m.state = .partial_)).map fun m =>
    (m.module_, invalidResponse)

/-- The failure of the service module, if it has one. -/
def serviceFailures (platform : HostPlatform)
    (result : Except ConnectorFailure (List (ResourceObservation × RelationObservation))) :
    ModuleFailures :=
  match result with
  | .ok _ => []
  | .error failure => [(serviceModule platform, failure)]

/-- A targeted sync is always partial. -/
def targetedFailures (request : SyncRequest) : ModuleFailures :=
  if request.mode = .targeted then [("ssh.targeted", targetedPartialFailure)] else []

/-- `SshConnector::sync`. -/
def sync (decode : Value → Option SshConnectionConfigV1) (client : SshConnectionConfigV1 → ProbeClient)
    (now : Timestamp) (request : SyncRequest) : Except ConnectorFailure SyncOutcome := do
  let config ← validateConnection decode request.connection
  validateSyncRequest request config
  let identityBatch ← client config [.hostIdentityV1]
  let stdout ← identityStdout identityBatch
  let identity ← (parseIdentity stdout).mapError CommonParseError.connectorFailure
  let planned := plannedProbes config identity.platform
  let childBatch ← client config planned
  let summary := addSummary (addSummary {} identityBatch) childBatch
  let (outputs, childFailures) ← splitOutcomes planned [] childBatch.outcomes
  let ctx := contextOf config request now
  let common ← (mapCommon ctx (commonInput stdout outputs)).mapError
    CommonParseError.connectorFailure
  let services := serviceResult config ctx identity.platform outputs
  let observed := services.toOption.getD []
  let (resources, relations) ← sortAndValidate (common.resources ++ observed.map Prod.fst)
    (common.relations ++ observed.map Prod.snd)
  let outcome := finishSync request resources relations
    (childFailures ++ partialModules common ++ serviceFailures identity.platform services ++
      targetedFailures request) summary
  match outcome.validateFor request with
  | .error _ => .error invalidResponse
  | .ok () => .ok outcome

end Ssh

end NextInfra
