import NextInfra.Ssh.Probes

/-!
# The probe mappers

From parsed probes to observations: the host with its filesystem and process
summaries (`map_common`), and the allowed services of each platform. Failure to
parse the identity is fatal, the other common probes only leave their module
partial.
-/

namespace NextInfra

namespace Ssh

/-! ## §1  Ids and labels -/

/-- The text ends in a visible character. -/
def EndsVisible (s : String) : Prop :=
  ∃ init d, s.toList = init ++ [d] ∧ isWhitespace d = false

theorem HostIdentity.endsVisible (identity : HostIdentity) : EndsVisible identity.val := by
  obtain ⟨hlen, _, hdigits⟩ := identity.canonical
  have hlast := hdigits 35
  unfold EndsVisible
  generalize identity.val.toList = s at hlen hlast ⊢
  have hne : s ≠ [] := by
    rintro rfl
    simp at hlen
  refine ⟨s.dropLast, s.getLast hne, (List.dropLast_append_getLast hne).symm, ?_⟩
  have hget : s[35]? = some (s.getLast hne) := by
    rw [List.getLast_eq_getElem, List.getElem?_eq_getElem (by omega)]
    simp [hlen]
  have hindex : ((35 : Fin 36) : Nat) = 35 := rfl
  rw [hindex, hget] at hlast
  exact isHexDigit_visible (by simpa using hlast)

theorem isServiceChar_visible {c : Char} (h : isServiceChar c = true) : isWhitespace c = false := by
  unfold isServiceChar at h
  simp only [Bool.or_eq_true, beq_iff_eq] at h
  rcases h with (((h | rfl) | rfl) | rfl) | rfl
  · have hranges : c.isAlphanum =
        (decide (65 ≤ c.toNat ∧ c.toNat ≤ 90) || (decide (97 ≤ c.toNat) && decide (c.toNat ≤ 122)) ||
          (decide (48 ≤ c.toNat) && decide (c.toNat ≤ 57))) := rfl
    rw [hranges] at h
    simp only [Bool.or_eq_true, Bool.and_eq_true, decide_eq_true_eq] at h
    unfold isWhitespace
    simp only [Bool.or_eq_false_iff, Bool.and_eq_false_iff, beq_eq_false_iff_ne,
      decide_eq_false_iff_not]
    omega
  all_goals decide

theorem ServiceId.endsVisible (id : ServiceId) : EndsVisible id.val := by
  obtain ⟨hne, _, hchars⟩ := id.parsed
  refine ⟨_, id.val.toList.getLast hne, (List.dropLast_append_getLast hne).symm, ?_⟩
  exact isServiceChar_visible (List.all_eq_true.mp hchars _ (List.getLast_mem hne))

/-- A fixed prefix and a text that ends visibly, as one of the string types. -/
def prefixed {name : String} (start : String) (tail : String) (ht : EndsVisible tail)
    (hs : start.toList.head?.any (fun c => !isWhitespace c) = true := by decide) :
    StringValue name :=
  ⟨start ++ tail, by
    obtain ⟨init, d, htail, hd⟩ := ht
    cases hlist : start.toList with
    | nil => simp [hlist] at hs
    | cons c cs =>
        rw [hlist] at hs
        have hall : (start ++ tail).toList = c :: (cs ++ init) ++ [d] := by
          rw [String.toList_append, hlist, htail]
          simp
        exact trimmed_of_ends hall (by simpa using hs) hd⟩

theorem endsVisible_append (start : String) {tail : String} (ht : EndsVisible tail) :
    EndsVisible (start ++ tail) := by
  obtain ⟨init, d, htail, hd⟩ := ht
  refine ⟨start.toList ++ init, d, ?_, hd⟩
  rw [String.toList_append, htail, List.append_assoc]

def HostIdentity.externalId (identity : HostIdentity) : ExternalId :=
  prefixed "ssh-host:v1:" identity.val identity.endsVisible

/-- `{start}{identity}:{service}`. -/
def servicePrefixed {name : String} (start : String) (identity : HostIdentity) (id : ServiceId)
    (hs : start.toList.head?.any (fun c => !isWhitespace c) = true := by decide) :
    StringValue name :=
  prefixed start (identity.val ++ ":" ++ id.val) (endsVisible_append _ id.endsVisible) hs

/-- Services of one host get the id of their own. -/
theorem servicePrefixed_inj {name start : String} {identity : HostIdentity} {a b : ServiceId}
    (hs : start.toList.head?.any (fun c => !isWhitespace c) = true)
    (h : (servicePrefixed start identity a hs : StringValue name) =
      servicePrefixed start identity b hs) : a = b := by
  have hval : start ++ (identity.val ++ ":" ++ a.val) = start ++ (identity.val ++ ":" ++ b.val) :=
    congrArg StringValue.val h
  have hlist := congrArg String.toList hval
  simp only [String.toList_append, List.append_cancel_left_eq] at hlist
  exact ServiceId.ext_val (String.toList_injective hlist)

def hostKind : ResourceKind := ⟨"ssh.host", by decide +kernel⟩
def filesystemKind : ResourceKind := ⟨"ssh.filesystem", by decide +kernel⟩
def processKind : ResourceKind := ⟨"ssh.process-summary", by decide +kernel⟩
def systemdKind : ResourceKind := ⟨"ssh.systemd-service", by decide +kernel⟩
def launchdKind : ResourceKind := ⟨"ssh.launchd-service", by decide +kernel⟩
def containsKind : RelationKind := ⟨"ssh.contains", by decide +kernel⟩

def labels (platform : HostPlatform) (resourceType : String) : OrderedMap LabelKey String :=
  OrderedMap.insert
    (OrderedMap.insert KeyedTable.empty ⟨"ssh.platform", by decide +kernel⟩ platform.asStr)
    ⟨"ssh.resource_type", by decide +kernel⟩ resourceType

/-! ## §2  The common probes -/

structure CommonProbeInput where
  identity : Option (List UInt8)
  uptime : Option (List UInt8)
  filesystems : Option (List UInt8)
  processSummary : Option (List UInt8)

inductive CommonModuleState
  | complete
  | partial_
deriving DecidableEq

structure CommonModuleResult where
  module_ : String
  collected : Nat
  bounded : Bool
  state : CommonModuleState
  failure : Option CommonParseError

structure CommonMapperOutput where
  resources : List ResourceObservation
  relations : List RelationObservation
  modules : List CommonModuleResult

def moduleResult (module_ : String) (collected : Nat) (failure : Option CommonParseError) :
    CommonModuleResult where
  module_ := module_
  collected := collected
  bounded := failure.any CommonParseError.bounded
  state := if failure.isSome then .partial_ else .complete
  failure := failure

/-- A probe's output read by its parser; no output is an error of its own. -/
def readProbe {α : Type} (module_ : String)
    (parse : List UInt8 → Except CommonParseError α) (output : Option (List UInt8)) :
    Except CommonParseError α :=
  match output with
  | some bytes => parse bytes
  | none => .error ⟨module_, .missingOutput⟩

/-- The error of a reading. -/
def errorOf {ε α : Type} : Except ε α → Option ε
  | .ok _ => none
  | .error e => some e

/-- What every observation of one sync has in common. -/
structure Context where
  hostIdentity : HostIdentity
  hostAlias : HostAlias
  scope : Scope
  observedAt : Timestamp

/-- The host; its uptime is `unknown` where the probe was not read. -/
def Context.host (ctx : Context) (identity : HostIdentityObservation)
    (uptime : Except CommonParseError UptimeBucket) : ResourceObservation where
  kind := hostKind
  externalId := ctx.hostIdentity.externalId
  name := "ssh-host"
  displayName := "SSH host (" ++ ctx.hostAlias.val ++ ")"
  scope := ctx.scope
  labels := labels identity.platform "host"
  health := if (errorOf uptime).isNone then .healthy else .unknown
  attributes := .mkObject
    [("platform", .string identity.platform.asStr), ("architecture", .string identity.architecture),
      ("uptime_bucket", .string (uptime.toOption.getD .unknown).asStr)]
  attributeSchemaVersion := .one
  observedAt := ctx.observedAt

def FilesystemEntry.toValue (entry : FilesystemEntry) : Value :=
  .mkObject
    [("filesystem", .string entry.filesystem), ("blocks_kib", .ofNat entry.blocksKib),
      ("used_kib", .ofNat entry.usedKib), ("available_kib", .ofNat entry.availableKib),
      ("capacity_percent", .ofNat entry.capacityPercent), ("mount", .string entry.mount)]

def Context.filesystems (ctx : Context) (identity : HostIdentityObservation)
    (summary : FilesystemSummary) : ResourceObservation where
  kind := filesystemKind
  externalId := prefixed "ssh-filesystems:v1:" ctx.hostIdentity.val ctx.hostIdentity.endsVisible
  name := "ssh-filesystems"
  displayName := "SSH filesystems (" ++ ctx.hostAlias.val ++ ")"
  scope := ctx.scope
  labels := labels identity.platform "filesystem"
  health := .unknown
  attributes := .mkObject
    [("host_identity", .string ctx.hostIdentity.val),
      ("entries", .array (summary.entries.map FilesystemEntry.toValue))]
  attributeSchemaVersion := .one
  observedAt := ctx.observedAt

def Context.processSummary (ctx : Context) (identity : HostIdentityObservation)
    (summary : ProcessSummary) : ResourceObservation where
  kind := processKind
  externalId := prefixed "ssh-process-summary:v1:" ctx.hostIdentity.val ctx.hostIdentity.endsVisible
  name := "ssh-process-summary"
  displayName := "SSH process summary (" ++ ctx.hostAlias.val ++ ")"
  scope := ctx.scope
  labels := labels identity.platform "process-summary"
  health := .unknown
  attributes := .mkObject
    [("host_identity", .string ctx.hostIdentity.val), ("total", .ofNat summary.total),
      ("states", .object (summary.states.rows.map fun p => (p.1, .ofNat p.2)))]
  attributeSchemaVersion := .one
  observedAt := ctx.observedAt

/-- `ssh.contains`, from the host. -/
def Context.contains (ctx : Context) (target : ResourceObservation) (evidenceKey : EvidenceKey)
    (fieldPath : FieldPath) : RelationObservation where
  source := { kind := hostKind, externalId := ctx.hostIdentity.externalId }
  target := { kind := target.kind, externalId := target.externalId }
  kind := containsKind
  evidenceKey := evidenceKey
  fieldPath := fieldPath
  observedAt := ctx.observedAt

def ResourceObservation.sortKey (r : ResourceObservation) : ResourceKind ×ₗ ExternalId :=
  toLex (r.kind, r.externalId)

def RelationObservation.sortKey (r : RelationObservation) :
    ResourceKind ×ₗ ExternalId ×ₗ ResourceKind ×ₗ ExternalId ×ₗ RelationKind ×ₗ EvidenceKey :=
  toLex (r.source.kind, toLex (r.source.externalId, toLex (r.target.kind,
    toLex (r.target.externalId, toLex (r.kind, r.evidenceKey)))))

def sortResources (resources : List ResourceObservation) : List ResourceObservation :=
  resources.insertionSort fun a b => ResourceObservation.sortKey a ≤ ResourceObservation.sortKey b

def sortRelations (relations : List RelationObservation) : List RelationObservation :=
  relations.insertionSort fun a b => RelationObservation.sortKey a ≤ RelationObservation.sortKey b

def sortOutput (output : CommonMapperOutput) : CommonMapperOutput where
  resources := sortResources output.resources
  relations := sortRelations output.relations
  modules := output.modules.insertionSort fun a b => a.module_ ≤ b.module_

def hostIdentityPath : FieldPath := ⟨"attributes.host_identity", by decide⟩

/-- The summary resources, each with its relation. -/
def Context.summaries (ctx : Context) (identity : HostIdentityObservation)
    (filesystems : Option FilesystemSummary) (processes : Option ProcessSummary) :
    List (ResourceObservation × RelationObservation) :=
  let uuid := ctx.hostIdentity.val
  let visible := ctx.hostIdentity.endsVisible
  (filesystems.toList.map fun summary =>
    let resource := ctx.filesystems identity summary
    (resource,
      ctx.contains resource (prefixed "ssh-provider-filesystems:" uuid visible) hostIdentityPath)) ++
  processes.toList.map fun summary =>
    let resource := ctx.processSummary identity summary
    (resource,
      ctx.contains resource (prefixed "ssh-provider-process-summary:" uuid visible)
        hostIdentityPath)

def mapCommon (ctx : Context) (probes : CommonProbeInput) :
    Except CommonParseError CommonMapperOutput := do
  let identity ← readProbe identityModule parseIdentity probes.identity
  let uptime := readProbe uptimeModule parseUptime probes.uptime
  let filesystems := readProbe filesystemModule parseFilesystems probes.filesystems
  let processes := readProbe processModule parseProcessSummary probes.processSummary
  let summaries := ctx.summaries identity filesystems.toOption processes.toOption
  .ok <| sortOutput
    { resources := ctx.host identity uptime :: summaries.map Prod.fst
      relations := summaries.map Prod.snd
      modules :=
        [{ module_ := identityModule, collected := 1, bounded := false, state := .complete
           failure := none },
          moduleResult uptimeModule (if (errorOf uptime).isNone then 1 else 0) (errorOf uptime),
          moduleResult filesystemModule
            ((filesystems.toOption.map fun summary => summary.entries.length).getD 0)
            (errorOf filesystems),
          moduleResult processModule ((processes.toOption.map ProcessSummary.total).getD 0)
            (errorOf processes)] }

/-! ## §3  Services -/

/-- `SystemdParseError::connector_failure`, `LaunchdParseError::connector_failure`. -/
def serviceFailure (message : String) : ConnectorFailure where
  code := .invalidResponse
  message := message
  retryable := false
  retryAfterMs := none

def systemdHealth (activeState : String) : ResourceHealth :=
  if activeState = "active" then .healthy
  else if activeState = "failed" then .unhealthy
  else if activeState ∈ ["activating", "deactivating", "reloading"] then .degraded
  else .unknown

def Context.systemdService (ctx : Context) (service : SystemdService) : ResourceObservation where
  kind := systemdKind
  externalId := servicePrefixed "ssh-systemd-service:v1:" ctx.hostIdentity service.unit
  name := service.unit.val
  displayName := service.unit.val
  scope := ctx.scope
  labels := labels .linux "systemd-service"
  health := systemdHealth service.activeState
  attributes := .mkObject
    [("unit", .string service.unit.val), ("load_state", .string service.loadState),
      ("active_state", .string service.activeState), ("sub_state", .string service.subState)]
  attributeSchemaVersion := .one
  observedAt := ctx.observedAt

def launchdHealth (lastExitStatus : Int) (pidPresent : Bool) : ResourceHealth :=
  match decide (lastExitStatus = 0), pidPresent with
  | true, true => .healthy
  | true, false => .unknown
  | false, _ => .degraded

def Context.launchdService (ctx : Context) (service : LaunchdService) : ResourceObservation where
  kind := launchdKind
  externalId := servicePrefixed "ssh-launchd-service:v1:" ctx.hostIdentity service.serviceLabel
  name := service.serviceLabel.val
  displayName := service.serviceLabel.val
  scope := ctx.scope
  labels := labels .darwin "launchd-service"
  health := launchdHealth service.lastExitStatus service.pidPresent
  attributes := .mkObject
    [("service_label", .string service.serviceLabel.val), ("loaded", .bool true),
      ("pid_present", .bool service.pidPresent),
      ("last_exit_status", .number (.int service.lastExitStatus))]
  attributeSchemaVersion := .one
  observedAt := ctx.observedAt

/-- Services as resources, each with its relation from the host. -/
def Context.services {σ : Type} (ctx : Context) (observe : σ → ResourceObservation)
    (idOf : σ → ServiceId) (evidence : ServiceId → EvidenceKey) (fieldPath : FieldPath)
    (services : List σ) : List (ResourceObservation × RelationObservation) :=
  services.map fun service =>
    (observe service, ctx.contains (observe service) (evidence (idOf service)) fieldPath)

def mapSystemdServices (ctx : Context) (input : List UInt8) (allowlist : List ServiceId) :
    Except ServiceParseErrorKind (List (ResourceObservation × RelationObservation)) :=
  (parseSystemdServices input (some allowlist)).map <|
    ctx.services ctx.systemdService SystemdService.unit
      (fun id => servicePrefixed "ssh-provider-systemd:" ctx.hostIdentity id)
      ⟨"attributes.unit", by decide⟩

def mapLaunchdServices (ctx : Context) (input : List UInt8) (allowlist : List ServiceId) :
    Except ServiceParseErrorKind (List (ResourceObservation × RelationObservation)) :=
  (parseLaunchdServices input (some allowlist)).map <|
    ctx.services ctx.launchdService LaunchdService.serviceLabel
      (fun id => servicePrefixed "ssh-provider-launchd:" ctx.hostIdentity id)
      ⟨"attributes.service_label", by decide⟩

end Ssh

end NextInfra
