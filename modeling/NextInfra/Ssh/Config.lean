import NextInfra.Connector.Observation
import NextInfra.Core.Text

/-!
# SSH configuration and probe batches

What an SSH connection is configured with, and what a probe client answers. The
canonical identity and the service ids carry the test of their constructors, so
the external ids built from them are never padded.
-/

namespace NextInfra

namespace Ssh

/-! ## §1  Configuration -/

/-- A lowercase hexadecimal digit. -/
def isHexDigit (c : Char) : Bool := c.isDigit || ('a' ≤ c && c ≤ 'f')

/-- `8-4-4-4-12` in lowercase with version 4: what `Uuid::hyphenated` prints. -/
def IsCanonicalV4 (s : List Char) : Prop :=
  s.length = 36 ∧ s[14]? = some '4' ∧
    ∀ i : Fin 36, s[i.val]?.all fun c =>
      if i.val ∈ [8, 13, 18, 23] then c == '-' else isHexDigit c

instance (s : List Char) : Decidable (IsCanonicalV4 s) := by unfold IsCanonicalV4; infer_instance

structure HostIdentity where
  val : String
  canonical : IsCanonicalV4 val.toList

/-- `HostAlias::parse`. -/
def IsHostAlias (s : List Char) : Prop :=
  s ≠ [] ∧ s.length ≤ 128 ∧ (s.head?.all Char.isAlphanum) ∧
    s.all fun c => c.isAlphanum || c == '.' || c == '_' || c == '-'

structure HostAlias where
  val : String
  parsed : IsHostAlias val.toList

inductive ProbeProfile
  | baselineV1

def isServiceChar (c : Char) : Bool :=
  c.isAlphanum || c == '.' || c == '_' || c == '-' || c == '@'

/-- `ServiceId::parse`. -/
def IsServiceId (s : List Char) : Prop := s ≠ [] ∧ s.length ≤ 128 ∧ s.all isServiceChar = true

instance (s : List Char) : Decidable (IsServiceId s) := by unfold IsServiceId; infer_instance

structure ServiceId where
  val : String
  parsed : IsServiceId val.toList

@[ext] theorem ServiceId.ext_val {a b : ServiceId} (h : a.val = b.val) : a = b := by
  cases a; cases b; cases h; rfl

instance : DecidableEq ServiceId := fun a b =>
  decidable_of_iff (a.val = b.val) ⟨ServiceId.ext_val, fun h => h ▸ rfl⟩

structure SshConnectionConfigV1 where
  hostIdentity : HostIdentity
  hostAlias : HostAlias
  connectTimeoutSecs : Nat
  probeProfile : ProbeProfile
  allowedServiceIds : List ServiceId

structure SshError where
  code : ErrorCode
  message : String
  retryable : Bool

def SshError.invalidConfig : SshError :=
  { code := .invalidDomainValue, message := "SSH configuration is invalid", retryable := false }

def SshError.toFailure (error : SshError) : ConnectorFailure :=
  { code := error.code, message := error.message, retryable := error.retryable, retryAfterMs := none }

def minConnectTimeoutSecs : Nat := 5

def maxConnectTimeoutSecs : Nat := 14

def maxServiceIds : Nat := 64

def SshConnectionConfigV1.validate (config : SshConnectionConfigV1) : Except SshError Unit :=
  if ¬ (minConnectTimeoutSecs ≤ config.connectTimeoutSecs ∧
        config.connectTimeoutSecs ≤ maxConnectTimeoutSecs) ∨
      maxServiceIds < config.allowedServiceIds.length ∨ ¬ config.allowedServiceIds.Nodup then
    .error .invalidConfig
  else .ok ()

/-- `from_json`; `decode` is the derived `Deserialize`. -/
def SshConnectionConfigV1.fromJson (decode : Value → Option SshConnectionConfigV1) (value : Value) :
    Except SshError SshConnectionConfigV1 :=
  match decode value with
  | none => .error .invalidConfig
  | some config =>
      match config.validate with
      | .error e => .error e
      | .ok () => .ok config

/-! ## §2  Probe batches -/

inductive ProbeId
  | hostIdentityV1
  | hostUptimeV1
  | hostFilesystemsV1
  | hostProcessSummaryV1
  | macosLaunchdServicesV1
  | linuxSystemdServicesV1
deriving DecidableEq

def ProbeId.asStr : ProbeId → String
  | .hostIdentityV1 => "host.identity.v1"
  | .hostUptimeV1 => "host.uptime.v1"
  | .hostFilesystemsV1 => "host.filesystems.v1"
  | .hostProcessSummaryV1 => "host.process_summary.v1"
  | .macosLaunchdServicesV1 => "macos.launchd_services.v1"
  | .linuxSystemdServicesV1 => "linux.systemd_services.v1"

structure ProbeOutput where
  probeId : ProbeId
  stdout : List UInt8
  elapsedMs : Nat

inductive ProbeOutcome
  | success (output : ProbeOutput)
  | failure (probeId : ProbeId) (failure : ConnectorFailure)

def ProbeOutcome.probeId : ProbeOutcome → ProbeId
  | .success output => output.probeId
  | .failure probeId _ => probeId

structure SshBatchOutput where
  outcomes : List ProbeOutcome
  elapsedMs : Nat
  outputBytes : Nat

/-- `SshProbeClient::execute_batch` under one configuration. -/
abbrev ProbeClient := List ProbeId → Except ConnectorFailure SshBatchOutput

/-! ## §3  External ids -/

theorem isHexDigit_visible {c : Char} (h : isHexDigit c = true) : isWhitespace c = false := by
  unfold isHexDigit Char.isDigit at h
  unfold isWhitespace
  simp only [Bool.or_eq_true, Bool.and_eq_true, decide_eq_true_eq, UInt32.le_iff_toNat_le,
    Char.le_def] at h
  have hval : c.toNat = c.val.toNat := rfl
  simp only [hval, Bool.or_eq_false_iff, Bool.and_eq_false_iff, beq_eq_false_iff_ne,
    decide_eq_false_iff_not]
  have h0 : '0'.val.toNat = 48 := rfl
  have h9 : '9'.val.toNat = 57 := rfl
  have ha : 'a'.val.toNat = 97 := rfl
  have hf : 'f'.val.toNat = 102 := rfl
  omega

end Ssh

end NextInfra
