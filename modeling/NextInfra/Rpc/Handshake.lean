import Mathlib.Data.List.Sort
import Mathlib.Data.String.Basic
import Mathlib.Order.Bounds.Defs
import NextInfra.Rpc.Framed

/-!
# The handshake

Server and client negotiate each for itself: the server on the hello it has read and its
template with the selected minor put in, the client on the host that comes back. §3 finds
when a negotiation succeeds, §5 that both sides of a stream come to the same result.
-/

namespace NextInfra

namespace Rpc

open Frames Reads

/-! ## §1  Capabilities -/

def protocolMajor : Nat := 1

def protocolMinor : Nat := 0

def minimumSupportedMinor : Nat := 0

namespace RpcError

def protocolMismatch (message : String) : RpcError :=
  { code := .protocolMismatch, message := message, retryable := false }

def oversizedFrame (message : String) : RpcError :=
  { code := .frameTooLarge, message := message, retryable := false }

end RpcError

namespace Capability

def all : List Capability :=
  [.getHealthSummary, .getRecentChanges, .getResource, .getSyncStatus, .getTopology,
    .listConnectorCoverage, .searchResources]

def asStr : Capability → String
  | .getHealthSummary => "query.get_health_summary.v1"
  | .getRecentChanges => "query.get_recent_changes.v1"
  | .getResource => "query.get_resource.v1"
  | .getSyncStatus => "query.get_sync_status.v1"
  | .getTopology => "query.get_topology.v1"
  | .listConnectorCoverage => "query.list_connector_coverage.v1"
  | .searchResources => "query.search_resources.v1"

/-- `Capability::deserialize`; the string is the error. -/
def deserialize : String → Except String Capability
  | "query.get_health_summary.v1" => .ok .getHealthSummary
  | "query.get_recent_changes.v1" => .ok .getRecentChanges
  | "query.get_resource.v1" => .ok .getResource
  | "query.get_sync_status.v1" => .ok .getSyncStatus
  | "query.get_topology.v1" => .ok .getTopology
  | "query.list_connector_coverage.v1" => .ok .listConnectorCoverage
  | "query.search_resources.v1" => .ok .searchResources
  | value => .error s!"unknown Local RPC capability: {value}"

@[simp]
theorem deserialize_asStr (capability : Capability) :
    deserialize capability.asStr = .ok capability := by
  cases capability <;> rfl

theorem asStr_inj {a b : Capability} (h : a.asStr = b.asStr) : a = b := by
  have hok := deserialize_asStr a
  rw [h, deserialize_asStr] at hok
  cases hok
  rfl

/-- `Ord for Capability`. -/
def le (a b : Capability) : Prop := a.asStr ≤ b.asStr

instance : DecidableRel le := fun a b => inferInstanceAs (Decidable (a.asStr ≤ b.asStr))

instance : Std.Total le := ⟨fun a b => le_total a.asStr b.asStr⟩

instance : IsTrans Capability le := ⟨fun _ _ _ => le_trans⟩

instance : Std.Antisymm le := ⟨fun _ _ hab hba => asStr_inj (le_antisymm hab hba)⟩

end Capability

/-- A capability set in the order of its encoding. -/
structure CapabilitySet where
  toList : List Capability
  sorted : toList.Pairwise Capability.le
  nodup : toList.Nodup

namespace CapabilitySet

/-- `windows(2).any(..)`: two neighbours are equal. -/
def hasRepeat : List Capability → Bool
  | a :: b :: rest => decide (a = b) || hasRepeat (b :: rest)
  | _ => false

theorem nodup_of_hasRepeat {capabilities : List Capability}
    (hsorted : capabilities.Pairwise Capability.le) (h : hasRepeat capabilities = false) :
    capabilities.Nodup := by
  induction capabilities with
  | nil => exact List.nodup_nil
  | cons a rest ih =>
      cases rest with
      | nil => exact List.nodup_singleton a
      | cons b rest =>
          unfold hasRepeat at h
          obtain ⟨hne, hrest⟩ := Bool.or_eq_false_iff.mp h
          obtain ⟨hle, htail⟩ := List.pairwise_cons.mp hsorted
          refine List.nodup_cons.mpr ⟨?_, ih htail hrest⟩
          -- an equal one further on would have its neighbour between them
          intro hmem
          rcases List.mem_cons.mp hmem with rfl | hmem
          · exact of_decide_eq_false hne rfl
          · apply of_decide_eq_false hne
            exact antisymm (r := Capability.le) (hle b List.mem_cons_self)
              ((List.pairwise_cons.mp htail).1 a hmem)

theorem hasRepeat_of_nodup {capabilities : List Capability} (h : capabilities.Nodup) :
    hasRepeat capabilities = false := by
  induction capabilities with
  | nil => rfl
  | cons a rest ih =>
      cases rest with
      | nil => rfl
      | cons b rest =>
          obtain ⟨hnotMem, hrest⟩ := List.nodup_cons.mp h
          unfold hasRepeat
          rw [ih hrest, Bool.or_false]
          apply decide_eq_false
          rintro rfl
          exact hnotMem List.mem_cons_self

def ofSorted (capabilities : List Capability) (hsorted : capabilities.Pairwise Capability.le) :
    Option CapabilitySet :=
  if h : hasRepeat capabilities = false then
    some ⟨capabilities, hsorted, nodup_of_hasRepeat hsorted h⟩
  else none

def ofList (capabilities : List Capability) : Option CapabilitySet :=
  ofSorted (capabilities.insertionSort Capability.le)
    (List.pairwise_insertionSort Capability.le capabilities)

/-- `CapabilitySet::new`. -/
def create (capabilities : List Capability) : Except RpcError CapabilitySet :=
  match ofList capabilities with
  | none => .error (.capabilityMismatch "capability sets must not contain duplicate entries")
  | some set => .ok set

def empty : CapabilitySet := ⟨[], List.Pairwise.nil, List.nodup_nil⟩

def allQueryCapabilities : CapabilitySet where
  toList := Capability.all
  sorted := by decide +kernel
  nodup := by decide

/-- `binary_search`, on a list that is sorted. -/
def contains (set : CapabilitySet) (capability : Capability) : Bool :=
  decide (capability ∈ set.toList)

def serialize (set : CapabilitySet) : List String := set.toList.map Capability.asStr

def deserialize (values : List String) : Except String CapabilitySet := do
  let capabilities ← values.mapM Capability.deserialize
  match ofList capabilities with
  | none => .error "capability sets must not contain duplicate entries"
  | some set => .ok set

/-- A set that is listed in its own order is built from its list. -/
theorem ofList_toList (set : CapabilitySet) : ofList set.toList = some set := by
  unfold ofList ofSorted
  have hsort := List.Pairwise.insertionSort_eq set.sorted
  rw [dif_pos (by rw [hsort]; exact hasRepeat_of_nodup set.nodup)]
  simp only [hsort]

theorem deserialize_serialize (set : CapabilitySet) : deserialize set.serialize = .ok set := by
  have hall : ∀ capabilities : List Capability,
      (capabilities.map Capability.asStr).mapM Capability.deserialize = .ok capabilities := by
    intro capabilities
    induction capabilities with
    | nil => rfl
    | cons capability rest ih =>
        rw [List.map_cons, List.mapM_cons, Capability.deserialize_asStr, ih]
        rfl
  unfold deserialize serialize
  rw [hall]
  show (match ofList set.toList with | none => _ | some set => _) = _
  rw [ofList_toList]

end CapabilitySet

/-! ## §2  Hellos -/

/-- `ClientHello`, with a capability set or with what stands for one on the wire. -/
structure ClientHello (Set : Type) where
  protocolMajor : Nat
  protocolMinor : Nat
  minimumSupportedMinor : Nat
  bridgeVersion : String
  releaseId : String
  supportedCapabilities : Set
  requiredCapabilities : Set
deriving DecidableEq

structure HostHello (Set : Type) where
  protocolMajor : Nat
  protocolMinor : Nat
  minimumSupportedMinor : Nat
  selectedProtocolMinor : Nat
  hostVersion : String
  releaseId : String
  supportedCapabilities : Set
  requiredCapabilities : Set
deriving DecidableEq

inductive HandshakeResponse (Set : Type)
  | accepted (host : HostHello Set) (upgradeRecommended : Bool)
  | rejected (error : RpcError)
deriving DecidableEq

structure HandshakeResult where
  selectedProtocolMinor : Nat
  upgradeRecommended : Bool
deriving DecidableEq

def validateRange (major minor minimum : Nat) : Except RpcError Unit :=
  if major ≠ protocolMajor ∨ minor < minimum ∨ 1 < minor - minimum then
    .error (.protocolMismatch
      s!"unsupported protocol range {major}.{minor} with minimum minor {minimum}")
  else .ok ()

namespace ClientHello

/-- `ClientHello::initial`. -/
def initial (bridgeVersion releaseId : String) : ClientHello CapabilitySet where
  protocolMajor := Rpc.protocolMajor
  protocolMinor := Rpc.protocolMinor
  minimumSupportedMinor := Rpc.minimumSupportedMinor
  bridgeVersion := bridgeVersion
  releaseId := releaseId
  supportedCapabilities := .empty
  requiredCapabilities := .allQueryCapabilities

def validate {Set : Type} (client : ClientHello Set) : Except RpcError Unit :=
  validateRange client.protocolMajor client.protocolMinor client.minimumSupportedMinor

/-- The minors from the minimum to the protocol's. -/
def Speaks {Set : Type} (client : ClientHello Set) (minor : Nat) : Prop :=
  client.minimumSupportedMinor ≤ minor ∧ minor ≤ client.protocolMinor

def serialize (client : ClientHello CapabilitySet) : ClientHello (List String) :=
  { client with
    supportedCapabilities := client.supportedCapabilities.serialize
    requiredCapabilities := client.requiredCapabilities.serialize }

def deserialize (client : ClientHello (List String)) :
    Except String (ClientHello CapabilitySet) := do
  let supported ← CapabilitySet.deserialize client.supportedCapabilities
  let required ← CapabilitySet.deserialize client.requiredCapabilities
  .ok { client with supportedCapabilities := supported, requiredCapabilities := required }

@[simp]
theorem deserialize_serialize (client : ClientHello CapabilitySet) :
    deserialize client.serialize = .ok client := by
  unfold deserialize serialize
  simp only [CapabilitySet.deserialize_serialize]
  rfl

end ClientHello

namespace HostHello

/-- `HostHello::initial`. -/
def initial (hostVersion releaseId : String) : HostHello CapabilitySet where
  protocolMajor := Rpc.protocolMajor
  protocolMinor := Rpc.protocolMinor
  minimumSupportedMinor := Rpc.minimumSupportedMinor
  selectedProtocolMinor := Rpc.protocolMinor
  hostVersion := hostVersion
  releaseId := releaseId
  supportedCapabilities := .allQueryCapabilities
  requiredCapabilities := .empty

def validate {Set : Type} (host : HostHello Set) : Except RpcError Unit :=
  validateRange host.protocolMajor host.protocolMinor host.minimumSupportedMinor

def Speaks {Set : Type} (host : HostHello Set) (minor : Nat) : Prop :=
  host.minimumSupportedMinor ≤ minor ∧ minor ≤ host.protocolMinor

def serialize (host : HostHello CapabilitySet) : HostHello (List String) :=
  { host with
    supportedCapabilities := host.supportedCapabilities.serialize
    requiredCapabilities := host.requiredCapabilities.serialize }

def deserialize (host : HostHello (List String)) : Except String (HostHello CapabilitySet) := do
  let supported ← CapabilitySet.deserialize host.supportedCapabilities
  let required ← CapabilitySet.deserialize host.requiredCapabilities
  .ok { host with supportedCapabilities := supported, requiredCapabilities := required }

@[simp]
theorem deserialize_serialize (host : HostHello CapabilitySet) :
    deserialize host.serialize = .ok host := by
  unfold deserialize serialize
  simp only [CapabilitySet.deserialize_serialize]
  rfl

end HostHello

namespace HandshakeResponse

def serialize : HandshakeResponse CapabilitySet → HandshakeResponse (List String)
  | .accepted host upgradeRecommended => .accepted host.serialize upgradeRecommended
  | .rejected error => .rejected error

def deserialize : HandshakeResponse (List String) → Except String (HandshakeResponse CapabilitySet)
  | .accepted host upgradeRecommended => do
      let host ← HostHello.deserialize host
      .ok (.accepted host upgradeRecommended)
  | .rejected error => .ok (.rejected error)

@[simp]
theorem deserialize_serialize (response : HandshakeResponse CapabilitySet) :
    deserialize response.serialize = .ok response := by
  cases response with
  | accepted host upgradeRecommended =>
      unfold deserialize serialize
      simp only [HostHello.deserialize_serialize]
      rfl
  | rejected error => rfl

end HandshakeResponse

/-! ## §3  Negotiation -/

def negotiate (client : ClientHello CapabilitySet) (host : HostHello CapabilitySet) :
    Except RpcError HandshakeResult :=
  if client.protocolMajor ≠ host.protocolMajor then
    .error (.protocolMismatch "client and host protocol majors differ")
  else do
    client.validate
    host.validate
    let lower := max client.minimumSupportedMinor host.minimumSupportedMinor
    let upper := min client.protocolMinor host.protocolMinor
    if upper < lower then
      .error (.protocolMismatch "client and host minor version ranges do not overlap")
    else if host.selectedProtocolMinor ≠ upper then
      .error (.protocolMismatch "host selected a minor version other than the highest overlap")
    else
      match client.requiredCapabilities.toList.find? (!host.supportedCapabilities.contains ·) with
      | some missing =>
          .error (.capabilityMismatch
            ("host does not support required capability " ++ missing.asStr))
      | none =>
          match host.requiredCapabilities.toList.find?
              (!client.supportedCapabilities.contains ·) with
          | some missing =>
              .error (.capabilityMismatch
                ("client does not support host-required capability " ++ missing.asStr))
          | none =>
              .ok
                { selectedProtocolMinor := upper
                  upgradeRecommended := decide (client.releaseId ≠ host.releaseId) }

def handshakeResponse (client : ClientHello CapabilitySet) (host : HostHello CapabilitySet) :
    HandshakeResponse CapabilitySet :=
  match negotiate client host with
  | .ok result => .accepted host result.upgradeRecommended
  | .error error => .rejected error

def selectedHost (template : HostHello CapabilitySet) (client : ClientHello CapabilitySet) :
    HostHello CapabilitySet :=
  { template with selectedProtocolMinor := min client.protocolMinor template.protocolMinor }

/-- What the two have to have in common; the minor a host has selected is no part of it. -/
structure Compatible (client : ClientHello CapabilitySet) (host : HostHello CapabilitySet) :
    Prop where
  major : client.protocolMajor = host.protocolMajor
  client_valid : client.validate = .ok ()
  host_valid : host.validate = .ok ()
  overlap : ∃ minor, client.Speaks minor ∧ host.Speaks minor
  host_supports : ∀ capability ∈ client.requiredCapabilities.toList,
    capability ∈ host.supportedCapabilities.toList
  client_supports : ∀ capability ∈ host.requiredCapabilities.toList,
    capability ∈ client.supportedCapabilities.toList

theorem CapabilitySet.find?_missing {required supported : CapabilitySet} :
    required.toList.find? (!supported.contains ·) = none ↔
      ∀ capability ∈ required.toList, capability ∈ supported.toList := by
  rw [List.find?_eq_none]
  simp only [contains, Bool.not_eq_true', decide_eq_false_iff_not, not_not]

section

variable {client : ClientHello CapabilitySet} {host : HostHello CapabilitySet}

theorem overlap_iff : (∃ minor, client.Speaks minor ∧ host.Speaks minor) ↔
    max client.minimumSupportedMinor host.minimumSupportedMinor ≤
      min client.protocolMinor host.protocolMinor := by
  unfold ClientHello.Speaks HostHello.Speaks
  constructor
  · rintro ⟨minor, ⟨_, _⟩, _, _⟩
    omega
  · intro h
    refine ⟨min client.protocolMinor host.protocolMinor, ?_⟩
    omega

theorem negotiate_ok_iff {result : HandshakeResult} :
    negotiate client host = .ok result ↔
      Compatible client host ∧
        host.selectedProtocolMinor = min client.protocolMinor host.protocolMinor ∧
        result =
          { selectedProtocolMinor := host.selectedProtocolMinor
            upgradeRecommended := decide (client.releaseId ≠ host.releaseId) } := by
  unfold negotiate
  constructor
  · intro h
    split at h
    · cases h
    rename_i hmajor
    obtain ⟨_, hclient, h⟩ := bind_ok h
    obtain ⟨_, hhost, h⟩ := bind_ok h
    simp only at h
    split at h
    · cases h
    rename_i hoverlap
    split at h
    · cases h
    rename_i hselected
    split at h
    · cases h
    rename_i hrequired
    split at h
    · cases h
    rename_i hsupported
    cases h
    refine ⟨⟨not_not.mp hmajor, hclient, hhost, ?_, ?_, ?_⟩, not_not.mp hselected, ?_⟩
    · exact overlap_iff.mpr (Nat.le_of_not_lt hoverlap)
    · exact CapabilitySet.find?_missing.mp hrequired
    · exact CapabilitySet.find?_missing.mp hsupported
    · rw [not_not.mp hselected]
  · rintro ⟨hcompatible, hselected, rfl⟩
    have hoverlap := overlap_iff.mp hcompatible.overlap
    rw [if_neg (not_not.mpr hcompatible.major), hcompatible.client_valid, hcompatible.host_valid]
    show (if _ then _ else _) = _
    rw [if_neg (Nat.not_lt.mpr hoverlap), if_neg (not_not.mpr hselected),
      CapabilitySet.find?_missing.mpr hcompatible.host_supports]
    simp only
    rw [CapabilitySet.find?_missing.mpr hcompatible.client_supports, hselected]

theorem handshakeResponse_accepted_iff {answered : HostHello CapabilitySet} {upgrade : Bool} :
    handshakeResponse client host = .accepted answered upgrade ↔
      answered = host ∧
        ∃ result, negotiate client host = .ok result ∧ result.upgradeRecommended = upgrade := by
  unfold handshakeResponse
  cases negotiate client host with
  | error error => simp
  | ok result =>
      simp only [HandshakeResponse.accepted.injEq, Except.ok.injEq, exists_eq_left', eq_comm]

/-- Putting the minor in leaves the rest of the template as it is. -/
theorem compatible_selectedHost :
    Compatible client (selectedHost host client) ↔ Compatible client host := by
  constructor
  · rintro ⟨hmajor, hclient, hhost, hoverlap, hhs, hcs⟩
    exact ⟨hmajor, hclient, hhost, hoverlap, hhs, hcs⟩
  · rintro ⟨hmajor, hclient, hhost, hoverlap, hhs, hcs⟩
    exact ⟨hmajor, hclient, hhost, hoverlap, hhs, hcs⟩

/-- The server accepts whom it is compatible with. -/
theorem handshakeResponse_selectedHost_iff {answered : HostHello CapabilitySet} {upgrade : Bool} :
    handshakeResponse client (selectedHost host client) = .accepted answered upgrade ↔
      Compatible client host ∧ answered = selectedHost host client ∧
        upgrade = decide (client.releaseId ≠ host.releaseId) := by
  rw [handshakeResponse_accepted_iff, ← compatible_selectedHost]
  constructor
  · rintro ⟨rfl, result, hresult, rfl⟩
    obtain ⟨hcompatible, -, rfl⟩ := negotiate_ok_iff.mp hresult
    exact ⟨hcompatible, rfl, rfl⟩
  · rintro ⟨hcompatible, rfl, rfl⟩
    exact ⟨rfl, _, negotiate_ok_iff.mpr ⟨hcompatible, rfl, rfl⟩, rfl⟩

theorem isGreatest_selected (hcompatible : Compatible client host) :
    IsGreatest {minor | client.Speaks minor ∧ host.Speaks minor}
      (selectedHost host client).selectedProtocolMinor := by
  have hoverlap := overlap_iff.mp hcompatible.overlap
  unfold ClientHello.Speaks HostHello.Speaks
  constructor
  · simp only [Set.mem_ofPred_eq, selectedHost]
    omega
  · rintro minor ⟨⟨_, hclient⟩, _, hhost⟩
    exact le_min hclient hhost

end

/-! ## §4  The two sides -/

/-- `serde_json` and the derived encodings of the hellos: what the serializer writes piece
by piece, and what the parser makes of a body. -/
structure HelloWire where
  encodeHello : ClientHello (List String) → List Bytes
  decodeHello : Bytes → Option (ClientHello (List String))
  encodeResponse : HandshakeResponse (List String) → List Bytes
  decodeResponse : Bytes → Option (HandshakeResponse (List String))

namespace HelloWire

variable (wire : HelloWire)

def writeHello (client : ClientHello CapabilitySet) : Except FramedError Bytes :=
  encodeFrame (wire.encodeHello client.serialize)

def readHello (body : Bytes) : Option (ClientHello CapabilitySet) :=
  (wire.decodeHello body).bind fun client => (ClientHello.deserialize client).toOption

def writeResponse (response : HandshakeResponse CapabilitySet) : Except FramedError Bytes :=
  encodeFrame (wire.encodeResponse response.serialize)

def readResponse (body : Bytes) : Option (HandshakeResponse CapabilitySet) :=
  (wire.decodeResponse body).bind fun response =>
    (HandshakeResponse.deserialize response).toOption

/-- The parser reads a hello back that the serializer wrote. -/
def KeepsHello (client : ClientHello (List String)) : Prop :=
  wire.decodeHello (wire.encodeHello client).flatten = some client

def KeepsResponse (response : HandshakeResponse (List String)) : Prop :=
  wire.decodeResponse (wire.encodeResponse response).flatten = some response

end HelloWire

/-- `SessionError`, as far as a handshake ends with one. -/
inductive HandshakeError (ε : Type)
  | read (error : StreamError ε)
  | write (error : FramedError)
  | rejected (error : RpcError)
  | protocol (error : RpcError)

def frameRpcError {ε : Type} (error : StreamError ε) : RpcError :=
  match error with
  | .oversizedFrame _ => .oversizedFrame "handshake frame exceeds the 1 MiB maximum"
  | _ => .invalidFrame "a valid ClientHello frame is required before queries"

structure RpcClient (ε : Type) where
  stream : Reads.Stream UInt8 ε
  host : HostHello CapabilitySet
  upgradeRecommended : Bool

section

variable {ε : Type}

/-- What the server writes in answer to bytes that are no hello, and its own end. -/
def refuse (wire : HelloWire) (error : StreamError ε) :
    Bytes × Except (HandshakeError ε) (CapabilitySet × Reads.Stream UInt8 ε) :=
  match wire.writeResponse (.rejected (frameRpcError error)) with
  | .error error => ([], .error (.write error))
  | .ok framed => (framed, .error (.read error))

/-- `serve_stream` up to its loop: what is written, and the capabilities and the stream
that the loop starts with. -/
def serveHandshake (wire : HelloWire) (template : HostHello CapabilitySet)
    (stream : Reads.Stream UInt8 ε) :
    Bytes × Except (HandshakeError ε) (CapabilitySet × Reads.Stream UInt8 ε) :=
  match readFrame stream with
  | (.error error, _) => refuse wire error
  | (.ok body, rest) =>
      match wire.readHello body with
      | none => refuse wire .invalidJson
      | some client =>
          let response := handshakeResponse client (selectedHost template client)
          match wire.writeResponse response with
          | .error error => ([], .error (.write error))
          | .ok framed =>
              (framed,
                match response with
                | .accepted host _ => .ok (host.supportedCapabilities, rest)
                | .rejected error => .error (.rejected error))

def upgradeMismatch : RpcError :=
  .protocolMismatch "Host upgrade recommendation does not match negotiated releases"

/-- What the client makes of the response. -/
def conclude (client : ClientHello CapabilitySet) (stream : Reads.Stream UInt8 ε) :
    HandshakeResponse CapabilitySet → Except (HandshakeError ε) (RpcClient ε)
  | .rejected error => .error (.rejected error)
  | .accepted host upgradeRecommended =>
      match negotiate client host with
      | .error error => .error (.protocol error)
      | .ok result =>
          if result.upgradeRecommended ≠ upgradeRecommended then .error (.protocol upgradeMismatch)
          else .ok ⟨stream, host, upgradeRecommended⟩

/-- `handshake_with_timeout` within its deadline: what is written, and the session. -/
def handshakeWithTimeout (wire : HelloWire) (client : ClientHello CapabilitySet)
    (stream : Reads.Stream UInt8 ε) : Bytes × Except (HandshakeError ε) (RpcClient ε) :=
  match wire.writeHello client with
  | .error error => ([], .error (.write error))
  | .ok framed =>
      (framed,
        match readFrame stream with
        | (.error error, _) => .error (.read error)
        | (.ok body, rest) =>
            match wire.readResponse body with
            | none => .error (.read .invalidJson)
            | some response => conclude client rest response)

/-! ## §5  Both sides come to one result -/

variable {wire : HelloWire} {client : ClientHello CapabilitySet}
  {template : HostHello CapabilitySet}

theorem HelloWire.readHello_kept (h : wire.KeepsHello client.serialize) :
    wire.readHello (wire.encodeHello client.serialize).flatten = some client := by
  unfold HelloWire.readHello
  rw [h, Option.bind_some, ClientHello.deserialize_serialize]
  rfl

theorem HelloWire.readResponse_kept {response : HandshakeResponse CapabilitySet}
    (h : wire.KeepsResponse response.serialize) :
    wire.readResponse (wire.encodeResponse response.serialize).flatten = some response := by
  unfold HelloWire.readResponse
  rw [h, Option.bind_some, HandshakeResponse.deserialize_serialize]
  rfl

/-- A stream that ends at once brings no frame. -/
theorem readFrame_nothing {stream : Reads.Stream UInt8 ε} (hclean : Clean stream)
    (hitems : items stream = []) :
    ∃ error rest, readFrame stream = (.error error, rest) := by
  have hreading := readFrame_clean hclean
  unfold Reading at hreading
  rw [hitems] at hreading
  obtain ⟨expected, actual, rest, hread, -⟩ := hreading
  exact ⟨_, rest, hread⟩

/-- The server's side, on a stream with the client's hello. -/
theorem serveHandshake_of_hello {framed tail : Bytes} {stream : Reads.Stream UInt8 ε}
    (hclean : Clean stream) (hkeeps : wire.KeepsHello client.serialize)
    (hwrite : wire.writeHello client = .ok framed) (hitems : items stream = framed ++ tail) :
    ∃ rest, items rest = tail ∧ serveHandshake wire template stream =
      match wire.writeResponse (handshakeResponse client (selectedHost template client)) with
      | .error error => ([], .error (.write error))
      | .ok framed =>
          (framed,
            match handshakeResponse client (selectedHost template client) with
            | .accepted host _ => .ok (host.supportedCapabilities, rest)
            | .rejected error => .error (.rejected error)) := by
  obtain ⟨rfl, hne, hfits⟩ := encodeFrame_ok_iff.mp hwrite
  obtain ⟨rest, hread, -, htail⟩ := readFrame_frame hne hfits hclean hitems
  refine ⟨rest, htail, ?_⟩
  unfold serveHandshake
  rw [hread]
  simp only [HelloWire.readHello_kept hkeeps]

/-- The client's side, on a stream with the response. -/
theorem handshakeWithTimeout_of_response {hello framed tail : Bytes}
    {response : HandshakeResponse CapabilitySet} {stream : Reads.Stream UInt8 ε}
    (hclean : Clean stream) (hkeeps : wire.KeepsResponse response.serialize)
    (hhello : wire.writeHello client = .ok hello) (hwrite : wire.writeResponse response = .ok framed)
    (hitems : items stream = framed ++ tail) :
    ∃ rest, items rest = tail ∧
      handshakeWithTimeout wire client stream = (hello, conclude client rest response) := by
  obtain ⟨rfl, hne, hfits⟩ := encodeFrame_ok_iff.mp hwrite
  obtain ⟨rest, hread, -, htail⟩ := readFrame_frame hne hfits hclean hitems
  refine ⟨rest, htail, ?_⟩
  unfold handshakeWithTimeout
  rw [hhello]
  simp only [hread, HelloWire.readResponse_kept hkeeps]

/-- The client finds for itself what the server has answered. -/
theorem conclude_handshakeResponse {host : HostHello CapabilitySet}
    {stream : Reads.Stream UInt8 ε} {session : RpcClient ε} :
    conclude client stream (handshakeResponse client host) = .ok session ↔
      handshakeResponse client host = .accepted session.host session.upgradeRecommended ∧
        session.stream = stream := by
  cases hresponse : handshakeResponse client host with
  | rejected error =>
      unfold conclude
      exact ⟨nofun, fun h => nomatch h.1⟩
  | accepted answered upgrade =>
      obtain ⟨rfl, result, hresult, rfl⟩ := handshakeResponse_accepted_iff.mp hresponse
      unfold conclude
      simp only [hresult, ne_eq, not_true, if_false, HandshakeResponse.accepted.injEq]
      constructor
      · intro h
        cases h
        exact ⟨⟨rfl, rfl⟩, rfl⟩
      · rintro ⟨⟨rfl, hupgrade⟩, rfl⟩
        rw [hupgrade]

theorem refuse_ne_ok (error : StreamError ε) (opened : CapabilitySet × Reads.Stream UInt8 ε) :
    (refuse wire error).2 ≠ .ok opened := by
  unfold refuse
  split <;> exact nofun

/-- Hello and response have gone over the wire, and the two are compatible. -/
def Agreed (wire : HelloWire) (client : ClientHello CapabilitySet)
    (template : HostHello CapabilitySet) : Prop :=
  (∃ hello, wire.writeHello client = .ok hello) ∧
    (∃ framed, wire.writeResponse
      (handshakeResponse client (selectedHost template client)) = .ok framed) ∧
    Compatible client template

/-- Either side opens the session exactly when they have agreed. -/
theorem handshake_sides {toServer toClient : Reads.Stream UInt8 ε} (hserver : Clean toServer)
    (hclient : Clean toClient) (hhello : wire.KeepsHello client.serialize)
    (hresponse : wire.KeepsResponse
      (handshakeResponse client (selectedHost template client)).serialize)
    (htoServer : items toServer = (handshakeWithTimeout wire client toClient).1)
    (htoClient : items toClient = (serveHandshake wire template toServer).1) :
    ((∃ opened, (serveHandshake wire template toServer).2 = .ok opened) ↔
      Agreed wire client template) ∧
    ∀ host upgrade,
      (∃ rest, (handshakeWithTimeout wire client toClient).2 = .ok ⟨rest, host, upgrade⟩) ↔
        Agreed wire client template ∧ host = selectedHost template client ∧
          upgrade = decide (client.releaseId ≠ template.releaseId) := by
  unfold Agreed
  cases hwrite : wire.writeHello client with
  | error error =>
      -- nothing is sent, and the server finds the end of its stream
      have hfailed : handshakeWithTimeout wire client toClient = ([], .error (.write error)) := by
        unfold handshakeWithTimeout
        rw [hwrite]
      rw [hfailed] at htoServer
      obtain ⟨readError, rest, hread⟩ := readFrame_nothing hserver htoServer
      have hrefused : serveHandshake wire template toServer = refuse wire readError := by
        unfold serveHandshake
        rw [hread]
      rw [hrefused, hfailed]
      simp [refuse_ne_ok]
  | ok hello =>
      have hsent : items toServer = hello ++ [] := by
        rw [htoServer, List.append_nil]
        unfold handshakeWithTimeout
        rw [hwrite]
      obtain ⟨afterHello, -, hserve⟩ := serveHandshake_of_hello hserver hhello hwrite hsent
      cases hanswer : wire.writeResponse (handshakeResponse client (selectedHost template client)) with
      | error error =>
          rw [hanswer] at hserve
          rw [hserve] at htoClient
          obtain ⟨readError, rest, hread⟩ := readFrame_nothing hclient htoClient
          have hfailed : handshakeWithTimeout wire client toClient =
              (hello, .error (.read readError)) := by
            unfold handshakeWithTimeout
            rw [hwrite]
            simp only [hread]
          rw [hserve, hfailed]
          simp
      | ok framed =>
          rw [hanswer] at hserve
          rw [hserve] at htoClient
          obtain ⟨afterResponse, -, hconclude⟩ := handshakeWithTimeout_of_response hclient hresponse
            hwrite hanswer (htoClient.trans (List.append_nil _).symm)
          rw [hserve, hconclude]
          refine ⟨?_, ?_⟩
          · cases hverdict : handshakeResponse client (selectedHost template client) with
            | accepted host upgrade =>
                have hcompatible := (handshakeResponse_selectedHost_iff.mp hverdict).1
                simp [hcompatible]
            | rejected error =>
                have hincompatible : ¬ Compatible client template := by
                  intro hcompatible
                  have hok := handshakeResponse_selectedHost_iff.mpr ⟨hcompatible, rfl, rfl⟩
                  rw [hverdict] at hok
                  cases hok
                simp [hincompatible]
          · intro host upgrade
            simp only [conclude_handshakeResponse, handshakeResponse_selectedHost_iff]
            simp

end

/-- The server accepts exactly the clients whose own negotiation succeeds, which are the
compatible ones, with the highest minor that both speak; and neither side of a wire that
keeps hello and response opens a session without the other. -/
theorem handshake_agreement (client : ClientHello CapabilitySet)
    (template : HostHello CapabilitySet) :
    (∀ host upgrade,
      handshakeResponse client (selectedHost template client) = .accepted host upgrade ↔
        host = selectedHost template client ∧
          ∃ result, negotiate client host = .ok result ∧ result.upgradeRecommended = upgrade) ∧
    ((∃ host upgrade,
        handshakeResponse client (selectedHost template client) = .accepted host upgrade) ↔
      Compatible client template) ∧
    (∀ host upgrade,
      handshakeResponse client (selectedHost template client) = .accepted host upgrade →
        IsGreatest {minor | client.Speaks minor ∧ template.Speaks minor}
          host.selectedProtocolMinor) ∧
    ∀ (ε : Type) (wire : HelloWire) (toServer toClient : Reads.Stream UInt8 ε),
      Clean toServer → Clean toClient → wire.KeepsHello client.serialize →
      wire.KeepsResponse (handshakeResponse client (selectedHost template client)).serialize →
      items toServer = (handshakeWithTimeout wire client toClient).1 →
      items toClient = (serveHandshake wire template toServer).1 →
        ((∃ opened, (serveHandshake wire template toServer).2 = .ok opened) ↔
          Agreed wire client template) ∧
        ∀ host upgrade,
          (∃ rest, (handshakeWithTimeout wire client toClient).2 = .ok ⟨rest, host, upgrade⟩) ↔
            Agreed wire client template ∧ host = selectedHost template client ∧
              upgrade = decide (client.releaseId ≠ template.releaseId) := by
  refine ⟨?_, ?_, ?_, ?_⟩
  · intro host upgrade
    rw [handshakeResponse_accepted_iff]
    constructor
    · rintro ⟨rfl, hresult⟩
      exact ⟨rfl, hresult⟩
    · rintro ⟨rfl, hresult⟩
      exact ⟨rfl, hresult⟩
  · simp only [handshakeResponse_selectedHost_iff]
    constructor
    · rintro ⟨_, _, hcompatible, -⟩
      exact hcompatible
    · intro hcompatible
      exact ⟨_, _, hcompatible, rfl, rfl⟩
  · intro host upgrade haccepted
    obtain ⟨hcompatible, rfl, -⟩ := handshakeResponse_selectedHost_iff.mp haccepted
    exact isGreatest_selected hcompatible
  · intro ε wire toServer toClient hserver hclient hhello hresponse htoServer htoClient
    exact handshake_sides hserver hclient hhello hresponse htoServer htoClient

/-! The first hellos of one release, and their texts. -/

def firstClient : ClientHello CapabilitySet := .initial "1.0.0" "r1"

def firstHost : HostHello CapabilitySet := .initial "1.0.0" "r1"

def allNames : String :=
  "\"query.get_health_summary.v1\",\"query.get_recent_changes.v1\",\"query.get_resource.v1\"," ++
  "\"query.get_sync_status.v1\",\"query.get_topology.v1\"," ++
  "\"query.list_connector_coverage.v1\",\"query.search_resources.v1\""

def firstHelloText : Bytes :=
  ("\x7b\"protocol_major\":1,\"protocol_minor\":0,\"minimum_supported_minor\":0," ++
    "\"bridge_version\":\"1.0.0\",\"release_id\":\"r1\",\"supported_capabilities\":[]," ++
    "\"required_capabilities\":[" ++ allNames ++ "]\x7d").toUTF8.toList

def firstResponseText : Bytes :=
  ("\x7b\"type\":\"accepted\",\"data\":\x7b\"host\":\x7b\"protocol_major\":1," ++
    "\"protocol_minor\":0,\"minimum_supported_minor\":0,\"selected_protocol_minor\":0," ++
    "\"host_version\":\"1.0.0\",\"release_id\":\"r1\",\"supported_capabilities\":[" ++
    allNames ++ "],\"required_capabilities\":[]\x7d,\"upgrade_recommended\":false\x7d\x7d").toUTF8.toList

def firstResponse : HandshakeResponse CapabilitySet :=
  handshakeResponse firstClient (selectedHost firstHost firstClient)

/-- The texts of the two values, and no others. -/
def firstWire : HelloWire where
  encodeHello _ := [firstHelloText]
  decodeHello body := if body = firstHelloText then some firstClient.serialize else none
  encodeResponse _ := [firstResponseText]
  decodeResponse body := if body = firstResponseText then some firstResponse.serialize else none

def firstToServer : Reads.Stream UInt8 Unit := putBack (frame firstHelloText) []

def firstToClient : Reads.Stream UInt8 Unit := putBack (frame firstResponseText) []

theorem firstWire_writeHello : firstWire.writeHello firstClient = .ok (frame firstHelloText) := by
  have hfits : firstHelloText ≠ [] ∧ firstHelloText.length ≤ maxFrameBytes := by decide +kernel
  have hflat : (firstWire.encodeHello firstClient.serialize).flatten = firstHelloText :=
    List.flatten_singleton
  apply encodeFrame_ok_iff.mpr
  rw [hflat]
  exact ⟨rfl, hfits⟩

theorem firstWire_writeResponse (response : HandshakeResponse CapabilitySet) :
    firstWire.writeResponse response = .ok (frame firstResponseText) := by
  have hfits : firstResponseText ≠ [] ∧ firstResponseText.length ≤ maxFrameBytes := by
    decide +kernel
  have hflat : (firstWire.encodeResponse response.serialize).flatten = firstResponseText :=
    List.flatten_singleton
  apply encodeFrame_ok_iff.mpr
  rw [hflat]
  exact ⟨rfl, hfits⟩

theorem firstWire_keepsHello : firstWire.KeepsHello firstClient.serialize := by
  show (if [firstHelloText].flatten = firstHelloText then _ else _) = _
  rw [List.flatten_singleton, if_pos rfl]

theorem firstWire_keepsResponse : firstWire.KeepsResponse firstResponse.serialize := by
  show (if [firstResponseText].flatten = firstResponseText then _ else _) = _
  rw [List.flatten_singleton, if_pos rfl]

theorem first_compatible : Compatible firstClient firstHost where
  major := rfl
  client_valid := rfl
  host_valid := rfl
  overlap := ⟨0, ⟨Nat.le_refl 0, Nat.le_refl 0⟩, Nat.le_refl 0, Nat.le_refl 0⟩
  host_supports _ h := h
  client_supports _ h := h

theorem first_served : (serveHandshake firstWire firstHost firstToServer).1 =
    frame firstResponseText := by
  obtain ⟨rest, -, hserve⟩ := @serveHandshake_of_hello Unit firstWire firstClient firstHost
    (frame firstHelloText) [] firstToServer (clean_nil.putBack _) firstWire_keepsHello
    firstWire_writeHello (items_putBack _ _)
  rw [hserve, firstWire_writeResponse]

theorem handshake_agreement_first :
    (∃ opened, (serveHandshake firstWire firstHost firstToServer).2 = .ok opened) ∧
      ∃ rest, (handshakeWithTimeout firstWire firstClient firstToClient).2 =
        .ok ⟨rest, selectedHost firstHost firstClient, false⟩ := by
  have hagreed : Agreed firstWire firstClient firstHost :=
    ⟨⟨_, firstWire_writeHello⟩, ⟨_, firstWire_writeResponse _⟩, first_compatible⟩
  obtain ⟨hserver, hclient⟩ := (handshake_agreement firstClient firstHost).2.2.2 Unit firstWire
    firstToServer firstToClient (clean_nil.putBack _) (clean_nil.putBack _) firstWire_keepsHello
    firstWire_keepsResponse
    (by
      unfold handshakeWithTimeout
      rw [firstWire_writeHello]
      exact (items_putBack _ _).trans (List.append_nil _))
    (by
      rw [first_served]
      exact (items_putBack _ _).trans (List.append_nil _))
  exact ⟨hserver.mpr hagreed, (hclient _ _).mpr ⟨hagreed, rfl, rfl⟩⟩

end Rpc

end NextInfra
