import NextInfra.Core.Ids
import NextInfra.Core.Text
import NextInfra.Lib.Frames
import NextInfra.Lib.JsonText

/-!
# Messages of the local RPC

The envelopes of `next-infra-local-rpc`, the checks their constructors make, and
`encode_frame`. The queries, the DTOs and their JSON are behind `Wire`: no function
here looks into them beyond their capability. The texts of the envelopes themselves are
in §4.
-/

namespace NextInfra

/-- The error the bridge hands to its MCP client. -/
structure McpBridgeError where
  code : String
  message : String
  retryable : Bool
deriving DecidableEq

namespace Rpc

open Frames

/-! ## §1  Errors -/

inductive ErrorCode
  | hostUnavailable
  | protocolMismatch
  | capabilityMismatch
  | invalidFrame
  | frameTooLarge
  | invalidRequestId
  | tooManyRequests
  | queryFailed
deriving DecidableEq

def ErrorCode.asStr : ErrorCode → String
  | .hostUnavailable => "host_unavailable"
  | .protocolMismatch => "protocol_mismatch"
  | .capabilityMismatch => "capability_mismatch"
  | .invalidFrame => "invalid_frame"
  | .frameTooLarge => "frame_too_large"
  | .invalidRequestId => "invalid_request_id"
  | .tooManyRequests => "too_many_requests"
  | .queryFailed => "query_failed"

structure RpcError where
  code : ErrorCode
  message : String
  retryable : Bool
deriving DecidableEq

namespace RpcError

def invalidFrame (message : String) : RpcError :=
  { code := .invalidFrame, message := message, retryable := false }

def capabilityMismatch (message : String) : RpcError :=
  { code := .capabilityMismatch, message := message, retryable := false }

def invalidRequestId : RpcError where
  code := .invalidRequestId
  message := "request_id must be a non-empty UTF-8 string no longer than 128 bytes"
  retryable := false

def tooManyRequests : RpcError where
  code := .tooManyRequests
  message := "the session has reached its in-flight request limit"
  retryable := true

end RpcError

inductive FramedError
  /-- The deadline has passed. -/
  | timedOut
  | zeroLength
  | oversizedFrame (length : Nat)
  | invalidJson
deriving DecidableEq

inductive SessionError
  | frame (error : FramedError)
  | protocol (error : RpcError)
  | workerPanicked
  | writerPoisoned
deriving DecidableEq

/-! ## §2  Envelopes -/

def maxRequestIdBytes : Nat := 128

def maxInFlightRequests : Nat := 8

def maxFrameBytes : Nat := 1048576

theorem maxFrameBytes_lt : maxFrameBytes < 2 ^ 32 := by decide

def validateRequestId (id : String) : Except RpcError Unit :=
  if id.toList.isEmpty || decide (maxRequestIdBytes < Text.byteLength id.toList) ||
      id.toList.any Text.isControl then .error .invalidRequestId
  else .ok ()

def validateInFlight (count : Nat) : Except RpcError Unit :=
  if maxInFlightRequests ≤ count then .error .tooManyRequests else .ok ()

inductive Caller
  | bridge (bridgeVersion releaseId : String) (diagnostic : Option String)
  | test (name : String) (diagnostic : Option String)
deriving DecidableEq

namespace Caller

def valueIsValid (value : String) : Bool :=
  decide (trim value.toList ≠ []) && !value.toList.any Text.isControl

def diagnosticIsValid (diagnostic : Option String) : Bool :=
  match diagnostic with
  | none => true
  | some value => !value.toList.any Text.isControl

def validate (caller : Caller) : Except RpcError Unit :=
  let valid :=
    match caller with
    | .bridge bridgeVersion releaseId diagnostic =>
        valueIsValid bridgeVersion && valueIsValid releaseId && diagnosticIsValid diagnostic
    | .test name diagnostic => valueIsValid name && diagnosticIsValid diagnostic
  if valid then .ok () else .error (.invalidFrame "caller identity is invalid")

end Caller

inductive Capability
  | getHealthSummary
  | getRecentChanges
  | getResource
  | getSyncStatus
  | getTopology
  | listConnectorCoverage
  | searchResources
deriving DecidableEq

structure RequestEnvelope (Query : Type) where
  requestId : String
  caller : Caller
  query : Query

inductive ResponseBody (Response : Type)
  | query (response : Response)
  | error (error : RpcError)
deriving DecidableEq

structure ResponseEnvelope (Response : Type) where
  requestId : String
  body : ResponseBody Response
deriving DecidableEq

section

variable {Query Response : Type}

def RequestEnvelope.validate (request : RequestEnvelope Query) : Except RpcError Unit := do
  validateRequestId request.requestId
  request.caller.validate

/-- `RequestEnvelope::new`. -/
def RequestEnvelope.create (requestId : String) (caller : Caller) (query : Query) :
    Except RpcError (RequestEnvelope Query) := do
  let envelope : RequestEnvelope Query :=
    { requestId := requestId, caller := caller, query := query }
  envelope.validate
  .ok envelope

/-- `ResponseEnvelope::success` and `ResponseEnvelope::error`. -/
def ResponseEnvelope.create (requestId : String) (body : ResponseBody Response) :
    Except RpcError (ResponseEnvelope Response) := do
  validateRequestId requestId
  .ok { requestId := requestId, body := body }

theorem ResponseEnvelope.create_ok {requestId : String} {body : ResponseBody Response}
    {response : ResponseEnvelope Response}
    (h : ResponseEnvelope.create requestId body = .ok response) :
    response = { requestId := requestId, body := body } := by
  obtain ⟨_, _, h⟩ := bind_ok h
  cases h
  rfl

theorem RequestEnvelope.create_ok {requestId : String} {caller : Caller} {query : Query}
    {request : RequestEnvelope Query}
    (h : RequestEnvelope.create requestId caller query = .ok request) :
    request = { requestId := requestId, caller := caller, query := query } := by
  obtain ⟨_, _, h⟩ := bind_ok h
  cases h
  rfl

theorem RequestEnvelope.validate_id {request : RequestEnvelope Query}
    (h : request.validate = .ok ()) : validateRequestId request.requestId = .ok () := by
  obtain ⟨_, hid, _⟩ := bind_ok h
  exact hid

end

/-! ## §3  Encoding -/

/-- `LimitedWriter::write`; the error is what would have been written. -/
def limitedWrite (bytes piece : Bytes) : Except Nat Bytes :=
  if maxFrameBytes - bytes.length < piece.length then .error (bytes.length + piece.length)
  else .ok (bytes ++ piece)

/-- `encode_frame` as `write_frame` reports it, for the pieces the serializer writes. -/
def encodeFrame (pieces : List Bytes) : Except FramedError Bytes :=
  match pieces.foldlM limitedWrite [] with
  | .error length => .error (.oversizedFrame length)
  | .ok body => if body.isEmpty then .error .invalidJson else .ok (frame body)

theorem foldlM_limitedWrite {pieces : List Bytes} {bytes body : Bytes}
    (hbytes : bytes.length ≤ maxFrameBytes) :
    pieces.foldlM limitedWrite bytes = .ok body ↔
      body = bytes ++ pieces.flatten ∧ body.length ≤ maxFrameBytes := by
  induction pieces generalizing bytes with
  | nil =>
      simp only [List.foldlM_nil, List.flatten_nil, List.append_nil]
      constructor
      · intro h
        cases h
        exact ⟨rfl, hbytes⟩
      · rintro ⟨rfl, _⟩
        rfl
  | cons piece pieces ih =>
      rw [List.foldlM_cons, List.flatten_cons]
      unfold limitedWrite
      split
      · rename_i hover
        constructor
        · intro h
          cases h
        · rintro ⟨rfl, hfits⟩
          simp only [List.length_append] at hfits
          omega
      · rename_i hroom
        have hnext : (bytes ++ piece).length ≤ maxFrameBytes := by
          rw [List.length_append]
          omega
        show pieces.foldlM limitedWrite (bytes ++ piece) = .ok body ↔ _
        rw [ih hnext, List.append_assoc]

/-- A frame is made exactly for a text that is not empty and within the limit. -/
theorem encodeFrame_ok_iff {pieces : List Bytes} {framed : Bytes} :
    encodeFrame pieces = .ok framed ↔
      framed = frame pieces.flatten ∧ pieces.flatten ≠ [] ∧
        pieces.flatten.length ≤ maxFrameBytes := by
  have hfold : ∀ body, pieces.foldlM limitedWrite [] = .ok body ↔
      body = [] ++ pieces.flatten ∧ body.length ≤ maxFrameBytes :=
    fun body => foldlM_limitedWrite (Nat.zero_le _)
  unfold encodeFrame
  cases hbody : pieces.foldlM limitedWrite [] with
  | error length =>
      constructor
      · intro h
        cases h
      · rintro ⟨_, _, hfits⟩
        rw [(hfold pieces.flatten).mpr ⟨rfl, hfits⟩] at hbody
        cases hbody
  | ok body =>
      obtain ⟨hflat, hfits⟩ := (hfold body).mp hbody
      rw [List.nil_append] at hflat
      subst hflat
      show (if _ then _ else _) = _ ↔ _
      by_cases hempty : pieces.flatten = []
      · rw [if_pos (List.isEmpty_iff.mpr hempty)]
        constructor
        · intro h
          cases h
        · rintro ⟨_, hne, _⟩
          exact absurd hempty hne
      · rw [if_neg (fun h => hempty (List.isEmpty_iff.mp h))]
        constructor
        · intro h
          cases h
          exact ⟨rfl, hempty, hfits⟩
        · rintro ⟨rfl, _, _⟩
          rfl

/-- The queries, their answers and `serde_json`: what the serializer writes piece by
piece, and what the parser makes of a body. -/
structure Wire (Query Response : Type) where
  queryCapability : Query → Capability
  responseCapability : Response → Capability
  encodeRequest : RequestEnvelope Query → List Bytes
  encodeResponse : ResponseEnvelope Response → List Bytes
  decodeResponse : Bytes → Option (ResponseEnvelope Response)

/-! ## §4  Texts -/

/-- `#[serde(tag = "type", rename_all = "snake_case")]` on the queries and their responses. -/
def Capability.tag : Capability → String
  | .getHealthSummary => "get_health_summary"
  | .getRecentChanges => "get_recent_changes"
  | .getResource => "get_resource"
  | .getSyncStatus => "get_sync_status"
  | .getTopology => "get_topology"
  | .listConnectorCoverage => "list_connector_coverage"
  | .searchResources => "search_resources"

def Caller.json : Caller → JsonText
  | .bridge bridgeVersion releaseId diagnostic =>
      .record ([("type", .text "bridge"), ("bridge_version", .text bridgeVersion),
        ("release_id", .text releaseId)] ++
          diagnostic.toList.map fun text => ("diagnostic", .text text))
  | .test name diagnostic =>
      .record ([("type", .text "test"), ("name", .text name)] ++
        diagnostic.toList.map fun text => ("diagnostic", .text text))

def RequestEnvelope.json {Query : Type} (query : Query → JsonText)
    (request : RequestEnvelope Query) : JsonText :=
  .record [("request_id", .text request.requestId), ("caller", request.caller.json),
    ("query", query request.query)]

def RpcError.json (error : RpcError) : JsonText :=
  .record [("code", .text error.code.asStr), ("message", .text error.message),
    ("retryable", .bool error.retryable)]

def ResponseBody.json {Response : Type} (response : Response → JsonText) :
    ResponseBody Response → JsonText
  | .query answer => .record [("type", .text "query"), ("data", response answer)]
  | .error failure => .record [("type", .text "error"), ("data", failure.json)]

def ResponseEnvelope.json {Response : Type} (response : Response → JsonText)
    (envelope : ResponseEnvelope Response) : JsonText :=
  .record [("request_id", .text envelope.requestId),
    ("body", envelope.body.json response)]

theorem ResponseEnvelope.length_json {Response : Type} (response : Response → JsonText)
    (id : String) (body : ResponseBody Response) :
    (json response { requestId := id, body := body }).bytes.length =
      (JsonText.text id).bytes.length + (body.json response).bytes.length + 23 := by
  have hhead : (JsonText.utf8 ('\x7b' :: (JsonText.quoted "request_id".toList ++ [':']))).length =
      14 := by
    decide +kernel
  have hmiddle : (JsonText.utf8 (',' :: (JsonText.quoted "body".toList ++ [':']))).length = 8 := by
    decide +kernel
  have htail : (JsonText.utf8 ['\x7d']).length = 1 := by decide +kernel
  have htext : (json response { requestId := id, body := body }).write =
      ('\x7b' :: (JsonText.quoted "request_id".toList ++ [':'])) ++
        ((JsonText.text id).write ++
          ((',' :: (JsonText.quoted "body".toList ++ [':'])) ++
            ((body.json response).write ++ ['\x7d']))) := by
    simp [json, JsonText.record, JsonText.write, JsonText.writeMembers]
  rw [JsonText.bytes, htext, JsonText.utf8_append, JsonText.utf8_append, JsonText.utf8_append,
    JsonText.utf8_append, List.length_append, List.length_append, List.length_append,
    List.length_append, hhead, hmiddle, htail]
  unfold JsonText.bytes
  omega

end Rpc

end NextInfra
