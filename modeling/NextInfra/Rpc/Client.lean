import NextInfra.Rpc.Message
import NextInfra.Lib.Traces

/-!
# Queries on one session

`LocalRpcMcpClient::query` numbers its requests, sends each over the one stream, and
reads the next frame until its deadline. The host answers in any order and at any time.
The stream is all that the host has written with two positions in it: how far it has
arrived, and how far the client has read.

A query that times out leaves its late response, or the rest of the one it cut, ahead
of what later queries are sent. §4: a query gets its own response when nothing is left
ahead of it, and fails when something is.
-/

namespace NextInfra

namespace Rpc

open Frames

/-! ## §1  One query -/

section

variable {Query Response : Type} (wire : Wire Query Response)

/-- `RpcClient::query_with_timeout` after the write, for the bytes that arrive before the
deadline; the second part is what it leaves of them. -/
def queryWithTimeout (request : RequestEnvelope Query) (available : Bytes) :
    Except SessionError (ResponseEnvelope Response) × Bytes :=
  match Frames.read maxFrameBytes available with
  | .short => (.error (.frame .timedOut), [])
  | .rejected length rest =>
      (.error (.frame (if length = 0 then .zeroLength else .oversizedFrame length)), rest)
  | .body body rest =>
      match wire.decodeResponse body with
      | none => (.error (.frame .invalidJson), rest)
      | some response =>
          if response.requestId ≠ request.requestId then
            (.error (.protocol (.invalidFrame "response request_id does not match the request")),
              rest)
          else (.ok response, rest)

def contractError (message : String) : McpBridgeError :=
  { code := "bridge_contract_error", message := message, retryable := false }

def hostDidNotComplete : McpBridgeError where
  code := "host_unavailable"
  message := "The local Host did not complete the query. Reopen Next Infra and try again."
  retryable := true

/-- What `query` makes of a response. -/
def answerOf (expected : Capability) (response : ResponseEnvelope Response) :
    Except McpBridgeError Response :=
  match response.body with
  | .query response =>
      if wire.responseCapability response = expected then .ok response
      else .error (contractError
        "The local Host returned a response for a different query capability.")
  | .error error =>
      .error { code := error.code.asStr, message := error.message, retryable := error.retryable }

def queryResult (expected : Capability) :
    Except SessionError (ResponseEnvelope Response) → Except McpBridgeError Response
  | .error _ => .error hostDidNotComplete
  | .ok response => answerOf wire expected response

end

/-! ## §2  The session -/

/-- A request and the number of its query; the host does not see the number. -/
structure Issued (Query : Type) where
  serial : Nat
  request : RequestEnvelope Query

structure Sent (Response : Type) where
  serial : Nat
  response : ResponseEnvelope Response
deriving DecidableEq

structure Exchange (Query Response : Type) where
  caller : Caller
  /-- The queries so far; `next_request_id` is one more and wraps. -/
  issued : Nat
  waiting : Option (Issued Query)
  /-- Requests the host has not answered. -/
  outstanding : List (Issued Query)
  /-- Responses in the order the host wrote them. -/
  sent : List (Sent Response)
  arrived : Nat
  read : Nat

inductive ExchangeCall (Query Response : Type)
  | query (query : Query)
  /-- The host answers one of the outstanding requests. -/
  | answers (index : Nat) (body : ResponseBody Response)
  | arrives (count : Nat)
  /-- The query that waits reads its frame, or its deadline passes. -/
  | ends

structure Reply (Response : Type) where
  serial : Nat
  result : Except McpBridgeError Response
deriving DecidableEq

def requestId (serial : Nat) : String := "mcp-" ++ toString ((serial + 1) % 2 ^ 64)

namespace Exchange

section

variable {Query Response : Type} (wire : Wire Query Response)

def start (caller : Caller) : Exchange Query Response where
  caller := caller
  issued := 0
  waiting := none
  outstanding := []
  sent := []
  arrived := 0
  read := 0

def frames (sent : List (Sent Response)) : List Bytes :=
  sent.map fun sent => frame (wire.encodeResponse sent.response).flatten

def stream (s : Exchange Query Response) : Bytes := (frames wire s.sent).flatten

def unread (s : Exchange Query Response) : Bytes := ((s.stream wire).take s.arrived).drop s.read

/-- One call; one that cannot happen in the state does nothing. -/
def step (s : Exchange Query Response) :
    ExchangeCall Query Response → Exchange Query Response × Option (Reply Response)
  | .query query =>
      if s.waiting.isSome then (s, none)
      else
        match RequestEnvelope.create (requestId s.issued) s.caller query with
        | .error _ =>
            ({ s with issued := s.issued + 1 },
              some { serial := s.issued,
                     result := .error (contractError
                       "The local bridge could not construct a valid query request.") })
        | .ok request =>
            match encodeFrame (wire.encodeRequest request) with
            | .error _ =>
                ({ s with issued := s.issued + 1 },
                  some { serial := s.issued, result := .error hostDidNotComplete })
            | .ok _ =>
                ({ s with
                    issued := s.issued + 1
                    waiting := some { serial := s.issued, request := request }
                    outstanding := s.outstanding ++ [{ serial := s.issued, request := request }] },
                  none)
  | .answers index body =>
      match s.outstanding[index]? with
      | none => (s, none)
      | some issued =>
          match ResponseEnvelope.create issued.request.requestId body with
          | .error _ => (s, none)
          | .ok response =>
              match encodeFrame (wire.encodeResponse response) with
              | .error _ => (s, none)
              | .ok _ =>
                  ({ s with
                      outstanding := s.outstanding.eraseIdx index
                      sent := s.sent ++ [{ serial := issued.serial, response := response }] },
                    none)
  | .arrives count =>
      ({ s with arrived := min (s.arrived + count) (s.stream wire).length }, none)
  | .ends =>
      match s.waiting with
      | none => (s, none)
      | some issued =>
          let (result, rest) := queryWithTimeout wire issued.request (s.unread wire)
          ({ s with
              waiting := none
              read := s.read + ((s.unread wire).length - rest.length) },
            some { serial := issued.serial,
                   result :=
                    queryResult wire (wire.queryCapability issued.request.query) result })

end

/-! ## §3  Positions -/

section

variable {Query Response : Type} (wire : Wire Query Response)

/-- The response to a query, once the host has written it. -/
def own (s : Exchange Query Response) (serial : Nat) : Option (Sent Response) :=
  s.sent.find? fun sent => decide (sent.serial = serial)

/-- What the host has written before the response to a query. -/
def ahead (s : Exchange Query Response) (serial : Nat) : List (Sent Response) :=
  s.sent.takeWhile fun sent => !decide (sent.serial = serial)

/-- Where the response to a query starts in the stream, or will start at the earliest. -/
def ownStart (s : Exchange Query Response) (serial : Nat) : Nat :=
  (frames wire (s.ahead serial)).flatten.length

structure Ordered (s : Exchange Query Response) : Prop where
  read_le : s.read ≤ s.arrived
  arrived_le : s.arrived ≤ (s.stream wire).length
  named : ∀ sent ∈ s.sent,
    sent.response.requestId = requestId sent.serial ∧ sent.serial < s.issued
  asked : ∀ issued ∈ s.outstanding,
    issued.request.requestId = requestId issued.serial ∧ issued.serial < s.issued
  framed : ∀ sent ∈ s.sent, (wire.encodeResponse sent.response).flatten ≠ [] ∧
    (wire.encodeResponse sent.response).flatten.length ≤ maxFrameBytes
  waits : ∀ issued, s.waiting = some issued →
    issued.request.requestId = requestId issued.serial ∧ issued.serial < s.issued ∧
      s.read ≤ s.ownStart wire issued.serial

theorem frames_append (a b : List (Sent Response)) :
    frames wire (a ++ b) = frames wire a ++ frames wire b :=
  List.map_append

theorem ordered_start (caller : Caller) :
    (start caller : Exchange Query Response).Ordered wire where
  read_le := Nat.le_refl _
  arrived_le := Nat.zero_le _
  named := nofun
  asked := nofun
  framed := nofun
  waits := nofun

theorem length_unread {s : Exchange Query Response} (h : s.Ordered wire) :
    (s.unread wire).length = s.arrived - s.read := by
  have harrived := h.arrived_le
  rw [unread, List.length_drop, List.length_take]
  omega

theorem ahead_eq {s : Exchange Query Response} {serial : Nat} {sent : Sent Response}
    {before later : List (Sent Response)} (hsent : s.sent = before ++ sent :: later)
    (hbefore : ∀ other ∈ before, other.serial ≠ serial) (hserial : sent.serial = serial) :
    s.ahead serial = before := by
  unfold ahead
  rw [hsent, List.takeWhile_append_of_pos (fun other hother => by simpa using hbefore other hother),
    List.takeWhile_cons_of_neg (by simpa using hserial), List.append_nil]

/-- The responses ahead of a query's own, and the rest of what was written. -/
theorem ahead_own {s : Exchange Query Response} {serial : Nat} {sent : Sent Response}
    (h : s.own serial = some sent) :
    sent.serial = serial ∧ (∀ other ∈ s.ahead serial, other.serial ≠ serial) ∧
      ∃ later, s.sent = s.ahead serial ++ sent :: later := by
  obtain ⟨hserial, before, later, hsent, hbefore⟩ := List.find?_eq_some_iff_append.mp h
  have hserial : sent.serial = serial := by simpa using hserial
  have hbefore : ∀ other ∈ before, other.serial ≠ serial := fun other hother => by
    simpa using hbefore other hother
  have hahead := ahead_eq hsent hbefore hserial
  rw [hahead]
  exact ⟨hserial, hbefore, later, hsent⟩

theorem ahead_none {s : Exchange Query Response} {serial : Nat} (h : s.own serial = none) :
    s.ahead serial = s.sent := by
  refine List.takeWhile_eq_self_iff.mpr ?_
  intro sent hsent
  have hne := List.find?_eq_none.mp h sent hsent
  simpa using hne

theorem ownStart_of_fresh {s : Exchange Query Response} {serial : Nat}
    (h : ∀ sent ∈ s.sent, sent.serial < serial) :
    s.ownStart wire serial = (s.stream wire).length := by
  have hown : s.own serial = none := by
    refine List.find?_eq_none.mpr ?_
    intro sent hsent
    have := h sent hsent
    simp only [decide_eq_true_eq]
    omega
  rw [ownStart, ahead_none hown, stream]

/-- Another response in the stream moves the start of none to the front. -/
theorem ownStart_sent_le {s : Exchange Query Response} (serial : Nat) (sent : Sent Response) :
    s.ownStart wire serial ≤ ({ s with sent := s.sent ++ [sent] }).ownStart wire serial := by
  cases hown : s.own serial with
  | none =>
      have hall := List.find?_eq_none.mp hown
      rw [ownStart, ahead_none hown]
      unfold ownStart ahead
      rw [List.takeWhile_append_of_pos (fun other hother => by simpa using hall other hother),
        frames_append, List.flatten_append, List.length_append]
      exact Nat.le_add_right _ _
  | some first =>
      obtain ⟨hserial, hbefore, later, hsent⟩ := ahead_own hown
      have hahead : ({ s with sent := s.sent ++ [sent] }).ahead serial = s.ahead serial :=
        ahead_eq (calc
          s.sent ++ [sent] = (s.ahead serial ++ first :: later) ++ [sent] :=
            congrArg (fun sent' => sent' ++ [sent]) hsent
          _ = s.ahead serial ++ first :: (later ++ [sent]) := by simp) hbefore hserial
      rw [ownStart, ownStart, hahead]

variable {wire}

theorem Ordered.next {s : Exchange Query Response} (h : s.Ordered wire) :
    ({ s with issued := s.issued + 1 } : Exchange Query Response).Ordered wire where
  read_le := h.read_le
  arrived_le := h.arrived_le
  named := fun sent hsent => ⟨(h.named sent hsent).1, Nat.lt_succ_of_lt (h.named sent hsent).2⟩
  asked := fun issued hissued =>
    ⟨(h.asked issued hissued).1, Nat.lt_succ_of_lt (h.asked issued hissued).2⟩
  framed := h.framed
  waits := fun issued hissued =>
    ⟨(h.waits issued hissued).1, Nat.lt_succ_of_lt (h.waits issued hissued).2.1,
      (h.waits issued hissued).2.2⟩

/-- A query starts with everything written so far ahead of its response. -/
theorem Ordered.sends {s : Exchange Query Response} (h : s.Ordered wire)
    {request : RequestEnvelope Query} (hrequest : request.requestId = requestId s.issued) :
    ({ s with
        issued := s.issued + 1
        waiting := some { serial := s.issued, request := request }
        outstanding := s.outstanding ++ [{ serial := s.issued, request := request }] } :
          Exchange Query Response).Ordered wire where
  read_le := h.read_le
  arrived_le := h.arrived_le
  named := h.next.named
  asked := fun issued hissued => by
    obtain hold | hnew := List.mem_append.mp hissued
    · exact h.next.asked issued hold
    · rw [List.mem_singleton.mp hnew]
      exact ⟨hrequest, Nat.lt_succ_self _⟩
  framed := h.framed
  waits := fun issued hissued => by
    cases hissued
    refine ⟨hrequest, Nat.lt_succ_self _, ?_⟩
    have hstart := ownStart_of_fresh wire (s := s) fun sent hsent => (h.named sent hsent).2
    show s.read ≤ s.ownStart wire s.issued
    rw [hstart]
    exact Nat.le_trans h.read_le h.arrived_le

theorem Ordered.answered {s : Exchange Query Response} (h : s.Ordered wire) {index : Nat}
    {issued : Issued Query} (hissued : s.outstanding[index]? = some issued)
    {response : ResponseEnvelope Response}
    (hid : response.requestId = issued.request.requestId)
    (hframed : (wire.encodeResponse response).flatten ≠ [] ∧
      (wire.encodeResponse response).flatten.length ≤ maxFrameBytes) :
    ({ s with
        outstanding := s.outstanding.eraseIdx index
        sent := s.sent ++ [{ serial := issued.serial, response := response }] } :
          Exchange Query Response).Ordered wire where
  read_le := h.read_le
  arrived_le := by
    refine Nat.le_trans h.arrived_le ?_
    unfold stream
    rw [frames_append, List.flatten_append, List.length_append]
    exact Nat.le_add_right _ _
  named := fun sent hsent => by
    obtain hold | hnew := List.mem_append.mp hsent
    · exact h.named sent hold
    · rw [List.mem_singleton.mp hnew]
      have hasked := h.asked issued (List.mem_of_getElem? hissued)
      exact ⟨hid.trans hasked.1, hasked.2⟩
  asked := fun issued hissued => h.asked issued (List.mem_of_mem_eraseIdx hissued)
  framed := fun sent hsent => by
    obtain hold | hnew := List.mem_append.mp hsent
    · exact h.framed sent hold
    · rw [List.mem_singleton.mp hnew]
      exact hframed
  waits := fun issued hissued => by
    obtain ⟨hrequest, hserial, hread⟩ := h.waits issued hissued
    exact ⟨hrequest, hserial, Nat.le_trans hread (ownStart_sent_le wire _ _)⟩

theorem Ordered.reads {s : Exchange Query Response} (h : s.Ordered wire) (rest : Bytes) :
    ({ s with
        waiting := none
        read := s.read + ((s.unread wire).length - rest.length) } :
          Exchange Query Response).Ordered wire where
  read_le := by
    have hread := h.read_le
    rw [length_unread wire h]
    show s.read + (s.arrived - s.read - rest.length) ≤ s.arrived
    omega
  arrived_le := h.arrived_le
  named := h.named
  asked := h.asked
  framed := h.framed
  waits := nofun

theorem Ordered.arrives {s : Exchange Query Response} (h : s.Ordered wire) (count : Nat) :
    ({ s with arrived := min (s.arrived + count) (s.stream wire).length } :
      Exchange Query Response).Ordered wire where
  read_le := by
    have hread := h.read_le
    have harrived := h.arrived_le
    show s.read ≤ min (s.arrived + count) (s.stream wire).length
    omega
  arrived_le := Nat.min_le_right _ _
  named := h.named
  asked := h.asked
  framed := h.framed
  waits := h.waits

theorem ordered_step (s : Exchange Query Response) (call : ExchangeCall Query Response)
    (h : s.Ordered wire) : (s.step wire call).1.Ordered wire := by
  cases call with
  | query query =>
      simp only [step]
      split
      · exact h
      split
      · exact h.next
      rename_i request hrequest
      split
      · exact h.next
      · refine h.sends ?_
        rw [RequestEnvelope.create_ok hrequest]
  | answers index body =>
      simp only [step]
      split
      · exact h
      rename_i issued hissued
      split
      · exact h
      rename_i response hresponse
      split
      · exact h
      rename_i framed hframed
      refine h.answered hissued ?_ (encodeFrame_ok_iff.mp hframed).2
      rw [ResponseEnvelope.create_ok hresponse]
  | arrives count => exact h.arrives count
  | ends =>
      simp only [step]
      split
      · exact h
      · exact h.reads _

end

/-! ## §4  What a query reads -/

/-- A query's number can be told from its id for as long as the counter does not wrap. -/
theorem requestId_inj {a b : Nat} (ha : a < 2 ^ 64) (hb : b < 2 ^ 64)
    (h : requestId a = requestId b) : a = b := by
  have hrepr : Nat.repr ((a + 1) % 2 ^ 64) = Nat.repr ((b + 1) % 2 ^ 64) :=
    (String.append_right_inj "mcp-").mp h
  have hdigits : Nat.toDigits 10 ((a + 1) % 2 ^ 64) = Nat.toDigits 10 ((b + 1) % 2 ^ 64) := by
    rw [← Nat.toList_repr, ← Nat.toList_repr, hrepr]
  have hmod : (a + 1) % 2 ^ 64 = (b + 1) % 2 ^ 64 := by
    rw [← Nat.ofDigitChars_ten_toDigits (n := (a + 1) % 2 ^ 64), hdigits,
      Nat.ofDigitChars_ten_toDigits]
  omega

section

variable {Query Response : Type} {wire : Wire Query Response}

/-- Nothing of what arrived ahead of a query's response is unread. -/
def Clear (wire : Wire Query Response) (s : Exchange Query Response) (serial : Nat) : Prop :=
  min s.arrived (s.ownStart wire serial) ≤ s.read

/-- The response to a query has arrived to its last byte. -/
def Arrived (wire : Wire Query Response) (s : Exchange Query Response) (serial : Nat)
    (sent : Sent Response) : Prop :=
  s.own serial = some sent ∧
    s.ownStart wire serial + (frame (wire.encodeResponse sent.response).flatten).length ≤
      s.arrived

/-- The bytes a query can read are the next of the stream. -/
theorem unread_prefix (wire : Wire Query Response) (s : Exchange Query Response) :
    s.unread wire <+: (s.stream wire).drop s.read := by
  rw [unread, List.drop_take]
  exact List.take_prefix _ _

theorem stream_of_own (wire : Wire Query Response) {s : Exchange Query Response} {serial : Nat}
    {sent : Sent Response} (h : s.own serial = some sent) :
    ∃ later, (s.stream wire).drop (s.ownStart wire serial) =
      frame (wire.encodeResponse sent.response).flatten ++ later := by
  obtain ⟨_, _, later, hsent⟩ := ahead_own h
  refine ⟨(frames wire later).flatten, ?_⟩
  have hstream : s.stream wire = (frames wire (s.ahead serial)).flatten ++
      (frame (wire.encodeResponse sent.response).flatten ++ (frames wire later).flatten) := by
    unfold stream
    calc (frames wire s.sent).flatten
        = (frames wire (s.ahead serial ++ sent :: later)).flatten :=
          congrArg (fun sent => (frames wire sent).flatten) hsent
      _ = _ := by
          rw [frames_append, List.flatten_append]
          rfl
  rw [hstream, ownStart, List.drop_left]

/-- With nothing left ahead, a query reads its own response or nothing. -/
theorem read_clear {s : Exchange Query Response} (h : s.Ordered wire) {issued : Issued Query}
    (hwaiting : s.waiting = some issued) (hclear : s.Clear wire issued.serial)
    (hdecodes : ∀ sent ∈ s.sent,
      wire.decodeResponse (wire.encodeResponse sent.response).flatten = some sent.response) :
    (∃ sent, s.own issued.serial = some sent ∧
        (queryWithTimeout wire issued.request (s.unread wire)).1 = .ok sent.response) ∨
      ((queryWithTimeout wire issued.request (s.unread wire)).1 = .error (.frame .timedOut) ∧
        ∀ sent, ¬ s.Arrived wire issued.serial sent) := by
  obtain ⟨hrequest, -, hread⟩ := h.waits issued hwaiting
  have hlength := length_unread wire h
  have harrivedLe := h.arrived_le
  have htimedOut : Frames.read maxFrameBytes (s.unread wire) = .short →
      (queryWithTimeout wire issued.request (s.unread wire)).1 = .error (.frame .timedOut) := by
    intro hshort
    unfold queryWithTimeout
    rw [hshort]
  unfold Clear at hclear
  cases hown : s.own issued.serial with
  | none =>
      right
      have hstart : s.ownStart wire issued.serial = (s.stream wire).length := by
        rw [ownStart, ahead_none hown, stream]
      have hnothing : s.unread wire = [] := List.length_eq_zero_iff.mp (by omega)
      refine ⟨htimedOut (by rw [hnothing]; rfl), ?_⟩
      rintro sent ⟨hsent, -⟩
      rw [hown] at hsent
      cases hsent
  | some own =>
      obtain ⟨hserial, -, later, hsent⟩ := ahead_own hown
      have hmem : own ∈ s.sent := by
        rw [hsent]
        exact List.mem_append_right _ (List.mem_cons_self ..)
      obtain ⟨hne, hfits⟩ := h.framed own hmem
      obtain ⟨after, hstream⟩ := stream_of_own wire hown
      by_cases hwhole : s.ownStart wire issued.serial +
          (frame (wire.encodeResponse own.response).flatten).length ≤ s.arrived
      · left
        have hstart : s.read = s.ownStart wire issued.serial := by omega
        have hunread := unread_prefix wire s
        rw [hstart, hstream] at hunread
        obtain ⟨rest, hrest⟩ : frame (wire.encodeResponse own.response).flatten <+:
            s.unread wire :=
          List.prefix_of_prefix_length_le (List.prefix_append _ _) hunread (by omega)
        refine ⟨own, rfl, ?_⟩
        unfold queryWithTimeout
        rw [(read_body_iff maxFrameBytes_lt).mpr ⟨hrest.symm, hne, hfits⟩]
        simp only [hdecodes own hmem]
        have hid : own.response.requestId = issued.request.requestId := by
          rw [(h.named own hmem).1, hserial, hrequest]
        rw [if_neg (not_not.mpr hid)]
      · right
        refine ⟨htimedOut ?_, ?_⟩
        · by_cases hnothing : s.arrived ≤ s.read
          · rw [List.length_eq_zero_iff.mp (by omega : (s.unread wire).length = 0)]
            rfl
          · have hstart : s.read = s.ownStart wire issued.serial := by omega
            have hunread := unread_prefix wire s
            rw [hstart, hstream] at hunread
            refine read_of_prefix maxFrameBytes_lt hne hfits ?_ (by omega)
            exact List.prefix_of_prefix_length_le hunread (List.prefix_append _ _) (by omega)
        · rintro sent ⟨hother, hwhole'⟩
          rw [hown] at hother
          cases hother
          exact hwhole hwhole'

/-- The text of a response as `serde_json` writes it, and its parser reads it. -/
structure Reads (wire : Wire Query Response) (response : ResponseEnvelope Response) : Prop where
  decodes : wire.decodeResponse (wire.encodeResponse response).flatten = some response
  /-- An object whose first key is `request_id`. -/
  opens : ∃ rest, (wire.encodeResponse response).flatten = 0x7b :: 0x22 :: 0x72 :: rest
  /-- Control characters are escaped. -/
  printable : ∀ byte ∈ (wire.encodeResponse response).flatten, 0x20 ≤ byte.toNat

/-- An envelope is not read from a text that starts like a string or a word. -/
structure Strict (wire : Wire Query Response) : Prop where
  quote : ∀ rest, wire.decodeResponse (0x22 :: rest) = none
  word : ∀ rest, wire.decodeResponse (0x72 :: rest) = none

/-- The first two bytes of a header say little. -/
theorem header_small {length : Nat} (h : length ≤ maxFrameBytes) :
    ∃ c d, header length = [0, UInt8.ofNat (length / 2 ^ 16), c, d] ∧
      (UInt8.ofNat (length / 2 ^ 16)).toNat ≤ 0x10 := by
  refine ⟨UInt8.ofNat (length / 2 ^ 8), UInt8.ofNat length, ?_, ?_⟩
  · have hzero : length / 2 ^ 24 = 0 := by
      unfold maxFrameBytes at h
      omega
    rw [header, hzero]
    rfl
  · unfold maxFrameBytes at h
    rw [UInt8.toNat_ofNat']
    omega

/-- A frame read from inside another one is no envelope. -/
theorem misread {response : ResponseEnvelope Response} (hreads : Reads wire response)
    (hstrict : Strict wire) {j : Nat} {body rest tail : Bytes} (hpos : 0 < j)
    (hj : j < (frame (wire.encodeResponse response).flatten).length) (hbody : body ≠ [])
    (hfits : body.length ≤ maxFrameBytes)
    (h : frame body ++ rest = (frame (wire.encodeResponse response).flatten).drop j ++ tail) :
    wire.decodeResponse body = none := by
  obtain ⟨text, htext⟩ := hreads.opens
  obtain ⟨c, d, hheader, hsmall⟩ := header_small hfits
  obtain ⟨first, more, rfl⟩ := List.exists_cons_of_ne_nil hbody
  rw [frame, hheader] at h
  obtain rfl | rfl | rfl | ⟨k, rfl⟩ : j = 1 ∨ j = 2 ∨ j = 3 ∨ ∃ k, j = k + 4 := by
    by_cases hheaded : j < 4
    · omega
    · exact Or.inr (Or.inr (Or.inr ⟨j - 4, by omega⟩))
  · rw [htext] at h
    simp only [frame, header, List.cons_append, List.nil_append, List.drop_succ_cons,
      List.drop_zero, List.cons.injEq] at h
    rw [h.2.2.2.2.1]
    exact hstrict.quote more
  · rw [htext] at h
    simp only [frame, header, List.cons_append, List.nil_append, List.drop_succ_cons,
      List.drop_zero, List.cons.injEq] at h
    rw [h.2.2.2.2.1]
    exact hstrict.word more
  · rw [htext] at h
    simp only [frame, header, List.cons_append, List.nil_append, List.drop_succ_cons,
      List.drop_zero, List.cons.injEq] at h
    rw [h.2.1] at hsmall
    exact absurd hsmall (by decide)
  · -- from the text on, a frame would begin with a printable byte
    rw [length_frame] at hj
    have hdrop : (frame (wire.encodeResponse response).flatten).drop (k + 4) =
        (wire.encodeResponse response).flatten.drop k := by
      simp [frame, header]
    rw [hdrop, List.drop_eq_getElem_cons (by omega)] at h
    simp only [List.cons_append, List.cons.injEq] at h
    have hprintable := hreads.printable _ (List.getElem_mem (by omega :
      k < (wire.encodeResponse response).flatten.length))
    rw [← h.1] at hprintable
    exact absurd hprintable (by decide)

/-- With anything left ahead, a query fails. -/
theorem read_blocked {s : Exchange Query Response} (h : s.Ordered wire) {issued : Issued Query}
    (hwaiting : s.waiting = some issued) (hblocked : ¬ s.Clear wire issued.serial)
    (hbound : s.issued ≤ 2 ^ 64) (hstrict : Strict wire)
    (hreads : ∀ sent ∈ s.sent, Reads wire sent.response) :
    ∃ e, (queryWithTimeout wire issued.request (s.unread wire)).1 = .error e := by
  unfold queryWithTimeout
  cases hread : Frames.read maxFrameBytes (s.unread wire) with
  | short => exact ⟨_, rfl⟩
  | rejected length rest => exact ⟨_, rfl⟩
  | body body rest =>
      obtain ⟨hunread, hbody, hfits⟩ := (read_body_iff maxFrameBytes_lt).mp hread
      obtain ⟨hrequest, hserial, -⟩ := h.waits issued hwaiting
      unfold Clear at hblocked
      have hinside : s.read < (frames wire (s.ahead issued.serial)).flatten.length := by
        show s.read < s.ownStart wire issued.serial
        omega
      obtain ⟨before, piece, after, j, hahead, hj, hpos, hdrop⟩ := cut_flatten hinside
      have hpiece : piece ∈ frames wire (s.ahead issued.serial) := by
        rw [hahead]
        exact List.mem_append_right _ (List.mem_cons_self ..)
      obtain ⟨stale, hstale, rfl⟩ := List.mem_map.mp hpiece
      have hsent : stale ∈ s.sent := List.takeWhile_subset _ hstale
      have hother : stale.serial ≠ issued.serial := by
        simpa using List.mem_takeWhile_imp hstale
      obtain ⟨tail, htail⟩ : ∃ tail, (s.stream wire).drop s.read =
          (frame (wire.encodeResponse stale.response).flatten).drop j ++ tail := by
        obtain ⟨later, hlater⟩ : s.ahead issued.serial <+: s.sent := List.takeWhile_prefix _
        refine ⟨after.flatten ++ (frames wire later).flatten, ?_⟩
        have hstream : s.stream wire =
            (frames wire (s.ahead issued.serial)).flatten ++ (frames wire later).flatten := by
          rw [← List.flatten_append, ← frames_append, hlater, stream]
        rw [hstream, List.drop_append_of_le_length, hdrop, List.append_assoc]
        show s.read ≤ s.ownStart wire issued.serial
        omega
      obtain ⟨missing, hmissing⟩ := unread_prefix wire s
      rw [htail, hunread, List.append_assoc] at hmissing
      by_cases hzero : j = 0
      · subst hzero
        obtain ⟨hstaleNe, hstaleFits⟩ := h.framed stale hsent
        obtain ⟨rfl, -⟩ :=
          frame_append_inj maxFrameBytes_lt hbody hfits hstaleNe hstaleFits hmissing
        simp only [(hreads stale hsent).decodes]
        have hid : stale.response.requestId ≠ issued.request.requestId := by
          obtain ⟨hname, hlt⟩ := h.named stale hsent
          rw [hname, hrequest]
          intro hsame
          exact hother (requestId_inj (by omega) (by omega) hsame)
        rw [if_pos hid]
        exact ⟨_, rfl⟩
      · have hnone := misread (hreads stale hsent) hstrict (Nat.pos_of_ne_zero hzero) hj hbody hfits
          hmissing
        simp only [hnone]
        exact ⟨_, rfl⟩

end

/-! ## §5  Runs -/

section

variable {Query Response : Type} (wire : Wire Query Response)

abbrev Exchanged (Query Response : Type) : Type :=
  Trace.Entry (Exchange Query Response) (ExchangeCall Query Response) (Option (Reply Response))

/-- A query returns the response to that query or an error. -/
def OwnOrError (entry : Exchanged Query Response) : Prop :=
  ∀ reply, entry.reply = some reply →
    (∃ e, reply.result = .error e) ∨
      ∃ issued sent, entry.before.waiting = some issued ∧ reply.serial = issued.serial ∧
        entry.before.own issued.serial = some sent ∧
        reply.result = answerOf wire (wire.queryCapability issued.request.query) sent.response

/-- A query whose response has arrived when it ends returns that response. -/
def Timely (entry : Exchanged Query Response) : Prop :=
  ∀ issued sent, entry.call = .ends → entry.before.waiting = some issued →
    entry.before.Arrived wire issued.serial sent →
      entry.reply = some
        { serial := issued.serial,
          result :=
            answerOf wire (wire.queryCapability issued.request.query) sent.response }

/-- When a query's response has arrived, nothing that arrived ahead of it is unread; and
where ids repeat, nothing is when any query ends. -/
def Unblocked (entry : Exchanged Query Response) : Prop :=
  ∀ issued, entry.call = .ends → entry.before.waiting = some issued →
    entry.before.Clear wire issued.serial ∨
      (entry.before.issued ≤ 2 ^ 64 ∧ ∀ sent, ¬ entry.before.Arrived wire issued.serial sent)

variable {wire}

theorem step_ends {s : Exchange Query Response} {issued : Issued Query}
    (h : s.waiting = some issued) :
    (s.step wire .ends).2 = some
      { serial := issued.serial,
        result := queryResult wire (wire.queryCapability issued.request.query)
          (queryWithTimeout wire issued.request (s.unread wire)).1 } := by
  simp only [step, h]

/-- Only the end of a query that waits can return more than an error. -/
theorem step_reply {s : Exchange Query Response} {call : ExchangeCall Query Response}
    {reply : Reply Response} (h : (s.step wire call).2 = some reply) :
    (∃ e, reply.result = .error e) ∨ ∃ issued, call = .ends ∧ s.waiting = some issued := by
  cases call with
  | query query =>
      left
      simp only [step] at h
      split at h
      · cases h
      split at h
      · cases h
        exact ⟨_, rfl⟩
      split at h
      · cases h
        exact ⟨_, rfl⟩
      · cases h
  | answers index body =>
      simp only [step] at h
      split at h
      · cases h
      split at h
      · cases h
      split at h
      · cases h
      · cases h
  | arrives count => cases h
  | ends =>
      right
      cases hwaiting : s.waiting with
      | none =>
          simp only [step, hwaiting] at h
          cases h
      | some issued => exact ⟨issued, rfl, rfl⟩

theorem blocked_fails {s : Exchange Query Response} (h : s.Ordered wire) {issued : Issued Query}
    (hwaiting : s.waiting = some issued) (hblocked : ¬ s.Clear wire issued.serial)
    (hbound : s.issued ≤ 2 ^ 64) (hstrict : Strict wire)
    (hreads : ∀ sent ∈ s.sent, Reads wire sent.response) :
    (s.step wire .ends).2 =
      some { serial := issued.serial, result := .error hostDidNotComplete } := by
  obtain ⟨e, he⟩ := read_blocked h hwaiting hblocked hbound hstrict hreads
  rw [step_ends hwaiting, he]
  rfl

/-- With nothing left ahead, a query that ends returns its own response or times out. -/
theorem clear_serves {s : Exchange Query Response} (h : s.Ordered wire) {issued : Issued Query}
    (hwaiting : s.waiting = some issued) (hclear : s.Clear wire issued.serial)
    (hreads : ∀ sent ∈ s.sent, Reads wire sent.response) :
    (∃ sent, s.own issued.serial = some sent ∧
      (s.step wire .ends).2 = some
        { serial := issued.serial,
          result := answerOf wire (wire.queryCapability issued.request.query) sent.response }) ∨
    ((s.step wire .ends).2 =
        some { serial := issued.serial, result := .error hostDidNotComplete } ∧
      ∀ sent, ¬ s.Arrived wire issued.serial sent) := by
  obtain ⟨sent, hown, hok⟩ | ⟨htimedOut, hnot⟩ :=
    read_clear h hwaiting hclear fun sent hsent => (hreads sent hsent).decodes
  · left
    refine ⟨sent, hown, ?_⟩
    rw [step_ends hwaiting, hok]
    rfl
  · right
    refine ⟨?_, hnot⟩
    rw [step_ends hwaiting, htimedOut]
    rfl

theorem unblocked_ownOrError {s : Exchange Query Response} (h : s.Ordered wire)
    (call : ExchangeCall Query Response) (hstrict : Strict wire)
    (hreads : ∀ sent ∈ s.sent, Reads wire sent.response)
    (hunblocked : Unblocked wire (Trace.entryOf (step wire) s call)) :
    OwnOrError wire (Trace.entryOf (step wire) s call) := by
  intro reply hreply
  obtain herror | ⟨issued, rfl, hwaiting⟩ := step_reply hreply
  · exact .inl herror
  by_cases hclear : s.Clear wire issued.serial
  · obtain ⟨sent, hown, hanswer⟩ | ⟨herror, -⟩ := clear_serves h hwaiting hclear hreads
    · have hends := Option.some.inj (hreply.symm.trans hanswer)
      exact .inr ⟨issued, sent, hwaiting, by rw [hends], hown, by rw [hends]⟩
    · have hends := Option.some.inj (hreply.symm.trans herror)
      exact .inl ⟨hostDidNotComplete, by rw [hends]⟩
  · obtain hclear' | ⟨hbound, -⟩ := hunblocked issued rfl hwaiting
    · exact absurd hclear' hclear
    · have hends := Option.some.inj
        (hreply.symm.trans (blocked_fails h hwaiting hclear hbound hstrict hreads))
      exact .inl ⟨hostDidNotComplete, by rw [hends]⟩

theorem unblocked_timely {s : Exchange Query Response} (h : s.Ordered wire)
    (call : ExchangeCall Query Response) (hreads : ∀ sent ∈ s.sent, Reads wire sent.response)
    (hunblocked : Unblocked wire (Trace.entryOf (step wire) s call)) :
    Timely wire (Trace.entryOf (step wire) s call) := by
  intro issued sent hcall hwaiting harrived
  obtain hclear | ⟨-, hnot⟩ := hunblocked issued hcall hwaiting
  · obtain ⟨own, hown, hanswer⟩ | ⟨-, hnot⟩ := clear_serves h hwaiting hclear hreads
    · have hsame : own = sent := Option.some.inj (hown.symm.trans harrived.1)
      have hcall : call = .ends := hcall
      rw [hcall, ← hsame]
      exact hanswer
    · exact absurd harrived (hnot sent)
  · exact absurd harrived (hnot sent)

theorem sent_extends (s : Exchange Query Response) (call : ExchangeCall Query Response) :
    s.sent <+: (s.step wire call).1.sent := by
  cases call with
  | query query =>
      simp only [step]
      split
      · exact List.prefix_rfl
      split
      · exact List.prefix_rfl
      split
      · exact List.prefix_rfl
      · exact List.prefix_rfl
  | answers index body =>
      simp only [step]
      split
      · exact List.prefix_rfl
      split
      · exact List.prefix_rfl
      split
      · exact List.prefix_rfl
      · exact List.prefix_append _ _
  | arrives count => exact List.prefix_rfl
  | ends =>
      simp only [step]
      split
      · exact List.prefix_rfl
      · exact List.prefix_rfl

theorem sent_extends_final (s : Exchange Query Response)
    (calls : List (ExchangeCall Query Response)) :
    s.sent <+: (Trace.final (step wire) s calls).sent := by
  induction calls generalizing s with
  | nil => exact List.prefix_rfl
  | cons call calls ih => exact (sent_extends s call).trans (ih _)

/-- Every state a log records is ordered, and what was sent by then is sent in the end. -/
theorem logged {caller : Caller} {calls : List (ExchangeCall Query Response)}
    {entry : Exchanged Query Response} (h : entry ∈ Trace.log (step wire) (start caller) calls) :
    ∃ s call, entry = Trace.entryOf (step wire) s call ∧ s.Ordered wire ∧
      ∀ sent ∈ s.sent, sent ∈ (Trace.final (step wire) (start caller) calls).sent := by
  obtain ⟨earlier, call, later, rfl, rfl⟩ := Trace.mem_log (step wire) h
  refine ⟨_, call, rfl, ?_, ?_⟩
  · exact Trace.invariant (step wire) (P := Ordered wire) ordered_step earlier
      (ordered_start wire caller)
  · intro sent hsent
    rw [Trace.final_append]
    exact (sent_extends_final _ _).subset hsent

/-- In every run whose queries are unblocked, each returns its own response or an error, and
its own response when that has arrived. A query with something left ahead of its response
fails, whether its response has arrived or not. -/
theorem never_poisoned_when_unblocked (wire : Wire Query Response) (hstrict : Strict wire)
    (caller : Caller) (calls : List (ExchangeCall Query Response))
    (hreads : ∀ sent ∈ (Trace.final (step wire) (start caller) calls).sent,
      Reads wire sent.response) :
    ((∀ entry ∈ Trace.log (step wire) (start caller) calls, Unblocked wire entry) →
      ∀ entry ∈ Trace.log (step wire) (start caller) calls,
        OwnOrError wire entry ∧ Timely wire entry) ∧
    ∀ entry ∈ Trace.log (step wire) (start caller) calls, ∀ issued, entry.call = .ends →
      entry.before.waiting = some issued → entry.before.issued ≤ 2 ^ 64 →
        ¬ entry.before.Clear wire issued.serial →
          entry.reply =
            some { serial := issued.serial, result := .error hostDidNotComplete } := by
  constructor
  · intro hunblocked entry hentry
    have hthis := hunblocked entry hentry
    obtain ⟨s, call, rfl, hordered, hsent⟩ := logged hentry
    have hreads' : ∀ sent ∈ s.sent, Reads wire sent.response :=
      fun sent hmem => hreads sent (hsent sent hmem)
    exact ⟨unblocked_ownOrError hordered call hstrict hreads' hthis,
      unblocked_timely hordered call hreads' hthis⟩
  · intro entry hentry issued hcall hwaiting hbound hblocked
    obtain ⟨s, call, rfl, hordered, hsent⟩ := logged hentry
    have hcall : call = .ends := hcall
    subst hcall
    exact blocked_fails hordered hwaiting hblocked hbound hstrict fun sent hmem =>
      hreads sent (hsent sent hmem)

end

namespace Fixture

/-- The counts of an empty store. -/
def counts (names : List String) : JsonText :=
  .record (names.map fun name => (name, .nat 0))

/-- The answer to `get_health_summary`. -/
def healthSummary : JsonText :=
  .record [("type", .text Capability.getHealthSummary.tag), ("data", .record [
    ("metadata", .record [("schema_version", .nat 1), ("snapshot_version", .text "1"),
      ("generated_at", .text "2026-08-04T00:00:00Z")]),
    ("resource_health", counts ["healthy", "degraded", "unhealthy", "unknown"]),
    ("freshness", counts ["fresh", "stale", "expired"]),
    ("connector_health", counts ["healthy", "degraded", "auth_failed", "rate_limited",
      "unreachable", "disabled"])])]

def response (id : String) : ResponseEnvelope Capability :=
  { requestId := id, body := .query .getHealthSummary }

def responseText (envelope : ResponseEnvelope Capability) : Bytes :=
  (envelope.json fun _ => healthSummary).bytes

/-- A wire whose responses differ in their ids only. It reads the first two of a session, and
nothing else. -/
def wire : Wire Capability Capability where
  queryCapability := id
  responseCapability := id
  encodeRequest request :=
    [(request.json fun query => .record [("type", .text query.tag)]).bytes]
  encodeResponse envelope := [responseText envelope]
  decodeResponse body :=
    [response "mcp-1", response "mcp-2"].find? fun envelope => responseText envelope = body

theorem responseText_head : ∀ envelope ∈ [response "mcp-1", response "mcp-2"],
    (responseText envelope).head? = some 0x7b := by
  decide +kernel

theorem decodeResponse_other {byte : UInt8} (h : byte ≠ 0x7b) (rest : Bytes) :
    wire.decodeResponse (byte :: rest) = none := by
  refine List.find?_eq_none.mpr fun envelope henvelope htext => h ?_
  have hhead := responseText_head envelope henvelope
  rw [of_decide_eq_true htext] at hhead
  exact Option.some.inj hhead

theorem strict : Strict wire where
  quote := decodeResponse_other (by decide)
  word := decodeResponse_other (by decide)

def bridge : Caller := .bridge "1.0.0" "release" none

def query : ExchangeCall Capability Capability := .query .getHealthSummary

def answers : ExchangeCall Capability Capability := .answers 0 (.query .getHealthSummary)

/-- A query that is answered in time, and the next one too. -/
def inTime : List (ExchangeCall Capability Capability) :=
  [query, answers, .arrives 1000, .ends, query, answers, .arrives 1000, .ends]

/-- The response to the first query arrives after its deadline, ahead of the second's. -/
def late : List (ExchangeCall Capability Capability) :=
  [query, .ends, answers, query, answers, .arrives 1000, .ends]

/-- The responses to the first two queries. -/
def responses : List (Sent Capability) :=
  [{ serial := 0, response := response "mcp-1" }, { serial := 1, response := response "mcp-2" }]

theorem reads_responses : ∀ sent ∈ responses, Reads wire sent.response := by
  intro sent hsent
  simp only [responses, List.mem_cons, List.not_mem_nil, or_false] at hsent
  rcases hsent with rfl | rfl
  · exact ⟨by decide +kernel, ⟨_, rfl⟩, by decide +kernel⟩
  · exact ⟨by decide +kernel, ⟨_, rfl⟩, by decide +kernel⟩

end Fixture

open Fixture in
/-- Two queries that are answered in time return their responses. -/
theorem never_poisoned_when_unblocked_in_time :
    (Trace.final (step wire) (start bridge) inTime).sent = responses ∧
      ∀ entry ∈ Trace.log (step wire) (start bridge) inTime,
        OwnOrError wire entry ∧ Timely wire entry := by
  have hsent : (Trace.final (step wire) (start bridge) inTime).sent = responses := by
    decide +kernel
  refine ⟨hsent, (never_poisoned_when_unblocked wire strict bridge inTime ?_).1 ?_⟩
  · rw [hsent]
    exact reads_responses
  · have hclear : (Trace.log (step wire) (start bridge) inTime).all (fun entry =>
        entry.before.waiting.all fun issued =>
          decide (min entry.before.arrived (entry.before.ownStart wire issued.serial) ≤
            entry.before.read)) = true := by
      decide +kernel
    intro entry hentry issued _ hwaiting
    have hentry' := List.all_eq_true.mp hclear entry hentry
    rw [hwaiting] at hentry'
    left
    unfold Clear
    simpa using hentry'

open Fixture in
/-- The second response has arrived in time, and the query returns an error: the first one
was read in its place. -/
theorem late_response_poisons :
    (∀ sent ∈ (Trace.final (step wire) (start bridge) late).sent, Reads wire sent.response) ∧
      ¬ ∀ entry ∈ Trace.log (step wire) (start bridge) late,
        OwnOrError wire entry ∧ Timely wire entry := by
  have hsent : (Trace.final (step wire) (start bridge) late).sent = responses := by
    decide +kernel
  refine ⟨by rw [hsent]; exact reads_responses, fun hall => ?_⟩
  have hmem : Trace.entryOf (step wire)
      (Trace.final (step wire) (start bridge) (late.take 6)) .ends ∈
        Trace.log (step wire) (start bridge) late := by
    show _ ∈ Trace.log (step wire) (start bridge) (late.take 6 ++ [.ends])
    rw [Trace.log_append]
    exact List.mem_append_right _ (List.mem_singleton_self _)
  have hwaiting : ((Trace.final (step wire) (start bridge) (late.take 6)).waiting.map
      Issued.serial) = some 1 := by
    decide +kernel
  obtain ⟨issued, hissued, hserial⟩ := Option.map_eq_some_iff.mp hwaiting
  have harrived : Arrived wire (Trace.final (step wire) (start bridge) (late.take 6)) 1
      { serial := 1, response := response "mcp-2" } :=
    ⟨by decide +kernel, by decide +kernel⟩
  have hreply := (hall _ hmem).2 issued _ rfl hissued (hserial ▸ harrived)
  have hfailed : (Trace.entryOf (step wire)
      (Trace.final (step wire) (start bridge) (late.take 6)) .ends).reply =
      some { serial := 1, result := .error hostDidNotComplete } := by
    decide +kernel
  have hanswer := hreply.symm.trans hfailed
  have hresult := congrArg Reply.result (Option.some.inj hanswer)
  have hok : ∀ expected, answerOf wire expected (response "mcp-2") ≠
      .error hostDidNotComplete := by
    intro expected
    cases expected <;> decide +kernel
  exact hok _ hresult

end Exchange

end Rpc

end NextInfra
