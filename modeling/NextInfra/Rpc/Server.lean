import NextInfra.Rpc.Message
import NextInfra.Lib.Runs

/-!
# One session of the server

`serve_stream` after the handshake. The loop reaps finished workers, reads a request, and
answers it with an error or spawns a worker for it; workers share the writer and give
their permit back when they are done. The main loop, the workers and the client act in
any order.

A response that does not fit a frame is not written: the worker ends with the error, and
the loop with it when it reaps or joins the worker. §3 accounts for every request, §4
finds that nothing else loses one, and that the server stops only with all of them
answered.
-/

namespace NextInfra

namespace Rpc

/-! ## §1  The session -/

inductive WorkerPhase
  | handling
  /-- `handle_request` has returned; the worker still holds its permit. -/
  | returned (result : Except SessionError Unit)
  | released (result : Except SessionError Unit)
  /-- `is_finished`. -/
  | finished (result : Except SessionError Unit)
deriving DecidableEq

namespace WorkerPhase

def isHandling : WorkerPhase → Bool
  | .handling => true
  | _ => false

def isReturned : WorkerPhase → Bool
  | .returned _ => true
  | _ => false

def isReleased : WorkerPhase → Bool
  | .released _ => true
  | _ => false

def isFinished : WorkerPhase → Bool
  | .finished _ => true
  | _ => false

/-- The worker has ended, or will, without its response. -/
def failed : WorkerPhase → Bool
  | .returned (.error _) | .released (.error _) | .finished (.error _) => true
  | _ => false

def holdsPermit (phase : WorkerPhase) : Bool := phase.isHandling || phase.isReturned

end WorkerPhase

structure Worker (Query : Type) where
  request : RequestEnvelope Query
  phase : WorkerPhase

/-- Where the loop of `serve_stream` is. -/
inductive Loop (Query : Type)
  | top
  | reading
  | admitting (request : RequestEnvelope Query)
  | joining
  | ended (result : Except SessionError Unit)

structure ServerSession (Query Response : Type) where
  supported : List Capability
  /-- Frames the client has sent and the loop has not read. -/
  input : List (RequestEnvelope Query)
  /-- The client has shut down its half for writing. -/
  closed : Bool
  loop : Loop Query
  workers : List (Worker Query)
  inFlight : Nat
  written : List (ResponseEnvelope Response)
  /-- All that the client has sent. -/
  sent : List (RequestEnvelope Query)

inductive ServerCall (Query Response : Type)
  | sends (request : RequestEnvelope Query)
  | closes
  /-- The next step of the loop. -/
  | proceeds
  /-- The handler of a worker returns, and the worker writes its response. -/
  | responds (worker : Nat) (outcome : Except RpcError Response)
  | releases (worker : Nat)
  | finishes (worker : Nat)

def ServerCall.byServer {Query Response : Type} : ServerCall Query Response → Bool
  | .sends _ => false
  | .closes => false
  | _ => true

/-- `Vec::swap_remove`. -/
def swapRemove {α : Type} (items : List α) (index : Nat) : List α :=
  match items.getLast? with
  | none => []
  | some last =>
      if index + 1 = items.length then items.dropLast else items.dropLast.set index last

/-- `reap_finished`, one round of its loop for each unit of fuel. -/
def reapFinished {Query : Type} : Nat → List (Worker Query) → Nat →
    Except SessionError (List (Worker Query))
  | 0, workers, _ => .ok workers
  | fuel + 1, workers, index =>
      match workers[index]? with
      | none => .ok workers
      | some worker =>
          match worker.phase with
          | .finished (.ok ()) => reapFinished fuel (swapRemove workers index) index
          | .finished (.error e) => .error e
          | _ => reapFinished fuel workers (index + 1)

/-- What `handle_request` makes of the handler's result. -/
def bodyOf {Response : Type} : Except RpcError Response → ResponseBody Response
  | .ok response => .query response
  | .error error => .error error

def unsupported : RpcError :=
  .capabilityMismatch "the negotiated Host does not support this query capability"

namespace ServerSession

section

variable {Query Response : Type} (wire : Wire Query Response)

/-- The session once the handshake is accepted. -/
def start (supported : List Capability) : ServerSession Query Response where
  supported := supported
  input := []
  closed := false
  loop := .top
  workers := []
  inFlight := 0
  written := []
  sent := []

/-- A response is made and written under the lock of the writer. -/
def respond (written : List (ResponseEnvelope Response)) (requestId : String)
    (body : ResponseBody Response) : Except SessionError (List (ResponseEnvelope Response)) :=
  match ResponseEnvelope.create requestId body with
  | .error e => .error (.protocol e)
  | .ok response =>
      match encodeFrame (wire.encodeResponse response) with
      | .error e => .error (.frame e)
      | .ok _ => .ok (written ++ [response])

/-- The loop answers a request itself. -/
def reject (s : ServerSession Query Response) (requestId : String) (error : RpcError) :
    ServerSession Query Response :=
  match respond wire s.written requestId (.error error) with
  | .error e => { s with loop := .ended (.error e) }
  | .ok written => { s with loop := .top, written := written }

def proceed (s : ServerSession Query Response) : ServerSession Query Response :=
  match s.loop with
  | .top =>
      match reapFinished s.workers.length s.workers 0 with
      | .error e => { s with loop := .ended (.error e) }
      | .ok workers => { s with loop := .reading, workers := workers }
  | .reading =>
      match s.input with
      | request :: rest => { s with loop := .admitting request, input := rest }
      | [] => { s with loop := .joining }
  | .admitting request =>
      if wire.queryCapability request.query ∉ s.supported then
        s.reject wire request.requestId unsupported
      else
        match validateInFlight s.inFlight with
        | .error error => s.reject wire request.requestId error
        | .ok () =>
            { s with
              loop := .top
              inFlight := s.inFlight + 1
              workers := s.workers ++ [{ request := request, phase := .handling }] }
  | .joining =>
      match s.workers with
      | [] => { s with loop := .ended (.ok ()) }
      | worker :: rest =>
          match worker.phase with
          | .finished (.ok ()) => { s with workers := rest }
          | .finished (.error e) => { s with loop := .ended (.error e) }
          | _ => s
  | .ended _ => s

def setPhase (s : ServerSession Query Response) (index : Nat) (worker : Worker Query)
    (phase : WorkerPhase) : ServerSession Query Response :=
  { s with workers := s.workers.set index { worker with phase := phase } }

def step (s : ServerSession Query Response) :
    ServerCall Query Response → ServerSession Query Response
  | .sends request => { s with input := s.input ++ [request], sent := s.sent ++ [request] }
  | .closes => { s with closed := true }
  | .proceeds => s.proceed wire
  | .responds index outcome =>
      match s.workers[index]? with
      | none => s
      | some worker =>
          match respond wire s.written worker.request.requestId (bodyOf outcome) with
          | .error e => s.setPhase index worker (.returned (.error e))
          | .ok written =>
              { s.setPhase index worker (.returned (.ok ())) with written := written }
  | .releases index =>
      match s.workers[index]? with
      | some ⟨request, .returned result⟩ =>
          { s.setPhase index ⟨request, .returned result⟩ (.released result) with
            inFlight := s.inFlight - 1 }
      | _ => s
  | .finishes index =>
      match s.workers[index]? with
      | some ⟨request, .released result⟩ =>
          s.setPhase index ⟨request, .released result⟩ (.finished result)
      | _ => s

/-- The loop blocks in a read without input, and in a join of a worker that runs. -/
def mayProceed (s : ServerSession Query Response) : Bool :=
  match s.loop with
  | .top => true
  | .reading => !s.input.isEmpty || s.closed
  | .admitting _ => true
  | .joining =>
      match s.workers with
      | [] => true
      | worker :: _ => worker.phase.isFinished
  | .ended _ => false

/-- Requests are well-formed and have ids of their own. -/
def enabled (s : ServerSession Query Response) : ServerCall Query Response → Prop
  | .sends request =>
      s.closed = false ∧ request.validate = .ok () ∧
        request.requestId ∉ s.sent.map RequestEnvelope.requestId
  | .closes => s.closed = false
  | .proceeds => s.mayProceed = true
  | .responds index _ => (s.workers[index]?).any (fun worker => worker.phase.isHandling) = true
  | .releases index => (s.workers[index]?).any (fun worker => worker.phase.isReturned) = true
  | .finishes index => (s.workers[index]?).any (fun worker => worker.phase.isReleased) = true

instance (s : ServerSession Query Response) (call : ServerCall Query Response) :
    Decidable (s.enabled call) := by
  cases call <;> unfold enabled <;> infer_instance

end

end ServerSession

/-- The server of one session. -/
def server {Query Response : Type} (wire : Wire Query Response) :
    Machine (ServerSession Query Response) (ServerCall Query Response) where
  enabled := ServerSession.enabled
  step := ServerSession.step wire

instance {Query Response : Type} (wire : Wire Query Response) (s : ServerSession Query Response)
    (call : ServerCall Query Response) : Decidable ((server wire).enabled s call) :=
  inferInstanceAs (Decidable (s.enabled call))

/-! ## §2  Reaping and phases -/

section

variable {α : Type}

theorem swapRemove_concat (items : List α) (last : α) (index : Nat) :
    swapRemove (items ++ [last]) index =
      if index = items.length then items else items.set index last := by
  simp [swapRemove]

/-- A swapped removal takes one item out of every count. -/
theorem countP_swapRemove (p : α → Bool) {items : List α} {index : Nat} {item : α}
    (h : items[index]? = some item) :
    (swapRemove items index).countP p + [item].countP p = items.countP p := by
  obtain ⟨hindex, hitem⟩ := List.getElem?_eq_some_iff.mp h
  obtain rfl | ⟨init, last, rfl⟩ := List.eq_nil_or_concat items
  · simp at hindex
  rw [List.concat_eq_append] at *
  rw [swapRemove_concat, List.countP_append, List.countP_singleton, List.countP_singleton]
  rw [List.length_append, List.length_singleton] at hindex
  by_cases hlast : index = init.length
  · subst hlast
    rw [if_pos rfl]
    have hsame : last = item := by simpa using h
    rw [hsame]
  · have hinit : index < init.length := by omega
    rw [if_neg hlast, List.countP_set hinit]
    have hsame : init[index] = item := by
      rw [List.getElem?_append_left hinit] at h
      exact (List.getElem?_eq_some_iff.mp h).2
    rw [hsame]
    have hcounted := List.boole_getElem_le_countP (p := p) hinit
    rw [hsame] at hcounted
    omega

theorem countP_set_eq (p : α → Bool) {items : List α} {index : Nat} {item : α} (next : α)
    (h : items[index]? = some item) :
    (items.set index next).countP p + [item].countP p =
      items.countP p + [next].countP p := by
  obtain ⟨hindex, rfl⟩ := List.getElem?_eq_some_iff.mp h
  have hcounted := List.boole_getElem_le_countP (p := p) hindex
  rw [List.countP_set hindex, List.countP_singleton, List.countP_singleton]
  omega

end

section

variable {Query : Type}

/-- Reaping takes workers that finished well, and no other. -/
theorem reapFinished_takes {fuel : Nat} {workers left : List (Worker Query)} {index : Nat}
    (h : reapFinished fuel workers index = .ok left) :
    ∃ taken : List (RequestEnvelope Query), ∀ p : Worker Query → Bool,
      left.countP p + taken.countP (fun request => p ⟨request, .finished (.ok ())⟩) =
        workers.countP p := by
  induction fuel generalizing workers index with
  | zero =>
      cases h
      exact ⟨[], fun p => rfl⟩
  | succ fuel ih =>
      unfold reapFinished at h
      cases hworker : workers[index]? with
      | none =>
          rw [hworker] at h
          cases h
          exact ⟨[], fun p => rfl⟩
      | some worker =>
          rw [hworker] at h
          obtain ⟨request, phase⟩ := worker
          match phase with
          | .handling => exact ih h
          | .returned _ => exact ih h
          | .released _ => exact ih h
          | .finished (.error e) => cases h
          | .finished (.ok ()) =>
              obtain ⟨taken, htaken⟩ := ih h
              refine ⟨request :: taken, fun p => ?_⟩
              have hcount := countP_swapRemove p hworker
              have hrest := htaken p
              rw [List.countP_singleton] at hcount
              rw [List.countP_cons]
              omega

/-- What no well finished worker has is counted as before. -/
theorem reapFinished_countP {fuel : Nat} {workers left : List (Worker Query)} {index : Nat}
    (h : reapFinished fuel workers index = .ok left) {p : Worker Query → Bool}
    (hp : ∀ request, p ⟨request, .finished (.ok ())⟩ = false) :
    left.countP p = workers.countP p := by
  obtain ⟨taken, htaken⟩ := reapFinished_takes h
  have hnone : taken.countP (fun request => p ⟨request, .finished (.ok ())⟩) = 0 :=
    List.countP_eq_zero.mpr fun request _ => by simp [hp request]
  have hcount := htaken p
  omega

theorem reapFinished_le {fuel : Nat} {workers left : List (Worker Query)} {index : Nat}
    (h : reapFinished fuel workers index = .ok left) (p : Worker Query → Bool) :
    left.countP p ≤ workers.countP p := by
  obtain ⟨taken, htaken⟩ := reapFinished_takes h
  have hcount := htaken p
  omega

/-- With no failed worker there is nothing for the loop to end with. -/
theorem reapFinished_ok {workers : List (Worker Query)}
    (h : workers.countP (fun worker => worker.phase.failed) = 0) (fuel index : Nat) :
    ∃ left, reapFinished fuel workers index = .ok left := by
  induction fuel generalizing workers index with
  | zero => exact ⟨workers, rfl⟩
  | succ fuel ih =>
      unfold reapFinished
      cases hworker : workers[index]? with
      | none => exact ⟨workers, rfl⟩
      | some worker =>
          obtain ⟨request, phase⟩ := worker
          have hmem := List.mem_of_getElem? hworker
          match phase with
          | .handling => exact ih h _
          | .returned _ => exact ih h _
          | .released _ => exact ih h _
          | .finished (.error e) =>
              have hfailed := List.countP_eq_zero.mp h _ hmem
              exact absurd rfl hfailed
          | .finished (.ok ()) =>
              refine ih ?_ _
              have hcount := countP_swapRemove (fun worker : Worker Query => worker.phase.failed)
                hworker
              omega

end

/-! ## §3  Accounts -/

namespace ServerSession

section

variable {Query Response : Type}

def named (id : String) (request : RequestEnvelope Query) : Bool := decide (request.requestId = id)

def wellFormed (request : RequestEnvelope Query) : Bool :=
  decide (validateRequestId request.requestId = .ok ())

/-- How often the loop holds the request. -/
def holds (loop : Loop Query) (id : String) : Nat :=
  match loop with
  | .admitting request => [request].countP (named id)
  | _ => 0

def handles (id : String) (worker : Worker Query) : Bool :=
  worker.phase.isHandling && named id worker.request

def loses (id : String) (worker : Worker Query) : Bool :=
  worker.phase.failed && named id worker.request

def carries (id : String) (response : ResponseEnvelope Response) : Bool :=
  decide (response.requestId = id)

theorem countP_carries (id : String) (request : RequestEnvelope Query)
    (body : ResponseBody Response) :
    [{ requestId := request.requestId, body := body }].countP (carries id) =
      [request].countP (named id) := rfl

theorem countP_handles (id : String) (request : RequestEnvelope Query) :
    [⟨request, .handling⟩].countP (handles id) = [request].countP (named id) := rfl

theorem countP_handles_past (id : String) (request : RequestEnvelope Query) {phase : WorkerPhase}
    (h : phase.isHandling = false) : [⟨request, phase⟩].countP (handles id) = 0 := by
  simp [handles, h]

theorem countP_loses (id : String) (request : RequestEnvelope Query) {phase : WorkerPhase}
    (h : phase.failed = true) :
    [⟨request, phase⟩].countP (loses id) = [request].countP (named id) := by
  simp [loses, h]

theorem countP_loses_none (id : String) (request : RequestEnvelope Query) {phase : WorkerPhase}
    (h : phase.failed = false) : [⟨request, phase⟩].countP (loses id) = 0 := by
  simp [loses, h]

/-- How often a request is unread, held by the loop or handled. -/
def pending (s : ServerSession Query Response) (id : String) : Nat :=
  s.input.countP (named id) + holds s.loop id + s.workers.countP (handles id)

/-- How many responses carry the id. -/
def responses (s : ServerSession Query Response) (id : String) : Nat :=
  s.written.countP (carries id)

/-- How many workers have failed with the request. -/
def lost (s : ServerSession Query Response) (id : String) : Nat := s.workers.countP (loses id)

def tally (s : ServerSession Query Response) (id : String) : Nat :=
  s.pending id + s.responses id + s.lost id

/-- The session has not ended with an error. -/
def Lives (s : ServerSession Query Response) : Prop := ∀ e, s.loop ≠ .ended (.error e)

/-- Exactly one response for every request, or it is still in hand. -/
def Served (s : ServerSession Query Response) : Prop :=
  s.Lives ∧ ∀ request ∈ s.sent,
    s.pending request.requestId + s.responses request.requestId = 1

structure Accounted (s : ServerSession Query Response) : Prop where
  distinct : ∀ id, s.sent.countP (named id) ≤ 1
  accounts : s.Lives → ∀ id, s.tally id = s.sent.countP (named id)
  input : s.input.countP (fun request => !wellFormed request) = 0
  admitting : ∀ request, s.loop = .admitting request → wellFormed request = true
  workers : s.workers.countP (fun worker => !wellFormed worker.request) = 0
  drained : s.loop = .joining ∨ s.loop = .ended (.ok ()) → s.input = [] ∧ s.closed = true
  joined : s.loop = .ended (.ok ()) → s.workers = []

variable {wire : Wire Query Response}

theorem respond_ok {written next : List (ResponseEnvelope Response)} {id : String}
    {body : ResponseBody Response} (h : respond wire written id body = .ok next) :
    next = written ++ [{ requestId := id, body := body }] := by
  unfold respond at h
  split at h
  · cases h
  rename_i response hresponse
  split at h
  · cases h
  · cases h
    rw [ResponseEnvelope.create_ok hresponse]

/-- The loop's own answers. -/
def Rejection (error : RpcError) : Prop := error = unsupported ∨ error = .tooManyRequests

theorem rejection_of_full {count : Nat} {error : RpcError}
    (h : validateInFlight count = .error error) : Rejection error := by
  unfold validateInFlight at h
  split at h
  · cases h
    exact .inr rfl
  · cases h

/-- All that a step of the loop can do. -/
inductive Proceeds (wire : Wire Query Response) (s : ServerSession Query Response) :
    ServerSession Query Response → Prop
  | reaps (left : List (Worker Query)) (hloop : s.loop = .top)
      (hleft : reapFinished s.workers.length s.workers 0 = .ok left) :
      Proceeds wire s { s with loop := .reading, workers := left }
  | reads (request : RequestEnvelope Query) (rest : List (RequestEnvelope Query))
      (hloop : s.loop = .reading) (hinput : s.input = request :: rest) :
      Proceeds wire s { s with loop := .admitting request, input := rest }
  | drains (hloop : s.loop = .reading) (hinput : s.input = []) (hclosed : s.closed = true) :
      Proceeds wire s { s with loop := .joining }
  | rejects (request : RequestEnvelope Query) (error : RpcError)
      (hloop : s.loop = .admitting request) :
      Proceeds wire s
        { s with
          loop := .top
          written := s.written ++ [{ requestId := request.requestId, body := .error error }] }
  | spawns (request : RequestEnvelope Query) (hloop : s.loop = .admitting request)
      (hroom : validateInFlight s.inFlight = .ok ()) :
      Proceeds wire s
        { s with
          loop := .top
          inFlight := s.inFlight + 1
          workers := s.workers ++ [{ request := request, phase := .handling }] }
  | joins (request : RequestEnvelope Query) (rest : List (Worker Query)) (hloop : s.loop = .joining)
      (hworkers : s.workers = ⟨request, .finished (.ok ())⟩ :: rest) :
      Proceeds wire s { s with workers := rest }
  | ends (hloop : s.loop = .joining) (hworkers : s.workers = []) :
      Proceeds wire s { s with loop := .ended (.ok ()) }
  /-- An answer of the loop itself cannot be written. -/
  | breaks (request : RequestEnvelope Query) (error : RpcError) (e : SessionError)
      (hloop : s.loop = .admitting request) (hrejection : Rejection error)
      (hfails : respond wire s.written request.requestId (.error error) = .error e) :
      Proceeds wire s { s with loop := .ended (.error e) }
  /-- A worker that failed is reaped or joined. -/
  | fails (e : SessionError)
      (hfailed : s.workers.countP (fun worker => worker.phase.failed) ≠ 0) :
      Proceeds wire s { s with loop := .ended (.error e) }

theorem reject_proceeds {s : ServerSession Query Response} {request : RequestEnvelope Query}
    {error : RpcError} (hloop : s.loop = .admitting request) (hrejection : Rejection error) :
    Proceeds wire s (s.reject wire request.requestId error) := by
  unfold reject
  cases hrespond : respond wire s.written request.requestId (.error error) with
  | error e => exact .breaks request error e hloop hrejection hrespond
  | ok written =>
      rw [respond_ok hrespond]
      exact .rejects request error hloop

theorem proceed_proceeds (wire : Wire Query Response) {s : ServerSession Query Response}
    (hmay : s.mayProceed = true) : Proceeds wire s (s.proceed wire) := by
  obtain ⟨supported, input, closed, loop, workers, inFlight, written, sent⟩ := s
  cases loop with
  | top =>
      simp only [proceed]
      cases hleft : reapFinished workers.length workers 0 with
      | error e =>
          refine .fails e fun hnone => ?_
          obtain ⟨left, hok⟩ := reapFinished_ok hnone workers.length 0
          rw [hleft] at hok
          cases hok
      | ok left => exact .reaps left rfl hleft
  | reading =>
      cases input with
      | nil => exact .drains rfl rfl hmay
      | cons request rest => exact .reads request rest rfl rfl
  | admitting request =>
      simp only [proceed]
      split
      · exact reject_proceeds rfl (.inl rfl)
      · cases hroom : validateInFlight inFlight with
        | error error => exact reject_proceeds rfl (rejection_of_full hroom)
        | ok _ => exact .spawns request rfl hroom
  | joining =>
      cases workers with
      | nil => exact .ends rfl rfl
      | cons worker rest =>
          obtain ⟨request, phase⟩ := worker
          match phase with
          | .handling => cases hmay
          | .returned _ => cases hmay
          | .released _ => cases hmay
          | .finished (.error e) =>
              refine .fails e ?_
              show List.countP _ (_ :: rest) ≠ 0
              rw [List.countP_cons_of_pos rfl]
              exact Nat.succ_ne_zero _
          | .finished (.ok ()) => exact .joins request rest rfl rfl
  | ended result => cases hmay

/-- All that a step of a worker can do. -/
inductive Works (wire : Wire Query Response) (s : ServerSession Query Response) :
    ServerCall Query Response → ServerSession Query Response → Prop
  | writes (index : Nat) (outcome : Except RpcError Response) (request : RequestEnvelope Query)
      (hworker : s.workers[index]? = some ⟨request, .handling⟩)
      (hwrites : respond wire s.written request.requestId (bodyOf outcome) =
        .ok (s.written ++ [{ requestId := request.requestId, body := bodyOf outcome }])) :
      Works wire s (.responds index outcome)
        { s.setPhase index ⟨request, .handling⟩ (.returned (.ok ())) with
          written := s.written ++ [{ requestId := request.requestId, body := bodyOf outcome }] }
  | breaks (index : Nat) (outcome : Except RpcError Response) (request : RequestEnvelope Query)
      (e : SessionError) (hworker : s.workers[index]? = some ⟨request, .handling⟩)
      (hfails : respond wire s.written request.requestId (bodyOf outcome) = .error e) :
      Works wire s (.responds index outcome)
        (s.setPhase index ⟨request, .handling⟩ (.returned (.error e)))
  | releases (index : Nat) (request : RequestEnvelope Query) (result : Except SessionError Unit)
      (hworker : s.workers[index]? = some ⟨request, .returned result⟩) :
      Works wire s (.releases index)
        { s.setPhase index ⟨request, .returned result⟩ (.released result) with
          inFlight := s.inFlight - 1 }
  | finishes (index : Nat) (request : RequestEnvelope Query) (result : Except SessionError Unit)
      (hworker : s.workers[index]? = some ⟨request, .released result⟩) :
      Works wire s (.finishes index)
        (s.setPhase index ⟨request, .released result⟩ (.finished result))

theorem step_breaks {s : ServerSession Query Response} {index : Nat} {worker : Worker Query}
    {outcome : Except RpcError Response} {e : SessionError}
    (hworker : s.workers[index]? = some worker)
    (hfails : respond wire s.written worker.request.requestId (bodyOf outcome) = .error e) :
    s.step wire (.responds index outcome) = s.setPhase index worker (.returned (.error e)) := by
  simp only [step, hworker, hfails]

theorem responds_works (wire : Wire Query Response) {s : ServerSession Query Response} {index : Nat}
    {outcome : Except RpcError Response} (h : s.enabled (.responds index outcome)) :
    Works wire s (.responds index outcome) (s.step wire (.responds index outcome)) := by
  obtain ⟨⟨request, phase⟩, hworker, hphase⟩ := (Option.any_eq_true _ _).mp h
  cases phase with
  | handling =>
      cases hrespond : respond wire s.written request.requestId (bodyOf outcome) with
      | error e =>
          rw [step_breaks hworker hrespond]
          exact .breaks index outcome request e hworker hrespond
      | ok written =>
          simp only [step, hworker, hrespond]
          obtain rfl := respond_ok hrespond
          exact .writes index outcome request hworker hrespond
  | returned _ => cases hphase
  | released _ => cases hphase
  | finished _ => cases hphase

theorem releases_works (wire : Wire Query Response) {s : ServerSession Query Response} {index : Nat}
    (h : s.enabled (.releases index)) :
    Works wire s (.releases index) (s.step wire (.releases index)) := by
  obtain ⟨⟨request, phase⟩, hworker, hphase⟩ := (Option.any_eq_true _ _).mp h
  cases phase with
  | handling => cases hphase
  | returned result =>
      simp only [step, hworker]
      exact .releases index request result hworker
  | released _ => cases hphase
  | finished _ => cases hphase

theorem finishes_works (wire : Wire Query Response) {s : ServerSession Query Response} {index : Nat}
    (h : s.enabled (.finishes index)) :
    Works wire s (.finishes index) (s.step wire (.finishes index)) := by
  obtain ⟨⟨request, phase⟩, hworker, hphase⟩ := (Option.any_eq_true _ _).mp h
  cases phase with
  | handling => cases hphase
  | returned _ => cases hphase
  | released result =>
      simp only [step, hworker]
      exact .finishes index request result hworker
  | finished _ => cases hphase

/-! The accounts over one step. -/

theorem lives_of_loop {s : ServerSession Query Response} {loop : Loop Query} (h : s.loop = loop)
    (hloop : ∀ e, loop ≠ .ended (.error e)) : s.Lives :=
  fun e he => hloop e (h.symm.trans he)

theorem Accounted.proceeds {s t : ServerSession Query Response} (h : s.Accounted)
    (hstep : Proceeds wire s t) : t.Accounted := by
  cases hstep with
  | reaps left hloop hleft =>
      refine ⟨h.distinct, fun _ id => ?_, h.input, nofun, ?_, nofun, nofun⟩
      · have htally := h.accounts (lives_of_loop hloop nofun) id
        have hhandling := reapFinished_countP hleft (p := handles id) fun _ => rfl
        have hfailed := reapFinished_countP hleft (p := loses id) fun _ => rfl
        unfold tally pending responses lost at htally ⊢
        rw [hloop] at htally
        simp only [hhandling, hfailed]
        exact htally
      · have hworkers := h.workers
        have hle := reapFinished_le hleft fun worker => !wellFormed worker.request
        show left.countP _ = 0
        omega
  | reads request rest hloop hinput =>
      have hform := h.input
      rw [hinput, List.countP_cons] at hform
      refine ⟨h.distinct, fun _ id => ?_, by show rest.countP _ = 0; omega, ?_, h.workers, nofun,
        nofun⟩
      · have htally := h.accounts (lives_of_loop hloop nofun) id
        unfold tally pending responses lost at htally ⊢
        rw [hloop, hinput, List.countP_cons] at htally
        simp only [holds, List.countP_singleton] at htally ⊢
        omega
      · intro request' hrequest'
        cases hrequest'
        by_contra hbad
        rw [if_pos (by simpa using hbad)] at hform
        omega
  | drains hloop hinput hclosed =>
      refine ⟨h.distinct, fun _ id => ?_, h.input, nofun, h.workers, fun _ => ⟨hinput, hclosed⟩,
        nofun⟩
      have htally := h.accounts (lives_of_loop hloop nofun) id
      unfold tally pending at htally ⊢
      rw [hloop] at htally
      exact htally
  | rejects request error hloop =>
      refine ⟨h.distinct, fun _ id => ?_, h.input, nofun, h.workers, nofun, nofun⟩
      have htally := h.accounts (lives_of_loop hloop nofun) id
      unfold tally pending responses lost at htally ⊢
      rw [hloop] at htally
      simp only [holds] at htally
      simp only [holds, List.countP_append, countP_carries]
      omega
  | spawns request hloop hroom =>
      refine ⟨h.distinct, fun _ id => ?_, h.input, nofun, ?_, nofun, nofun⟩
      · have htally := h.accounts (lives_of_loop hloop nofun) id
        unfold tally pending responses lost at htally ⊢
        rw [hloop] at htally
        simp only [holds] at htally
        have hnone : [⟨request, .handling⟩].countP (loses id) = 0 := rfl
        simp only [holds, List.countP_append, countP_handles, hnone]
        omega
      · have hworkers := h.workers
        have hform := h.admitting request hloop
        simp only [List.countP_append, List.countP_singleton, hform, Bool.not_true,
          Bool.false_eq_true, if_false]
        omega
  | joins request rest hloop hworkers =>
      have hform := h.workers
      rw [hworkers, List.countP_cons] at hform
      refine ⟨h.distinct, fun _ id => ?_, h.input, ?_, ?_, ?_, ?_⟩
      · have htally := h.accounts (lives_of_loop hloop nofun) id
        unfold tally pending responses lost at htally ⊢
        rw [hworkers, List.countP_cons_of_neg (by simp [handles, WorkerPhase.isHandling]),
          List.countP_cons_of_neg (by simp [loses, WorkerPhase.failed])] at htally
        exact htally
      · intro request' hrequest'
        cases hloop.symm.trans hrequest'
      · show rest.countP _ = 0
        omega
      · exact fun hdrained => h.drained hdrained
      · intro hended
        cases hloop.symm.trans hended
  | ends hloop hworkers =>
      refine ⟨h.distinct, fun _ id => ?_, h.input, nofun, h.workers,
        fun _ => h.drained (.inl hloop), fun _ => hworkers⟩
      have htally := h.accounts (lives_of_loop hloop nofun) id
      unfold tally pending at htally ⊢
      rw [hloop] at htally
      exact htally
  | breaks request error e hloop hrejection hfails =>
      refine ⟨h.distinct, fun hlives => absurd rfl (hlives e), h.input, nofun, h.workers, ?_, nofun⟩
      rintro (hjoining | hended)
      · cases hjoining
      · cases hended
  | fails e hfailed =>
      refine ⟨h.distinct, fun hlives => absurd rfl (hlives e), h.input, nofun, h.workers, ?_, nofun⟩
      rintro (hjoining | hended)
      · cases hjoining
      · cases hended

theorem Works.loop {s t : ServerSession Query Response} {call : ServerCall Query Response}
    (h : Works wire s call t) : t.loop = s.loop := by
  cases h <;> rfl

/-- A worker that changes its phase keeps its request. -/
theorem wellFormed_setPhase {s : ServerSession Query Response} {index : Nat}
    {worker : Worker Query} (phase : WorkerPhase) (hworker : s.workers[index]? = some worker)
    (h : s.workers.countP (fun worker => !wellFormed worker.request) = 0) :
    (s.setPhase index worker phase).workers.countP (fun worker => !wellFormed worker.request) =
      0 := by
  have hcount := countP_set_eq (fun worker : Worker Query => !wellFormed worker.request)
    { worker with phase := phase } hworker
  simp only [List.countP_singleton] at hcount
  show List.countP _ (List.set _ _ _) = 0
  omega

theorem Works.tally_eq {s t : ServerSession Query Response} {call : ServerCall Query Response}
    (h : Works wire s call t) (id : String) : t.tally id = s.tally id := by
  cases h with
  | writes index outcome request hworker hwrites =>
      have hhandles := countP_set_eq (handles id) ⟨request, .returned (.ok ())⟩ hworker
      have hloses := countP_set_eq (loses id) ⟨request, .returned (.ok ())⟩ hworker
      rw [countP_handles, countP_handles_past id request rfl] at hhandles
      rw [countP_loses_none id request rfl, countP_loses_none id request rfl] at hloses
      simp only [tally, pending, responses, lost, setPhase, List.countP_append, countP_carries]
      omega
  | breaks index outcome request e hworker hfails =>
      have hhandles := countP_set_eq (handles id) ⟨request, .returned (.error e)⟩ hworker
      have hloses := countP_set_eq (loses id) ⟨request, .returned (.error e)⟩ hworker
      rw [countP_handles, countP_handles_past id request rfl] at hhandles
      rw [countP_loses_none id request rfl, countP_loses id request rfl] at hloses
      simp only [tally, pending, responses, lost, setPhase]
      omega
  | releases index request result hworker =>
      have hhandles := countP_set_eq (handles id) ⟨request, .released result⟩ hworker
      have hloses := countP_set_eq (loses id) ⟨request, .released result⟩ hworker
      rw [countP_handles_past id request rfl, countP_handles_past id request rfl] at hhandles
      have hsame : [⟨request, .released result⟩].countP (loses id) =
          [⟨request, .returned result⟩].countP (loses id) := by
        cases result <;> rfl
      simp only [tally, pending, responses, lost, setPhase]
      omega
  | finishes index request result hworker =>
      have hhandles := countP_set_eq (handles id) ⟨request, .finished result⟩ hworker
      have hloses := countP_set_eq (loses id) ⟨request, .finished result⟩ hworker
      rw [countP_handles_past id request rfl, countP_handles_past id request rfl] at hhandles
      have hsame : [⟨request, .finished result⟩].countP (loses id) =
          [⟨request, .released result⟩].countP (loses id) := by
        cases result <;> rfl
      simp only [tally, pending, responses, lost, setPhase]
      omega

theorem Accounted.works {s t : ServerSession Query Response} {call : ServerCall Query Response}
    (h : s.Accounted) (hstep : Works wire s call t) : t.Accounted := by
  have hloop := hstep.loop
  have htally := hstep.tally_eq
  have hsame : t.input = s.input ∧ t.sent = s.sent ∧ t.closed = s.closed := by
    cases hstep <;> exact ⟨rfl, rfl, rfl⟩
  have hworkers : t.workers.countP (fun worker => !wellFormed worker.request) = 0 := by
    cases hstep with
    | writes index outcome request hworker _ => exact wellFormed_setPhase _ hworker h.workers
    | breaks index outcome request e hworker _ => exact wellFormed_setPhase _ hworker h.workers
    | releases index request result hworker => exact wellFormed_setPhase _ hworker h.workers
    | finishes index request result hworker => exact wellFormed_setPhase _ hworker h.workers
  have hnotEmpty : s.workers ≠ [] := by
    cases hstep with
    | writes index outcome request hworker _ =>
        exact List.ne_nil_of_mem (List.mem_of_getElem? hworker)
    | breaks index outcome request e hworker _ =>
        exact List.ne_nil_of_mem (List.mem_of_getElem? hworker)
    | releases index request result hworker =>
        exact List.ne_nil_of_mem (List.mem_of_getElem? hworker)
    | finishes index request result hworker =>
        exact List.ne_nil_of_mem (List.mem_of_getElem? hworker)
  refine ⟨?_, fun hlives id => ?_, ?_, ?_, hworkers, ?_, ?_⟩
  · rw [hsame.2.1]
    exact h.distinct
  · rw [htally id, hsame.2.1]
    exact h.accounts (fun e he => hlives e (hloop.trans he)) id
  · rw [hsame.1]
    exact h.input
  · rw [hloop]
    exact h.admitting
  · rw [hloop, hsame.1, hsame.2.2]
    exact h.drained
  · intro hended
    rw [hloop] at hended
    exact absurd (h.joined hended) hnotEmpty

theorem Accounted.sends (wire : Wire Query Response) {s : ServerSession Query Response}
    (h : s.Accounted) {request : RequestEnvelope Query} (henabled : s.enabled (.sends request)) :
    (s.step wire (.sends request)).Accounted := by
  obtain ⟨hopen, hvalid, hfresh⟩ := henabled
  have hform : wellFormed request = true := decide_eq_true (RequestEnvelope.validate_id hvalid)
  refine ⟨fun id => ?_, fun hlives id => ?_, ?_, h.admitting, h.workers, ?_, h.joined⟩
  · have hdistinct := h.distinct id
    show List.countP _ (s.sent ++ [request]) ≤ 1
    rw [List.countP_append]
    by_cases hid : request.requestId = id
    · have hnone : s.sent.countP (named id) = 0 := by
        refine List.countP_eq_zero.mpr ?_
        intro other hother hnamed
        refine hfresh (List.mem_map.mpr ⟨other, hother, ?_⟩)
        rw [hid]
        exact of_decide_eq_true hnamed
      have hone : [request].countP (named id) ≤ 1 := List.countP_le_length
      omega
    · have hnone : [request].countP (named id) = 0 := by
        simp [named, hid]
      omega
  · have htally := h.accounts (fun e he => hlives e he) id
    simp only [tally, pending, responses, lost, step, List.countP_append] at htally ⊢
    omega
  · have hinput := h.input
    show List.countP _ (s.input ++ [request]) = 0
    rw [List.countP_append, List.countP_singleton, hform]
    simpa using hinput
  · intro hdrained
    obtain ⟨_, hclosed⟩ := h.drained hdrained
    rw [hopen] at hclosed
    cases hclosed

theorem Accounted.closes (wire : Wire Query Response) {s : ServerSession Query Response}
    (h : s.Accounted) : (s.step wire .closes).Accounted :=
  ⟨h.distinct, h.accounts, h.input, h.admitting, h.workers,
    fun hdrained => ⟨(h.drained hdrained).1, rfl⟩, h.joined⟩

theorem accounted_start (supported : List Capability) :
    (start supported : ServerSession Query Response).Accounted where
  distinct _ := Nat.zero_le _
  accounts _ _ := rfl
  input := rfl
  admitting := nofun
  workers := rfl
  drained := nofun
  joined := nofun

theorem accounted_step : (server wire).Preserves Accounted := by
  intro s call henabled h
  cases call with
  | sends request => exact h.sends wire henabled
  | closes => exact h.closes wire
  | proceeds => exact h.proceeds (proceed_proceeds wire henabled)
  | responds index outcome => exact h.works (responds_works wire henabled)
  | releases index => exact h.works (releases_works wire henabled)
  | finishes index => exact h.works (finishes_works wire henabled)

/-! Permits: the counter is the number of workers that hold one. -/

structure Permitted (s : ServerSession Query Response) : Prop where
  counted : s.inFlight = s.workers.countP fun worker => worker.phase.holdsPermit
  bounded : s.inFlight ≤ maxInFlightRequests

theorem Permitted.proceeds {s t : ServerSession Query Response} (h : s.Permitted)
    (hstep : Proceeds wire s t) : t.Permitted := by
  cases hstep with
  | reaps left hloop hleft =>
      refine ⟨?_, h.bounded⟩
      show s.inFlight = left.countP _
      rw [h.counted, reapFinished_countP hleft fun _ => rfl]
  | reads request rest hloop hinput => exact ⟨h.counted, h.bounded⟩
  | drains hloop hinput hclosed => exact ⟨h.counted, h.bounded⟩
  | rejects request error hloop => exact ⟨h.counted, h.bounded⟩
  | spawns request hloop hroom =>
      have hbelow : ¬ maxInFlightRequests ≤ s.inFlight := by
        intro hfull
        unfold validateInFlight at hroom
        rw [if_pos hfull] at hroom
        cases hroom
      refine ⟨?_, Nat.lt_of_not_le hbelow⟩
      show s.inFlight + 1 = List.countP _ (s.workers ++ _)
      rw [List.countP_append, h.counted]
      rfl
  | joins request rest hloop hworkers =>
      refine ⟨?_, h.bounded⟩
      have hcounted := h.counted
      rw [hworkers, List.countP_cons_of_neg (by simp [WorkerPhase.holdsPermit,
        WorkerPhase.isHandling, WorkerPhase.isReturned])] at hcounted
      exact hcounted
  | ends hloop hworkers => exact ⟨h.counted, h.bounded⟩
  | breaks request error e hloop hrejection hfails => exact ⟨h.counted, h.bounded⟩
  | fails e hfailed => exact ⟨h.counted, h.bounded⟩

theorem Permitted.works {s t : ServerSession Query Response} {call : ServerCall Query Response}
    (h : s.Permitted) (hstep : Works wire s call t) : t.Permitted := by
  have hcounted := h.counted
  have hbounded := h.bounded
  cases hstep with
  | writes index outcome request hworker hwrites =>
      have hcount := countP_set_eq (fun worker : Worker Query => worker.phase.holdsPermit)
        ⟨request, .returned (.ok ())⟩ hworker
      exact ⟨hcounted.trans (Nat.add_right_cancel hcount).symm, hbounded⟩
  | breaks index outcome request e hworker hfails =>
      have hcount := countP_set_eq (fun worker : Worker Query => worker.phase.holdsPermit)
        ⟨request, .returned (.error e)⟩ hworker
      exact ⟨hcounted.trans (Nat.add_right_cancel hcount).symm, hbounded⟩
  | releases index request result hworker =>
      have hcount := countP_set_eq (fun worker : Worker Query => worker.phase.holdsPermit)
        ⟨request, .released result⟩ hworker
      refine ⟨?_, Nat.le_trans (Nat.sub_le _ _) hbounded⟩
      show s.inFlight - 1 = _
      rw [hcounted]
      exact Nat.sub_eq_of_eq_add hcount.symm
  | finishes index request result hworker =>
      have hcount := countP_set_eq (fun worker : Worker Query => worker.phase.holdsPermit)
        ⟨request, .finished result⟩ hworker
      exact ⟨hcounted.trans (Nat.add_right_cancel hcount).symm, hbounded⟩

theorem permitted_step : (server wire).Preserves Permitted := by
  intro s call henabled h
  cases call with
  | sends request => exact ⟨h.counted, h.bounded⟩
  | closes => exact ⟨h.counted, h.bounded⟩
  | proceeds => exact h.proceeds (proceed_proceeds wire henabled)
  | responds index outcome => exact h.works (responds_works wire henabled)
  | releases index => exact h.works (releases_works wire henabled)
  | finishes index => exact h.works (finishes_works wire henabled)

/-- No more handlers run at a time than there are permits. -/
theorem handling_le {supported : List Capability} {calls : List (ServerCall Query Response)}
    {s : ServerSession Query Response} (hrun : (server wire).Run (start supported) calls s) :
    s.workers.countP (fun worker => worker.phase.isHandling) ≤ maxInFlightRequests := by
  have hpermitted : s.Permitted := hrun.invariant permitted_step ⟨rfl, Nat.zero_le _⟩
  have hmono : s.workers.countP (fun worker => worker.phase.isHandling) ≤
      s.workers.countP fun worker => worker.phase.holdsPermit := by
    refine List.countP_mono_left ?_
    intro worker _ hhandling
    rw [WorkerPhase.holdsPermit, hhandling]
    rfl
  have hbounded := hpermitted.bounded
  rw [hpermitted.counted] at hbounded
  exact Nat.le_trans hmono hbounded

end

/-! ## §4  Runs -/

section

variable {Query Response : Type} {wire : Wire Query Response}

/-- The response a handler's result makes fits a frame. -/
def Fits (wire : Wire Query Response) (s : ServerSession Query Response) :
    ServerCall Query Response → Prop
  | .responds index outcome => ∀ worker, s.workers[index]? = some worker →
      ∃ framed, encodeFrame (wire.encodeResponse
        { requestId := worker.request.requestId, body := bodyOf outcome }) = .ok framed
  | _ => True

/-- The loop's own answers are short: a request id has at most 128 bytes. -/
def RejectionsFit (wire : Wire Query Response) : Prop :=
  ∀ id, validateRequestId id = .ok () → ∀ error, Rejection error →
    ∃ framed, encodeFrame (wire.encodeResponse { requestId := id, body := .error error }) =
      .ok framed

/-- They fit on every wire that writes the envelopes' own texts. -/
theorem rejectionsFit_of_json (response : Response → JsonText)
    (hjson : ∀ envelope, wire.encodeResponse envelope = [(envelope.json response).bytes]) :
    RejectionsFit wire := by
  intro id hid error herror
  have hbytes : Text.byteLength id.toList ≤ 128 := by
    unfold validateRequestId at hid
    split at hid
    · cases hid
    · rename_i hvalid
      simp only [Bool.or_eq_true, not_or] at hvalid
      have hshort : ¬ 128 < Text.byteLength id.toList := fun h => hvalid.1.2 (decide_eq_true h)
      omega
  have hutf8 : (JsonText.utf8 id.toList).length = Text.byteLength id.toList := by
    simp [JsonText.utf8, Text.byteLength, List.length_flatMap]
  have hid := JsonText.length_bytes_string id.toList
  have hbody : ((ResponseBody.error error : ResponseBody Response).json response).bytes.length ≤
      200 := by
    rcases herror with rfl | rfl
    · show (JsonText.record [("type", .text "error"), ("data", unsupported.json)]).bytes.length ≤ _
      decide +kernel
    · show (JsonText.record [("type", .text "error"),
        ("data", RpcError.tooManyRequests.json)]).bytes.length ≤ _
      decide +kernel
  have hlength := ResponseEnvelope.length_json response id (.error error)
  have hstring : JsonText.text id = .string id.toList := rfl
  rw [hstring] at hlength
  refine ⟨_, encodeFrame_ok_iff.mpr ⟨rfl, ?_, ?_⟩⟩
  · rw [hjson, List.flatten_singleton]
    exact List.ne_nil_of_length_pos (by omega)
  · rw [hjson, List.flatten_singleton, hlength]
    unfold maxFrameBytes
    omega

theorem respond_ok_iff (written : List (ResponseEnvelope Response)) {id : String}
    {body : ResponseBody Response} (hid : validateRequestId id = .ok ()) :
    (∃ next, respond wire written id body = .ok next) ↔
      ∃ framed, encodeFrame (wire.encodeResponse { requestId := id, body := body }) =
        .ok framed := by
  have hcreate : ResponseEnvelope.create id body = .ok { requestId := id, body := body } := by
    unfold ResponseEnvelope.create
    rw [hid]
    rfl
  unfold respond
  rw [hcreate]
  simp only
  cases encodeFrame (wire.encodeResponse { requestId := id, body := body }) with
  | error e =>
      constructor
      · rintro ⟨_, h⟩
        cases h
      · rintro ⟨_, h⟩
        cases h
  | ok framed => exact ⟨fun _ => ⟨framed, rfl⟩, fun _ => ⟨_, rfl⟩⟩

def failures (s : ServerSession Query Response) : Nat :=
  s.workers.countP fun worker => worker.phase.failed

/-- A request is without its response exactly when its worker has failed. -/
theorem served_iff {s : ServerSession Query Response} (h : s.Accounted) :
    s.Served ↔ s.Lives ∧ s.failures = 0 := by
  constructor
  · rintro ⟨hlives, hserved⟩
    refine ⟨hlives, List.countP_eq_zero.mpr ?_⟩
    intro worker hworker hfailed
    have hlost : 0 < s.lost worker.request.requestId :=
      List.countP_pos_iff.mpr ⟨worker, hworker, by simp [loses, hfailed, named]⟩
    have htally := h.accounts hlives worker.request.requestId
    have hdistinct := h.distinct worker.request.requestId
    unfold tally at htally
    obtain ⟨request, hrequest, hnamed⟩ := List.countP_pos_iff.mp
      (by omega : 0 < s.sent.countP (named worker.request.requestId))
    have hone := hserved request hrequest
    rw [of_decide_eq_true hnamed] at hone
    omega
  · rintro ⟨hlives, hfailures⟩
    refine ⟨hlives, fun request hrequest => ?_⟩
    have hlost : s.lost request.requestId = 0 := by
      refine List.countP_eq_zero.mpr ?_
      intro worker hworker hloses
      have hnone := List.countP_eq_zero.mp hfailures worker hworker
      simp only [loses, Bool.and_eq_true] at hloses
      exact hnone hloses.1
    have htally := h.accounts hlives request.requestId
    have hdistinct := h.distinct request.requestId
    have hsent : 0 < s.sent.countP (named request.requestId) :=
      List.countP_pos_iff.mpr ⟨request, hrequest, by simp [named]⟩
    unfold tally at htally
    omega

theorem wellFormed_worker {s : ServerSession Query Response} (h : s.Accounted) {index : Nat}
    {worker : Worker Query} (hworker : s.workers[index]? = some worker) :
    validateRequestId worker.request.requestId = .ok () := by
  have hform := List.countP_eq_zero.mp h.workers worker (List.mem_of_getElem? hworker)
  simpa [wellFormed] using hform

theorem failures_proceeds {s t : ServerSession Query Response} (hrejections : RejectionsFit wire)
    (h : s.Accounted) (hlives : s.Lives) (hnone : s.failures = 0) (hstep : Proceeds wire s t) :
    t.Lives ∧ t.failures = 0 := by
  cases hstep with
  | reaps left hloop hleft =>
      refine ⟨nofun, ?_⟩
      have hle := reapFinished_le hleft fun worker => worker.phase.failed
      unfold failures at hnone ⊢
      show left.countP _ = 0
      omega
  | reads request rest hloop hinput => exact ⟨nofun, hnone⟩
  | drains hloop hinput hclosed => exact ⟨nofun, hnone⟩
  | rejects request error hloop => exact ⟨nofun, hnone⟩
  | spawns request hloop hroom =>
      refine ⟨nofun, ?_⟩
      show List.countP _ (s.workers ++ _) = 0
      rw [List.countP_append]
      exact hnone
  | joins request rest hloop hworkers =>
      refine ⟨hlives, ?_⟩
      unfold failures at hnone ⊢
      rw [hworkers, List.countP_cons_of_neg (by simp [WorkerPhase.failed])] at hnone
      exact hnone
  | ends hloop hworkers => exact ⟨nofun, hnone⟩
  | breaks request error e hloop hrejection hfails =>
      have hform : validateRequestId request.requestId = .ok () :=
        of_decide_eq_true (h.admitting request hloop)
      obtain ⟨next, hnext⟩ := (respond_ok_iff s.written hform).mpr
        (hrejections request.requestId hform error hrejection)
      rw [hnext] at hfails
      cases hfails
  | fails e hfailed => exact absurd hnone hfailed

theorem failures_setPhase {s : ServerSession Query Response} {index : Nat}
    {request : RequestEnvelope Query} {phase : WorkerPhase} (next : WorkerPhase)
    (hworker : s.workers[index]? = some ⟨request, phase⟩) :
    (s.setPhase index ⟨request, phase⟩ next).failures + (if phase.failed then 1 else 0) =
      s.failures + (if next.failed then 1 else 0) := by
  have hcount := countP_set_eq (fun worker : Worker Query => worker.phase.failed)
    ⟨request, next⟩ hworker
  rw [List.countP_singleton, List.countP_singleton] at hcount
  exact hcount

theorem failures_works {s t : ServerSession Query Response} {call : ServerCall Query Response}
    (h : s.Accounted) (hnone : s.failures = 0) (hstep : Works wire s call t) :
    t.failures = 0 ↔ Fits wire s call := by
  cases hstep with
  | writes index outcome request hworker hwrites =>
      have hcount := failures_setPhase (.returned (.ok ())) hworker
      rw [hnone] at hcount
      refine ⟨fun _ worker hworker' => ?_, fun _ => hcount⟩
      rw [hworker] at hworker'
      cases hworker'
      exact (respond_ok_iff s.written (wellFormed_worker h hworker)).mp ⟨_, hwrites⟩
  | breaks index outcome request e hworker hfails =>
      have hcount := failures_setPhase (.returned (.error e)) hworker
      rw [hnone] at hcount
      constructor
      · intro hzero
        rw [hzero] at hcount
        cases hcount
      · intro hfits
        obtain ⟨next, hnext⟩ := (respond_ok_iff s.written
          (wellFormed_worker h hworker)).mpr (hfits _ hworker)
        rw [hnext] at hfails
        cases hfails
  | releases index request result hworker =>
      have hcount := failures_setPhase (.released result) hworker
      refine ⟨fun _ => trivial, fun _ => ?_⟩
      show (s.setPhase index ⟨request, .returned result⟩ (.released result)).failures = 0
      rw [hnone] at hcount
      cases result with
      | error e => exact Nat.succ.inj hcount
      | ok _ => exact hcount
  | finishes index request result hworker =>
      have hcount := failures_setPhase (.finished result) hworker
      refine ⟨fun _ => trivial, fun _ => ?_⟩
      rw [hnone] at hcount
      cases result with
      | error e => exact Nat.succ.inj hcount
      | ok _ => exact hcount

/-- A step keeps every request served exactly when the response it writes, if any, fits. -/
theorem served_step (hrejections : RejectionsFit wire) {s : ServerSession Query Response}
    {call : ServerCall Query Response} (henabled : (server wire).enabled s call)
    (h : s.Accounted) (hserved : s.Served) :
    ((server wire).step s call).Served ↔ Fits wire s call := by
  have hnext : ((server wire).step s call).Accounted := accounted_step s call henabled h
  rw [served_iff h] at hserved
  rw [served_iff hnext]
  obtain ⟨hlives, hnone⟩ := hserved
  have hworks : ∀ {t}, Works wire s call t → (t.Lives ∧ t.failures = 0 ↔ Fits wire s call) := by
    intro t hstep
    rw [← failures_works h hnone hstep]
    exact ⟨And.right, fun hzero => ⟨fun e he => hlives e (hstep.loop.symm.trans he), hzero⟩⟩
  cases call with
  | sends request => exact ⟨fun _ => trivial, fun _ => ⟨hlives, hnone⟩⟩
  | closes => exact ⟨fun _ => trivial, fun _ => ⟨hlives, hnone⟩⟩
  | proceeds =>
      exact ⟨fun _ => trivial, fun _ =>
        failures_proceeds hrejections h hlives hnone (proceed_proceeds wire henabled)⟩
  | responds index outcome => exact hworks (responds_works wire henabled)
  | releases index => exact hworks (releases_works wire henabled)
  | finishes index => exact hworks (finishes_works wire henabled)

/-! The server comes to rest. -/

def phaseWork : WorkerPhase → Nat
  | .handling => 4
  | .returned _ => 3
  | .released _ => 2
  | .finished _ => 1

def loopWork : Loop Query → Nat
  | .top => 3
  | .reading => 2
  | .admitting _ => 9
  | .joining => 1
  | .ended _ => 0

def workersWork (workers : List (Worker Query)) : Nat :=
  4 * workers.countP (fun worker => worker.phase.isHandling) +
    3 * workers.countP (fun worker => worker.phase.isReturned) +
    2 * workers.countP (fun worker => worker.phase.isReleased) +
    workers.countP (fun worker => worker.phase.isFinished)

/-- A bound on the steps the server has left without another request. -/
def work (s : ServerSession Query Response) : Nat :=
  10 * s.input.length + loopWork s.loop + workersWork s.workers

theorem workersWork_append (a b : List (Worker Query)) :
    workersWork (a ++ b) = workersWork a + workersWork b := by
  simp only [workersWork, List.countP_append]
  omega

theorem workersWork_singleton (worker : Worker Query) :
    workersWork [worker] = phaseWork worker.phase := by
  obtain ⟨request, phase⟩ := worker
  cases phase <;> rfl

theorem workersWork_set {workers : List (Worker Query)} {index : Nat} {worker : Worker Query}
    (next : Worker Query) (h : workers[index]? = some worker) :
    workersWork (workers.set index next) + phaseWork worker.phase =
      workersWork workers + phaseWork next.phase := by
  rw [← workersWork_singleton worker, ← workersWork_singleton next]
  have hhandling := countP_set_eq (fun worker : Worker Query => worker.phase.isHandling) next h
  have hreturned := countP_set_eq (fun worker : Worker Query => worker.phase.isReturned) next h
  have hreleased := countP_set_eq (fun worker : Worker Query => worker.phase.isReleased) next h
  have hfinished := countP_set_eq (fun worker : Worker Query => worker.phase.isFinished) next h
  unfold workersWork
  omega

theorem work_proceeds {s t : ServerSession Query Response} (hmay : s.mayProceed = true)
    (h : Proceeds wire s t) : t.work < s.work := by
  have hloop : 0 < loopWork s.loop := by
    unfold mayProceed at hmay
    cases hloop : s.loop with
    | ended result =>
        rw [hloop] at hmay
        cases hmay
    | top => exact Nat.succ_pos _
    | reading => exact Nat.succ_pos _
    | admitting request => exact Nat.succ_pos _
    | joining => exact Nat.succ_pos _
  cases h with
  | reaps left hloop hleft =>
      have hhandling := reapFinished_le hleft fun worker => worker.phase.isHandling
      have hreturned := reapFinished_le hleft fun worker => worker.phase.isReturned
      have hreleased := reapFinished_le hleft fun worker => worker.phase.isReleased
      have hfinished := reapFinished_le hleft fun worker => worker.phase.isFinished
      simp only [work, workersWork, hloop, loopWork]
      omega
  | reads request rest hloop hinput =>
      simp only [work, hloop, hinput, loopWork, List.length_cons]
      omega
  | drains hloop hinput hclosed =>
      simp only [work, hloop, loopWork]
      omega
  | rejects request error hloop =>
      simp only [work, hloop, loopWork]
      omega
  | spawns request hloop hroom =>
      simp only [work, hloop, loopWork, workersWork_append, workersWork_singleton, phaseWork]
      omega
  | joins request rest hloop hworkers =>
      have hcons : workersWork s.workers = phaseWork (.finished (.ok ())) + workersWork rest := by
        rw [hworkers, ← List.singleton_append, workersWork_append, workersWork_singleton]
      simp only [work, hcons, phaseWork]
      omega
  | ends hloop hworkers =>
      simp only [work, hloop, loopWork]
      omega
  | breaks request error e hloop hrejection hfails =>
      show 10 * s.input.length + 0 + workersWork s.workers <
        10 * s.input.length + loopWork s.loop + workersWork s.workers
      omega
  | fails e hfailed =>
      show 10 * s.input.length + 0 + workersWork s.workers <
        10 * s.input.length + loopWork s.loop + workersWork s.workers
      omega

theorem work_works {s t : ServerSession Query Response} {call : ServerCall Query Response}
    (h : Works wire s call t) : t.work < s.work := by
  cases h with
  | writes index outcome request hworker hwrites =>
      have hset := workersWork_set ⟨request, .returned (.ok ())⟩ hworker
      simp only [phaseWork] at hset
      simp only [work, setPhase]
      omega
  | breaks index outcome request e hworker hfails =>
      have hset := workersWork_set ⟨request, .returned (.error e)⟩ hworker
      simp only [phaseWork] at hset
      simp only [work, setPhase]
      omega
  | releases index request result hworker =>
      have hset := workersWork_set ⟨request, .released result⟩ hworker
      simp only [phaseWork] at hset
      simp only [work, setPhase]
      omega
  | finishes index request result hworker =>
      have hset := workersWork_set ⟨request, .finished result⟩ hworker
      simp only [phaseWork] at hset
      simp only [work, setPhase]
      omega

theorem work_step {s : ServerSession Query Response} {call : ServerCall Query Response}
    (henabled : (server wire).enabled s call) (hserver : call.byServer = true) :
    ((server wire).step s call).work < s.work := by
  cases call with
  | sends request => cases hserver
  | closes => cases hserver
  | proceeds => exact work_proceeds henabled (proceed_proceeds wire henabled)
  | responds index outcome => exact work_works (responds_works wire henabled)
  | releases index => exact work_works (releases_works wire henabled)
  | finishes index => exact work_works (finishes_works wire henabled)

/-- Without the client the server makes no more steps than it has work. -/
theorem length_le_work {s s' : ServerSession Query Response}
    {calls : List (ServerCall Query Response)} (hrun : (server wire).Run s calls s')
    (hserver : ∀ call ∈ calls, call.byServer = true) : calls.length + s'.work ≤ s.work := by
  induction hrun with
  | nil s => exact Nat.le_of_eq (Nat.zero_add _)
  | cons head tail ih =>
      have hless := work_step head (hserver _ (List.mem_cons_self ..))
      have hrest := ih fun call hcall => hserver call (List.mem_cons_of_mem _ hcall)
      rw [List.length_cons]
      omega

/-- A server that can do nothing more has answered every request. -/
theorem answered_of_stuck (hrejections : RejectionsFit wire) {s : ServerSession Query Response}
    (h : s.Accounted) (hserved : s.Served)
    (hstuck : ∀ call : ServerCall Query Response, call.byServer = true →
      ¬ ((server wire).restrict (Fits wire)).enabled s call) :
    ∀ request ∈ s.sent, s.responses request.requestId = 1 := by
  have hmay : s.mayProceed ≠ true := fun hmay => hstuck .proceeds rfl ⟨hmay, trivial⟩
  have hidle : s.workers.countP (fun worker => worker.phase.isHandling) = 0 := by
    refine List.countP_eq_zero.mpr ?_
    intro worker hworker hhandling
    obtain ⟨index, hindex, hget⟩ := List.getElem_of_mem hworker
    have hworker' : s.workers[index]? = some worker := List.getElem?_eq_some_iff.mpr ⟨hindex, hget⟩
    refine hstuck (.responds index (.error .tooManyRequests)) rfl ⟨?_, ?_⟩
    · show (s.workers[index]?).any _ = true
      rw [hworker']
      exact hhandling
    · intro other hother
      exact hrejections _ (wellFormed_worker h hother) _ (.inr rfl)
  have hquiet : s.input = [] ∧ ∀ request, s.loop ≠ .admitting request := by
    cases hloop : s.loop with
    | top =>
        refine absurd ?_ hmay
        unfold mayProceed
        rw [hloop]
    | reading =>
        refine ⟨?_, nofun⟩
        by_contra hinput
        refine hmay ?_
        unfold mayProceed
        rw [hloop]
        cases hs : s.input with
        | nil => exact absurd hs hinput
        | cons request rest => rfl
    | admitting request =>
        refine absurd ?_ hmay
        unfold mayProceed
        rw [hloop]
    | joining => exact ⟨(h.drained (.inl hloop)).1, nofun⟩
    | ended result =>
        cases result with
        | error e => exact absurd hloop (hserved.1 e)
        | ok _ => exact ⟨(h.drained (.inr hloop)).1, nofun⟩
  intro request hrequest
  have hone := hserved.2 request hrequest
  have hloop : holds s.loop request.requestId = 0 := by
    cases hs : s.loop with
    | admitting request => exact absurd hs (hquiet.2 request)
    | top => rfl
    | reading => rfl
    | joining => rfl
    | ended result => rfl
  have hhandles : s.workers.countP (handles request.requestId) = 0 := by
    refine List.countP_eq_zero.mpr ?_
    intro worker hworker hhandles
    simp only [handles, Bool.and_eq_true] at hhandles
    exact List.countP_eq_zero.mp hidle worker hworker hhandles.1
  unfold pending at hone
  rw [hquiet.1, hloop, hhandles] at hone
  simpa using hone

/-- Every request is served in every state of a run exactly when every response a handler
makes fits a frame. In such a run the server comes to rest by itself, with exactly one
response for each request. -/
theorem one_response_each_iff (wire : Wire Query Response) (hrejections : RejectionsFit wire)
    (supported : List Capability) {calls : List (ServerCall Query Response)}
    {s' : ServerSession Query Response} (hrun : (server wire).Run (start supported) calls s') :
    ((server wire).Throughout Served (start supported) calls ↔
      ((server wire).restrict (Fits wire)).Run (start supported) calls s') ∧
    (((server wire).restrict (Fits wire)).Run (start supported) calls s' →
      ∀ more s'', ((server wire).restrict (Fits wire)).Run s' more s'' →
        (∀ call ∈ more, call.byServer = true) →
          more.length ≤ s'.work ∧
          ((∀ call : ServerCall Query Response, call.byServer = true →
              ¬ ((server wire).restrict (Fits wire)).enabled s'' call) →
            s''.Lives ∧ ∀ request ∈ s''.sent, s''.responses request.requestId = 1)) := by
  have hstart : (start supported : ServerSession Query Response).Served := ⟨nofun, nofun⟩
  have hiff := fun {calls s'} (hrun : (server wire).Run (start supported) calls s') =>
    hrun.throughout_iff accounted_step
      (fun s call henabled h hserved => served_step hrejections henabled h hserved)
      (accounted_start supported) hstart
  refine ⟨hiff hrun, fun hfits more s'' hmore hserver => ⟨?_, fun hstuck => ?_⟩⟩
  · have hlength := length_le_work hmore.of_restrict hserver
    omega
  · have hall := hfits.append hmore
    have hserved : s''.Served :=
      hall.of_restrict.last_of_throughout ((hiff hall.of_restrict).mpr hall)
    have haccounted : s''.Accounted :=
      hall.of_restrict.invariant accounted_step (accounted_start supported)
    exact ⟨hserved.1, answered_of_stuck hrejections haccounted hserved hstuck⟩

end

namespace Fixture

/-- A module of a connector, with a reason of this length. -/
def coverageRow (length : Nat) : JsonText :=
  .record [("connector_type", .text "github"),
    ("connector_version", .text "1.0.0"), ("module", .text "repository"),
    ("level", .text "partial"), ("reason", .string (List.replicate length '0'))]

def coverageSnapshot (length : Nat) : JsonText :=
  .record [
    ("metadata", .record [("schema_version", .nat 1), ("snapshot_version", .text "1"),
      ("generated_at", .text "2026-08-04T00:00:00Z")]),
    ("items", .array [coverageRow length])]

/-- The answer to `list_connector_coverage`. -/
def coverage (length : Nat) : JsonText :=
  .record [("type", .text Capability.listConnectorCoverage.tag),
    ("data", coverageSnapshot length)]

/-- A wire whose only query is `list_connector_coverage`; a response is the length of the
reason. -/
def wire : Wire Capability Nat where
  queryCapability := id
  responseCapability _ := .listConnectorCoverage
  encodeRequest request :=
    [(request.json fun query => .record [("type", .text query.tag)]).bytes]
  encodeResponse envelope := [(envelope.json coverage).bytes]
  decodeResponse _ := none

theorem rejectionsFit : RejectionsFit wire := rejectionsFit_of_json coverage fun _ => rfl

/-- The text is longer than the reason. -/
theorem length_coverage (length : Nat) :
    length ≤ (ResponseBody.json coverage (.query length)).bytes.length := by
  have hreason := JsonText.length_le_bytes_string (List.replicate length '0')
  rw [List.length_replicate] at hreason
  have hrow : (JsonText.string (List.replicate length '0')).write.length ≤
      (coverageRow length).write.length :=
    JsonText.length_write_record (by simp : ("reason", _) ∈ _)
  have hitems : (coverageRow length).write.length ≤
      (JsonText.array [coverageRow length]).write.length :=
    JsonText.length_write_item (List.mem_singleton_self _)
  have hsnapshot : (JsonText.array [coverageRow length]).write.length ≤
      (coverageSnapshot length).write.length :=
    JsonText.length_write_record (by simp : ("items", _) ∈ _)
  have hcoverage : (coverageSnapshot length).write.length ≤ (coverage length).write.length :=
    JsonText.length_write_record (by simp : ("data", _) ∈ _)
  have hbody : (coverage length).write.length ≤
      (ResponseBody.json coverage (.query length)).write.length :=
    JsonText.length_write_record (by simp : ("data", _) ∈ _)
  have hbytes := JsonText.length_le_utf8 (ResponseBody.json coverage (.query length)).write
  unfold JsonText.bytes
  omega

def request (id : String) : RequestEnvelope Capability :=
  { requestId := id, caller := .test "session" none, query := .listConnectorCoverage }

/-- One request, answered with a short reason. -/
def short : List (ServerCall Capability Nat) :=
  [.sends (request "request-0"), .proceeds, .proceeds, .proceeds, .responds 0 (.ok 2)]

/-- The loop has spawned a worker for the first request. -/
def spawned : ServerSession Capability Nat where
  supported := [.listConnectorCoverage]
  input := []
  closed := false
  loop := .top
  workers := [⟨request "request-0", .handling⟩]
  inFlight := 1
  written := []
  sent := [request "request-0"]

end Fixture

open Fixture in
/-- A request whose response fits is served throughout. -/
theorem one_response_each_iff_short :
    (server wire).Throughout Served (start [.listConnectorCoverage]) short := by
  have hrun : ((server wire).restrict (Fits wire)).Run (start [.listConnectorCoverage]) short
      ((server wire).replay (start [.listConnectorCoverage]) short) := by
    refine Machine.run_replay ⟨⟨by decide +kernel, trivial⟩, ⟨by decide +kernel, trivial⟩,
      ⟨by decide +kernel, trivial⟩, ⟨by decide +kernel, trivial⟩, ⟨by decide +kernel, ?_⟩, trivial⟩
    intro worker hworker
    cases hworker
    exact ⟨_, encodeFrame_ok_iff.mpr ⟨rfl, by decide +kernel, by decide +kernel⟩⟩
  exact (one_response_each_iff wire rejectionsFit [.listConnectorCoverage]
    hrun.of_restrict).1.mpr hrun

namespace Fixture

/-- A reason of the limit's length takes the response over it. -/
theorem oversized_fails {length : Nat} (h : maxFrameBytes ≤ length) :
    ∃ e, respond wire [] "request-0" (bodyOf (.ok length)) = .error e := by
  cases hrespond : respond wire [] "request-0" (bodyOf (.ok length)) with
  | error e => exact ⟨e, rfl⟩
  | ok next =>
      have hid : validateRequestId "request-0" = .ok () := by decide +kernel
      obtain ⟨framed, hframed⟩ := (respond_ok_iff [] hid).mp ⟨next, hrespond⟩
      have hfits := (encodeFrame_ok_iff.mp hframed).2.2
      have hbody := length_coverage length
      have hlength := ResponseEnvelope.length_json coverage "request-0" (.query length)
      have htext : (wire.encodeResponse
          { requestId := "request-0", body := bodyOf (.ok length) }).flatten =
            (ResponseEnvelope.json coverage
              { requestId := "request-0", body := .query length }).bytes :=
        List.flatten_singleton
      rw [htext, hlength] at hfits
      omega

/-- The session once the worker of the first request is finished with the error, and the
second request is sent. -/
def broken (e : SessionError) : ServerSession Capability Nat where
  supported := [.listConnectorCoverage]
  input := [request "request-1"]
  closed := false
  loop := .top
  workers := [⟨request "request-0", .finished (.error e)⟩]
  inFlight := 0
  written := []
  sent := [request "request-0", request "request-1"]

/-- A response of this length, and a second request after it. -/
def long (length : Nat) : List (ServerCall Capability Nat) :=
  [.sends (request "request-0"), .proceeds, .proceeds, .proceeds, .responds 0 (.ok length),
    .releases 0, .finishes 0, .sends (request "request-1"), .proceeds]

theorem long_breaks {length : Nat} (h : maxFrameBytes ≤ length) :
    ∃ e, (server wire).Run (start [.listConnectorCoverage]) (long length)
      { broken e with loop := .ended (.error e) } := by
  obtain ⟨e, he⟩ := oversized_fails h
  refine ⟨e, ?_⟩
  have hspawned : (server wire).Run (start [.listConnectorCoverage])
      [.sends (request "request-0"), .proceeds, .proceeds, .proceeds] spawned :=
    Machine.run_replay ⟨by decide +kernel, by decide +kernel, by decide +kernel,
      by decide +kernel, trivial⟩
  have hworker : spawned.workers[0]? = some ⟨request "request-0", .handling⟩ := rfl
  have hstep : (server wire).step spawned (.responds 0 (.ok length)) =
      spawned.setPhase 0 ⟨request "request-0", .handling⟩ (.returned (.error e)) := by
    refine step_breaks hworker ?_
    exact he
  have hfresh : "request-1" ∉ ["request-0"] := by decide +kernel
  have hbroken : (server wire).Run spawned
      [.responds 0 (.ok length), .releases 0, .finishes 0, .sends (request "request-1")]
      (broken e) := by
    refine .cons rfl ?_
    rw [hstep]
    exact .cons rfl (.cons rfl (.cons ⟨rfl, by decide +kernel, hfresh⟩ (.nil _)))
  have hended : (server wire).Run (broken e) [.proceeds]
      { broken e with loop := .ended (.error e) } := .cons rfl (.nil _)
  exact (hspawned.append hbroken).append hended

end Fixture

open Fixture in
/-- The first response does not fit a frame: the session ends with its error, the first
request is not answered, and the second not read. -/
theorem oversized_response_ends_session : ∃ s',
    (server wire).Run (start [.listConnectorCoverage]) (long maxFrameBytes) s' ∧
    ¬ (server wire).Throughout Served (start [.listConnectorCoverage]) (long maxFrameBytes) ∧
    (∃ e, s'.loop = .ended (.error e)) ∧ s'.written = [] ∧
    s'.sent = [request "request-0", request "request-1"] := by
  obtain ⟨e, hrun⟩ := long_breaks (Nat.le_refl maxFrameBytes)
  refine ⟨_, hrun, fun hserved => ?_, ⟨e, rfl⟩, rfl, rfl⟩
  exact (hrun.last_of_throughout hserved).1 e rfl

end ServerSession

end Rpc

end NextInfra
