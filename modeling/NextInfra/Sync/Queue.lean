import NextInfra.Sync.Engine

/-!
# What a rejected commit does to the calls after it

The engine over any store that may reject commits. A call that fails its own
checks leaves everything as it was; any other call submits one commit. §2 says
what one submission does; §3 follows a whole run of calls, between which the
store may move for other reasons (runs are started, another engine writes).

The queue is a retry queue: a rejected commit is neither dropped nor overtaken.
-/

namespace NextInfra

/-! ## §1  Calls -/

/-- A call that ends a run. -/
inductive EngineCall
  | commit (handle : SyncRunHandle) (batch : ValidatedBatch) (finishedAt : Timestamp)
  | fail (handle : SyncRunHandle) (error : DomainError) (finishedAt : Timestamp)

section

variable {σ ε : Type} [StoreReader σ ε] [StoreWriter σ ε]

/-- The commit the call submits, or the check it fails. -/
def EngineCall.planned (store : σ) : EngineCall → Except (SyncEngineError ε) SyncCommit
  | .commit handle batch finishedAt => SyncEngine.plannedCommit store handle batch finishedAt
  | .fail handle error finishedAt => SyncEngine.plannedFailure handle error finishedAt

namespace SyncEngine

def call (engine : SyncEngine σ) :
    EngineCall → Except (SyncEngineError ε) CommitResult × SyncEngine σ
  | .commit handle batch finishedAt => engine.commit handle batch finishedAt
  | .fail handle error finishedAt => engine.fail handle error finishedAt

theorem call_eq (engine : SyncEngine σ) (c : EngineCall) :
    engine.call c =
      match c.planned engine.store with
      | .error e => (.error e, engine)
      | .ok commit => mapStore (engine.submit commit) := by
  cases c with
  | commit handle batch finishedAt => rfl
  | fail handle error finishedAt => rfl

end SyncEngine

end

/-! ## §2  One submission -/

section

variable {σ ε : Type} [StoreWriter σ ε]

namespace SyncEngine

/-- The commits a submission gets applied, with the results the store gave. -/
def applied (engine : SyncEngine σ) (commit : SyncCommit) : List (SyncCommit × CommitResult) :=
  RetryQueue.accepted StoreWriter.commitSync engine.store (engine.pending ++ [commit])

/-- The store takes a list of commits, each with the result it gave. -/
abbrev StoreTakes (s : σ) (done : List (SyncCommit × CommitResult)) (s' : σ) : Prop :=
  RetryQueue.Accepts StoreWriter.commitSync s done s'

/-- What a submission did, its last commit `commit` being the caller's own. -/
structure Submitted (engine : SyncEngine σ) (commit : SyncCommit)
    (result : Except (SyncEngineError ε) CommitResult) (engine' : SyncEngine σ) : Prop where
  /-- The commits applied went through the store in order. -/
  taken : StoreTakes engine.store (applied engine commit) engine'.store
  /-- Those applied and those still waiting are the old queue and the new commit. -/
  order : (applied engine commit).map Prod.fst ++ engine'.pending = engine.pending ++ [commit]
  /-- Success returns the store's result for the caller's own commit. -/
  own : ∀ r, result = .ok r → engine'.pending = [] ∧
    ∃ done, applied engine commit = done ++ [(commit, r)]
  /-- Failure returns the store's error for the commit left at the front. -/
  refused : ∀ e, result = .error e → ∃ head rest cause, engine'.pending = head :: rest ∧
    StoreWriter.commitSync engine'.store head = .error cause ∧ e = .store cause

/-- A submission is a drain of the longer queue. -/
theorem submit_eq (engine : SyncEngine σ) (commit : SyncCommit) :
    let drained := RetryQueue.drain StoreWriter.commitSync engine.store
      (engine.pending ++ [commit])
    mapStore (engine.submit commit) =
      (storeRead (drained.1.map fun results => results.getLastD {}),
        { store := drained.2.1, pending := drained.2.2 }) := by
  intro drained
  unfold mapStore WriterQueue.submit WriterQueue.flush WriterQueue.enqueue
  show _ = (storeRead (drained.1.map fun results => results.getLastD {}), _)
  cases hout : drained.1 with
  | error cause => simp [drained, hout, Except.map]
  | ok results => simp [drained, hout, Except.map]

/-- Through an empty queue a submission is one write. -/
theorem submit_empty {engine : SyncEngine σ} (h : engine.pending = []) (commit : SyncCommit) :
    mapStore (engine.submit commit) =
      match StoreWriter.commitSync engine.store commit with
      | .ok (r, store) => (.ok r, { store := store, pending := [] })
      | .error cause => (.error (.store cause), { store := engine.store, pending := [commit] }) := by
  rw [submit_eq]
  simp only [h, List.nil_append]
  cases htaken : StoreWriter.commitSync engine.store commit with
  | error cause =>
      simp only [RetryQueue.drain_cons_error htaken]
      rfl
  | ok p =>
      obtain ⟨r, store⟩ := p
      simp only [RetryQueue.drain_cons_ok htaken]
      rfl

theorem submit_spec (engine : SyncEngine σ) (commit : SyncCommit) :
    Submitted engine commit (mapStore (engine.submit commit)).1
      (mapStore (engine.submit commit)).2 := by
  rw [submit_eq]
  refine ⟨RetryQueue.accepted_accepts engine.store (engine.pending ++ [commit]),
    RetryQueue.accepted_append_left engine.store (engine.pending ++ [commit]), ?_, ?_⟩
  · intro r hr
    cases hout : (RetryQueue.drain StoreWriter.commitSync engine.store
        (engine.pending ++ [commit])).1 with
    | error cause =>
        rw [hout] at hr
        cases hr
    | ok results =>
        rw [hout] at hr
        cases hr
        obtain ⟨hleft, hresults⟩ := RetryQueue.drain_ok hout
        refine ⟨hleft, ?_⟩
        -- everything was applied, so the caller's own commit is the last one
        rw [hresults]
        exact RetryQueue.pairs_end (RetryQueue.accepted_of_ok hout) {}
  · intro e he
    cases hout : (RetryQueue.drain StoreWriter.commitSync engine.store
        (engine.pending ++ [commit])).1 with
    | error cause =>
        rw [hout] at he
        cases he
        obtain ⟨head, rest, hleft, hrej⟩ := RetryQueue.drain_error hout
        exact ⟨head, rest, cause, hleft, hrej, rfl⟩
    | ok results =>
        rw [hout] at he
        cases he

/-- While the store refuses the head, a submission changes nothing but the end
of the queue. -/
theorem submit_blocked {engine : SyncEngine σ} {head : SyncCommit} {rest : List SyncCommit}
    {cause : ε} (hq : engine.pending = head :: rest)
    (hrej : StoreWriter.commitSync engine.store head = .error cause) (commit : SyncCommit) :
    mapStore (engine.submit commit) =
      (.error (.store cause), { engine with pending := engine.pending ++ [commit] }) := by
  rw [submit_eq]
  simp only [hq, List.cons_append, RetryQueue.drain_cons_error hrej]
  rfl

/-- What a new engine makes of a planned commit, or of the check it failed. -/
def offerNew (store : σ) : Except (SyncEngineError ε) SyncCommit →
    Except (SyncEngineError ε) CommitResult × SyncEngine σ
  | .error e => (.error e, .new store)
  | .ok commit =>
      match StoreWriter.commitSync store commit with
      | .ok (r, store') => (.ok r, { store := store', pending := [] })
      | .error cause => (.error (.store cause), { store := store, pending := [commit] })

end SyncEngine

end

section

variable {σ ε : Type} [StoreReader σ ε] [StoreWriter σ ε]

namespace SyncEngine

theorem call_new (store : σ) (c : EngineCall) :
    SyncEngine.call (.new store) c = offerNew store (c.planned store) := by
  rw [call_eq]
  have hstore : (WriterQueue.new store).store = store := rfl
  rw [hstore]
  cases c.planned store with
  | error e => rfl
  | ok commit => exact submit_empty rfl commit

end SyncEngine

end

/-! ## §3  Runs of calls -/

section

variable {σ ε : Type} [StoreReader σ ε] [StoreWriter σ ε]

namespace SyncEngine

/-- A call, or any move of the store that is not this engine's. -/
inductive Event (σ : Type)
  | call (c : EngineCall)
  | storeMoves (store : σ)

/-- The engine with the commits submitted to it and applied by it so far. -/
structure Journal (σ : Type) where
  engine : SyncEngine σ
  submitted : List SyncCommit
  applied : List (SyncCommit × CommitResult)

namespace Journal

def opened (store : σ) : Journal σ := { engine := .new store, submitted := [], applied := [] }

def step (j : Journal σ) : Event σ → Journal σ
  | .storeMoves store => { j with engine := { j.engine with store := store } }
  | .call c =>
      match c.planned j.engine.store with
      | .error _ => { j with engine := (j.engine.call c).2 }
      | .ok commit =>
          { engine := (j.engine.call c).2
            submitted := j.submitted ++ [commit]
            applied := j.applied ++ SyncEngine.applied j.engine commit }

def run (j : Journal σ) (events : List (Event σ)) : Journal σ := events.foldl step j

/-- The commits submitted so far are, in order, those applied and those waiting. -/
def Fifo (j : Journal σ) : Prop := j.submitted = j.applied.map Prod.fst ++ j.engine.pending

theorem step_fifo {j : Journal σ} (h : j.Fifo) (event : Event σ) : (j.step event).Fifo := by
  cases event with
  | storeMoves store => exact h
  | call c =>
      cases hp : c.planned j.engine.store with
      | error e =>
          have hstep : j.step (.call c) = j := by
            simp only [step, hp, call_eq]
          rw [hstep]
          exact h
      | ok commit =>
          have hsub := (submit_spec j.engine commit).order
          have hstep : j.step (.call c) =
              { engine := (mapStore (j.engine.submit commit)).2
                submitted := j.submitted ++ [commit]
                applied := j.applied ++ SyncEngine.applied j.engine commit } := by
            simp only [step, hp, call_eq]
          rw [hstep]
          show j.submitted ++ [commit] = _
          rw [List.map_append, List.append_assoc, hsub, h, List.append_assoc]

theorem run_fifo (store : σ) (events : List (Event σ)) : ((opened store).run events).Fifo := by
  have hall : ∀ (events : List (Event σ)) (j : Journal σ), j.Fifo → (j.run events).Fifo := by
    intro events
    induction events with
    | nil => exact fun _ h => h
    | cons event events ih => exact fun j h => ih (j.step event) (step_fifo h event)
  exact hall events _ rfl

end Journal

/-- After any run, the submitted commits are the applied ones followed by the
waiting ones; a call that fails its own checks touches nothing; any other call
submits one commit, whose fate `Submitted` tells; and while the store refuses
the head every submission is told that refusal and waits behind it. -/
theorem rejected_commit_blocks_in_order (store : σ) (events : List (Event σ)) (c : EngineCall) :
    let j := (Journal.opened store).run events
    j.Fifo ∧
      (∀ e, c.planned j.engine.store = .error e → j.engine.call c = (.error e, j.engine)) ∧
      (∀ commit, c.planned j.engine.store = .ok commit →
        Submitted j.engine commit (j.engine.call c).1 (j.engine.call c).2 ∧
        ∀ head rest cause, j.engine.pending = head :: rest →
          StoreWriter.commitSync j.engine.store head = .error cause →
          j.engine.call c =
            (.error (.store cause), { j.engine with pending := j.engine.pending ++ [commit] })) := by
  intro j
  refine ⟨Journal.run_fifo store events, ?_, ?_⟩
  · intro e hp
    rw [call_eq, hp]
  · intro commit hp
    rw [call_eq, hp]
    refine ⟨submit_spec j.engine commit, ?_⟩
    intro head rest cause hq hrej
    exact submit_blocked hq hrej commit

end SyncEngine

end

/-! ## §4  A blocked queue -/

namespace Fixture

/-- The value of a trimmed text. -/
def text {name : String} (value : String) : StringValue name :=
  if h : Trimmed value then ⟨value, h⟩ else ⟨"x", trimmed_x⟩

/-- The value of a namespaced text. -/
def kind {name : String} (value : String) : NamespacedValue name :=
  if h : IsNamespaced value.toList then ⟨value, h⟩ else ⟨"x.y", by decide⟩

def time (n : Nat) : Timestamp := ⟨min n maxTimestampMillis, Nat.min_le_right _ _⟩

def connection (id : ConnectionId) : Connection where
  connectionId := id
  connectorType := .github
  displayName := id.val
  enabled := true
  config := .object []
  health := .healthy
  lastSuccessAt := none
  lastAttemptAt := none
  configSchemaVersion := nextSchemaVersion
  deletedAt := none

def start (run : SyncRunId) (mode : SyncMode) (scope : Scope) : SyncRunStart where
  syncRunId := run
  mode := mode
  trigger := .user
  scope := scope
  startedAt := time 1
  targetedResources := []

/-- The handle `start` issues to a connection without a cursor. -/
def handle (id : ConnectionId) (run : SyncRunId) (mode : SyncMode) (scope : Scope) : SyncRunHandle where
  run := startedRun id (start run mode scope) none
  scope := scope

def failure : DomainError where
  code := .networkUnreachable
  message := "unreachable"
  retryable := true

/-- One connection with one running run. -/
def oneRunStore : Store :=
  let s := Store.fresh.upsertConnection (connection (text "a"))
  { s with syncRuns := s.syncRuns.put (handle (text "a") (text "r2") .full (text "all")).run }

end Fixture

open Fixture in
/-- A run whose row is gone cannot be failed; from then on the failure of
another run does not reach the store either. -/
theorem rejected_failure_blocks_other_run :
    let engine : SyncEngine Store := .new oneRunStore
    let gone := EngineCall.fail (handle (text "a") (text "r1") .full (text "all")) failure (time 2)
    let other := EngineCall.fail (handle (text "a") (text "r2") .full (text "all")) failure (time 2)
    let blocked := (engine.call gone).2
    (engine.call other).1 = .ok {} ∧
      (blocked.call other).1 =
        .error (.store (.contract "sync run must be started before completion")) ∧
      (blocked.call other).2.store.syncRuns = oneRunStore.syncRuns := by
  refine ⟨rfl, rfl, rfl⟩

end NextInfra
