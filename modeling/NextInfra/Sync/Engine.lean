import NextInfra.Lib.RetryQueue
import NextInfra.Sync.Plan

/-!
# The writer queue and the sync engine

`WriterQueue` drains its commits in order and stops at the first one the store
rejects, which goes back to the front. `SyncEngine` plans a commit and submits
it; `fail` submits an empty one.

Every method returns its result and the engine it leaves, since an error may
still leave the queue longer.
-/

namespace NextInfra

/-! ## §1  The writer queue -/

structure WriterQueue (σ : Type) where
  store : σ
  pending : List SyncCommit

namespace WriterQueue

variable {σ ε : Type} [StoreWriter σ ε]

def new (store : σ) : WriterQueue σ := { store := store, pending := [] }

def enqueue (q : WriterQueue σ) (commit : SyncCommit) : WriterQueue σ :=
  { q with pending := q.pending ++ [commit] }

/-- `while let Some(commit) = pending.pop_front()`; a rejected commit is pushed
back to the front. -/
def flush (q : WriterQueue σ) : Except ε (List CommitResult) × WriterQueue σ :=
  let (outcome, store, pending) := RetryQueue.drain StoreWriter.commitSync q.store q.pending
  (outcome, { store := store, pending := pending })

/-- The last result of the drain is the submitted commit's own. -/
def submit (q : WriterQueue σ) (commit : SyncCommit) : Except ε CommitResult × WriterQueue σ :=
  match (q.enqueue commit).flush with
  | (.error e, q') => (.error e, q')
  | (.ok results, q') => (.ok (results.getLastD {}), q')

end WriterQueue

/-! ## §2  Checks -/

structure SyncRunStart where
  syncRunId : SyncRunId
  mode : SyncMode
  trigger : SyncTrigger
  scope : Scope
  startedAt : Timestamp
  targetedResources : List ResourceLocator
deriving DecidableEq

/-- The caller's copy of the run is still running. -/
def SyncRunHandle.isRunning (handle : SyncRunHandle) : Bool :=
  decide (handle.run.status = .running) && handle.run.finishedAt.isNone

section

variable {ε : Type}

def validateHandle (handle : SyncRunHandle) (connectionId : ConnectionId) (syncRunId : SyncRunId) :
    Except (SyncEngineError ε) Unit :=
  if handle.isRunning = false then .error (.invalidRun "commit requires a running SyncRun")
  else if handle.run.connectionId ≠ connectionId ∨ handle.run.syncRunId ≠ syncRunId then
    .error (.invalidRun "validated batch provenance does not match SyncRun")
  else .ok ()

/-- The scope a coverage names for the run to agree with. -/
def SyncCoverage.namedScope : SyncCoverage → Option Scope
  | .authoritativeFull scope => some scope
  | .partial_ scope _ => scope
  | .incremental _ => none
  | .targeted _ => none

def validateCoverage (handle : SyncRunHandle) (coverage : SyncCoverage) :
    Except (SyncEngineError ε) Unit :=
  if handle.run.mode.accepts coverage = false then
    .error (.domain (.invalidValue "validated coverage is incompatible with SyncRun mode"))
  else
    match coverage.namedScope with
    | some scope =>
        if scope ≠ handle.scope then
          .error (.domain (.invalidValue "validated coverage scope does not match SyncRun scope"))
        else .ok ()
    | none => .ok ()

end

/-- `INITIAL_CURSOR`. -/
def initialCursor : SyncCursor := ⟨"initial", by decide⟩

def initialCoverage (mode : SyncMode) (connectionId : ConnectionId) (scope : Scope)
    (cursorBefore : Option SyncCursor) (targetedResources : List ResourceLocator) : SyncCoverage :=
  match mode with
  | .full => .authoritativeFull scope
  | .incremental => .incremental (cursorBefore.getD initialCursor)
  | .targeted => .targeted (targetedResources.map (stableResourceIdFromLocator connectionId))

/-! ## §3  The engine -/

/-- `SyncEngine` owns nothing but its writer. -/
abbrev SyncEngine (σ : Type) := WriterQueue σ

/-- The run `start` inserts. -/
def startedRun (connection : ConnectionId) (start : SyncRunStart)
    (cursorBefore : Option SyncCursor) : SyncRun :=
  { syncRunId := start.syncRunId
    connectionId := connection
    mode := start.mode
    trigger := start.trigger
    startedAt := start.startedAt
    finishedAt := none
    status := .running
    coverage := initialCoverage start.mode connection start.scope cursorBefore
      start.targetedResources
    cursorBefore := cursorBefore
    cursorAfter := none
    counts := {}
    errors := []
    warnings := [] }

/-- The commit `fail` submits: the run and nothing else, the cursor the one the
handle was started with. -/
def failureCommit (handle : SyncRunHandle) (error : DomainError) (finishedAt : Timestamp) :
    SyncCommit :=
  { syncRun :=
      { handle.run with
        status := .failed
        finishedAt := some finishedAt
        errors := [error]
        warnings := []
        cursorAfter := handle.run.cursorBefore }
    resources := []
    resourceVersions := []
    relations := []
    relationVersions := []
    changes := []
    cursorAfter := handle.run.cursorBefore
    missingEvidence := none }

namespace SyncEngine

variable {σ ε : Type} [StoreReader σ ε] [StoreWriter σ ε]

/-- `.map_err(SyncEngineError::Store)` on a method's result. -/
def mapStore {α : Type} : Except ε α × SyncEngine σ → Except (SyncEngineError ε) α × SyncEngine σ
  | (result, engine) => (storeRead result, engine)

def start (engine : SyncEngine σ) (connection : ConnectionId) (start : SyncRunStart) :
    Except (SyncEngineError ε) SyncRunHandle × SyncEngine σ :=
  match StoreReader.syncCursor engine.store connection with
  | .error e => (.error (.store e), engine)
  | .ok cursorBefore =>
      let run := startedRun connection start cursorBefore
      match StoreWriter.startSyncRun engine.store run with
      | .error e => (.error (.store e), engine)
      | .ok store => (.ok { run := run, scope := start.scope }, { engine with store := store })

/-- The checks and the planning of `commit`, before it touches the queue. -/
def plannedCommit (store : σ) (handle : SyncRunHandle) (batch : ValidatedBatch)
    (finishedAt : Timestamp) : Except (SyncEngineError ε) SyncCommit := do
  validateHandle handle batch.connectionId batch.syncRunId
  validateCoverage handle batch.coverage
  buildCommit store handle batch finishedAt

def commit (engine : SyncEngine σ) (handle : SyncRunHandle) (batch : ValidatedBatch)
    (finishedAt : Timestamp) : Except (SyncEngineError ε) CommitResult × SyncEngine σ :=
  match plannedCommit engine.store handle batch finishedAt with
  | .error e => (.error e, engine)
  | .ok commit => mapStore (engine.submit commit)

/-- The check of `fail`, before it touches the queue. -/
def plannedFailure (handle : SyncRunHandle) (error : DomainError) (finishedAt : Timestamp) :
    Except (SyncEngineError ε) SyncCommit :=
  if handle.isRunning = false then .error (.invalidRun "failed run must still be running")
  else .ok (failureCommit handle error finishedAt)

def fail (engine : SyncEngine σ) (handle : SyncRunHandle) (error : DomainError)
    (finishedAt : Timestamp) : Except (SyncEngineError ε) CommitResult × SyncEngine σ :=
  match plannedFailure handle error finishedAt with
  | .error e => (.error e, engine)
  | .ok commit => mapStore (engine.submit commit)

def recover (engine : SyncEngine σ) (at_ : Timestamp) :
    Except (SyncEngineError ε) Nat × SyncEngine σ :=
  match StoreWriter.markRunningSyncsInterrupted engine.store at_ with
  | .error e => (.error (.store e), engine)
  | .ok (updated, store) => (.ok updated, { engine with store := store })

end SyncEngine

end NextInfra
