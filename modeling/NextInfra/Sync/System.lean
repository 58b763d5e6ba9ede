import NextInfra.Lib.Runs
import NextInfra.Sync.Accept
import NextInfra.Sync.Queue

/-!
# The sync system: any number of engines over one store

The store, the queue of each engine, the handles issued so far (a handle may be
cloned and used any number of times) and, for the specification only, the batches
committed so far. A call registers a connection or its secret, starts a run, ends
one through any engine, or recovers interrupted runs.

`finish_cases` says once what a commit or fail call can do: leave the store
alone, or find its engine's queue empty and have its own commit, planned on this
very store, applied. A queued commit is never applied later, because a refused
commit stays refused.
-/

namespace NextInfra

/-! ## §1  The machine -/

structure System where
  store : Store
  queues : Nat → List SyncCommit
  issued : List SyncRunHandle
  committed : List ValidatedBatch

inductive Call
  | connect (connection : Connection)
  | secret (connection : ConnectionId) (secret : List UInt8)
  | start (engine : Nat) (connection : ConnectionId) (start : SyncRunStart)
  | finish (engine : Nat) (call : EngineCall)
  | recover (engine : Nat) (at_ : Timestamp)

def EngineCall.handle : EngineCall → SyncRunHandle
  | .commit handle _ _ => handle
  | .fail handle _ _ => handle

/-- The batch a call commits, if it is a commit call. -/
def EngineCall.batch : EngineCall → List ValidatedBatch
  | .commit _ batch _ => [batch]
  | .fail _ _ _ => []

namespace System

def fresh : System where
  store := Store.fresh
  queues := fun _ => []
  issued := []
  committed := []

def engine (sys : System) (e : Nat) : SyncEngine Store :=
  { store := sys.store, pending := sys.queues e }

def setQueue (queues : Nat → List SyncCommit) (e : Nat) (pending : List SyncCommit) :
    Nat → List SyncCommit :=
  fun i => if i = e then pending else queues i

/-- The batches committed, newest first. -/
def record (result : Except (SyncEngineError StoreError) CommitResult) (call : EngineCall)
    (committed : List ValidatedBatch) : List ValidatedBatch :=
  match result with
  | .ok _ => call.batch ++ committed
  | .error _ => committed

def step (sys : System) : Call → System
  | .connect connection => { sys with store := sys.store.upsertConnection connection }
  | .secret connection secret =>
      match sys.store.upsertConnectionSecret connection secret with
      | .ok store => { sys with store := store }
      | .error _ => sys
  | .start e connection start =>
      match (sys.engine e).start connection start with
      | (.ok handle, engine) =>
          { sys with store := engine.store, issued := handle :: sys.issued }
      | (.error _, _) => sys
  | .finish e call =>
      let (result, engine) := (sys.engine e).call call
      { sys with
        store := engine.store
        queues := setQueue sys.queues e engine.pending
        committed := record result call sys.committed }
  | .recover e at_ => { sys with store := ((sys.engine e).recover at_).2.store }

/-- Runs are ended with handles that were issued. -/
def enabled (sys : System) : Call → Prop
  | .connect _ => True
  | .secret _ _ => True
  | .start _ _ _ => True
  | .finish _ call => call.handle ∈ sys.issued
  | .recover _ _ => True

instance (sys : System) (call : Call) : Decidable (sys.enabled call) := by
  cases call <;> unfold enabled <;> infer_instance

def machine : Machine System Call where
  enabled := enabled
  step := step

instance (sys : System) (call : Call) : Decidable (machine.enabled sys call) :=
  inferInstanceAs (Decidable (sys.enabled call))

/-- Reached from a fresh store by some run. -/
def Reachable (sys : System) : Prop := ∃ calls, machine.Run fresh calls sys

/-! ## §2  The invariant -/

/-- A queue that waits, waits behind a doomed commit. -/
def Blocked (store : Store) (queue : List SyncCommit) : Prop :=
  queue = [] ∨ ∃ head rest, queue = head :: rest ∧ store.Doomed head

structure Sound (sys : System) : Prop where
  identified : sys.store.WellIdentified
  issued : ∀ handle ∈ sys.issued, sys.store.Issued handle ∧ handle.isRunning = true
  queues : ∀ e, Blocked sys.store (sys.queues e)

theorem Blocked.mono {s s' : Store} (hg : s.Grows s') {queue : List SyncCommit}
    (h : Blocked s queue) : Blocked s' queue := by
  rcases h with h | ⟨head, rest, h, hd⟩
  · exact Or.inl h
  · exact Or.inr ⟨head, rest, h, hd.mono hg⟩

/-- The invariant survives a store that grows and stays well-identified. -/
theorem Sound.of_grows {sys : System} (hs : sys.Sound) {store : Store} (hg : sys.store.Grows store)
    (hi : store.WellIdentified) (committed : List ValidatedBatch) :
    ({ sys with store := store, committed := committed } : System).Sound where
  identified := hi
  issued := fun handle hh => ⟨(hs.issued handle hh).1.mono hg, (hs.issued handle hh).2⟩
  queues := fun e => (hs.queues e).mono hg

theorem sound_fresh : fresh.Sound where
  identified := Store.wellIdentified_fresh
  issued := by
    intro handle hh
    cases hh
  queues := fun _ => Or.inl rfl

/-! ## §3  What a call can do -/

theorem planned_fail {s : Store} {handle : SyncRunHandle} {error : DomainError} {at_ : Timestamp}
    {c : SyncCommit} (h : EngineCall.planned s (.fail handle error at_) =
      (.ok c : Except (SyncEngineError StoreError) SyncCommit)) :
    handle.isRunning = true ∧ c = failureCommit handle error at_ := by
  change SyncEngine.plannedFailure handle error at_ = _ at h
  unfold SyncEngine.plannedFailure at h
  by_cases hrun : handle.isRunning = false
  · rw [if_pos hrun] at h
    cases h
  · rw [if_neg hrun] at h
    cases h
    exact ⟨by simpa using hrun, rfl⟩

/-- The planned commit of an issued handle can be offered. -/
theorem offerable_of_planned {s : Store} (hs : s.WellIdentified) {call : EngineCall}
    (hi : s.Issued call.handle) {commit : SyncCommit}
    (hp : call.planned s = (.ok commit : Except (SyncEngineError StoreError) SyncCommit)) :
    s.Offerable commit := by
  cases call with
  | commit handle batch finishedAt =>
      obtain ⟨hc, rfl⟩ := s.plannedCommit_ok_iff.mp hp
      exact Store.offerable_commitOf hs hi hc.endpoints finishedAt
  | fail handle error finishedAt =>
      obtain ⟨_, rfl⟩ := planned_fail hp
      exact Store.offerable_failureCommit hi error finishedAt

/-- What a commit or fail call does to the system. -/
inductive Finishes (sys : System) (e : Nat) (call : EngineCall) : System → Prop
  /-- An error: at most the queue is longer. -/
  | refused (error : SyncEngineError StoreError) (pending : List SyncCommit)
      (result : ((sys.engine e).call call).1 = .error error)
      (blocked : Blocked sys.store pending) :
      Finishes sys e call { sys with queues := setQueue sys.queues e pending }
  /-- Success: the queue was empty and the call's own commit is applied. -/
  | applied (commit : SyncCommit) (r : CommitResult) (store : Store)
      (empty : sys.queues e = [])
      (planned : call.planned sys.store =
        (.ok commit : Except (SyncEngineError StoreError) SyncCommit))
      (offerable : sys.store.Offerable commit)
      (taken : sys.store.commitSync commit = .ok (r, store))
      (result : ((sys.engine e).call call).1 = .ok r) :
      Finishes sys e call { sys with store := store, committed := call.batch ++ sys.committed }

theorem setQueue_self (queues : Nat → List SyncCommit) (e : Nat) :
    setQueue queues e (queues e) = queues := by
  funext i
  unfold setQueue
  split
  · rename_i h
    rw [h]
  · rfl

theorem step_finish (sys : System) (e : Nat) (call : EngineCall) :
    sys.step (.finish e call) =
      { sys with
        store := ((sys.engine e).call call).2.store
        queues := setQueue sys.queues e ((sys.engine e).call call).2.pending
        committed := record ((sys.engine e).call call).1 call sys.committed } := rfl

theorem finish_cases {sys : System} (hs : sys.Sound) {e : Nat} {call : EngineCall}
    (hh : call.handle ∈ sys.issued) : Finishes sys e call (sys.step (.finish e call)) := by
  have hcall := SyncEngine.call_eq (sys.engine e) call
  cases hp : (call.planned (sys.engine e).store :
      Except (SyncEngineError StoreError) SyncCommit) with
  | error error =>
      have hres : (sys.engine e).call call = (.error error, sys.engine e) := by
        rw [hcall, hp]
      have hstep : sys.step (.finish e call) =
          { sys with queues := setQueue sys.queues e (sys.queues e) } := by
        rw [step_finish, hres]
        rfl
      rw [hstep]
      exact .refused error _ (by rw [hres]) (hs.queues e)
  | ok commit =>
      have ho := offerable_of_planned hs.identified (hs.issued _ hh).1 hp
      have hres : (sys.engine e).call call =
          SyncEngine.mapStore ((sys.engine e).submit commit) := by
        rw [hcall, hp]
      rcases hs.queues e with hempty | ⟨head, rest, hq, hdoomed⟩
      · -- the queue is empty: the call's own commit is the only one offered
        have hpend : (sys.engine e).pending = [] := hempty
        have hsubmit := SyncEngine.submit_empty hpend commit
        cases htaken : sys.store.commitSync commit with
        | error cause =>
            have hres' : (sys.engine e).call call =
                (.error (.store cause), { store := sys.store, pending := [commit] }) := by
              rw [hres, hsubmit]
              simp only [StoreWriter.commitSync, engine, htaken]
            have hstep : sys.step (.finish e call) =
                { sys with queues := setQueue sys.queues e [commit] } := by
              rw [step_finish, hres']
              rfl
            rw [hstep]
            refine .refused (.store cause) [commit] (by rw [hres']) (Or.inr ⟨commit, [], rfl, ?_⟩)
            exact Store.doomed_of_refused hs.identified ho htaken
        | ok p =>
            obtain ⟨r, store⟩ := p
            have hres' : (sys.engine e).call call =
                (.ok r, { store := store, pending := [] }) := by
              rw [hres, hsubmit]
              simp only [StoreWriter.commitSync, engine, htaken]
            have hstep : sys.step (.finish e call) =
                { sys with store := store, committed := call.batch ++ sys.committed } := by
              rw [step_finish, hres']
              show { sys with
                store := store
                queues := setQueue sys.queues e []
                committed := call.batch ++ sys.committed } = _
              rw [← hempty, setQueue_self]
            rw [hstep]
            exact .applied commit r store hempty hp ho htaken (by rw [hres'])
      · -- the queue is blocked: the doomed head is offered again and refused
        obtain ⟨cause, hrefused⟩ := hdoomed.refused
        have hblocked := SyncEngine.submit_blocked
          (show (sys.engine e).pending = head :: rest from hq) hrefused commit
        have hres' : (sys.engine e).call call = (.error (.store cause),
            { store := sys.store, pending := sys.queues e ++ [commit] }) := by
          rw [hres, hblocked]
          rfl
        have hstep : sys.step (.finish e call) =
            { sys with queues := setQueue sys.queues e (sys.queues e ++ [commit]) } := by
          rw [step_finish, hres']
          rfl
        rw [hstep]
        exact .refused (.store cause) _ (by rw [hres'])
          (Or.inr ⟨head, rest ++ [commit], by rw [hq]; rfl, hdoomed⟩)

/-- What a start does to the system. -/
inductive Starts (sys : System) (connection : ConnectionId) (start : SyncRunStart) :
    System → Prop
  | refused : Starts sys connection start sys
  | started (store : Store)
      (inserted : sys.store.startSyncRun
        (startedRun connection start (sys.store.syncCursor connection)) = .ok store) :
      Starts sys connection start
        { sys with
          store := store
          issued := { run := startedRun connection start (sys.store.syncCursor connection)
                      scope := start.scope } :: sys.issued }

theorem step_start (sys : System) (e : Nat) (connection : ConnectionId) (start : SyncRunStart) :
    sys.step (.start e connection start) =
      match (sys.engine e).start connection start with
      | (.ok handle, engine) =>
          { sys with store := engine.store, issued := handle :: sys.issued }
      | (.error _, _) => sys := rfl

/-- Starting over the projection store: the cursor read never fails. -/
theorem engine_start (sys : System) (e : Nat) (connection : ConnectionId) (start : SyncRunStart) :
    (sys.engine e).start connection start =
      match sys.store.startSyncRun
        (startedRun connection start (sys.store.syncCursor connection)) with
      | .error cause => (.error (.store cause), sys.engine e)
      | .ok store =>
          (.ok { run := startedRun connection start (sys.store.syncCursor connection)
                 scope := start.scope }, { store := store, pending := sys.queues e }) := by
  cases hins : sys.store.startSyncRun
      (startedRun connection start (sys.store.syncCursor connection)) with
  | error cause =>
      simp only [SyncEngine.start, StoreReader.syncCursor, StoreWriter.startSyncRun, engine, hins]
  | ok store =>
      simp only [SyncEngine.start, StoreReader.syncCursor, StoreWriter.startSyncRun, engine, hins]

theorem start_cases (sys : System) (e : Nat) (connection : ConnectionId) (start : SyncRunStart) :
    Starts sys connection start (sys.step (.start e connection start)) := by
  cases hins : sys.store.startSyncRun
      (startedRun connection start (sys.store.syncCursor connection)) with
  | error cause =>
      have hstep : sys.step (.start e connection start) = sys := by
        rw [step_start, engine_start, hins]
      rw [hstep]
      exact .refused
  | ok store =>
      have hstep : sys.step (.start e connection start) =
          { sys with
            store := store
            issued := { run := startedRun connection start (sys.store.syncCursor connection)
                        scope := start.scope } :: sys.issued } := by
        rw [step_start, engine_start, hins]
      rw [hstep]
      exact .started store hins

theorem step_secret (sys : System) (connection : ConnectionId) (secret : List UInt8) :
    sys.step (.secret connection secret) =
      match sys.store.upsertConnectionSecret connection secret with
      | .ok store => { sys with store := store }
      | .error _ => sys := rfl

/-- A secret touches no other table. -/
theorem secret_eq (sys : System) (connection : ConnectionId) (secret : List UInt8) :
    ∃ secrets, sys.step (.secret connection secret) =
      { sys with store := { sys.store with connectionSecrets := secrets } } := by
  rw [step_secret]
  unfold Store.upsertConnectionSecret
  by_cases hnone : (sys.store.connections.get connection).isNone
  · rw [if_pos hnone]
    exact ⟨sys.store.connectionSecrets, rfl⟩
  · rw [if_neg hnone]
    exact ⟨_, rfl⟩

theorem recover_eq (sys : System) (e : Nat) (at_ : Timestamp) :
    sys.step (.recover e at_) =
      { sys with store := (sys.store.markRunningSyncsInterrupted at_).2 } := rfl

/-! ## §4  The invariant holds -/

theorem sound_preserved : machine.Preserves Sound := by
  intro sys call hen hs
  cases call with
  | connect connection =>
      exact hs.of_grows (sys.store.grows_upsertConnection connection)
        ⟨hs.identified.resources, hs.identified.relations⟩ sys.committed
  | secret connection secret =>
      show (sys.step (.secret connection secret)).Sound
      obtain ⟨secrets, heq⟩ := sys.secret_eq connection secret
      rw [heq]
      exact hs.of_grows (sys.store.grows_secrets secrets)
        ⟨hs.identified.resources, hs.identified.relations⟩ sys.committed
  | start e connection start =>
      show (sys.step (.start e connection start)).Sound
      have hcases := start_cases sys e connection start
      generalize sys.step (.start e connection start) = next at hcases ⊢
      rcases hcases with _ | ⟨store, hins⟩
      · exact hs
      · have hg := Store.grows_startSyncRun hins
        obtain ⟨hnew, hconn, _, rfl⟩ := Store.startSyncRun_ok hins
        have hgrown := hs.of_grows hg ⟨hs.identified.resources, hs.identified.relations⟩
          sys.committed
        refine ⟨hgrown.identified, ?_, hgrown.queues⟩
        intro handle hh
        rcases List.mem_cons.mp hh with rfl | hh'
        · refine ⟨⟨⟨_, ?_, rfl⟩, hconn⟩, rfl⟩
          show (sys.store.syncRuns.put _).get _ = _
          exact KeyedTable.get_put_self _ _
        · exact hgrown.issued handle hh'
  | finish e call =>
      show (sys.step (.finish e call)).Sound
      have hcases := finish_cases hs (e := e) hen
      generalize sys.step (.finish e call) = next at hcases ⊢
      rcases hcases with
        ⟨_, pending, _, hblocked⟩ | ⟨commit, r, store, _, _, ho, htaken, _⟩
      · refine ⟨hs.identified, hs.issued, ?_⟩
        intro i
        show Blocked sys.store (setQueue sys.queues e pending i)
        unfold setQueue
        split
        · exact hblocked
        · exact hs.queues i
      · have heff := Store.commitSync_ok htaken
        exact hs.of_grows (Store.grows_of_effect heff)
          (Store.wellIdentified_of_effect hs.identified ho heff) _
  | recover e at_ =>
      show (sys.step (.recover e at_)).Sound
      rw [recover_eq]
      obtain ⟨revision, heq⟩ := sys.store.markRunningSyncsInterrupted_eq at_
      refine hs.of_grows (sys.store.grows_markRunningSyncsInterrupted at_) ?_ sys.committed
      rw [heq]
      exact ⟨hs.identified.resources, hs.identified.relations⟩

theorem Reachable.sound {sys : System} (h : sys.Reachable) : sys.Sound := by
  obtain ⟨calls, hrun⟩ := h
  exact hrun.invariant sound_preserved sound_fresh

theorem reachable_replay {calls : List Call} (h : machine.Admits fresh calls) :
    (machine.replay fresh calls).Reachable := ⟨calls, Machine.run_replay h⟩

/-! ## §5  What a step does to the projection -/

/-- The tables a commit writes, runs aside, are the same. -/
structure SameProjection (s s' : Store) : Prop where
  resources : s'.resources = s.resources
  resourceVersions : s'.resourceVersions = s.resourceVersions
  relations : s'.relations = s.relations
  relationVersions : s'.relationVersions = s.relationVersions
  changes : s'.changes = s.changes
  connectorState : s'.connectorState = s.connectorState

/-- A step leaves the projection alone, applies a planned commit, or applies a
failure. -/
inductive Moves (sys next : System) : Call → Prop
  | quiet (call : Call) (same : SameProjection sys.store next.store)
      (log : next.committed = sys.committed) : Moves sys next call
  | committed (e : Nat) (handle : SyncRunHandle) (batch : ValidatedBatch) (at_ : Timestamp)
      (r : CommitResult) (empty : sys.queues e = []) (checked : sys.store.Checked handle batch)
      (effect : CommitEffect sys.store (sys.store.commitOf handle batch at_) r next.store)
      (log : next.committed = batch :: sys.committed) :
      Moves sys next (.finish e (.commit handle batch at_))
  | failed (e : Nat) (handle : SyncRunHandle) (error : DomainError) (at_ : Timestamp)
      (r : CommitResult) (empty : sys.queues e = [])
      (effect : CommitEffect sys.store (failureCommit handle error at_) r next.store)
      (log : next.committed = sys.committed) :
      Moves sys next (.finish e (.fail handle error at_))

theorem step_moves {sys : System} (hs : sys.Sound) {call : Call} (hen : sys.enabled call) :
    Moves sys (sys.step call) call := by
  have hsame : SameProjection sys.store sys.store := ⟨rfl, rfl, rfl, rfl, rfl, rfl⟩
  cases call with
  | connect connection => exact .quiet _ ⟨rfl, rfl, rfl, rfl, rfl, rfl⟩ rfl
  | secret connection secret =>
      obtain ⟨secrets, heq⟩ := sys.secret_eq connection secret
      rw [heq]
      exact .quiet _ ⟨rfl, rfl, rfl, rfl, rfl, rfl⟩ rfl
  | start e connection start =>
      have hcases := start_cases sys e connection start
      generalize sys.step (.start e connection start) = next at hcases ⊢
      rcases hcases with _ | ⟨store, hins⟩
      · exact .quiet _ hsame rfl
      · obtain ⟨_, _, _, rfl⟩ := Store.startSyncRun_ok hins
        exact .quiet _ ⟨rfl, rfl, rfl, rfl, rfl, rfl⟩ rfl
  | finish e call =>
      have hcases := finish_cases hs (e := e) hen
      generalize sys.step (.finish e call) = next at hcases ⊢
      rcases hcases with
        ⟨_, pending, _, _⟩ | ⟨commit, r, store, hempty, hplanned, _, htaken, _⟩
      · exact .quiet _ hsame rfl
      · have heff := Store.commitSync_ok htaken
        cases call with
        | commit handle batch at_ =>
            obtain ⟨hchecked, rfl⟩ := sys.store.plannedCommit_ok_iff.mp hplanned
            exact .committed e handle batch at_ r hempty hchecked heff rfl
        | fail handle error at_ =>
            obtain ⟨_, rfl⟩ := planned_fail hplanned
            exact .failed e handle error at_ r hempty heff rfl
  | recover e at_ =>
      rw [recover_eq]
      obtain ⟨revision, heq⟩ := sys.store.markRunningSyncsInterrupted_eq at_
      refine .quiet _ ?_ rfl
      show SameProjection sys.store (sys.store.markRunningSyncsInterrupted at_).2
      rw [heq]
      exact ⟨rfl, rfl, rfl, rfl, rfl, rfl⟩

end System

end NextInfra
