import NextInfra.Sync.Absence

/-!
# Ended runs and the cursor

The engine checks the caller's copy of a run, the store updates the stored row by
its id, whatever its status. So a handle that outlives its run can still land a
commit (`lands_iff`), and a failure that lands writes back the cursor its run was
started with.

§2: a run that has ended stays as it is as long as no call lands on an ended run.
§3: when exactly a failure leaves the cursor alone.
-/

namespace NextInfra

namespace System

/-! ## §1  Calls that land -/

/-- The call passes its checks, finds its queue empty and fits the store. -/
def Lands (sys : System) (e : Nat) (call : EngineCall) : Prop :=
  sys.queues e = [] ∧ ∃ commit,
    call.planned sys.store = (.ok commit : Except (SyncEngineError StoreError) SyncCommit) ∧
      sys.store.Fitting commit

/-- The calls that return success are those that land. -/
theorem lands_iff {sys : System} (hs : sys.Sound) {e : Nat} {call : EngineCall}
    (hh : call.handle ∈ sys.issued) :
    (∃ r, ((sys.engine e).call call).1 = .ok r) ↔ sys.Lands e call := by
  constructor
  · rintro ⟨r, hr⟩
    have hcases := finish_cases hs (e := e) hh
    generalize sys.step (.finish e call) = next at hcases
    rcases hcases with ⟨error, _, hres, _⟩ | ⟨commit, _, _, hempty, hplanned, _, htaken, _⟩
    · rw [hr] at hres
      cases hres
    · exact ⟨hempty, commit, hplanned, Store.fitting_of_ok htaken⟩
  · rintro ⟨hempty, commit, hplanned, hfit⟩
    have ho := offerable_of_planned hs.identified (hs.issued _ hh).1 hplanned
    obtain ⟨r, store, htaken⟩ := Store.commitSync_of_fitting hs.identified ho hfit
    refine ⟨r, ?_⟩
    have hpend : (sys.engine e).pending = [] := hempty
    have hplanned' : call.planned (sys.engine e).store =
        (.ok commit : Except (SyncEngineError StoreError) SyncCommit) := hplanned
    rw [SyncEngine.call_eq, hplanned']
    show (SyncEngine.mapStore ((sys.engine e).submit commit)).1 = _
    rw [SyncEngine.submit_empty hpend]
    simp only [StoreWriter.commitSync, engine, htaken]

/-- A call that does not land leaves the store alone. -/
theorem store_of_not_lands {sys : System} (hs : sys.Sound) {e : Nat} {call : EngineCall}
    (hh : call.handle ∈ sys.issued) (hnot : ¬ sys.Lands e call) :
    (sys.step (.finish e call)).store = sys.store := by
  have hcases := finish_cases hs (e := e) hh
  generalize sys.step (.finish e call) = next at hcases ⊢
  rcases hcases with ⟨_, _, _, _⟩ | ⟨commit, _, _, hempty, hplanned, _, htaken, _⟩
  · rfl
  · exact absurd ⟨hempty, commit, hplanned, Store.fitting_of_ok htaken⟩ hnot

/-- A call that lands replaces the stored row of its run, whatever it was. -/
theorem run_of_lands {sys : System} (hs : sys.Sound) {e : Nat} {call : EngineCall}
    (hh : call.handle ∈ sys.issued) (hlands : sys.Lands e call) {id : SyncRunId} {row : SyncRun}
    (hrow : sys.store.getSyncRun id = some row) :
    ∃ commit, call.planned sys.store =
        (.ok commit : Except (SyncEngineError StoreError) SyncCommit) ∧
      commit.syncRun.syncRunId = call.handle.run.syncRunId ∧
      (sys.step (.finish e call)).store.getSyncRun id =
        if id = call.handle.run.syncRunId then some (Store.completedRow row commit.syncRun)
        else some row := by
  have hcases := finish_cases hs (e := e) hh
  obtain ⟨r, hr⟩ := (lands_iff hs hh).mpr hlands
  generalize sys.step (.finish e call) = next at hcases ⊢
  rcases hcases with ⟨error, _, hres, _⟩ | ⟨commit, _, store, hempty, hplanned, _, htaken, _⟩
  · rw [hr] at hres
    cases hres
  · have hid : commit.syncRun.syncRunId = call.handle.run.syncRunId := by
      cases call with
      | commit handle batch finishedAt =>
          obtain ⟨_, rfl⟩ := sys.store.plannedCommit_ok_iff.mp hplanned
          rfl
      | fail handle error finishedAt =>
          obtain ⟨_, rfl⟩ := planned_fail hplanned
          rfl
    refine ⟨commit, hplanned, hid, ?_⟩
    obtain ⟨stored, hstored, _, hruns⟩ := (Store.commitSync_ok htaken).started
    have hkey : stored.syncRunId = commit.syncRun.syncRunId := KeyedTable.key_of_get hstored
    show store.syncRuns.get id = _
    rw [hruns, KeyedTable.get_put]
    show (if id = stored.syncRunId then _ else sys.store.syncRuns.get id) = _
    rw [hkey, hid]
    by_cases heq : id = call.handle.run.syncRunId
    · rw [if_pos heq, if_pos heq]
      rw [hid, ← heq] at hstored
      have hrow' : sys.store.syncRuns.get id = some row := hrow
      rw [hrow'] at hstored
      rw [Option.some.inj hstored]
    · rw [if_neg heq, if_neg heq]
      exact hrow

/-! ## §2  Ended runs -/

/-- A commit or fail call lands only while its run is stored as running. -/
def Timely (sys : System) : Call → Prop
  | .connect _ => True
  | .secret _ _ => True
  | .start _ _ _ => True
  | .finish e call => sys.Lands e call →
      ∃ row, sys.store.getSyncRun call.handle.run.syncRunId = some row ∧ row.status = .running
  | .recover _ _ => True

/-- A call that lands on no commit or failure of a run keeps its row; a recovery
does when the run has ended. -/
theorem row_kept {sys : System} (hs : sys.Sound) {call : Call} (hen : sys.enabled call)
    {id : SyncRunId} {row : SyncRun} (hrow : sys.store.getSyncRun id = some row)
    (hother : ∀ e c, call = .finish e c → sys.Lands e c → c.handle.run.syncRunId ≠ id)
    (hrecover : ∀ e at_, call = .recover e at_ → row.status ≠ .running) :
    (sys.step call).store.getSyncRun id = some row := by
  cases call with
  | connect connection => exact hrow
  | secret connection secret =>
      obtain ⟨secrets, heq⟩ := sys.secret_eq connection secret
      rw [heq]
      exact hrow
  | start e connection start =>
      have hcases := start_cases sys e connection start
      generalize sys.step (.start e connection start) = next at hcases ⊢
      rcases hcases with _ | ⟨store, hins⟩
      · exact hrow
      · -- the primary key keeps a second run from taking the id
        obtain ⟨hnew, _, _, rfl⟩ := Store.startSyncRun_ok hins
        show (sys.store.syncRuns.put _).get id = some row
        rw [KeyedTable.get_put_ne]
        · exact hrow
        · rintro rfl
          have hrow' : sys.store.syncRuns.get _ = some row := hrow
          rw [hnew] at hrow'
          cases hrow'
  | finish e call =>
      by_cases hlands : sys.Lands e call
      · obtain ⟨commit, _, _, hafter⟩ := run_of_lands hs hen hlands hrow
        rw [hafter, if_neg]
        intro h
        exact hother e call rfl hlands h.symm
      · rw [store_of_not_lands hs hen hlands]
        exact hrow
  | recover e at_ =>
      rw [recover_eq]
      obtain ⟨revision, heq⟩ := sys.store.markRunningSyncsInterrupted_eq at_
      show (sys.store.markRunningSyncsInterrupted at_).2.syncRuns.get id = some row
      have hrow' : sys.store.syncRuns.get id = some row := hrow
      rw [heq]
      show (sys.store.syncRuns.update (Store.interruptedRow at_)
        (Store.interruptedRow_id at_)).get id = some row
      rw [KeyedTable.get_update, hrow']
      show some (Store.interruptedRow at_ row) = some row
      unfold Store.interruptedRow
      rw [if_neg (hrecover e at_ rfl)]

/-- One timely step keeps the row of a run that has ended. -/
theorem ended_step {sys : System} (hs : sys.Sound) {call : Call} (hen : sys.enabled call)
    (htimely : sys.Timely call) {id : SyncRunId} {row : SyncRun}
    (hrow : sys.store.getSyncRun id = some row) (hended : row.status ≠ .running) :
    (sys.step call).store.getSyncRun id = some row := by
  apply row_kept hs hen hrow
  · rintro e c rfl hlands rfl
    obtain ⟨stored, hstored, hrunning⟩ := htimely hlands
    rw [hrow] at hstored
    cases hstored
    exact hended hrunning
  · intro _ _ _
    exact hended

/-- In a run of timely calls, a run that has ended keeps its row, and no later
commit or fail call of that run changes anything in the store. -/
theorem ended_run_final_while_calls_timely {sys sys' : System} {calls : List Call}
    (hr : sys.Reachable) (hrun : (machine.restrict Timely).Run sys calls sys') {id : SyncRunId}
    {row : SyncRun} (hrow : sys.store.getSyncRun id = some row) (hended : row.status ≠ .running) :
    sys'.store.getSyncRun id = some row ∧
      ∀ e call, sys'.enabled (.finish e call) → sys'.Timely (.finish e call) →
        call.handle.run.syncRunId = id → (sys'.step (.finish e call)).store = sys'.store := by
  have hinv : sys'.Sound ∧ sys'.store.getSyncRun id = some row := by
    refine hrun.invariant (P := fun s => s.Sound ∧ s.store.getSyncRun id = some row) ?_
      ⟨hr.sound, hrow⟩
    rintro s call ⟨hen, htimely⟩ ⟨hs, hget⟩
    exact ⟨sound_preserved s call hen hs, ended_step hs hen htimely hget hended⟩
  obtain ⟨hs', hrow'⟩ := hinv
  refine ⟨hrow', ?_⟩
  rintro e call hen htimely rfl
  apply store_of_not_lands hs' hen
  intro hlands
  obtain ⟨stored, hstored, hrunning⟩ := htimely hlands
  rw [hrow'] at hstored
  cases hstored
  exact hended hrunning

end System

namespace Fixture

/-- A run started, then interrupted by a recovery, its handle still around. -/
def interrupted : System :=
  System.machine.replay .fresh
    [.connect (connection (text "a")), .start 0 (text "a") (start (text "r1") .full (text "all")),
      .recover 0 (time 3)]

theorem interrupted_reachable : interrupted.Reachable := System.reachable_replay (by decide)

def lateCommit : Call :=
  .finish 0 (.commit (handle (text "a") (text "r1") .full (text "all"))
    (batch (text "r1") (.authoritativeFull (text "all")) [observed (text "x")]) (time 2))

def laterStart : Call := .start 0 (text "a") (start (text "r2") .full (text "all"))

/-- The run of the later start is still running when it is committed. -/
def laterCommit : Call :=
  .finish 0 (.commit (handle (text "a") (text "r2") .full (text "all"))
    (batch (text "r2") (.authoritativeFull (text "all")) [observed (text "y")]) (time 4))

def committedLater : System := (interrupted.step laterStart).step laterCommit

end Fixture

namespace System

open Fixture in
/-- The commit of an interrupted run lands: the run has succeeded after all, and
its resource is stored. -/
theorem commit_after_recovery_lands :
    interrupted.Reachable ∧ interrupted.enabled lateCommit ∧
      (interrupted.store.getSyncRun (text "r1")).map SyncRun.status = some .interrupted ∧
      ((interrupted.step lateCommit).store.getSyncRun (text "r1")).map SyncRun.status =
        some .succeeded ∧
      interrupted.store.getResource vm = none ∧
      ((interrupted.step lateCommit).store.getResource vm).isSome = true :=
  ⟨interrupted_reachable, by decide, rfl, rfl, rfl, rfl⟩

open Fixture in
/-- Another run starts and is committed after the recovery; the interrupted one stays
as it is. -/
theorem ended_run_final_while_calls_timely_interrupted :
    (committedLater.store.getSyncRun (text "r2")).map SyncRun.status = some .succeeded ∧
      ∃ row, interrupted.store.getSyncRun (text "r1") = some row ∧
        (committedLater.store.getSyncRun (text "r1") = some row ∧
          ∀ e call, committedLater.enabled (.finish e call) →
            committedLater.Timely (.finish e call) → call.handle.run.syncRunId = text "r1" →
              (committedLater.step (.finish e call)).store = committedLater.store) := by
  refine ⟨rfl, ?_⟩
  have hstatus : (interrupted.store.getSyncRun (text "r1")).map SyncRun.status =
      some .interrupted := rfl
  obtain ⟨row, hrow, hinterrupted⟩ := Option.map_eq_some_iff.mp hstatus
  refine ⟨row, hrow, ?_⟩
  have hstart : (machine.restrict Timely).enabled interrupted laterStart :=
    ⟨show True from trivial, trivial⟩
  have hcommit : (machine.restrict Timely).enabled (interrupted.step laterStart) laterCommit :=
    ⟨by decide, fun _ => ⟨_, rfl, rfl⟩⟩
  have hrun : (machine.restrict Timely).Run interrupted [laterStart, laterCommit] committedLater :=
    .cons hstart (.cons hcommit (.nil _))
  exact ended_run_final_while_calls_timely interrupted_reachable hrun hrow
    (by rw [hinterrupted]; decide)

/-! ## §3  The cursor -/

/-- A failure that lands writes the cursor its run was started with; one that
does not land writes nothing. -/
theorem cursor_of_fail {sys : System} (hs : sys.Sound) {e : Nat} {handle : SyncRunHandle}
    {error : DomainError} {at_ : Timestamp} (hh : handle ∈ sys.issued) :
    (sys.step (.finish e (.fail handle error at_))).store.syncCursor handle.run.connectionId =
      if sys.queues e = [] then handle.run.cursorBefore
      else sys.store.syncCursor handle.run.connectionId := by
  have hcases := finish_cases hs (e := e)
    (show (EngineCall.fail handle error at_).handle ∈ sys.issued from hh)
  have hplan : EngineCall.planned sys.store (.fail handle error at_) =
      (.ok (failureCommit handle error at_) :
        Except (SyncEngineError StoreError) SyncCommit) := by
    show SyncEngine.plannedFailure handle error at_ = _
    unfold SyncEngine.plannedFailure
    rw [(hs.issued handle hh).2]
    rfl
  have hlands : sys.queues e = [] → sys.Lands e (.fail handle error at_) := fun hempty =>
    ⟨hempty, _, hplan, Store.fitting_failureCommit sys.store handle error at_⟩
  by_cases hempty : sys.queues e = []
  · rw [if_pos hempty]
    obtain ⟨r, hr⟩ :=
      (lands_iff hs (show (EngineCall.fail handle error at_).handle ∈ sys.issued from hh)).mpr
        (hlands hempty)
    generalize sys.step (.finish e (.fail handle error at_)) = next at hcases ⊢
    rcases hcases with ⟨error', _, hres, _⟩ | ⟨commit, _, store, _, hplanned, _, htaken, _⟩
    · rw [hr] at hres
      cases hres
    · obtain ⟨_, rfl⟩ := planned_fail hplanned
      show (store.connectorState.get handle.run.connectionId).bind _ = _
      rw [(Store.commitSync_ok htaken).connectorState]
      show ((sys.store.connectorState.put _).get
        (failureCommit handle error at_).syncRun.connectionId).bind _ = _
      rw [KeyedTable.get_put, if_pos rfl]
      rfl
  · rw [if_neg hempty,
      store_of_not_lands hs (show (EngineCall.fail handle error at_).handle ∈ sys.issued from hh)
        (fun hl => hempty hl.1)]

/-- A failure leaves the cursor as it was iff it waits behind a refused commit or
the cursor is still the one its run was started with. -/
theorem fail_keeps_cursor_iff {sys : System} (hr : sys.Reachable) {e : Nat}
    {handle : SyncRunHandle} {error : DomainError} {at_ : Timestamp}
    (hen : sys.enabled (.finish e (.fail handle error at_))) :
    (sys.step (.finish e (.fail handle error at_))).store.syncCursor handle.run.connectionId =
        sys.store.syncCursor handle.run.connectionId ↔
      sys.queues e ≠ [] ∨
        sys.store.syncCursor handle.run.connectionId = handle.run.cursorBefore := by
  have hissued : handle ∈ sys.issued := hen
  rw [cursor_of_fail hr.sound hissued]
  by_cases hempty : sys.queues e = []
  · rw [if_pos hempty]
    simp only [hempty, ne_eq, not_true_eq_false, false_or]
    exact eq_comm
  · rw [if_neg hempty]
    simp [hempty]

end System

namespace Fixture

/-- Two runs overlap; the second has committed a new cursor. -/
def overlapping : System :=
  System.machine.replay .fresh
    [.connect (connection (text "a")), .start 0 (text "a") (start (text "r1") .full (text "all")),
      .start 0 (text "a") (start (text "r2") .full (text "all")),
      .finish 0 (.commit (handle (text "a") (text "r2") .full (text "all"))
        { batch (text "r2") (.authoritativeFull (text "all")) [] with nextCursor := some (text "c") }
        (time 2))]

def firstFails : Call :=
  .finish 0 (.fail (handle (text "a") (text "r1") .full (text "all")) failure (time 3))

theorem overlapping_reachable : overlapping.Reachable := System.reachable_replay (by decide)

end Fixture

namespace System

open Fixture in
/-- The first run fails after the second has committed: the cursor is lost. -/
theorem fail_rewinds_cursor :
    overlapping.Reachable ∧ overlapping.enabled firstFails ∧
      overlapping.store.syncCursor (text "a") = some (text "c") ∧
      (overlapping.step firstFails).store.syncCursor (text "a") = none :=
  ⟨overlapping_reachable, by decide, rfl, rfl⟩

open Fixture in
theorem fail_keeps_cursor_iff_overlapping :
    (overlapping.step firstFails).store.syncCursor (text "a") =
        overlapping.store.syncCursor (text "a") ↔
      overlapping.queues 0 ≠ [] ∨ overlapping.store.syncCursor (text "a") = none :=
  fail_keeps_cursor_iff overlapping_reachable (by decide)

end System

end NextInfra
