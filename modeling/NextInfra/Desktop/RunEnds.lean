import NextInfra.Desktop.Sync
import NextInfra.Sync.Collisions

/-!
# Does a started run end?

A sync function asks its connector between two store accesses; meanwhile other
tasks start, end and save what they like. When the function returns, its run has
succeeded, is partial or has failed iff the clock could be read and the data, if
there was any to commit, could be committed (`run_ended_iff`): a refused commit is
not followed by a failure, so its run stays stored as running.
-/

namespace NextInfra

/-! ## §1  A call through a new engine -/

namespace System

/-- The same system with every queue empty, so that any engine is a new one. -/
theorem Sound.unqueued {sys : System} (hs : sys.Sound) :
    ({ sys with queues := fun _ => [] } : System).Sound where
  identified := hs.identified
  issued := hs.issued
  queues := fun _ => Or.inl rfl

/-- The call's commit passes the engine's checks and fits the store. -/
def Accepted (sys : System) (call : EngineCall) : Prop :=
  ∃ commit, call.planned sys.store = (.ok commit : Except (SyncEngineError StoreError) SyncCommit) ∧
    sys.store.Fitting commit

/-- Through a new engine an accepted call completes the row of its run, any other
leaves the store alone. -/
theorem call_new_row {sys : System} (hs : sys.Sound) {call : EngineCall}
    (hh : call.handle ∈ sys.issued) {row : SyncRun}
    (hrow : sys.store.getSyncRun call.handle.run.syncRunId = some row) :
    (sys.Accepted call ∧ ∃ r engine commit, SyncEngine.call (.new sys.store) call = (.ok r, engine) ∧
        call.planned sys.store = (.ok commit : Except (SyncEngineError StoreError) SyncCommit) ∧
        engine.store.getSyncRun call.handle.run.syncRunId =
          some (Store.completedRow row commit.syncRun)) ∨
      (¬ sys.Accepted call ∧ ∃ e engine, SyncEngine.call (.new sys.store) call = (.error e, engine) ∧
        engine.store = sys.store) := by
  have hs' := hs.unqueued
  have hiff := lands_iff hs' (e := 0) hh
  by_cases hacc : sys.Accepted call
  · left
    refine ⟨hacc, ?_⟩
    have hlands : ({ sys with queues := fun _ => [] } : System).Lands 0 call := ⟨rfl, hacc⟩
    obtain ⟨r, hr⟩ := hiff.mpr hlands
    obtain ⟨commit, hplanned, _, hafter⟩ := run_of_lands hs' hh hlands hrow
    rw [if_pos rfl] at hafter
    exact ⟨r, _, commit, Prod.ext hr rfl, hplanned, hafter⟩
  · right
    refine ⟨hacc, ?_⟩
    have hnot : ¬ ({ sys with queues := fun _ => [] } : System).Lands 0 call := fun h => hacc h.2
    have hstore := store_of_not_lands hs' (e := 0) hh hnot
    cases hres : (SyncEngine.call (.new sys.store) call).1 with
    | ok r => exact absurd (hiff.mp ⟨r, hres⟩) hnot
    | error e => exact ⟨e, _, Prod.ext hres rfl, hstore⟩

/-- A failure is always accepted. -/
theorem accepted_fail {sys : System} (hs : sys.Sound) {handle : SyncRunHandle}
    (hh : handle ∈ sys.issued) (error : DomainError) (at_ : Timestamp) :
    sys.Accepted (.fail handle error at_) := by
  refine ⟨failureCommit handle error at_, ?_, Store.fitting_failureCommit sys.store handle error at_⟩
  show SyncEngine.plannedFailure handle error at_ = _
  unfold SyncEngine.plannedFailure
  rw [(hs.issued handle hh).2]
  rfl

/-- A commit is accepted iff its batch passes the checks and its keys are apart. -/
theorem accepted_commit_iff {sys : System} (hs : sys.Sound) {handle : SyncRunHandle}
    (hh : handle ∈ sys.issued) {batch : ValidatedBatch} (hwf : batch.WellFormed) (at_ : Timestamp) :
    sys.Accepted (.commit handle batch at_) ↔
      sys.store.Checked handle batch ∧ sys.store.KeysApart batch := by
  have hi := (hs.issued handle hh).1
  have hfits : sys.store.Checked handle batch →
      (sys.store.Fitting (sys.store.commitOf handle batch at_) ↔ sys.store.KeysApart batch) := by
    intro hchecked
    rw [← Store.commitOf_accepted_iff hs.identified hi hchecked hwf,
      Store.commitSync_accepts_iff hs.identified
        (Store.offerable_commitOf hs.identified hi hchecked.endpoints at_)]
  constructor
  · rintro ⟨commit, hplanned, hfit⟩
    obtain ⟨hchecked, rfl⟩ := sys.store.plannedCommit_ok_iff.mp hplanned
    exact ⟨hchecked, (hfits hchecked).mp hfit⟩
  · rintro ⟨hchecked, hapart⟩
    exact ⟨_, sys.store.plannedCommit_ok_iff.mpr ⟨hchecked, rfl⟩, (hfits hchecked).mpr hapart⟩

/-- Calls of other tasks: no call ends this run, and the recovery is only called
before any task is there. -/
def Others (id : SyncRunId) (_ : System) : Call → Prop
  | .connect _ => True
  | .secret _ _ => True
  | .start _ _ _ => True
  | .finish _ call => call.handle.run.syncRunId ≠ id
  | .recover _ _ => False

/-- Other tasks keep the row of a run. -/
theorem row_kept_by_others {sys sys' : System} (hs : sys.Sound) {id : SyncRunId} {calls : List Call}
    (hrun : (machine.restrict (Others id)).Run sys calls sys') {row : SyncRun}
    (hrow : sys.store.getSyncRun id = some row) :
    sys'.Sound ∧ sys'.store.getSyncRun id = some row := by
  refine hrun.invariant (P := fun s => s.Sound ∧ s.store.getSyncRun id = some row) ?_ ⟨hs, hrow⟩
  rintro s call ⟨hen, hother⟩ ⟨hs, hrow⟩
  refine ⟨sound_preserved s call hen hs, row_kept hs hen hrow ?_ ?_⟩
  · rintro e c rfl _
    exact hother
  · rintro e at_ rfl
    exact absurd hother not_false

/-- A task never takes a handle back. -/
theorem issued_kept {sys sys' : System} {calls : List Call} {m : System → Call → Prop}
    (hrun : (machine.restrict m).Run sys calls sys') {handle : SyncRunHandle}
    (hh : handle ∈ sys.issued) : handle ∈ sys'.issued := by
  refine hrun.invariant (P := fun s => handle ∈ s.issued) ?_ hh
  rintro s call _ hmem
  show handle ∈ (s.step call).issued
  cases call with
  | connect connection => exact hmem
  | secret connection secret =>
      obtain ⟨secrets, heq⟩ := s.secret_eq connection secret
      rw [heq]
      exact hmem
  | start e connection start =>
      have hcases := start_cases s e connection start
      generalize s.step (.start e connection start) = next at hcases ⊢
      rcases hcases with _ | ⟨store, _⟩
      · exact hmem
      · exact List.mem_cons_of_mem _ hmem
  | finish e call => exact hmem
  | recover e at_ => exact hmem

end System

/-! ## §2  A started run -/

namespace Provider

variable {p : Provider} {env : SyncEnv}

theorem attempt_ok {connection noted : Connection} {startedAt : Timestamp} {s s' : Store}
    (h : p.attempt env connection s = (.ok (noted, startedAt), s')) :
    noted = { connection with lastAttemptAt := some startedAt } ∧ s' = s.upsertConnection noted := by
  unfold attempt at h
  cases hclock : env.startedAt with
  | none =>
      rw [hclock] at h
      cases h
  | some t =>
      rw [hclock] at h
      cases h
      exact ⟨rfl, rfl⟩

theorem prepare_ok {connection : Connection} {startedAt : Timestamp} {s : Store}
    {prepared : Prepared} (h : p.prepare env connection startedAt s = .ok prepared) :
    ∃ scope, prepared.connection = connection ∧ prepared.startedAt = startedAt ∧
      prepared.request = p.request env connection scope := by
  unfold prepare at h
  obtain ⟨_, _, h⟩ := bind_ok h
  obtain ⟨scope, _, h⟩ := bind_ok h
  obtain ⟨⟨_, _⟩, _, h⟩ := bind_ok h
  obtain ⟨_, _, h⟩ := bind_ok h
  cases h
  exact ⟨scope, rfl, rfl, rfl⟩

/-- Copying a credential is at most one call. -/
theorem backfill_run (prepared : Prepared) (sys : System) :
    ∃ calls, System.machine.Run sys calls { sys with store := backfill prepared sys.store } := by
  unfold backfill
  cases prepared.backfill with
  | none => exact ⟨[], .nil sys⟩
  | some secret =>
      cases hput : sys.store.upsertConnectionSecret prepared.connection.connectionId secret with
      | error e =>
          simp only [hput]
          exact ⟨[], .nil sys⟩
      | ok s' =>
          simp only [hput]
          have hstep : sys.step (.secret prepared.connection.connectionId secret) =
              { sys with store := s' } := by
            rw [System.step_secret, hput]
          rw [← hstep]
          exact ⟨[.secret prepared.connection.connectionId secret], .single trivial⟩

/-- The handle of a started run, and the call that started it. -/
theorem start_ok {prepared : Prepared} {handle : SyncRunHandle} {sys : System} {s' : Store}
    (h : p.start env prepared sys.store = (.ok handle, s')) :
    handle.run = startedRun prepared.connection.connectionId (runStart env prepared)
        (sys.store.syncCursor prepared.connection.connectionId) ∧
      handle.scope = prepared.request.scope ∧
      s'.getSyncRun env.syncRunId = some handle.run ∧
      sys.step (.start 0 prepared.connection.connectionId (runStart env prepared)) =
        { sys with store := s', issued := handle :: sys.issued } := by
  have hnew := System.engine_start { sys with queues := fun _ => [] } 0
    prepared.connection.connectionId (runStart env prepared)
  have hstep := System.step_start sys 0 prepared.connection.connectionId (runStart env prepared)
  rw [System.engine_start] at hstep
  unfold start at h
  have hengine : (WriterQueue.new sys.store : SyncEngine Store) =
      System.engine { sys with queues := fun _ => [] } 0 := rfl
  rw [hengine, hnew] at h
  cases hins : sys.store.startSyncRun (startedRun prepared.connection.connectionId
      (runStart env prepared) (sys.store.syncCursor prepared.connection.connectionId)) with
  | error cause =>
      simp only [hins] at h
      cases h
  | ok store =>
      simp only [hins] at h hstep
      cases h
      obtain ⟨_, _, _, rfl⟩ := Store.startSyncRun_ok hins
      exact ⟨rfl, rfl, KeyedTable.get_put_self _ _, hstep⟩

/-- What the handle and the request of a started run share. -/
structure Matches (env : SyncEnv) (prepared : Prepared) (handle : SyncRunHandle) : Prop where
  syncRunId : handle.run.syncRunId = env.syncRunId
  requestRun : prepared.request.syncRunId = env.syncRunId
  connection : prepared.request.connection.connectionId = handle.run.connectionId
  mode : prepared.request.mode = handle.run.mode
  scope : handle.scope = prepared.request.scope
  running : handle.run.status = .running

/-- A function that gets as far as its connector has noted the attempt, perhaps
copied a credential, and started its run. -/
theorem begin_ok {sys : System} {connection : Connection} {prepared : Prepared}
    {handle : SyncRunHandle} {s' : Store}
    (h : p.begin_ env connection sys.store = (.ok (prepared, handle), s')) :
    Matches env prepared handle ∧ s'.getSyncRun env.syncRunId = some handle.run ∧
      ∃ calls, System.machine.Run sys calls
        { sys with store := s', issued := handle :: sys.issued } := by
  unfold begin_ at h
  split at h
  · cases h
  rename_i noted startedAt s₁ hattempt
  obtain ⟨_, rfl⟩ := attempt_ok hattempt
  split at h
  · cases h
  rename_i prep hprepare
  obtain ⟨scope, rfl, rfl, hrequest⟩ := prepare_ok hprepare
  split at h
  · cases h
  rename_i handle' s₂ hstart
  cases h
  -- three kinds of calls lead to the connector
  have hnote : System.machine.Run sys [.connect prepared.connection]
      { sys with store := sys.store.upsertConnection prepared.connection } := .single trivial
  obtain ⟨copies, hcopy⟩ := backfill_run prepared
    { sys with store := sys.store.upsertConnection prepared.connection }
  obtain ⟨hrun, hscope, hrow, hstep⟩ := @start_ok p env prepared handle
    { sys with store := backfill prepared (sys.store.upsertConnection prepared.connection) } s' hstart
  have hstarted : System.machine.Run
      { sys with store := backfill prepared (sys.store.upsertConnection prepared.connection) }
      [.start 0 prepared.connection.connectionId (runStart env prepared)]
      { sys with store := s', issued := handle :: sys.issued } := by
    rw [← hstep]
    exact .single trivial
  refine ⟨?_, hrow, _, (hnote.append hcopy).append hstarted⟩
  exact
    { syncRunId := by rw [hrun]; rfl
      requestRun := by rw [hrequest]; rfl
      connection := by rw [hrun, hrequest]; rfl
      mode := by rw [hrun, hrequest]; rfl
      scope := hscope
      running := by rw [hrun]; rfl }

/-! ## §3  How it ends -/

/-- The run is stored as succeeded, partial or failed. -/
def RunEnded (s : Store) (id : SyncRunId) : Prop :=
  ∃ row, s.getSyncRun id = some row ∧
    (row.status = .succeeded ∨ row.status = .partial_ ∨ row.status = .failed)

/-- The clock can be read, and data that the normalizer accepts is of the
request's scope, names known endpoints and keys of its own. -/
def Committable (p : Provider) (env : SyncEnv) (request : SyncRequest) (secret : Option Secret) (s : Store) : Prop :=
  env.finishedAt.isSome = true ∧
    ∀ outcome batch, env.connector request secret = .ok outcome →
      p.normalizer.normalize env.digest request outcome.batch = .ok batch →
        (∀ scope, batch.coverage.namedScope = some scope → scope = request.scope) ∧
          s.EndpointsKnown batch ∧ s.KeysApart batch

/-- For a batch of the run's own request the engine's checks come down to scope and
endpoints. -/
theorem checked_iff {prepared : Prepared} {handle : SyncRunHandle} (hm : Matches env prepared handle)
    (hrunning : handle.isRunning = true) {s : Store} {observations : ObservationBatch}
    {batch : ValidatedBatch}
    (hb : p.normalizer.normalize env.digest prepared.request observations = .ok batch) :
    s.Checked handle batch ↔
      (∀ scope, batch.coverage.namedScope = some scope → scope = prepared.request.scope) ∧
        s.EndpointsKnown batch := by
  obtain ⟨hconn, hrun, _, _, haccepts⟩ := Normalizer.normalize_provenance hb
  constructor
  · intro hc
    refine ⟨?_, hc.endpoints⟩
    intro scope hscope
    rw [← hm.scope]
    exact hc.scope scope hscope
  · rintro ⟨hscope, hknown⟩
    exact
      { running := hrunning
        connection := by rw [hconn, hm.connection]
        syncRun := by rw [hrun, hm.requestRun, hm.syncRunId]
        mode := by rw [← hm.mode]; exact haccepts
        scope := by rw [hm.scope]; exact hscope
        endpoints := hknown }

/-- Saving the connection touches no run. -/
theorem getSyncRun_save (ret : Return) (s : Store) (id : SyncRunId) :
    (save ret s).getSyncRun id = s.getSyncRun id := by
  unfold save
  cases ret.connection with
  | none => rfl
  | some connection => rfl

/-- The engine call that ends the run, from the connector's answer. -/
def ending (p : Provider) (env : SyncEnv) (prepared : Prepared) (handle : SyncRunHandle)
    (finishedAt : Timestamp) : EngineCall :=
  match env.connector prepared.request prepared.secret with
  | .error failure =>
      .fail handle
        { code := failure.code
          message := p.label ++ " synchronization failed."
          retryable := failure.retryable } finishedAt
  | .ok outcome =>
      match p.normalizer.normalize env.digest prepared.request outcome.batch with
      | .error _ =>
          .fail handle
            { code := .internal
              message := p.label ++ " data normalization failed."
              retryable := false } finishedAt
      | .ok batch => .commit handle batch finishedAt

/-- `settle` makes that call, once the clock is read, and nothing else. -/
theorem settle_store (prepared : Prepared) (handle : SyncRunHandle) (s : Store) :
    (p.settle env prepared handle s).2 =
      match env.finishedAt with
      | none => s
      | some finishedAt =>
          ((SyncEngine.call (.new s) (p.ending env prepared handle finishedAt) :
            Except (SyncEngineError StoreError) CommitResult × SyncEngine Store)).2.store := by
  unfold settle ending
  cases env.finishedAt with
  | none => rfl
  | some finishedAt =>
      cases env.connector prepared.request prepared.secret with
      | error failure =>
          simp only [SyncEngine.call]
          split
          · rename_i heq
            rw [heq]
          · rename_i heq
            rw [heq]
      | ok outcome =>
          simp only
          cases p.normalizer.normalize env.digest prepared.request outcome.batch with
          | error e => rfl
          | ok batch =>
              simp only [SyncEngine.call]
              split
              · rename_i heq
                rw [heq]
              · rename_i heq
                rw [heq]

/-- The end of a sync function on a store where its run is still running. -/
theorem finish_ends_iff {sys : System} (hs : sys.Sound) {prepared : Prepared}
    {handle : SyncRunHandle} (hm : Matches env prepared handle) (hh : handle ∈ sys.issued)
    (hrow : sys.store.getSyncRun env.syncRunId = some handle.run) :
    RunEnded (p.finish env prepared handle sys.store).2 env.syncRunId ↔
      p.Committable env prepared.request prepared.secret sys.store := by
  have hstill : ¬ RunEnded sys.store env.syncRunId := by
    rintro ⟨row, hget, hstatus⟩
    rw [hrow] at hget
    cases hget
    rw [hm.running] at hstatus
    simp at hstatus
  have hrow' : sys.store.getSyncRun handle.run.syncRunId = some handle.run := by
    rw [hm.syncRunId]
    exact hrow
  -- a call of this run ends it iff it is accepted
  have hcall : ∀ call : EngineCall, call.handle = handle →
      (RunEnded ((SyncEngine.call (.new sys.store) call :
          Except (SyncEngineError StoreError) CommitResult × SyncEngine Store)).2.store
        env.syncRunId ↔ sys.Accepted call) := by
    rintro call rfl
    rcases System.call_new_row hs hh hrow' with
      ⟨hacc, r, engine, commit, hres, hplanned, hafter⟩ | ⟨hnot, e, engine, hres, hsame⟩
    · rw [hres]
      rw [hm.syncRunId] at hafter
      refine ⟨fun _ => hacc, fun _ => ⟨_, hafter, ?_⟩⟩
      show commit.syncRun.status = .succeeded ∨ commit.syncRun.status = .partial_ ∨
        commit.syncRun.status = .failed
      cases call with
      | fail handle error at_ =>
          obtain ⟨_, rfl⟩ := System.planned_fail hplanned
          exact Or.inr (Or.inr rfl)
      | commit handle batch at_ =>
          obtain ⟨_, rfl⟩ := sys.store.plannedCommit_ok_iff.mp hplanned
          have hstatus : (sys.store.commitOf handle batch at_).syncRun.status =
              if batch.coverage.isPartial then SyncRunStatus.partial_ else .succeeded := rfl
          rw [hstatus]
          split
          · exact Or.inr (Or.inl rfl)
          · exact Or.inl rfl
    · rw [hres]
      show RunEnded engine.store env.syncRunId ↔ _
      rw [hsame]
      exact ⟨fun h => absurd h hstill, fun h => absurd h hnot⟩
  have hfinish : RunEnded (p.finish env prepared handle sys.store).2 env.syncRunId ↔
      RunEnded (p.settle env prepared handle sys.store).2 env.syncRunId := by
    unfold RunEnded finish
    simp only [getSyncRun_save]
  rw [hfinish, settle_store]
  unfold Committable
  cases hclock : env.finishedAt with
  | none =>
      constructor
      · intro h
        exact absurd h hstill
      · rintro ⟨h, _⟩
        cases h
  | some finishedAt =>
      simp only [Option.isSome_some, true_and]
      have hhandle : (p.ending env prepared handle finishedAt).handle = handle := by
        unfold ending
        split
        · rfl
        · split
          · rfl
          · rfl
      rw [hcall _ hhandle]
      unfold ending
      cases hanswer : env.connector prepared.request prepared.secret with
      | error failure =>
          refine ⟨fun _ outcome batch hok => ?_, fun _ => System.accepted_fail hs hh _ _⟩
          cases hok
      | ok outcome =>
          cases hnorm : p.normalizer.normalize env.digest prepared.request outcome.batch with
          | error e =>
              simp only [hnorm]
              refine ⟨fun _ outcome' batch hok hbatch => ?_,
                fun _ => System.accepted_fail hs hh _ _⟩
              cases hok
              rw [hnorm] at hbatch
              cases hbatch
          | ok batch =>
              simp only [hnorm]
              rw [System.accepted_commit_iff hs hh (Normalizer.normalize_wellFormed hnorm),
                checked_iff hm (hs.issued handle hh).2 hnorm]
              constructor
              · rintro ⟨⟨hscope, hknown⟩, hapart⟩ outcome' batch' hok hbatch
                cases hok
                rw [hnorm] at hbatch
                cases hbatch
                exact ⟨hscope, hknown, hapart⟩
              · intro h
                obtain ⟨hscope, hknown, hapart⟩ := h outcome batch rfl hnorm
                exact ⟨⟨hscope, hknown⟩, hapart⟩

/-- When a sync function that has started its run returns, other tasks having run
while its connector worked, the run has ended iff its data could be committed. -/
theorem run_ended_iff {sys sys' : System} (hr : sys.Reachable) {connection : Connection}
    {prepared : Prepared} {handle : SyncRunHandle} {s : Store}
    (hbegin : p.begin_ env connection sys.store = (.ok (prepared, handle), s)) {calls : List Call}
    (hothers : (System.machine.restrict (System.Others env.syncRunId)).Run
      { sys with store := s, issued := handle :: sys.issued } calls sys') :
    RunEnded (p.finish env prepared handle sys'.store).2 env.syncRunId ↔
      p.Committable env prepared.request prepared.secret sys'.store := by
  obtain ⟨hm, hrow, starts, hstart⟩ := begin_ok hbegin
  have hs := hstart.invariant System.sound_preserved hr.sound
  obtain ⟨hs', hrow'⟩ := System.row_kept_by_others hs hothers hrow
  have hh := System.issued_kept hothers
    (show handle ∈ handle :: sys.issued from List.mem_cons_self)
  exact finish_ends_iff hs' hm hh hrow'

end Provider

namespace Fixture

/-- A connection with its token. -/
def withToken : System :=
  System.machine.replay .fresh [.connect (connection (text "a")), .secret (text "a") [1]]

theorem withToken_reachable : withToken.Reachable := System.reachable_replay (by decide)

/-- A full answer with one relation and none of its endpoints. -/
def dangling : ObservationBatch where
  resources := []
  relations :=
    [{ source := { kind := kind "github.repository", externalId := text "1" }
       target := { kind := kind "github.workflow", externalId := text "2" }
       kind := kind "github.contains"
       evidenceKey := text "2"
       fieldPath := text "workflows"
       observedAt := time 2 }]
  coverage := .authoritativeFull (text "github:a")
  nextCursor := none
  warnings := []
  redactionReport := {}
  providerRequestSummary := {}

def danglingEnv : SyncEnv where
  trigger := .user
  syncRunId := text "run"
  digest := fun _ => text "f"
  startedAt := some (time 1)
  finishedAt := some (time 2)
  legacySecret := none
  transport := .ok ()
  connector := fun _ _ => .ok (.complete dangling)

/-- What `syncGithub` knows when it asks its connector. -/
def danglingPrepared : Prepared :=
  let attempted := { connection (text "a") with lastAttemptAt := some (time 1) }
  { connection := attempted
    startedAt := time 1
    request := githubProvider.request danglingEnv attempted (text "github:a")
    secret := some [1]
    backfill := none }

def danglingHandle : SyncRunHandle where
  run := startedRun (text "a") (Provider.runStart danglingEnv danglingPrepared) none
  scope := text "github:a"

def danglingStore : Store :=
  (githubProvider.begin_ danglingEnv (connection (text "a")) withToken.store).2

theorem dangling_begins :
    githubProvider.begin_ danglingEnv (connection (text "a")) withToken.store =
      (.ok (danglingPrepared, danglingHandle), danglingStore) := Prod.ext rfl rfl

end Fixture

namespace Provider

open Fixture in
/-- The normalizer accepts the answer, the engine refuses its commit, and the run
of `syncGithub` stays stored as running. -/
theorem refused_commit_leaves_run_running :
    (∃ batch, githubProvider.normalizer.normalize danglingEnv.digest danglingPrepared.request
      dangling = .ok batch) ∧
      (syncGithub danglingEnv (connection (text "a")) withToken.store).1 =
        .error (safeError "sync_unavailable" "GitHub data could not be saved.") ∧
      ((syncGithub danglingEnv (connection (text "a")) withToken.store).2.getSyncRun
        (text "run")).map SyncRun.status = some .running :=
  ⟨⟨_, rfl⟩, rfl, rfl⟩

open Fixture in
theorem run_ended_iff_dangling :
    RunEnded (githubProvider.finish danglingEnv danglingPrepared danglingHandle danglingStore).2
        (text "run") ↔
      githubProvider.Committable danglingEnv danglingPrepared.request danglingPrepared.secret
        danglingStore :=
  run_ended_iff withToken_reachable dangling_begins
    (.nil { withToken with store := danglingStore, issued := danglingHandle :: withToken.issued })

end Provider

end NextInfra
