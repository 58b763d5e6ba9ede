import NextInfra.Desktop.RunEnds
import NextInfra.Store.Purge

/-!
# A sync function, one store access at a time

Between any two accesses of a sync function to the shared store other tasks may run.
`SyncStage` is what the function knows between two accesses and `next` is the next
access; the engine's `commit` and `fail` are two, the reads of the plan and the
transaction. Undisturbed, the accesses are the function (`next_sync`).

Whatever a function does to the store concerns its own connection: its row may be
written with the connection the function was given, everything else keeps its
connection (`next_confined`).
-/

namespace NextInfra

/-! ## §1  The accesses -/

/-- Where a sync function stands between two accesses. -/
inductive SyncStage
  /-- Nothing done yet. -/
  | spawned (env : SyncEnv) (connection : Connection)
  | noted (env : SyncEnv) (connection : Connection) (startedAt : Timestamp)
  | prepared (env : SyncEnv) (prepared : Prepared)
  /-- The credential is there; the run is not started. -/
  | copied (env : SyncEnv) (prepared : Prepared)
  /-- The connector is asked. -/
  | running (env : SyncEnv) (prepared : Prepared) (handle : SyncRunHandle)
  /-- The connector has answered, the engine has read the store. -/
  | planned (env : SyncEnv) (prepared : Prepared) (finishedAt : Timestamp)
      (plan : Except (SyncEngineError StoreError) SyncCommit)
  | returning (ret : Return)
  | returned (result : Except ErrorEnvelope Unit)

namespace Provider

variable (p : Provider)

/-- What the function makes of the engine's answer. -/
def concluded (env : SyncEnv) (prepared : Prepared) (finishedAt : Timestamp) (ended : Bool) :
    Return :=
  match env.connector prepared.request prepared.secret with
  | .ok outcome =>
      let (connection, health) := observed prepared.connection finishedAt outcome
      match p.normalizer.normalize env.digest prepared.request outcome.batch with
      | .error _ => p.couldNotSave connection
      | .ok _ =>
          match ended with
          | true => { result := .ok (), connection := some { connection with health := health } }
          | false => p.couldNotSave connection
  | .error failure =>
      match ended with
      | true =>
          { result := .error (p.failedError failure.code)
            connection := some { prepared.connection with health := p.healthOf failure.code } }
      | false => { result := .error p.couldNotFinish, connection := none }

/-- The next access. -/
def next (stage : SyncStage) (s : Store) : SyncStage × Store :=
  match stage with
  | .spawned env connection =>
      match p.attempt env connection s with
      | (.error ret, s) => (.returning ret, s)
      | (.ok (connection, startedAt), s) => (.noted env connection startedAt, s)
  | .noted env connection startedAt =>
      match p.prepare env connection startedAt s with
      | .error ret => (.returning ret, s)
      | .ok prepared => (.prepared env prepared, s)
  | .prepared env prepared => (.copied env prepared, backfill prepared s)
  | .copied env prepared =>
      match p.start env prepared s with
      | (.error ret, s) => (.returning ret, s)
      | (.ok handle, s) => (.running env prepared handle, s)
  | .running env prepared handle =>
      match env.finishedAt with
      | none => (.returning { result := .error p.couldNotFinish, connection := none }, s)
      | some finishedAt =>
          let call := p.ending env prepared handle finishedAt
          (.planned env prepared finishedAt (call.planned s), s)
  | .planned env prepared finishedAt plan =>
      let (result, engine) := SyncEngine.offerNew s plan
      (.returning (p.concluded env prepared finishedAt result.isOk), engine.store)
  | .returning ret => (.returned ret.result, save ret s)
  | .returned result => (.returned result, s)

/-! ## §2  Undisturbed, they are the function -/

/-- The engine's two accesses, one after the other, are `settle`. -/
theorem settle_eq (env : SyncEnv) (prepared : Prepared) (handle : SyncRunHandle) (s : Store) :
    p.settle env prepared handle s =
      match env.finishedAt with
      | none => ({ result := .error p.couldNotFinish, connection := none }, s)
      | some finishedAt =>
          let (result, engine) :=
            SyncEngine.offerNew s ((p.ending env prepared handle finishedAt).planned s)
          (p.concluded env prepared finishedAt result.isOk, engine.store) := by
  unfold settle
  cases env.finishedAt with
  | none => rfl
  | some finishedAt =>
      simp only
      rw [← SyncEngine.call_new]
      unfold ending concluded
      cases env.connector prepared.request prepared.secret with
      | error failure =>
          simp only [SyncEngine.call]
          generalize SyncEngine.fail (WriterQueue.new s) handle _ finishedAt = answer
          obtain ⟨result, engine⟩ := answer
          cases result with
          | error e => rfl
          | ok r => rfl
      | ok outcome =>
          simp only
          cases p.normalizer.normalize env.digest prepared.request outcome.batch with
          | error e => rfl
          | ok batch =>
              simp only [SyncEngine.call]
              generalize SyncEngine.commit (WriterQueue.new s) handle batch finishedAt = answer
              obtain ⟨result, engine⟩ := answer
              cases result with
              | error e => rfl
              | ok r => rfl

/-- `n` accesses, nothing in between. -/
def alone : Nat → SyncStage × Store → SyncStage × Store
  | 0, at_ => at_
  | n + 1, at_ => alone n (p.next at_.1 at_.2)

theorem alone_succ (n : Nat) (stage : SyncStage) (s : Store) :
    p.alone (n + 1) (stage, s) = p.alone n (p.next stage s) := rfl

@[simp]
theorem alone_returned (n : Nat) (result : Except ErrorEnvelope Unit) (s : Store) :
    p.alone n (.returned result, s) = (.returned result, s) := by
  induction n with
  | zero => rfl
  | succ n ih => exact ih

/-- From a return one access is left. -/
theorem alone_returning (n : Nat) (ret : Return) (s : Store) :
    p.alone (n + 1) (.returning ret, s) = (.returned ret.result, save ret s) :=
  p.alone_returned n ret.result (save ret s)

theorem alone_running (env : SyncEnv) (prepared : Prepared) (handle : SyncRunHandle) (s : Store) :
    p.alone 3 (.running env prepared handle, s) =
      (.returned (p.finish env prepared handle s).1, (p.finish env prepared handle s).2) := by
  unfold finish
  rw [settle_eq, alone_succ]
  simp only [next]
  cases env.finishedAt with
  | none => rfl
  | some finishedAt => rfl

/-- Seven accesses make the function. -/
theorem next_sync (env : SyncEnv) (connection : Connection) (s : Store) :
    p.alone 7 (.spawned env connection, s) =
      (.returned (p.sync env connection s).1, (p.sync env connection s).2) := by
  unfold sync begin_
  rw [alone_succ]
  simp only [next]
  cases hattempt : p.attempt env connection s with
  | mk result s₁ =>
      cases result with
      | error ret => exact p.alone_returning 5 ret s₁
      | ok noted =>
          obtain ⟨noted, startedAt⟩ := noted
          simp only
          rw [alone_succ]
          simp only [next]
          cases hprepare : p.prepare env noted startedAt s₁ with
          | error ret => exact p.alone_returning 4 ret s₁
          | ok prepared =>
              simp only
              rw [alone_succ, alone_succ]
              show p.alone 3 (p.next (.copied env prepared) (backfill prepared s₁)) = _
              simp only [next]
              cases hstart : p.start env prepared (backfill prepared s₁) with
              | mk result s₂ =>
                  cases result with
                  | error ret => exact p.alone_returning 2 ret s₂
                  | ok handle => exact p.alone_running env prepared handle s₂

end Provider

/-! ## §3  What an access does to other connections -/

/-- The same connection, perhaps at another moment. -/
structure Connection.Kin (c d : Connection) : Prop where
  connectionId : c.connectionId = d.connectionId
  connectorType : c.connectorType = d.connectorType
  deletedAt : c.deletedAt = d.deletedAt

theorem Connection.Kin.refl (c : Connection) : c.Kin c := ⟨rfl, rfl, rfl⟩

theorem Connection.Kin.with_health {c d : Connection} (h : c.Kin d) (health : ConnectorHealth) :
    ({ c with health := health } : Connection).Kin d :=
  ⟨h.connectionId, h.connectorType, h.deletedAt⟩

/-- What a step may do to the connections: write the row of one, with that connection;
gain resources for one; take the row of one away. -/
structure Footprint where
  writes : Option Connection := none
  gains : Option Connection := none
  loses : Option ConnectionId := none

/-- From `s` to `s'` nothing but the footprint. -/
structure Store.Confined (f : Footprint) (s s' : Store) : Prop where
  integral : s.Integral → s'.Integral
  rows : ∀ row ∈ s'.connections.rows,
    row ∈ s.connections.rows ∨ ∃ c, f.writes = some c ∧ row.Kin c
  kept : ∀ row ∈ s.connections.rows, f.loses = some row.connectionId ∨
    ∃ row' ∈ s'.connections.rows, row'.connectionId = row.connectionId
  resources : ∀ r ∈ s'.resources.rows,
    (∃ old ∈ s.resources.rows, r.connectionId = old.connectionId) ∨
      ∃ c, f.gains = some c ∧ r.connectionId = c.connectionId

namespace Store

variable {s s' : Store} {f : Footprint}

/-- A step that touches no connection and gains no resource. -/
theorem Confined.of_same (hrows : s'.connections = s.connections)
    (hresources : s'.resources = s.resources) (h : s.Integral → s'.Integral) : s.Confined f s' where
  integral := h
  rows := by
    rw [hrows]
    exact fun row hrow => Or.inl hrow
  kept := by
    rw [hrows]
    exact fun row hrow => Or.inr ⟨row, hrow, rfl⟩
  resources := by
    rw [hresources]
    exact fun r hr => Or.inl ⟨r, hr, rfl⟩

theorem Confined.refl (s : Store) : s.Confined f s := .of_same rfl rfl id

theorem confined_upsertConnection {c row : Connection} (h : row.Kin c) (s : Store)
    (hwrites : f.writes = some c) : s.Confined f (s.upsertConnection row) where
  integral := fun hs => hs.upsertConnection row
  rows := by
    intro x hx
    rcases KeyedTable.mem_put.mp hx with rfl | ⟨hx', _⟩
    · exact Or.inr ⟨c, hwrites, h⟩
    · exact Or.inl hx'
  kept := by
    intro x hx
    by_cases hid : x.connectionId = row.connectionId
    · exact Or.inr ⟨row, KeyedTable.mem_put.mpr (Or.inl rfl), hid.symm⟩
    · exact Or.inr ⟨x, KeyedTable.mem_put.mpr (Or.inr ⟨hx, hid⟩), rfl⟩
  resources := fun r hr => Or.inl ⟨r, hr, rfl⟩

theorem confined_secret {id : ConnectionId} {secret : List UInt8}
    (h : s.upsertConnectionSecret id secret = .ok s') : s.Confined f s' := by
  obtain rfl := upsertConnectionSecret_ok h
  exact .of_same rfl rfl fun hs => ⟨hs.syncRuns, hs.resources, hs.connectorState⟩

theorem confined_startSyncRun {run : SyncRun} (h : s.startSyncRun run = .ok s') :
    s.Confined f s' := by
  have hintegral : s.Integral → s'.Integral := fun hs => hs.startSyncRun h
  obtain ⟨_, _, _, rfl⟩ := startSyncRun_ok h
  exact .of_same rfl rfl hintegral

/-- A commit gains resources for the connection of its run. -/
theorem confined_commitSync {c : Connection} {commit : SyncCommit} {r : CommitResult}
    (h : s.commitSync commit = .ok (r, s')) (hown : commit.syncRun.connectionId = c.connectionId)
    (hgains : f.gains = some c) : s.Confined f s' where
  integral := fun hs => hs.commitSync h
  rows := by
    rw [(commitSync_ok h).connections]
    exact fun _ h => Or.inl h
  kept := by
    rw [(commitSync_ok h).connections]
    exact fun row hrow => Or.inr ⟨row, hrow, rfl⟩
  resources := by
    have heff := commitSync_ok h
    obtain ⟨_, hprovenance, _⟩ := validateCommit_ok heff.valid
    intro x hx
    rw [heff.resources] at hx
    by_cases htouched : ∃ row ∈ commit.resources, row.resourceId = x.resourceId
    · obtain ⟨row, hrow, hid⟩ := htouched
      obtain ⟨row', hrow', _, y, hy, hlands⟩ :=
        resourceRule.get_applyAll_of_mem (t := s.resources) hrow
      rw [hid, KeyedTable.get_of_mem hx] at hy
      cases hy
      have hsame : x.connectionId = row'.connectionId := by
        rcases hlands with rfl | ⟨old, rfl⟩
        · rfl
        · rfl
      refine Or.inr ⟨c, hgains, ?_⟩
      rw [hsame, (hprovenance row' hrow').1, hown]
    · have hget := resourceRule.get_applyAll_of_not_mem (t := s.resources)
        (fun row hrow e => htouched ⟨row, hrow, e⟩)
      refine Or.inl ⟨x, ?_, rfl⟩
      rw [KeyedTable.mem_iff_get, ← hget]
      exact KeyedTable.get_of_mem hx

theorem confined_purged (s : Store) {id : ConnectionId} (hloses : f.loses = some id) :
    s.Confined f (s.purged id) where
  integral := fun hs => hs.purged id
  rows := fun row hrow => Or.inl (KeyedTable.mem_keep.mp hrow).1
  kept := by
    intro row hrow
    by_cases hid : row.connectionId = id
    · exact Or.inl (hid ▸ hloses)
    · exact Or.inr ⟨row, KeyedTable.mem_keep.mpr ⟨hrow, decide_eq_true hid⟩, rfl⟩
  resources := fun r hr => Or.inl ⟨r, (KeyedTable.mem_keep.mp hr).1, rfl⟩

end Store

/-- The connection a function would write next, if any. -/
def SyncStage.connection? : SyncStage → Option Connection
  | .spawned _ connection => some connection
  | .noted _ connection _ => some connection
  | .prepared _ known => some known.connection
  | .copied _ known => some known.connection
  | .running _ known _ => some known.connection
  | .planned _ known _ _ => some known.connection
  | .returning ret => ret.connection
  | .returned _ => none

/-- The run and the plan of a function are those of its connection. -/
def SyncStage.Own : SyncStage → Prop
  | .running _ known handle => handle.run.connectionId = known.connection.connectionId
  | .planned _ known _ plan =>
      ∀ commit, plan = .ok commit → commit.syncRun.connectionId = known.connection.connectionId
  | _ => True

/-- A call plans a commit of the run it is given. -/
theorem EngineCall.planned_connection {s : Store} {call : EngineCall} {commit : SyncCommit}
    (h : call.planned s = (.ok commit : Except (SyncEngineError StoreError) SyncCommit)) :
    commit.syncRun.connectionId = call.handle.run.connectionId := by
  cases call with
  | commit handle batch finishedAt =>
      obtain ⟨_, rfl⟩ := s.plannedCommit_ok_iff.mp h
      rfl
  | fail handle error finishedAt =>
      obtain ⟨_, rfl⟩ := System.planned_fail h
      rfl

namespace Provider

variable (p : Provider) (s : Store)

theorem credential_error {env : SyncEnv} {connection : Connection} {ret : Return}
    (h : p.credential env connection s = .error ret) :
    ∀ d, ret.connection = some d → d.Kin connection := by
  intro d hd
  unfold credential at h
  cases hsource : p.secret with
  | unused => simp [hsource] at h
  | stored message =>
      cases hsecret : s.connectionSecret connection.connectionId with
      | some secret => simp [hsource, hsecret] at h
      | none =>
          simp only [hsource, hsecret, Except.error.injEq] at h
          subst h
          cases hd
  | storedOrLegacy message =>
      cases hsecret : s.connectionSecret connection.connectionId with
      | some secret => simp [hsource, hsecret] at h
      | none =>
          cases hlegacy : env.legacySecret with
          | some secret => simp [hsource, hsecret, hlegacy] at h
          | none =>
              simp only [hsource, hsecret, hlegacy, Except.error.injEq] at h
              subst h
              cases hd
              exact Connection.Kin.with_health (.refl connection) _

/-- A preparation that fails can only mark its own connection. -/
theorem prepare_error {env : SyncEnv} {connection : Connection} {startedAt : Timestamp}
    {ret : Return} (h : p.prepare env connection startedAt s = .error ret) :
    ∀ d, ret.connection = some d → d.Kin connection := by
  intro d hd
  unfold prepare at h
  rcases bind_error h with hconfig | ⟨_, _, h⟩
  · unfold requireConfig at hconfig
    split at hconfig
    · cases hconfig
    · split at hconfig
      · cases hconfig
      · cases hconfig
        cases hd
  rcases bind_error h with hscope | ⟨_, _, h⟩
  · unfold scopeOf at hscope
    split at hscope
    · cases hscope
    · cases hscope
      cases hd
  rcases bind_error h with hsecret | ⟨_, _, h⟩
  · exact p.credential_error s hsecret d hd
  rcases bind_error h with htransport | ⟨_, _, h⟩
  · unfold buildTransport at htransport
    split at htransport
    · cases htransport
      cases hd
    · cases htransport
  cases h

theorem backfill_confined (prepared : Prepared) {f : Footprint} :
    s.Confined f (backfill prepared s) := by
  unfold backfill
  cases prepared.backfill with
  | none => exact .refl s
  | some secret =>
      simp only
      cases hput : s.upsertConnectionSecret prepared.connection.connectionId secret with
      | error e => exact .refl s
      | ok s' => exact Store.confined_secret hput

/-- A run that is not started leaves the store alone. -/
theorem start_confined (env : SyncEnv) (prepared : Prepared) (f : Footprint) :
    s.Confined f (p.start env prepared s).2 ∧
      ∀ ret, (p.start env prepared s).1 = .error ret →
        ∀ d, ret.connection = some d → d.Kin prepared.connection := by
  have hnew := System.engine_start { System.fresh with store := s } 0
    prepared.connection.connectionId (runStart env prepared)
  have hengine : System.engine { System.fresh with store := s } 0 = .new s := rfl
  rw [hengine] at hnew
  unfold start
  rw [hnew]
  cases hins : s.startSyncRun (startedRun prepared.connection.connectionId (runStart env prepared)
      (s.syncCursor prepared.connection.connectionId)) with
  | error cause =>
      refine ⟨.refl s, ?_⟩
      intro ret hret d hd
      cases hret
      simp only [Option.map_eq_some_iff] at hd
      obtain ⟨health, _, rfl⟩ := hd
      exact Connection.Kin.with_health (.refl _) health
  | ok s' => exact ⟨Store.confined_startSyncRun hins, nofun⟩

theorem handle_ending (env : SyncEnv) (prepared : Prepared) (handle : SyncRunHandle)
    (finishedAt : Timestamp) : (p.ending env prepared handle finishedAt).handle = handle := by
  unfold ending
  cases env.connector prepared.request prepared.secret with
  | error failure => rfl
  | ok outcome =>
      simp only
      cases p.normalizer.normalize env.digest prepared.request outcome.batch with
      | error e => rfl
      | ok batch => rfl

theorem offerNew_confined {plan : Except (SyncEngineError StoreError) SyncCommit} {c : Connection}
    (hown : ∀ commit, plan = .ok commit → commit.syncRun.connectionId = c.connectionId)
    {f : Footprint} (hgains : f.gains = some c) :
    s.Confined f (SyncEngine.offerNew s plan).2.store := by
  cases plan with
  | error e => exact .refl s
  | ok commit =>
      have hstore : (StoreWriter.commitSync s commit : Except StoreError _) = s.commitSync commit :=
        rfl
      simp only [SyncEngine.offerNew, hstore]
      cases hcommit : s.commitSync commit with
      | error cause => exact .refl s
      | ok answer =>
          obtain ⟨r, s'⟩ := answer
          exact Store.confined_commitSync hcommit (hown commit rfl) hgains

theorem concluded_kin (env : SyncEnv) (prepared : Prepared) (finishedAt : Timestamp)
    (ended : Bool) : ∀ d, (p.concluded env prepared finishedAt ended).connection = some d →
      d.Kin prepared.connection := by
  have hobserved : ∀ outcome,
      (observed prepared.connection finishedAt outcome).1.Kin prepared.connection := by
    intro outcome
    cases outcome with
    | partial_ _ _ => exact .refl _
    | complete _ => exact ⟨rfl, rfl, rfl⟩
  have hunsaved : ∀ outcome d,
      (p.couldNotSave (observed prepared.connection finishedAt outcome).1).connection = some d →
        d.Kin prepared.connection := by
    intro outcome d hd
    simp only [couldNotSave, Option.map_eq_some_iff] at hd
    obtain ⟨health, _, rfl⟩ := hd
    exact (hobserved outcome).with_health health
  intro d hd
  unfold concluded at hd
  cases hanswer : env.connector prepared.request prepared.secret with
  | error failure =>
      rw [hanswer] at hd
      cases ended with
      | true =>
          cases hd
          exact Connection.Kin.with_health (.refl _) _
      | false => cases hd
  | ok outcome =>
      rw [hanswer] at hd
      simp only at hd
      cases hnorm : p.normalizer.normalize env.digest prepared.request outcome.batch with
      | error e =>
          rw [hnorm] at hd
          exact hunsaved outcome d hd
      | ok batch =>
          rw [hnorm] at hd
          cases ended with
          | true =>
              cases hd
              exact (hobserved outcome).with_health _
          | false => exact hunsaved outcome d hd

/-- An access is confined to the function's own connection, and leads to no other. -/
theorem next_confined {stage : SyncStage} (hown : stage.Own) :
    s.Confined { writes := stage.connection?, gains := stage.connection? } (p.next stage s).2 ∧ (p.next stage s).1.Own ∧
      ∀ d, (p.next stage s).1.connection? = some d →
        ∃ c, stage.connection? = some c ∧ d.Kin c := by
  cases stage with
  | spawned env connection =>
      simp only [next]
      cases hattempt : p.attempt env connection s with
      | mk result s' =>
          cases result with
          | error ret =>
              unfold attempt at hattempt
              cases hclock : env.startedAt with
              | some startedAt => simp [hclock] at hattempt
              | none =>
                  rw [hclock] at hattempt
                  cases hattempt
                  exact ⟨.refl s, trivial, nofun⟩
          | ok noted =>
              obtain ⟨noted, startedAt⟩ := noted
              obtain ⟨rfl, rfl⟩ := attempt_ok hattempt
              have hkin : ({ connection with lastAttemptAt := some startedAt } : Connection).Kin
                  connection := ⟨rfl, rfl, rfl⟩
              refine ⟨Store.confined_upsertConnection hkin s rfl, trivial, ?_⟩
              intro d hd
              cases hd
              exact ⟨connection, rfl, hkin⟩
  | noted env connection startedAt =>
      simp only [next]
      cases hprepare : p.prepare env connection startedAt s with
      | error ret =>
          refine ⟨.refl s, trivial, fun d hd => ⟨connection, rfl, ?_⟩⟩
          exact p.prepare_error s hprepare d hd
      | ok prepared =>
          obtain ⟨_, hconnection, _, _⟩ := prepare_ok hprepare
          refine ⟨.refl s, trivial, fun d hd => ⟨connection, rfl, ?_⟩⟩
          cases hd
          rw [hconnection]
          exact .refl connection
  | prepared env prepared =>
      exact ⟨backfill_confined s prepared, trivial, fun d hd => ⟨d, hd, .refl d⟩⟩
  | copied env prepared =>
      obtain ⟨hconfined, herror⟩ := p.start_confined s env prepared
        { writes := some prepared.connection, gains := some prepared.connection }
      simp only [next]
      cases hstart : p.start env prepared s with
      | mk result s' =>
          rw [hstart] at hconfined herror
          cases result with
          | error ret =>
              refine ⟨hconfined, trivial, fun d hd => ⟨prepared.connection, rfl, ?_⟩⟩
              exact herror ret rfl d hd
          | ok handle =>
              obtain ⟨hrun, _⟩ := @start_ok p env prepared handle { System.fresh with store := s } s'
                hstart
              refine ⟨hconfined, ?_, fun d hd => ⟨d, hd, .refl d⟩⟩
              show handle.run.connectionId = _
              rw [hrun]
              rfl
  | running env prepared handle =>
      simp only [next]
      cases env.finishedAt with
      | none => exact ⟨.refl s, trivial, nofun⟩
      | some finishedAt =>
          refine ⟨.refl s, ?_, fun d hd => ⟨d, hd, .refl d⟩⟩
          intro commit hcommit
          rw [EngineCall.planned_connection hcommit, handle_ending]
          exact hown
  | planned env prepared finishedAt plan =>
      refine ⟨offerNew_confined s hown rfl, trivial, fun d hd => ⟨prepared.connection, rfl, ?_⟩⟩
      exact p.concluded_kin env prepared finishedAt _ d hd
  | returning ret =>
      refine ⟨?_, trivial, nofun⟩
      show s.Confined { writes := ret.connection, gains := ret.connection } (save ret s)
      unfold save
      cases ret.connection with
      | none => exact .refl s
      | some connection => exact Store.confined_upsertConnection (.refl connection) s rfl
  | returned result => exact ⟨.refl s, trivial, nofun⟩

end Provider

end NextInfra
