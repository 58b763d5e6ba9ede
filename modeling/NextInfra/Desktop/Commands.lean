import NextInfra.Desktop.SingleFlight
import NextInfra.Desktop.SyncSteps
import NextInfra.Store.LocalCommits

/-!
# The commands beside one another

A command first reads the connection it is about and only then takes the flag of its
type: the manual sync of GitHub, the driver's callback and `purge_connection` alike; a
create command takes the flag first. A sync writes the connection it was given,
whatever became of the row meanwhile.

Each read, flag and store access is a step; parties act in any order, and a sync whose
accesses nobody comes between does what its function does (`sync_undisturbed`). §2
forgets the store and finds the machine of single flight, §3 says who knows a connection.
-/

namespace NextInfra

/-! ## §1  The steps -/

/-- What the task of a flag runs. -/
def SyncFlag.provider : SyncFlag → Provider
  | .github => githubProvider
  | .ssh => sshProvider
  | .dokploy => dokployProvider
  | .cloudflare => cloudflareProvider
  | .supabaseManaged => supabaseManagedProvider
  | .aliyun => aliyunProvider
  | .tencent => tencentProvider

theorem SyncFlag.connectorType_ofType {type : ConnectorType} {flag : SyncFlag}
    (h : SyncFlag.ofType type = some flag) : flag.connectorType = type := by
  have hfound := List.find?_some h
  exact of_decide_eq_true hfound

/-- The commands that read a connection before they take a flag. -/
inductive Asked
  | manual
  | scheduled
  | purge
deriving DecidableEq

/-- What the command asks of the row it reads. -/
def Asked.serves (connection : Connection) : Asked → Bool
  | .manual => connection.enabled && decide (connection.connectorType = .github)
  | .scheduled => connection.enabled && hasLiveSyncPath connection.connectorType
  | .purge => connection.deletedAt.isNone

/-- A command between its read and its flag. -/
structure Resolved where
  asked : Asked
  connection : Connection

/-- Where a party with a flag is. -/
inductive Stage
  /-- A create command that has not written its row. -/
  | creating
  | saved (connection : Connection)
  /-- A create command that has taken its row back. -/
  | withdrawn
  | manual (connection : Connection)
  | scheduled (connection : Connection)
  | syncing (stage : SyncStage)
  | ended
  | purging (connection : Connection)
  /-- The rows are gone or were refused to go, the guard is still held. -/
  | purged

namespace Stage

def phase : Stage → Phase
  | .creating | .saved _ | .withdrawn => .creating
  | .manual _ => .manual
  | .scheduled _ => .scheduled
  | .syncing _ => .syncing
  | .ended => .ended
  | .purging _ | .purged => .purging

/-- The connection the party would write. -/
def connection? : Stage → Option Connection
  | .saved connection => some connection
  | .manual connection => some connection
  | .scheduled connection => some connection
  | .syncing stage => stage.connection?
  | .creating | .withdrawn | .ended | .purging _ | .purged => none

end Stage

structure Task where
  flag : SyncFlag
  stage : Stage

/-- What a party may do next. -/
inductive Act
  | savesConnection (connection : Connection)
  | savesSecret (secret : Secret)
  | removesSecret
  /-- A create command that could not store its secret purges its row. -/
  | withdraws
  | fails
  | enqueues (uuid : Uuid) (env : SyncEnv)
  /-- The next access of the sync. -/
  | works
  | panics
  | releases
  | purges
  | purgeEnds

/-- What an act makes of its party and of the store. -/
inductive Turn
  | goes (stage : Stage) (s : Store)
  /-- The party ends and clears its flag. -/
  | clears (s : Store)
  /-- The party ends, its flag still set. -/
  | leaves (s : Store)

namespace Store

def removeConnectionSecret (s : Store) (id : ConnectionId) : Store :=
  { s with connectionSecrets := s.connectionSecrets.erase id }

/-- The store after a call of `purge_connection`, a refused one included. -/
def afterPurge (s : Store) (id : ConnectionId) : Store :=
  match s.purgeConnection id with
  | .ok (_, s') => s'
  | .error _ => s

/-- The store after a call of `upsert_connection_secret`. -/
def afterSecret (s : Store) (id : ConnectionId) (secret : Secret) : Store :=
  match s.upsertConnectionSecret id secret with
  | .ok s' => s'
  | .error _ => s

/-- The store after a call of `commit_binding`. -/
def afterBinding (s : Store) (commit : BindingCommit) : Store :=
  match s.commitBinding commit with
  | .ok s' => s'
  | .error _ => s

end Store

/-- The task an enqueue spawns, or what becomes of its party on an unusable run id:
only the manual sync does not clear the flag. -/
def Task.enqueued (flag : SyncFlag) (s : Store) (phase : Phase) (connection : Connection)
    (uuid : Uuid) (env : SyncEnv) : Turn :=
  match Flights.enqueuedRunId flag phase uuid with
  | .ok id =>
      let trigger := if phase = .scheduled then SyncTrigger.schedule else .user
      .goes (.syncing (.spawned { env with syncRunId := id, trigger := trigger } connection)) s
  | .error _ => if phase = .manual then .leaves s else .clears s

/-- What a party does, where it may. -/
def Task.turn (flag : SyncFlag) (s : Store) : Stage → Act → Option Turn
  | .creating, .savesConnection connection =>
      if connection.connectorType = flag.connectorType ∧ connection.deletedAt = none then
        some (.goes (.saved connection) (s.upsertConnection connection))
      else none
  | .creating, .fails => some (.clears s)
  | .saved connection, .savesSecret secret =>
      some (.goes (.saved connection) (s.afterSecret connection.connectionId secret))
  | .saved connection, .removesSecret =>
      some (.goes (.saved connection) (s.removeConnectionSecret connection.connectionId))
  | .saved connection, .withdraws => some (.goes .withdrawn (s.afterPurge connection.connectionId))
  | .saved _, .fails => some (.clears s)
  | .saved connection, .enqueues uuid env =>
      some (Task.enqueued flag s .creating connection uuid env)
  | .withdrawn, .fails => some (.clears s)
  | .manual connection, .enqueues uuid env =>
      some (Task.enqueued flag s .manual connection uuid env)
  | .scheduled connection, .enqueues uuid env =>
      some (Task.enqueued flag s .scheduled connection uuid env)
  | .syncing stage, .works =>
      match flag.provider.next stage s with
      | (.returned _, s') => some (.goes .ended s')
      | (stage', s') => some (.goes (.syncing stage') s')
  | .syncing _, .panics => if flag.guarded then some (.goes .ended s) else some (.leaves s)
  | .ended, .releases => some (.clears s)
  | .purging connection, .purges => some (.goes .purged (s.afterPurge connection.connectionId))
  | .purged, .purgeEnds => some (.clears s)
  | _, _ => none

structure World where
  store : Store
  running : Flags
  tasks : List Task
  resolved : List Resolved
  /-- The connection ids ever used: a create command draws a new one. -/
  minted : List ConnectionId

inductive WorldStep
  | resolves (asked : Asked) (id : ConnectionId)
  /-- A command that has read its connection takes its flag, or is turned away. -/
  | admits (command : Nat)
  | createConnection (flag : SyncFlag)
  | acts (party : Nat) (act : Act)
  /-- A binding is created, changed or disabled. -/
  | binds (commit : BindingCommit)

namespace World

/-- A store with nobody at work on it. -/
def quiet (s : Store) : World where
  store := s
  running := .free
  tasks := []
  resolved := []
  minted := s.connections.rows.map Connection.connectionId

def resolves (w : World) (asked : Asked) (id : ConnectionId) : World :=
  match w.store.connections.get id with
  | none => w
  | some connection =>
      if asked.serves connection then { w with resolved := w.resolved ++ [⟨asked, connection⟩] }
      else w

/-- `running.swap(true)`: the party starts where the flag was clear. -/
def swap (w : World) (flag : SyncFlag) (stage : Stage) : World :=
  if w.running flag then w
  else { w with running := w.running.take flag, tasks := w.tasks ++ [⟨flag, stage⟩] }

/-- A purge of a type without a flag goes on under a guard nobody shares. -/
def takes (w : World) : Resolved → World
  | ⟨.manual, connection⟩ => w.swap .github (.manual connection)
  | ⟨.scheduled, connection⟩ =>
      match SyncFlag.ofLiveType connection.connectorType with
      | none => w
      | some flag => w.swap flag (.scheduled connection)
  | ⟨.purge, connection⟩ =>
      match SyncFlag.ofType connection.connectorType with
      | none => { w with store := w.store.afterPurge connection.connectionId }
      | some flag => w.swap flag (.purging connection)

/-- A command no longer waits. -/
def answered (w : World) (command : Nat) : World :=
  { w with resolved := w.resolved.eraseIdx command }

def admits (w : World) (command : Nat) : World :=
  match w.resolved[command]? with
  | none => w
  | some resolved => (w.answered command).takes resolved

def turned (w : World) (party : Nat) (flag : SyncFlag) : Turn → World
  | .goes stage s => { w with store := s, tasks := w.tasks.set party ⟨flag, stage⟩ }
  | .clears s =>
      { w with store := s, running := w.running.store flag, tasks := w.tasks.eraseIdx party }
  | .leaves s => { w with store := s, tasks := w.tasks.eraseIdx party }

/-- The id a create command writes for the first time. -/
def mints : Act → List ConnectionId
  | .savesConnection connection => [connection.connectionId]
  | _ => []

def turnOf (w : World) (party : Nat) (act : Act) : Option (SyncFlag × Turn) :=
  match w.tasks[party]? with
  | none => none
  | some task => (Task.turn task.flag w.store task.stage act).map fun turn => (task.flag, turn)

def acts (w : World) (party : Nat) (act : Act) : World :=
  match w.turnOf party act with
  | none => w
  | some (flag, turn) => { w.turned party flag turn with minted := mints act ++ w.minted }

def step (w : World) : WorldStep → World
  | .resolves asked id => w.resolves asked id
  | .admits command => w.admits command
  | .createConnection flag => w.swap flag .creating
  | .acts party act => w.acts party act
  | .binds commit => { w with store := w.store.afterBinding commit }

/-- A party does what its stage allows, and a new connection has a new id. -/
def Enabled (w : World) : WorldStep → Prop
  | .resolves _ _ => True
  | .admits command => command < w.resolved.length
  | .createConnection _ => True
  | .acts party act => (w.turnOf party act).isSome ∧ ∀ id ∈ mints act, id ∉ w.minted
  | .binds _ => True

instance (w : World) (call : WorldStep) : Decidable (w.Enabled call) := by
  cases call <;> unfold Enabled <;> infer_instance

def machine : Machine World WorldStep where
  enabled := Enabled
  step := step

instance (w : World) (call : WorldStep) : Decidable (machine.enabled w call) :=
  inferInstanceAs (Decidable (w.Enabled call))

/-- The next access of a sync, as a step. -/
theorem step_works {w : World} {party : Nat} {flag : SyncFlag} {stage : SyncStage}
    (h : w.tasks[party]? = some ⟨flag, .syncing stage⟩) :
    machine.enabled w (.acts party .works) ∧
      (w.step (.acts party .works)).store = (flag.provider.next stage w.store).2 ∧
      (w.step (.acts party .works)).tasks[party]? =
        some ⟨flag, match (flag.provider.next stage w.store).1 with
          | .returned _ => .ended
          | stage => .syncing stage⟩ := by
  have hlt := (List.getElem?_eq_some_iff.mp h).1
  have hturn : w.turnOf party .works =
      some (flag, .goes (match (flag.provider.next stage w.store).1 with
        | .returned _ => .ended
        | stage => .syncing stage) (flag.provider.next stage w.store).2) := by
    unfold turnOf
    rw [h]
    unfold Task.turn
    dsimp only
    split
    · rename_i hnext
      rw [hnext]
      rfl
    · rename_i hreturned hnext
      rw [hnext]
      cases ‹SyncStage› with
      | returned result => exact absurd rfl (hreturned result)
      | _ => rfl
  have hstep : w.step (.acts party .works) =
      { w.turned party flag (.goes (match (flag.provider.next stage w.store).1 with
          | .returned _ => .ended
          | stage => .syncing stage) (flag.provider.next stage w.store).2) with
        minted := w.minted } := by
    show w.acts party .works = _
    unfold acts
    rw [hturn]
    rfl
  refine ⟨⟨by rw [hturn]; rfl, nofun⟩, ?_, ?_⟩
  · rw [hstep]
    rfl
  · rw [hstep]
    exact List.getElem?_set_self hlt

/-- From any stage before the return: the accesses that are left, one after the other. -/
theorem works_alone {party : Nat} {flag : SyncFlag} {n : Nat} {w : World} {stage : SyncStage}
    {result : Except ErrorEnvelope Unit} {s : Store}
    (h : w.tasks[party]? = some ⟨flag, .syncing stage⟩) (hnot : ∀ r, stage ≠ .returned r)
    (halone : flag.provider.alone n (stage, w.store) = (.returned result, s)) :
    ∃ count w', machine.Run w (List.replicate count (.acts party .works)) w' ∧
      w'.store = s ∧ w'.tasks[party]? = some ⟨flag, .ended⟩ := by
  induction n generalizing w stage with
  | zero =>
      cases halone
      exact absurd rfl (hnot result)
  | succ n ih =>
      obtain ⟨henabled, hstore, htask⟩ := step_works h
      rw [Provider.alone_succ] at halone
      cases hnext : flag.provider.next stage w.store with
      | mk stage' s' =>
          rw [hnext] at hstore htask halone
          have hstore : (w.step (.acts party .works)).store = s' := hstore
          by_cases hreturned : ∃ r, stage' = .returned r
          · obtain ⟨r, rfl⟩ := hreturned
            rw [Provider.alone_returned] at halone
            cases halone
            exact ⟨1, _, .single henabled, hstore, htask⟩
          · have hnot' : ∀ r, stage' ≠ .returned r := fun r heq => hreturned ⟨r, heq⟩
            have htask' : (w.step (.acts party .works)).tasks[party]? =
                some ⟨flag, .syncing stage'⟩ := by
              rw [htask]
              cases stage' with
              | returned r => exact absurd rfl (hnot' r)
              | _ => rfl
            rw [← hstore] at halone
            obtain ⟨count, w', hrun, hdone⟩ := ih htask' hnot' halone
            exact ⟨count + 1, w', .cons henabled hrun, hdone⟩

/-- A sync whose accesses nobody comes between does what its function does. -/
theorem sync_undisturbed {w : World} {party : Nat} {flag : SyncFlag} {env : SyncEnv}
    {connection : Connection}
    (h : w.tasks[party]? = some ⟨flag, .syncing (.spawned env connection)⟩) :
    ∃ count w', machine.Run w (List.replicate count (.acts party .works)) w' ∧
      w'.store = (flag.provider.sync env connection w.store).2 ∧
      w'.tasks[party]? = some ⟨flag, .ended⟩ :=
  works_alone h nofun (flag.provider.next_sync env connection w.store)

end World

/-! ## §2  The flags by themselves -/

/-- What a party can do, one case each. -/
inductive Task.Turns (flag : SyncFlag) (s : Store) : Stage → Act → Turn → Prop
  | savesConnection {connection : Connection}
      (same : connection.connectorType = flag.connectorType)
      (live : connection.deletedAt = none) :
      Turns flag s .creating (.savesConnection connection)
        (.goes (.saved connection) (s.upsertConnection connection))
  | savesSecret (connection : Connection) (secret : Secret) :
      Turns flag s (.saved connection) (.savesSecret secret)
        (.goes (.saved connection) (s.afterSecret connection.connectionId secret))
  | removesSecret (connection : Connection) :
      Turns flag s (.saved connection) .removesSecret
        (.goes (.saved connection) (s.removeConnectionSecret connection.connectionId))
  | withdraws (connection : Connection) :
      Turns flag s (.saved connection) .withdraws
        (.goes .withdrawn (s.afterPurge connection.connectionId))
  | fails {stage : Stage} (creating : stage.phase = .creating) :
      Turns flag s stage .fails (.clears s)
  | enqueues {stage : Stage} {connection : Connection} (spawns : stage.phase.spawns = true)
      (has : stage.connection? = some connection) (uuid : Uuid) (env : SyncEnv) :
      Turns flag s stage (.enqueues uuid env)
        (Task.enqueued flag s stage.phase connection uuid env)
  | works {stage : SyncStage} :
      Turns flag s (.syncing stage) .works
        (.goes (.syncing (flag.provider.next stage s).1) (flag.provider.next stage s).2)
  | returns {stage : SyncStage} :
      Turns flag s (.syncing stage) .works (.goes .ended (flag.provider.next stage s).2)
  | unwinds {stage : SyncStage} (guarded : flag.guarded = true) :
      Turns flag s (.syncing stage) .panics (.goes .ended s)
  | leaks {stage : SyncStage} (unguarded : flag.guarded = false) :
      Turns flag s (.syncing stage) .panics (.leaves s)
  | releases : Turns flag s .ended .releases (.clears s)
  | purges (connection : Connection) :
      Turns flag s (.purging connection) .purges
        (.goes .purged (s.afterPurge connection.connectionId))
  | purgeEnds : Turns flag s .purged .purgeEnds (.clears s)

theorem Task.turn_cases {flag : SyncFlag} {s : Store} {stage : Stage} {act : Act} {turn : Turn}
    (h : Task.turn flag s stage act = some turn) : Task.Turns flag s stage act turn := by
  cases stage with
  | creating =>
      cases act with
      | savesConnection connection =>
          simp only [Task.turn] at h
          split at h
          · rename_i hchecked
            cases h
            exact .savesConnection hchecked.1 hchecked.2
          · cases h
      | fails =>
          cases h
          exact .fails rfl
      | _ => cases h
  | saved connection =>
      cases act with
      | savesSecret secret =>
          cases h
          exact .savesSecret connection secret
      | removesSecret =>
          cases h
          exact .removesSecret connection
      | withdraws =>
          cases h
          exact .withdraws connection
      | fails =>
          cases h
          exact .fails rfl
      | enqueues uuid env =>
          cases h
          exact Task.Turns.enqueues rfl rfl uuid env
      | _ => cases h
  | withdrawn =>
      cases act with
      | fails =>
          cases h
          exact .fails rfl
      | _ => cases h
  | manual connection =>
      cases act with
      | enqueues uuid env =>
          cases h
          exact Task.Turns.enqueues rfl rfl uuid env
      | _ => cases h
  | scheduled connection =>
      cases act with
      | enqueues uuid env =>
          cases h
          exact Task.Turns.enqueues rfl rfl uuid env
      | _ => cases h
  | syncing stage =>
      cases act with
      | works =>
          simp only [Task.turn] at h
          split at h
          · rename_i result s' hnext
            cases h
            have hstore : s' = (flag.provider.next stage s).2 := by rw [hnext]
            rw [hstore]
            exact .returns
          · rename_i stage' s' _ hnext
            cases h
            have hgoes : (.goes (.syncing stage') s' : Turn) = .goes
                (.syncing (flag.provider.next stage s).1) (flag.provider.next stage s).2 := by
              rw [hnext]
            rw [hgoes]
            exact .works
      | panics =>
          simp only [Task.turn] at h
          split at h
          · rename_i guarded
            cases h
            exact .unwinds guarded
          · rename_i unguarded
            cases h
            exact .leaks (by simpa using unguarded)
      | _ => cases h
  | ended =>
      cases act with
      | releases =>
          cases h
          exact .releases
      | _ => cases h
  | purging connection =>
      cases act with
      | purges =>
          cases h
          exact .purges connection
      | _ => cases h
  | purged =>
      cases act with
      | purgeEnds =>
          cases h
          exact .purgeEnds
      | _ => cases h

def Task.party (task : Task) : Party := ⟨task.flag, task.stage.phase⟩

namespace World

variable {w : World} {call : WorldStep}

/-- The flags and the phases of the parties that hold one. -/
def flights (w : World) : Flights := ⟨w.running, w.tasks.map Task.party⟩

theorem flights_swap (w : World) (flag : SyncFlag) (stage : Stage) :
    (w.swap flag stage).flights = w.flights.swap flag stage.phase := by
  unfold swap Flights.swap
  have hrunning : w.flights.running = w.running := rfl
  rw [hrunning]
  split
  · rfl
  · simp [flights, Task.party]

theorem flights_turned (w : World) (party : Nat) (flag : SyncFlag) (turn : Turn) :
    (w.turned party flag turn).flights =
      match turn with
      | .goes stage _ => w.flights.move party ⟨flag, stage.phase⟩
      | .clears _ => w.flights.clear party flag
      | .leaves _ => w.flights.leave party := by
  cases turn with
  | goes stage s => simp [turned, flights, Flights.move, Task.party, List.map_set]
  | clears s => simp [turned, flights, Flights.clear, List.eraseIdx_map]
  | leaves s => simp [turned, flights, Flights.leave, List.eraseIdx_map]

theorem party_at {party : Nat} {task : Task} (h : w.tasks[party]? = some task) :
    w.flights.parties[party]? = some task.party := by
  simp [flights, h]

/-- A party that goes on in its phase moves nothing. -/
theorem move_same {party : Nat} {task : Task} {phase : Phase}
    (h : w.tasks[party]? = some task) (hphase : phase = task.stage.phase) :
    w.flights.move party ⟨task.flag, phase⟩ = w.flights := by
  obtain ⟨hlt, hget⟩ := List.getElem?_eq_some_iff.mp (party_at h)
  have hparty : (⟨task.flag, phase⟩ : Party) = w.flights.parties[party] := by
    rw [hget, hphase]
    rfl
  unfold Flights.move
  rw [hparty, List.set_getElem_self]

theorem acts_cases {party : Nat} {act : Act} (hen : w.Enabled (.acts party act)) :
    ∃ task turn, w.tasks[party]? = some task ∧
      Task.Turns task.flag w.store task.stage act turn ∧
      (∀ id ∈ mints act, id ∉ w.minted) ∧
      w.step (.acts party act) =
        { w.turned party task.flag turn with minted := mints act ++ w.minted } := by
  obtain ⟨hsome, hminted⟩ := hen
  obtain ⟨⟨flag, turn⟩, hturn⟩ := Option.isSome_iff_exists.mp hsome
  have hstep : w.step (.acts party act) =
      { w.turned party flag turn with minted := mints act ++ w.minted } := by
    show w.acts party act = _
    unfold acts
    rw [hturn]
  unfold turnOf at hturn
  cases htask : w.tasks[party]? with
  | none => simp [htask] at hturn
  | some task =>
      simp only [htask, Option.map_eq_some_iff, Prod.mk.injEq] at hturn
      obtain ⟨turn', hturn, hflag, rfl⟩ := hturn
      rw [← hflag] at hstep
      exact ⟨task, turn', rfl, Task.turn_cases hturn, hminted, hstep⟩

/-- Each step is one of the machine of single flight, or none. -/
theorem step_flights (hen : w.Enabled call) :
    (w.step call).flights = w.flights ∨
      ∃ f, w.flights.Enabled f ∧ (w.step call).flights = w.flights.step f := by
  cases call with
  | resolves asked id =>
      left
      show (w.resolves asked id).flights = _
      unfold resolves
      cases w.store.connections.get id with
      | none => rfl
      | some connection =>
          simp only
          split
          · rfl
          · rfl
  | admits command =>
      show (w.admits command).flights = _ ∨ ∃ f, _ ∧ (w.admits command).flights = _
      unfold admits
      cases w.resolved[command]? with
      | none => exact Or.inl rfl
      | some resolved =>
          obtain ⟨asked, connection⟩ := resolved
          cases asked with
          | manual => exact Or.inr ⟨.manualGithubSync, trivial, flights_swap _ _ _⟩
          | scheduled =>
              refine Or.inr ⟨.schedule connection.connectorType, trivial, ?_⟩
              simp only [takes, Flights.step, Flights.swapOf]
              cases SyncFlag.ofLiveType connection.connectorType with
              | none => rfl
              | some flag => exact flights_swap _ _ _
          | purge =>
              refine Or.inr ⟨.purgeConnection connection.connectorType, trivial, ?_⟩
              simp only [takes, Flights.step, Flights.swapOf]
              cases SyncFlag.ofType connection.connectorType with
              | none => rfl
              | some flag => exact flights_swap _ _ _
  | createConnection flag => exact Or.inr ⟨.createConnection flag, trivial, flights_swap _ _ _⟩
  | binds commit => exact Or.inl rfl
  | acts party act =>
      obtain ⟨task, turn, htask, hturns, -, hstep⟩ := acts_cases hen
      have hflights : (w.step (.acts party act)).flights =
          (w.turned party task.flag turn).flights := by
        rw [hstep]
        rfl
      rw [hflights, flights_turned]
      have hat := party_at htask
      obtain ⟨flag, stage⟩ := task
      cases hturns with
      | savesConnection same live => exact Or.inl (move_same htask rfl)
      | savesSecret connection secret => exact Or.inl (move_same htask rfl)
      | removesSecret connection => exact Or.inl (move_same htask rfl)
      | withdraws connection => exact Or.inl (move_same htask rfl)
      | works => exact Or.inl (move_same htask rfl)
      | purges connection => exact Or.inl (move_same htask rfl)
      | fails creating =>
          refine Or.inr ⟨.fails party, ?_, ?_⟩
          · show (w.flights.parties[party]?).map Party.phase = _
            rw [hat, ← creating]
            rfl
          · show _ = w.flights.clearOf party
            unfold Flights.clearOf
            rw [hat]
            rfl
      | enqueues spawns has uuid env =>
          refine Or.inr ⟨.enqueue party uuid, ?_, ?_⟩
          · show ((w.flights.parties[party]?).map fun p => p.phase.spawns) = _
            rw [hat, ← spawns]
            rfl
          · show _ = w.flights.enqueue party uuid
            obtain ⟨id, hid⟩ := Flights.enqueuedRunId_ok flag stage.phase uuid
            unfold Flights.enqueue Task.enqueued
            rw [hat]
            simp only [Task.party, hid]
            rfl
      | returns =>
          refine Or.inr ⟨.syncEnds party .success, ?_, ?_⟩
          · show (w.flights.parties[party]?).map Party.phase = _
            rw [hat]
            rfl
          · show _ = w.flights.syncEnds party .success
            unfold Flights.syncEnds
            rw [hat]
            rfl
      | unwinds guarded =>
          refine Or.inr ⟨.syncEnds party .panic, ?_, ?_⟩
          · show (w.flights.parties[party]?).map Party.phase = _
            rw [hat]
            rfl
          · show _ = w.flights.syncEnds party .panic
            unfold Flights.syncEnds
            rw [hat]
            simp [Task.party, guarded, Stage.phase]
      | leaks unguarded =>
          refine Or.inr ⟨.syncEnds party .panic, ?_, ?_⟩
          · show (w.flights.parties[party]?).map Party.phase = _
            rw [hat]
            rfl
          · show _ = w.flights.syncEnds party .panic
            unfold Flights.syncEnds
            rw [hat]
            simp [Task.party, unguarded]
      | releases =>
          refine Or.inr ⟨.releases party, ?_, ?_⟩
          · show (w.flights.parties[party]?).map Party.phase = _
            rw [hat]
            rfl
          · show _ = w.flights.clearOf party
            unfold Flights.clearOf
            rw [hat]
            rfl
      | purgeEnds =>
          refine Or.inr ⟨.purgeEnds party, ?_, ?_⟩
          · show (w.flights.parties[party]?).map Party.phase = _
            rw [hat]
            rfl
          · show _ = w.flights.clearOf party
            unfold Flights.clearOf
            rw [hat]
            rfl

/-- No flag has two parties. -/
theorem owned_preserved : machine.Preserves fun w => w.flights.Owned := by
  intro w call hen howned
  show (w.step call).flights.Owned
  rcases step_flights hen with heq | ⟨f, hf, heq⟩
  · rw [heq]
    exact howned
  · rw [heq]
    exact Flights.owned_preserved w.flights f hf howned

end World

/-! ## §3  Who knows a connection -/

namespace Store

variable {s : Store} {f : Footprint}

theorem confined_afterPurge (s : Store) {id : ConnectionId} (hloses : f.loses = some id) :
    s.Confined f (s.afterPurge id) := by
  unfold afterPurge
  cases hpurge : s.purgeConnection id with
  | error e => exact .refl s
  | ok answer =>
      obtain ⟨summary, s'⟩ := answer
      obtain ⟨_, _, _, rfl⟩ := purgeConnection_ok hpurge
      exact confined_purged s hloses

theorem confined_afterSecret (s : Store) (id : ConnectionId) (secret : Secret) :
    s.Confined f (s.afterSecret id secret) := by
  unfold afterSecret
  cases hput : s.upsertConnectionSecret id secret with
  | error e => exact .refl s
  | ok s' => exact confined_secret hput

theorem confined_removeConnectionSecret (s : Store) (id : ConnectionId) :
    s.Confined f (s.removeConnectionSecret id) :=
  .of_same rfl rfl fun hs => ⟨hs.syncRuns, hs.resources, hs.connectorState⟩

theorem confined_afterBinding (s : Store) (commit : BindingCommit) :
    s.Confined f (s.afterBinding commit) := by
  unfold afterBinding
  cases hcommit : s.commitBinding commit with
  | error e => exact .refl s
  | ok s' =>
      have heq := (commitBinding_ok hcommit).eq
      simp only
      rw [heq]
      exact .of_same rfl rfl fun hs => ⟨hs.syncRuns, hs.resources, hs.connectorState⟩

end Store

namespace Stage

/-- The connection an act is about: the one just created, or the party's own. -/
def knows (stage : Stage) : Act → Option Connection
  | .savesConnection connection => some connection
  | _ => stage.connection?

/-- What an act may do to the connections. -/
def footprint : Stage → Act → Footprint
  | .creating, .savesConnection connection => { writes := some connection }
  | .saved connection, .withdraws => { loses := some connection.connectionId }
  | .syncing stage, .works => { writes := stage.connection?, gains := stage.connection? }
  | .purging connection, .purges => { loses := some connection.connectionId }
  | _, _ => {}

theorem knows_of_writes {stage : Stage} {act : Act} {c : Connection}
    (h : (stage.footprint act).writes = some c) : stage.knows act = some c := by
  unfold footprint at h
  split at h
  · exact h
  · cases h
  · exact h
  · cases h
  · cases h

/-- Only a sync gains resources. -/
theorem syncing_of_gains {stage : Stage} {act : Act} {c : Connection}
    (h : (stage.footprint act).gains = some c) :
    stage.connection? = some c ∧ ∃ sync, stage = .syncing sync := by
  unfold footprint at h
  split at h
  · cases h
  · cases h
  · exact ⟨h, _, rfl⟩
  · cases h
  · cases h

/-- Only a purge takes a row away. -/
theorem purges_of_loses {stage : Stage} {act : Act} {id : ConnectionId}
    (h : (stage.footprint act).loses = some id) :
    ∃ c, c.connectionId = id ∧
      (stage = .saved c ∧ act = .withdraws ∨ stage = .purging c ∧ act = .purges) := by
  unfold footprint at h
  split at h
  · cases h
  · rename_i c
    exact ⟨c, Option.some.inj h, Or.inl ⟨rfl, rfl⟩⟩
  · cases h
  · rename_i c
    exact ⟨c, Option.some.inj h, Or.inr ⟨rfl, rfl⟩⟩
  · cases h

end Stage

def Turn.store : Turn → Store
  | .goes _ s => s
  | .clears s => s
  | .leaves s => s

theorem Task.enqueued_eq (flag : SyncFlag) (s : Store) (phase : Phase) (connection : Connection)
    (uuid : Uuid) (env : SyncEnv) :
    ∃ id trigger, Task.enqueued flag s phase connection uuid env =
      .goes (.syncing (.spawned { env with syncRunId := id, trigger := trigger } connection)) s := by
  obtain ⟨id, hid⟩ := Flights.enqueuedRunId_ok flag phase uuid
  refine ⟨id, if phase = .scheduled then .schedule else .user, ?_⟩
  unfold Task.enqueued
  rw [hid]

/-- The sync of the party, if it runs one, is of its own connection. -/
def Stage.Own (stage : Stage) : Prop := ∀ sync, stage = .syncing sync → sync.Own

theorem Stage.own_of_idle {stage : Stage} (h : ∀ sync, stage ≠ .syncing sync) : stage.Own :=
  fun sync hsync => absurd hsync (h sync)

/-- What a turn leads its party to: no other connection, and no purge. -/
structure Turn.Leads (own : Option Connection) (next : Stage) : Prop where
  kin : ∀ d, next.connection? = some d → ∃ c, own = some c ∧ d.Kin c
  idle : ∀ d, next ≠ .purging d
  own : next.Own

theorem Turn.Leads.saved (c : Connection) : Turn.Leads (some c) (.saved c) where
  kin := fun d hd => ⟨d, hd, .refl d⟩
  idle := nofun
  own := Stage.own_of_idle fun _ h => nomatch h

theorem Turn.Leads.done {own : Option Connection} {stage : Stage} (hnone : stage.connection? = none)
    (hidle : ∀ d, stage ≠ .purging d) (hsync : ∀ sync, stage ≠ .syncing sync) :
    Turn.Leads own stage where
  kin := by
    rw [hnone]
    exact nofun
  idle := hidle
  own := Stage.own_of_idle hsync

/-- An act writes what its party knows, and leads it to no other connection. -/
theorem Task.Turns.confined {flag : SyncFlag} {s : Store} {stage : Stage} {act : Act} {turn : Turn}
    (h : Task.Turns flag s stage act turn) (hown : stage.Own) :
    s.Confined (stage.footprint act) turn.store ∧
      ∀ next s', turn = .goes next s' → Turn.Leads (stage.knows act) next := by
  cases h with
  | savesConnection same live =>
      refine ⟨Store.confined_upsertConnection (.refl _) s rfl, ?_⟩
      rintro next s' heq
      cases heq
      exact .saved _
  | savesSecret connection secret =>
      refine ⟨Store.confined_afterSecret s _ secret, ?_⟩
      rintro next s' heq
      cases heq
      exact .saved connection
  | removesSecret connection =>
      refine ⟨Store.confined_removeConnectionSecret s _, ?_⟩
      rintro next s' heq
      cases heq
      exact .saved connection
  | withdraws connection =>
      refine ⟨Store.confined_afterPurge s rfl, ?_⟩
      rintro next s' heq
      cases heq
      exact .done rfl nofun fun _ h => nomatch h
  | fails creating => exact ⟨.refl s, fun _ _ heq => Turn.noConfusion heq⟩
  | enqueues spawns has uuid env =>
      rename_i connection
      obtain ⟨id, trigger, heq⟩ := Task.enqueued_eq flag s stage.phase connection uuid env
      rw [heq]
      refine ⟨.refl s, ?_⟩
      rintro next s' heq
      cases heq
      refine ⟨fun d hd => ⟨connection, has, ?_⟩, nofun, ?_⟩
      · cases hd
        exact .refl connection
      · rintro sync hsync
        cases hsync
        exact trivial
  | works =>
      rename_i stage
      obtain ⟨hconfined, hnext, hleads⟩ := flag.provider.next_confined s (hown stage rfl)
      refine ⟨hconfined, ?_⟩
      rintro next s' heq
      cases heq
      refine ⟨hleads, nofun, ?_⟩
      rintro sync hsync
      cases hsync
      exact hnext
  | returns =>
      rename_i stage
      refine ⟨(flag.provider.next_confined s (hown stage rfl)).1, ?_⟩
      rintro next s' heq
      cases heq
      exact .done rfl nofun fun _ h => nomatch h
  | unwinds guarded =>
      refine ⟨.refl s, ?_⟩
      rintro next s' heq
      cases heq
      exact .done rfl nofun fun _ h => nomatch h
  | leaks unguarded => exact ⟨.refl s, fun _ _ heq => Turn.noConfusion heq⟩
  | releases => exact ⟨.refl s, fun _ _ heq => Turn.noConfusion heq⟩
  | purges connection =>
      refine ⟨Store.confined_afterPurge s rfl, ?_⟩
      rintro next s' heq
      cases heq
      exact .done rfl nofun fun _ h => nomatch h
  | purgeEnds => exact ⟨.refl s, fun _ _ heq => Turn.noConfusion heq⟩

namespace World

variable {w : World} {call : WorldStep}

/-- A connection as a row, a command or a party has it. -/
inductive Sees (w : World) : Connection → Prop
  | row {c : Connection} (stored : c ∈ w.store.connections.rows) : Sees w c
  | read {r : Resolved} (waits : r ∈ w.resolved) : Sees w r.connection
  | held {task : Task} {c : Connection} (works : task ∈ w.tasks)
      (holds : task.stage.connection? = some c) : Sees w c
  | target {task : Task} {c : Connection} (works : task ∈ w.tasks)
      (aims : task.stage = .purging c) : Sees w c

/-- The tasks, commands and rows after an act. -/
theorem mem_tasks_turned {party : Nat} {flag : SyncFlag} {turn : Turn} {task : Task}
    (h : task ∈ (w.turned party flag turn).tasks) :
    task ∈ w.tasks ∨ ∃ stage s, turn = .goes stage s ∧ task = ⟨flag, stage⟩ := by
  cases turn with
  | goes stage s =>
      rcases List.mem_or_eq_of_mem_set h with h | h
      · exact Or.inl h
      · exact Or.inr ⟨stage, s, rfl, h⟩
  | clears s => exact Or.inl (List.mem_of_mem_eraseIdx h)
  | leaves s => exact Or.inl (List.mem_of_mem_eraseIdx h)

theorem store_turned (w : World) (party : Nat) (flag : SyncFlag) (turn : Turn) :
    (w.turned party flag turn).store = turn.store := by
  cases turn with
  | goes stage s => rfl
  | clears s => rfl
  | leaves s => rfl

theorem resolved_turned (w : World) (party : Nat) (flag : SyncFlag) (turn : Turn) :
    (w.turned party flag turn).resolved = w.resolved := by
  cases turn with
  | goes stage s => rfl
  | clears s => rfl
  | leaves s => rfl

theorem mem_tasks_swap {flag : SyncFlag} {stage : Stage} {task : Task}
    (h : task ∈ (w.swap flag stage).tasks) : task ∈ w.tasks ∨ task = ⟨flag, stage⟩ := by
  unfold swap at h
  split at h
  · exact Or.inl h
  · simpa using h

theorem swap_rest (w : World) (flag : SyncFlag) (stage : Stage) :
    (w.swap flag stage).store = w.store ∧ (w.swap flag stage).resolved = w.resolved ∧
      (w.swap flag stage).minted = w.minted := by
  unfold swap
  split
  · exact ⟨rfl, rfl, rfl⟩
  · exact ⟨rfl, rfl, rfl⟩

/-- Whose connection a step may write. -/
inductive Origin (w w' : World) : Option Connection → Prop
  | nobody : Origin w w' none
  | party {task : Task} {c : Connection} (works : task ∈ w.tasks)
      (holds : task.stage.connection? = some c) : Origin w w' (some c)
  | command {r : Resolved} (waits : r ∈ w.resolved) (asks : r.asked ≠ .purge) :
      Origin w w' (some r.connection)
  | created {c : Connection} (new : c.connectionId ∉ w.minted)
      (minted : c.connectionId ∈ w'.minted) (live : c.deletedAt = none)
      (stored : c ∈ w'.store.connections.rows) : Origin w w' (some c)

/-- A purge of a type without a flag takes the rows away at once. -/
def takesAway : Resolved → Footprint
  | ⟨.manual, _⟩ => {}
  | ⟨.scheduled, _⟩ => {}
  | ⟨.purge, connection⟩ =>
      match SyncFlag.ofType connection.connectorType with
      | none => { loses := some connection.connectionId }
      | some _ => {}

/-- What a step may do to the connections. -/
def footprint (w : World) : WorldStep → Footprint
  | .acts party act => (w.tasks[party]?).elim {} fun task => task.stage.footprint act
  | .admits command => (w.resolved[command]?).elim {} takesAway
  | .resolves _ _ => {}
  | .createConnection _ => {}
  | .binds _ => {}

/-- What a step leads to, beside what was there before. -/
structure Follows (w w' : World) (f : Footprint) (own : Option Connection) : Prop where
  store : w.store.Confined f w'.store
  writes : ∀ c, f.writes = some c → own = some c
  gains : ∀ c, f.gains = some c →
    ∃ task ∈ w.tasks, task.stage.connection? = some c ∧ ∃ sync, task.stage = .syncing sync
  tasks : ∀ task ∈ w'.tasks, task ∈ w.tasks ∨
    (∀ d, task.stage.connection? = some d →
      d.connectorType = task.flag.connectorType ∧ ∃ c, own = some c ∧ d.Kin c) ∧
    (∀ d, task.stage = .purging d →
      d.connectorType = task.flag.connectorType ∧ ∃ r ∈ w.resolved, r.connection = d) ∧
    task.stage.Own
  resolved : ∀ r ∈ w'.resolved, r ∈ w.resolved ∨
    (r.connection ∈ w.store.connections.rows ∧ r.asked.serves r.connection = true)
  minted : ∀ id ∈ w.minted, id ∈ w'.minted

/-- A step that touches neither connections nor parties. -/
theorem Follows.idle {w w' : World} {f : Footprint} (hstore : w.store.Confined f w'.store)
    (hwrites : f.writes = none) (hgains : f.gains = none) (htasks : w'.tasks = w.tasks)
    (hresolved : ∀ r ∈ w'.resolved, r ∈ w.resolved ∨
      (r.connection ∈ w.store.connections.rows ∧ r.asked.serves r.connection = true))
    (hminted : w'.minted = w.minted) : w.Follows w' f none where
  store := hstore
  writes := by
    rw [hwrites]
    exact nofun
  gains := by
    rw [hgains]
    exact nofun
  tasks := by
    rw [htasks]
    exact fun _ h => Or.inl h
  resolved := hresolved
  minted := by
    rw [hminted]
    exact fun _ h => h

/-- What is checked before a command waits, and before a party starts. -/
structure Checked (w : World) : Prop where
  flags : ∀ task ∈ w.tasks, ∀ c, task.stage.connection? = some c ∨ task.stage = .purging c →
    c.connectorType = task.flag.connectorType
  served : ∀ r ∈ w.resolved, r.asked.serves r.connection = true
  own : ∀ task ∈ w.tasks, task.stage.Own

theorem follows_resolves (w : World) (asked : Asked) (id : ConnectionId) :
    w.Follows (w.resolves asked id) {} none := by
  have hstays : w.Follows w {} none := .idle (.refl _) rfl rfl rfl (fun _ h => Or.inl h) rfl
  unfold resolves
  cases hrow : w.store.connections.get id with
  | none => exact hstays
  | some connection =>
      simp only
      split
      · rename_i serves
        refine .idle (.refl _) rfl rfl rfl ?_ rfl
        intro r hr
        rcases List.mem_append.mp hr with hr | hr
        · exact Or.inl hr
        · rw [List.mem_singleton] at hr
          subst hr
          exact Or.inr ⟨(KeyedTable.get_eq_some_iff.mp hrow).1, serves⟩
      · exact hstays

/-- A command that starts a party, or is turned away. -/
theorem follows_swap (w w' : World) (hstore : w'.store = w.store) (htasks : w'.tasks = w.tasks)
    (hresolved : ∀ r ∈ w'.resolved, r ∈ w.resolved) (hminted : w'.minted = w.minted)
    {flag : SyncFlag} {stage : Stage} {own : Option Connection}
    (hheld : ∀ d, stage.connection? = some d →
      d.connectorType = flag.connectorType ∧ ∃ c, own = some c ∧ d.Kin c)
    (htarget : ∀ d, stage = .purging d →
      d.connectorType = flag.connectorType ∧ ∃ r ∈ w.resolved, r.connection = d)
    (hsync : ∀ sync, stage ≠ .syncing sync) : w.Follows (w'.swap flag stage) {} own := by
  obtain ⟨hstore', hresolved', hminted'⟩ := swap_rest w' flag stage
  refine ⟨?_, nofun, nofun, ?_, ?_, ?_⟩
  · rw [hstore', hstore]
    exact .refl _
  · intro task htask
    rcases mem_tasks_swap htask with h | rfl
    · rw [htasks] at h
      exact Or.inl h
    · exact Or.inr ⟨hheld, htarget, Stage.own_of_idle hsync⟩
  · rw [hresolved']
    exact fun r hr => Or.inl (hresolved r hr)
  · rw [hminted', hminted]
    exact fun _ h => h

theorem follows_admits (hc : w.Checked) {command : Nat} (hlt : command < w.resolved.length) :
    ∃ own, w.Origin (w.admits command) own ∧
      w.Follows (w.admits command) (w.footprint (.admits command)) own := by
  have hat : w.resolved[command]? = some w.resolved[command] := List.getElem?_eq_getElem hlt
  have hmem : w.resolved[command] ∈ w.resolved := List.getElem_mem hlt
  have hserved := hc.served _ hmem
  have hfootprint : w.footprint (.admits command) = takesAway w.resolved[command] := by
    show (w.resolved[command]?).elim {} takesAway = _
    rw [hat]
    rfl
  rw [hfootprint]
  unfold admits
  rw [hat]
  simp only
  generalize w.resolved[command] = r at hmem hserved
  obtain ⟨asked, connection⟩ := r
  have herase : ∀ r ∈ (w.answered command).resolved, r ∈ w.resolved :=
    fun r hr => List.mem_of_mem_eraseIdx hr
  cases asked with
  | manual =>
      have htype : connection.connectorType = .github :=
        of_decide_eq_true (Bool.and_eq_true_iff.mp hserved).2
      have hswap : w.Follows ((w.answered command).swap .github (.manual connection)) {}
          (some connection) := by
        refine follows_swap w (w.answered command) rfl rfl herase rfl ?_ nofun fun _ h => nomatch h
        intro d hd
        cases hd
        exact ⟨htype, connection, rfl, .refl connection⟩
      exact ⟨some connection, .command hmem nofun, hswap⟩
  | scheduled =>
      simp only [takes]
      cases hflag : SyncFlag.ofLiveType connection.connectorType with
      | none =>
          exact ⟨none, .nobody, .idle (.refl _) rfl rfl rfl (fun r hr => Or.inl (herase r hr)) rfl⟩
      | some flag =>
          have htype := SyncFlag.connectorType_of_live hflag
          have hswap : w.Follows ((w.answered command).swap flag (.scheduled connection)) {}
              (some connection) := by
            refine follows_swap w (w.answered command) rfl rfl herase rfl ?_ nofun
              fun _ h => nomatch h
            intro d hd
            cases hd
            exact ⟨htype.symm, connection, rfl, .refl connection⟩
          exact ⟨some connection, .command hmem nofun, hswap⟩
  | purge =>
      simp only [takes, takesAway]
      cases hflag : SyncFlag.ofType connection.connectorType with
      | none =>
          exact ⟨none, .nobody, .idle (Store.confined_afterPurge _ rfl) rfl rfl rfl
            (fun r hr => Or.inl (herase r hr)) rfl⟩
      | some flag =>
          have htype := SyncFlag.connectorType_ofType hflag
          have hswap : w.Follows ((w.answered command).swap flag (.purging connection)) {} none := by
            refine follows_swap w (w.answered command) rfl rfl herase rfl nofun ?_
              fun _ h => nomatch h
            intro d hd
            cases hd
            exact ⟨htype.symm, _, hmem, rfl⟩
          exact ⟨none, .nobody, hswap⟩

theorem follows_acts (hc : w.Checked) {party : Nat} {act : Act}
    (hen : w.Enabled (.acts party act)) :
    ∃ own, w.Origin (w.step (.acts party act)) own ∧
      w.Follows (w.step (.acts party act)) (w.footprint (.acts party act)) own := by
  obtain ⟨task, turn, htask, hturns, hnew, hstep⟩ := acts_cases hen
  have hmem : task ∈ w.tasks := List.mem_of_getElem? htask
  obtain ⟨flag, stage⟩ := task
  obtain ⟨hconfined, hleads⟩ := hturns.confined (hc.own _ hmem)
  -- the type of what is written is checked once, when a create command saves it
  have hsame : ∀ connection, act = .savesConnection connection →
      connection.connectorType = flag.connectorType ∧ connection.deletedAt = none ∧
        connection ∈ turn.store.connections.rows := by
    rintro connection rfl
    cases hturns with
    | savesConnection same live => exact ⟨same, live, KeyedTable.mem_put.mpr (Or.inl rfl)⟩
  have hfootprint : w.footprint (.acts party act) = stage.footprint act := by
    show ((w.tasks[party]?).elim {} fun task => task.stage.footprint act) = _
    rw [htask]
    rfl
  have hfollows : w.Follows (w.step (.acts party act)) (stage.footprint act) (stage.knows act) := by
    rw [hstep]
    refine ⟨?_, fun c hc => Stage.knows_of_writes hc, ?_, ?_, ?_, ?_⟩
    · show w.store.Confined _ (w.turned party flag turn).store
      rw [store_turned]
      exact hconfined
    · intro c hgains
      exact ⟨_, hmem, Stage.syncing_of_gains hgains⟩
    · intro other hother
      rcases mem_tasks_turned hother with h | ⟨next, s, rfl, rfl⟩
      · exact Or.inl h
      · have hnext := hleads next s rfl
        refine Or.inr ⟨fun d hd => ?_, fun d hd => absurd hd (hnext.idle d), hnext.own⟩
        obtain ⟨c, hknows, hkin⟩ := hnext.kin d hd
        refine ⟨?_, c, hknows, hkin⟩
        rw [hkin.connectorType]
        cases act with
        | savesConnection connection =>
            cases hknows
            exact (hsame _ rfl).1
        | _ => exact hc.flags _ hmem c (Or.inl hknows)
    · intro r hr
      have hr' : r ∈ (w.turned party flag turn).resolved := hr
      rw [resolved_turned] at hr'
      exact Or.inl hr'
    · intro id hid
      show id ∈ mints act ++ w.minted
      exact List.mem_append_right _ hid
  rw [hfootprint]
  refine ⟨stage.knows act, ?_, hfollows⟩
  cases act with
  | savesConnection connection =>
      obtain ⟨_, hlive, hstored⟩ := hsame connection rfl
      refine .created (hnew _ (List.mem_singleton_self _)) ?_ hlive ?_
      · rw [hstep]
        exact List.mem_append_left _ (List.mem_singleton_self _)
      · rw [hstep]
        show _ ∈ (w.turned party flag turn).store.connections.rows
        rw [store_turned]
        exact hstored
  | _ =>
      show w.Origin _ stage.connection?
      cases hconnection : stage.connection? with
      | none => exact .nobody
      | some c => exact .party hmem hconnection

/-- What any step may write, and what it leads to. -/
theorem step_follows (hc : w.Checked) (hen : w.Enabled call) :
    ∃ own, w.Origin (w.step call) own ∧ w.Follows (w.step call) (w.footprint call) own := by
  cases call with
  | resolves asked id => exact ⟨none, .nobody, follows_resolves w asked id⟩
  | admits command => exact follows_admits hc hen
  | createConnection flag =>
      exact ⟨none, .nobody, follows_swap w w rfl rfl (fun _ h => h) rfl nofun nofun
        fun _ h => nomatch h⟩
  | acts party act => exact follows_acts hc hen
  | binds commit =>
      exact ⟨none, .nobody, .idle (Store.confined_afterBinding _ _) rfl rfl rfl
        (fun _ h => Or.inl h) rfl⟩

/-- Everybody agrees on the type of a connection, and nobody knows one that was
never made. -/
structure Sound (w : World) : Prop where
  integral : w.store.Integral
  owned : w.flights.Owned
  checked : w.Checked
  kin : ∀ c d, w.Sees c → w.Sees d → c.connectionId = d.connectionId →
    c.connectorType = d.connectorType
  minted : ∀ c, w.Sees c → c.connectionId ∈ w.minted

section

variable {w' : World} {f : Footprint} {own : Option Connection}

/-- The connection a create command writes is a new one. -/
structure Created (w w' : World) (c : Connection) : Prop where
  new : c.connectionId ∉ w.minted
  minted : c.connectionId ∈ w'.minted
  live : c.deletedAt = none

/-- After a step a connection is an old one, or the one just created. -/
theorem sees_of_follows (horigin : w.Origin w' own) (hfollows : w.Follows w' f own) {c : Connection}
    (h : w'.Sees c) :
    (∃ d, w.Sees d ∧ c.Kin d) ∨ ∃ d, own = some d ∧ w.Created w' d ∧ c.Kin d := by
  have hown : ∀ d, own = some d → c.Kin d →
      (∃ d, w.Sees d ∧ c.Kin d) ∨ ∃ d, own = some d ∧ w.Created w' d ∧ c.Kin d := by
    rintro d rfl hkin
    cases horigin with
    | party works holds => exact Or.inl ⟨d, .held works holds, hkin⟩
    | command waits asks => exact Or.inl ⟨_, .read waits, hkin⟩
    | created new minted live stored => exact Or.inr ⟨d, rfl, ⟨new, minted, live⟩, hkin⟩
  cases h with
  | row stored =>
      rcases hfollows.store.rows c stored with hold | ⟨d, hd, hkin⟩
      · exact Or.inl ⟨c, .row hold, .refl c⟩
      · exact hown d (hfollows.writes d hd) hkin
  | read waits =>
      rcases hfollows.resolved _ waits with hold | ⟨hrow, _⟩
      · exact Or.inl ⟨_, .read hold, .refl _⟩
      · exact Or.inl ⟨_, .row hrow, .refl _⟩
  | held works holds =>
      rcases hfollows.tasks _ works with hold | ⟨hnew, _⟩
      · exact Or.inl ⟨c, .held hold holds, .refl c⟩
      · obtain ⟨_, d, hd, hkin⟩ := hnew c holds
        exact hown d hd hkin
  | target works aims =>
      rcases hfollows.tasks _ works with hold | ⟨_, hnew, _⟩
      · exact Or.inl ⟨c, .target hold aims, .refl c⟩
      · obtain ⟨_, r, hr, rfl⟩ := hnew c aims
        exact Or.inl ⟨_, .read hr, .refl _⟩

theorem Checked.follows (hc : w.Checked) (hfollows : w.Follows w' f own) : w'.Checked where
  flags := by
    intro task htask c hknown
    rcases hfollows.tasks task htask with hold | ⟨hheld, htarget, _⟩
    · exact hc.flags task hold c hknown
    · rcases hknown with hconnection | haims
      · exact (hheld c hconnection).1
      · exact (htarget c haims).1
  served := by
    intro r hr
    rcases hfollows.resolved r hr with hold | ⟨_, hserves⟩
    · exact hc.served r hold
    · exact hserves
  own := by
    intro task htask
    rcases hfollows.tasks task htask with hold | ⟨_, _, hown⟩
    · exact hc.own task hold
    · exact hown

end

theorem sound_preserved : machine.Preserves Sound := by
  intro w call hen hs
  show (w.step call).Sound
  obtain ⟨own, horigin, hfollows⟩ := step_follows hs.checked hen
  refine
    { integral := hfollows.store.integral hs.integral
      owned := owned_preserved w call hen hs.owned
      checked := hs.checked.follows hfollows
      kin := ?_
      minted := ?_ }
  · intro c d hc hd hid
    rcases sees_of_follows horigin hfollows hc with ⟨c', hc', hkin⟩ | ⟨e, he, hnew, hkin⟩
    · rcases sees_of_follows horigin hfollows hd with ⟨d', hd', hkin'⟩ | ⟨e, he, hnew, hkin'⟩
      · rw [hkin.connectorType, hkin'.connectorType]
        apply hs.kin c' d' hc' hd'
        rw [← hkin.connectionId, hid, hkin'.connectionId]
      · refine absurd (hs.minted c' hc') ?_
        rw [← hkin.connectionId, hid, hkin'.connectionId]
        exact hnew.new
    · rcases sees_of_follows horigin hfollows hd with ⟨d', hd', hkin'⟩ | ⟨e', he', _, hkin'⟩
      · refine absurd (hs.minted d' hd') ?_
        rw [← hkin'.connectionId, ← hid, hkin.connectionId]
        exact hnew.new
      · rw [he, Option.some.injEq] at he'
        rw [hkin.connectorType, hkin'.connectorType, he']
  · intro c hc
    rcases sees_of_follows horigin hfollows hc with ⟨d, hd, hkin⟩ | ⟨d, _, hnew, hkin⟩
    · rw [hkin.connectionId]
      exact hfollows.minted _ (hs.minted d hd)
    · rw [hkin.connectionId]
      exact hnew.minted

theorem sound_quiet {s : Store} (hs : s.Integral) : (quiet s).Sound := by
  have hsees : ∀ c, (quiet s).Sees c → c ∈ s.connections.rows := by
    intro c hc
    cases hc with
    | row stored => exact stored
    | read waits => cases waits
    | held works holds => cases works
    | target works aims => cases works
  have hchecked : (quiet s).Checked :=
    ⟨fun _ h => absurd h List.not_mem_nil, fun _ h => absurd h List.not_mem_nil,
      fun _ h => absurd h List.not_mem_nil⟩
  refine ⟨hs, Flights.owned_idle, hchecked, ?_, ?_⟩
  · intro c d hc hd hid
    rw [s.connections.row_unique (hsees c hc) (hsees d hd) hid]
  · intro c hc
    exact List.mem_map_of_mem (hsees c hc)

/-- No command marks a connection as deleted. -/
def Live (w : World) : Prop := ∀ c, w.Sees c → c.deletedAt = none

theorem Live.step (h : w.Live) (hs : w.Sound) (hen : w.Enabled call) : (w.step call).Live := by
  obtain ⟨own, horigin, hfollows⟩ := step_follows hs.checked hen
  intro c hc
  rcases sees_of_follows horigin hfollows hc with ⟨d, hd, hkin⟩ | ⟨d, _, hnew, hkin⟩
  · rw [hkin.deletedAt]
    exact h d hd
  · rw [hkin.deletedAt]
    exact hnew.live

end World

/-! ## §4  Whose guard keeps whom away -/

theorem SyncFlag.ofType_connectorType (flag : SyncFlag) :
    SyncFlag.ofType flag.connectorType = some flag := by
  cases flag <;> decide

/-- A type has one flag at most. -/
theorem SyncFlag.eq_of_connectorType {flag other : SyncFlag}
    (h : flag.connectorType = other.connectorType) : flag = other := by
  have hflag := SyncFlag.ofType_connectorType flag
  rw [h, SyncFlag.ofType_connectorType other, Option.some.injEq] at hflag
  exact hflag.symm

namespace World

variable {w : World} {call : WorldStep} {id : ConnectionId}

/-- The connection a party with a flag has, to write or to purge. -/
def Holds (task : Task) (c : Connection) : Prop :=
  task.stage.connection? = some c ∨ task.stage = .purging c

theorem Sound.flag_of_id (hs : w.Sound) {task other : Task} (htask : task ∈ w.tasks)
    (hother : other ∈ w.tasks) {c d : Connection} (hc : Holds task c) (hd : Holds other d)
    (hid : c.connectionId = d.connectionId) : task.flag = other.flag := by
  have hsees : ∀ {task : Task} {c : Connection}, task ∈ w.tasks → Holds task c → w.Sees c := by
    rintro task c htask (hheld | haims)
    · exact .held htask hheld
    · exact .target htask haims
  apply SyncFlag.eq_of_connectorType
  rw [← hs.checked.flags task htask c hc, ← hs.checked.flags other hother d hd]
  exact hs.kin c d (hsees htask hc) (hsees hother hd) hid

/-- One party at most has a connection, to write or to purge. -/
theorem Sound.index_of_id (hs : w.Sound) {i j : Nat} {task other : Task}
    (hi : w.tasks[i]? = some task) (hj : w.tasks[j]? = some other) {c d : Connection}
    (hc : Holds task c) (hd : Holds other d) (hid : c.connectionId = d.connectionId) : i = j := by
  have hflag := hs.flag_of_id (List.mem_of_getElem? hi) (List.mem_of_getElem? hj) hc hd hid
  have hti := Flights.held_at (party_at hi)
  have htj := Flights.held_at (party_at hj)
  obtain ⟨hlti, hgeti⟩ := List.getElem?_eq_some_iff.mp hti
  obtain ⟨hltj, hgetj⟩ := List.getElem?_eq_some_iff.mp htj
  apply (List.Nodup.getElem_inj_iff hs.owned.apart).mp
  rw [hgeti, hgetj]
  exact hflag

/-- Who takes a row away is the only party with its connection, and has it no more. -/
theorem Sound.loser_alone (hs : w.Sound) (hen : w.Enabled call)
    (hloses : (w.footprint call).loses = some id) :
    ∀ task ∈ (w.step call).tasks, ∀ c, task.stage.connection? = some c → c.connectionId ≠ id := by
  cases call with
  | acts party act =>
      obtain ⟨loser, turn, hat, hturns, -, hstep⟩ := acts_cases hen
      have hfootprint : w.footprint (.acts party act) = loser.stage.footprint act := by
        show ((w.tasks[party]?).elim {} fun task => task.stage.footprint act) = _
        rw [hat]
        rfl
      rw [hfootprint] at hloses
      have hholds : ∃ d, Holds loser d ∧ d.connectionId = id ∧
          ∃ next s, turn = .goes next s ∧ next.connection? = none := by
        obtain ⟨flag, stage⟩ := loser
        obtain ⟨c, hid, ⟨rfl, rfl⟩ | ⟨rfl, rfl⟩⟩ := Stage.purges_of_loses hloses
        · cases hturns
          exact ⟨c, Or.inl rfl, hid, _, _, rfl, rfl⟩
        · cases hturns
          exact ⟨c, Or.inr rfl, hid, _, _, rfl, rfl⟩
      obtain ⟨d, hd, rfl, next, s, rfl, hnone⟩ := hholds
      intro task htask c hc hid
      rw [hstep] at htask
      obtain ⟨i, hi⟩ := List.mem_iff_getElem?.mp htask
      by_cases hsame : i = party
      · subst hsame
        have hset : ((w.tasks.set i ⟨loser.flag, next⟩))[i]? = some task := hi
        rw [List.getElem?_set_self (List.getElem?_eq_some_iff.mp hat).1] at hset
        cases hset
        rw [hnone] at hc
        cases hc
      · have hset : ((w.tasks.set party ⟨loser.flag, next⟩))[i]? = some task := hi
        rw [List.getElem?_set_ne fun h => hsame h.symm] at hset
        exact hsame (hs.index_of_id hset hat (Or.inl hc) hd hid)
  | admits command =>
      have hlt : command < w.resolved.length := hen
      have hat : w.resolved[command]? = some w.resolved[command] := List.getElem?_eq_getElem hlt
      have hmem : w.resolved[command] ∈ w.resolved := List.getElem_mem hlt
      have hloses' : (takesAway w.resolved[command]).loses = some id := by
        rw [← hloses]
        show _ = ((w.resolved[command]?).elim {} takesAway).loses
        rw [hat]
        rfl
      have htasks : (w.step (.admits command)).tasks =
          ((w.answered command).takes w.resolved[command]).tasks := by
        show (w.admits command).tasks = _
        unfold admits
        rw [hat]
      rw [htasks]
      generalize w.resolved[command] = r at hmem hloses'
      obtain ⟨asked, connection⟩ := r
      cases asked with
      | manual => cases hloses'
      | scheduled => cases hloses'
      | purge =>
          simp only [takesAway] at hloses'
          simp only [takes]
          cases hflag : SyncFlag.ofType connection.connectorType with
          | some flag =>
              rw [hflag] at hloses'
              cases hloses'
          | none =>
              rw [hflag] at hloses'
              cases hloses'
              intro task htask c hc hid
              have htype := hs.kin c connection (.held htask hc) (.read hmem) hid
              have hof := SyncFlag.ofType_connectorType task.flag
              rw [← hs.checked.flags task htask c (Or.inl hc), htype, hflag] at hof
              cases hof
  | resolves asked id => cases hloses
  | createConnection flag => cases hloses
  | binds commit => cases hloses

end World

end NextInfra
