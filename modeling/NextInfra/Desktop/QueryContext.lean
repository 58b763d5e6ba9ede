import NextInfra.Desktop.PurgeRace
import NextInfra.Query.Freshness

/-!
# The query context beside the commands

Every query needs a schedule for the connection of every stored resource, and takes
them from the published context. A context is replaced in three accesses: the
published revision is read, the connections are read, the new context is published
unless another one was faster. A create command syncs only after its own context is
published; the scheduler knows the connections of the opening and of such commands.

So nothing is stored that the context does not cover (`context_covers`),
as long as no purge takes the row from under a sync that has read it, and no manual
sync starts for a connection whose create command lost the race for the context.
-/

namespace NextInfra

/-! ## §1  The context of the committed connections -/

/-- `recommended_sync_interval_secs` of the descriptors. -/
def SyncFlag.recommendedSyncIntervalSecs : SyncFlag → Nat
  | .ssh => 300
  | .github | .dokploy | .cloudflare | .supabaseManaged | .aliyun | .tencent => 900

/-- `15 * 60 * 1_000`. -/
def defaultQuerySyncIntervalMillis : Nat := 15 * 60 * 1000

def querySyncIntervalMillis (type : ConnectorType) : Nat :=
  match SyncFlag.ofType type with
  | some flag => flag.recommendedSyncIntervalSecs * 1000
  | none => defaultQuerySyncIntervalMillis

def Store.queryConnections (s : Store) : List Connection :=
  s.connections.rows.filter fun connection => connection.deletedAt.isNone

def committedQueryContext (s : Store) (evaluatedAt : Timestamp) (queryContextRevision : Nat)
    (nextDue : OrderedMap ConnectionId Timestamp) :
    Except QueryContextError QueryContextSnapshot :=
  QueryContextSnapshot.new evaluatedAt queryContextRevision
    (s.queryConnections.map fun connection =>
      (connection.connectionId, querySyncIntervalMillis connection.connectorType,
        OrderedMap.lookup nextDue connection.connectionId))

theorem querySyncIntervalMillis_pos (type : ConnectorType) : querySyncIntervalMillis type ≠ 0 := by
  unfold querySyncIntervalMillis
  cases SyncFlag.ofType type with
  | none => decide
  | some flag => cases flag <;> decide

/-- The context can always be built, and lists the connections that are not deleted. -/
theorem committedQueryContext_ok (s : Store) (evaluatedAt : Timestamp) (revision : Nat)
    (nextDue : OrderedMap ConnectionId Timestamp) :
    ∃ context, committedQueryContext s evaluatedAt revision nextDue = .ok context ∧
      context.queryContextRevision = revision ∧
      ∀ id, context.Lists id ↔
        ∃ c ∈ s.connections.rows, c.deletedAt = none ∧ c.connectionId = id := by
  have hpos : ∀ e ∈ s.queryConnections.map fun connection =>
      (connection.connectionId, querySyncIntervalMillis connection.connectorType,
        OrderedMap.lookup nextDue connection.connectionId), e.2.1 ≠ 0 := by
    intro e he
    obtain ⟨connection, _, rfl⟩ := List.mem_map.mp he
    exact querySyncIntervalMillis_pos _
  obtain ⟨context, hnew, hrevision, hlists⟩ :=
    QueryContextSnapshot.new_of_intervals evaluatedAt revision hpos
  refine ⟨context, hnew, hrevision, fun id => ?_⟩
  rw [hlists]
  constructor
  · rintro ⟨e, he, rfl⟩
    obtain ⟨c, hc, rfl⟩ := List.mem_map.mp he
    obtain ⟨hrow, hlive⟩ := List.mem_filter.mp hc
    exact ⟨c, hrow, Option.isNone_iff_eq_none.mp hlive, rfl⟩
  · rintro ⟨c, hrow, hlive, rfl⟩
    refine ⟨_, List.mem_map_of_mem (List.mem_filter.mpr ⟨hrow, ?_⟩), rfl⟩
    rw [hlive]
    rfl

/-! ## §2  The steps -/

/-- A call of `refresh_query_context` under way. -/
structure Refresh where
  /-- The connection of a create command; the driver, a purge and the opening have none. -/
  asker : Option ConnectionId
  revision : Nat
  context : Option QueryContextSnapshot

structure AppState where
  world : World
  /-- The published context. -/
  context : QueryContextSnapshot
  refreshes : List Refresh
  /-- The connections of the opening, and of each create command whose refresh was
  published: they may be registered with the scheduler. -/
  listed : List ConnectionId

inductive AppStep
  | does (call : WorldStep)
  | readsRevision (asker : Option ConnectionId)
  | buildsContext (refresh : Nat) (evaluatedAt : Timestamp)
      (nextDue : OrderedMap ConnectionId Timestamp)
  | publishes (refresh : Nat)

def Act.enqueuing : Act → Bool
  | .enqueues _ _ => true
  | _ => false

/-- The connection a create command has saved. -/
def Stage.saved? : Stage → Option ConnectionId
  | .saved connection => some connection.connectionId
  | _ => none

namespace AppState

def opened (s : Store) (context : QueryContextSnapshot) : AppState where
  world := .quiet s
  context := context
  refreshes := []
  listed := s.queryConnections.map Connection.connectionId

/-- The driver's saturating addition ends the same way: a revision that does not grow
is never published. -/
def readsRevision (a : AppState) (asker : Option ConnectionId) : AppState :=
  let revision := a.context.queryContextRevision + 1
  if revision < 2 ^ 64 then
    { a with refreshes := a.refreshes ++ [⟨asker, revision, none⟩] }
  else a

def buildsContext (a : AppState) (refresh : Nat) (evaluatedAt : Timestamp)
    (nextDue : OrderedMap ConnectionId Timestamp) : AppState :=
  match a.refreshes[refresh]? with
  | none => a
  | some r =>
      match committedQueryContext a.world.store evaluatedAt r.revision nextDue with
      | .error _ => { a with refreshes := a.refreshes.eraseIdx refresh }
      | .ok context =>
          { a with refreshes := a.refreshes.set refresh { r with context := some context } }

/-- `QueryContextRefreshHandle::refresh`. -/
def publishes (a : AppState) (refresh : Nat) : AppState :=
  match a.refreshes[refresh]? with
  | some ⟨asker, _, some context⟩ =>
      let answered := { a with refreshes := a.refreshes.eraseIdx refresh }
      if context.queryContextRevision ≤ a.context.queryContextRevision then answered
      else { answered with context := context, listed := asker.toList ++ a.listed }
  | _ => a

def step (a : AppState) : AppStep → AppState
  | .does call => { a with world := a.world.step call }
  | .readsRevision asker => a.readsRevision asker
  | .buildsContext refresh evaluatedAt nextDue => a.buildsContext refresh evaluatedAt nextDue
  | .publishes refresh => a.publishes refresh

/-- No refresh of the create command of the connection is under way. -/
def Idle (a : AppState) (id : ConnectionId) : Prop := ∀ r ∈ a.refreshes, r.asker ≠ some id

instance (a : AppState) (id : ConnectionId) : Decidable (a.Idle id) :=
  inferInstanceAs (Decidable (∀ r ∈ a.refreshes, _))

/-- A create command waits for its refresh, and syncs only where it was published; the
scheduler asks for the connections registered with it. -/
def Permits (a : AppState) : WorldStep → Prop
  | .resolves asked id => asked = .scheduled → id ∈ a.listed
  | .acts party act => ∀ task ∈ a.world.tasks[party]?, ∀ id ∈ task.stage.saved?,
      a.Idle id ∧ (act.enqueuing = true → id ∈ a.listed)
  | _ => True

def Enabled (a : AppState) : AppStep → Prop
  | .does call => a.world.Enabled call ∧ a.Permits call
  | .readsRevision asker => ∀ id ∈ asker,
      (∃ task ∈ a.world.tasks, task.stage.saved? = some id) ∧ a.Idle id
  | .buildsContext refresh _ _ => ∃ r ∈ a.refreshes[refresh]?, r.context.isNone = true
  | .publishes refresh => ∃ r ∈ a.refreshes[refresh]?, r.context.isSome = true

instance (a : AppState) : (call : WorldStep) → Decidable (a.Permits call)
  | .resolves asked id => inferInstanceAs (Decidable (asked = .scheduled → id ∈ a.listed))
  | .acts party act =>
      inferInstanceAs (Decidable (∀ task ∈ a.world.tasks[party]?, ∀ id ∈ task.stage.saved?,
        a.Idle id ∧ (act.enqueuing = true → id ∈ a.listed)))
  | .admits _ => isTrue trivial
  | .createConnection _ => isTrue trivial
  | .binds _ => isTrue trivial

instance (a : AppState) (step : AppStep) : Decidable (a.Enabled step) := by
  cases step <;> unfold Enabled <;> infer_instance

def machine : Machine AppState AppStep where
  enabled := Enabled
  step := step

instance (a : AppState) (call : AppStep) : Decidable (machine.enabled a call) :=
  inferInstanceAs (Decidable (a.Enabled call))

end AppState

/-! ## §3  What a command does to one connection -/

namespace World

variable {w : World} {call : WorldStep} {id : ConnectionId}

def Stored (w : World) (id : ConnectionId) : Prop :=
  ∃ row ∈ w.store.connections.rows, row.connectionId = id

/-- Who could write the connection, and the syncs that wait, find it stored. -/
structure Rooted (id : ConnectionId) (w : World) : Prop where
  held : ∀ task ∈ w.tasks, ∀ c, task.stage.connection? = some c → c.connectionId = id → w.Stored id
  waits : ∀ r ∈ w.resolved, r.asked ≠ .purge → r.connection.connectionId = id → w.Stored id

theorem swap_keeps (w : World) (flag : SyncFlag) (stage : Stage) :
    (w.swap flag stage).resolved = w.resolved ∧
      ∀ task ∈ w.tasks, task ∈ (w.swap flag stage).tasks := by
  refine ⟨(swap_rest w flag stage).2.1, fun task htask => ?_⟩
  unfold swap
  split
  · exact htask
  · exact List.mem_append_left _ htask

/-- A command that goes on leaves the others where they are. -/
theorem takes_keeps (w : World) (r : Resolved) :
    (w.takes r).resolved = w.resolved ∧ ∀ task ∈ w.tasks, task ∈ (w.takes r).tasks := by
  obtain ⟨asked, connection⟩ := r
  cases asked with
  | manual => exact swap_keeps _ _ _
  | scheduled =>
      simp only [takes]
      split
      · exact ⟨rfl, fun _ h => h⟩
      · exact swap_keeps _ _ _
  | purge =>
      simp only [takes]
      split
      · exact ⟨rfl, fun _ h => h⟩
      · exact swap_keeps _ _ _

/-- Only `resolves` makes a command wait. -/
theorem resolved_of_step (hen : w.Enabled call) {r : Resolved} (h : r ∈ (w.step call).resolved) :
    r ∈ w.resolved ∨ call = .resolves r.asked r.connection.connectionId ∧
      r.connection ∈ w.store.connections.rows := by
  cases call with
  | resolves asked id =>
      have hresolved : r ∈ (w.resolves asked id).resolved := h
      unfold resolves at hresolved
      cases hrow : w.store.connections.get id with
      | none =>
          rw [hrow] at hresolved
          exact Or.inl hresolved
      | some connection =>
          rw [hrow] at hresolved
          simp only at hresolved
          split at hresolved
          · rcases List.mem_append.mp hresolved with hold | hnew
            · exact Or.inl hold
            · obtain rfl := List.mem_singleton.mp hnew
              obtain ⟨hmem, hid⟩ := KeyedTable.get_eq_some_iff.mp hrow
              exact Or.inr ⟨by rw [hid], hmem⟩
          · exact Or.inl hresolved
  | admits command =>
      left
      have hresolved : r ∈ (w.admits command).resolved := h
      unfold admits at hresolved
      split at hresolved
      · exact hresolved
      · rw [(takes_keeps _ _).1] at hresolved
        exact List.mem_of_mem_eraseIdx hresolved
  | createConnection flag =>
      left
      have hresolved : r ∈ (w.swap flag .creating).resolved := h
      rw [(swap_rest w flag .creating).2.1] at hresolved
      exact hresolved
  | acts party act =>
      left
      obtain ⟨task, turn, -, -, -, hstep⟩ := acts_cases hen
      rw [hstep] at h
      have hresolved : r ∈ (w.turned party task.flag turn).resolved := h
      rw [resolved_turned] at hresolved
      exact hresolved
  | binds commit => exact Or.inl h

/-- Only its own acts move a party. -/
theorem task_stays (hen : w.Enabled call) {task : Task} (htask : task ∈ w.tasks)
    (hidle : ∀ party act, call = .acts party act → w.tasks[party]? ≠ some task) :
    task ∈ (w.step call).tasks := by
  cases call with
  | resolves asked id =>
      show task ∈ (w.resolves asked id).tasks
      unfold resolves
      split
      · exact htask
      · split
        · exact htask
        · exact htask
  | admits command =>
      show task ∈ (w.admits command).tasks
      unfold admits
      split
      · exact htask
      · exact (takes_keeps _ _).2 task htask
  | createConnection flag => exact (swap_keeps w flag .creating).2 task htask
  | acts party act =>
      obtain ⟨actor, turn, -, -, -, hstep⟩ := acts_cases hen
      obtain ⟨i, hi⟩ := List.mem_iff_getElem?.mp htask
      have hne : i ≠ party := by
        rintro rfl
        exact hidle i act rfl hi
      rw [hstep]
      show task ∈ (w.turned party actor.flag turn).tasks
      cases turn with
      | goes stage s =>
          apply List.mem_iff_getElem?.mpr
          refine ⟨i, ?_⟩
          show (w.tasks.set party ⟨actor.flag, stage⟩)[i]? = _
          rw [List.getElem?_set_ne fun h => hne h.symm]
          exact hi
      | clears s => exact List.mem_eraseIdx_iff_getElem?.mpr ⟨i, hne, hi⟩
      | leaves s => exact List.mem_eraseIdx_iff_getElem?.mpr ⟨i, hne, hi⟩
  | binds commit => exact htask

/-- How a party comes by a connection: it had it, a create command saves it, a waiting
sync goes on, or the party acted on it before. -/
inductive Holder (w : World) (task : Task) (c : Connection) : WorldStep → Prop
  | before {call : WorldStep} (works : task ∈ w.tasks) : Holder w task c call
  | saved {call : WorldStep} (saved : task.stage.saved? = some c.connectionId) :
      Holder w task c call
  | admitted {command : Nat} {r : Resolved} (at_ : w.resolved[command]? = some r)
      (asks : r.asked ≠ .purge) (same : r.connection = c) : Holder w task c (.admits command)
  | acted {party : Nat} {act : Act} {actor : Task} {d : Connection}
      (at_ : w.tasks[party]? = some actor) (holds : actor.stage.connection? = some d)
      (same : c.connectionId = d.connectionId)
      (open_ : actor.stage.saved? = none ∨ act.enqueuing = true) :
      Holder w task c (.acts party act)

theorem holder_of_step (hs : w.Sound) (hen : w.Enabled call) {task : Task}
    (htask : task ∈ (w.step call).tasks) {c : Connection} (hc : task.stage.connection? = some c) :
    w.Holder task c call := by
  cases call with
  | resolves asked id =>
      have htask : task ∈ (w.resolves asked id).tasks := htask
      unfold resolves at htask
      split at htask
      · exact .before htask
      · split at htask
        · exact .before htask
        · exact .before htask
  | createConnection flag =>
      rcases mem_tasks_swap htask with hold | rfl
      · exact .before hold
      · cases hc
  | binds commit => exact .before htask
  | admits command =>
      have htask : task ∈ (w.admits command).tasks := htask
      unfold admits at htask
      split at htask
      · exact .before htask
      · rename_i r hat
        obtain ⟨asked, connection⟩ := r
        cases asked with
        | manual =>
            rcases mem_tasks_swap htask with hold | rfl
            · exact .before hold
            · exact .admitted hat (by decide : Asked.manual ≠ .purge) (Option.some.inj hc)
        | scheduled =>
            simp only [takes] at htask
            cases hflag : SyncFlag.ofLiveType connection.connectorType with
            | none =>
                rw [hflag] at htask
                exact .before htask
            | some flag =>
                rw [hflag] at htask
                rcases mem_tasks_swap htask with hold | rfl
                · exact .before hold
                · exact .admitted hat (by decide : Asked.scheduled ≠ .purge) (Option.some.inj hc)
        | purge =>
            simp only [takes] at htask
            cases hflag : SyncFlag.ofType connection.connectorType with
            | none =>
                rw [hflag] at htask
                exact .before htask
            | some flag =>
                rw [hflag] at htask
                rcases mem_tasks_swap htask with hold | rfl
                · exact .before hold
                · cases hc
  | acts party act =>
      obtain ⟨actor, turn, hat, hturns, -, hstep⟩ := acts_cases hen
      rw [hstep] at htask
      rcases mem_tasks_turned htask with hold | ⟨next, s, hgoes, rfl⟩
      · exact .before hold
      · have hactor := List.mem_of_getElem? hat
        obtain ⟨flag, stage⟩ := actor
        obtain ⟨-, hleads⟩ := hturns.confined (hs.checked.own _ hactor)
        have hheld : ∃ d, stage.knows act = some d ∧ c.Kin d := (hleads next s hgoes).kin c hc
        cases hturns with
        | savesConnection same live =>
            cases hgoes
            cases hc
            exact .saved rfl
        | savesSecret connection secret =>
            cases hgoes
            cases hc
            exact .saved rfl
        | removesSecret connection =>
            cases hgoes
            cases hc
            exact .saved rfl
        | enqueues spawns has uuid env =>
            obtain ⟨d, hd, hkin⟩ := hheld
            exact .acted hat hd hkin.connectionId (Or.inr rfl)
        | works =>
            obtain ⟨d, hd, hkin⟩ := hheld
            exact .acted hat hd hkin.connectionId (Or.inl rfl)
        | withdraws | returns | unwinds | purges =>
            cases hgoes
            cases hc
        | _ => cases hgoes

/-- A row goes only where it is taken away. -/
theorem stored_of_step (hs : w.Sound) (hen : w.Enabled call)
    (hkept : (w.footprint call).loses ≠ some id) (h : w.Stored id) : (w.step call).Stored id := by
  obtain ⟨own, -, hfollows⟩ := step_follows hs.checked hen
  obtain ⟨row, hrow, rfl⟩ := h
  rcases hfollows.store.kept row hrow with hloses | ⟨row', hrow', hid⟩
  · exact absurd hloses hkept
  · exact ⟨row', hrow', hid⟩

/-- A row comes only with a new id. -/
theorem stored_before_step (hs : w.Sound) (hroot : Rooted id w) (hen : w.Enabled call)
    (h : (w.step call).Stored id) : w.Stored id ∨ id ∉ w.minted := by
  obtain ⟨own, horigin, hfollows⟩ := step_follows hs.checked hen
  obtain ⟨row, hrow, rfl⟩ := h
  rcases hfollows.store.rows row hrow with hold | ⟨c, hwrites, hkin⟩
  · exact Or.inl ⟨row, hold, rfl⟩
  · have hown := hfollows.writes c hwrites
    subst hown
    cases horigin with
    | party works holds => exact Or.inl (hroot.held _ works c holds hkin.connectionId.symm)
    | command waits asks => exact Or.inl (hroot.waits _ waits asks hkin.connectionId.symm)
    | created new minted live stored =>
        rw [hkin.connectionId]
        exact Or.inr new

/-- The row is not taken from under a sync that has read it. -/
def Spares (w : World) (call : WorldStep) : Prop :=
  ∀ r ∈ w.resolved, (w.footprint call).loses = some r.connection.connectionId → r.asked = .purge

instance (w : World) (call : WorldStep) : Decidable (w.Spares call) :=
  inferInstanceAs (Decidable (∀ r ∈ w.resolved, _))

theorem Rooted.step (hs : w.Sound) (hen : w.Enabled call) (hspares : w.Spares call)
    (hroot : Rooted id w) : Rooted id (w.step call) := by
  obtain ⟨own, horigin, hfollows⟩ := step_follows hs.checked hen
  refine ⟨?_, ?_⟩
  · intro task htask c hc hid
    have hkept : (w.footprint call).loses ≠ some id :=
      fun hloses => hs.loser_alone hen hloses task htask c hc hid
    rcases hfollows.tasks task htask with hold | ⟨hheld, _⟩
    · exact stored_of_step hs hen hkept (hroot.held task hold c hc hid)
    · obtain ⟨_, d, hd, hkin⟩ := hheld c hc
      have hdid : d.connectionId = id := hkin.connectionId.symm.trans hid
      subst hd
      cases horigin with
      | party works holds => exact stored_of_step hs hen hkept (hroot.held _ works d holds hdid)
      | command waits asks => exact stored_of_step hs hen hkept (hroot.waits _ waits asks hdid)
      | created new minted live stored => exact ⟨d, stored, hdid⟩
  · intro r hr hasks hid
    rcases resolved_of_step hen hr with hold | ⟨rfl, hrow⟩
    · refine stored_of_step hs hen ?_ (hroot.waits r hold hasks hid)
      exact fun hloses => hasks (hspares r hold (hid ▸ hloses))
    · exact stored_of_step hs hen nofun ⟨_, hrow, hid⟩

end World

/-! ## §4  What is published covers what is stored -/

namespace AppState

variable {a a' : AppState} {call : AppStep} {id : ConnectionId}

/-- What a step does, one case each. -/
inductive Moves (a : AppState) : AppStep → AppState → Prop
  | does {call : WorldStep} (enabled : a.world.Enabled call) (permits : a.Permits call) :
      Moves a (.does call) { a with world := a.world.step call }
  /-- The revisions have run out. -/
  | exhausted (asker : Option ConnectionId) : Moves a (.readsRevision asker) a
  | reads {asker : Option ConnectionId}
      (asks : ∀ id ∈ asker, ∃ task ∈ a.world.tasks, task.stage.saved? = some id) :
      Moves a (.readsRevision asker)
        { a with refreshes :=
            a.refreshes ++ [⟨asker, a.context.queryContextRevision + 1, none⟩] }
  | builds {refresh : Nat} {r : Refresh} {context : QueryContextSnapshot} (waits : r ∈ a.refreshes)
      (revision : context.queryContextRevision = r.revision)
      (lists : ∀ id, context.Lists id ↔
        ∃ c ∈ a.world.store.connections.rows, c.deletedAt = none ∧ c.connectionId = id)
      (evaluatedAt : Timestamp) (nextDue : OrderedMap ConnectionId Timestamp) :
      Moves a (.buildsContext refresh evaluatedAt nextDue)
        { a with refreshes := a.refreshes.set refresh { r with context := some context } }
  | refused (refresh : Nat) :
      Moves a (.publishes refresh) { a with refreshes := a.refreshes.eraseIdx refresh }
  | publishes {refresh : Nat} {r : Refresh} {context : QueryContextSnapshot}
      (waits : r ∈ a.refreshes) (built : r.context = some context)
      (newer : a.context.queryContextRevision < context.queryContextRevision) :
      Moves a (.publishes refresh)
        { a with
          refreshes := a.refreshes.eraseIdx refresh
          context := context
          listed := r.asker.toList ++ a.listed }

theorem step_cases (hen : a.Enabled call) : a.Moves call (a.step call) := by
  cases call with
  | does call => exact .does hen.1 hen.2
  | readsRevision asker =>
      show a.Moves _ (a.readsRevision asker)
      unfold readsRevision
      simp only
      split
      · exact .reads fun id hid => (hen id hid).1
      · exact .exhausted asker
  | buildsContext refresh evaluatedAt nextDue =>
      obtain ⟨r, hat, -⟩ := hen
      have hat : a.refreshes[refresh]? = some r := hat
      obtain ⟨context, hcommitted, hrevision, hlists⟩ :=
        committedQueryContext_ok a.world.store evaluatedAt r.revision nextDue
      have hbuilds : a.buildsContext refresh evaluatedAt nextDue =
          { a with refreshes := a.refreshes.set refresh { r with context := some context } } := by
        unfold buildsContext
        rw [hat]
        simp only [hcommitted]
      show a.Moves _ (a.buildsContext refresh evaluatedAt nextDue)
      rw [hbuilds]
      exact .builds (List.mem_of_getElem? hat) hrevision hlists evaluatedAt nextDue
  | publishes refresh =>
      obtain ⟨r, hat, hbuilt⟩ := hen
      have hat : a.refreshes[refresh]? = some r := hat
      obtain ⟨asker, revision, context⟩ := r
      obtain ⟨context, rfl⟩ := Option.isSome_iff_exists.mp hbuilt
      show a.Moves _ (a.publishes refresh)
      unfold publishes
      rw [hat]
      simp only
      split
      · exact .refused refresh
      · rename_i hnewer
        exact .publishes (List.mem_of_getElem? hat) rfl (Nat.lt_of_not_le hnewer)

/-- A context under way is at most one revision ahead. -/
structure Orderly (a : AppState) : Prop where
  sound : a.world.Sound
  live : a.world.Live
  revisions : ∀ r ∈ a.refreshes, r.revision ≤ a.context.queryContextRevision + 1
  built : ∀ r ∈ a.refreshes, ∀ context, r.context = some context →
    context.queryContextRevision = r.revision

theorem orderly_preserved : machine.Preserves Orderly := by
  intro a call hen ho
  show (a.step call).Orderly
  have hmoves := step_cases hen
  generalize a.step call = a' at hmoves
  cases hmoves with
  | does enabled permits =>
      exact ⟨World.sound_preserved _ _ enabled ho.sound, ho.live.step ho.sound enabled,
        ho.revisions, ho.built⟩
  | exhausted asker => exact ho
  | reads asks =>
      refine ⟨ho.sound, ho.live, ?_, ?_⟩
      · intro r hr
        rcases List.mem_append.mp hr with hr | hr
        · exact ho.revisions r hr
        · rw [List.mem_singleton.mp hr]
      · intro r hr context hcontext
        rcases List.mem_append.mp hr with hr | hr
        · exact ho.built r hr context hcontext
        · rw [List.mem_singleton.mp hr] at hcontext
          cases hcontext
  | builds waits revision lists evaluatedAt nextDue =>
      have hrevision := ho.revisions _ waits
      refine ⟨ho.sound, ho.live, ?_, ?_⟩
      · intro r' hr'
        rcases List.mem_or_eq_of_mem_set hr' with hr' | rfl
        · exact ho.revisions r' hr'
        · exact hrevision
      · intro r' hr' context' hcontext'
        rcases List.mem_or_eq_of_mem_set hr' with hr' | rfl
        · exact ho.built r' hr' context' hcontext'
        · cases hcontext'
          exact revision
  | refused refresh =>
      exact ⟨ho.sound, ho.live, fun r hr => ho.revisions r (List.mem_of_mem_eraseIdx hr),
        fun r hr => ho.built r (List.mem_of_mem_eraseIdx hr)⟩
  | publishes waits built newer =>
      rename_i context
      refine ⟨ho.sound, ho.live, fun r hr => ?_,
        fun r hr => ho.built r (List.mem_of_mem_eraseIdx hr)⟩
      have hold := ho.revisions r (List.mem_of_mem_eraseIdx hr)
      show r.revision ≤ context.queryContextRevision + 1
      omega

/-- The connection is minted where a context lists it, and saved where a refresh is
asked for it. -/
structure Known (id : ConnectionId) (a : AppState) : Prop where
  context : a.context.Lists id → id ∈ a.world.minted
  built : ∀ r ∈ a.refreshes, ∀ context, r.context = some context → context.Lists id →
    id ∈ a.world.minted
  listed : id ∈ a.listed → id ∈ a.world.minted
  asks : ∀ r ∈ a.refreshes, r.asker = some id →
    ∃ task ∈ a.world.tasks, task.stage.saved? = some id

theorem saved_connection {stage : Stage} (h : stage.saved? = some id) :
    ∃ c, stage = .saved c ∧ c.connectionId = id := by
  cases stage with
  | saved connection => exact ⟨connection, rfl, Option.some.inj h⟩
  | _ => cases h

theorem Known.step (ho : a.Orderly) (hmoves : a.Moves call a') (hk : Known id a) : Known id a' := by
  cases hmoves with
  | does enabled permits =>
      obtain ⟨own, -, hfollows⟩ := World.step_follows ho.sound.checked enabled
      have hminted := hfollows.minted id
      refine ⟨fun h => hminted (hk.context h), fun r hr context hcontext h => ?_,
        fun h => hminted (hk.listed h), fun r hr hasker => ?_⟩
      · exact hminted (hk.built r hr context hcontext h)
      · obtain ⟨task, htask, hsaved⟩ := hk.asks r hr hasker
        refine ⟨task, World.task_stays enabled htask ?_, hsaved⟩
        rintro party act rfl hat
        exact (permits task hat id hsaved).1 r hr hasker
  | exhausted asker => exact hk
  | reads asks =>
      refine ⟨hk.context, fun r hr context hcontext => ?_, hk.listed, fun r hr hasker => ?_⟩
      · rcases List.mem_append.mp hr with hr | hr
        · exact hk.built r hr context hcontext
        · rw [List.mem_singleton.mp hr] at hcontext
          cases hcontext
      · rcases List.mem_append.mp hr with hr | hr
        · exact hk.asks r hr hasker
        · rw [List.mem_singleton.mp hr] at hasker
          exact asks id hasker
  | builds waits revision lists evaluatedAt nextDue =>
      have hasks := hk.asks _ waits
      refine ⟨hk.context, fun r hr context hcontext hlists => ?_, hk.listed, fun r hr hasker => ?_⟩
      · rcases List.mem_or_eq_of_mem_set hr with hr | rfl
        · exact hk.built r hr context hcontext hlists
        · cases hcontext
          obtain ⟨c, hc, _, rfl⟩ := (lists id).mp hlists
          exact ho.sound.minted c (.row hc)
      · rcases List.mem_or_eq_of_mem_set hr with hr | rfl
        · exact hk.asks r hr hasker
        · exact hasks hasker
  | refused refresh =>
      exact ⟨hk.context, fun r hr => hk.built r (List.mem_of_mem_eraseIdx hr), hk.listed,
        fun r hr => hk.asks r (List.mem_of_mem_eraseIdx hr)⟩
  | publishes waits built newer =>
      refine ⟨hk.built _ waits _ built, fun r hr => hk.built r (List.mem_of_mem_eraseIdx hr),
        fun hlisted => ?_, fun r hr => hk.asks r (List.mem_of_mem_eraseIdx hr)⟩
      rcases List.mem_append.mp hlisted with hasker | hlisted
      · obtain ⟨task, htask, hsaved⟩ := hk.asks _ waits (Option.mem_toList.mp hasker)
        obtain ⟨c, hstage, rfl⟩ := saved_connection hsaved
        exact ho.sound.minted c (.held htask (by rw [hstage]; rfl))
      · exact hk.listed hlisted

/-- A manual sync goes on only where the published context lists its connection. -/
def StartsListed (a : AppState) : WorldStep → Prop
  | .admits command => ∀ r ∈ a.world.resolved[command]?, r.asked = .manual →
      a.context.Lists r.connection.connectionId
  | _ => True

/-- No purge in the way of a waiting sync, no manual sync the context does not list. -/
def Careful (a : AppState) : AppStep → Prop
  | .does call => a.world.Spares call ∧ a.StartsListed call
  | _ => True

instance (a : AppState) : (call : WorldStep) → Decidable (a.StartsListed call)
  | .admits command =>
      inferInstanceAs (Decidable (∀ r ∈ a.world.resolved[command]?, r.asked = .manual →
        a.context.Lists r.connection.connectionId))
  | .resolves _ _ => isTrue trivial
  | .createConnection _ => isTrue trivial
  | .acts _ _ => isTrue trivial
  | .binds _ => isTrue trivial

instance (a : AppState) (call : AppStep) : Decidable (a.Careful call) := by
  cases call <;> unfold Careful <;> infer_instance

/-- The context covers the resources of the connection, and whoever could add some. -/
structure Covered (id : ConnectionId) (a : AppState) : Prop where
  rooted : World.Rooted id a.world
  /-- A context built from the published revision may replace it. -/
  viable : ∀ r ∈ a.refreshes, ∀ context, r.context = some context →
    r.revision = a.context.queryContextRevision + 1 → a.context.Lists id → a.world.Stored id →
      context.Lists id
  asked : ∀ r ∈ a.refreshes, ∀ context, r.context = some context → r.asker = some id →
    context.Lists id
  listed : id ∈ a.listed → a.world.Stored id → a.context.Lists id
  scheduled : ∀ r ∈ a.world.resolved, r.asked = .scheduled → r.connection.connectionId = id →
    id ∈ a.listed
  tasks : ∀ task ∈ a.world.tasks, ∀ c, task.stage.connection? = some c → c.connectionId = id →
    task.stage.saved? = some id ∨ a.context.Lists id
  resources : ∀ r ∈ a.world.store.resources.rows, r.connectionId = id → a.context.Lists id

theorem Covered.does (ho : a.Orderly) (hk : Known id a) {call : WorldStep}
    (hen : a.world.Enabled call) (hpermits : a.Permits call) (hspares : a.world.Spares call)
    (hstarts : a.StartsListed call) (hc : Covered id a) :
    Covered id { a with world := a.world.step call } := by
  obtain ⟨own, horigin, hfollows⟩ := World.step_follows ho.sound.checked hen
  have hbefore : id ∈ a.world.minted → (a.world.step call).Stored id → a.world.Stored id := by
    intro hminted hstored
    rcases World.stored_before_step ho.sound hc.rooted hen hstored with h | h
    · exact h
    · exact absurd hminted h
  refine
    { rooted := hc.rooted.step ho.sound hen hspares
      viable := ?_
      asked := hc.asked
      listed := fun hl hstored => hc.listed hl (hbefore (hk.listed hl) hstored)
      scheduled := ?_
      tasks := ?_
      resources := ?_ }
  · intro r hr context hcontext hviable hl hstored
    exact hc.viable r hr context hcontext hviable hl (hbefore (hk.context hl) hstored)
  · intro r hr hasked hid
    rcases World.resolved_of_step hen hr with hold | ⟨rfl, _⟩
    · exact hc.scheduled r hold hasked hid
    · rw [← hid]
      exact hpermits hasked
  · intro task htask c hheld hid
    cases World.holder_of_step ho.sound hen htask hheld with
    | before works => exact hc.tasks task works c hheld hid
    | saved saved =>
        rw [hid] at saved
        exact Or.inl saved
    | admitted at_ asks same =>
        rename_i command r
        subst same
        right
        have hmem := List.mem_of_getElem? at_
        cases hasked : r.asked with
        | purge => exact absurd hasked asks
        | manual =>
            rw [← hid]
            exact hstarts r at_ hasked
        | scheduled =>
            exact hc.listed (hc.scheduled r hmem hasked hid) (hc.rooted.waits r hmem asks hid)
    | acted at_ holds same open_ =>
        rename_i party act actor d
        right
        have hmem := List.mem_of_getElem? at_
        have hdid : d.connectionId = id := same.symm.trans hid
        rcases hc.tasks actor hmem d holds hdid with hsaved | hlists
        · rcases open_ with hnone | henqueues
          · rw [hnone] at hsaved
            cases hsaved
          · have hlisted := (hpermits actor at_ id hsaved).2 henqueues
            exact hc.listed hlisted (hc.rooted.held actor hmem d holds hdid)
        · exact hlists
  · intro r hr hid
    rcases hfollows.store.resources r hr with ⟨old, hold, hsame⟩ | ⟨c, hgains, hsame⟩
    · exact hc.resources old hold (hsame.symm.trans hid)
    · obtain ⟨task, htask, hheld, sync, hsync⟩ := hfollows.gains c hgains
      rcases hc.tasks task htask c hheld (hsame.symm.trans hid) with hsaved | hlists
      · rw [hsync] at hsaved
        cases hsaved
      · exact hlists

theorem Covered.step (ho : a.Orderly) (hk : Known id a) (hmoves : a.Moves call a')
    (hcareful : a.Careful call) (hc : Covered id a) : Covered id a' := by
  cases hmoves with
  | does enabled permits => exact hc.does ho hk enabled permits hcareful.1 hcareful.2
  | exhausted asker => exact hc
  | reads asks =>
      refine { hc with viable := ?_, asked := ?_ }
      · intro r hr context hcontext
        rcases List.mem_append.mp hr with hr | hr
        · exact hc.viable r hr context hcontext
        · rw [List.mem_singleton.mp hr] at hcontext
          cases hcontext
      · intro r hr context hcontext
        rcases List.mem_append.mp hr with hr | hr
        · exact hc.asked r hr context hcontext
        · rw [List.mem_singleton.mp hr] at hcontext
          cases hcontext
  | builds waits revision lists evaluatedAt nextDue =>
      rename_i refresh asking built
      have hbuilt : a.world.Stored id → built.Lists id := by
        rintro ⟨row, hrow, hid⟩
        exact (lists id).mpr ⟨row, hrow, ho.live row (.row hrow), hid⟩
      refine { hc with viable := ?_, asked := ?_ }
      · intro r hr context hcontext hviable hlists hstored
        rcases List.mem_or_eq_of_mem_set hr with hr | rfl
        · exact hc.viable r hr context hcontext hviable hlists hstored
        · cases hcontext
          exact hbuilt hstored
      · intro r hr context hcontext hasker
        rcases List.mem_or_eq_of_mem_set hr with hr | rfl
        · exact hc.asked r hr context hcontext hasker
        · cases hcontext
          obtain ⟨task, htask, hsaved⟩ := hk.asks asking waits hasker
          obtain ⟨c, hstage, hid⟩ := saved_connection hsaved
          exact hbuilt (hc.rooted.held task htask c (by rw [hstage]; rfl) hid)
  | refused refresh =>
      exact { hc with
        viable := fun r hr => hc.viable r (List.mem_of_mem_eraseIdx hr)
        asked := fun r hr => hc.asked r (List.mem_of_mem_eraseIdx hr) }
  | publishes waits built newer =>
      rename_i refresh asking context
      -- nobody published since the revision was read
      have hviable : asking.revision = a.context.queryContextRevision + 1 := by
        have hrevision := ho.built asking waits context built
        have hahead := ho.revisions asking waits
        omega
      have hkeeps : a.context.Lists id → a.world.Stored id → context.Lists id :=
        hc.viable asking waits context built hviable
      refine
        { rooted := hc.rooted
          viable := ?_
          asked := fun r hr => hc.asked r (List.mem_of_mem_eraseIdx hr)
          listed := ?_
          scheduled := fun r hr hasked hid => List.mem_append_right _ (hc.scheduled r hr hasked hid)
          tasks := ?_
          resources := ?_ }
      · intro r hr other hother hrevision
        have hahead := ho.revisions r (List.mem_of_mem_eraseIdx hr)
        have hrevision : r.revision = context.queryContextRevision + 1 := hrevision
        omega
      · intro hlisted hstored
        rcases List.mem_append.mp hlisted with hasker | hlisted
        · exact hc.asked asking waits context built (Option.mem_toList.mp hasker)
        · exact hkeeps (hc.listed hlisted hstored) hstored
      · intro task htask c hheld hid
        rcases hc.tasks task htask c hheld hid with hsaved | hlists
        · exact Or.inl hsaved
        · exact Or.inr (hkeeps hlists (hc.rooted.held task htask c hheld hid))
      · intro r hr hid
        obtain ⟨row, hrow⟩ := Option.isSome_iff_exists.mp (ho.sound.integral.resources r hr)
        obtain ⟨hmem, hrowid⟩ := KeyedTable.get_eq_some_iff.mp hrow
        exact hkeeps (hc.resources r hr hid) ⟨row, hmem, hrowid.trans hid⟩

section

variable {s : Store} {evaluatedAt : Timestamp} {context : QueryContextSnapshot}

theorem orderly_opened (hs : s.Integral) (hlive : ∀ c ∈ s.connections.rows, c.deletedAt = none) :
    (opened s context).Orderly where
  sound := World.sound_quiet hs
  live := by
    intro c hc
    cases hc with
    | row stored => exact hlive c stored
    | read waits => cases waits
    | held works holds => cases works
    | target works aims => cases works
  revisions := fun _ h => absurd h List.not_mem_nil
  built := fun _ h => absurd h List.not_mem_nil

/-- What the context of the opening lists is what is stored. -/
theorem lists_opened (hlive : ∀ c ∈ s.connections.rows, c.deletedAt = none)
    (hopen : committedQueryContext s evaluatedAt 0 KeyedTable.empty = .ok context) (id : ConnectionId) :
    context.Lists id ↔ ∃ c ∈ s.connections.rows, c.connectionId = id := by
  obtain ⟨built, hbuilt, -, hlists⟩ := committedQueryContext_ok s evaluatedAt 0 KeyedTable.empty
  rw [hopen, Except.ok.injEq] at hbuilt
  rw [hbuilt, hlists]
  constructor
  · rintro ⟨c, hc, _, hid⟩
    exact ⟨c, hc, hid⟩
  · rintro ⟨c, hc, hid⟩
    exact ⟨c, hc, hlive c hc, hid⟩

theorem covered_opened (hs : s.Integral) (hlive : ∀ c ∈ s.connections.rows, c.deletedAt = none)
    (hopen : committedQueryContext s evaluatedAt 0 KeyedTable.empty = .ok context) (id : ConnectionId) :
    Known id (opened s context) ∧ Covered id (opened s context) := by
  have hlists := lists_opened hlive hopen id
  refine ⟨⟨?_, fun _ h => absurd h List.not_mem_nil, ?_, fun _ h => absurd h List.not_mem_nil⟩, ?_⟩
  · intro h
    obtain ⟨c, hc, rfl⟩ := hlists.mp h
    exact List.mem_map_of_mem hc
  · intro h
    obtain ⟨c, hc, rfl⟩ := List.mem_map.mp h
    exact List.mem_map_of_mem (List.mem_filter.mp hc).1
  · exact
      { rooted := ⟨fun _ h => absurd h List.not_mem_nil, fun _ h => absurd h List.not_mem_nil⟩
        viable := fun _ h => absurd h List.not_mem_nil
        asked := fun _ h => absurd h List.not_mem_nil
        listed := fun _ => hlists.mpr
        scheduled := fun _ h => absurd h List.not_mem_nil
        tasks := fun _ h => absurd h List.not_mem_nil
        resources := by
          rintro r hr rfl
          obtain ⟨row, hrow⟩ := Option.isSome_iff_exists.mp (hs.resources r hr)
          obtain ⟨hmem, hid⟩ := KeyedTable.get_eq_some_iff.mp hrow
          exact hlists.mpr ⟨row, hmem, hid⟩ }

/-- Where no row is marked as deleted, a new context covers every resource. -/
theorem rebuilt_covers (ho : a.Orderly) (evaluatedAt : Timestamp) (revision : Nat)
    (nextDue : OrderedMap ConnectionId Timestamp) :
    ∃ rebuilt, committedQueryContext a.world.store evaluatedAt revision nextDue = .ok rebuilt ∧
      validateCutoffs a.world.store rebuilt.cutoffs = .ok () := by
  obtain ⟨rebuilt, hbuilt, -, hlists⟩ :=
    committedQueryContext_ok a.world.store evaluatedAt revision nextDue
  refine ⟨rebuilt, hbuilt, validateCutoffs_context_iff.mpr fun r hr => (hlists _).mpr ?_⟩
  obtain ⟨row, hrow⟩ := Option.isSome_iff_exists.mp (ho.sound.integral.resources r hr)
  obtain ⟨hmem, hid⟩ := KeyedTable.get_eq_some_iff.mp hrow
  exact ⟨row, hmem, ho.live row (.row hmem), hid⟩

/-- However the steps interleave, the context one would build covers every stored
resource; the published one does in the careful runs. -/
theorem context_covers (hs : s.Integral) (hlive : ∀ c ∈ s.connections.rows, c.deletedAt = none)
    (hopen : committedQueryContext s evaluatedAt 0 KeyedTable.empty = .ok context)
    {calls : List AppStep} (hrun : machine.Run (opened s context) calls a) :
    (∀ evaluatedAt revision nextDue, ∃ rebuilt,
      committedQueryContext a.world.store evaluatedAt revision nextDue = .ok rebuilt ∧
        validateCutoffs a.world.store rebuilt.cutoffs = .ok ()) ∧
    ((machine.restrict Careful).Run (opened s context) calls a →
      validateCutoffs a.world.store a.context.cutoffs = .ok ()) := by
  have hopened : (opened s context).Orderly := orderly_opened hs hlive
  refine ⟨rebuilt_covers (hrun.invariant orderly_preserved hopened), fun hcareful => ?_⟩
  have hpreserves : ∀ id, (machine.restrict Careful).Preserves fun a =>
      a.Orderly ∧ Known id a ∧ Covered id a := by
    rintro id a call ⟨hen, hcareful⟩ ⟨ho, hk, hc⟩
    have hmoves := step_cases hen
    exact ⟨orderly_preserved a call hen ho, hk.step ho hmoves, hc.step ho hk hmoves hcareful⟩
  refine validateCutoffs_context_iff.mpr fun r hr => ?_
  obtain ⟨hk, hc⟩ := covered_opened hs hlive hopen r.connectionId
  exact (hcareful.invariant (hpreserves r.connectionId) ⟨hopened, hk, hc⟩).2.2.resources r hr rfl

end

end AppState

namespace Fixture

/-- A full answer with one repository. -/
def repositoryBatch : ObservationBatch :=
  { dangling with
    resources :=
      [{ kind := kind "github.repository"
         externalId := text "1"
         name := "r"
         displayName := "r"
         scope := text "github:a"
         labels := .empty
         health := .healthy
         attributes := .object []
         attributeSchemaVersion := nextSchemaVersion
         observedAt := time 2 }]
    relations := [] }

def repositoryEnv : SyncEnv :=
  { danglingEnv with legacySecret := some [1], connector := fun _ _ => .ok (.complete repositoryBatch) }

def contextOf (s : Store) : QueryContextSnapshot where
  evaluatedAt := time 0
  queryContextRevision := 0
  schedules := OrderedMap.ofEntries (s.queryConnections.map fun c => (c.connectionId, ⟨900000, none⟩))

def openedOn (sys : System) : AppState := .opened sys.store (contextOf sys.store)

/-- The sync of the only party. -/
def syncing : List AppStep :=
  .does (.acts 0 (.enqueues flightUuid repositoryEnv)) :: List.replicate 7 (.does (.acts 0 .works))

def manualSync : List AppStep :=
  [.does (.resolves .manual (text "a")), .does (.admits 0)] ++ syncing

/-- The row goes while a sync waits, and a context without it is published. -/
def purgedUnderSync : List AppStep :=
  [.does (.resolves .purge (text "a")), .does (.resolves .manual (text "a")), .does (.admits 0),
    .does (.acts 0 .purges), .does (.acts 0 .purgeEnds), .does (.admits 0), .readsRevision none,
    .buildsContext 0 (time 0) KeyedTable.empty, .publishes 0] ++ syncing

/-- The create command is refused its refresh, and its row is synced by hand. -/
def lostRace : List AppStep :=
  [.readsRevision none, .buildsContext 0 (time 0) KeyedTable.empty, .does (.createConnection .github),
    .does (.acts 0 (.savesConnection (connection (text "a")))), .does (.acts 0 (.savesSecret [1])),
    .readsRevision (some (text "a")), .buildsContext 1 (time 0) KeyedTable.empty, .publishes 0,
    .publishes 0, .does (.acts 0 .fails)] ++ manualSync

end Fixture

namespace AppState

open Fixture in
theorem context_covers_manualSync :
    (machine.replay (openedOn withToken) manualSync).world.store.resources.rows ≠ [] ∧
      validateCutoffs (machine.replay (openedOn withToken) manualSync).world.store
        (machine.replay (openedOn withToken) manualSync).context.cutoffs = .ok () := by
  refine ⟨by decide, ?_⟩
  have hcovers := @context_covers _ withToken.store (time 0) (contextOf withToken.store)
    withToken_integral (by decide) rfl manualSync (Machine.run_replay (by decide))
  exact hcovers.2 (Machine.run_replay (by decide))

open Fixture in
/-- A purge in the way of a waiting sync stops every query. -/
theorem purge_uncovers :
    ∃ a, machine.Run (openedOn withToken) purgedUnderSync a ∧
      validateCutoffs a.world.store a.context.cutoffs ≠ .ok () :=
  ⟨_, Machine.run_replay (by decide),
    fun h => absurd (validateCutoffs_context_iff.mp h) (by decide)⟩

open Fixture in
/-- So does a manual sync of what a refused create command has left. -/
theorem lost_race_uncovers :
    ∃ a, machine.Run (openedOn .fresh) lostRace a ∧
      validateCutoffs a.world.store a.context.cutoffs ≠ .ok () :=
  ⟨_, Machine.run_replay (by decide),
    fun h => absurd (validateCutoffs_context_iff.mp h) (by decide)⟩

end AppState

end NextInfra
