import NextInfra.Desktop.Commands

/-!
# Purges beside syncs

A purge is final unless a sync stood between reading the connection and taking the
flag when the rows went (`purge_final_iff`): the guard of the purge keeps away every
sync that has its flag, and nobody who reads later finds the row.
-/

namespace NextInfra

namespace World

variable {w : World} {call : WorldStep}

/-! ## §1  What is left after a purge -/

/-- A step at which `purge_connection` removes the rows of a connection. -/
inductive Purges (w : World) (id : ConnectionId) : WorldStep → Prop
  | guarded {party : Nat} {flag : SyncFlag} {connection : Connection}
      (at_ : w.tasks[party]? = some ⟨flag, .purging connection⟩)
      (same : connection.connectionId = id)
      (ok : (w.store.purgeConnection id).isOk = true) : Purges w id (.acts party .purges)
  /-- The type has no flag. -/
  | unguarded {command : Nat} {connection : Connection}
      (at_ : w.resolved[command]? = some ⟨.purge, connection⟩)
      (free : SyncFlag.ofType connection.connectorType = none)
      (same : connection.connectionId = id)
      (ok : (w.store.purgeConnection id).isOk = true) : Purges w id (.admits command)

/-- No row of the connection, and nobody left who could write one. -/
structure Gone (id : ConnectionId) (w : World) : Prop where
  sound : w.Sound
  absent : ∀ row ∈ w.store.connections.rows, row.connectionId ≠ id
  minted : id ∈ w.minted
  tasks : ∀ task ∈ w.tasks, ∀ c, task.stage.connection? = some c → c.connectionId ≠ id
  resolved : ∀ r ∈ w.resolved, r.asked ≠ .purge → r.connection.connectionId ≠ id

theorem gone_preserved (id : ConnectionId) : machine.Preserves (Gone id) := by
  intro w call hen hg
  show Gone id (w.step call)
  obtain ⟨own, horigin, hfollows⟩ := step_follows hg.sound.checked hen
  have hown : ∀ c, own = some c → c.connectionId ≠ id := by
    rintro c rfl
    cases horigin with
    | party works holds => exact hg.tasks _ works c holds
    | command waits asks => exact hg.resolved _ waits asks
    | created new minted live stored =>
        rintro rfl
        exact new hg.minted
  refine
    { sound := sound_preserved w call hen hg.sound
      absent := ?_
      minted := hfollows.minted id hg.minted
      tasks := ?_
      resolved := ?_ }
  · intro row hrow
    rcases hfollows.store.rows row hrow with hold | ⟨c, hc, hkin⟩
    · exact hg.absent row hold
    · rw [hkin.connectionId]
      exact hown c (hfollows.writes c hc)
  · intro task htask c hc
    rcases hfollows.tasks task htask with hold | ⟨hheld, _⟩
    · exact hg.tasks task hold c hc
    · obtain ⟨_, d, hd, hkin⟩ := hheld c hc
      rw [hkin.connectionId]
      exact hown d hd
  · intro r hr hasks
    rcases hfollows.resolved r hr with hold | ⟨hrow, _⟩
    · exact hg.resolved r hold hasks
    · exact hg.absent _ hrow

theorem Gone.noRowOf {id : ConnectionId} (h : Gone id w) : w.store.NoRowOf id := by
  apply h.sound.integral.noRowOf
  exact KeyedTable.get_eq_none_iff.mpr h.absent

end World

/-! ## §2  Who can be there meanwhile -/

theorem Store.afterPurge_ok {s : Store} {id : ConnectionId} (h : (s.purgeConnection id).isOk = true) :
    s.afterPurge id = s.purged id := by
  unfold afterPurge
  cases hpurge : s.purgeConnection id with
  | error e =>
      rw [hpurge] at h
      cases h
  | ok answer =>
      obtain ⟨summary, s'⟩ := answer
      obtain ⟨_, _, _, rfl⟩ := purgeConnection_ok hpurge
      rfl

namespace World

variable {w : World} {call : WorldStep} {id : ConnectionId}

/-- An act that is no creation, as a step. -/
theorem step_acts {party : Nat} {flag : SyncFlag} {stage : Stage} {a : Act} {turn : Turn}
    (hat : w.tasks[party]? = some ⟨flag, stage⟩)
    (hturn : Task.turn flag w.store stage a = some turn) (hmints : mints a = []) :
    machine.enabled w (.acts party a) ∧
      machine.step w (.acts party a) = w.turned party flag turn := by
  have hof : w.turnOf party a = some (flag, turn) := by
    unfold turnOf
    rw [hat]
    simp only [hturn, Option.map_some]
  refine ⟨⟨by rw [hof]; rfl, by rw [hmints]; exact fun _ h => absurd h List.not_mem_nil⟩, ?_⟩
  show w.acts party a = _
  unfold acts
  rw [hof]
  simp only [hmints, List.nil_append]
  cases turn with
  | goes stage s => rfl
  | clears s => rfl
  | leaves s => rfl

theorem step_purges {party : Nat} {flag : SyncFlag} {connection : Connection}
    (hat : w.tasks[party]? = some ⟨flag, .purging connection⟩)
    (hok : (w.store.purgeConnection connection.connectionId).isOk = true) :
    w.step (.acts party .purges) =
      w.turned party flag (.goes .purged (w.store.purged connection.connectionId)) := by
  rw [← Store.afterPurge_ok hok]
  exact (step_acts hat rfl rfl).2

/-- A purge takes the rows away and lets nobody wait. -/
theorem step_of_purges (hpurge : w.Purges id call) :
    (w.footprint call).loses = some id ∧ (w.step call).store = w.store.purged id ∧
      ∀ r ∈ (w.step call).resolved, r ∈ w.resolved := by
  cases hpurge with
  | guarded at_ same ok =>
      rename_i party flag connection
      subst same
      refine ⟨?_, ?_, ?_⟩
      · show ((w.tasks[party]?).elim {} fun task => task.stage.footprint .purges).loses = _
        rw [at_]
        rfl
      · rw [step_purges at_ ok]
        rfl
      · rw [step_purges at_ ok]
        exact fun r hr => hr
  | unguarded at_ free same ok =>
      rename_i command connection
      subst same
      have hstep : w.step (.admits command) = { w.answered command with
          store := w.store.purged connection.connectionId } := by
        show w.admits command = _
        unfold admits
        rw [at_]
        simp only [takes, free]
        rw [← Store.afterPurge_ok ok]
        rfl
      refine ⟨?_, ?_, ?_⟩
      · show ((w.resolved[command]?).elim {} takesAway).loses = _
        rw [at_]
        simp only [Option.elim_some, takesAway, free]
      · rw [hstep]
      · rw [hstep]
        exact fun r hr => List.mem_of_mem_eraseIdx hr

theorem minted_of_purges (hs : w.Sound) (hpurge : w.Purges id call) : id ∈ w.minted := by
  cases hpurge with
  | guarded at_ same ok =>
      rw [← same]
      exact hs.minted _ (.target (List.mem_of_getElem? at_) rfl)
  | unguarded at_ free same ok =>
      rw [← same]
      exact hs.minted _ (.read (List.mem_of_getElem? at_))

/-- The rows gone, and no sync between its read and its flag. -/
theorem gone_of_purges (hs : w.Sound) (hen : w.Enabled call) (hpurge : w.Purges id call)
    (hclear : ∀ r ∈ w.resolved, r.connection.connectionId = id → r.asked = .purge) :
    Gone id (w.step call) := by
  obtain ⟨own, horigin, hfollows⟩ := step_follows hs.checked hen
  obtain ⟨hloses, hstore, hresolved⟩ := step_of_purges hpurge
  refine
    { sound := sound_preserved w call hen hs
      absent := ?_
      minted := hfollows.minted id (minted_of_purges hs hpurge)
      tasks := hs.loser_alone hen hloses
      resolved := fun r hr hasks hid => hasks (hclear r (hresolved r hr) hid) }
  intro row hrow
  rw [hstore] at hrow
  exact of_decide_eq_true (KeyedTable.mem_keep.mp hrow).2

/-! ## §3  The law -/

/-- How a waiting sync takes its flag and is spawned. -/
theorem takes_sync {asked : Asked} {c : Connection} (hserves : asked.serves c = true)
    (hasks : asked ≠ .purge) :
    ∃ flag stage, flag.connectorType = c.connectorType ∧
      (∀ w : World, w.takes ⟨asked, c⟩ = w.swap flag stage) ∧
      ∀ s uuid env, Task.turn flag s stage (.enqueues uuid env) =
        some (Task.enqueued flag s stage.phase c uuid env) := by
  cases asked with
  | manual =>
      have htype := of_decide_eq_true (Bool.and_eq_true_iff.mp hserves).2
      exact ⟨.github, .manual c, htype.symm, fun _ => rfl, fun _ _ _ => rfl⟩
  | scheduled =>
      have hlive := (Bool.and_eq_true_iff.mp hserves).2
      have hsome : (SyncFlag.ofLiveType c.connectorType).isSome := by
        unfold SyncFlag.ofLiveType
        rw [List.find?_isSome]
        exact List.any_eq_true.mp hlive
      obtain ⟨flag, hflag⟩ := Option.isSome_iff_exists.mp hsome
      refine ⟨flag, .scheduled c, SyncFlag.connectorType_of_live hflag, ?_, fun _ _ _ => rfl⟩
      intro w
      simp only [takes, hflag]
  | purge => exact absurd rfl hasks

/-- A spawned task writes the connection it was given. -/
theorem spawn_writes {party : Nat} {flag : SyncFlag} {stage : Stage} {c : Connection}
    (hat : w.tasks[party]? = some ⟨flag, stage⟩)
    (henqueues : ∀ s uuid env, Task.turn flag s stage (.enqueues uuid env) =
      some (Task.enqueued flag s stage.phase c uuid env)) :
    ∃ later w', machine.Run w later w' ∧
      ∃ row ∈ w'.store.connections.rows, row.connectionId = c.connectionId := by
  obtain ⟨runId, trigger, henqueued⟩ := Task.enqueued_eq flag w.store stage.phase c
    Fixture.flightUuid Fixture.danglingEnv
  have hturn := henqueues w.store Fixture.flightUuid Fixture.danglingEnv
  rw [henqueued] at hturn
  obtain ⟨henqueue, hspawned⟩ := step_acts hat hturn rfl
  have hlt : party < w.tasks.length := (List.getElem?_eq_some_iff.mp hat).1
  have htask : (w.turned party flag (.goes (.syncing (.spawned
      { Fixture.danglingEnv with syncRunId := runId, trigger := trigger } c)) w.store)).tasks[party]? =
        some ⟨flag, .syncing (.spawned
          { Fixture.danglingEnv with syncRunId := runId, trigger := trigger } c)⟩ :=
    List.getElem?_set_self hlt
  obtain ⟨hwork, hnoted⟩ := step_acts htask (a := .works) rfl rfl
  have hwrites := Machine.Run.cons_eq hwork hnoted (.nil _)
  have hrun := Machine.Run.cons_eq henqueue hspawned hwrites
  exact ⟨_, _, hrun, _, KeyedTable.mem_put.mpr (Or.inl rfl), rfl⟩

/-- A sync that waits for a clear flag writes the connection it has read. -/
theorem readmits {command : Nat} {asked : Asked} {c : Connection}
    (hat : w.resolved[command]? = some ⟨asked, c⟩) (hserves : asked.serves c = true)
    (hasks : asked ≠ .purge)
    (hfree : ∀ flag, flag.connectorType = c.connectorType → w.running flag = false) :
    ∃ later w', machine.Run w later w' ∧
      ∃ row ∈ w'.store.connections.rows, row.connectionId = c.connectionId := by
  obtain ⟨flag, stage, htype, htakes, henqueues⟩ := takes_sync hserves hasks
  obtain ⟨hlt, _⟩ := List.getElem?_eq_some_iff.mp hat
  have hadmitted : w.step (.admits command) =
      { w.answered command with
        running := w.running.take flag
        tasks := w.tasks ++ [⟨flag, stage⟩] } := by
    show w.admits command = _
    unfold admits
    rw [hat]
    simp only [htakes]
    unfold swap
    rw [if_neg (by simpa [answered] using hfree flag htype)]
    rfl
  have htask : (w.step (.admits command)).tasks[w.tasks.length]? = some ⟨flag, stage⟩ := by
    rw [hadmitted]
    simp
  obtain ⟨later, w', hrun, hrow⟩ := spawn_writes htask henqueues
  exact ⟨_, w', .cons (a := WorldStep.admits command) hlt hrun, hrow⟩

/-- A sync between its read and its flag survives the purge. -/
theorem reappears (hs : w.Sound) (hpurge : w.Purges id call) {r : Resolved} (hr : r ∈ w.resolved)
    (hid : r.connection.connectionId = id) (hasks : r.asked ≠ .purge) :
    ∃ later w', machine.Run (w.step call) later w' ∧ ¬ w'.store.NoRowOf id := by
  have hserves := hs.checked.served r hr
  obtain ⟨command, hat⟩ := List.mem_iff_getElem?.mp hr
  obtain ⟨flag', stage, htype', _, _⟩ := takes_sync hserves hasks
  cases hpurge with
  | guarded at_ same ok =>
      rename_i party flag connection
      subst same
      have hmem := List.mem_of_getElem? at_
      obtain ⟨hlt, _⟩ := List.getElem?_eq_some_iff.mp at_
      have htype : connection.connectorType = r.connection.connectorType :=
        hs.kin connection r.connection (.target hmem rfl) (.read hr) hid.symm
      have hflag := hs.checked.flags _ hmem connection (Or.inr rfl)
      rw [step_purges at_ ok]
      -- the purge gives its guard back
      have htask : (w.turned party flag (.goes .purged
          (w.store.purged connection.connectionId))).tasks[party]? = some ⟨flag, .purged⟩ :=
        List.getElem?_set_self hlt
      obtain ⟨hends, hstep⟩ := step_acts htask (a := .purgeEnds) rfl rfl
      have hfree : ∀ other : SyncFlag, other.connectorType = r.connection.connectorType →
          w.running.store flag other = false := by
        intro other hother
        have hsame : other = flag := by
          apply SyncFlag.eq_of_connectorType
          rw [hother, ← htype]
          exact hflag
        rw [hsame]
        exact Flags.store_self _ _
      obtain ⟨later, w', hrun, row, hrow, hrowid⟩ := readmits
        (w := (w.turned party flag (.goes .purged (w.store.purged connection.connectionId))).turned
          party flag (.clears (w.store.purged connection.connectionId)))
        hat hserves hasks hfree
      refine ⟨_, w', .cons_eq hends hstep hrun, fun hno => ?_⟩
      exact hno.connections row hrow (hrowid.trans hid)
  | unguarded at_ free same ok =>
      rename_i command' connection
      subst same
      have htype : connection.connectorType = r.connection.connectorType :=
        hs.kin connection r.connection (.read (List.mem_of_getElem? at_)) (.read hr) hid.symm
      rw [htype, ← htype', SyncFlag.ofType_connectorType] at free
      cases free

/-- After a purge the connection stays gone in every continuation iff, when its rows
went, no sync stood between reading it and taking the flag. -/
theorem purge_final_iff {s : Store} (hs : s.Integral) {calls : List WorldStep}
    (hrun : machine.Run (quiet s) calls w) (hen : machine.enabled w call)
    (hpurge : w.Purges id call) :
    (∀ later w', machine.Run (w.step call) later w' → w'.store.NoRowOf id) ↔
      ∀ r ∈ w.resolved, r.connection.connectionId = id → r.asked = .purge := by
  have hsound : w.Sound := hrun.invariant sound_preserved (sound_quiet hs)
  constructor
  · intro hfinal r hr hid
    by_contra hasks
    obtain ⟨later, w', hlater, hrow⟩ := reappears hsound hpurge hr hid hasks
    exact hrow (hfinal later w' hlater)
  · intro hclear later w' hlater
    have hgone := gone_of_purges hsound hen hpurge hclear
    exact (hlater.invariant (gone_preserved id) hgone).noRowOf

end World

namespace Fixture

/-- A purge and a manual sync have read the connection; the purge gets the flag. -/
def racing : List WorldStep := [.resolves .purge (text "a"), .resolves .manual (text "a"), .admits 0]

def raced : World := World.machine.replay (.quiet withToken.store) racing

theorem raced_run : World.machine.Run (.quiet withToken.store) racing raced :=
  Machine.run_replay (by decide)

theorem raced_purges : raced.Purges (text "a") (.acts 0 .purges) :=
  .guarded (show raced.tasks[0]? = some ⟨.github, .purging (connection (text "a"))⟩ from rfl) rfl rfl

theorem withToken_integral : withToken.store.Integral where
  syncRuns := fun _ h => absurd h List.not_mem_nil
  resources := fun _ h => absurd h List.not_mem_nil
  connectorState := fun _ h => absurd h List.not_mem_nil

end Fixture

namespace World

open Fixture in
theorem purge_final_iff_raced :
    (∀ later w', machine.Run (raced.step (.acts 0 .purges)) later w' →
        w'.store.NoRowOf (text "a")) ↔
      ∀ r ∈ raced.resolved, r.connection.connectionId = text "a" → r.asked = .purge :=
  purge_final_iff withToken_integral raced_run (by decide) raced_purges

open Fixture in
/-- The purge succeeds, and the sync that waited brings the row back. -/
theorem purge_undone :
    (raced.step (.acts 0 .purges)).store.connections.rows = [] ∧
      ∃ later w', machine.Run (raced.step (.acts 0 .purges)) later w' ∧
        ¬ w'.store.NoRowOf (text "a") := by
  refine ⟨rfl, ?_⟩
  have hsound : raced.Sound := raced_run.invariant sound_preserved (sound_quiet withToken_integral)
  have hwaits : (⟨.manual, connection (text "a")⟩ : Resolved) ∈ raced.resolved :=
    List.mem_singleton_self _
  exact reappears hsound raced_purges hwaits rfl nofun

end World

end NextInfra
