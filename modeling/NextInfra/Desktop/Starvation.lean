import NextInfra.Desktop.Driver

/-!
# Who gets a turn

When a connection comes up is a matter of its registration and of the times of the
ticks: it is due first at its first due time and then an interval after each tick that
met it, and at a tick the connections that are due come up in the order of their ids. The
planner never looks at the flags. So a connection is admitted in a run iff it comes up at
some tick with the flag of its type released since every connection of the type that came
up before it (`no_starvation_iff_free_turns`).

The first connection of a type always gets its turn
(`first_of_type_always_admitted`); one that is in step with an earlier
connection of its type never does (`in_step_never_admitted`), however often both
are planned.
-/

namespace NextInfra

/-! ## §1  Runs of ticks -/

/-- The due time of an entry after evaluations at these times. -/
def ScheduleEntry.dueAfter (entry : ScheduleEntry) (times : List Timestamp) : Timestamp :=
  times.foldl (fun due now => if now < due then due else addInterval now entry.intervalMillis)
    entry.nextDueAt

/-- The entry is due at the tick of this number. -/
def ScheduleEntry.comesDue (entry : ScheduleEntry) (times : List Timestamp) (k : Nat) : Bool :=
  times[k]?.any fun now => !decide (now < entry.dueAfter (times.take k))

namespace Driver

section

variable (resolve : ConnectionId → Option Connection)

def Registered (driver : Driver) (id : ConnectionId) : Prop :=
  (driver.runtime.scheduler.entry id).isSome

/-- Stored, enabled and of a live type: its flag. -/
def Syncs (id : ConnectionId) (flag : SyncFlag) : Prop :=
  ∃ connection, resolve id = some connection ∧ connection.enabled = true ∧
    SyncFlag.ofLiveType connection.connectorType = some flag

def SameType (id other : ConnectionId) : Prop :=
  (resolve id).map Connection.connectorType = (resolve other).map Connection.connectorType

instance (id other : ConnectionId) : Decidable (SameType resolve id other) :=
  inferInstanceAs (Decidable (_ = _))

/-- The number of registered connections of a connection's type. -/
def typeCount (driver : Driver) (id : ConnectionId) : Nat :=
  driver.runtime.scheduler.entries.rows.countP fun entry =>
    decide (SameType resolve entry.connectionId id)

/-- Every connection of the type has been planned more often than there are
connections of the type. -/
def PlannedEnough (driver : Driver) (ts : List Tick) (id : ConnectionId) : Prop :=
  ∀ other, driver.Registered other → SameType resolve other id →
    driver.typeCount resolve id < (driver.ticks resolve ts).planned other

/-- Who comes up at a tick: before the first one the catch-up plans, then, while the runtime
runs, the entries that are due. -/
def turns (driver : Driver) (times : List Timestamp) (k : Nat) : List ConnectionId :=
  (if k = 0 then driver.pending.map ScheduledSync.connectionId else []) ++
    match driver.runtime.state with
    | .running _ =>
        (driver.runtime.scheduler.entries.rows.filter fun entry => entry.comesDue times k).map
          ScheduleEntry.connectionId
    | _ => []

/-- How often a connection comes up. -/
def timesUp (driver : Driver) (times : List Timestamp) (id : ConnectionId) : Nat :=
  ((List.range times.length).map fun k => (driver.turns times k).count id).sum

/-- By then each of them has had a sync admitted. -/
def NoStarvation (driver : Driver) (ts : List Tick) : Prop :=
  ∀ id, driver.Registered id → driver.PlannedEnough resolve ts id →
    1 ≤ (driver.ticks resolve ts).admitted id

/-- Some tick of the run plans the connection with no connection of its type in
flight from the plans before it. -/
def GetsFreeTurn (driver : Driver) (ts : List Tick) (id : ConnectionId) (flag : SyncFlag) : Prop :=
  ∃ earlier t later before plan after, ts = earlier ++ t :: later ∧
    (driver.ticks resolve earlier).plans t.at_ = before ++ plan :: after ∧
    plan.connectionId = id ∧ FreeAfter resolve t.ends before flag

/-- At some tick the connection comes up with the flag released since every connection that
needs it and came up before. -/
def ComesUpFree (driver : Driver) (ts : List Tick) (id : ConnectionId) (flag : SyncFlag) : Prop :=
  ∃ k t before after, ts[k]? = some t ∧
    driver.turns (ts.map Tick.at_) k = before ++ id :: after ∧
    ∀ i other, before[i]? = some other → Syncs resolve other flag →
      ∃ j, i < j ∧ j ≤ before.length ∧ t.ends j flag = true

end

section

variable {resolve : ConnectionId → Option Connection} {driver : Driver}

theorem mem_zip_iff {α β : Type} {as : List α} {bs : List β} {a : α} {b : β} :
    (a, b) ∈ as.zip bs ↔ ∃ i : Nat, as[i]? = some a ∧ bs[i]? = some b := by
  rw [List.mem_iff_getElem?]
  simp only [List.getElem?_zip_eq_some]

/-- The log of a run: what each tick made of each of its plans. -/
theorem mem_log_ticks {ts : List Tick} {plan : ScheduledSync} {outcome : Dispatch} :
    (plan, outcome) ∈ (driver.ticks resolve ts).log ↔
      (plan, outcome) ∈ driver.log ∨
        ∃ earlier t later before after, ts = earlier ++ t :: later ∧
          (driver.ticks resolve earlier).plans t.at_ = before ++ plan :: after ∧
          (dispatchAll resolve t.ends .free (before ++ plan :: after)).1[before.length]? =
            some outcome := by
  induction ts generalizing driver with
  | nil =>
      constructor
      · exact Or.inl
      · rintro (h | ⟨earlier, t, later, _, _, hsplit, _⟩)
        · exact h
        · exact absurd hsplit (by simp)
  | cons first rest ih =>
      show (plan, outcome) ∈ ((driver.settled.tick resolve first).ticks resolve rest).log ↔ _
      rw [ih]
      have hlog : (driver.settled.tick resolve first).log = driver.log ++
          (driver.plans first.at_).zip
            (dispatchAll resolve first.ends .free (driver.plans first.at_)).1 := rfl
      rw [hlog, List.mem_append, mem_zip_iff]
      constructor
      · rintro ((hold | ⟨i, hplan, hout⟩) | ⟨earlier, t, later, before, after, rfl, hrest⟩)
        · exact Or.inl hold
        · -- planned by the first tick
          right
          obtain ⟨hi, hget⟩ := List.getElem?_eq_some_iff.mp hplan
          have hsplit : driver.plans first.at_ =
              (driver.plans first.at_).take i ++ plan :: (driver.plans first.at_).drop (i + 1) := by
            rw [← hget, ← List.drop_eq_getElem_cons hi, List.take_append_drop]
          have hlen : ((driver.plans first.at_).take i).length = i := by
            rw [List.length_take]
            exact Nat.min_eq_left (Nat.le_of_lt hi)
          refine ⟨[], first, rest, _, _, rfl, hsplit, ?_⟩
          rw [← hsplit, hlen]
          exact hout
        · exact Or.inr ⟨first :: earlier, t, later, before, after, rfl, hrest⟩
      · rintro (hold | ⟨earlier, t, later, before, after, hsplit, hplans, hout⟩)
        · exact Or.inl (Or.inl hold)
        · cases earlier with
          | nil =>
              cases hsplit
              left
              right
              have hplans' : driver.plans _ = before ++ plan :: after := hplans
              refine ⟨before.length, ?_, ?_⟩
              · rw [hplans']
                simp
              · rw [hplans']
                exact hout
          | cons e earlier =>
              cases hsplit
              exact Or.inr ⟨earlier, t, later, before, after, rfl, hplans, hout⟩

/-- A connection is admitted in a run iff it gets a free turn. -/
theorem admitted_iff_getsFreeTurn {id : ConnectionId} {flag : SyncFlag}
    (hsyncs : Syncs resolve id flag) (hlog : driver.log = []) (ts : List Tick) :
    1 ≤ (driver.ticks resolve ts).admitted id ↔ driver.GetsFreeTurn resolve ts id flag := by
  unfold admitted GetsFreeTurn
  rw [Nat.one_le_iff_ne_zero, ← Nat.pos_iff_ne_zero, List.countP_pos_iff]
  constructor
  · rintro ⟨⟨plan, outcome⟩, hmem, hkind⟩
    simp only [Bool.and_eq_true, decide_eq_true_eq] at hkind
    obtain ⟨rfl, rfl⟩ := hkind
    rw [mem_log_ticks, hlog] at hmem
    rcases hmem with hmem | ⟨earlier, t, later, before, after, hts, hplans, hout⟩
    · cases hmem
    · exact ⟨earlier, t, later, before, plan, after, hts, hplans, rfl,
        (admitted_iff_freeAfter t.ends hsyncs).mp hout⟩
  · rintro ⟨earlier, t, later, before, plan, after, hts, hplans, rfl, hfree⟩
    refine ⟨(plan, .admitted), ?_, by simp⟩
    rw [mem_log_ticks]
    right
    exact ⟨earlier, t, later, before, after, hts, hplans,
      (admitted_iff_freeAfter t.ends hsyncs).mpr hfree⟩

/-! ## §2  Who comes up -/

theorem due_running {mode : RuntimeMode} (h : driver.runtime.state = .running mode)
    (at_ : Timestamp) :
    driver.due at_ = ((driver.runtime.scheduler.planDue at_).1,
      { driver.runtime with scheduler := (driver.runtime.scheduler.planDue at_).2 }) := by
  unfold due
  rw [Runtime.planDue_running h]

/-- A tick leaves the state of the runtime as it is. -/
theorem due_state (at_ : Timestamp) : (driver.due at_).2.state = driver.runtime.state := by
  cases hstate : driver.runtime.state with
  | running mode =>
      rw [due_running hstate]
      exact hstate
  | _ =>
      unfold due Runtime.planDue Runtime.ensureAdmission
      rw [hstate]
      exact hstate

theorem turns_zero (at_ : Timestamp) (times : List Timestamp) :
    driver.turns (at_ :: times) 0 = (driver.plans at_).map ScheduledSync.connectionId := by
  unfold turns plans
  rw [List.map_append, if_pos rfl]
  congr 1
  cases hstate : driver.runtime.state with
  | running mode =>
      rw [due_running hstate]
      show List.map _ _ = List.map _ (List.map (ScheduleEntry.planned at_ false)
        (driver.runtime.scheduler.entries.rows.filter (ScheduleEntry.isDue at_)))
      rw [List.map_map]
      rfl
  | _ =>
      unfold due Runtime.planDue Runtime.ensureAdmission
      rw [hstate]
      rfl

/-- The ticks after the first meet the entries with their due times moved on. -/
theorem turns_succ (t : Tick) (times : List Timestamp) (k : Nat) :
    driver.turns (t.at_ :: times) (k + 1) = (driver.settled.tick resolve t).turns times k := by
  have hpending : (if k = 0 then (driver.settled.tick resolve t).pending.map
      ScheduledSync.connectionId else []) = [] := by
    split
    · rfl
    · rfl
  have hstate : (driver.settled.tick resolve t).runtime.state = driver.runtime.state :=
    @due_state driver.settled t.at_
  unfold turns
  rw [hpending, if_neg (Nat.succ_ne_zero k), hstate]
  congr 1
  cases hmode : driver.runtime.state with
  | running mode =>
      have hrows : (driver.settled.tick resolve t).runtime.scheduler.entries.rows =
          driver.runtime.scheduler.entries.rows.map (ScheduleEntry.advance t.at_) := by
        show (driver.due t.at_).2.scheduler.entries.rows = _
        rw [due_running hmode]
        rfl
      -- planning moves a due time just as counting the first tick does
      have hcomes : ∀ entry : ScheduleEntry, (entry.advance t.at_).comesDue times k =
          entry.comesDue (t.at_ :: times) (k + 1) := by
        intro entry
        have hdue : (entry.advance t.at_).nextDueAt = if t.at_ < entry.nextDueAt then
            entry.nextDueAt else addInterval t.at_ entry.intervalMillis := by
          unfold ScheduleEntry.advance ScheduleEntry.isDue
          by_cases hlt : t.at_ < entry.nextDueAt
          · simp [hlt]
          · simp [hlt]
        unfold ScheduleEntry.comesDue ScheduleEntry.dueAfter
        rw [List.getElem?_cons_succ, List.take_succ_cons, List.foldl_cons, hdue,
          ScheduleEntry.advance_intervalMillis]
      simp only [hrows, List.filter_map, List.map_map]
      congr 1
      · funext entry
        exact (ScheduleEntry.advance_connectionId _ _).symm
      · congr 1
        funext entry
        exact (hcomes entry).symm
  | _ => rfl

theorem turns_at (earlier : List Tick) (t : Tick) (later : List Tick) :
    driver.turns ((earlier ++ t :: later).map Tick.at_) earlier.length =
      ((driver.ticks resolve earlier).plans t.at_).map ScheduledSync.connectionId := by
  induction earlier generalizing driver with
  | nil => exact turns_zero _ _
  | cons first earlier ih => exact (turns_succ first _ _).trans ih

/-- The runs of the driver plan a connection as often as it comes up. -/
theorem planned_ticks (id : ConnectionId) (ts : List Tick) :
    (driver.ticks resolve ts).planned id =
      driver.planned id + driver.timesUp (ts.map Tick.at_) id := by
  induction ts generalizing driver with
  | nil => rfl
  | cons t ts ih =>
      -- the log of a tick has one entry for each who comes up
      have hfirst : (driver.settled.tick resolve t).planned id =
          driver.planned id + (driver.turns (t.at_ :: ts.map Tick.at_) 0).count id := by
        have hlength := @length_dispatchAll resolve t.ends .free (driver.plans t.at_)
        show List.countP _ (driver.log ++ (driver.plans t.at_).zip
          (dispatchAll resolve t.ends .free (driver.plans t.at_)).1) = _
        rw [List.countP_append, turns_zero]
        congr 1
        rw [List.count_eq_countP, List.countP_map, ← List.map_fst_zip (Nat.le_of_eq hlength.symm),
          List.countP_map, List.map_fst_zip (Nat.le_of_eq hlength.symm)]
        rfl
      show ((driver.settled.tick resolve t).ticks resolve ts).planned id = _
      rw [ih, hfirst, Nat.add_assoc]
      congr 1
      unfold timesUp
      rw [List.map_cons, List.length_cons, List.range_succ_eq_map, List.map_cons, List.sum_cons,
        List.map_map]
      congr 3
      funext k
      exact congrArg (List.count id) (turns_succ t _ k).symm

/-- A free turn in the plans of the driver is a free turn by the times. -/
theorem getsFreeTurn_iff {id : ConnectionId} {flag : SyncFlag} {ts : List Tick} :
    driver.GetsFreeTurn resolve ts id flag ↔ driver.ComesUpFree resolve ts id flag := by
  constructor
  · rintro ⟨earlier, t, later, before, plan, after, rfl, hplans, rfl, hfree⟩
    refine ⟨earlier.length, t, before.map ScheduledSync.connectionId,
      after.map ScheduledSync.connectionId, ?_, ?_, ?_⟩
    · rw [List.getElem?_append_right (Nat.le_refl _), Nat.sub_self]
      rfl
    · rw [turns_at, hplans, List.map_append, List.map_cons]
    · intro i other hother hsyncs
      rw [List.getElem?_map] at hother
      obtain ⟨p, hp, rfl⟩ := Option.map_eq_some_iff.mp hother
      rw [List.length_map]
      exact hfree i p hp hsyncs
  · rintro ⟨k, t, before, after, ht, hturns, hfree⟩
    obtain ⟨hk, hget⟩ := List.getElem?_eq_some_iff.mp ht
    have hsplit : ts = ts.take k ++ t :: ts.drop (k + 1) := by
      rw [← hget, ← List.drop_eq_getElem_cons hk, List.take_append_drop]
    have hlength : (ts.take k).length = k := List.length_take_of_le (Nat.le_of_lt hk)
    have hat := @turns_at resolve driver (ts.take k) t (ts.drop (k + 1))
    rw [← hsplit, hlength, hturns] at hat
    obtain ⟨before', rest, hplans, rfl, hrest⟩ := List.map_eq_append_iff.mp hat.symm
    obtain ⟨plan, after', rfl, rfl, rfl⟩ := List.map_eq_cons_iff.mp hrest
    refine ⟨_, t, _, before', plan, after', hsplit, hplans, rfl, ?_⟩
    intro i p hp hneeds
    have hother : (before'.map ScheduledSync.connectionId)[i]? = some p.connectionId := by
      rw [List.getElem?_map, hp]
      rfl
    obtain ⟨j, hij, hj, hended⟩ := hfree i _ hother hneeds
    rw [List.length_map] at hj
    exact ⟨j, hij, hj, hended⟩

/-- No connection starves iff each one of which all of its type come up often enough comes up
once with the flag released since those before it. -/
theorem no_starvation_iff_free_turns
    (hlive : ∀ id, driver.Registered id → ∃ flag, Syncs resolve id flag)
    (hlog : driver.log = []) (ts : List Tick) :
    driver.NoStarvation resolve ts ↔
      ∀ id flag, driver.Registered id → Syncs resolve id flag →
        (∀ other, driver.Registered other → SameType resolve other id →
          driver.typeCount resolve id < driver.timesUp (ts.map Tick.at_) other) →
        driver.ComesUpFree resolve ts id flag := by
  have henough : ∀ id, driver.PlannedEnough resolve ts id ↔
      ∀ other, driver.Registered other → SameType resolve other id →
        driver.typeCount resolve id < driver.timesUp (ts.map Tick.at_) other := by
    intro id
    have hnone : ∀ other, driver.planned other = 0 := by
      intro other
      unfold planned
      rw [hlog]
      rfl
    unfold PlannedEnough
    simp only [planned_ticks, hnone, Nat.zero_add]
  constructor
  · intro hnone id flag hreg hsyncs hup
    exact getsFreeTurn_iff.mp
      ((admitted_iff_getsFreeTurn hsyncs hlog ts).mp (hnone id hreg ((henough id).mpr hup)))
  · intro hturns id hreg hplanned
    obtain ⟨flag, hsyncs⟩ := hlive id hreg
    exact (admitted_iff_getsFreeTurn hsyncs hlog ts).mpr
      (getsFreeTurn_iff.mpr (hturns id flag hreg hsyncs ((henough id).mp hplanned)))

/-! ## §3  Entries over a run -/

/-- What every tick of a run keeps. -/
theorem ticks_keep {P : Driver → Prop} (hstep : ∀ d t, P d → P (d.settled.tick resolve t))
    (h : P driver) (ts : List Tick) : P (driver.ticks resolve ts) := by
  induction ts generalizing driver with
  | nil => exact h
  | cons t ts ih => exact ih (hstep driver t h)

/-- The runtime runs and no catch-up plan is pending. -/
structure Awake (driver : Driver) : Prop where
  running : ∃ mode, driver.runtime.state = .running mode
  pending : driver.pending = []

theorem due_awake (h : driver.Awake) (at_ : Timestamp) :
    driver.due at_ = ((driver.runtime.scheduler.planDue at_).1,
      { driver.runtime with scheduler := (driver.runtime.scheduler.planDue at_).2 }) := by
  obtain ⟨mode, hmode⟩ := h.running
  exact due_running hmode at_

theorem plans_awake (h : driver.Awake) (at_ : Timestamp) :
    driver.plans at_ = (driver.runtime.scheduler.plan at_ false).1 := by
  unfold plans
  rw [h.pending, due_awake h]
  rfl

theorem awake_tick (t : Tick) (h : driver.Awake) : (driver.settled.tick resolve t).Awake := by
  refine ⟨?_, rfl⟩
  show ∃ mode, (driver.due t.at_).2.state = .running mode
  rw [due_awake h]
  exact h.running

/-- A tick moves the due times of the entries and nothing else about them. -/
theorem entry_tick (t : Tick) (h : driver.Awake) (id : ConnectionId) :
    (driver.settled.tick resolve t).runtime.scheduler.entry id =
      (driver.runtime.scheduler.entry id).map (ScheduleEntry.advance t.at_) := by
  show (driver.due t.at_).2.scheduler.entry id = _
  rw [due_awake h]
  exact Scheduler.entry_plan driver.runtime.scheduler t.at_ false id

/-! ## §4  The first connection of a type -/

/-- Awake, with the registrations of the driver it came from. -/
structure CameFrom (start driver : Driver) : Prop where
  awake : driver.Awake
  registered : ∀ id, driver.Registered id → start.Registered id

theorem cameFrom_tick {start : Driver} (t : Tick) (h : CameFrom start driver) :
    CameFrom start (driver.settled.tick resolve t) := by
  refine ⟨awake_tick t h.awake, ?_⟩
  intro id hid
  apply h.registered
  unfold Registered at hid ⊢
  rw [entry_tick t h.awake] at hid
  simpa using hid

/-- The connection with the least id of its type is admitted every time it is
planned. -/
theorem first_of_type_always_admitted {id : ConnectionId} {flag : SyncFlag}
    (hsyncs : Syncs resolve id flag) (hawake : driver.Awake) (hlog : driver.log = [])
    (hfirst : ∀ other, driver.Registered other → Syncs resolve other flag → id ≤ other)
    (ts : List Tick) :
    (driver.ticks resolve ts).admitted id = (driver.ticks resolve ts).planned id := by
  unfold admitted planned
  apply List.countP_congr
  rintro ⟨plan, outcome⟩ hmem
  simp only [Bool.and_eq_true, decide_eq_true_eq, and_iff_left_iff_imp]
  rintro rfl
  rw [mem_log_ticks, hlog] at hmem
  rcases hmem with hmem | ⟨earlier, t, later, before, after, _, hplans, hout⟩
  · cases hmem
  have hfrom : CameFrom driver (driver.ticks resolve earlier) :=
    ticks_keep (fun _ t h => cameFrom_tick t h) ⟨hawake, fun _ h => h⟩ earlier
  -- every plan before it is of a smaller id, so none needs the flag
  have hfree : FreeAfter resolve t.ends before flag := by
    intro i p hp hneeds
    have hp' : p ∈ before := List.mem_of_getElem? hp
    have hsorted := Scheduler.plan_ascending (driver.ticks resolve earlier).runtime.scheduler
      t.at_ false
    rw [← plans_awake hfrom.awake, hplans] at hsorted
    have hlt : p.connectionId < plan.connectionId :=
      (List.pairwise_append.mp hsorted).2.2 p hp' plan List.mem_cons_self
    have hplanned : p ∈ (driver.ticks resolve earlier).plans t.at_ := by
      rw [hplans]
      exact List.mem_append_left _ hp'
    rw [plans_awake hfrom.awake, Scheduler.mem_plan] at hplanned
    obtain ⟨entry, hentry, _⟩ := hplanned
    have hreg : (driver.ticks resolve earlier).Registered p.connectionId := by
      unfold Registered
      rw [hentry]
      rfl
    exact absurd hlt (not_lt.mpr (hfirst _ (hfrom.registered _ hreg) hneeds))
  have hadmitted := (@admitted_iff_freeAfter resolve plan flag before after t.ends hsyncs).mpr hfree
  rw [hout] at hadmitted
  exact Option.some.inj hadmitted

/-! ## §5  Connections in step -/

/-- Both are registered with one interval and are due together. -/
structure InStep (driver : Driver) (first second : ConnectionId) : Prop where
  awake : driver.Awake
  entries : ∃ e e', driver.runtime.scheduler.entry first = some e ∧
    driver.runtime.scheduler.entry second = some e' ∧ e.intervalMillis = e'.intervalMillis ∧
    e.nextDueAt = e'.nextDueAt

/-- A tick plans both or none, so they stay in step. -/
theorem inStep_tick {first second : ConnectionId} (t : Tick) (h : driver.InStep first second) :
    (driver.settled.tick resolve t).InStep first second := by
  obtain ⟨e, e', he, he', hinterval, hdue⟩ := h.entries
  refine ⟨awake_tick t h.awake, e.advance t.at_, e'.advance t.at_, ?_, ?_, ?_, ?_⟩
  · rw [entry_tick t h.awake, he]
    rfl
  · rw [entry_tick t h.awake, he']
    rfl
  · simpa using hinterval
  · have hsame : e.isDue t.at_ = e'.isDue t.at_ := by
      unfold ScheduleEntry.isDue
      rw [hdue]
    unfold ScheduleEntry.advance
    rw [hsame]
    split
    · show addInterval t.at_ e.intervalMillis = addInterval t.at_ e'.intervalMillis
      rw [hinterval]
    · exact hdue

/-- In step with an earlier connection of its type, a connection is never
admitted, however long the run, unless a sync ends within a tick. -/
theorem in_step_never_admitted {first second : ConnectionId} {flag : SyncFlag}
    (hfirst : Syncs resolve first flag) (hsecond : Syncs resolve second flag)
    (hlt : first < second) (hstep : driver.InStep first second) (hlog : driver.log = [])
    {ts : List Tick} (hends : ∀ t ∈ ts, ∀ j, t.ends j flag = false) :
    (driver.ticks resolve ts).admitted second = 0 := by
  by_contra hsome
  obtain ⟨earlier, t, later, before, plan, after, rfl, hplans, rfl, hfree⟩ :=
    (admitted_iff_getsFreeTurn hsecond hlog ts).mp (Nat.one_le_iff_ne_zero.mpr hsome)
  have hnow : (driver.ticks resolve earlier).InStep first plan.connectionId :=
    ticks_keep (P := fun d => d.InStep first plan.connectionId) (fun _ t h => inStep_tick t h)
      hstep earlier
  obtain ⟨e, e', he, he', _, hdue⟩ := hnow.entries
  have hmem : plan ∈ (driver.ticks resolve earlier).plans t.at_ := by
    rw [hplans]
    exact List.mem_append_right _ List.mem_cons_self
  rw [plans_awake hnow.awake, Scheduler.mem_plan] at hmem
  obtain ⟨entry, hentry, hisDue, _⟩ := hmem
  rw [he'] at hentry
  cases hentry
  -- the first one is due as well, and stands before it
  have hkey : e.connectionId = first := KeyedTable.key_of_get he
  have hid : (e.planned t.at_ false).connectionId = first := hkey
  have hother : e.planned t.at_ false ∈ before ++ plan :: after := by
    rw [← hplans, plans_awake hnow.awake, Scheduler.mem_plan]
    refine ⟨e, by rw [hid]; exact he, ?_, rfl⟩
    unfold ScheduleEntry.isDue at hisDue ⊢
    rw [hdue]
    exact hisDue
  have hsorted := Scheduler.plan_ascending (driver.ticks resolve earlier).runtime.scheduler
    t.at_ false
  rw [← plans_awake hnow.awake, hplans] at hsorted
  have hbefore : e.planned t.at_ false ∈ before := by
    rcases List.mem_append.mp hother with hb | hafter
    · exact hb
    · exfalso
      rcases List.mem_cons.mp hafter with heq | htail
      · rw [← heq, hid] at hlt
        exact lt_irrefl _ hlt
      · have hgt := (List.pairwise_cons.mp (List.pairwise_append.mp hsorted).2.1).1 _ htail
        rw [hid] at hgt
        exact lt_asymm hlt hgt
  obtain ⟨i, hi⟩ := List.mem_iff_getElem?.mp hbefore
  have hneeds : Needs resolve (e.planned t.at_ false) flag := by
    unfold Needs
    rw [hid]
    exact hfirst
  obtain ⟨j, _, _, hended⟩ := hfree i _ hi hneeds
  rw [hends t (by simp) j] at hended
  cases hended

end

end Driver

/-! ## §6  Two connections registered together -/

namespace Fixture

/-- Two connections of one type, registered in the same moment. -/
def registeredTogether : Driver where
  runtime :=
    { scheduler :=
        { entries := (KeyedTable.empty.put
            { connectionId := text "a", intervalMillis := 30, nextDueAt := time 30 }).put
            { connectionId := text "b", intervalMillis := 30, nextDueAt := time 30 } }
      state := .running .interactive }
  pending := []
  running := .free
  log := []

def bothStoredEnabled (id : ConnectionId) : Option Connection :=
  if id = text "a" ∨ id = text "b" then some (connection id) else none

/-- Ticks at which no sync ends before the tick does. -/
def tickAt (n : Nat) : Tick := { at_ := time n, ends := fun _ => .free }

/-- Three ticks, each an interval after the one before. -/
def threeTicks : List Tick := [tickAt 30, tickAt 60, tickAt 90]

theorem registered_together_iff (id : ConnectionId) :
    registeredTogether.Registered id ↔ id = text "a" ∨ id = text "b" := by
  constructor
  · intro h
    obtain ⟨entry, hentry⟩ := Option.isSome_iff_exists.mp h
    have hkey : entry.connectionId = id := KeyedTable.key_of_get hentry
    have hrow : entry ∈ registeredTogether.runtime.scheduler.entries.rows :=
      KeyedTable.mem_of_get hentry
    rw [← hkey]
    rcases List.mem_cons.mp hrow with rfl | hrow
    · exact Or.inl rfl
    · rcases List.mem_cons.mp hrow with rfl | hrow
      · exact Or.inr rfl
      · cases hrow
  · rintro (rfl | rfl)
    · rfl
    · rfl

end Fixture

namespace Driver

open Fixture in
/-- Both are planned three times, yet the second is never admitted: with two
connections of the type, it starves. -/
theorem second_of_two_starves :
    registeredTogether.PlannedEnough bothStoredEnabled threeTicks (text "b") ∧
      (registeredTogether.ticks bothStoredEnabled threeTicks).planned (text "b") = 3 ∧
      (registeredTogether.ticks bothStoredEnabled threeTicks).admitted (text "b") = 0 ∧
      ¬ registeredTogether.NoStarvation bothStoredEnabled threeTicks := by
  have henough : registeredTogether.PlannedEnough bothStoredEnabled threeTicks (text "b") := by
    intro other hreg _
    rcases (registered_together_iff other).mp hreg with rfl | rfl
    · show 2 < 3
      decide
    · show 2 < 3
      decide
  refine ⟨henough, rfl, rfl, ?_⟩
  intro hnone
  have hadmitted := hnone (text "b") rfl henough
  change 1 ≤ 0 at hadmitted
  exact absurd hadmitted (by decide)

open Fixture in
theorem no_starvation_iff_free_turns_together :
    registeredTogether.NoStarvation bothStoredEnabled threeTicks ↔
      ∀ id flag, registeredTogether.Registered id → Syncs bothStoredEnabled id flag →
        (∀ other, registeredTogether.Registered other → SameType bothStoredEnabled other id →
          registeredTogether.typeCount bothStoredEnabled id <
            registeredTogether.timesUp (threeTicks.map Tick.at_) other) →
        registeredTogether.ComesUpFree bothStoredEnabled threeTicks id flag := by
  refine no_starvation_iff_free_turns ?_ rfl threeTicks
  intro id hreg
  refine ⟨.github, connection id, ?_, rfl, rfl⟩
  unfold bothStoredEnabled
  rw [if_pos ((registered_together_iff id).mp hreg)]

end Driver

end NextInfra
