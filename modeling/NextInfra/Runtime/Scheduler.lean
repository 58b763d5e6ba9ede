import NextInfra.Core.Model

/-!
# The runtime's scheduler

Deterministic scheduler state. An evaluation emits at most one plan for each
connection, in the order of the connection ids, and moves the due time of every
planned entry past the evaluation time, whatever becomes of the plan.

The runtime admits planning only while it runs; waking from sleep plans the
missed work once.
-/

namespace NextInfra

/-! ## §1  Scheduler -/

structure ScheduleEntry where
  connectionId : ConnectionId
  intervalMillis : Nat
  nextDueAt : Timestamp
deriving DecidableEq

structure ScheduledSync where
  connectionId : ConnectionId
  scheduledAt : Timestamp
  runAt : Timestamp
  catchUp : Bool
deriving DecidableEq

inductive SchedulerError
  | invalidInterval
deriving DecidableEq

/-- `Timestamp` addition saturates at both its steps. -/
def addInterval (at_ : Timestamp) (intervalMillis : Nat) : Timestamp where
  unixMillis := min (at_.unixMillis + min intervalMillis maxTimestampMillis) maxTimestampMillis
  isI64 := Nat.min_le_right _ _

namespace ScheduleEntry

def isDue (now : Timestamp) (entry : ScheduleEntry) : Bool := !decide (now < entry.nextDueAt)

def planned (now : Timestamp) (catchUp : Bool) (entry : ScheduleEntry) : ScheduledSync where
  connectionId := entry.connectionId
  scheduledAt := entry.nextDueAt
  runAt := now
  catchUp := catchUp

/-- The entry after an evaluation at `now`. -/
def advance (now : Timestamp) (entry : ScheduleEntry) : ScheduleEntry :=
  if entry.isDue now then { entry with nextDueAt := addInterval now entry.intervalMillis }
  else entry

@[simp] theorem advance_connectionId (now : Timestamp) (entry : ScheduleEntry) :
    (entry.advance now).connectionId = entry.connectionId := by
  unfold advance
  split <;> rfl

@[simp] theorem advance_intervalMillis (now : Timestamp) (entry : ScheduleEntry) :
    (entry.advance now).intervalMillis = entry.intervalMillis := by
  unfold advance
  split <;> rfl

end ScheduleEntry

/-- `BTreeMap<ConnectionId, ScheduleEntry>`, every entry under its own id. -/
structure Scheduler where
  entries : KeyedTable ScheduleEntry.connectionId
deriving DecidableEq

namespace Scheduler

def empty : Scheduler := { entries := KeyedTable.empty }

def register (scheduler : Scheduler) (connectionId : ConnectionId) (intervalMillis : Nat)
    (nextDueAt : Timestamp) : Except SchedulerError Scheduler :=
  if intervalMillis = 0 then .error .invalidInterval
  else
    let entry : ScheduleEntry :=
      { connectionId := connectionId
        intervalMillis := intervalMillis
        nextDueAt := nextDueAt }
    .ok { entries := scheduler.entries.put entry }

def remove (scheduler : Scheduler) (connectionId : ConnectionId) :
    Option ScheduleEntry × Scheduler :=
  (scheduler.entries.get connectionId, { entries := scheduler.entries.erase connectionId })

def entry (scheduler : Scheduler) (connectionId : ConnectionId) : Option ScheduleEntry :=
  scheduler.entries.get connectionId

/-- The loop over `entries.values_mut()`. -/
def plan (scheduler : Scheduler) (now : Timestamp) (catchUp : Bool) :
    List ScheduledSync × Scheduler :=
  ((scheduler.entries.rows.filter (ScheduleEntry.isDue now)).map
      (ScheduleEntry.planned now catchUp),
    { entries := scheduler.entries.update (ScheduleEntry.advance now)
        (ScheduleEntry.advance_connectionId now) })

def planDue (scheduler : Scheduler) (now : Timestamp) : List ScheduledSync × Scheduler :=
  scheduler.plan now false

def planWakeCatchUp (scheduler : Scheduler) (now : Timestamp) : List ScheduledSync × Scheduler :=
  scheduler.plan now true

/-- Planning neither adds nor drops an entry. -/
theorem entry_plan (scheduler : Scheduler) (now : Timestamp) (catchUp : Bool) (id : ConnectionId) :
    (scheduler.plan now catchUp).2.entry id =
      (scheduler.entry id).map (ScheduleEntry.advance now) :=
  KeyedTable.get_update scheduler.entries (ScheduleEntry.advance now)
    (ScheduleEntry.advance_connectionId now) id

/-- An evaluation plans exactly the entries that are due. -/
theorem mem_plan {scheduler : Scheduler} {now : Timestamp} {catchUp : Bool} {p : ScheduledSync} :
    p ∈ (scheduler.plan now catchUp).1 ↔
      ∃ entry, scheduler.entry p.connectionId = some entry ∧ entry.isDue now = true ∧
        entry.planned now catchUp = p := by
  constructor
  · intro hp
    obtain ⟨entry, hentry, rfl⟩ := List.mem_map.mp hp
    obtain ⟨hrow, hdue⟩ := List.mem_filter.mp hentry
    exact ⟨entry, KeyedTable.get_of_mem hrow, hdue, rfl⟩
  · rintro ⟨entry, hget, hdue, rfl⟩
    exact List.mem_map_of_mem (List.mem_filter.mpr ⟨KeyedTable.mem_of_get hget, hdue⟩)

/-- The plans of one evaluation stand in the order of the connection ids, so each
connection has at most one. -/
theorem plan_ascending (scheduler : Scheduler) (now : Timestamp) (catchUp : Bool) :
    (scheduler.plan now catchUp).1.Pairwise (fun p q => p.connectionId < q.connectionId) := by
  unfold plan
  rw [List.pairwise_map]
  exact scheduler.entries.ascending.filter _

end Scheduler

/-! ## §2  Runtime -/

inductive RuntimeMode
  | interactive
  | background
deriving DecidableEq

inductive RuntimeState
  | new
  | starting (mode : RuntimeMode)
  | running (mode : RuntimeMode)
  | sleeping (mode : RuntimeMode)
  | stopping
  | stopped
  | failed
deriving DecidableEq

inductive RuntimeError
  | invalidState (operation : String) (state : RuntimeState)
deriving DecidableEq

/-- The scheduler and the lifecycle state. -/
structure Runtime where
  scheduler : Scheduler
  state : RuntimeState

namespace Runtime

def ensureAdmission (runtime : Runtime) : Except RuntimeError Unit :=
  match runtime.state with
  | .running _ => .ok ()
  | state => .error (.invalidState "admit sync" state)

def planDue (runtime : Runtime) (now : Timestamp) :
    Except RuntimeError (List ScheduledSync × Runtime) := do
  runtime.ensureAdmission
  let (plans, scheduler) := runtime.scheduler.planDue now
  return (plans, { runtime with scheduler := scheduler })

def sleep (runtime : Runtime) : Except RuntimeError Runtime :=
  match runtime.state with
  | .running mode => .ok { runtime with state := .sleeping mode }
  | state => .error (.invalidState "sleep" state)

def wake (runtime : Runtime) (now : Timestamp) :
    Except RuntimeError (List ScheduledSync × Runtime) :=
  match runtime.state with
  | .sleeping mode =>
      let (plans, scheduler) := runtime.scheduler.planWakeCatchUp now
      .ok (plans, { scheduler := scheduler, state := .running mode })
  | state => .error (.invalidState "wake" state)

theorem planDue_running {runtime : Runtime} {mode : RuntimeMode}
    (h : runtime.state = .running mode) (now : Timestamp) :
    runtime.planDue now = .ok ((runtime.scheduler.planDue now).1,
      { runtime with scheduler := (runtime.scheduler.planDue now).2 }) := by
  unfold planDue ensureAdmission
  rw [h]
  rfl

end Runtime

end NextInfra
