import NextInfra.Lib.Runs
import NextInfra.Runtime.Scheduler
import NextInfra.Sync.Queue

/-!
# The scheduled sync driver

A tick drains the pending catch-up plans, asks the runtime for the plans that are
due and offers each to the enqueue callback, which takes the single-flight flag of
the connector type or answers that a sync is in progress. The due time has moved
on by then, so a refused plan is lost until its connection is due again.

The callback starts a task and returns; a task may end at any moment, also
between two plans of one tick. `Tick.ends` says which flags are released just
before each plan.

§3 says exactly when a plan is admitted, §4 what follows over runs of ticks.
-/

namespace NextInfra

/-! ## §1  Flags -/

/-- The single-flight flags, one for each connector type. -/
inductive SyncFlag
  | github
  | ssh
  | dokploy
  | cloudflare
  | supabaseManaged
  | aliyun
  | tencent
deriving DecidableEq

namespace SyncFlag

def connectorType : SyncFlag → ConnectorType
  | .github => .github
  | .ssh => .ssh
  | .dokploy => .dokploy
  | .cloudflare => .cloudflare
  | .supabaseManaged => .supabaseManaged
  | .aliyun => .aliyun
  | .tencent => .tencent

/-- The types of `has_live_sync_path`; ssh is synced by hand only. -/
def live : List SyncFlag := [.github, .dokploy, .cloudflare, .supabaseManaged, .aliyun, .tencent]

/-- The arm of the enqueue callback a connector type takes. -/
def ofLiveType (type : ConnectorType) : Option SyncFlag :=
  live.find? fun flag => decide (flag.connectorType = type)

theorem connectorType_of_live {type : ConnectorType} {flag : SyncFlag}
    (h : ofLiveType type = some flag) : flag.connectorType = type := by
  have hfound := List.find?_some h
  exact of_decide_eq_true hfound

end SyncFlag

def hasLiveSyncPath (type : ConnectorType) : Bool :=
  SyncFlag.live.any fun flag => decide (flag.connectorType = type)

/-- Which flags are held. -/
abbrev Flags := SyncFlag → Bool

namespace Flags

def free : Flags := fun _ => false

def take (running : Flags) (flag : SyncFlag) : Flags := fun f => decide (f = flag) || running f

/-- The flags whose sync ends are released. -/
def release (running ended : Flags) : Flags := fun f => running f && !ended f

end Flags

/-! ## §2  One tick -/

inductive EnqueueError
  | syncInProgress
  | unavailable
deriving DecidableEq

/-- `running.swap(true)` on the flag of the connection's type. -/
def enqueue (running : Flags) (connection : Connection) : Except EnqueueError Flags :=
  match SyncFlag.ofLiveType connection.connectorType with
  | none => .error .unavailable
  | some flag => if running flag then .error .syncInProgress else .ok (running.take flag)

/-- What became of a plan. -/
inductive Dispatch
  | skipped
  | admitted
  | refused (error : EnqueueError)
deriving DecidableEq

/-- A tick: the time, and the flags released before each of its plans. -/
structure Tick where
  at_ : Timestamp
  ends : Nat → Flags

/-- The driver thread's state, with what it has dispatched so far. -/
structure Driver where
  runtime : Runtime
  pending : List ScheduledSync
  running : Flags
  log : List (ScheduledSync × Dispatch)

section

variable (resolve : ConnectionId → Option Connection)

/-- The body of the loop over the plans. -/
def dispatch (running : Flags) (plan : ScheduledSync) : Dispatch × Flags :=
  match resolve plan.connectionId with
  | none => (.skipped, running)
  | some connection =>
      if !connection.enabled || !hasLiveSyncPath connection.connectorType then (.skipped, running)
      else
        match enqueue running connection with
        | .ok running => (.admitted, running)
        | .error error => (.refused error, running)

def dispatchAll : (ends : Nat → Flags) → (running : Flags) → List ScheduledSync →
    List Dispatch × Flags
  | _, running, [] => ([], running)
  | ends, running, plan :: plans =>
      let (outcome, running) := dispatch resolve (running.release (ends 0)) plan
      let (outcomes, running) := dispatchAll (fun i => ends (i + 1)) running plans
      (outcome :: outcomes, running)

namespace Driver

/-- The due plans and the runtime after the evaluation; while the runtime sleeps
there are none. -/
def due (driver : Driver) (at_ : Timestamp) : List ScheduledSync × Runtime :=
  match driver.runtime.planDue at_ with
  | .ok planned => planned
  | .error _ => ([], driver.runtime)

/-- The plans of a tick, in the order they are dispatched. -/
def plans (driver : Driver) (at_ : Timestamp) : List ScheduledSync :=
  driver.pending ++ (driver.due at_).1

def tick (driver : Driver) (t : Tick) : Driver :=
  let (outcomes, running) := dispatchAll resolve t.ends driver.running (driver.plans t.at_)
  { runtime := (driver.due t.at_).2
    pending := []
    running := running
    log := driver.log ++ (driver.plans t.at_).zip outcomes }

/-- Every admitted sync has finished before the next tick. -/
def settled (driver : Driver) : Driver := { driver with running := .free }

/-- A run of ticks, each admitted sync finishing before the next one. -/
def ticks (driver : Driver) (ts : List Tick) : Driver :=
  ts.foldl (fun driver t => driver.settled.tick resolve t) driver

/-- How often the scheduler has planned a connection. -/
def planned (driver : Driver) (id : ConnectionId) : Nat :=
  driver.log.countP fun entry => decide (entry.1.connectionId = id)

/-- How many syncs of a connection have been admitted. -/
def admitted (driver : Driver) (id : ConnectionId) : Nat :=
  driver.log.countP fun entry =>
    decide (entry.1.connectionId = id) && decide (entry.2 = .admitted)

end Driver

/-! ## §3  When a plan is admitted -/

/-- The plan's connection is enabled and needs this flag. -/
def Needs (plan : ScheduledSync) (flag : SyncFlag) : Prop :=
  ∃ connection, resolve plan.connectionId = some connection ∧ connection.enabled = true ∧
    SyncFlag.ofLiveType connection.connectorType = some flag

/-- After these plans of the same tick the flag is free: every sync one of them
may have started has ended. -/
def FreeAfter (ends : Nat → Flags) (before : List ScheduledSync) (flag : SyncFlag) : Prop :=
  ∀ i plan, before[i]? = some plan → Needs resolve plan flag →
    ∃ j, i < j ∧ j ≤ before.length ∧ ends j flag = true

end

section

variable {resolve : ConnectionId → Option Connection} {plan : ScheduledSync} {flag : SyncFlag}

theorem hasLiveSyncPath_of_flag {type : ConnectorType} (h : SyncFlag.ofLiveType type = some flag) :
    hasLiveSyncPath type = true :=
  List.any_eq_true.mpr ⟨flag, List.mem_of_find?_eq_some h,
    decide_eq_true (SyncFlag.connectorType_of_live h)⟩

/-- A plan that needs a flag is admitted iff the flag is free, and holds it after. -/
theorem dispatch_of_needs (h : Needs resolve plan flag) (running : Flags) :
    dispatch resolve running plan =
      if running flag then (.refused .syncInProgress, running)
      else (.admitted, running.take flag) := by
  obtain ⟨connection, hget, henabled, hflag⟩ := h
  unfold dispatch
  rw [hget]
  simp only [henabled, hasLiveSyncPath_of_flag hflag, enqueue, hflag]
  cases running flag with
  | true => rfl
  | false => rfl

/-- After a plan a flag is held iff it was, or the plan needs it. -/
theorem dispatch_flag (running : Flags) (plan : ScheduledSync) (flag : SyncFlag) :
    (dispatch resolve running plan).2 flag = true ↔
      running flag = true ∨ Needs resolve plan flag := by
  by_cases hneeds : ∃ other, Needs resolve plan other
  · obtain ⟨other, hother⟩ := hneeds
    have honly : Needs resolve plan flag ↔ flag = other := by
      constructor
      · rintro ⟨c, hc, _, hf⟩
        obtain ⟨c', hc', _, hf'⟩ := hother
        rw [hc] at hc'
        cases hc'
        rw [hf] at hf'
        exact Option.some.inj hf'
      · rintro rfl
        exact hother
    rw [dispatch_of_needs hother, honly]
    cases hheld : running other with
    | true =>
        rw [if_pos rfl]
        constructor
        · exact Or.inl
        · rintro (h | rfl)
          · exact h
          · exact hheld
    | false =>
        rw [if_neg (by decide)]
        simp [Flags.take, or_comm]
  · -- a plan that needs no flag leaves them all as they are
    have hnone : ¬ Needs resolve plan flag := fun h => hneeds ⟨flag, h⟩
    have hkeep : (dispatch resolve running plan).2 = running := by
      unfold dispatch
      cases hget : resolve plan.connectionId with
      | none => rfl
      | some connection =>
          by_cases hskip : (!connection.enabled || !hasLiveSyncPath connection.connectorType) = true
          · simp only [if_pos hskip]
          · simp only [if_neg hskip]
            have henabled : connection.enabled = true := by
              by_contra hoff
              simp [hoff] at hskip
            cases hflag : SyncFlag.ofLiveType connection.connectorType with
            | none => simp [enqueue, hflag]
            | some other => exact absurd ⟨other, connection, hget, henabled, hflag⟩ hneeds
    rw [hkeep]
    simp [hnone]

/-- After some plans a flag is held iff a plan that needs it came after the last
release, or it was held before and never released. -/
theorem dispatchAll_flag (ends : Nat → Flags) (running : Flags) (before : List ScheduledSync)
    (flag : SyncFlag) :
    (dispatchAll resolve ends running before).2 flag = true ↔
      (running flag = true ∧ ∀ j < before.length, ends j flag = false) ∨
        ∃ i plan, before[i]? = some plan ∧ Needs resolve plan flag ∧
          ∀ j, i < j → j < before.length → ends j flag = false := by
  induction before generalizing ends running with
  | nil => simp [dispatchAll]
  | cons first rest ih =>
      show (dispatchAll resolve (fun i => ends (i + 1))
        (dispatch resolve (running.release (ends 0)) first).2 rest).2 flag = true ↔ _
      rw [ih, dispatch_flag]
      have hreleased : running.release (ends 0) flag = true ↔
          running flag = true ∧ ends 0 flag = false := by
        simp [Flags.release]
      rw [hreleased]
      constructor
      · rintro (⟨⟨hheld, h0⟩ | hneeds, hrest⟩ | ⟨i, p, hp, hneeds, hrest⟩)
        · left
          refine ⟨hheld, ?_⟩
          intro j hj
          cases j with
          | zero => exact h0
          | succ j => exact hrest j (Nat.lt_of_succ_lt_succ hj)
        · right
          refine ⟨0, first, rfl, hneeds, ?_⟩
          intro j hpos hj
          cases j with
          | zero => exact absurd hpos (Nat.lt_irrefl 0)
          | succ j => exact hrest j (Nat.lt_of_succ_lt_succ hj)
        · right
          refine ⟨i + 1, p, hp, hneeds, ?_⟩
          intro j hpos hj
          cases j with
          | zero => exact absurd hpos (Nat.not_lt_zero _)
          | succ j => exact hrest j (Nat.lt_of_succ_lt_succ hpos) (Nat.lt_of_succ_lt_succ hj)
      · rintro (⟨hheld, hrest⟩ | ⟨i, p, hp, hneeds, hrest⟩)
        · left
          exact ⟨Or.inl ⟨hheld, hrest 0 (Nat.succ_pos _)⟩,
            fun j hj => hrest (j + 1) (Nat.succ_lt_succ hj)⟩
        · cases i with
          | zero =>
              left
              cases hp
              exact ⟨Or.inr hneeds, fun j hj => hrest (j + 1) (Nat.succ_pos _) (Nat.succ_lt_succ hj)⟩
          | succ i =>
              right
              exact ⟨i, p, hp, hneeds,
                fun j hpos hj => hrest (j + 1) (Nat.succ_lt_succ hpos) (Nat.succ_lt_succ hj)⟩

theorem length_dispatchAll (ends : Nat → Flags) (running : Flags) (plans : List ScheduledSync) :
    (dispatchAll resolve ends running plans).1.length = plans.length := by
  induction plans generalizing ends running with
  | nil => rfl
  | cons first rest ih => exact congrArg (· + 1) (ih _ _)

/-- The outcome of a plan in the middle of a tick. -/
theorem dispatchAll_middle (ends : Nat → Flags) (running : Flags) (before after : List ScheduledSync)
    (plan : ScheduledSync) :
    ∃ later, (dispatchAll resolve ends running (before ++ plan :: after)).1 =
      (dispatchAll resolve ends running before).1 ++
        (dispatch resolve ((dispatchAll resolve ends running before).2.release (ends before.length))
          plan).1 :: later := by
  induction before generalizing ends running with
  | nil => exact ⟨_, rfl⟩
  | cons first rest ih =>
      obtain ⟨later, hlater⟩ := ih (fun i => ends (i + 1))
        (dispatch resolve (running.release (ends 0)) first).2
      exact ⟨later, congrArg (_ :: ·) hlater⟩

/-- In a tick that starts with every flag free, a plan is admitted iff the flag it
needs is free after the plans before it. -/
theorem admitted_iff_freeAfter {before after : List ScheduledSync} (ends : Nat → Flags)
    (hneeds : Needs resolve plan flag) :
    (dispatchAll resolve ends .free (before ++ plan :: after)).1[before.length]? =
      some .admitted ↔ FreeAfter resolve ends before flag := by
  obtain ⟨later, hlater⟩ := @dispatchAll_middle resolve ends .free before after plan
  have hat : (dispatchAll resolve ends .free (before ++ plan :: after)).1[before.length]? =
      some (dispatch resolve
        ((dispatchAll resolve ends .free before).2.release (ends before.length)) plan).1 := by
    rw [hlater, List.getElem?_append_right (by rw [length_dispatchAll]), length_dispatchAll]
    simp
  rw [hat, dispatch_of_needs hneeds]
  have hheld : (dispatchAll resolve ends .free before).2.release (ends before.length) flag = true ↔
      ¬ FreeAfter resolve ends before flag := by
    have hend := @dispatchAll_flag resolve ends .free before flag
    have hfree : Flags.free flag = false := rfl
    rw [hfree] at hend
    unfold Flags.release FreeAfter
    rw [Bool.and_eq_true, hend]
    push Not
    constructor
    · rintro ⟨⟨h, _⟩ | ⟨i, p, hp, hn, hrest⟩, hlast⟩
      · cases h
      · refine ⟨i, p, hp, hn, ?_⟩
        intro j hij hj
        rcases Nat.lt_or_eq_of_le hj with hlt | rfl
        · rw [hrest j hij hlt]
          decide
        · simpa using hlast
    · rintro ⟨i, p, hp, hn, hnever⟩
      have hi : i < before.length := (List.getElem?_eq_some_iff.mp hp).1
      refine ⟨Or.inr ⟨i, p, hp, hn, ?_⟩, ?_⟩
      · intro j hij hj
        simpa using hnever j hij (Nat.le_of_lt hj)
      · simpa using hnever before.length hi (Nat.le_refl _)
  by_cases hfree : FreeAfter resolve ends before flag
  · rw [if_neg (fun h => hheld.mp h hfree)]
    simp [hfree]
  · rw [if_pos (hheld.mpr hfree)]
    simp [hfree]

end

end NextInfra
