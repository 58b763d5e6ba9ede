import NextInfra.Lib.Traces
import NextInfra.Runtime.Scheduler

/-!
# What the scheduler emits over a run

The runtime evaluates the schedule at clock values it does not choose: `plan_due` on a
tick, `plan_wake_catch_up` after a sleep, and the clock may step back between the two.
Over any such run the due times only move on. An evaluation emits an entry when its due
time has come and sets the next one an interval past the clock, so the emissions of one
connection are an interval apart, whichever path they come by, as long as no due time
saturates.
-/

namespace NextInfra

/-- An evaluation of the schedule, at the clock value it is made with. -/
inductive PlanCall
  | due (now : Timestamp)
  | wake (now : Timestamp)
deriving DecidableEq

def PlanCall.now : PlanCall → Timestamp
  | .due now => now
  | .wake now => now

/-- One call of `Scheduler::register`. -/
structure Registration where
  connectionId : ConnectionId
  intervalMillis : Nat
  nextDueAt : Timestamp

def Registration.entry (r : Registration) : ScheduleEntry where
  connectionId := r.connectionId
  intervalMillis := r.intervalMillis
  nextDueAt := r.nextDueAt

/-! ## §1  Due times -/

namespace ScheduleEntry

/-- The due time an evaluation at `now` sets is cut off at the maximum. -/
def Saturates (entry : ScheduleEntry) (now : Timestamp) : Prop :=
  maxTimestampMillis < now.unixMillis + entry.intervalMillis

theorem isDue_iff {now : Timestamp} {entry : ScheduleEntry} :
    entry.isDue now = true ↔ entry.nextDueAt ≤ now := by
  simp [isDue]

theorem advance_of_due {now : Timestamp} {entry : ScheduleEntry} (h : entry.isDue now = true) :
    (entry.advance now).nextDueAt = addInterval now entry.intervalMillis := by
  unfold advance
  rw [if_pos h]

theorem le_addInterval (now : Timestamp) (intervalMillis : Nat) :
    now ≤ addInterval now intervalMillis := by
  rw [Timestamp.le_iff]
  have hnow := now.isI64
  show now.unixMillis ≤ min (now.unixMillis + min intervalMillis maxTimestampMillis) _
  omega

/-- Without saturation the next due time is the interval past the clock. -/
theorem addInterval_exact {now : Timestamp} {entry : ScheduleEntry}
    (h : ¬ entry.Saturates now) :
    (addInterval now entry.intervalMillis).unixMillis = now.unixMillis + entry.intervalMillis := by
  unfold Saturates at h
  show min (now.unixMillis + min entry.intervalMillis maxTimestampMillis) _ = _
  omega

theorem addInterval_saturated {now : Timestamp} {entry : ScheduleEntry} (h : entry.Saturates now) :
    (addInterval now entry.intervalMillis).unixMillis = maxTimestampMillis := by
  unfold Saturates at h
  show min (now.unixMillis + min entry.intervalMillis maxTimestampMillis) _ = _
  omega

/-- An evaluation never moves a due time back. -/
theorem nextDueAt_le_advance (now : Timestamp) (entry : ScheduleEntry) :
    entry.nextDueAt ≤ (entry.advance now).nextDueAt := by
  by_cases hdue : entry.isDue now = true
  · rw [advance_of_due hdue]
    exact (isDue_iff.mp hdue).trans (le_addInterval now _)
  · unfold advance
    rw [if_neg hdue]

end ScheduleEntry

/-! ## §2  Runs -/

namespace Scheduler

open Trace

/-- A planning call: the schedule it leaves, and what it emits. -/
def answer (scheduler : Scheduler) : PlanCall → Scheduler × List ScheduledSync
  | .due now => ((scheduler.planDue now).2, (scheduler.planDue now).1)
  | .wake now => ((scheduler.planWakeCatchUp now).2, (scheduler.planWakeCatchUp now).1)

def registerAll (registrations : List Registration) : Except SchedulerError Scheduler :=
  registrations.foldlM
    (fun scheduler r => scheduler.register r.connectionId r.intervalMillis r.nextDueAt)
    Scheduler.empty

/-- What each call of a run emits. -/
def emissions (scheduler : Scheduler) (calls : List PlanCall) : List (List ScheduledSync) :=
  (log answer scheduler calls).map Entry.reply

theorem entry_answer (scheduler : Scheduler) (call : PlanCall) (id : ConnectionId) :
    (scheduler.answer call).1.entry id =
      (scheduler.entry id).map (ScheduleEntry.advance call.now) := by
  cases call with
  | due now => exact entry_plan scheduler now false id
  | wake now => exact entry_plan scheduler now true id

/-- A call emits exactly the entries that are due at its clock value. -/
theorem emitted {scheduler : Scheduler} {call : PlanCall} {p : ScheduledSync}
    (hp : p ∈ (scheduler.answer call).2) :
    p.runAt = call.now ∧
      ∃ entry, scheduler.entry p.connectionId = some entry ∧ entry.isDue call.now = true := by
  cases call <;>
  · obtain ⟨entry, hentry, hdue, rfl⟩ := mem_plan.mp hp
    exact ⟨rfl, entry, hentry, hdue⟩

theorem answer_ascending (scheduler : Scheduler) (call : PlanCall) :
    (scheduler.answer call).2.Pairwise (fun p q => p.connectionId < q.connectionId) := by
  cases call <;> exact plan_ascending _ _ _

/-- The entry of `id` keeps its interval, and its due time has come to `due`. -/
def DueFrom (id : ConnectionId) (intervalMillis : Nat) (due : Timestamp)
    (scheduler : Scheduler) : Prop :=
  ∃ entry, scheduler.entry id = some entry ∧ entry.intervalMillis = intervalMillis ∧
    due ≤ entry.nextDueAt

theorem DueFrom.answer {id : ConnectionId} {intervalMillis : Nat} {due : Timestamp}
    {scheduler : Scheduler} (h : DueFrom id intervalMillis due scheduler) (call : PlanCall) :
    DueFrom id intervalMillis due (scheduler.answer call).1 := by
  obtain ⟨entry, hentry, hinterval, hdue⟩ := h
  refine ⟨entry.advance call.now, ?_, ?_, ?_⟩
  · rw [entry_answer, hentry]
    rfl
  · rw [ScheduleEntry.advance_intervalMillis, hinterval]
  · exact hdue.trans (ScheduleEntry.nextDueAt_le_advance _ _)

/-- Every entry has an interval, as `register` demands. -/
def Spaced (scheduler : Scheduler) : Prop :=
  ∀ id entry, scheduler.entry id = some entry → 0 < entry.intervalMillis

theorem Spaced.answer {scheduler : Scheduler} (h : scheduler.Spaced) (call : PlanCall) :
    (scheduler.answer call).1.Spaced := by
  intro id entry hentry
  rw [entry_answer] at hentry
  obtain ⟨before, hbefore, rfl⟩ := Option.map_eq_some_iff.mp hentry
  rw [ScheduleEntry.advance_intervalMillis]
  exact h id before hbefore

theorem Spaced.register {scheduler next : Scheduler} (h : scheduler.Spaced) {r : Registration}
    (hr : scheduler.register r.connectionId r.intervalMillis r.nextDueAt = .ok next) :
    next.Spaced := by
  unfold Scheduler.register at hr
  split at hr
  · cases hr
  rename_i hpos
  cases hr
  intro id entry hentry
  unfold Scheduler.entry at hentry
  rw [KeyedTable.get_put] at hentry
  split at hentry
  · cases hentry
    exact Nat.pos_of_ne_zero hpos
  · exact h id entry hentry

/-! ## §3  Registrations -/

/-- Registering succeeds when every interval is positive, and puts one entry after the other. -/
theorem registerAll_iff {registrations : List Registration} {scheduler : Scheduler} :
    registerAll registrations = .ok scheduler ↔
      (∀ r ∈ registrations, 0 < r.intervalMillis) ∧
        { entries := KeyedTable.empty.putAll (registrations.map Registration.entry) } =
          scheduler := by
  unfold registerAll empty
  generalize (KeyedTable.empty : KeyedTable ScheduleEntry.connectionId) = entries
  induction registrations generalizing entries with
  | nil => simp [pure, Except.pure]
  | cons r registrations ih =>
      rw [List.foldlM_cons]
      by_cases hzero : r.intervalMillis = 0
      · have hrefused : Scheduler.register { entries := entries } r.connectionId r.intervalMillis
            r.nextDueAt = .error .invalidInterval := if_pos hzero
        rw [hrefused]
        constructor
        · intro h
          cases h
        · rintro ⟨hpos, _⟩
          exact absurd hzero (hpos r List.mem_cons_self).ne'
      · have hstored : Scheduler.register { entries := entries } r.connectionId r.intervalMillis
            r.nextDueAt = .ok { entries := entries.put r.entry } := if_neg hzero
        rw [hstored]
        refine (ih (entries.put r.entry)).trans ?_
        simp [Nat.pos_of_ne_zero hzero]

theorem registerAll_spaced {registrations : List Registration} {scheduler : Scheduler}
    (h : registerAll registrations = .ok scheduler) : scheduler.Spaced := by
  unfold registerAll at h
  have hstart : Spaced empty := fun id entry hentry => by cases hentry
  generalize empty = start at h hstart
  induction registrations generalizing start with
  | nil =>
      cases h
      exact hstart
  | cons r registrations ih =>
      rw [List.foldlM_cons] at h
      obtain ⟨next, hnext, h⟩ := bind_ok h
      exact ih next h (hstart.register hnext)

/-- Of distinct connections, the order of registration leaves no trace. -/
theorem registerAll_perm {registrations reordered : List Registration}
    (hperm : registrations.Perm reordered)
    (hdistinct : (registrations.map Registration.connectionId).Nodup) :
    registerAll registrations = registerAll reordered := by
  have hentries : (KeyedTable.empty : KeyedTable ScheduleEntry.connectionId).putAll
      (registrations.map Registration.entry) =
        KeyedTable.empty.putAll (reordered.map Registration.entry) := by
    have hsame : ∀ a ∈ registrations.map Registration.entry, ∀ b,
        b ∈ (KeyedTable.empty : KeyedTable ScheduleEntry.connectionId).rows ∨
          b ∈ registrations.map Registration.entry → b.connectionId = a.connectionId → b = a := by
      intro a ha b hb hid
      obtain ⟨r, hr, rfl⟩ := List.mem_map.mp ha
      obtain ⟨x, hx, rfl⟩ := List.mem_map.mp (hb.resolve_left (by simp))
      rw [List.inj_on_of_nodup_map hdistinct hx hr hid]
    have hmem : ∀ x, x ∈ reordered.map Registration.entry ↔
        x ∈ registrations.map Registration.entry :=
      fun x => (hperm.map _).symm.mem_iff
    apply KeyedTable.ext_mem
    intro x
    rw [KeyedTable.mem_putAll hsame, KeyedTable.mem_putAll, hmem]
    intro a ha b hb
    rw [hmem] at ha hb
    exact hsame a ha b hb
  rcases hresult : registerAll registrations with error | scheduler
  · rcases hother : registerAll reordered with error' | scheduler
    · cases error
      cases error'
      rfl
    · obtain ⟨hpos, _⟩ := registerAll_iff.mp hother
      have hok := registerAll_iff.mpr ⟨fun r hr => hpos r (hperm.mem_iff.mp hr), rfl⟩
      rw [hresult] at hok
      cases hok
  · obtain ⟨hpos, rfl⟩ := registerAll_iff.mp hresult
    rw [hentries]
    exact (registerAll_iff.mpr ⟨fun r hr => hpos r (hperm.mem_iff.mpr hr), rfl⟩).symm

/-! ## §4  Emissions -/

/-- The intervals of a schedule are those it was started with. -/
theorem interval_final (scheduler : Scheduler) (calls : List PlanCall) (id : ConnectionId) :
    ((final answer scheduler calls).entry id).map ScheduleEntry.intervalMillis =
      (scheduler.entry id).map ScheduleEntry.intervalMillis := by
  refine invariant answer (P := fun s => (s.entry id).map ScheduleEntry.intervalMillis =
    (scheduler.entry id).map ScheduleEntry.intervalMillis) ?_ calls rfl
  intro s call h
  rw [entry_answer, ← h, Option.map_map]
  congr 1
  funext entry
  exact ScheduleEntry.advance_intervalMillis _ _

/-- What a run of the schedule emits. -/
structure EmitsSafely (scheduler : Scheduler) (calls : List PlanCall) : Prop where
  /-- No call emits a connection twice. -/
  once : ∀ call ∈ log answer scheduler calls,
    (call.reply.map ScheduledSync.connectionId).Nodup
  /-- An emitted connection is next due after the clock value of the call. -/
  movesOn : ∀ call ∈ log answer scheduler calls, ∀ p ∈ call.reply,
    ∃ entry, (call.after answer).entry p.connectionId = some entry ∧
      (call.call.now < entry.nextDueAt ∨
        entry.Saturates call.call.now ∧ entry.nextDueAt.unixMillis = maxTimestampMillis)
  /-- Two emissions of a connection, by whichever path, are its interval apart. -/
  apart : ∀ past first between second future,
    log answer scheduler calls = past ++ first :: (between ++ second :: future) →
      ∀ p ∈ first.reply, ∀ q ∈ second.reply, p.connectionId = q.connectionId →
        ∃ registered, scheduler.entry p.connectionId = some registered ∧
          (p.runAt.unixMillis + registered.intervalMillis ≤ q.runAt.unixMillis ∨
            ∃ entry, (first.after answer).entry p.connectionId = some entry ∧
              entry.Saturates p.runAt ∧ entry.nextDueAt.unixMillis = maxTimestampMillis)

/-- The entry an emission leaves behind. -/
theorem entry_after_emission {scheduler : Scheduler} {call : PlanCall} {p : ScheduledSync}
    (hp : p ∈ (scheduler.answer call).2) :
    ∃ entry, scheduler.entry p.connectionId = some entry ∧
      (scheduler.answer call).1.entry p.connectionId = some (entry.advance call.now) ∧
      (entry.advance call.now).nextDueAt = addInterval call.now entry.intervalMillis := by
  obtain ⟨_, entry, hentry, hdue⟩ := emitted hp
  refine ⟨entry, hentry, ?_, ScheduleEntry.advance_of_due hdue⟩
  rw [entry_answer, hentry]
  rfl

theorem movesOn_of_emission {scheduler : Scheduler} (hspaced : scheduler.Spaced) {call : PlanCall}
    {p : ScheduledSync} (hp : p ∈ (scheduler.answer call).2) :
    ∃ entry, (scheduler.answer call).1.entry p.connectionId = some entry ∧
      (call.now < entry.nextDueAt ∨
        entry.Saturates call.now ∧ entry.nextDueAt.unixMillis = maxTimestampMillis) := by
  obtain ⟨entry, hentry, hafter, hdue⟩ := entry_after_emission hp
  refine ⟨_, hafter, ?_⟩
  have hinterval := ScheduleEntry.advance_intervalMillis call.now entry
  by_cases hsaturates : entry.Saturates call.now
  · right
    refine ⟨?_, ?_⟩
    · unfold ScheduleEntry.Saturates
      rw [hinterval]
      exact hsaturates
    · rw [hdue]
      exact ScheduleEntry.addInterval_saturated hsaturates
  · left
    have hpos := hspaced _ _ hentry
    rw [hdue, Timestamp.lt_iff, ScheduleEntry.addInterval_exact hsaturates]
    omega

/-- Between two emissions the due time the first one set has come. -/
theorem apart_of_emissions {scheduler : Scheduler} {call later : PlanCall}
    {calls : List PlanCall} {p q : ScheduledSync} (hp : p ∈ (scheduler.answer call).2)
    (hq : q ∈ ((final answer (scheduler.answer call).1 calls).answer later).2)
    (hsame : p.connectionId = q.connectionId) :
    ∃ entry, scheduler.entry p.connectionId = some entry ∧
      (p.runAt.unixMillis + entry.intervalMillis ≤ q.runAt.unixMillis ∨
        ∃ after, (scheduler.answer call).1.entry p.connectionId = some after ∧
          after.Saturates p.runAt ∧ after.nextDueAt.unixMillis = maxTimestampMillis) := by
  obtain ⟨entry, hentry, hafter, hdue⟩ := entry_after_emission hp
  obtain ⟨hrun, _⟩ := emitted hp
  obtain ⟨hrun', entry', hentry', hdue'⟩ := emitted hq
  refine ⟨entry, hentry, ?_⟩
  by_cases hsaturates : entry.Saturates call.now
  · right
    refine ⟨_, hafter, ?_, ?_⟩
    · unfold ScheduleEntry.Saturates
      rw [ScheduleEntry.advance_intervalMillis, hrun]
      exact hsaturates
    · rw [hdue]
      exact ScheduleEntry.addInterval_saturated hsaturates
  · left
    have hfrom : DueFrom p.connectionId entry.intervalMillis
        (addInterval call.now entry.intervalMillis) (scheduler.answer call).1 :=
      ⟨_, hafter, ScheduleEntry.advance_intervalMillis _ _, hdue.ge⟩
    obtain ⟨entry'', hentry'', _, hcome⟩ :=
      invariant answer (fun s call h => h.answer call) calls hfrom
    rw [← hsame, hentry''] at hentry'
    cases hentry'
    have hle := hcome.trans (ScheduleEntry.isDue_iff.mp hdue')
    rw [Timestamp.le_iff, ScheduleEntry.addInterval_exact hsaturates] at hle
    rw [hrun, hrun']
    exact hle

theorem emitsSafely {scheduler : Scheduler} (hspaced : scheduler.Spaced) (calls : List PlanCall) :
    scheduler.EmitsSafely calls := by
  refine ⟨?_, ?_, ?_⟩
  · intro call hcall
    obtain ⟨earlier, made, _, _, rfl⟩ := mem_log answer hcall
    have hascending := answer_ascending (final answer scheduler earlier) made
    exact List.pairwise_map.mpr (hascending.imp fun h => ne_of_lt h)
  · intro call hcall p hp
    obtain ⟨earlier, made, _, _, rfl⟩ := mem_log answer hcall
    exact movesOn_of_emission
      (invariant answer (fun s call h => h.answer call) earlier hspaced) hp
  · intro past first between second future hlog p hp q hq hsame
    obtain ⟨earlier, made, later, _, _, rfl, hrest⟩ := log_cut answer hlog
    obtain ⟨middle, made', _, _, _, rfl, _⟩ := log_cut answer hrest.symm
    rw [final_append] at hq
    obtain ⟨entry, hentry, hapart⟩ := apart_of_emissions hp hq hsame
    have hinterval := interval_final scheduler earlier p.connectionId
    rw [hentry] at hinterval
    obtain ⟨registered, hregistered, hequal⟩ := Option.map_eq_some_iff.mp hinterval.symm
    refine ⟨registered, hregistered, ?_⟩
    rw [hequal]
    exact hapart

/-- Over every set of registered connections and every sequence of planning calls: the
emissions are safe, and the order of registration has no part in them. -/
theorem planning_safe {registrations : List Registration} {scheduler : Scheduler}
    (h : registerAll registrations = .ok scheduler) (calls : List PlanCall) :
    scheduler.EmitsSafely calls ∧
      ∀ reordered, registrations.Perm reordered →
        (registrations.map Registration.connectionId).Nodup →
          ∃ other, registerAll reordered = .ok other ∧
            other.emissions calls = scheduler.emissions calls := by
  refine ⟨emitsSafely (registerAll_spaced h) calls, ?_⟩
  intro reordered hperm hdistinct
  exact ⟨scheduler, (registerAll_perm hperm hdistinct).symm.trans h, rfl⟩

namespace Fixture

def registrations : List Registration :=
  [⟨⟨"fixture-b", by decide⟩, 200, ⟨100, by decide⟩⟩,
    ⟨⟨"fixture-a", by decide⟩, 100, ⟨100, by decide⟩⟩]

/-- A tick, a wake after a sleep, a clock set back, and a tick after that. -/
def calls : List PlanCall :=
  [.due ⟨100, by decide⟩, .wake ⟨1000, by decide⟩, .due ⟨50, by decide⟩, .due ⟨1100, by decide⟩]

def scheduler : Scheduler :=
  { entries := KeyedTable.empty.putAll (registrations.map Registration.entry) }

end Fixture

open Fixture in
theorem planning_safe_over_a_sleep :
    (scheduler.emissions calls).map List.length = [2, 2, 0, 1] ∧ scheduler.EmitsSafely calls :=
  ⟨by decide +kernel, (planning_safe (registerAll_iff.mpr ⟨by decide, rfl⟩) calls).1⟩

end Scheduler

end NextInfra
