import NextInfra.Core.LocalRelation
import NextInfra.Desktop.Driver
import NextInfra.Lib.Runs
import Mathlib.Data.List.InsertIdx

/-!
# Single flight

The running flag of a connector type is taken by a swap: by a create command, by the
manual sync of GitHub, by the driver's callback and by a purge. The first three pass
it to the task they spawn; a purge gives it back itself. A task that holds a
`SyncRunGuard` gives the flag back however it ends, the others store `false` behind
their `await`, which a panic does not reach.

Each swap, spawn, end and release is a step of its own; parties act in any order. §3
finds who may hold a flag, §4 what holds over runs, and what a leaked flag does.
-/

namespace NextInfra

/-! ## §1  Parties -/

namespace SyncFlag

def all : List SyncFlag :=
  [.github, .ssh, .dokploy, .cloudflare, .supabaseManaged, .aliyun, .tencent]

/-- The match of `acquire_sync_guard`; a type without an arm needs no guard. -/
def ofType (type : ConnectorType) : Option SyncFlag :=
  all.find? fun flag => decide (flag.connectorType = type)

/-- The tasks of `spawn_github_sync` and `spawn_ssh_sync` own a `SyncRunGuard`, which
releases on drop; the other tasks store after the `await`. -/
def guarded : SyncFlag → Bool
  | .github | .ssh => true
  | .dokploy | .cloudflare | .supabaseManaged | .aliyun | .tencent => false

/-- The head of the run ids of the type. -/
def idPrefix : SyncFlag → String
  | .github => "github"
  | .ssh => "ssh"
  | .dokploy => "dokploy"
  | .cloudflare => "cloudflare"
  | .supabaseManaged => "supabase-managed"
  | .aliyun => "aliyun"
  | .tencent => "tencent"

end SyncFlag

/-- How a spawned sync may end. -/
inductive SyncEnd
  | success
  | error
  | panic
deriving DecidableEq

/-- Where a party that took a flag is. -/
inductive Phase
  /-- A create command between `begin_*_sync` and `enqueue_*_sync`. -/
  | creating
  /-- `manual_github_sync` between the two. -/
  | manual
  /-- The driver's callback between its swap and its spawn. -/
  | scheduled
  /-- A spawned task in its sync. -/
  | syncing
  /-- The task past its sync, or unwinding, its release still to come. -/
  | ended
  /-- A purge that holds the guard. -/
  | purging
deriving DecidableEq

/-- A command or callback with its flag, before the spawn. -/
def Phase.spawns : Phase → Bool
  | .creating | .manual | .scheduled => true
  | .syncing | .ended | .purging => false

structure Party where
  flag : SyncFlag
  phase : Phase
deriving DecidableEq

structure Flights where
  running : Flags
  parties : List Party

inductive FlightStep
  | createConnection (flag : SyncFlag)
  | manualGithubSync
  | schedule (type : ConnectorType)
  | purgeConnection (type : ConnectorType)
  /-- A create command fails before it enqueues. -/
  | fails (party : Nat)
  /-- `enqueue_*_sync`: the run id, and the spawn. -/
  | enqueue (party : Nat) (uuid : Uuid)
  | syncEnds (party : Nat) (how : SyncEnd)
  /-- The drop of the task's guard, or its store. -/
  | releases (party : Nat)
  | purgeEnds (party : Nat)

namespace Flags

/-- `running.store(false)` on one flag. -/
def store (running : Flags) (flag : SyncFlag) : Flags := fun f => decide (f ≠ flag) && running f

@[simp]
theorem store_self (running : Flags) (flag : SyncFlag) : running.store flag flag = false := by
  simp [store]

theorem store_other (running : Flags) {flag other : SyncFlag} (h : other ≠ flag) :
    running.store flag other = running other := by
  simp [store, h]

@[simp]
theorem take_self (running : Flags) (flag : SyncFlag) : running.take flag flag = true := by
  simp [take]

theorem take_other (running : Flags) {flag other : SyncFlag} (h : other ≠ flag) :
    running.take flag other = running other := by
  simp [take, h]

end Flags

namespace Flights

/-! ## §2  The steps -/

def idle : Flights := ⟨.free, []⟩

/-- `running.swap(true)`: a party starts where the flag was clear. -/
def swap (flights : Flights) (flag : SyncFlag) (phase : Phase) : Flights :=
  if flights.running flag then flights
  else { running := flights.running.take flag, parties := flights.parties ++ [⟨flag, phase⟩] }

/-- The arm of a connector type; a type without a flag is unavailable to the driver
and is purged under a guard nobody shares. -/
def swapOf (flights : Flights) (flag : Option SyncFlag) (phase : Phase) : Flights :=
  match flag with
  | none => flights
  | some flag => flights.swap flag phase

/-- A party goes on to another phase, the flag still held. -/
def move (flights : Flights) (party : Nat) (next : Party) : Flights :=
  { flights with parties := flights.parties.set party next }

/-- A party ends and clears its flag. -/
def clear (flights : Flights) (party : Nat) (flag : SyncFlag) : Flights :=
  { running := flights.running.store flag, parties := flights.parties.eraseIdx party }

/-- A party ends without a store. -/
def leave (flights : Flights) (party : Nat) : Flights :=
  { flights with parties := flights.parties.eraseIdx party }

/-- `SyncRunId::new(format!(..))` of an enqueue: `github-sync-…` for a command,
`github-scheduled-…` for the driver. -/
def enqueuedRunId (flag : SyncFlag) (phase : Phase) (uuid : Uuid) : Except DomainError SyncRunId :=
  StringValue.new (flag.idPrefix ++ (if phase = .scheduled then "-scheduled-" else "-sync-") ++
    uuid.text)

/-- The spawn passes the flag to the task. On an unusable run id a create command and
the callback clear the flag; the manual sync has no such arm. -/
def enqueue (flights : Flights) (party : Nat) (uuid : Uuid) : Flights :=
  match flights.parties[party]? with
  | none => flights
  | some ⟨flag, phase⟩ =>
      match enqueuedRunId flag phase uuid with
      | .ok _ => flights.move party ⟨flag, .syncing⟩
      | .error _ => if phase = .manual then flights.leave party else flights.clear party flag

/-- A sync returns, or panics: the panic drops a guard but skips a store. -/
def syncEnds (flights : Flights) (party : Nat) (how : SyncEnd) : Flights :=
  match flights.parties[party]? with
  | none => flights
  | some ⟨flag, _⟩ =>
      if how = .panic ∧ flag.guarded = false then flights.leave party
      else flights.move party ⟨flag, .ended⟩

def clearOf (flights : Flights) (party : Nat) : Flights :=
  match flights.parties[party]? with
  | none => flights
  | some ⟨flag, _⟩ => flights.clear party flag

def step (flights : Flights) : FlightStep → Flights
  | .createConnection flag => flights.swap flag .creating
  | .manualGithubSync => flights.swap .github .manual
  | .schedule type => flights.swapOf (SyncFlag.ofLiveType type) .scheduled
  | .purgeConnection type => flights.swapOf (SyncFlag.ofType type) .purging
  | .fails party => flights.clearOf party
  | .enqueue party uuid => flights.enqueue party uuid
  | .syncEnds party how => flights.syncEnds party how
  | .releases party => flights.clearOf party
  | .purgeEnds party => flights.clearOf party

/-- A party does what its phase is about. -/
def Enabled (flights : Flights) : FlightStep → Prop
  | .createConnection _ => True
  | .manualGithubSync => True
  | .schedule _ => True
  | .purgeConnection _ => True
  | .fails party => (flights.parties[party]?).map Party.phase = some .creating
  | .enqueue party _ => ((flights.parties[party]?).map fun p => p.phase.spawns) = some true
  | .syncEnds party _ => (flights.parties[party]?).map Party.phase = some .syncing
  | .releases party => (flights.parties[party]?).map Party.phase = some .ended
  | .purgeEnds party => (flights.parties[party]?).map Party.phase = some .purging

instance (flights : Flights) (call : FlightStep) : Decidable (flights.Enabled call) := by
  cases call <;> unfold Enabled <;> infer_instance

def machine : Machine Flights FlightStep where
  enabled := Enabled
  step := step

instance (flights : Flights) (call : FlightStep) : Decidable (machine.enabled flights call) :=
  inferInstanceAs (Decidable (flights.Enabled call))

/-! ## §3  Who holds a flag -/

theorem enqueuedRunId_ok (flag : SyncFlag) (phase : Phase) (uuid : Uuid) :
    ∃ id, enqueuedRunId flag phase uuid = .ok id := by
  have htrimmed : Trimmed (flag.idPrefix ++
      (if phase = .scheduled then "-scheduled-" else "-sync-") ++ uuid.text) := by
    refine trimmed_of_visible (StartsVisible.append ?_ _) uuid.endsVisible
    cases flag <;> exact ⟨_, _, rfl, by decide⟩
  exact ⟨⟨_, htrimmed⟩, by unfold enqueuedRunId StringValue.new; rw [dif_pos htrimmed]⟩

/-- What a step can do to the flags and the parties. -/
inductive Effect (flights : Flights) (call : FlightStep) : Flights → Prop
  | stays : Effect flights call flights
  | takes (flag : SyncFlag) (phase : Phase) (free : flights.running flag = false) :
      Effect flights call
        { running := flights.running.take flag, parties := flights.parties ++ [⟨flag, phase⟩] }
  | passes (party : Nat) (flag : SyncFlag) (before after : Phase)
      (at_ : flights.parties[party]? = some ⟨flag, before⟩) :
      Effect flights call (flights.move party ⟨flag, after⟩)
  | clears (party : Nat) (flag : SyncFlag) (phase : Phase)
      (at_ : flights.parties[party]? = some ⟨flag, phase⟩) :
      Effect flights call (flights.clear party flag)
  /-- An unguarded task panics. -/
  | leaks (party : Nat) (flag : SyncFlag) (panics : call = .syncEnds party .panic)
      (at_ : flights.parties[party]? = some ⟨flag, .syncing⟩) (unguarded : flag.guarded = false) :
      Effect flights call (flights.leave party)

variable {flights : Flights} {call : FlightStep}

theorem effect_swap (flag : SyncFlag) (phase : Phase) :
    Effect flights call (flights.swap flag phase) := by
  unfold swap
  cases hrunning : flights.running flag with
  | true => exact .stays
  | false => exact .takes flag phase hrunning

theorem effect_clearOf (party : Nat) : Effect flights call (flights.clearOf party) := by
  unfold clearOf
  cases hparty : flights.parties[party]? with
  | none => exact .stays
  | some p => exact .clears party p.flag p.phase hparty

theorem effect_swapOf (flag : Option SyncFlag) (phase : Phase) :
    Effect flights call (flights.swapOf flag phase) := by
  cases flag with
  | none => exact .stays
  | some flag => exact effect_swap flag phase

theorem effect_enqueue (party : Nat) (uuid : Uuid) :
    Effect flights call (flights.enqueue party uuid) := by
  unfold enqueue
  cases hparty : flights.parties[party]? with
  | none => exact .stays
  | some p =>
      obtain ⟨id, hid⟩ := enqueuedRunId_ok p.flag p.phase uuid
      simp only [hid]
      exact .passes party p.flag p.phase .syncing hparty

theorem effect_syncEnds {party : Nat} {how : SyncEnd}
    (hen : flights.Enabled (.syncEnds party how)) :
    Effect flights (.syncEnds party how) (flights.syncEnds party how) := by
  unfold syncEnds
  cases hparty : flights.parties[party]? with
  | none => exact .stays
  | some p =>
      obtain ⟨flag, phase⟩ := p
      have hsyncing : some phase = some .syncing := by
        rw [← hen, hparty]
        rfl
      obtain rfl := Option.some.inj hsyncing
      by_cases hleaks : how = .panic ∧ flag.guarded = false
      · obtain ⟨rfl, hunguarded⟩ := hleaks
        simp only [hunguarded, and_self, if_true]
        exact .leaks party flag rfl hparty hunguarded
      · simp only [hleaks, if_false]
        exact .passes party flag .syncing .ended hparty

theorem effect_step (hen : flights.Enabled call) : Effect flights call (flights.step call) := by
  cases call with
  | createConnection flag => exact effect_swap flag .creating
  | manualGithubSync => exact effect_swap .github .manual
  | schedule type => exact effect_swapOf _ .scheduled
  | purgeConnection type => exact effect_swapOf _ .purging
  | fails party => exact effect_clearOf party
  | releases party => exact effect_clearOf party
  | purgeEnds party => exact effect_clearOf party
  | enqueue party uuid => exact effect_enqueue party uuid
  | syncEnds party how => exact effect_syncEnds hen

/-- The flags the parties hold. -/
def held (flights : Flights) : List SyncFlag := flights.parties.map Party.flag

/-- No two parties share a flag, and what a party holds is set. -/
structure Owned (flights : Flights) : Prop where
  apart : flights.held.Nodup
  taken : ∀ flag ∈ flights.held, flights.running flag = true

theorem held_at {party : Nat} {p : Party} (h : flights.parties[party]? = some p) :
    flights.held[party]? = some p.flag := by
  simp [held, h]

theorem held_move {party : Nat} {p q : Party} (h : flights.parties[party]? = some p)
    (hflag : q.flag = p.flag) : (flights.move party q).held = flights.held := by
  have hat := held_at h
  obtain ⟨hlt, hget⟩ := List.getElem?_eq_some_iff.mp hat
  unfold held move
  rw [List.map_set, hflag, ← hget]
  exact List.set_getElem_self hlt

/-- Who ends takes one flag off the list. -/
theorem mem_held_erase (howned : flights.Owned) {party : Nat} {p : Party}
    (h : flights.parties[party]? = some p) {flag : SyncFlag} :
    flag ∈ (flights.parties.eraseIdx party).map Party.flag ↔
      flag ≠ p.flag ∧ flag ∈ flights.held := by
  have hat := held_at h
  obtain ⟨hlt, hget⟩ := List.getElem?_eq_some_iff.mp hat
  rw [← List.eraseIdx_map]
  show flag ∈ flights.held.eraseIdx party ↔ _
  rw [← howned.apart.erase_getElem party hlt, hget, howned.apart.mem_erase_iff]

theorem nodup_erase (howned : flights.Owned) (party : Nat) :
    ((flights.parties.eraseIdx party).map Party.flag).Nodup := by
  rw [← List.eraseIdx_map]
  exact howned.apart.eraseIdx party

theorem owned_preserved : machine.Preserves Owned := by
  intro flights call hen howned
  show (flights.step call).Owned
  have heffect := effect_step hen
  generalize flights.step call = next at heffect ⊢
  cases heffect with
  | stays => exact howned
  | takes flag phase free =>
      have hnew : flag ∉ flights.held := fun h => by
        have hset := howned.taken flag h
        rw [free] at hset
        cases hset
      have hheld : (flights.parties ++ [(⟨flag, phase⟩ : Party)]).map Party.flag =
          flights.held ++ [flag] := by
        rw [List.map_append]
        rfl
      constructor
      · show (List.map Party.flag _).Nodup
        rw [hheld]
        exact howned.apart.append (List.nodup_singleton _) (by simpa using hnew)
      · intro other hother
        by_cases hsame : other = flag
        · rw [hsame]
          exact Flags.take_self _ _
        · show flights.running.take flag other = true
          rw [Flags.take_other _ hsame]
          refine howned.taken other ?_
          have hmem : other ∈ flights.held ++ [flag] := hheld ▸ hother
          simpa [hsame] using hmem
  | passes party flag before after at_ =>
      have hheld := held_move at_ (q := ⟨flag, after⟩) rfl
      exact ⟨hheld ▸ howned.apart, hheld ▸ howned.taken⟩
  | clears party flag phase at_ =>
      refine ⟨nodup_erase howned party, fun other hother => ?_⟩
      obtain ⟨hne, hheld⟩ := (mem_held_erase howned at_).mp hother
      show flights.running.store flag other = true
      rw [Flags.store_other _ hne]
      exact howned.taken other hheld
  | leaks party flag panics at_ unguarded =>
      refine ⟨nodup_erase howned party, fun other hother => ?_⟩
      exact howned.taken other ((mem_held_erase howned at_).mp hother).2

/-! ## §4  The law -/

structure SingleFlight (flights : Flights) : Prop where
  oneSync : ∀ flag, flights.parties.countP (fun p =>
    decide (p.flag = flag) && decide (p.phase = .syncing)) ≤ 1
  purgeApart : ∀ p ∈ flights.parties, ∀ q ∈ flights.parties, p.flag = q.flag →
    p.phase = .purging → q.phase ≠ .syncing
  /-- Without a sync, a creation or a purge of the type its flag is clear. -/
  idleClear : ∀ flag, (∀ p ∈ flights.parties, p.flag ≠ flag) → flights.running flag = false

/-- The step is no panic of a task whose release stands behind its `await`. -/
def Unwinds (flights : Flights) (call : FlightStep) : Prop :=
  ∀ party flag, call = .syncEnds party .panic → flights.parties[party]? = some ⟨flag, .syncing⟩ →
    flag.guarded = true

theorem Owned.oneSync (howned : flights.Owned) (flag : SyncFlag) :
    flights.parties.countP (fun p =>
      decide (p.flag = flag) && decide (p.phase = .syncing)) ≤ 1 := by
  have hcount : flights.parties.countP (fun p => decide (p.flag = flag)) ≤ 1 := by
    have hone := List.nodup_iff_count_le_one.mp howned.apart flag
    rwa [held, List.count, List.countP_map] at hone
  refine le_trans (List.countP_mono_left fun p _ hp => ?_) hcount
  exact (Bool.and_eq_true_iff.mp hp).1

theorem Owned.party_unique (howned : flights.Owned) {p q : Party} (hp : p ∈ flights.parties)
    (hq : q ∈ flights.parties) (h : p.flag = q.flag) : p = q :=
  List.inj_on_of_nodup_map howned.apart hp hq h

theorem Owned.purgeApart (howned : flights.Owned) {p q : Party} (hp : p ∈ flights.parties)
    (hq : q ∈ flights.parties) (h : p.flag = q.flag) (hpurging : p.phase = .purging) :
    q.phase ≠ .syncing := by
  rw [← howned.party_unique hp hq h, hpurging]
  exact nofun

theorem idleClear_iff : (∀ flag, (∀ p ∈ flights.parties, p.flag ≠ flag) →
    flights.running flag = false) ↔ ∀ flag ∉ flights.held, flights.running flag = false := by
  refine forall_congr' fun flag => imp_congr_left ?_
  simp [held]

/-- With every flag owned, the law is that a flag nobody holds is clear. -/
theorem Owned.singleFlight_iff (howned : flights.Owned) :
    flights.SingleFlight ↔ ∀ flag ∉ flights.held, flights.running flag = false := by
  rw [← idleClear_iff]
  refine ⟨fun h => h.idleClear, fun h => ⟨howned.oneSync, ?_, h⟩⟩
  exact fun p hp q hq hflag hpurging => howned.purgeApart hp hq hflag hpurging

/-- The panic of an unguarded task leaves its flag set and held by nobody. -/
theorem leaks_of_not_unwinds (howned : flights.Owned) (h : ¬ flights.Unwinds call) :
    ∃ flag, flag ∉ (flights.step call).held ∧ (flights.step call).running flag = true := by
  simp only [Unwinds, not_forall, Bool.not_eq_true] at h
  obtain ⟨party, flag, rfl, hparty, hunguarded⟩ := h
  have hstep : flights.step (.syncEnds party .panic) = flights.leave party := by
    show flights.syncEnds party .panic = _
    simp [syncEnds, hparty, hunguarded]
  rw [hstep]
  refine ⟨flag, fun hheld => ?_, ?_⟩
  · exact ((mem_held_erase howned hparty).mp hheld).1 rfl
  · exact howned.taken flag (List.mem_of_getElem? (held_at hparty))

/-- Any other step clears the flag of who ends. -/
theorem clear_of_unwinds (hen : flights.Enabled call) (howned : flights.Owned)
    (hclear : ∀ flag ∉ flights.held, flights.running flag = false) (h : flights.Unwinds call) :
    ∀ flag ∉ (flights.step call).held, (flights.step call).running flag = false := by
  have heffect := effect_step hen
  generalize flights.step call = next at heffect ⊢
  intro other hother
  cases heffect with
  | stays => exact hclear other hother
  | takes flag phase free =>
      simp only [held, List.map_append, List.map_cons, List.map_nil, List.mem_append,
        List.mem_singleton, not_or] at hother
      show flights.running.take flag other = false
      rw [Flags.take_other _ hother.2]
      exact hclear other hother.1
  | passes party flag before after at_ =>
      rw [held_move (q := ⟨flag, after⟩) at_ rfl] at hother
      exact hclear other hother
  | clears party flag phase at_ =>
      show flights.running.store flag other = false
      by_cases hsame : other = flag
      · rw [hsame]
        exact Flags.store_self _ _
      · rw [Flags.store_other _ hsame]
        exact hclear other fun hheld => hother ((mem_held_erase howned at_).mpr ⟨hsame, hheld⟩)
  | leaks party flag panics at_ unguarded =>
      have hguarded := h party flag panics at_
      rw [unguarded] at hguarded
      cases hguarded

theorem singleFlight_step (hen : machine.enabled flights call) (howned : flights.Owned)
    (h : flights.SingleFlight) : (flights.step call).SingleFlight ↔ flights.Unwinds call := by
  have hnext : (flights.step call).Owned := owned_preserved flights call hen howned
  rw [howned.singleFlight_iff] at h
  rw [hnext.singleFlight_iff]
  constructor
  · intro hclear
    by_contra hleaks
    obtain ⟨flag, hfree, hset⟩ := leaks_of_not_unwinds howned hleaks
    rw [hclear flag hfree] at hset
    cases hset
  · exact clear_of_unwinds hen howned h

/-- A leaked flag: set, and held by nobody. -/
def Leaked (flag : SyncFlag) (flights : Flights) : Prop :=
  flights.Owned ∧ flag ∉ flights.held ∧ flights.running flag = true

/-- It is never taken and never cleared again. -/
theorem leaked_preserved (flag : SyncFlag) : machine.Preserves (Leaked flag) := by
  rintro flights call hen ⟨howned, hfree, hset⟩
  refine ⟨owned_preserved flights call hen howned, ?_⟩
  show flag ∉ (flights.step call).held ∧ (flights.step call).running flag = true
  have heffect := effect_step hen
  generalize flights.step call = next at heffect ⊢
  cases heffect with
  | stays => exact ⟨hfree, hset⟩
  | takes other phase free =>
      have hne : flag ≠ other := by
        rintro rfl
        rw [hset] at free
        cases free
      refine ⟨by simpa [held] using ⟨by simpa [held] using hfree, hne⟩, ?_⟩
      show flights.running.take other flag = true
      rw [Flags.take_other _ hne]
      exact hset
  | passes party other before after at_ =>
      rw [held_move (q := ⟨other, after⟩) at_ rfl]
      exact ⟨hfree, hset⟩
  | clears party other phase at_ =>
      have hne : flag ≠ other := by
        rintro rfl
        exact hfree (List.mem_of_getElem? (held_at at_))
      refine ⟨fun h => hfree ((mem_held_erase howned at_).mp h).2, ?_⟩
      show flights.running.store other flag = true
      rw [Flags.store_other _ hne]
      exact hset
  | leaks party other panics at_ unguarded =>
      exact ⟨fun h => hfree ((mem_held_erase howned at_).mp h).2, hset⟩

/-- After the panic of an unguarded task no run holds its flag again: no sync, no
creation and no purge of the type, for good. -/
theorem leaked_forever (hen : machine.enabled flights call) (howned : flights.Owned)
    (h : ¬ flights.Unwinds call) :
    ∃ flag, ∀ calls final, machine.Run (flights.step call) calls final → Leaked flag final := by
  obtain ⟨flag, hfree, hset⟩ := leaks_of_not_unwinds howned h
  refine ⟨flag, fun calls final hrun => ?_⟩
  exact hrun.invariant (leaked_preserved flag)
    ⟨owned_preserved flights call hen howned, hfree, hset⟩

theorem owned_idle : idle.Owned := ⟨List.nodup_nil, fun _ h => absurd h List.not_mem_nil⟩

theorem singleFlight_idle : idle.SingleFlight :=
  owned_idle.singleFlight_iff.mpr fun _ _ => rfl

/-- In every run no type has two syncs at once, nor a sync beside a purge; and the
whole law holds in every state of a run exactly if the run has no panic of an
unguarded task. -/
theorem single_flight_iff {calls : List FlightStep} {flights : Flights}
    (hrun : machine.Run idle calls flights) :
    (∀ flag, flights.parties.countP (fun p =>
        decide (p.flag = flag) && decide (p.phase = .syncing)) ≤ 1) ∧
      (∀ p ∈ flights.parties, ∀ q ∈ flights.parties, p.flag = q.flag → p.phase = .purging →
        q.phase ≠ .syncing) ∧
      (machine.Throughout SingleFlight idle calls ↔
        Machine.Run (machine.restrict Unwinds) idle calls flights) := by
  have howned : flights.Owned := hrun.invariant owned_preserved owned_idle
  refine ⟨howned.oneSync, fun p hp q hq => howned.purgeApart hp hq, ?_⟩
  exact hrun.throughout_iff owned_preserved
    (fun _ _ hen howned h => singleFlight_step hen howned h) owned_idle singleFlight_idle

end Flights

namespace Fixture

/-- A uuid. -/
def flightUuid : Uuid := ⟨"00000000-0000-4000-8000-000000000000", by decide⟩

/-- A connection is created, its first sync panics. -/
def panickingSync (flag : SyncFlag) : List FlightStep :=
  [.createConnection flag, .enqueue 0 flightUuid, .syncEnds 0 .panic]

end Fixture

namespace Flights

open Fixture in
/-- After a panic of a Dokploy sync nobody is left and the flag is set. -/
theorem panic_leaks_flag :
    machine.Run idle (panickingSync .dokploy) (machine.replay idle (panickingSync .dokploy)) ∧
      (machine.replay idle (panickingSync .dokploy)).parties = [] ∧
      ¬ (machine.replay idle (panickingSync .dokploy)).SingleFlight := by
  have hparties : (machine.replay idle (panickingSync .dokploy)).parties = [] := by decide
  refine ⟨Machine.run_replay (by decide), hparties, fun h => ?_⟩
  have hclear := h.idleClear .dokploy (by simp [hparties])
  exact absurd hclear (by decide)

open Fixture in
/-- The same of a GitHub sync, whose guard is dropped. -/
theorem single_flight_iff_github :
    machine.Throughout SingleFlight idle (panickingSync .github ++ [.releases 0]) ↔
      Machine.Run (machine.restrict Unwinds) idle (panickingSync .github ++ [.releases 0])
        (machine.replay idle (panickingSync .github ++ [.releases 0])) :=
  (single_flight_iff (Machine.run_replay (by decide))).2.2

end Flights

end NextInfra
