import NextInfra.Host.MarkerCalls
import NextInfra.Lib.Traces

/-!
# The user's quit

Processes call `persist_user_quit`, `clear_user_quit` and `inspect_user_quit` one after the
other, and in each call any system call may fail or end the process. `step_stepped` says
what one call replies and leaves; `user_quit_atomic_iff` carries it over every sequence:
the marker is atomic exactly where no call is exposed and no write meets a temporary file
that an earlier one has left.

§4 is the quit of the desktop app, which takes an error for a marker that is not set.
-/

namespace NextInfra

namespace UserQuit

open Bridge (Metadata UserQuitInspection UserQuitMarker validateDirectory validateRegularFile)
open Trace (Entry log final entryOf)

/-! ## §1  What the user sees -/

section

variable (kernel : Kernel) (decode : String → Option UserQuitMarker)

def unfailing : Faults where
  fate _ := .goes
  written := 0

/-- What the bridge's inspection is asked about. -/
def probe (disk : Disk) : Bridge.MarkerProbe where
  file :=
    match (kernel.lstatMarker.effect disk).1 with
    | .ok metadata => .found metadata
    | .error .notFound => .notFound
    | .error .other => .unreadable
  stateDir := ((kernel.lstat .stateDir).effect disk).1.toOption
  marker := (kernel.readMarker.effect disk).1.toOption.bind decode

inductive Operation
  | persist
  | clear
  | inspect
deriving DecidableEq

/-- A call of one of the three, by the process that makes it. -/
structure Call where
  operation : Operation
  pid : Nat
  faults : Faults

inductive Reply
  | answered (found : UserQuitInspection)
  | returned (result : Except IntegrationError Unit)
  | interrupted
deriving DecidableEq

def Reply.ofInspection : Except (Halt IntegrationError) UserQuitInspection → Reply
  | .ok found => .answered found
  | .error (.returned e) => .returned (.error e)
  | .error .interrupted => .interrupted

def Reply.ofResult : Except (Halt IntegrationError) Unit → Reply
  | .ok u => .returned (.ok u)
  | .error (.returned e) => .returned (.error e)
  | .error .interrupted => .interrupted

def Reply.succeeds : Reply → Bool
  | .answered _ | .returned (.ok _) => true
  | .returned (.error _) | .interrupted => false

def step (disk : Disk) (call : Call) : Disk × Reply :=
  match call.operation with
  | .persist =>
      let (result, after) := persistUserQuit kernel call.faults call.pid disk
      (after, .ofResult result)
  | .clear =>
      let (result, after) := clearUserQuit kernel call.faults disk
      (after, .ofResult result)
  | .inspect =>
      let (result, after) := inspectUserQuit kernel call.faults decode disk
      (after, .ofInspection result)

/-- The answer of `inspect_user_quit` where none of its calls fails. -/
def answer (disk : Disk) : Reply :=
  .ofInspection (inspectUserQuit kernel unfailing decode disk).1

end

section

variable {kernel : Kernel} {decode : String → Option UserQuitMarker} {faults : Faults} {disk : Disk}

theorem lstatMarker_reads (disk : Disk) : (kernel.lstatMarker.effect disk).2 = disk := by
  unfold Kernel.lstatMarker
  dsimp only
  split <;> rfl

theorem readMarker_reads (disk : Disk) : (kernel.readMarker.effect disk).2 = disk := by
  unfold Kernel.readMarker
  dsimp only
  split <;> rfl

theorem lstat_reads (dir : Directory) (disk : Disk) :
    ((kernel.lstat dir).effect disk).2 = disk := by
  unfold Kernel.lstat
  dsimp only
  split <;> rfl

/-- No inspection writes. -/
theorem inspectUserQuit_disk (kernel : Kernel) (decode : String → Option UserQuitMarker)
    (faults : Faults) (disk : Disk) :
    (inspectUserQuit kernel faults decode disk).2 = disk := by
  have htrans : ∀ s t u : Disk, s = t → t = u → s = u := fun _ _ _ => Eq.trans
  have hpure : ∀ found : UserQuitInspection, Attempt.Leads Eq (pure found : Calls UserQuitInspection) :=
    fun found => Attempt.Leads.pure (fun _ => rfl) found
  have hleads : Attempt.Leads Eq (inspectUserQuit kernel faults decode) := by
    unfold inspectUserQuit
    apply Attempt.Leads.bind htrans (SystemCall.leads_run lstatMarker_reads fun _ => rfl)
    rintro ((_ | _) | metadata)
    · exact hpure _
    · exact hpure _
    apply Attempt.Leads.bind htrans (SystemCall.leads_run (lstat_reads _) fun _ => rfl)
    rintro (_ | stateDir)
    · exact hpure _
    dsimp only
    split
    · exact hpure _
    apply Attempt.Leads.bind htrans (SystemCall.leads_run readMarker_reads fun _ => rfl)
    rintro (_ | content)
    · exact hpure _
    dsimp only
    split
    · exact hpure _
    · exact hpure _
  exact (hleads disk).symm

theorem inspectUserQuit_unfailing (h : ∀ site, faults.fate site = .goes) (disk : Disk) :
    inspectUserQuit kernel faults decode disk =
      (.ok (Bridge.inspectUserQuit kernel.euid (probe kernel decode disk)), disk) := by
  unfold inspectUserQuit probe Bridge.inspectUserQuit
  rw [SystemCall.run_goes _ (h _), lstatMarker_reads]
  rcases (kernel.lstatMarker.effect disk).1 with (_ | _) | metadata
  · rfl
  · rfl
  dsimp only
  rw [SystemCall.run_goes _ (h _), lstat_reads]
  rcases ((kernel.lstat .stateDir).effect disk).1 with _ | stateDir
  · rfl
  dsimp only [Except.toOption]
  by_cases hforeign : (!validateDirectory kernel.euid (some stateDir) ||
      !validateRegularFile kernel.euid metadata recordMode) = true
  · rw [if_pos hforeign]
    show _ = (Except.ok (ite ((!validateDirectory kernel.euid (some stateDir) ||
      !validateRegularFile kernel.euid metadata recordMode) = true) _ _), disk)
    rw [if_pos hforeign]
    rfl
  · rw [if_neg hforeign]
    show _ = (Except.ok (ite ((!validateDirectory kernel.euid (some stateDir) ||
      !validateRegularFile kernel.euid metadata recordMode) = true) _ _), disk)
    rw [if_neg hforeign, SystemCall.run_goes _ (h _), readMarker_reads]
    rcases (kernel.readMarker.effect disk).1 with _ | content
    · rfl
    dsimp only [Option.bind]
    -- both ways to read the text answer alike
    generalize decode content = found
    rcases found with _ | ⟨_ | _ | version, _ | _⟩ <;> rfl

/-- Where the directory is missing, so is the marker. -/
theorem Own.lstatMarker_missing (hown : Own kernel disk) (h : disk.metadata .stateDir = none) :
    (kernel.lstatMarker.effect disk).1 = .error .notFound := by
  have hinside : kernel.inside disk = some .notFound := by
    unfold Kernel.inside
    rw [h, kernel.lookup_none]
    cases hr : disk.metadata .root with
    | none => rw [kernel.lookup_none]; rfl
    | some r => rw [kernel.lookup_own r (hown.directory _ _ hr)]; rfl
  simp only [Kernel.lstatMarker, hinside]

theorem answer_own (hown : Own kernel disk) :
    answer kernel decode disk =
      .answered (if disk.marker.isSome then .suppressed else .clear) := by
  have hsome : (Bridge.inspectUserQuit kernel.euid (probe kernel decode disk) = .clear) ↔
      disk.marker = none := by
    rw [Bridge.inspectUserQuit_clear_iff]
    show (match (kernel.lstatMarker.effect disk).1 with
      | .ok metadata => Bridge.MarkerFile.found metadata
      | .error .notFound => .notFound
      | .error .other => .unreadable) = .notFound ↔ _
    cases hdir : disk.metadata .stateDir with
    | none =>
        rw [hown.lstatMarker_missing hdir]
        exact iff_of_true rfl (Disk.marker_of_no_stateDir hdir)
    | some m =>
        rw [lstatMarker_effect (hown.inside (by rw [hdir]; rfl))]
        cases disk.marker with
        | none => exact iff_of_true rfl rfl
        | some entry => exact iff_of_false nofun nofun
  unfold answer
  rw [inspectUserQuit_unfailing fun _ => rfl]
  show Reply.answered _ = _
  congr 1
  cases hm : disk.marker with
  | none => exact hsome.mpr hm
  | some entry =>
      cases hfound : Bridge.inspectUserQuit kernel.euid (probe kernel decode disk) with
      | suppressed => rfl
      | clear =>
          rw [hsome.mp hfound] at hm
          cases hm

end

/-! ## §2  One call of a sequence -/

/-- The answer changes and the call returns an error. -/
def Exposed (before : Disk) (call : Call) : Prop :=
  match call.operation with
  | .persist => PersistExposed call.faults call.pid before
  | .clear => ClearExposed call.faults before
  | .inspect => False

/-- The call leaves a temporary file under its process id. -/
def Strands (before : Disk) (call : Call) : Prop :=
  call.operation = .persist ∧ PersistStrands call.faults call.pid before

def Call.Unfailing (call : Call) : Prop := ∀ site, call.faults.fate site = .goes

structure Stepped (kernel : Kernel) (decode : String → Option UserQuitMarker) (before : Disk)
    (call : Call) (reply : Reply) (after : Disk) : Prop where
  own : Own kernel after
  temporary : ∀ pid, after.temporary pid ≠ none ↔
    before.temporary pid ≠ none ∨ pid = call.pid ∧ Strands before call
  exposed : ((∃ e, reply = .returned (.error e)) ∧
    answer kernel decode after ≠ answer kernel decode before) ↔ Exposed before call
  persisted : call.operation = .persist → reply = .returned (.ok ()) →
    answer kernel decode after = .answered .suppressed
  cleared : call.operation = .clear → reply = .returned (.ok ()) →
    answer kernel decode after = .answered .clear
  strands : Strands before call → reply.succeeds = false
  succeeds : call.Unfailing →
    (reply.succeeds = true ↔ (call.operation = .persist → before.temporary call.pid = none))

section

variable {kernel : Kernel} {decode : String → Option UserQuitMarker} {before after : Disk}
  {call : Call}

namespace Reply

variable {result : Except (Halt IntegrationError) Unit}

theorem ofResult_error_iff {e : IntegrationError} :
    ofResult result = .returned (.error e) ↔ result = .error (.returned e) := by
  rcases result with (_ | _) | ⟨⟩ <;> simp [ofResult]

theorem ofResult_ok_iff : ofResult result = .returned (.ok ()) ↔ result = .ok () := by
  rcases result with (_ | _) | ⟨⟩ <;> simp [ofResult]

theorem ofResult_succeeds_iff : (ofResult result).succeeds = true ↔ result = .ok () := by
  rcases result with (_ | _) | ⟨⟩ <;> simp [ofResult, succeeds]

end Reply

/-- Two disks of one's own are answered alike where both have a marker or neither has. -/
theorem answer_ne_iff (hbefore : Own kernel before) (hafter : Own kernel after) :
    answer kernel decode after ≠ answer kernel decode before ↔
      after.marker.isSome ≠ before.marker.isSome := by
  rw [answer_own hbefore, answer_own hafter]
  cases after.marker.isSome <;> cases before.marker.isSome <;> simp

theorem persist_stepped (hown : Own kernel before) (hop : call.operation = .persist)
    {result : Except (Halt IntegrationError) Unit}
    (h : Persisted kernel call.faults call.pid before result after) :
    Stepped kernel decode before call (.ofResult result) after where
  own := h.own
  temporary pid := by
    rw [h.temporary]
    unfold Strands
    simp only [hop, true_and]
  exposed := by
    rw [answer_ne_iff hown h.own]
    unfold Exposed
    simp only [hop, Reply.ofResult_error_iff]
    exact h.exposed
  persisted _ hreply := by
    rw [answer_own h.own, if_pos (h.suppressed (Reply.ofResult_ok_iff.mp hreply))]
  cleared hclear := absurd (hop.symm.trans hclear) nofun
  strands hstrands := by
    obtain ⟨site, hsite, _⟩ := hstrands.2.2
    rw [← Bool.not_eq_true, Reply.ofResult_succeeds_iff, h.ok_iff, firstHalt_append, hsite]
    rintro ⟨_, hnone⟩
    cases hnone
  succeeds hgoes := by
    rw [Reply.ofResult_succeeds_iff, h.ok_iff, firstHalt_of_goes hgoes]
    simp [hop]

theorem clear_stepped (hown : Own kernel before) (hop : call.operation = .clear)
    {result : Except (Halt IntegrationError) Unit}
    (h : Cleared kernel call.faults before result after) :
    Stepped kernel decode before call (.ofResult result) after where
  own := h.own
  temporary pid := by
    rw [h.temporary]
    unfold Strands
    simp [hop]
  exposed := by
    rw [answer_ne_iff hown h.own]
    unfold Exposed
    simp only [hop, Reply.ofResult_error_iff]
    exact h.exposed
  persisted hpersist := absurd (hop.symm.trans hpersist) nofun
  cleared _ hreply := by
    rw [answer_own h.own, h.cleared (Reply.ofResult_ok_iff.mp hreply)]
    rfl
  strands hstrands := absurd (hop.symm.trans hstrands.1) nofun
  succeeds hgoes := by
    rw [Reply.ofResult_succeeds_iff]
    simp [hop, h.ok_of_goes hgoes]

theorem inspect_stepped (hown : Own kernel before) (hop : call.operation = .inspect) :
    Stepped kernel decode before call
      (.ofInspection (inspectUserQuit kernel call.faults decode before).1) before where
  own := hown
  temporary pid := by
    unfold Strands
    simp [hop]
  exposed := by
    unfold Exposed
    simp [hop]
  persisted hpersist := absurd (hop.symm.trans hpersist) nofun
  cleared hclear := absurd (hop.symm.trans hclear) nofun
  strands hstrands := absurd (hop.symm.trans hstrands.1) nofun
  succeeds hgoes := by
    rw [inspectUserQuit_unfailing hgoes]
    simp [hop, Reply.ofInspection, Reply.succeeds]

theorem step_stepped (hown : Own kernel before) (call : Call) :
    Stepped kernel decode before call (step kernel decode before call).2
      (step kernel decode before call).1 := by
  unfold step
  cases hop : call.operation with
  | persist => exact persist_stepped hown hop (persistUserQuit_meets hown)
  | clear => exact clear_stepped hown hop (clearUserQuit_meets hown)
  | inspect =>
      have h : Stepped kernel decode before call _ before := inspect_stepped hown hop
      have hdisk := inspectUserQuit_disk kernel decode call.faults before
      show Stepped kernel decode before call _
        (inspectUserQuit kernel call.faults decode before).2
      rw [hdisk]
      exact h

end

/-! ## §3  Sequences of calls -/

/-- The marker is atomic in what a log records: an error leaves the answer as it was, a
success sets it, and after a call that has failed or was interrupted a later one of its kind
succeeds where nothing fails. -/
structure Atomic (kernel : Kernel) (decode : String → Option UserQuitMarker)
    (entries : List (Entry Disk Call Reply)) : Prop where
  unchanged : ∀ entry ∈ entries, ∀ e, entry.reply = .returned (.error e) →
    answer kernel decode (entry.after (step kernel decode)) = answer kernel decode entry.before
  persisted : ∀ entry ∈ entries, entry.call.operation = .persist →
    entry.reply = .returned (.ok ()) →
    answer kernel decode (entry.after (step kernel decode)) = .answered .suppressed
  cleared : ∀ entry ∈ entries, entry.call.operation = .clear →
    entry.reply = .returned (.ok ()) →
    answer kernel decode (entry.after (step kernel decode)) = .answered .clear
  retried : ∀ past failed middle later future,
    entries = past ++ failed :: (middle ++ later :: future) → failed.reply.succeeds = false →
    later.call.operation = failed.call.operation → later.call.Unfailing →
    later.reply.succeeds = true

/-- No call is exposed, and no write that nothing fails meets a temporary file an earlier
one has left. -/
structure Spared (entries : List (Entry Disk Call Reply)) : Prop where
  exposed : ∀ entry ∈ entries, ¬ Exposed entry.before entry.call
  stranded : ∀ past stranding middle later future,
    entries = past ++ stranding :: (middle ++ later :: future) →
    Strands stranding.before stranding.call → later.call.operation = .persist →
    later.call.Unfailing → later.call.pid ≠ stranding.call.pid

section

variable {kernel : Kernel} {decode : String → Option UserQuitMarker} {disk : Disk}

/-- After any calls the disk is one's own, and the temporary files are those of the calls
that have left one. -/
theorem final_own (hown : Own kernel disk) (htidy : ∀ pid, disk.temporary pid = none)
    (calls : List Call) :
    Own kernel (final (step kernel decode) disk calls) ∧
      ∀ pid, (final (step kernel decode) disk calls).temporary pid ≠ none ↔
        ∃ entry ∈ log (step kernel decode) disk calls, entry.call.pid = pid ∧
          Strands entry.before entry.call := by
  refine Trace.recorded (step kernel decode)
    (P := fun past s => Own kernel s ∧ ∀ pid, s.temporary pid ≠ none ↔
      ∃ entry ∈ past, entry.call.pid = pid ∧ Strands entry.before entry.call) ?_ ?_ calls
  · exact ⟨hown, fun pid => by simp [htidy]⟩
  · intro past s call ⟨hs, htemporary⟩
    have h : Stepped kernel decode s call _ _ := step_stepped hs call
    refine ⟨h.own, fun pid => ?_⟩
    rw [h.temporary, htemporary]
    constructor
    · rintro (⟨entry, hentry, hpid, hstrands⟩ | ⟨rfl, hstrands⟩)
      · exact ⟨entry, List.mem_append_left _ hentry, hpid, hstrands⟩
      · exact ⟨_, List.mem_append_right _ (List.mem_singleton_self _), rfl, hstrands⟩
    · rintro ⟨entry, hentry, hpid, hstrands⟩
      rcases List.mem_append.mp hentry with hentry | hentry
      · exact .inl ⟨entry, hentry, hpid, hstrands⟩
      · rw [List.mem_singleton] at hentry
        subst hentry
        exact .inr ⟨hpid.symm, hstrands⟩

/-- The call a log records at an entry, and what was left before it. -/
theorem entry_stepped (hown : Own kernel disk) (htidy : ∀ pid, disk.temporary pid = none)
    {calls : List Call} {past future : List (Entry Disk Call Reply)} {entry : Entry Disk Call Reply}
    (h : log (step kernel decode) disk calls = past ++ entry :: future) :
    Own kernel entry.before ∧
      Stepped kernel decode entry.before entry.call entry.reply
        (entry.after (step kernel decode)) ∧
      ∀ pid, entry.before.temporary pid ≠ none ↔
        ∃ earlier ∈ past, earlier.call.pid = pid ∧ Strands earlier.before earlier.call := by
  obtain ⟨earlier, call, later, _, rfl, rfl, _⟩ := Trace.log_cut _ h
  obtain ⟨hs, htemporary⟩ := @final_own kernel decode disk hown htidy earlier
  exact ⟨hs, step_stepped hs call, htemporary⟩

/-- From any disk of one's own, without temporary files: whatever the calls are and whatever
fails, the marker is atomic in them if and only if they are spared. -/
theorem user_quit_atomic_iff (kernel : Kernel) (decode : String → Option UserQuitMarker)
    {disk : Disk} (hown : Own kernel disk) (htidy : ∀ pid, disk.temporary pid = none)
    (calls : List Call) :
    Atomic kernel decode (log (step kernel decode) disk calls) ↔
      Spared (log (step kernel decode) disk calls) := by
  constructor
  · intro hatomic
    constructor
    · intro entry hentry hexposed
      obtain ⟨past, future, hlog⟩ := List.append_of_mem hentry
      obtain ⟨_, hstepped, _⟩ := entry_stepped hown htidy hlog
      obtain ⟨⟨e, hreply⟩, hchanged⟩ := hstepped.exposed.mpr hexposed
      exact hchanged (hatomic.unchanged entry hentry e hreply)
    · intro past stranding middle later future hlog hstrands hop hgoes hpid
      obtain ⟨_, hstepped, _⟩ := entry_stepped hown htidy hlog
      have hlog' : log (step kernel decode) disk calls =
          (past ++ stranding :: middle) ++ later :: future := by
        rw [hlog, List.append_assoc]
        rfl
      obtain ⟨_, hlater, htemporary⟩ := entry_stepped hown htidy hlog'
      have hreply : later.reply.succeeds = true :=
        hatomic.retried past stranding middle later future hlog (hstepped.strands hstrands)
          (hop.trans hstrands.1.symm) hgoes
      have hthere : later.before.temporary later.call.pid ≠ none :=
        (htemporary _).mpr ⟨stranding, by simp, hpid.symm, hstrands⟩
      exact hthere ((hlater.succeeds hgoes).mp hreply hop)
  · intro hspared
    constructor
    · intro entry hentry e hreply
      obtain ⟨past, future, hlog⟩ := List.append_of_mem hentry
      obtain ⟨_, hstepped, _⟩ := entry_stepped hown htidy hlog
      by_contra hchanged
      exact hspared.exposed entry hentry (hstepped.exposed.mp ⟨⟨e, hreply⟩, hchanged⟩)
    · intro entry hentry
      obtain ⟨past, future, hlog⟩ := List.append_of_mem hentry
      exact (entry_stepped hown htidy hlog).2.1.persisted
    · intro entry hentry
      obtain ⟨past, future, hlog⟩ := List.append_of_mem hentry
      exact (entry_stepped hown htidy hlog).2.1.cleared
    · intro past failed middle later future hlog _ _ hgoes
      have hlog' : log (step kernel decode) disk calls =
          (past ++ failed :: middle) ++ later :: future := by
        rw [hlog, List.append_assoc]
        rfl
      obtain ⟨_, hlater, htemporary⟩ := entry_stepped hown htidy hlog'
      apply (hlater.succeeds hgoes).mpr
      intro hop
      by_contra hthere
      -- the file in the way was left by one of the calls before
      obtain ⟨stranding, hmem, hpid, hstrands⟩ := (htemporary _).mp hthere
      obtain ⟨before, between, hbetween⟩ := List.append_of_mem hmem
      refine hspared.stranded before stranding between later future ?_ hstrands hop hgoes hpid.symm
      rw [hlog', hbetween, List.append_assoc]
      rfl

end

namespace Plain

/-! A user's machine, under the file mode mask 022. -/

def directory : Metadata where
  isSymlink := false
  isDir := true
  isFile := false
  uid := 501
  mode := 0o040755
  device := 1
  inode := 2

def file : Metadata where
  isSymlink := false
  isDir := false
  isFile := true
  uid := 501
  mode := 0o100600
  device := 1
  inode := 3

theorem search_of_own {m : Metadata} (h : OwnDirectory 501 m) : m.mode &&& 0o100 = 0o100 := by
  calc m.mode &&& 0o100 = (m.mode &&& 0o700) &&& 0o100 := by
        rw [Nat.and_assoc]
        rfl
    _ = 0o700 &&& 0o100 := by rw [h.mode]
    _ = 0o100 := rfl

def kernel : Kernel where
  euid := 501
  lookup
    | none => some .notFound
    | some m => if m.isDir && decide (m.mode &&& 0o100 = 0o100) then none else some .other
  newDirectory _ := directory
  newFile _ := file
  lookup_none := rfl
  lookup_own m h := if_pos (by simp [h.isDir, search_of_own h])
  newDirectory_own _ := ⟨rfl, rfl, rfl, rfl⟩
  newFile_own _ := ⟨rfl, rfl⟩

def decode (text : String) : Option UserQuitMarker :=
  if text = markerText then some ⟨1, true⟩ else none

/-- The directory is not synced. -/
def unsynced : Faults where
  fate site := if site = .syncDirectory then .fails else .goes
  written := 0

/-- The disk takes five bytes, and the file is not removed. -/
def uncleaned : Faults where
  fate site := if site = .write ∨ site = .removeTemporary then .fails else .goes
  written := 5

end Plain

theorem user_quit_atomic_plain :
    Atomic Plain.kernel Plain.decode (log (step Plain.kernel Plain.decode) .empty
        [⟨.persist, 7, Plain.uncleaned⟩, ⟨.persist, 8, unfailing⟩, ⟨.clear, 8, unfailing⟩]) ↔
      Spared (log (step Plain.kernel Plain.decode) .empty
        [⟨.persist, 7, Plain.uncleaned⟩, ⟨.persist, 8, unfailing⟩, ⟨.clear, 8, unfailing⟩]) :=
  user_quit_atomic_iff Plain.kernel Plain.decode Own.empty (fun _ => rfl) _

/-- A marker is set and a marker is removed by a call that returns an error, and a process
whose write was not cleaned up never writes the marker again. -/
theorem user_quit_not_atomic :
    (¬ Atomic Plain.kernel Plain.decode (log (step Plain.kernel Plain.decode) .empty
      [⟨.persist, 7, Plain.unsynced⟩])) ∧
    (¬ Atomic Plain.kernel Plain.decode (log (step Plain.kernel Plain.decode) .empty
      [⟨.persist, 7, unfailing⟩, ⟨.clear, 7, Plain.unsynced⟩])) ∧
    ¬ Atomic Plain.kernel Plain.decode (log (step Plain.kernel Plain.decode) .empty
      [⟨.persist, 7, Plain.uncleaned⟩, ⟨.persist, 7, unfailing⟩]) := by
  refine ⟨fun h => ?_, fun h => ?_, fun h => ?_⟩
  · have hanswer := h.unchanged _ (List.mem_singleton_self _) .io (by decide +kernel)
    exact absurd hanswer (by decide +kernel)
  · have hanswer := h.unchanged _ (List.mem_cons_of_mem _ (List.mem_singleton_self _)) .io
      (by decide +kernel)
    exact absurd hanswer (by decide +kernel)
  · have hreply := h.retried [] _ [] _ [] rfl (by decide +kernel) rfl fun _ => rfl
    exact absurd hreply (by decide +kernel)

/-! ## §4  The host's quit -/

/-- What a quit goes through of the desktop app's state. -/
structure Desktop where
  explicitQuit : Bool
  disk : Disk

/-- `persist_user_quit_and_stop`; nothing is returned where the process is gone. `stopped` is
what stopping the local RPC, the scheduler's driver and the runtime comes to. -/
def persistUserQuitAndStop (kernel : Kernel) (faults : Faults) (pid : Nat)
    (stopped : Except String Unit) (desktop : Desktop) : Option (Except String Unit) × Desktop :=
  if desktop.explicitQuit then (some (.ok ()), desktop)
  else
    match persistUserQuit kernel faults pid desktop.disk with
    | (.error (.returned _), disk) =>
        (some (.error "user quit marker unavailable"), { explicitQuit := false, disk })
    | (.error .interrupted, disk) => (none, { explicitQuit := true, disk })
    | (.ok _, disk) => (some stopped, { explicitQuit := true, disk })

/-- The app gives a quit up and goes on under a marker the quit has set, exactly where the
write of the marker is exposed. -/
theorem quit_given_up_under_marker_iff {kernel : Kernel} {faults : Faults} {pid : Nat}
    {stopped : Except String Unit} {desktop : Desktop} (hown : Own kernel desktop.disk)
    (hquit : desktop.explicitQuit = false) :
    ((persistUserQuitAndStop kernel faults pid stopped desktop).2.explicitQuit = false ∧
      (persistUserQuitAndStop kernel faults pid stopped desktop).2.disk.marker.isSome ≠
        desktop.disk.marker.isSome) ↔ PersistExposed faults pid desktop.disk := by
  have h : Persisted kernel faults pid desktop.disk _ _ := persistUserQuit_meets hown
  rw [← h.exposed]
  unfold persistUserQuitAndStop
  rw [if_neg (by rw [hquit]; exact nofun)]
  rcases persistUserQuit kernel faults pid desktop.disk with ⟨(e | _) | ⟨⟩, disk⟩
  · simp
  · simp
  · simp

end UserQuit

end NextInfra
