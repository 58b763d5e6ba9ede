import Mathlib.Data.Nat.Bitwise
import NextInfra.Host.Marker

/-!
# The state directory

On a disk that holds what the routines make (`Own`), every lookup goes through, and the work
on the two directories keeps the marker and the temporary files (`Kept`). It ends with both
directories in place exactly where all of its calls go (`ensureStateDirectory_cases`).
-/

namespace NextInfra

namespace UserQuit

open Bridge (Metadata validateDirectory)
open Attempt (Meets)

/-! ## §1  A disk of one's own -/

namespace Disk

variable (disk : Disk) (pid : Nat)

@[simp] theorem marker_chmod (mode : Nat) (dir : Directory) :
    (disk.chmod mode dir).marker = disk.marker := by
  rcases disk with ⟨_ | ⟨m, _ | s⟩⟩ <;> cases dir <;> rfl

@[simp] theorem temporary_chmod (mode : Nat) (dir : Directory) :
    (disk.chmod mode dir).temporary = disk.temporary := by
  rcases disk with ⟨_ | ⟨m, _ | s⟩⟩ <;> cases dir <;> rfl

theorem metadata_chmod (mode : Nat) (dir other : Directory) :
    (disk.chmod mode dir).metadata other =
      if other = dir then (disk.metadata other).map (withMode · mode) else disk.metadata other := by
  rcases disk with ⟨_ | ⟨m, _ | s⟩⟩ <;> cases dir <;> cases other <;> rfl

theorem metadata_setMarker (entry : Option DirEntry) (dir : Directory) :
    (disk.setMarker entry).metadata dir = disk.metadata dir := by
  rcases disk with ⟨_ | ⟨m, _ | s⟩⟩ <;> cases dir <;> rfl

theorem metadata_setTemporary (entry : Option DirEntry) (dir : Directory) :
    (disk.setTemporary pid entry).metadata dir = disk.metadata dir := by
  rcases disk with ⟨_ | ⟨m, _ | s⟩⟩ <;> cases dir <;> rfl

theorem marker_setTemporary (entry : Option DirEntry) :
    (disk.setTemporary pid entry).marker = disk.marker := by
  rcases disk with ⟨_ | ⟨m, _ | s⟩⟩ <;> rfl

theorem temporary_setMarker (entry : Option DirEntry) :
    (disk.setMarker entry).temporary = disk.temporary := by
  rcases disk with ⟨_ | ⟨m, _ | s⟩⟩ <;> rfl

variable {disk}

theorem marker_setMarker (h : (disk.metadata .stateDir).isSome) (entry : Option DirEntry) :
    (disk.setMarker entry).marker = entry := by
  rcases disk with ⟨_ | ⟨m, _ | s⟩⟩
  · cases h
  · cases h
  · rfl

theorem temporary_setTemporary (h : (disk.metadata .stateDir).isSome) (entry : Option DirEntry) :
    (disk.setTemporary pid entry).temporary = Function.update disk.temporary pid entry := by
  rcases disk with ⟨_ | ⟨m, _ | s⟩⟩
  · cases h
  · cases h
  · funext other
    by_cases hpid : other = pid
    · subst hpid
      simp [Disk.temporary, Disk.stateDir, setTemporary, mapStateDir]
    · simp [Disk.temporary, Disk.stateDir, setTemporary, mapStateDir, hpid]

theorem root_of_stateDir (h : (disk.metadata .stateDir).isSome) : (disk.metadata .root).isSome := by
  rcases disk with ⟨_ | ⟨m, _ | s⟩⟩
  · cases h
  · cases h
  · rfl

theorem marker_of_no_stateDir (h : disk.metadata .stateDir = none) : disk.marker = none := by
  rcases disk with ⟨_ | ⟨m, _ | s⟩⟩
  · rfl
  · rfl
  · cases h

/-- Nothing is lost where a directory is made: it was not there, so it held nothing. -/
theorem mkdir_fresh {m : Metadata} {dir : Directory} (hfree : disk.metadata dir = none)
    (hroot : dir = .stateDir → (disk.metadata .root).isSome) :
    (disk.mkdir m dir).metadata dir = some m ∧ (disk.mkdir m dir).marker = disk.marker ∧
      (disk.mkdir m dir).temporary = disk.temporary ∧
      ∀ other, other ≠ dir → (disk.mkdir m dir).metadata other = disk.metadata other := by
  rcases disk with ⟨_ | ⟨m', _ | s⟩⟩
  · cases dir with
    | root =>
        refine ⟨rfl, rfl, rfl, fun other hother => ?_⟩
        cases other with
        | root => exact absurd rfl hother
        | stateDir => rfl
    | stateDir => cases hroot rfl
  · cases dir with
    | root => cases hfree
    | stateDir =>
        refine ⟨rfl, rfl, rfl, fun other hother => ?_⟩
        cases other with
        | root => rfl
        | stateDir => exact absurd rfl hother
  · cases dir with
    | root => cases hfree
    | stateDir => cases hfree

end Disk

theorem withMode_bits (m : Metadata) : (Disk.withMode m directoryMode).mode &&& 0o7777 = 0o700 := by
  show (m.mode >>> 12 <<< 12 ||| 0o700) &&& (2 ^ 12 - 1) = 0o700
  rw [Nat.and_two_pow_sub_one_eq_mod, Nat.or_mod_two_pow]
  have h : m.mode >>> 12 <<< 12 % 2 ^ 12 = 0 := by
    rw [Nat.shiftLeft_eq]
    exact Nat.mul_mod_left _ _
  rw [h]
  rfl

namespace OwnDirectory

variable {euid : Nat} {m : Metadata}

theorem validate_iff (h : OwnDirectory euid m) :
    validateDirectory euid (some m) = true ↔ m.mode &&& 0o7777 = directoryMode := by
  simp [validateDirectory, h.notSymlink, h.isDir, h.owner, directoryMode]

theorem withMode (h : OwnDirectory euid m) : OwnDirectory euid (Disk.withMode m directoryMode) where
  notSymlink := h.notSymlink
  isDir := h.isDir
  owner := h.owner
  mode := by
    have h₁ := withMode_bits m
    have h₂ : (Disk.withMode m directoryMode).mode &&& 0o700 =
        ((Disk.withMode m directoryMode).mode &&& 0o7777) &&& 0o700 := by
      rw [Nat.and_assoc]
      rfl
    rw [h₂, h₁]
    rfl

end OwnDirectory

/-- What is on the disk is of the routines' making: the directories are the user's, with
every permission of the owner, and in the marker's place is at most a file as they write it. -/
structure Own (kernel : Kernel) (disk : Disk) : Prop where
  directory : ∀ dir m, disk.metadata dir = some m → OwnDirectory kernel.euid m
  marker : ∀ entry, disk.marker = some entry → OwnFile kernel.euid entry.metadata

section

variable {kernel : Kernel} {faults : Faults} {disk : Disk}

namespace Own

theorem empty : Own kernel Disk.empty where
  directory dir m h := by cases dir <;> cases h
  marker entry h := by cases h

theorem inside (h : Own kernel disk) (hdir : (disk.metadata .stateDir).isSome) :
    kernel.inside disk = none := by
  obtain ⟨s, hs⟩ := Option.isSome_iff_exists.mp hdir
  obtain ⟨r, hr⟩ := Option.isSome_iff_exists.mp (Disk.root_of_stateDir hdir)
  unfold Kernel.inside
  rw [hr, hs, kernel.lookup_own r (h.directory _ _ hr), kernel.lookup_own s (h.directory _ _ hs)]
  rfl

theorem reach_stateDir (h : Own kernel disk) (hroot : (disk.metadata .root).isSome) :
    kernel.reach disk .stateDir = none := by
  obtain ⟨r, hr⟩ := Option.isSome_iff_exists.mp hroot
  show kernel.lookup (disk.metadata .root) = none
  rw [hr]
  exact kernel.lookup_own r (h.directory _ _ hr)

end Own

end

/-! ## §2  The state directory -/

/-- The calls `ensure_owner_directory` makes where each of them goes. -/
def directorySites (disk : Disk) (dir : Directory) : List Site :=
  match disk.metadata dir with
  | none => [.lstat dir, .createDirAll dir, .setPermissions dir, .lstatAgain dir]
  | some m =>
      if m.mode &&& 0o7777 = directoryMode then [.lstat dir, .lstatAgain dir]
      else [.lstat dir, .setPermissions dir, .lstatAgain dir]

def stateDirectorySites (disk : Disk) : List Site :=
  directorySites disk .root ++ directorySites disk .stateDir

/-- The work on one directory leaves the rest of the disk alone. -/
structure Reworked (kernel : Kernel) (dir : Directory) (before after : Disk) : Prop where
  own : Own kernel after
  marker : after.marker = before.marker
  temporary : after.temporary = before.temporary
  others : ∀ other, other ≠ dir → after.metadata other = before.metadata other

section

variable {kernel : Kernel} {faults : Faults} {disk : Disk} {dir : Directory}

namespace Reworked

theorem refl (hown : Own kernel disk) : Reworked kernel dir disk disk where
  own := hown
  marker := rfl
  temporary := rfl
  others _ _ := rfl

theorem chmod {after : Disk} (h : Reworked kernel dir disk after) :
    Reworked kernel dir disk (after.chmod directoryMode dir) where
  own := {
    directory := by
      intro other m hm
      rw [Disk.metadata_chmod] at hm
      split at hm
      · obtain ⟨m', hm', rfl⟩ := Option.map_eq_some_iff.mp hm
        exact (h.own.directory other m' hm').withMode
      · exact h.own.directory other m hm
    marker := by
      rw [Disk.marker_chmod]
      exact h.own.marker }
  marker := (Disk.marker_chmod _ _ _).trans h.marker
  temporary := (Disk.temporary_chmod _ _ _).trans h.temporary
  others other hother := by
    rw [Disk.metadata_chmod, if_neg hother]
    exact h.others other hother

theorem mkdir (hown : Own kernel disk) (hfree : disk.metadata dir = none)
    (hroot : dir = .stateDir → (disk.metadata .root).isSome) :
    Reworked kernel dir disk (disk.mkdir (kernel.newDirectory disk) dir) := by
  obtain ⟨hself, hmarker, htemporary, hothers⟩ :=
    Disk.mkdir_fresh (m := kernel.newDirectory disk) hfree hroot
  refine ⟨⟨fun other m hm => ?_, ?_⟩, hmarker, htemporary, hothers⟩
  · by_cases hother : other = dir
    · rw [hother, hself] at hm
      cases hm
      exact kernel.newDirectory_own disk
    · rw [hothers other hother] at hm
      exact hown.directory other m hm
  · rw [hmarker]
    exact hown.marker

end Reworked

/-- What the work on a directory ends with: it has its mode where every call goes. -/
structure Ensured (kernel : Kernel) (faults : Faults) (dir : Directory) (before : Disk)
    (result : Except (Halt IntegrationError) Unit) (after : Disk) : Prop
    extends Reworked kernel dir before after where
  ok_iff : result = .ok () ↔ firstHalt faults.fate (directorySites before dir) = none
  there : result = .ok () → (after.metadata dir).isSome

theorem validateDirectoryAt_meets {Q : Except (Halt IntegrationError) Unit → Disk → Prop}
    {m : Metadata} (hreach : kernel.reach disk dir = none) (hm : disk.metadata dir = some m)
    (hmode : validateDirectory kernel.euid (some m) = true)
    (hgoes : faults.fate (.lstatAgain dir) = .goes → Q (.ok ()) disk)
    (hhalts : faults.fate (.lstatAgain dir) ≠ .goes → ∀ halt, Q (.error halt) disk) :
    Meets (validateDirectoryAt kernel faults dir) disk Q := by
  have heffect : (kernel.lstat dir).effect disk = (.ok m, disk) := by
    simp only [Kernel.lstat, hreach, hm]
  apply SystemCall.meets_must_bind heffect
  · intro h
    rw [if_pos hmode]
    exact Meets.pure (hgoes h)
  · rintro h halt _ (rfl | rfl) <;> exact hhalts h halt

/-- The mode is set, and the directory looked at again. -/
theorem setPermissions_meets {Q : Except (Halt IntegrationError) Unit → Disk → Prop}
    {m : Metadata} (hown : Own kernel disk) (hreach : kernel.reach disk dir = none)
    (hm : disk.metadata dir = some m)
    (hgoes : firstHalt faults.fate [.setPermissions dir, .lstatAgain dir] = none →
      Q (.ok ()) (disk.chmod directoryMode dir))
    (hhalts : firstHalt faults.fate [.setPermissions dir, .lstatAgain dir] ≠ none →
      ∀ halt u, u = disk ∨ u = disk.chmod directoryMode dir → Q (.error halt) u) :
    Meets (do
      io faults (kernel.setPermissions dir directoryMode) (.setPermissions dir)
      validateDirectoryAt kernel faults dir) disk Q := by
  have heffect : (kernel.setPermissions dir directoryMode).effect disk =
      (.ok (), disk.chmod directoryMode dir) := by
    simp only [Kernel.setPermissions, hreach, hm]
  have hm' : (disk.chmod directoryMode dir).metadata dir =
      some (Disk.withMode m directoryMode) := by
    rw [Disk.metadata_chmod, if_pos rfl, hm]
    rfl
  have hreach' : kernel.reach (disk.chmod directoryMode dir) dir = none := by
    cases dir with
    | root => rfl
    | stateDir =>
        show kernel.lookup ((disk.chmod directoryMode .stateDir).metadata .root) = none
        rw [Disk.metadata_chmod, if_neg nofun]
        exact hreach
  apply SystemCall.meets_must_bind heffect
  · intro h
    have hsites : firstHalt faults.fate [.setPermissions dir, .lstatAgain dir] =
        firstHalt faults.fate [.lstatAgain dir] := by
      rw [firstHalt_cons, if_pos h]
    refine validateDirectoryAt_meets hreach' hm' ?_ ?_ ?_
    · exact ((hown.directory dir m hm).withMode.validate_iff).mpr (withMode_bits m)
    · intro h'
      apply hgoes
      rw [hsites, firstHalt_cons, if_pos h']
      rfl
    · intro h' halt
      apply hhalts
      · rw [hsites, firstHalt_cons, if_neg h']
        exact nofun
      · exact .inr rfl
  · intro h halt u hu
    apply hhalts
    · rw [firstHalt_cons, if_neg h]
      exact nofun
    · exact hu

namespace Ensured

/-- A call that does not go leaves a reworked disk and no value. -/
theorem halted {after : Disk} {halt : Halt IntegrationError}
    (h : firstHalt faults.fate (directorySites disk dir) ≠ none)
    (hafter : Reworked kernel dir disk after) : Ensured kernel faults dir disk (.error halt) after :=
  { hafter with ok_iff := iff_of_false nofun h, there := nofun }

/-- The first call is the same whatever is at the path. -/
theorem unseen {halt : Halt IntegrationError} (hown : Own kernel disk)
    (h : faults.fate (.lstat dir) ≠ .goes) : Ensured kernel faults dir disk (.error halt) disk := by
  refine halted ?_ (Reworked.refl hown)
  obtain ⟨rest, hsites⟩ : ∃ rest, directorySites disk dir = .lstat dir :: rest := by
    unfold directorySites
    cases disk.metadata dir with
    | none => exact ⟨_, rfl⟩
    | some m =>
        by_cases hmode : m.mode &&& 0o7777 = directoryMode
        · exact ⟨_, if_pos hmode⟩
        · exact ⟨_, if_neg hmode⟩
  rw [hsites, firstHalt_cons, if_neg h]
  exact nofun

end Ensured

/-- A missing directory is made, and given its mode. -/
theorem ensureOwnerDirectory_missing (hown : Own kernel disk)
    (hreach : kernel.reach disk dir = none) (hm : disk.metadata dir = none)
    (hroot : dir = .stateDir → (disk.metadata .root).isSome) :
    Meets (ensureOwnerDirectory kernel faults dir) disk (Ensured kernel faults dir disk) := by
  have hsites : directorySites disk dir =
      [.lstat dir, .createDirAll dir, .setPermissions dir, .lstatAgain dir] := by
    unfold directorySites
    rw [hm]
  have hlstat : (kernel.lstat dir).effect disk = (.error .notFound, disk) := by
    simp only [Kernel.lstat, hreach, hm]
  have hcreate : (kernel.createDirAll dir).effect disk =
      (.ok (), disk.mkdir (kernel.newDirectory disk) dir) := by
    simp only [Kernel.createDirAll, hreach, hm]
  have hmade := Reworked.mkdir hown hm hroot
  have hself : (disk.mkdir (kernel.newDirectory disk) dir).metadata dir =
      some (kernel.newDirectory disk) := (Disk.mkdir_fresh hm hroot).1
  have hreach' : kernel.reach (disk.mkdir (kernel.newDirectory disk) dir) dir = none := by
    cases dir with
    | root => rfl
    | stateDir =>
        apply hmade.own.reach_stateDir
        rw [hmade.others .root nofun]
        exact hroot rfl
  apply SystemCall.meets_run_bind hlstat rfl
  · intro hseen
    have hrest : firstHalt faults.fate (directorySites disk dir) =
        firstHalt faults.fate [.createDirAll dir, .setPermissions dir, .lstatAgain dir] := by
      rw [hsites, firstHalt_cons, if_pos hseen]
    apply SystemCall.meets_must_bind hcreate
    · intro hcreated
      rw [firstHalt_cons, if_pos hcreated] at hrest
      apply setPermissions_meets hmade.own hreach' hself
      · intro hset
        refine { hmade.chmod with ok_iff := iff_of_true rfl (hrest.trans hset), there := fun _ => ?_ }
        rw [Disk.metadata_chmod, if_pos rfl, hself]
        rfl
      · rintro hset halt u (rfl | rfl)
        · exact Ensured.halted (hrest ▸ hset) hmade
        · exact Ensured.halted (hrest ▸ hset) hmade.chmod
    · intro hcreated halt u hu
      rw [firstHalt_cons, if_neg hcreated] at hrest
      have hsome : firstHalt faults.fate (directorySites disk dir) ≠ none := by
        rw [hrest]
        exact nofun
      rcases hu with rfl | rfl
      · exact Ensured.halted hsome (Reworked.refl hown)
      · exact Ensured.halted hsome hmade
  · intro h
    exact Ensured.unseen hown (by rw [h]; exact nofun)
  · intro h
    exact Ensured.unseen hown (Fate.ne_goes_of_lives h)

/-- A directory of one's own is kept, and given its mode where it has another. -/
theorem ensureOwnerDirectory_there {m : Metadata} (hown : Own kernel disk)
    (hreach : kernel.reach disk dir = none) (hm : disk.metadata dir = some m) :
    Meets (ensureOwnerDirectory kernel faults dir) disk (Ensured kernel faults dir disk) := by
  have hdir := hown.directory dir m hm
  have hlstat : (kernel.lstat dir).effect disk = (.ok m, disk) := by
    simp only [Kernel.lstat, hreach, hm]
  apply SystemCall.meets_run_bind hlstat rfl
  · intro hseen
    have hmine : ¬ (m.isSymlink || !m.isDir || decide (m.uid ≠ kernel.euid)) = true := by
      simp [hdir.notSymlink, hdir.isDir, hdir.owner]
    apply Meets.ite (fun h => absurd h hmine)
    intro _
    by_cases hmode : m.mode &&& 0o7777 = directoryMode
    · have hrest : firstHalt faults.fate (directorySites disk dir) =
          firstHalt faults.fate [.lstatAgain dir] := by
        unfold directorySites
        simp only [hm, if_pos hmode]
        rw [firstHalt_cons, if_pos hseen]
      rw [if_neg (not_not.mpr hmode)]
      rw [firstHalt_cons] at hrest
      apply validateDirectoryAt_meets hreach hm (hdir.validate_iff.mpr hmode)
      · intro h
        rw [if_pos h] at hrest
        refine { Reworked.refl hown with ok_iff := iff_of_true rfl hrest, there := fun _ => ?_ }
        rw [hm]
        rfl
      · intro h halt
        rw [if_neg h] at hrest
        refine Ensured.halted ?_ (Reworked.refl hown)
        rw [hrest]
        exact nofun
    · have hrest : firstHalt faults.fate (directorySites disk dir) =
          firstHalt faults.fate [.setPermissions dir, .lstatAgain dir] := by
        unfold directorySites
        simp only [hm, if_neg hmode]
        rw [firstHalt_cons, if_pos hseen]
      rw [if_pos hmode]
      apply setPermissions_meets hown hreach hm
      · intro h
        refine { (Reworked.refl hown).chmod with
          ok_iff := iff_of_true rfl (hrest.trans h), there := fun _ => ?_ }
        rw [Disk.metadata_chmod, if_pos rfl, hm]
        rfl
      · rintro h halt u (rfl | rfl)
        · exact Ensured.halted (hrest ▸ h) (Reworked.refl hown)
        · exact Ensured.halted (hrest ▸ h) (Reworked.refl hown).chmod
  · intro h
    exact Ensured.unseen hown (by rw [h]; exact nofun)
  · intro h
    exact Ensured.unseen hown (Fate.ne_goes_of_lives h)

theorem ensureOwnerDirectory_meets (hown : Own kernel disk)
    (hroot : dir = .stateDir → (disk.metadata .root).isSome) :
    Meets (ensureOwnerDirectory kernel faults dir) disk (Ensured kernel faults dir disk) := by
  have hreach : kernel.reach disk dir = none := by
    cases dir with
    | root => rfl
    | stateDir => exact hown.reach_stateDir (hroot rfl)
  cases hm : disk.metadata dir with
  | none => exact ensureOwnerDirectory_missing hown hreach hm hroot
  | some m => exact ensureOwnerDirectory_there hown hreach hm

end

/-- Both directories may be made or changed, what they hold is not. -/
structure Kept (kernel : Kernel) (before after : Disk) : Prop where
  own : Own kernel after
  marker : after.marker = before.marker
  temporary : after.temporary = before.temporary

section

variable {kernel : Kernel} {disk : Disk}

/-- The work on the state directory ends with both directories in place, or at the first
call that does not go. -/
theorem ensureStateDirectory_cases (faults : Faults) (hown : Own kernel disk) :
    ∃ result ready, ensureStateDirectory kernel faults disk = (result, ready) ∧
      Kept kernel disk ready ∧
      (result = .ok () ↔ firstHalt faults.fate (stateDirectorySites disk) = none) ∧
      (result = .ok () → (ready.metadata .stateDir).isSome) := by
  have hroot : Meets (ensureOwnerDirectory kernel faults .root) disk
      (Ensured kernel faults .root disk) := ensureOwnerDirectory_meets hown nofun
  unfold ensureStateDirectory
  rw [Attempt.bind_apply]
  unfold Meets at hroot
  rcases hrun : ensureOwnerDirectory kernel faults .root disk with ⟨halt | ⟨⟩, mid⟩
  · rw [hrun] at hroot
    refine ⟨.error halt, mid, rfl, ⟨hroot.own, hroot.marker, hroot.temporary⟩, ?_, nofun⟩
    refine iff_of_false nofun fun h => ?_
    unfold stateDirectorySites at h
    rw [firstHalt_append, Option.or_eq_none_iff] at h
    exact absurd (hroot.ok_iff.mpr h.1) nofun
  · rw [hrun] at hroot
    have hstate : Meets (ensureOwnerDirectory kernel faults .stateDir) mid
        (Ensured kernel faults .stateDir mid) :=
      ensureOwnerDirectory_meets hroot.own fun _ => hroot.there rfl
    unfold Meets at hstate
    rcases hrun' : ensureOwnerDirectory kernel faults .stateDir mid with ⟨result, ready⟩
    rw [hrun'] at hstate
    refine ⟨result, ready, hrun', ⟨hstate.own, hstate.marker.trans hroot.marker,
      hstate.temporary.trans hroot.temporary⟩, ?_, hstate.there⟩
    have hsites : directorySites mid .stateDir = directorySites disk .stateDir := by
      unfold directorySites
      rw [hroot.others .stateDir nofun]
    rw [hstate.ok_iff, hsites]
    unfold stateDirectorySites
    rw [firstHalt_append, hroot.ok_iff.mp rfl]
    rfl

end

end UserQuit

end NextInfra
