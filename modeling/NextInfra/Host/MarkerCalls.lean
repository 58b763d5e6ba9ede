import NextInfra.Host.StateDirectory

/-!
# What one call does to the marker

A write ends with its temporary file in place (`Staged`), in the marker's place (`Moved`) or
cleaned up; which of these it is, and what the call returns, is read off the first of its
calls that does not go (`Persisted`, `Cleared`).

An error is not always the end of a call that changed nothing: the directory is synced after
the marker is renamed or removed (`PersistExposed`, `ClearExposed`). And a write neither
finished nor cleaned up leaves its temporary file in the way of later ones
(`PersistStrands`).
-/

namespace NextInfra

namespace UserQuit

open Attempt (Meets)
open SystemCall (cleaning)

/-! ## §1  Writing the marker -/

section

variable (faults : Faults)

/-- Opening the state directory or syncing it is what fails. -/
def SyncFails : Prop :=
  ∃ site, firstHalt faults.fate [.openDirectory, .syncDirectory] = some site ∧
    faults.fate site = .fails

def Uncleaned : Prop :=
  faults.fate .removeTemporary = .fails ∨ faults.fate .removeTemporary = .stopsBefore

/-- A write whose first call not to go is the one at the site leaves its temporary file. -/
def Leaves : Site → Prop
  | .openTemporary => faults.fate .openTemporary = .stopsAfter
  | .write => (faults.fate .write).lives = false ∨ Uncleaned faults
  | .syncFile => (faults.fate .syncFile).lives = false ∨ Uncleaned faults
  | .rename =>
      faults.fate .rename = .stopsBefore ∨ faults.fate .rename = .fails ∧ Uncleaned faults
  | _ => False

end

/-- The temporary file is there, and the marker as it was. -/
structure Staged (kernel : Kernel) (pid : Nat) (before after : Disk) : Prop where
  own : Own kernel after
  there : (after.metadata .stateDir).isSome
  marker : after.marker = before.marker
  temporary : ∃ entry, OwnFile kernel.euid entry.metadata ∧
    after.temporary = Function.update before.temporary pid (some entry)

/-- The temporary file has become the marker. -/
structure Moved (kernel : Kernel) (pid : Nat) (before after : Disk) : Prop where
  own : Own kernel after
  there : (after.metadata .stateDir).isSome
  marker : after.marker.isSome
  temporary : after.temporary = Function.update before.temporary pid none

section

variable {kernel : Kernel} {faults : Faults} {pid : Nat} {before disk : Disk}

namespace Own

theorem setTemporary (h : Own kernel disk) (entry : Option DirEntry) :
    Own kernel (disk.setTemporary pid entry) where
  directory dir m hm := by
    rw [Disk.metadata_setTemporary] at hm
    exact h.directory dir m hm
  marker := by
    rw [Disk.marker_setTemporary]
    exact h.marker

theorem setMarker (h : Own kernel disk) (hthere : (disk.metadata .stateDir).isSome)
    {entry : Option DirEntry} (hfile : ∀ e, entry = some e → OwnFile kernel.euid e.metadata) :
    Own kernel (disk.setMarker entry) where
  directory dir m hm := by
    rw [Disk.metadata_setMarker] at hm
    exact h.directory dir m hm
  marker := by
    rw [Disk.marker_setMarker hthere]
    exact hfile

end Own

namespace Staged

theorem opened (hown : Own kernel disk) (hthere : (disk.metadata .stateDir).isSome) :
    Staged kernel pid disk (disk.setTemporary pid (some ⟨kernel.newFile disk, ""⟩)) where
  own := hown.setTemporary _
  there := by
    rw [Disk.metadata_setTemporary]
    exact hthere
  marker := Disk.marker_setTemporary disk pid _
  temporary := ⟨_, kernel.newFile_own disk, Disk.temporary_setTemporary pid hthere _⟩

/-- Writing changes the text of the temporary file. -/
theorem rewritten (h : Staged kernel pid before disk) (text : String) :
    Staged kernel pid before (disk.setTemporary pid
      ((disk.temporary pid).map fun entry => { entry with content := text })) := by
  obtain ⟨entry, hfile, htemporary⟩ := h.temporary
  refine ⟨h.own.setTemporary _, ?_, (Disk.marker_setTemporary disk pid _).trans h.marker,
    { entry with content := text }, hfile, ?_⟩
  · rw [Disk.metadata_setTemporary]
    exact h.there
  · rw [Disk.temporary_setTemporary pid h.there, htemporary, Function.update_self,
      Function.update_idem]
    rfl

theorem temporary_iff (h : Staged kernel pid before disk) (other : Nat) :
    disk.temporary other ≠ none ↔ before.temporary other ≠ none ∨ other = pid := by
  obtain ⟨entry, _, htemporary⟩ := h.temporary
  rw [htemporary]
  by_cases hpid : other = pid
  · subst hpid
    simp
  · simp [hpid]

theorem rename (h : Staged kernel pid before disk) :
    ∃ moved, (kernel.rename pid).effect disk = (.ok (), moved) ∧ Moved kernel pid before moved := by
  obtain ⟨entry, hfile, htemporary⟩ := h.temporary
  have hdir : ¬ disk.marker.any (·.metadata.isDir) = true := by
    cases hm : disk.marker with
    | none => exact nofun
    | some old =>
        rw [Option.any_some, (h.own.marker old hm).notDir]
        exact nofun
  have hthere : ((disk.setTemporary pid none).metadata .stateDir).isSome := by
    rw [Disk.metadata_setTemporary]
    exact h.there
  refine ⟨(disk.setTemporary pid none).setMarker (some entry), ?_, ?_, ?_, ?_, ?_⟩
  · have hentry : disk.temporary pid = some entry := by rw [htemporary, Function.update_self]
    simp only [Kernel.rename, h.own.inside h.there, hentry, if_neg hdir]
  · apply (h.own.setTemporary none).setMarker hthere
    rintro _ ⟨⟩
    exact hfile
  · rw [Disk.metadata_setMarker]
    exact hthere
  · rw [Disk.marker_setMarker hthere]
    rfl
  · rw [Disk.temporary_setMarker, Disk.temporary_setTemporary pid h.there, htemporary,
      Function.update_idem]

end Staged

theorem openDirectory_effect (hinside : kernel.inside disk = none) :
    kernel.openDirectory.effect disk = (.ok (), disk) := by
  simp only [Kernel.openDirectory, hinside]

theorem syncDirectory_goes (hinside : kernel.inside disk = none)
    (h : firstHalt faults.fate [.openDirectory, .syncDirectory] = none) :
    syncDirectory kernel faults disk = (.ok (), disk) := by
  obtain ⟨hopen, h⟩ := firstHalt_cons_eq_none.mp h
  obtain ⟨hsync, _⟩ := firstHalt_cons_eq_none.mp h
  unfold syncDirectory io
  rw [SystemCall.must_goes _ (openDirectory_effect hinside) hopen, SystemCall.must_last]
  exact SystemCall.must_goes _ rfl hsync

theorem syncDirectory_halts {site : Site} (hinside : kernel.inside disk = none)
    (h : firstHalt faults.fate [.openDirectory, .syncDirectory] = some site) :
    syncDirectory kernel faults disk = (.error ((faults.fate site).halt .io), disk) := by
  unfold syncDirectory io
  rcases firstHalt_cons_eq_some.mp h with ⟨hopen, rfl⟩ | ⟨hopen, h⟩
  · rw [SystemCall.must_halts _ hopen, openDirectory_effect hinside]
    exact congrArg (Prod.mk _) (ite_self disk)
  rcases firstHalt_cons_eq_some.mp h with ⟨hsync, rfl⟩ | ⟨_, h⟩
  · rw [SystemCall.must_goes _ (openDirectory_effect hinside) hopen, SystemCall.must_last,
      SystemCall.must_halts _ hsync]
    exact congrArg (Prod.mk _) (ite_self disk)
  · cases h

theorem syncDirectory_meets (faults : Faults) (hinside : kernel.inside disk = none) :
    Meets (syncDirectory kernel faults) disk fun result after => after = disk ∧
      (result = .ok () ↔ firstHalt faults.fate [.openDirectory, .syncDirectory] = none) ∧
      ((∃ e, result = .error (.returned e)) ↔ SyncFails faults) := by
  unfold Meets SyncFails
  cases hsync : firstHalt faults.fate [.openDirectory, .syncDirectory] with
  | none =>
      rw [syncDirectory_goes hinside hsync]
      simp
  | some site =>
      rw [syncDirectory_halts hinside hsync]
      refine ⟨rfl, iff_of_false nofun nofun, ?_⟩
      have hhalts := halts_of_firstHalt hsync
      cases hfate : faults.fate site <;> simp_all [Fate.halt]

/-- The three calls that put the marker in place, and then the sync of its directory; or
the first of the three that does not go, with the temporary file where it was unless the
process ends right after the rename. -/
theorem publish_cases (faults : Faults) (h : Staged kernel pid before disk) :
    (firstHalt faults.fate [.write, .syncFile, .rename] = none ∧
      ∃ moved, Moved kernel pid before moved ∧
        publish kernel faults pid disk = syncDirectory kernel faults moved) ∨
    ∃ site after, firstHalt faults.fate [.write, .syncFile, .rename] = some site ∧
      publish kernel faults pid disk = (.error ((faults.fate site).halt .io), after) ∧
      (site = .write ∨ site = .syncFile ∨ site = .rename) ∧
      if site = .rename ∧ faults.fate site = .stopsAfter then Moved kernel pid before after
      else Staged kernel pid before after := by
  unfold publish io
  by_cases hwrite : faults.fate .write = .goes
  swap
  · refine .inr ⟨.write, _, ?_, SystemCall.must_halts _ hwrite, .inl rfl, ?_⟩
    · rw [firstHalt_cons, if_neg hwrite]
    · rw [if_neg (by exact nofun)]
      split
      · exact h.rewritten _
      · exact h.rewritten _
  rw [SystemCall.must_goes _ rfl hwrite, firstHalt_cons, if_pos hwrite]
  have hwritten := h.rewritten markerText
  revert hwritten
  generalize disk.setTemporary pid _ = written
  intro hwritten
  by_cases hsync : faults.fate .syncFile = .goes
  swap
  · refine .inr ⟨.syncFile, written, ?_, ?_, .inr (.inl rfl), ?_⟩
    · rw [firstHalt_cons, if_neg hsync]
    · rw [SystemCall.must_halts _ hsync]
      exact congrArg (Prod.mk _) (ite_self written)
    · rw [if_neg (by exact nofun)]
      exact hwritten
  rw [SystemCall.must_goes _ rfl hsync, firstHalt_cons, if_pos hsync]
  obtain ⟨moved, hrename, hmoved⟩ := hwritten.rename
  by_cases hgoes : faults.fate .rename = .goes
  · refine .inl ⟨?_, moved, hmoved, SystemCall.must_goes _ hrename hgoes⟩
    rw [firstHalt_cons, if_pos hgoes]
    rfl
  · refine .inr ⟨.rename, _, ?_, SystemCall.must_halts _ hgoes, .inr (.inr rfl), ?_⟩
    · rw [firstHalt_cons, if_neg hgoes]
    · rw [hrename]
      by_cases hafter : faults.fate .rename = .stopsAfter
      · rw [if_pos ⟨rfl, hafter⟩, if_pos hafter]
        exact hmoved
      · rw [if_neg (fun hand => hafter hand.2), if_neg hafter]
        exact hwritten

/-- What is left of the temporary file once the cleaning call was made. -/
theorem removeTemporary_staged (h : Staged kernel pid before disk) :
    ∃ after, (kernel.removeTemporary pid).effect disk = (.ok (), after) ∧ Own kernel after ∧
      after.marker = before.marker ∧ after.temporary = Function.update before.temporary pid none := by
  obtain ⟨entry, hfile, htemporary⟩ := h.temporary
  have hentry : disk.temporary pid = some entry := by rw [htemporary, Function.update_self]
  have hfile' : ¬ entry.metadata.isDir = true := by
    rw [hfile.notDir]
    exact nofun
  refine ⟨disk.setTemporary pid none, ?_, h.own.setTemporary none,
    (Disk.marker_setTemporary disk pid none).trans h.marker, ?_⟩
  · simp only [Kernel.removeTemporary, h.own.inside h.there, hentry, if_neg hfile']
  · rw [Disk.temporary_setTemporary pid h.there, htemporary, Function.update_idem]

/-- After the rename there is nothing to clean up. -/
theorem removeTemporary_moved (h : Moved kernel pid before disk) :
    (kernel.removeTemporary pid).effect disk = (.error .notFound, disk) := by
  have hnone : disk.temporary pid = none := by rw [h.temporary, Function.update_self]
  simp only [Kernel.removeTemporary, h.own.inside h.there, hnone]

/-- The end of a write that has opened its temporary file. -/
structure Published (kernel : Kernel) (faults : Faults) (pid : Nat) (before : Disk)
    (result : Except (Halt IntegrationError) Unit) (after : Disk) : Prop where
  own : Own kernel after
  temporary : ∀ other, after.temporary other ≠ none ↔ before.temporary other ≠ none ∨
    other = pid ∧ ∃ site, firstHalt faults.fate [.write, .syncFile, .rename] = some site ∧
      Leaves faults site
  ok_iff : result = .ok () ↔
    firstHalt faults.fate [.write, .syncFile, .rename, .openDirectory, .syncDirectory] = none
  suppressed : result = .ok () → after.marker.isSome
  exposed : ((∃ e, result = .error (.returned e)) ∧ after.marker.isSome ≠ before.marker.isSome) ↔
    before.marker = none ∧ firstHalt faults.fate [.write, .syncFile, .rename] = none ∧
      SyncFails faults ∧ (faults.fate .removeTemporary).lives = true

theorem firstHalt_publish {fate : Site → Fate} :
    firstHalt fate [.write, .syncFile, .rename, .openDirectory, .syncDirectory] =
      (firstHalt fate [.write, .syncFile, .rename]).or
        (firstHalt fate [.openDirectory, .syncDirectory]) := by
  show firstHalt fate ([Site.write, .syncFile, .rename] ++ [.openDirectory, .syncDirectory]) = _
  exact firstHalt_append

theorem leaves_iff {site : Site} (hthree : site = .write ∨ site = .syncFile ∨ site = .rename)
    (hhalts : faults.fate site ≠ .goes) :
    Leaves faults site ↔ faults.fate site = .stopsBefore ∨
      faults.fate site = .stopsAfter ∧ site ≠ .rename ∨
      faults.fate site = .fails ∧ Uncleaned faults := by
  rcases hthree with rfl | rfl | rfl
  · unfold Leaves
    cases h : faults.fate .write <;> simp_all [Fate.lives]
  · unfold Leaves
    cases h : faults.fate .syncFile <;> simp_all [Fate.lives]
  · unfold Leaves
    simp

/-- What is exposed is so only after all three calls that put the marker in place. -/
theorem Published.short {site : Site} {halt : Halt IntegrationError} {after : Disk}
    (hsite : firstHalt faults.fate [.write, .syncFile, .rename] = some site)
    (hown : Own kernel after)
    (hmarker : ∀ e, halt = .returned e → after.marker = before.marker)
    (htemporary : ∀ other, after.temporary other ≠ none ↔
      before.temporary other ≠ none ∨ other = pid ∧ Leaves faults site) :
    Published kernel faults pid before (.error halt) after where
  own := hown
  temporary other := by
    rw [htemporary, hsite]
    simp only [Option.some_inj, exists_eq_left']
  ok_iff := by
    rw [firstHalt_publish, hsite]
    exact iff_of_false nofun nofun
  suppressed := nofun
  exposed := by
    refine iff_of_false ?_ ?_
    · rintro ⟨⟨e, he⟩, hne⟩
      exact hne (congrArg Option.isSome (hmarker e (Except.error.inj he)))
    · rintro ⟨_, hnone, _⟩
      rw [hsite] at hnone
      cases hnone

theorem Published.late {result : Except (Halt IntegrationError) Unit} {after : Disk}
    (hnone : firstHalt faults.fate [.write, .syncFile, .rename] = none)
    (hmoved : Moved kernel pid before after) (hfree : before.temporary pid = none)
    (hok : result = .ok () ↔ firstHalt faults.fate [.openDirectory, .syncDirectory] = none)
    (hreturned : (∃ e, result = .error (.returned e)) ↔
      SyncFails faults ∧ (faults.fate .removeTemporary).lives = true) :
    Published kernel faults pid before result after where
  own := hmoved.own
  temporary other := by
    rw [hmoved.temporary, ← hfree, Function.update_eq_self, hnone]
    simp
  ok_iff := by
    rw [firstHalt_publish, hnone]
    exact hok
  suppressed _ := hmoved.marker
  exposed := by
    rw [hreturned, hmoved.marker, and_comm, hnone]
    cases before.marker with
    | none => simp
    | some entry => simp

section

variable {after moved : Disk}

/-- The marker is in place: the sync of its directory decides what is returned. -/
theorem publish_late (hnone : firstHalt faults.fate [.write, .syncFile, .rename] = none)
    (hmoved : Moved kernel pid before moved) (hfree : before.temporary pid = none)
    (hpublish : publish kernel faults pid disk = syncDirectory kernel faults moved) :
    Meets (cleaning (publish kernel faults pid)
        (io faults (kernel.removeTemporary pid) .removeTemporary)) disk
      (Published kernel faults pid before) := by
  have hsynced := syncDirectory_meets faults (hmoved.own.inside hmoved.there)
  unfold Meets at hsynced ⊢
  rcases hrun : syncDirectory kernel faults moved with ⟨result, synced⟩
  rw [hrun] at hpublish hsynced
  obtain ⟨hafter, hok, hreturned⟩ := hsynced
  dsimp only at hafter hok hreturned
  subst hafter
  rcases result with (e | _) | ⟨⟩
  · -- the temporary name is free again, and the marker is not taken back
    unfold io
    rw [SystemCall.cleaning_must hpublish, removeTemporary_moved hmoved]
    show Published _ _ _ _ _ (ite _ synced synced)
    rw [ite_self]
    refine .late hnone hmoved hfree (iff_of_false nofun fun h => absurd (hok.mpr h) nofun) ?_
    cases (faults.fate .removeTemporary).lives with
    | true => exact iff_of_true ⟨e, rfl⟩ ⟨hreturned.mp ⟨e, rfl⟩, rfl⟩
    | false => exact iff_of_false nofun nofun
  · rw [SystemCall.cleaning_interrupted hpublish]
    refine .late hnone hmoved hfree (iff_of_false nofun fun h => absurd (hok.mpr h) nofun) ?_
    exact iff_of_false nofun fun h => absurd (hreturned.mpr h.1) nofun
  · rw [SystemCall.cleaning_ok hpublish]
    refine .late hnone hmoved hfree (iff_of_true rfl (hok.mp rfl)) ?_
    exact iff_of_false nofun fun h => absurd (hreturned.mpr h.1) nofun

/-- The marker is not in place: the temporary file is cleaned up, or it stays. -/
theorem publish_short {site : Site}
    (hsite : firstHalt faults.fate [.write, .syncFile, .rename] = some site)
    (hfree : before.temporary pid = none)
    (hpublish : publish kernel faults pid disk =
      (.error ((faults.fate site).halt .io), after))
    (hthree : site = .write ∨ site = .syncFile ∨ site = .rename)
    (hafter : if site = .rename ∧ faults.fate site = .stopsAfter then Moved kernel pid before after
      else Staged kernel pid before after) :
    Meets (cleaning (publish kernel faults pid)
        (io faults (kernel.removeTemporary pid) .removeTemporary)) disk
      (Published kernel faults pid before) := by
  have hkept : ∀ other, (Function.update before.temporary pid none) other ≠ none ↔
      before.temporary other ≠ none := by
    intro other
    rw [← hfree, Function.update_eq_self]
  unfold Meets
  have hhalts := halts_of_firstHalt hsite
  have hleaves := leaves_iff hthree hhalts
  by_cases hfails : faults.fate site = .fails
  · rw [hfails] at hpublish hafter
    rw [if_neg (by simp)] at hafter
    obtain ⟨gone, heffect, hown, hmarker, htemporary⟩ := removeTemporary_staged hafter
    unfold io
    rw [SystemCall.cleaning_must hpublish, heffect]
    by_cases hclean : faults.fate .removeTemporary = .goes ∨
        faults.fate .removeTemporary = .stopsAfter
    · rw [if_pos hclean]
      have hgone : ¬ Leaves faults site := by
        rw [hleaves, hfails]
        rcases hclean with h | h <;> simp [Uncleaned, h]
      refine .short hsite hown (fun _ _ => hmarker) fun other => ?_
      rw [htemporary, hkept]
      simp only [hgone, and_false, or_false]
    · rw [if_neg hclean]
      have hunclean : Uncleaned faults := by
        unfold Uncleaned
        cases h : faults.fate .removeTemporary with
        | goes => exact absurd (.inl h) hclean
        | fails => exact .inl rfl
        | stopsBefore => exact .inr rfl
        | stopsAfter => exact absurd (.inr h) hclean
      have hleft : Leaves faults site := hleaves.mpr (.inr (.inr ⟨hfails, hunclean⟩))
      refine .short hsite hafter.own (fun _ _ => hafter.marker) fun other => ?_
      show after.temporary other ≠ none ↔ _
      rw [hafter.temporary_iff]
      simp only [hleft, and_true]
  · -- the process is gone: nothing is cleaned up
    rw [Fate.halt_of_ne hfails] at hpublish
    rw [SystemCall.cleaning_interrupted hpublish]
    split at hafter
    · rename_i hmoved
      have hgone : ¬ Leaves faults site := by
        rw [hleaves, hmoved.2]
        simp [hmoved.1]
      refine .short hsite hafter.own nofun fun other => ?_
      rw [hafter.temporary, hkept]
      simp only [hgone, and_false, or_false]
    · rename_i hstill
      have hleft : Leaves faults site := by
        apply hleaves.mpr
        cases hfate : faults.fate site with
        | goes => exact absurd hfate hhalts
        | fails => exact absurd hfate hfails
        | stopsBefore => exact .inl rfl
        | stopsAfter => exact .inr (.inl ⟨rfl, fun hrename => hstill ⟨hrename, hfate⟩⟩)
      refine .short hsite hafter.own nofun fun other => ?_
      rw [hafter.temporary_iff]
      simp only [hleft, and_true]

end

theorem publish_meets (h : Staged kernel pid before disk) (hfree : before.temporary pid = none) :
    Meets (cleaning (publish kernel faults pid)
        (io faults (kernel.removeTemporary pid) .removeTemporary)) disk
      (Published kernel faults pid before) := by
  rcases publish_cases faults h with
    ⟨hnone, moved, hmoved, hpublish⟩ | ⟨site, after, hsite, hpublish, hthree, hafter⟩
  · exact publish_late hnone hmoved hfree hpublish
  · exact publish_short hsite hfree hpublish hthree hafter

end

/-! ## §2  One call of each -/

/-- The calls of `persist_user_quit` up to the one that sets the marker. -/
def persistSites (disk : Disk) : List Site :=
  stateDirectorySites disk ++ [.openTemporary, .write, .syncFile, .rename]

def clearSites (disk : Disk) : List Site :=
  stateDirectorySites disk ++ [.lstatMarker, .removeMarker]

/-- The marker is set, then the call returns an error. -/
def PersistExposed (faults : Faults) (pid : Nat) (disk : Disk) : Prop :=
  disk.marker = none ∧ disk.temporary pid = none ∧
    firstHalt faults.fate (persistSites disk) = none ∧ SyncFails faults ∧
    (faults.fate .removeTemporary).lives = true

/-- The marker is removed, then the call returns an error. -/
def ClearExposed (faults : Faults) (disk : Disk) : Prop :=
  disk.marker ≠ none ∧ firstHalt faults.fate (clearSites disk) = none ∧
    (faults.fate .lstatMarkerAgain).lives = true ∧ SyncFails faults

/-- The temporary file is made and stays. -/
def PersistStrands (faults : Faults) (pid : Nat) (disk : Disk) : Prop :=
  disk.temporary pid = none ∧
    ∃ site, firstHalt faults.fate (persistSites disk) = some site ∧ Leaves faults site

structure Persisted (kernel : Kernel) (faults : Faults) (pid : Nat) (before : Disk)
    (result : Except (Halt IntegrationError) Unit) (after : Disk) : Prop where
  own : Own kernel after
  temporary : ∀ other, after.temporary other ≠ none ↔
    before.temporary other ≠ none ∨ other = pid ∧ PersistStrands faults pid before
  ok_iff : result = .ok () ↔ before.temporary pid = none ∧
    firstHalt faults.fate (persistSites before ++ [.openDirectory, .syncDirectory]) = none
  suppressed : result = .ok () → after.marker.isSome
  exposed : ((∃ e, result = .error (.returned e)) ∧ after.marker.isSome ≠ before.marker.isSome) ↔
    PersistExposed faults pid before

structure Cleared (kernel : Kernel) (faults : Faults) (before : Disk)
    (result : Except (Halt IntegrationError) Unit) (after : Disk) : Prop where
  own : Own kernel after
  temporary : after.temporary = before.temporary
  ok_of_goes : (∀ site, faults.fate site = .goes) → result = .ok ()
  cleared : result = .ok () → after.marker = none
  exposed : ((∃ e, result = .error (.returned e)) ∧ after.marker.isSome ≠ before.marker.isSome) ↔
    ClearExposed faults before

section

variable {kernel : Kernel} {faults : Faults} {pid : Nat} {disk : Disk}

theorem not_leaves_of_mem {site : Site} (h : site ∈ stateDirectorySites disk) :
    ¬ Leaves faults site := by
  have hdirectory : ∀ dir, site ∈ directorySites disk dir → ¬ Leaves faults site := by
    intro dir hmem
    unfold directorySites at hmem
    split at hmem
    · simp only [List.mem_cons, List.not_mem_nil, or_false] at hmem
      rcases hmem with rfl | rfl | rfl | rfl <;> exact not_false
    · split at hmem
      · simp only [List.mem_cons, List.not_mem_nil, or_false] at hmem
        rcases hmem with rfl | rfl <;> exact not_false
      · simp only [List.mem_cons, List.not_mem_nil, or_false] at hmem
        rcases hmem with rfl | rfl | rfl <;> exact not_false
  rcases List.mem_append.mp h with h | h
  · exact hdirectory .root h
  · exact hdirectory .stateDir h

/-- A call that ends before it has a file of its own. -/
theorem Persisted.refused {halt : Halt IntegrationError} {after : Disk}
    (hkept : Kept kernel disk after)
    (hstrands : ¬ PersistStrands faults pid disk)
    (hshort : disk.temporary pid = none → firstHalt faults.fate (persistSites disk) ≠ none) :
    Persisted kernel faults pid disk (.error halt) after where
  own := hkept.own
  temporary other := by
    rw [hkept.temporary]
    simp only [hstrands, and_false, or_false]
  ok_iff := by
    refine iff_of_false nofun ?_
    rintro ⟨hfree, hnone⟩
    rw [firstHalt_append, Option.or_eq_none_iff] at hnone
    exact hshort hfree hnone.1
  suppressed := nofun
  exposed := by
    refine iff_of_false ?_ ?_
    · rintro ⟨_, hne⟩
      exact hne (congrArg Option.isSome hkept.marker)
    · rintro ⟨_, hfree, hnone, _⟩
      exact hshort hfree hnone

/-- A process that ends with its temporary file open has neither set the marker nor
returned. -/
theorem Persisted.stranded {ready after : Disk} (hkept : Kept kernel disk ready)
    (hstaged : Staged kernel pid ready after) (hstrands : PersistStrands faults pid disk)
    (hshort : firstHalt faults.fate (persistSites disk) ≠ none) :
    Persisted kernel faults pid disk (.error .interrupted) after where
  own := hstaged.own
  temporary other := by
    rw [hstaged.temporary_iff, hkept.temporary]
    simp only [hstrands, and_true]
  ok_iff := by
    refine iff_of_false nofun ?_
    rintro ⟨_, hnone⟩
    rw [firstHalt_append, Option.or_eq_none_iff] at hnone
    exact hshort hnone.1
  suppressed := nofun
  exposed := by
    refine iff_of_false ?_ ?_
    · rintro ⟨⟨_, h⟩, _⟩
      cases h
    · rintro ⟨_, _, hnone, _⟩
      exact hshort hnone

/-- What the directories had to be made ready for does not show in what follows. -/
theorem Persisted.published {ready after : Disk} {result : Except (Halt IntegrationError) Unit}
    (hkept : Kept kernel disk ready)
    (hsites : ∀ rest, firstHalt faults.fate (stateDirectorySites disk ++ .openTemporary :: rest) =
      firstHalt faults.fate rest)
    (hfree : disk.temporary pid = none) (h : Published kernel faults pid ready result after) :
    Persisted kernel faults pid disk result after where
  own := h.own
  temporary other := by
    rw [h.temporary, hkept.temporary]
    unfold PersistStrands persistSites
    rw [hsites]
    simp only [hfree, true_and]
  ok_iff := by
    rw [h.ok_iff]
    unfold persistSites
    rw [List.append_assoc]
    show _ ↔ _ ∧ firstHalt faults.fate (stateDirectorySites disk ++ .openTemporary ::
      [.write, .syncFile, .rename, .openDirectory, .syncDirectory]) = none
    rw [hsites]
    simp only [hfree, true_and]
  suppressed := h.suppressed
  exposed := by
    rw [← hkept.marker, h.exposed]
    unfold PersistExposed persistSites
    rw [hsites, hkept.marker]
    simp only [hfree, true_and]

theorem persistUserQuit_meets (hown : Own kernel disk) :
    Meets (persistUserQuit kernel faults pid) disk (Persisted kernel faults pid disk) := by
  obtain ⟨result, ready, hensure, hkept, hok, hthere⟩ :=
    ensureStateDirectory_cases faults hown
  unfold Meets persistUserQuit
  rw [Attempt.bind_apply, hensure]
  cases result with
  | error halt =>
      obtain ⟨site, hsite⟩ : ∃ site, firstHalt faults.fate (stateDirectorySites disk) = some site :=
        Option.ne_none_iff_exists'.mp fun h => absurd (hok.mpr h) nofun
      have hsites : firstHalt faults.fate (persistSites disk) = some site := by
        unfold persistSites
        rw [firstHalt_append, hsite]
        rfl
      refine .refused hkept ?_ fun _ => by rw [hsites]; exact nofun
      rintro ⟨_, site', hsite', hleaves⟩
      rw [hsites] at hsite'
      cases hsite'
      exact not_leaves_of_mem (mem_of_firstHalt hsite) hleaves
  | ok u =>
      have hsites : ∀ rest, firstHalt faults.fate (stateDirectorySites disk ++ rest) =
          firstHalt faults.fate rest := by
        intro rest
        rw [firstHalt_append, hok.mp rfl]
        rfl
      have hinside := hkept.own.inside (hthere rfl)
      show Meets (io faults (kernel.openTemporary pid) .openTemporary >>= fun _ => _) ready
        (Persisted kernel faults pid disk)
      unfold io
      cases hfree : disk.temporary pid with
      | some entry =>
          -- what is there is not the routine's, and it is not touched
          have heffect : (kernel.openTemporary pid).effect ready = (.error .other, ready) := by
            have hentry : ready.temporary pid = some entry := by rw [hkept.temporary, hfree]
            simp only [Kernel.openTemporary, hinside, hentry]
          apply SystemCall.meets_must_refused heffect rfl
          intro halt
          refine .refused hkept ?_ fun h => ?_
          · rintro ⟨h, _⟩
            rw [hfree] at h
            cases h
          · rw [hfree] at h
            cases h
      | none =>
          have hnone : ready.temporary pid = none := by rw [hkept.temporary, hfree]
          have heffect : (kernel.openTemporary pid).effect ready =
              (.ok (), ready.setTemporary pid (some ⟨kernel.newFile ready, ""⟩)) := by
            simp only [Kernel.openTemporary, hinside, hnone]
          have hopened : Staged kernel pid ready
              (ready.setTemporary pid (some ⟨kernel.newFile ready, ""⟩)) :=
            .opened hkept.own (hthere rfl)
          by_cases hopen : faults.fate .openTemporary = .goes
          · unfold Meets
            rw [SystemCall.must_goes _ heffect hopen]
            refine Persisted.published hkept ?_ hfree (publish_meets hopened hnone)
            intro rest
            rw [hsites, firstHalt_cons, if_pos hopen]
          · have hsite : firstHalt faults.fate (persistSites disk) = some .openTemporary := by
              unfold persistSites
              rw [hsites, firstHalt_cons, if_neg hopen]
            unfold Meets
            rw [SystemCall.must_halts _ hopen, heffect]
            by_cases hafter : faults.fate .openTemporary = .stopsAfter
            · rw [if_pos hafter, hafter]
              refine .stranded hkept hopened ⟨hfree, _, hsite, hafter⟩ ?_
              rw [hsite]
              exact nofun
            · rw [if_neg hafter]
              refine .refused hkept ?_ fun _ => by rw [hsite]; exact nofun
              rintro ⟨_, site, hsite', hleaves⟩
              rw [hsite] at hsite'
              cases hsite'
              exact hafter hleaves

theorem lstatMarker_effect (hinside : kernel.inside disk = none) :
    kernel.lstatMarker.effect disk =
      match disk.marker with
      | none => (.error .notFound, disk)
      | some entry => (.ok entry.metadata, disk) := by
  cases hm : disk.marker <;> simp only [Kernel.lstatMarker, hinside, hm]

/-- A call that has not removed anything. -/
theorem Cleared.refused {halt : Halt IntegrationError} {after : Disk}
    (hkept : Kept kernel disk after) (hhalts : ∃ site, faults.fate site ≠ .goes)
    (hshort : firstHalt faults.fate (clearSites disk) ≠ none) :
    Cleared kernel faults disk (.error halt) after where
  own := hkept.own
  temporary := hkept.temporary
  ok_of_goes h := by
    obtain ⟨site, hsite⟩ := hhalts
    exact absurd (h site) hsite
  cleared := nofun
  exposed := by
    refine iff_of_false ?_ ?_
    · rintro ⟨_, hne⟩
      exact hne (congrArg Option.isSome hkept.marker)
    · rintro ⟨_, hnone, _⟩
      exact hshort hnone

/-- What the removal of the marker and the sync of its directory end with. -/
structure Removed (kernel : Kernel) (faults : Faults) (before : Disk)
    (result : Except (Halt IntegrationError) Unit) (after : Disk) : Prop where
  own : Own kernel after
  temporary : after.temporary = before.temporary
  ok_of_goes : (∀ site, faults.fate site = .goes) → result = .ok ()
  cleared : result = .ok () → after.marker = none
  exposed : ((∃ e, result = .error (.returned e)) ∧ after.marker = none) ↔
    faults.fate .removeMarker = .goes ∧ (faults.fate .lstatMarkerAgain).lives = true ∧
      SyncFails faults

theorem removeMarker_meets {entry : DirEntry} (hown : Own kernel disk)
    (hthere : (disk.metadata .stateDir).isSome) (hm : disk.marker = some entry) :
    Meets (do
      io faults kernel.removeMarker .removeMarker
      match ← kernel.lstatMarker.run .other (faults.fate .lstatMarkerAgain) with
      | .ok _ => .fail (.returned (.invalid "user quit marker replacement"))
      | .error _ => syncDirectory kernel faults) disk (Removed kernel faults disk) := by
  have hremove : kernel.removeMarker.effect disk = (.ok (), disk.setMarker none) := by
    have hfile : ¬ entry.metadata.isDir = true := by
      rw [(hown.marker entry hm).notDir]
      exact nofun
    simp only [Kernel.removeMarker, hown.inside hthere, hm, if_neg hfile]
  have hgone : Own kernel (disk.setMarker none) := hown.setMarker hthere nofun
  have hmarker : (disk.setMarker none).marker = none := Disk.marker_setMarker hthere none
  have htemporary := Disk.temporary_setMarker disk none
  have hinside : kernel.inside (disk.setMarker none) = none := by
    apply hgone.inside
    rw [Disk.metadata_setMarker]
    exact hthere
  have hagain := lstatMarker_effect hinside
  rw [hmarker] at hagain
  by_cases hgoes : faults.fate .removeMarker = .goes
  · apply SystemCall.meets_must_goes hremove hgoes
    have hsynced := syncDirectory_meets faults hinside
    apply SystemCall.meets_run_bind hagain rfl
    · intro hseen
      refine hsynced.mono fun result after ⟨hafter, hok, hreturned⟩ => ?_
      rw [hafter]
      refine ⟨hgone, htemporary, fun h => hok.mpr (firstHalt_of_goes h), fun _ => hmarker, ?_⟩
      rw [hreturned]
      simp [hmarker, hgoes, hseen, Fate.lives]
    · -- an error of the second look is taken for the marker's absence
      intro hfails
      refine hsynced.mono fun result after ⟨hafter, hok, hreturned⟩ => ?_
      rw [hafter]
      refine ⟨hgone, htemporary, fun h => hok.mpr (firstHalt_of_goes h), fun _ => hmarker, ?_⟩
      rw [hreturned]
      simp [hmarker, hgoes, hfails, Fate.lives]
    · intro hstops
      refine ⟨hgone, htemporary, fun h => absurd (h _) (Fate.ne_goes_of_lives hstops), nofun, ?_⟩
      simp [hstops]
  · apply SystemCall.meets_must_halts hgoes
    rw [hremove]
    refine ⟨?_, ?_, fun h => absurd (h _) hgoes, nofun, ?_⟩
    · split
      · exact hgone
      · exact hown
    · split
      · exact htemporary
      · rfl
    · refine iff_of_false ?_ fun h => hgoes h.1
      rintro ⟨⟨e, he⟩, hnone⟩
      by_cases hafter : faults.fate .removeMarker = .stopsAfter
      · rw [hafter] at he
        cases he
      · rw [if_neg hafter] at hnone
        exact absurd (hm.symm.trans hnone) nofun

theorem clearUserQuit_meets (hown : Own kernel disk) :
    Meets (clearUserQuit kernel faults) disk (Cleared kernel faults disk) := by
  obtain ⟨result, ready, hensure, hkept, hok, hthere⟩ := ensureStateDirectory_cases faults hown
  unfold Meets clearUserQuit
  rw [Attempt.bind_apply, hensure]
  cases result with
  | error halt =>
      obtain ⟨site, hsite⟩ : ∃ site, firstHalt faults.fate (stateDirectorySites disk) = some site :=
        Option.ne_none_iff_exists'.mp fun h => absurd (hok.mpr h) nofun
      refine .refused hkept ⟨site, halts_of_firstHalt hsite⟩ ?_
      unfold clearSites
      rw [firstHalt_append, hsite]
      exact nofun
  | ok u =>
      have hsites : firstHalt faults.fate (clearSites disk) =
          firstHalt faults.fate [.lstatMarker, .removeMarker] := by
        unfold clearSites
        rw [firstHalt_append, hok.mp rfl]
        rfl
      have hinside := hkept.own.inside (hthere rfl)
      have hlstat := lstatMarker_effect hinside
      have hrefused : ∀ halt, faults.fate .lstatMarker ≠ .goes →
          Cleared kernel faults disk (.error halt) ready := by
        intro halt h
        refine .refused hkept ⟨_, h⟩ ?_
        rw [hsites, firstHalt_cons, if_neg h]
        exact nofun
      show Meets (kernel.lstatMarker.run .other (faults.fate .lstatMarker) >>= fun _ => _) ready
        (Cleared kernel faults disk)
      rw [hkept.marker] at hlstat
      cases hm : disk.marker with
      | none =>
          rw [hm] at hlstat
          apply SystemCall.meets_run_bind hlstat rfl
          · intro _
            refine Meets.pure ?_
            refine ⟨hkept.own, hkept.temporary, fun _ => rfl, fun _ => hkept.marker.trans hm, ?_⟩
            refine iff_of_false ?_ fun h => h.1 hm
            rintro ⟨⟨e, he⟩, _⟩
            cases he
          · intro h
            exact hrefused _ (by rw [h]; exact nofun)
          · intro h
            exact hrefused _ (Fate.ne_goes_of_lives h)
      | some entry =>
          rw [hm] at hlstat
          apply SystemCall.meets_run_bind hlstat rfl
          · intro hseen
            apply Meets.ite ?_ (fun h => absurd (hown.marker entry hm).regular h)
            intro _
            have hexposed : ClearExposed faults disk ↔ faults.fate .removeMarker = .goes ∧
                (faults.fate .lstatMarkerAgain).lives = true ∧ SyncFails faults := by
              unfold ClearExposed
              rw [hsites, firstHalt_cons_eq_none, firstHalt_cons_eq_none, hm]
              simp [hseen]
            refine (removeMarker_meets hkept.own (hthere rfl) (hkept.marker.trans hm)).mono ?_
            intro result after h
            refine ⟨h.own, h.temporary.trans hkept.temporary, h.ok_of_goes, h.cleared, ?_⟩
            rw [hexposed, ← h.exposed, hm]
            cases after.marker with
            | none => simp
            | some entry' => simp
          · intro h
            exact hrefused _ (by rw [h]; exact nofun)
          · intro h
            exact hrefused _ (Fate.ne_goes_of_lives h)

end

end UserQuit

end NextInfra
