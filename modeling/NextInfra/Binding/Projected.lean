import NextInfra.Binding.Conflicts

/-!
# Bindings are projected

The two halves of the projection over runs: what a binding's relations look like
after any run (`Store.Projects`), and which operations the store refuses although
the service let them through (`Conflicts`, exactly the misread updates).

The last section moves a binding between resources whose external ids hold the
text of other resource ids, which is all a misreading takes.
-/

namespace NextInfra

/-! ## §1  What is projected -/

/-- `x` is a configured relation of `b` with its present endpoints and kind. -/
def Relation.Matches (x : Relation) (b : Binding) : Prop :=
  x.evidence = .configured b.bindingId ∧ x.sourceResourceId = b.sourceResourceId ∧
    x.targetResourceId = b.targetResourceId ∧ x.kind = b.kind

/-- Exactly one relation of the binding matches it and has the lifecycle of its
status; the others are tombstones; the latest version of each shows the row. -/
structure Store.Projects (s : Store) (b : Binding) : Prop where
  current : ∃ x ∈ s.relations.rows, x.Matches b ∧ x.lifecycle = b.status.relationLifecycle ∧
    ∀ y ∈ s.relations.rows, y.Matches b → y = x
  retired : ∀ x ∈ s.relations.rows, x.evidence = .configured b.bindingId → ¬ x.Matches b →
    x.lifecycle = .tombstoned
  recorded : ∀ x ∈ s.relations.rows, x.evidence = .configured b.bindingId →
    (s.latestRelationVersion x.relationId).map RelationVersion.normalizedSnapshot =
      some (localSnapshot x)

/-- A relation stored is still there under its identity. -/
def Store.KeepsRelations (s s' : Store) : Prop :=
  ∀ x ∈ s.relations.rows, ∃ x' ∈ s'.relations.rows,
    x'.relationId = x.relationId ∧ x'.key = x.key

theorem Store.KeepsRelations.trans {s s' s'' : Store} (h : s.KeepsRelations s')
    (h' : s'.KeepsRelations s'') : s.KeepsRelations s'' := by
  intro x hx
  obtain ⟨x', hx', hid, hkey⟩ := h x hx
  obtain ⟨x'', hx'', hid', hkey'⟩ := h' x' hx'
  exact ⟨x'', hx'', hid'.trans hid, hkey'.trans hkey⟩

theorem Store.keepsRelations_of_fits {s s' : Store} {rows : List Relation}
    (hfit : relationRule.FitsAll s.relations rows)
    (heq : s'.relations = relationRule.applyAll s.relations rows) : s.KeepsRelations s' := by
  intro x hx
  obtain ⟨x', hx', hkey⟩ := relationRule.applyAll_keeps_ident hfit (KeyedTable.get_of_mem hx)
  rw [← heq] at hx'
  exact ⟨x', KeyedTable.mem_of_get hx', KeyedTable.key_of_get hx', hkey⟩

/-- Within the traced rows of a binding, matching is having its relation id. -/
theorem Store.Represents.projects {drawn : List Uuid} {s : Store} {b : Binding}
    (h : s.Represents b) (hs : Traced drawn s) : s.Projects b where
  current := by
    obtain ⟨x, hx, hconfigures, hlifecycle⟩ := h.current
    refine ⟨x, hx, ⟨hconfigures.evidence, hconfigures.source, hconfigures.target,
      hconfigures.kind⟩, hlifecycle, ?_⟩
    rintro y hy ⟨hevidence, hsource, htarget, hkind⟩
    obtain ⟨c, hc, _, hyc⟩ := hs.of_configured hy hevidence
    have hkey : y.key = x.key := by
      refine (hyc.key_eq_iff hconfigures).mpr ⟨hc, ?_, ?_, ?_⟩
      · rw [← hyc.source, hsource]
      · rw [← hyc.target, htarget]
      · rw [← hyc.kind, hkind]
    exact s.relations.row_unique hy hx (hyc.relationId_of_key hconfigures hkey)
  retired := by
    intro x hx hevidence hnot
    apply h.retired x hx hevidence
    intro hid
    apply hnot
    obtain ⟨y, hy, hconfigures, _⟩ := h.current
    rw [s.relations.row_unique hx hy (hid.trans hconfigures.relationId.symm)]
    exact ⟨hconfigures.evidence, hconfigures.source, hconfigures.target, hconfigures.kind⟩
  recorded := by
    intro x hx hevidence
    obtain ⟨v, hnewest, hid, hsnapshot⟩ := h.recorded x hx hevidence
    rw [← hid, hnewest.latest, Option.map_some, hsnapshot]

/-! ## §2  Refused operations -/

namespace BindingWorld

variable {digest : Value → Fingerprint} {w : BindingWorld}

/-- The store refuses an operation for an identity. -/
def Conflicts (digest : Value → Fingerprint) (s : Store) (call : BindingCall) : Prop :=
  ∃ e : StoreError, e.IsIdentityConflict ∧
    (call.run digest s : Except (BindingError StoreError) (Binding × Store)) = .error (.store e)

/-- The error of the store an operation hands on. -/
def refusal (result : Except (BindingError StoreError) (Binding × Store)) : Option StoreError :=
  match result with
  | .error (.store e) => some e
  | _ => none

theorem conflicts_of_refusal {s : Store} {call : BindingCall} {e : StoreError}
    (h : refusal (call.run digest s) = some e) (he : e.IsIdentityConflict) :
    Conflicts digest s call := by
  refine ⟨e, he, ?_⟩
  unfold refusal at h
  split at h
  · rename_i hrun
    cases h
    exact hrun
  · cases h

theorem Projected.due (hw : w.Projected) {existing b : Binding}
    (hstored : w.store.bindings.get b.bindingId = some existing) :
    BindingDue w.drawn w.store (some existing) b := by
  obtain ⟨hmem, hid⟩ := KeyedTable.get_eq_some_iff.mp hstored
  obtain ⟨uuid, _, huuid⟩ := hw.sound.drawn existing hmem
  refine ⟨hw.traced, ⟨uuid, hid.symm.trans huuid, by simp⟩, ?_⟩
  rintro old ⟨rfl⟩
  exact ⟨hid, hw.represents existing hmem⟩

/-- The store refuses an operation for an identity iff it is a misread update. -/
theorem conflicts_iff (hw : w.Projected) {call : BindingCall}
    (hen : w.enabled (.service call)) : Conflicts digest w.store call ↔ w.store.Misread call := by
  constructor
  · rintro ⟨e, he, hrun⟩
    rcases BindingService.refused_cases hrun with
      ⟨b, at_, uuid, hdrawn, hid, herror⟩ |
      ⟨id, input, at_, existing, status, rfl, hadmits, herror⟩ |
      ⟨existing, b, at_, hstored, hid, hlink, herror⟩
    · -- nothing stored names an id that was not drawn
      exfalso
      have hnew : uuid ∉ w.drawn := hen uuid hdrawn
      have hdue : BindingDue w.drawn w.store none b :=
        ⟨hw.traced, ⟨uuid, hid, fun _ => hnew⟩, by simp⟩
      obtain ⟨x, hx, hevidence, _⟩ := hdue.misread_of_conflict herror he
      obtain ⟨_, _, ⟨prior, hprior, hsame⟩, _⟩ := hw.traced.of_configured hx hevidence
      rw [bindingIdOf_injective (hsame.symm.trans hid)] at hprior
      exact hnew hprior
    · have hkey : (BindingService.updated existing input status at_).bindingId = id :=
        (KeyedTable.key_of_get hadmits.stored : existing.bindingId = id)
      have hstored := hadmits.stored
      rw [← hkey] at hstored
      have hdue := hw.due hstored
      obtain ⟨hsource, htarget, _⟩ := Store.commitBinding_conflict herror he
      obtain ⟨x, hx, hevidence, hkind, hshifted⟩ := hdue.misread_of_conflict herror he
      rw [hkey] at hevidence
      exact ⟨⟨existing, hadmits⟩, hsource, htarget, x, hx, hevidence, hkind, hshifted⟩
    · exfalso
      rw [← hid] at hstored
      have hdue := hw.due hstored
      exact hdue.not_misread_of_sameLink rfl hlink (hdue.misread_of_conflict herror he)
  · intro hmisread
    cases call with
    | update id input at_ =>
        obtain ⟨⟨existing, hadmits⟩, hsource, htarget, x, hx, hevidence, hkind, hshifted⟩ :=
          hmisread
        obtain ⟨status, hupdate⟩ := @BindingService.update_of_admits digest _ _ _ _ _ hadmits
        have hkey : (BindingService.updated existing input status at_).bindingId = id :=
          (KeyedTable.key_of_get hadmits.stored : existing.bindingId = id)
        have hstored := hadmits.stored
        rw [← hkey] at hstored hevidence
        refine ⟨_, Or.inl rfl, ?_⟩
        change BindingService.update digest w.store id input at_ = _
        rw [hupdate]
        unfold BindingService.save
        change (BindingService.stored (w.store.commitBinding _) >>= _) = _
        rw [(hw.due hstored).conflict_of_misread ⟨x, hx, hevidence, hkind, hshifted⟩ hsource
          htarget]
        rfl
    | create input at_ uuid => exact hmisread.elim
    | disable id at_ => exact hmisread.elim
    | reconcile id at_ => exact hmisread.elim

/-! ## §3  Runs -/

/-- A purge of some connection. -/
def Call.purges : Call → Bool
  | .other (.purgeConnection _) => true
  | _ => false

/-- Other writers write their own relations and purge nothing. -/
def OwnRelationsUnpurged (w : BindingWorld) (call : Call) : Prop :=
  w.OwnRelations call ∧ call.purges = false

instance (w : BindingWorld) (call : Call) : Decidable (w.OwnRelationsUnpurged call) :=
  inferInstanceAs (Decidable (_ ∧ _))

theorem step_keepsRelations {call : Call} (hen : w.enabled call) (hw : w.Sound)
    (hkeep : call.purges = false) : w.store.KeepsRelations (w.step digest call).store := by
  have hrefl : w.store.KeepsRelations w.store := fun x hx => ⟨x, hx, rfl, rfl⟩
  cases call with
  | other write =>
      show w.store.KeepsRelations (w.store.written write)
      rcases w.store.written_cases write with hsame | hrun
      · rw [hsame]
        exact hrefl
      · cases Write.relationEffect hrun with
        | committed fit relations _ _ => exact Store.keepsRelations_of_fits fit relations
        | purged id hpurge _ =>
            subst hpurge
            cases hkeep
  | service call =>
      show w.store.KeepsRelations (served digest w.store call)
      rcases @served_cases digest w.store call with hsame | ⟨b, hstep⟩
      · rw [hsame]
        exact hrefl
      rcases hstep.saved hw.drawn hen with hsame | ⟨previous, hsaved, _⟩
      · rw [hsame]
        exact hrefl
      · exact Store.keepsRelations_of_fits hsaved.effect.relationsFit hsaved.relations

/-- Along every run each binding is projected, every relation ever stored is still
stored unless a connection was purged since, and an operation is refused for an
identity iff it is a misread update. -/
theorem bindings_projected {calls calls' : List Call} {w w' : BindingWorld}
    (hrun : ((machine digest).restrict OwnRelations).Run fresh calls w)
    (hrun' : ((machine digest).restrict OwnRelationsUnpurged).Run w calls' w') :
    (∀ b ∈ w'.store.bindings.rows, w'.store.Projects b) ∧
      w.store.KeepsRelations w'.store ∧
        ∀ call, w'.enabled (.service call) →
          (Conflicts digest w'.store call ↔ w'.store.Misread call) := by
  have hw := projected hrun
  have hpreserved : ((machine digest).restrict OwnRelationsUnpurged).Preserves Projected :=
    fun w call hen hw => projected_preserved w call ⟨hen.1, hen.2.1⟩ hw
  have hw' := hrun'.invariant hpreserved hw
  refine ⟨?_, ?_, ?_⟩
  · exact fun b hb => (hw'.represents b hb).projects hw'.traced
  · refine hrun'.relates (R := fun w w' => w.store.KeepsRelations w'.store) hpreserved ?_ ?_ ?_ hw
    · exact fun w x hx => ⟨x, hx, rfl, rfl⟩
    · exact fun _ _ _ => Store.KeepsRelations.trans
    · exact fun w call hen hw => step_keepsRelations hen.1 hw.sound hen.2.2
  · exact fun call hen => conflicts_iff hw' hen

end BindingWorld

/-! ## §4  A shifted link -/

namespace Fixture

/-- A resource row under its stable id. -/
def stableRow (run : SyncRunId) (external : ExternalId) : Resource :=
  let key : ResourceKey :=
    { connectionId := text "a", kind := kind "host.vm", externalId := external }
  { resourceRow run .active (stableResourceId key) with externalId := external }

/-- The stable id of a virtual machine of connection `a`. -/
def vmId (external : String) : ResourceId :=
  stableResourceId { connectionId := text "a", kind := kind "host.vm", externalId := text external }

/-- A run that writes the virtual machines with these external ids. -/
def vmCalls (externals : List String) : List BindingWorld.Call :=
  let started := (handle (text "a") (text "r1") .full (text "all")).run
  [.other (.upsertConnection (connection (text "a"))), .other (.startSyncRun started),
    .other (.commitSync
      { syncRun := { started with status := .succeeded, finishedAt := some (time 2) }
        resources := externals.map fun external => stableRow (text "r1") (text external)
        resourceVersions := []
        relations := []
        relationVersions := []
        changes := []
        cursorAfter := none
        missingEvidence := none })]

/-- Two of the external ids hold the text of another resource id. -/
def shiftable : List String := ["1", "2:resource:a:host.vm:3", "1:resource:a:host.vm:2", "3"]

/-- `1` bound to `2:resource:a:host.vm:3`. -/
def shiftableCalls : List BindingWorld.Call :=
  vmCalls shiftable ++
    [.service (.create (linkInput (vmId "1") (vmId "2:resource:a:host.vm:3")) (time 10) uuidOne)]

/-- Moved to `1:resource:a:host.vm:2` and `3`. -/
def shiftUpdate : BindingCall :=
  .update (bindingIdOf uuidOne) (linkInput (vmId "1:resource:a:host.vm:2") (vmId "3")) (time 20)

def shiftableWorld : BindingWorld :=
  (BindingWorld.machine fun _ => text "f").replay .fresh shiftableCalls

/-- Moved to `3` in between. -/
def moveCalls : List BindingWorld.Call :=
  [.service (.update (bindingIdOf uuidOne) (linkInput (vmId "1") (vmId "3")) (time 15))]

def movedWorld : BindingWorld :=
  (BindingWorld.machine fun _ => text "f").replay shiftableWorld moveCalls

/-- What holds of the two runs and their ends, evaluated at once. -/
theorem shiftable_facts :
    ((BindingWorld.machine fun _ => text "f").restrict BindingWorld.OwnRelations).Admits .fresh
        shiftableCalls ∧
      ((BindingWorld.machine fun _ => text "f").restrict
        BindingWorld.OwnRelationsUnpurged).Admits shiftableWorld moveCalls ∧
      movedWorld.store.bindings.rows.length = 1 ∧ movedWorld.store.relations.rows.length = 2 ∧
      shiftableWorld.enabled (.service shiftUpdate) ∧
        BindingWorld.refusal (shiftUpdate.run (fun _ => text "f") shiftableWorld.store) =
          some (.contract "relation stable identity cannot change") := by
  decide +kernel

end Fixture

namespace BindingWorld

open Fixture in
theorem bindings_projected_moved :
    ((∀ b ∈ movedWorld.store.bindings.rows, movedWorld.store.Projects b) ∧
      shiftableWorld.store.KeepsRelations movedWorld.store ∧
        ∀ call, movedWorld.enabled (.service call) →
          (Conflicts (fun _ => text "f") movedWorld.store call ↔ movedWorld.store.Misread call)) ∧
      movedWorld.store.bindings.rows.length = 1 ∧
        movedWorld.store.relations.rows.length = 2 := by
  obtain ⟨hcalls, hmoves, hbindings, hrelations, _⟩ := shiftable_facts
  exact ⟨bindings_projected (Machine.run_replay hcalls) (Machine.run_replay hmoves), hbindings,
    hrelations⟩

open Fixture in
/-- The store refuses an update that the service let through. -/
theorem shifted_update_refused :
    ((machine fun _ => text "f").restrict OwnRelations).Run fresh shiftableCalls shiftableWorld ∧
      shiftableWorld.enabled (.service shiftUpdate) ∧
        Conflicts (fun _ => text "f") shiftableWorld.store shiftUpdate := by
  obtain ⟨hcalls, _, _, _, henabled, hrefused⟩ := shiftable_facts
  exact ⟨Machine.run_replay hcalls, henabled, conflicts_of_refusal hrefused (Or.inl rfl)⟩

end BindingWorld

end NextInfra
