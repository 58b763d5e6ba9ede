import NextInfra.Binding.Projection

/-!
# The projection along a run

Beside the binding service any other writer may write, as long as its commits
carry its own relations (`Write.Authored`) and none of bindings. A commit of
theirs leaves the configured relations and their versions alone; a purge removes a
binding with every relation of its endpoints, and keeps whole the history of each
relation it keeps.
-/

namespace NextInfra

/-! ## §1  Other writers -/

theorem Write.author_of_other {w : Write} (h : BindingWorld.isOther w = true) :
    w.author ≠ .configured := by
  intro hauthor
  cases w with
  | commitBinding commit => cases h
  | _ => cases hauthor

section

variable {s s' : Store} {w : Write}

/-- A relation of another type has another first letter. -/
theorem EvidenceType.initial_ne {type : EvidenceType} (h : type ≠ .configured) :
    type.initial ≠ 'b' := fun hb => h (EvidenceType.initial_injective hb)

/-- A commit of another writer neither adds nor removes versions of configured
relations. -/
theorem Write.configured_version_iff (hauthored : w.Authored)
    (hother : BindingWorld.isOther w = true) {v : RelationVersion}
    (hfirst : v.relationId.startsWith 'b') :
    v ∈ (s.relationVersions.insertNewAll w.relationVersions).rows ↔
      v ∈ s.relationVersions.rows := by
  constructor
  · intro hv
    rcases KeyedTable.mem_insertNewAll hv with hv | hv
    · exact hv
    · have hauthor := (hauthored.2 v hv).2
      exact absurd (StringValue.startsWith_unique hauthor hfirst)
        (EvidenceType.initial_ne (Write.author_of_other hother))
  · intro hv
    rw [KeyedTable.mem_iff_get]
    exact KeyedTable.get_insertNewAll_of_some (KeyedTable.get_of_mem hv)

theorem Write.traced_of_other {drawn : List Uuid} (hauthored : w.Authored)
    (hother : BindingWorld.isOther w = true) (h : w.run s = .ok s') (hs : Traced drawn s) :
    Traced drawn s' := by
  have hbindings : ∀ id stored, s'.bindings.get id = some stored →
      s.bindings.get id = some stored := by
    intro id stored hstored
    obtain ⟨hmem, hid⟩ := KeyedTable.get_eq_some_iff.mp hstored
    exact KeyedTable.get_eq_some_iff.mpr ⟨Write.bindings_of_other hother h stored hmem, hid⟩
  cases Write.relationEffect h with
  | committed fit relations versions _ =>
      have hne := Write.author_of_other hother
      constructor
      · intro x hx
        rw [relations] at hx
        rcases Store.relationRule.mem_applyAll hx with hx | ⟨r, hr, hlands⟩
        · exact hs.initials x hx
        · obtain ⟨htype, hfirst⟩ := hauthored.1 r hr
          have hevidence : x.evidence = r.evidence := by
            rcases hlands with rfl | ⟨old, rfl⟩
            · rfl
            · rfl
          rw [hevidence, htype, show x.relationId = r.relationId from hlands.key_eq]
          exact hfirst
      · intro x hx htype
        rw [relations] at hx
        refine hs.configured x ((Store.mem_applyAll_of_type fit ?_ htype).mp hx) htype
        intro r hr
        rw [hauthored.types r hr]
        exact hne
      · intro v hv hfirst
        rw [versions] at hv
        rcases KeyedTable.mem_insertNewAll hv with hv | hv
        · exact hs.versionIds v hv hfirst
        · exact absurd (StringValue.startsWith_unique (hauthored.2 v hv).1 hfirst)
            (EvidenceType.initial_ne hne)
      · intro v hv hfirst
        rw [versions, Write.configured_version_iff hauthored hother hfirst] at hv
        obtain ⟨b, hdrawn, hid, hbefore⟩ := hs.versions v hv hfirst
        exact ⟨b, hdrawn, hid, fun stored hstored => hbefore stored (hbindings _ _ hstored)⟩
  | purged id _ hpurged =>
      subst hpurged
      constructor
      · exact fun x hx => hs.initials x (KeyedTable.mem_keep.mp hx).1
      · exact fun x hx htype => hs.configured x (KeyedTable.mem_keep.mp hx).1 htype
      · exact fun v hv hfirst => hs.versionIds v (KeyedTable.mem_keep.mp hv).1 hfirst
      · intro v hv hfirst
        obtain ⟨b, hdrawn, hid, hbefore⟩ := hs.versions v (KeyedTable.mem_keep.mp hv).1 hfirst
        exact ⟨b, hdrawn, hid, fun stored hstored => hbefore stored (hbindings _ _ hstored)⟩

/-- A binding that a write of another writer leaves is represented as before. -/
theorem Write.represents_of_other {drawn : List Uuid} (hauthored : w.Authored)
    (hother : BindingWorld.isOther w = true) (h : w.run s = .ok s') (hs : Traced drawn s)
    {b : Binding} (hstored : b ∈ s'.bindings.rows) (hb : s.Represents b) : s'.Represents b := by
  cases Write.relationEffect h with
  | committed fit relations versions _ =>
      have hsame : ∀ x : Relation, x.evidence.evidenceType = .configured →
          (x ∈ s'.relations.rows ↔ x ∈ s.relations.rows) := by
        intro x htype
        rw [relations]
        refine Store.mem_applyAll_of_type fit ?_ htype
        intro r hr
        rw [hauthored.types r hr]
        exact Write.author_of_other hother
      have htype : ∀ x : Relation, x.evidence = .configured b.bindingId →
          x.evidence.evidenceType = .configured := by
        intro x hevidence
        rw [hevidence]
        rfl
      refine hb.transfer ?_ ?_ ?_
      · exact fun x hx hevidence => (hsame x (htype x hevidence)).mp hx
      · exact fun x hx hconfigures => (hsame x hconfigures.evidenceType).mpr hx
      · intro x hx hevidence v hid
        have hx' := (hsame x (htype x hevidence)).mp hx
        obtain ⟨c, _, _, hconfigures⟩ := hs.of_configured hx' hevidence
        rw [versions]
        apply Write.configured_version_iff hauthored hother
        rw [hid, hconfigures.relationId]
        exact c.relationId_startsWith
  | purged id _ hpurged =>
      subst hpurged
      refine hb.transfer ?_ ?_ ?_
      · exact fun x hx _ => (KeyedTable.mem_keep.mp hx).1
      · -- the relation has the endpoints of a binding that the purge kept
        intro x hx hconfigures
        have hkept := (KeyedTable.mem_keep.mp hstored).2
        refine KeyedTable.mem_keep.mpr ⟨hx, ?_⟩
        rw [hconfigures.source, hconfigures.target]
        exact hkept
      · intro x hx _ v hid
        obtain ⟨hx', hkept⟩ := KeyedTable.mem_keep.mp hx
        constructor
        · exact fun hv => (KeyedTable.mem_keep.mp hv).1
        · intro hv
          refine KeyedTable.mem_keep.mpr ⟨hv, ?_⟩
          rw [hid, Store.ownsRelation_eq_touches hx']
          exact hkept

end

/-! ## §2  Runs -/

namespace BindingWorld

variable {digest : Value → Fingerprint}

/-- Other writers write their own relations. -/
def OwnRelations (_ : BindingWorld) : Call → Prop
  | .service _ => True
  | .other write => write.Authored

instance : (w : BindingWorld) → (call : Call) → Decidable (w.OwnRelations call)
  | _, .service _ => .isTrue trivial
  | _, .other write => inferInstanceAs (Decidable write.Authored)

/-- Every binding is represented. -/
structure Projected (w : BindingWorld) : Prop where
  sound : w.Sound
  traced : Traced w.drawn w.store
  represents : ∀ b ∈ w.store.bindings.rows, w.store.Represents b

theorem projected_fresh : fresh.Projected where
  sound := sound_fresh
  traced := by
    constructor
    · intro x hx
      cases hx
    · intro x hx
      cases hx
    · intro v hv
      cases hv
    · intro v hv
      cases hv
  represents := by
    intro b hb
    cases hb

/-- One step keeps every binding represented. -/
theorem projected_preserved :
    ((machine digest).restrict OwnRelations).Preserves Projected := by
  rintro w call ⟨hen, hown⟩ hw
  have hsound := (@step_sound digest _ _ hen hw.sound).1
  refine ⟨hsound, ?_, ?_⟩
  · cases call with
    | other write =>
        show Traced w.drawn (w.store.written write)
        rcases w.store.written_cases write with hsame | hrun
        · rw [hsame]
          exact hw.traced
        · exact Write.traced_of_other hown hen hrun hw.traced
    | service call =>
        show Traced (call.drawn ++ w.drawn) (served digest w.store call)
        have hgrown : ∀ uuid ∈ w.drawn, uuid ∈ call.drawn ++ w.drawn :=
          fun uuid hu => List.mem_append_right _ hu
        have hkept : Traced (call.drawn ++ w.drawn) w.store :=
          { initials := hw.traced.initials
            configured := by
              intro x hx htype
              obtain ⟨b, ⟨uuid, hu, hid⟩, hconfigures⟩ := hw.traced.configured x hx htype
              exact ⟨b, ⟨uuid, hgrown uuid hu, hid⟩, hconfigures⟩
            versionIds := hw.traced.versionIds
            versions := by
              intro v hv hfirst
              obtain ⟨b, ⟨uuid, hu, hid⟩, hrest⟩ := hw.traced.versions v hv hfirst
              exact ⟨b, ⟨uuid, hgrown uuid hu, hid⟩, hrest⟩ }
        rcases @served_cases digest w.store call with hsame | ⟨b, hstep⟩
        · rw [hsame]
          exact hkept
        rcases hstep.saved hw.sound.drawn hen with hsame | ⟨previous, hsaved, hin⟩
        · rw [hsame]
          exact hkept
        · exact hsaved.traced hw.traced hgrown hin
  · cases call with
    | other write =>
        show ∀ b ∈ (w.store.written write).bindings.rows, (w.store.written write).Represents b
        rcases w.store.written_cases write with hsame | hrun
        · rw [hsame]
          exact hw.represents
        · intro b hb
          exact Write.represents_of_other hown hen hrun hw.traced hb
            (hw.represents b (Write.bindings_of_other hen hrun b hb))
    | service call =>
        show ∀ b ∈ (served digest w.store call).bindings.rows,
          (served digest w.store call).Represents b
        rcases @served_cases digest w.store call with hsame | ⟨b, hstep⟩
        · rw [hsame]
          exact hw.represents
        rcases hstep.saved hw.sound.drawn hen with hsame | ⟨previous, hsaved, _⟩
        · rw [hsame]
          exact hw.represents
        intro c hc
        rw [hsaved.bindings] at hc
        rcases KeyedTable.mem_put.mp hc with rfl | ⟨hc, hne⟩
        · refine hsaved.represents hw.traced ?_
          intro old hold
          have hget := hsaved.stored
          rw [hold] at hget
          exact hw.represents old (KeyedTable.mem_of_get hget)
        · obtain ⟨uuid, _, hid⟩ := hw.sound.drawn c hc
          exact hsaved.represents_other hw.traced ⟨uuid, hid⟩ hne (hw.represents c hc)

theorem projected {calls : List Call} {w : BindingWorld}
    (hrun : ((machine digest).restrict OwnRelations).Run fresh calls w) : w.Projected :=
  hrun.invariant projected_preserved projected_fresh

end BindingWorld

end NextInfra
