import NextInfra.Binding.RelationIds

/-!
# The relations a binding projects to

Each binding has one configured relation for its present endpoints and kind, in
the lifecycle of its status; the relations of its former endpoints are tombstones
(`Store.Represents`). Every row and every version a binding ever wrote names a
drawn binding id (`Traced`), which keeps the projections of two bindings apart.

`BindingSaved` is one accepted commit. It retires, revives or creates relations of
its own binding and records each at a new time; everything else is as it was.
-/

namespace NextInfra

/-! ## §1  Representation -/

/-- `v` is the most recent version of its relation. -/
def Store.Newest (s : Store) (v : RelationVersion) : Prop :=
  v ∈ s.relationVersions.rows ∧
    ∀ u ∈ s.relationVersions.rows, u.relationId = v.relationId → u ≠ v →
      u.observedAt < v.observedAt

theorem Store.Newest.latest {s : Store} {v : RelationVersion} (h : s.Newest v) :
    s.latestRelationVersion v.relationId = some v := by
  unfold latestRelationVersion
  apply latestVersion_of_newest
  · exact List.mem_filter.mpr ⟨h.1, by simp⟩
  · intro u hu hne
    obtain ⟨hmem, hid⟩ := List.mem_filter.mp hu
    exact h.2 u hmem (by simpa using hid) hne

/-- The relations of a binding are as the binding is. -/
structure Store.Represents (s : Store) (b : Binding) : Prop where
  current : ∃ x ∈ s.relations.rows, x.Configures b ∧ x.lifecycle = b.status.relationLifecycle
  retired : ∀ x ∈ s.relations.rows, x.evidence = .configured b.bindingId →
    x.relationId ≠ b.relationId → x.lifecycle = .tombstoned
  recorded : ∀ x ∈ s.relations.rows, x.evidence = .configured b.bindingId →
    ∃ v, s.Newest v ∧ v.relationId = x.relationId ∧ v.normalizedSnapshot = localSnapshot x

/-- A store that keeps the binding's rows and their versions, and adds none,
represents it still. -/
theorem Store.Represents.transfer {s s' : Store} {b : Binding} (h : s.Represents b)
    (hold : ∀ x ∈ s'.relations.rows, x.evidence = .configured b.bindingId →
      x ∈ s.relations.rows)
    (hkept : ∀ x ∈ s.relations.rows, x.Configures b → x ∈ s'.relations.rows)
    (hversions : ∀ x ∈ s'.relations.rows, x.evidence = .configured b.bindingId →
      ∀ v : RelationVersion, v.relationId = x.relationId →
        (v ∈ s'.relationVersions.rows ↔ v ∈ s.relationVersions.rows)) :
    s'.Represents b where
  current := by
    obtain ⟨x, hx, hconfigures, hlifecycle⟩ := h.current
    exact ⟨x, hkept x hx hconfigures, hconfigures, hlifecycle⟩
  retired := fun x hx hevidence hid => h.retired x (hold x hx hevidence) hevidence hid
  recorded := by
    intro x hx hevidence
    obtain ⟨v, hnewest, hid, hsnapshot⟩ := h.recorded x (hold x hx hevidence) hevidence
    have hsame := hversions x hx hevidence
    refine ⟨v, ⟨(hsame v hid).mpr hnewest.1, ?_⟩, hid, hsnapshot⟩
    intro u hu huid hne
    exact hnewest.2 u ((hsame u (huid.trans hid)).mp hu) huid hne

/-- Rows of bindings name drawn ids, and versions are no newer than the binding. -/
structure Traced (drawn : List Uuid) (s : Store) : Prop where
  initials : ∀ x ∈ s.relations.rows, x.relationId.startsWith x.evidence.evidenceType.initial
  configured : ∀ x ∈ s.relations.rows, x.evidence.evidenceType = .configured →
    ∃ b : Binding, (∃ uuid ∈ drawn, b.bindingId = bindingIdOf uuid) ∧ x.Configures b
  versionIds : ∀ v ∈ s.relationVersions.rows, v.relationVersionId.startsWith 'b' →
    v.relationId.startsWith 'b' ∧
      v.relationVersionId = bindingRelationVersionId v.relationId v.observedAt
  versions : ∀ v ∈ s.relationVersions.rows, v.relationId.startsWith 'b' →
    ∃ b : Binding, (∃ uuid ∈ drawn, b.bindingId = bindingIdOf uuid) ∧
      v.relationId = b.relationId ∧
        ∀ stored, s.bindings.get b.bindingId = some stored → v.observedAt ≤ stored.updatedAt

theorem Traced.of_configured {drawn : List Uuid} {s : Store} (h : Traced drawn s) {x : Relation}
    (hx : x ∈ s.relations.rows) {id : BindingId} (hevidence : x.evidence = .configured id) :
    ∃ b : Binding, b.bindingId = id ∧ (∃ uuid ∈ drawn, id = bindingIdOf uuid) ∧
      x.Configures b := by
  have htype : x.evidence.evidenceType = .configured := by
    rw [hevidence]
    rfl
  obtain ⟨b, hdrawn, hconfigures⟩ := h.configured x hx htype
  have hid : b.bindingId = id := by
    have hsame := hconfigures.evidence
    rw [hevidence, RelationEvidence.configured.injEq] at hsame
    exact hsame.symm
  rw [hid] at hdrawn
  exact ⟨b, hid, hdrawn, hconfigures⟩

/-! ## §2  One accepted commit -/

namespace Binding

theorem mem_commitRelations {previous : Option Binding} {b : Binding} {at_ : Timestamp}
    {r : Relation} :
    r ∈ commitRelations previous b at_ ↔
      r = b.configuredRelation b.status.relationLifecycle at_ ∨
        ∃ old, previous = some old ∧ identityChanged old b = true ∧
          r = old.configuredRelation .tombstoned at_ := by
  unfold commitRelations
  cases previous with
  | none => simp
  | some old =>
      by_cases hchanged : identityChanged old b = true
      · simp [Option.filter, hchanged, or_comm]
      · simp [Option.filter, hchanged]

theorem identityChanged_iff {old new : Binding} :
    identityChanged old new = true ↔ ¬ old.SameLink new := by
  unfold identityChanged SameLink
  simp only [Bool.or_eq_true, decide_eq_true_eq, ne_eq]
  tauto

end Binding

/-- The commit of `b` in place of `previous` went through. -/
structure BindingSaved (digest : Value → Fingerprint) (drawn : List Uuid) (s : Store)
    (previous : Option Binding) (b : Binding) (s' : Store) : Prop where
  drew : ∃ uuid, b.bindingId = bindingIdOf uuid ∧ (previous = none → uuid ∉ drawn)
  stored : s.bindings.get b.bindingId = previous
  advances : ∀ old, previous = some old →
    old.updatedAt < b.updatedAt ∧ old.createdAt = b.createdAt
  effect : BindingEffect s (Binding.commit digest previous b b.updatedAt) s'

/-- A step leaves the store alone or saves the binding it returns. -/
theorem BindingStep.saved {digest : Value → Fingerprint} {drawn : List Uuid} {s s' : Store}
    {call : BindingCall} {b : Binding} (h : BindingStep digest s call b s')
    (hdrawn : ∀ b ∈ s.bindings.rows, ∃ uuid ∈ drawn, b.bindingId = bindingIdOf uuid)
    (hfresh : ∀ uuid ∈ call.drawn, uuid ∉ drawn) :
    s' = s ∨ ∃ previous, BindingSaved digest drawn s previous b s' ∧
      ∀ uuid, b.bindingId = bindingIdOf uuid → uuid ∈ call.drawn ++ drawn := by
  -- the id of a binding already stored was drawn before
  have hstored : ∀ {existing : Binding}, s.bindings.get b.bindingId = some existing →
      (∃ uuid, b.bindingId = bindingIdOf uuid ∧
        ((some existing : Option Binding) = none → uuid ∉ drawn)) ∧
        ∀ uuid, b.bindingId = bindingIdOf uuid → uuid ∈ call.drawn ++ drawn := by
    intro existing hget
    obtain ⟨hmem, hid⟩ := KeyedTable.get_eq_some_iff.mp hget
    obtain ⟨uuid, hu, huid⟩ := hdrawn existing hmem
    rw [hid] at huid
    refine ⟨⟨uuid, huid, by simp⟩, ?_⟩
    intro other hother
    rw [bindingIdOf_injective (hother.symm.trans huid)]
    exact List.mem_append_right _ hu
  cases h with
  | kept _ => exact Or.inl rfl
  | @created input at_ uuid _ _ distinct free row effect =>
      right
      have hnew : uuid ∉ drawn := hfresh uuid (List.mem_singleton.mpr rfl)
      have hid : b.bindingId = bindingIdOf uuid := by rw [row]
      have hat : b.updatedAt = at_ := by rw [row]
      refine ⟨none, ⟨⟨uuid, hid, fun _ => hnew⟩, ?_, by simp, by rw [hat]; exact effect⟩, ?_⟩
      · rw [hid, KeyedTable.get_eq_none_iff]
        intro other hother hsame
        obtain ⟨prior, hprior, hpid⟩ := hdrawn other hother
        rw [bindingIdOf_injective (hsame.symm.trans hpid)] at hnew
        exact hnew hprior
      · intro other hother
        rw [bindingIdOf_injective (hother.symm.trans hid)]
        exact List.mem_append_left _ (List.mem_singleton.mpr rfl)
  | @moved id input at_ existing _ status _ distinct stored later free row effect =>
      right
      have hid : b.bindingId = id := by
        rw [row]
        exact (KeyedTable.key_of_get stored : existing.bindingId = id)
      have hat : b.updatedAt = at_ := by rw [row]; rfl
      have hcreated : existing.createdAt = b.createdAt := by rw [row]; rfl
      rw [← hid] at stored
      refine ⟨some existing, ⟨(hstored stored).1, stored, ?_, by rw [hat]; exact effect⟩,
        (hstored stored).2⟩
      rintro old ⟨rfl⟩
      exact ⟨by rw [hat]; exact later, hcreated⟩
  | @restated _ at_ existing _ status _ stored enabled later row effect =>
      right
      have hid : b.bindingId = existing.bindingId := by rw [row]
      have hat : b.updatedAt = at_ := by rw [row]
      have hcreated : existing.createdAt = b.createdAt := by rw [row]
      rw [← hid] at stored
      refine ⟨some existing, ⟨(hstored stored).1, stored, ?_, by rw [hat]; exact effect⟩,
        (hstored stored).2⟩
      rintro old ⟨rfl⟩
      exact ⟨by rw [hat]; exact later, hcreated⟩

namespace BindingSaved

variable {digest : Value → Fingerprint} {drawn : List Uuid} {s s' : Store}
  {previous : Option Binding} {b : Binding}

theorem bindings (h : BindingSaved digest drawn s previous b s') :
    s'.bindings = s.bindings.put b := by
  refine h.effect.bindings ?_
  intro old hold
  have hget : s.bindings.get b.bindingId = some old := hold
  rw [h.stored] at hget
  exact (h.advances old hget).2

theorem previous_id (h : BindingSaved digest drawn s previous b s') {old : Binding}
    (hold : previous = some old) : old.bindingId = b.bindingId := by
  have hget := h.stored
  rw [hold] at hget
  exact KeyedTable.key_of_get hget

/-- The rows of the commit configure the binding, as it is or as it was. -/
theorem configures (h : BindingSaved digest drawn s previous b s') {r : Relation}
    (hr : r ∈ Binding.commitRelations previous b b.updatedAt) :
    ∃ a : Binding, a.bindingId = b.bindingId ∧ r.Configures a := by
  rcases Binding.mem_commitRelations.mp hr with rfl | ⟨old, hold, _, rfl⟩
  · exact ⟨b, rfl, b.configuredRelation_configures _ _⟩
  · exact ⟨old, h.previous_id hold, old.configuredRelation_configures _ _⟩

/-- The former relation and the present one have different ids. -/
theorem ids_nodup (h : BindingSaved digest drawn s previous b s') :
    ((Binding.commitRelations previous b b.updatedAt).map Relation.relationId).Nodup := by
  have hagrees := (Store.relationRule.fitsAll_iff.mp h.effect.relationsFit).2
  cases hprevious : previous with
  | none => simp [Binding.commitRelations]
  | some old =>
      by_cases hchanged : Binding.identityChanged old b = true
      · have hlist : Binding.commitRelations (some old) b b.updatedAt =
            [old.configuredRelation .tombstoned b.updatedAt,
              b.configuredRelation b.status.relationLifecycle b.updatedAt] := by
          simp [Binding.commitRelations, Option.filter, hchanged]
        have hcommit : (Binding.commit digest previous b b.updatedAt).relations =
            [old.configuredRelation .tombstoned b.updatedAt,
              b.configuredRelation b.status.relationLifecycle b.updatedAt] := by
          rw [← hlist, ← hprevious]
          rfl
        rw [hlist, List.map_cons, List.map_singleton, List.nodup_cons]
        refine ⟨?_, List.nodup_singleton _⟩
        intro hid
        -- rows under one id would have to agree on the endpoints and the kind
        have hkey := hagrees _ (by rw [hcommit]; exact List.mem_cons_self) _
          (by rw [hcommit]; exact List.mem_cons_of_mem _ List.mem_cons_self)
          (List.mem_singleton.mp hid)
        have hlink := (Relation.Configures.key_eq_iff (old.configuredRelation_configures _ _)
          (b.configuredRelation_configures _ _)).mp hkey
        exact Binding.identityChanged_iff.mp hchanged hlink.2
      · simp [Binding.commitRelations, Option.filter, hchanged]

theorem relations (h : BindingSaved digest drawn s previous b s') :
    s'.relations = Store.relationRule.applyAll s.relations
      (Binding.commitRelations previous b b.updatedAt) := by
  rw [h.effect.eq]
  rfl

theorem relationVersions (h : BindingSaved digest drawn s previous b s') :
    s'.relationVersions = s.relationVersions.insertNewAll
      ((Binding.commitRelations previous b b.updatedAt).map fun r =>
        Binding.relationVersion digest r b.bindingId b.updatedAt) := by
  rw [h.effect.eq]
  rfl

/-- A row of the commit is stored up to its `first_seen_at`. -/
theorem get_written (h : BindingSaved digest drawn s previous b s') {r : Relation}
    (hr : r ∈ Binding.commitRelations previous b b.updatedAt) :
    ∃ seen, s'.relations.get r.relationId = some { r with firstSeenAt := seen } := by
  rw [h.relations, Store.relationRule.get_applyAll_of_nodup h.ids_nodup hr]
  unfold UpsertRule.row
  cases s.relations.get r.relationId with
  | none => exact ⟨r.firstSeenAt, rfl⟩
  | some old => exact ⟨old.firstSeenAt, rfl⟩

/-- A row found afterwards is one of the commit's or was there under its id. -/
theorem relation_cases (h : BindingSaved digest drawn s previous b s') {x : Relation}
    (hx : x ∈ s'.relations.rows) :
    (∃ r ∈ Binding.commitRelations previous b b.updatedAt, ∃ seen,
        x = { r with firstSeenAt := seen }) ∨
      x ∈ s.relations.rows ∧
        ∀ r ∈ Binding.commitRelations previous b b.updatedAt, r.relationId ≠ x.relationId := by
  by_cases hwritten : ∃ r ∈ Binding.commitRelations previous b b.updatedAt,
      r.relationId = x.relationId
  · left
    obtain ⟨r, hr, hid⟩ := hwritten
    obtain ⟨seen, hget⟩ := h.get_written hr
    have hx' : s'.relations.get r.relationId = some x := by
      rw [hid]
      exact KeyedTable.get_of_mem hx
    exact ⟨r, hr, seen, Option.some.inj (hx'.symm.trans hget)⟩
  · right
    have hnot : ∀ r ∈ Binding.commitRelations previous b b.updatedAt,
        r.relationId ≠ x.relationId := fun r hr hid => hwritten ⟨r, hr, hid⟩
    refine ⟨?_, hnot⟩
    rw [KeyedTable.mem_iff_get, h.relations, Store.relationRule.get_applyAll_of_not_mem hnot] at hx
    rw [KeyedTable.mem_iff_get]
    exact hx

theorem relation_kept (h : BindingSaved digest drawn s previous b s') {x : Relation}
    (hx : x ∈ s.relations.rows)
    (hnot : ∀ r ∈ Binding.commitRelations previous b b.updatedAt, r.relationId ≠ x.relationId) :
    x ∈ s'.relations.rows := by
  rw [KeyedTable.mem_iff_get, h.relations, Store.relationRule.get_applyAll_of_not_mem hnot]
  exact KeyedTable.get_of_mem hx

/-- Versions recorded before under an id the commit writes are older. -/
theorem version_before (h : BindingSaved digest drawn s previous b s') (hs : Traced drawn s)
    {r : Relation} (hr : r ∈ Binding.commitRelations previous b b.updatedAt)
    {v : RelationVersion} (hv : v ∈ s.relationVersions.rows) (hid : v.relationId = r.relationId) :
    v.observedAt < b.updatedAt := by
  obtain ⟨a, ha, hconfigures⟩ := h.configures hr
  obtain ⟨uuid, huuid, hnew⟩ := h.drew
  have hfirst : v.relationId.startsWith 'b' := by
    rw [hid, hconfigures.relationId]
    exact a.relationId_startsWith
  obtain ⟨c, ⟨prior, hprior, hcid⟩, hvid, hnewest⟩ := hs.versions v hv hfirst
  -- the version's relation id names the same binding
  have hsame : c.bindingId = b.bindingId := by
    have hids : c.relationId = a.relationId := by
      rw [← hvid, hid, hconfigures.relationId]
    rw [((Binding.relationId_eq_iff hcid (ha.trans huuid)).mp hids).1, ha]
  cases hprevious : previous with
  | none =>
      have hold := bindingIdOf_injective (hcid.symm.trans (hsame.trans huuid))
      rw [hold] at hprior
      exact absurd hprior (hnew hprevious)
  | some old =>
      have hget := h.stored
      rw [hprevious, ← hsame] at hget
      exact lt_of_le_of_lt (hnewest old hget) (h.advances old hprevious).1

/-- No version of the commit is dropped. -/
theorem versions_fresh (h : BindingSaved digest drawn s previous b s') (hs : Traced drawn s) :
    s.relationVersions.FreshAll
      ((Binding.commitRelations previous b b.updatedAt).map fun r =>
        Binding.relationVersion digest r b.bindingId b.updatedAt) := by
  constructor
  · intro version hversion
    obtain ⟨r, hr, rfl⟩ := List.mem_map.mp hversion
    rw [KeyedTable.get_eq_none_iff]
    intro v hv hvid
    have hfirst : v.relationVersionId.startsWith 'b' := by
      rw [hvid]
      exact bindingRelationVersionId_startsWith r.relationId b.updatedAt
    have hstamp := (hs.versionIds v hv hfirst).2
    obtain ⟨hrelation, htime⟩ := stamped_eq_iff.mp (hstamp.symm.trans hvid)
    have hbefore := h.version_before hs hr hv hrelation
    rw [htime] at hbefore
    exact lt_irrefl _ hbefore
  · rw [List.map_map]
    have hinj : ∀ x ∈ Binding.commitRelations previous b b.updatedAt,
        ∀ y ∈ Binding.commitRelations previous b b.updatedAt,
          bindingRelationVersionId x.relationId b.updatedAt =
            bindingRelationVersionId y.relationId b.updatedAt → x = y := by
      intro x hx y hy hsame
      exact List.inj_on_of_nodup_map h.ids_nodup hx hy (stamped_eq_iff.mp hsame).1
    exact (List.Nodup.of_map _ h.ids_nodup).map_on hinj

/-- A version found afterwards was there, or records a row of the commit. -/
theorem version_cases (h : BindingSaved digest drawn s previous b s') {v : RelationVersion}
    (hv : v ∈ s'.relationVersions.rows) :
    v ∈ s.relationVersions.rows ∨ ∃ r ∈ Binding.commitRelations previous b b.updatedAt,
      v = Binding.relationVersion digest r b.bindingId b.updatedAt := by
  rw [h.relationVersions] at hv
  rcases KeyedTable.mem_insertNewAll hv with hv | hv
  · exact Or.inl hv
  · obtain ⟨r, hr, rfl⟩ := List.mem_map.mp hv
    exact Or.inr ⟨r, hr, rfl⟩

theorem version_kept (h : BindingSaved digest drawn s previous b s') {v : RelationVersion}
    (hv : v ∈ s.relationVersions.rows) : v ∈ s'.relationVersions.rows := by
  rw [KeyedTable.mem_iff_get, h.relationVersions]
  exact KeyedTable.get_insertNewAll_of_some (KeyedTable.get_of_mem hv)

/-- The version the commit records of a row is the relation's newest. -/
theorem newest_written (h : BindingSaved digest drawn s previous b s') (hs : Traced drawn s)
    {r : Relation} (hr : r ∈ Binding.commitRelations previous b b.updatedAt) :
    s'.Newest (Binding.relationVersion digest r b.bindingId b.updatedAt) := by
  constructor
  · rw [KeyedTable.mem_iff_get, h.relationVersions]
    exact KeyedTable.get_insertNewAll_of_fresh (h.versions_fresh hs)
      (List.mem_map.mpr ⟨r, hr, rfl⟩)
  · intro u hu hid hne
    rcases h.version_cases hu with hu | ⟨r', hr', rfl⟩
    · exact h.version_before hs hr hu hid
    · exact absurd (by rw [List.inj_on_of_nodup_map h.ids_nodup hr' hr hid]) hne

/-- Rows and versions still name drawn bindings. -/
theorem traced (h : BindingSaved digest drawn s previous b s') (hs : Traced drawn s)
    {drawn' : List Uuid} (hgrown : ∀ uuid ∈ drawn, uuid ∈ drawn')
    (hin : ∀ uuid, b.bindingId = bindingIdOf uuid → uuid ∈ drawn') : Traced drawn' s' where
  initials := by
    intro x hx
    rcases h.relation_cases hx with ⟨r, hr, seen, rfl⟩ | ⟨hx, _⟩
    · obtain ⟨a, _, hconfigures⟩ := h.configures hr
      show r.relationId.startsWith r.evidence.evidenceType.initial
      rw [hconfigures.evidenceType, hconfigures.relationId]
      exact a.relationId_startsWith
    · exact hs.initials x hx
  configured := by
    intro x hx htype
    rcases h.relation_cases hx with ⟨r, hr, seen, rfl⟩ | ⟨hx, _⟩
    · obtain ⟨a, ha, hconfigures⟩ := h.configures hr
      obtain ⟨uuid, huuid, _⟩ := h.drew
      exact ⟨a, ⟨uuid, hin uuid huuid, ha.trans huuid⟩, hconfigures.relationId,
        hconfigures.source, hconfigures.target, hconfigures.kind, hconfigures.evidence,
        hconfigures.evidenceKey⟩
    · obtain ⟨a, ⟨uuid, hu, ha⟩, hconfigures⟩ := hs.configured x hx htype
      exact ⟨a, ⟨uuid, hgrown uuid hu, ha⟩, hconfigures⟩
  versionIds := by
    intro v hv hfirst
    rcases h.version_cases hv with hv | ⟨r, hr, rfl⟩
    · exact hs.versionIds v hv hfirst
    · obtain ⟨a, _, hconfigures⟩ := h.configures hr
      refine ⟨?_, rfl⟩
      show r.relationId.startsWith 'b'
      rw [hconfigures.relationId]
      exact a.relationId_startsWith
  versions := by
    intro v hv hfirst
    rcases h.version_cases hv with hv | ⟨r, hr, rfl⟩
    · obtain ⟨a, ⟨uuid, hu, ha⟩, hid, hbefore⟩ := hs.versions v hv hfirst
      refine ⟨a, ⟨uuid, hgrown uuid hu, ha⟩, hid, ?_⟩
      intro stored hstored
      rw [h.bindings, KeyedTable.get_put] at hstored
      by_cases hsame : a.bindingId = b.bindingId
      · -- the row put is newer than the one it replaces
        rw [if_pos hsame] at hstored
        cases hstored
        cases hprevious : previous with
        | none =>
            obtain ⟨new, hnew, hnot⟩ := h.drew
            have hold := bindingIdOf_injective (ha.symm.trans (hsame.trans hnew))
            rw [hold] at hu
            exact absurd hu (hnot hprevious)
        | some old =>
            have hget := h.stored
            rw [hprevious, ← hsame] at hget
            exact le_of_lt (lt_of_le_of_lt (hbefore old hget) (h.advances old hprevious).1)
      · rw [if_neg hsame] at hstored
        exact hbefore stored hstored
    · obtain ⟨a, ha, hconfigures⟩ := h.configures hr
      obtain ⟨uuid, huuid, _⟩ := h.drew
      refine ⟨a, ⟨uuid, hin uuid huuid, ha.trans huuid⟩, hconfigures.relationId, ?_⟩
      intro stored hstored
      rw [h.bindings, ha, KeyedTable.get_put_self] at hstored
      cases hstored
      exact le_refl _

/-- A relation of the binding that the commit does not write was one of the binding
that was stored. -/
theorem previous_of_untouched (h : BindingSaved digest drawn s previous b s')
    (hs : Traced drawn s) {x : Relation} (hx : x ∈ s.relations.rows)
    (hevidence : x.evidence = .configured b.bindingId) : ∃ old, previous = some old := by
  obtain ⟨uuid, huuid, hnew⟩ := h.drew
  obtain ⟨_, _, ⟨prior, hprior, hid⟩, _⟩ := hs.of_configured hx hevidence
  cases hprevious : previous with
  | none =>
      rw [bindingIdOf_injective (hid.symm.trans huuid)] at hprior
      exact absurd hprior (hnew hprevious)
  | some old => exact ⟨old, rfl⟩

/-- The binding saved is represented. -/
theorem represents (h : BindingSaved digest drawn s previous b s') (hs : Traced drawn s)
    (hprior : ∀ old, previous = some old → s.Represents old) : s'.Represents b where
  current := by
    have hmem : b.configuredRelation b.status.relationLifecycle b.updatedAt ∈
        Binding.commitRelations previous b b.updatedAt :=
      Binding.mem_commitRelations.mpr (Or.inl rfl)
    obtain ⟨seen, hget⟩ := h.get_written hmem
    exact ⟨_, KeyedTable.mem_of_get hget, ⟨rfl, rfl, rfl, rfl, rfl, rfl⟩, rfl⟩
  retired := by
    intro x hx hevidence hid
    rcases h.relation_cases hx with ⟨r, hr, seen, rfl⟩ | ⟨hx, hnot⟩
    · rcases Binding.mem_commitRelations.mp hr with rfl | ⟨old, _, _, rfl⟩
      · exact absurd rfl hid
      · rfl
    · obtain ⟨old, hold⟩ := h.previous_of_untouched hs hx hevidence
      apply (hprior old hold).retired x hx
      · rw [h.previous_id hold]
        exact hevidence
      · intro hsame
        by_cases hchanged : Binding.identityChanged old b = true
        · -- the former relation is tombstoned by the commit itself
          exact hnot _ (Binding.mem_commitRelations.mpr (Or.inr ⟨old, hold, hchanged, rfl⟩))
            hsame.symm
        · rw [Binding.identityChanged_iff, not_not] at hchanged
          obtain ⟨hsource, htarget, hkind⟩ := hchanged
          apply hid
          rw [hsame]
          unfold Binding.relationId
          simp only [h.previous_id hold, hsource, htarget, hkind]
  recorded := by
    intro x hx hevidence
    rcases h.relation_cases hx with ⟨r, hr, seen, rfl⟩ | ⟨hx, hnot⟩
    · exact ⟨_, h.newest_written hs hr, rfl, rfl⟩
    · obtain ⟨old, hold⟩ := h.previous_of_untouched hs hx hevidence
      rw [← h.previous_id hold] at hevidence
      obtain ⟨v, hnewest, hid, hsnapshot⟩ := (hprior old hold).recorded x hx hevidence
      refine ⟨v, ⟨h.version_kept hnewest.1, ?_⟩, hid, hsnapshot⟩
      intro u hu huid hne
      rcases h.version_cases hu with hu | ⟨r, hr, rfl⟩
      · exact hnewest.2 u hu huid hne
      · exact absurd (huid.trans hid) (hnot r hr)

/-- A row of another binding has another id than the rows of the commit. -/
theorem other_id (h : BindingSaved digest drawn s previous b s') {x : Relation} {c : Binding}
    (hx : x.Configures c) (hdrawn : ∃ uuid, c.bindingId = bindingIdOf uuid)
    (hne : c.bindingId ≠ b.bindingId) :
    ∀ r ∈ Binding.commitRelations previous b b.updatedAt, r.relationId ≠ x.relationId := by
  intro r hr hid
  obtain ⟨a, ha, hconfigures⟩ := h.configures hr
  obtain ⟨uuid, huuid, _⟩ := h.drew
  obtain ⟨other, hother⟩ := hdrawn
  have hids : a.relationId = c.relationId := by
    rw [← hconfigures.relationId, hid, hx.relationId]
  have hsame := ((Binding.relationId_eq_iff (ha.trans huuid) hother).mp hids).1
  exact hne (hsame.symm.trans ha)

/-- Every other binding is represented as before. -/
theorem represents_other (h : BindingSaved digest drawn s previous b s') (hs : Traced drawn s)
    {c : Binding} (hdrawn : ∃ uuid, c.bindingId = bindingIdOf uuid)
    (hne : c.bindingId ≠ b.bindingId) (hc : s.Represents c) : s'.Represents c := by
  have hold : ∀ x ∈ s'.relations.rows, x.evidence = .configured c.bindingId →
      x ∈ s.relations.rows := by
    intro x hx hevidence
    rcases h.relation_cases hx with ⟨r, hr, seen, rfl⟩ | ⟨hx, _⟩
    · obtain ⟨a, ha, hconfigures⟩ := h.configures hr
      have hsame : r.evidence = .configured c.bindingId := hevidence
      rw [hconfigures.evidence, RelationEvidence.configured.injEq, ha] at hsame
      exact absurd hsame.symm hne
    · exact hx
  refine hc.transfer hold ?_ ?_
  · intro x hx hconfigures
    exact h.relation_kept hx (h.other_id hconfigures hdrawn hne)
  · intro x hx hevidence v hid
    constructor
    · intro hv
      rcases h.version_cases hv with hv | ⟨r, hr, rfl⟩
      · exact hv
      · obtain ⟨a, ha, _, hconfigures⟩ := hs.of_configured (hold x hx hevidence) hevidence
        rw [← ha] at hdrawn hne
        exact absurd hid (h.other_id hconfigures hdrawn hne r hr)
    · exact h.version_kept

end BindingSaved

end NextInfra
