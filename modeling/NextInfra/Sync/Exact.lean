import NextInfra.Core.LocalRelation
import NextInfra.Sync.Resync

/-!
# A planned commit is exact

What `build_commit` plans for a batch with distinct keys of one connection: a version for
each resource whose fingerprint moved, one change for each whose fingerprint or lifecycle
moved, and one row for each resource observed or tombstoned.
-/

namespace NextInfra

/-! ## §1  Ids within one connection -/

/-- Kinds have no colon, so an id tells the keys of one connection apart. -/
theorem key_of_stableResourceId {a b : ResourceKey} (hconnection : a.connectionId = b.connectionId)
    (h : stableResourceId a = stableResourceId b) : a = b := by
  obtain ⟨connection, kind, externalId⟩ := a
  obtain ⟨connection', kind', externalId'⟩ := b
  obtain rfl : connection = connection' := hconnection
  have hval := val_eq_iff.mp h
  simp only [stableResourceId, String.toList_append, List.append_assoc, colon_toList,
    List.append_cancel_left_eq, List.singleton_append] at hval
  have hval := (List.cons.inj hval).2
  have hfree : ∀ {x y : NamespacedValue "ResourceKind"} {e e' : List Char},
      ¬ Separated.Shifted ':' x.val.toList e y.val.toList e' := by
    rintro x y e e' ⟨mid, hy, _⟩
    exact y.colon_not_mem (by rw [hy]; simp)
  rcases Separated.split_shifted hval with ⟨hkind, hexternal⟩ | hshift | hshift
  · rw [NamespacedValue.ext_val (String.toList_inj.mp hkind),
      StringValue.ext_val (String.toList_inj.mp hexternal)]
  · exact absurd hshift hfree
  · exact absurd hshift hfree

namespace ValidatedBatch.WellFormed

variable {batch : ValidatedBatch}

theorem key_unique (hwf : batch.WellFormed) {v w : ValidatedResource} (hv : v ∈ batch.resources)
    (hw : w ∈ batch.resources) (h : stableResourceId v.key = stableResourceId w.key) : v = w := by
  have hconnection : v.key.connectionId = w.key.connectionId := by
    rw [hwf.resourceConnection v hv, hwf.resourceConnection w hw]
  exact List.inj_on_of_nodup_map hwf.resourceKeys hv hw (key_of_stableResourceId hconnection h)

theorem observedIds_nodup (hwf : batch.WellFormed) : batch.observedIds.Nodup := by
  unfold ValidatedBatch.observedIds
  refine List.Nodup.map_on ?_ (List.Nodup.of_map _ hwf.resourceKeys)
  exact fun v hv w hw h => hwf.key_unique hv hw h

end ValidatedBatch.WellFormed

/-! ## §2  What a commit holds for one resource -/

namespace SyncCommit

def versionsOf (c : SyncCommit) (id : ResourceId) : List ResourceVersion :=
  c.resourceVersions.filter fun version => decide (version.resourceId = id)

def changesOf (c : SyncCommit) (id : ResourceId) : List Change :=
  c.changes.filter fun change => decide (change.subject = .resource id)

end SyncCommit

section

variable {α β ι : Type} [DecidableEq ι] (ident : α → ι) (named : ι → β → Bool) {as : List α}
  {entries : α → List β}

/-- Entries named by other ids are filtered out. -/
theorem filter_flatMap_of_not_mem
    (hnamed : ∀ a ∈ as, ∀ b ∈ entries a, ∀ id, named id b = decide (ident a = id)) {id : ι}
    (hid : id ∉ as.map ident) : (as.flatMap entries).filter (named id) = [] := by
  rw [List.filter_eq_nil_iff]
  intro b hb
  obtain ⟨a, ha, hba⟩ := List.mem_flatMap.mp hb
  rw [hnamed a ha b hba, decide_eq_true_iff]
  rintro rfl
  exact hid (List.mem_map.mpr ⟨a, ha, rfl⟩)

/-- Of contributions under distinct ids, the entries of one id are one contribution. -/
theorem filter_flatMap_of_nodup (hnodup : (as.map ident).Nodup)
    (hnamed : ∀ a ∈ as, ∀ b ∈ entries a, ∀ id, named id b = decide (ident a = id)) {a : α}
    (ha : a ∈ as) : (as.flatMap entries).filter (named (ident a)) = entries a := by
  induction as with
  | nil => cases ha
  | cons x as ih =>
      rw [List.map_cons, List.nodup_cons] at hnodup
      have hrest := fun y hy => hnamed y (List.mem_cons_of_mem x hy)
      rw [List.flatMap_cons, List.filter_append]
      rcases List.mem_cons.mp ha with rfl | ha
      · rw [filter_flatMap_of_not_mem ident named hrest hnodup.1, List.append_nil, List.filter_eq_self]
        intro b hb
        rw [hnamed a List.mem_cons_self b hb, decide_eq_true_iff]
      · rw [ih hnodup.2 hrest ha]
        have hx : (entries x).filter (named (ident a)) = [] := by
          rw [List.filter_eq_nil_iff]
          intro b hb
          rw [hnamed x List.mem_cons_self b hb, decide_eq_true_iff]
          intro hsame
          exact hnodup.1 (hsame ▸ List.mem_map.mpr ⟨a, ha, rfl⟩)
        rw [hx, List.nil_append]

end

namespace Store

variable (s : Store)

/-- The resource is new, or its stored fingerprint is another. -/
def FingerprintMoves (v : ValidatedResource) : Prop :=
  ∀ old, s.getResource (stableResourceId v.key) = some old → old.fingerprint ≠ v.fingerprint

/-- The resource is new, or its fingerprint or its lifecycle moves; what is observed is active. -/
def Moves (v : ValidatedResource) : Prop :=
  ∀ old, s.getResource (stableResourceId v.key) = some old →
    old.fingerprint ≠ v.fingerprint ∨ old.lifecycle ≠ .active

/-- The commit holds a version of the resource iff its fingerprint moves, and exactly one
change of it iff it moves at all. -/
structure ObservedExactly (c : SyncCommit) (v : ValidatedResource) : Prop where
  version : (s.FingerprintMoves v ∧ ∃ version, c.versionsOf (stableResourceId v.key) = [version] ∧
      version.fingerprint = v.fingerprint) ∨
    (¬ s.FingerprintMoves v ∧ c.versionsOf (stableResourceId v.key) = [])
  change : (s.Moves v ∧ ∃ change, c.changesOf (stableResourceId v.key) = [change] ∧
      change.observedAt = v.observedAt) ∨
    (¬ s.Moves v ∧ c.changesOf (stableResourceId v.key) = [])

/-- A row of the commit: a known resource stays first seen when it was, and is last changed
with the change the commit holds of it, or when it was if there is none. -/
structure RowExact (c : SyncCommit) (r : Resource) : Prop where
  firstSeen : ∀ old, s.getResource r.resourceId = some old → r.firstSeenAt = old.firstSeenAt
  lastChanged : (∃ change, c.changesOf r.resourceId = [change] ∧
      r.lastChangedAt = change.observedAt) ∨
    (c.changesOf r.resourceId = [] ∧ ∃ old, s.getResource r.resourceId = some old ∧
      r.lastChangedAt = old.lastChangedAt)

variable {s} {handle : SyncRunHandle} {batch : ValidatedBatch} {finishedAt : Timestamp}

/-- The versions of an observed resource are those its observation contributes. -/
theorem versionsOf_observed (hwf : batch.WellFormed) {v : ValidatedResource}
    (hv : v ∈ batch.resources) :
    (s.commitOf handle batch finishedAt).versionsOf (stableResourceId v.key) =
      (planResource (finishedRun handle batch finishedAt) v
        (s.getResource (stableResourceId v.key))).resourceVersions := by
  unfold SyncCommit.versionsOf
  rw [commitOf_resourceVersions]
  unfold resourcePlans
  rw [List.flatMap_map]
  refine filter_flatMap_of_nodup (fun w : ValidatedResource => stableResourceId w.key)
    (fun id (version : ResourceVersion) => decide (version.resourceId = id))
    hwf.observedIds_nodup ?_ hv
  intro w _ version hversion id
  rw [(planResource_version_id hversion).1]

/-- The changes of any resource: those of the observations, and of the resources that fall
due. -/
theorem changesOf_commitOf (id : ResourceId) :
    (s.commitOf handle batch finishedAt).changesOf id =
      (batch.resources.flatMap fun v => (planResource (finishedRun handle batch finishedAt) v
        (s.getResource (stableResourceId v.key))).changes).filter
          (fun change => decide (change.subject = .resource id)) ++
      ((s.dueOf handle.run.connectionId batch).flatMap fun old =>
        [tombstoneChange (finishedRun handle batch finishedAt) finishedAt old]).filter
          fun change => decide (change.subject = .resource id) := by
  have hrelations : ((s.relationPlans (finishedRun handle batch finishedAt)
      batch.relations).flatMap Plan.changes).filter
        (fun change => decide (change.subject = .resource id)) = [] := by
    rw [List.filter_eq_nil_iff]
    intro change hchange
    obtain ⟨p, hp, hmem⟩ := List.mem_flatMap.mp hchange
    obtain ⟨w, _, rfl⟩ := List.mem_map.mp hp
    rw [(planRelation_change_id hmem).2.1]
    simp
  unfold SyncCommit.changesOf
  rw [commitOf_changes, List.filter_append, List.filter_append, hrelations, List.nil_append]
  unfold resourcePlans
  rw [List.flatMap_map, List.map_eq_flatMap]

/-- An observed resource is not due. -/
theorem changesOf_observed (hwf : batch.WellFormed) {v : ValidatedResource}
    (hv : v ∈ batch.resources) :
    (s.commitOf handle batch finishedAt).changesOf (stableResourceId v.key) =
      (planResource (finishedRun handle batch finishedAt) v
        (s.getResource (stableResourceId v.key))).changes := by
  have hdue : stableResourceId v.key ∉
      (s.dueOf handle.run.connectionId batch).map Resource.resourceId := by
    intro hmem
    obtain ⟨old, hold, hid⟩ := List.mem_map.mp hmem
    have habsent := (mem_dueOf_stored hold).2.2.1
    rw [hid] at habsent
    exact habsent (List.mem_map.mpr ⟨v, hv, rfl⟩)
  rw [changesOf_commitOf,
    filter_flatMap_of_nodup (fun w : ValidatedResource => stableResourceId w.key)
      (fun id (change : Change) => decide (change.subject = .resource id)) hwf.observedIds_nodup
      _ hv,
    filter_flatMap_of_not_mem Resource.resourceId
      (fun id (change : Change) => decide (change.subject = .resource id)) _ hdue,
    List.append_nil]
  · intro old _ change hchange id
    rw [List.mem_singleton.mp hchange]
    simp [tombstoneChange, resourceChange, subjectChange, tombstoneResource]
  · intro w _ change hchange id
    rw [(planResource_change_id hchange).2.1]
    simp

/-! ## §3  One observed resource -/

/-- The outcome of an observation, read off the stored row. -/
theorem resourceOutcome_versions {v : ValidatedResource} {existing : Option Resource} :
    (resourceOutcome v existing).versions = true ↔
      ∀ old, existing = some old → old.fingerprint ≠ v.fingerprint := by
  cases existing with
  | none => simp [resourceOutcome, Outcome.of, Outcome.versions]
  | some old =>
      by_cases hf : old.fingerprint = v.fingerprint
      · by_cases hl : old.lifecycle = .active
        · simp [resourceOutcome, Outcome.of, Outcome.versions, hf, hl]
        · simp [resourceOutcome, Outcome.of, Outcome.versions, hf, hl]
      · simp [resourceOutcome, Outcome.of, Outcome.versions, hf]

theorem resourceOutcome_changes {v : ValidatedResource} {existing : Option Resource} :
    (resourceOutcome v existing).changes = true ↔
      ∀ old, existing = some old → old.fingerprint ≠ v.fingerprint ∨ old.lifecycle ≠ .active := by
  cases existing with
  | none => simp [resourceOutcome, Outcome.of, Outcome.changes]
  | some old =>
      by_cases hf : old.fingerprint = v.fingerprint
      · by_cases hl : old.lifecycle = .active
        · simp [resourceOutcome, Outcome.of, Outcome.changes, hf, hl]
        · simp [resourceOutcome, Outcome.of, Outcome.changes, hf, hl]
      · simp [resourceOutcome, Outcome.of, Outcome.changes, hf]

/-- A row's instant of change moves with its outcome. -/
theorem projectResource_lastChangedAt (v : ValidatedResource) (id : ResourceId) (run : SyncRun)
    (existing : Option Resource) :
    ((resourceOutcome v existing).changes = true ∧
        (projectResource v id run existing).lastChangedAt = v.observedAt) ∨
      ((resourceOutcome v existing).changes = false ∧ ∃ old, existing = some old ∧
        (projectResource v id run existing).lastChangedAt = old.lastChangedAt) := by
  cases existing with
  | none => exact Or.inl ⟨rfl, rfl⟩
  | some old =>
      by_cases hf : old.fingerprint = v.fingerprint
      · by_cases hl : old.lifecycle = .active
        · refine Or.inr ⟨?_, old, rfl, ?_⟩
          · simp [resourceOutcome, Outcome.of, Outcome.changes, hf, hl]
          · simp [projectResource, hf, hl]
        · refine Or.inl ⟨?_, ?_⟩
          · simp [resourceOutcome, Outcome.of, Outcome.changes, hf, hl]
          · simp [projectResource, hf, hl]
      · refine Or.inl ⟨?_, ?_⟩
        · simp [resourceOutcome, Outcome.of, Outcome.changes, hf]
        · simp [projectResource, hf]

theorem observed_exactly (hwf : batch.WellFormed) {v : ValidatedResource}
    (hv : v ∈ batch.resources) :
    s.ObservedExactly (s.commitOf handle batch finishedAt) v := by
  constructor
  · rw [versionsOf_observed hwf hv]
    by_cases hversions : (resourceOutcome v (s.getResource (stableResourceId v.key))).versions
    · refine Or.inl ⟨resourceOutcome_versions.mp hversions, ?_⟩
      simp only [planResource, Outcome.count, hversions, if_true]
      exact ⟨_, rfl, rfl⟩
    · refine Or.inr ⟨fun h => hversions (resourceOutcome_versions.mpr h), ?_⟩
      simp only [planResource, Outcome.count, hversions]
      rfl
  · rw [changesOf_observed hwf hv]
    by_cases hchanges : (resourceOutcome v (s.getResource (stableResourceId v.key))).changes
    · refine Or.inl ⟨resourceOutcome_changes.mp hchanges, ?_⟩
      simp only [planResource, Outcome.count, hchanges, if_true]
      exact ⟨_, rfl, rfl⟩
    · refine Or.inr ⟨fun h => hchanges (resourceOutcome_changes.mpr h), ?_⟩
      simp only [planResource, Outcome.count, hchanges]
      rfl

/-! ## §4  The rows of a commit -/

theorem dueOf_nodup (conn : ConnectionId) :
    ((s.dueOf conn batch).map Resource.resourceId).Nodup := by
  unfold dueOf
  cases batch.coverage with
  | authoritativeFull scope =>
      exact (s.listResourcesForScope_nodup conn scope).sublist (List.filter_sublist.map _)
  | incremental cursor => exact List.nodup_nil
  | partial_ scope reason => exact List.nodup_nil
  | targeted ids => exact List.nodup_nil

/-- Observed and tombstoned rows are apart. -/
theorem commitOf_ids_nodup (hwf : batch.WellFormed) :
    ((s.commitOf handle batch finishedAt).resources.map Resource.resourceId).Nodup := by
  rw [commitOf_resources, List.map_append, List.map_map, List.map_map, List.nodup_append]
  refine ⟨hwf.observedIds_nodup, dueOf_nodup handle.run.connectionId, ?_⟩
  intro id hid id' hid' hsame
  obtain ⟨old, hold, rfl⟩ := List.mem_map.mp hid'
  have hobserved : id ∈ batch.observedIds := hid
  rw [hsame] at hobserved
  exact (mem_dueOf_stored hold).2.2.1 hobserved

/-- A resource that falls due has one change. -/
theorem changesOf_due (finishedAt : Timestamp) {old : Resource}
    (hold : old ∈ s.dueOf handle.run.connectionId batch) :
    (s.commitOf handle batch finishedAt).changesOf old.resourceId =
      [tombstoneChange (finishedRun handle batch finishedAt) finishedAt old] := by
  have habsent : old.resourceId ∉ batch.resources.map fun w => stableResourceId w.key :=
    (mem_dueOf_stored hold).2.2.1
  rw [changesOf_commitOf,
    filter_flatMap_of_not_mem (fun w : ValidatedResource => stableResourceId w.key)
      (fun id (change : Change) => decide (change.subject = .resource id)) _ habsent,
    List.nil_append]
  · refine filter_flatMap_of_nodup Resource.resourceId
      (fun id (change : Change) => decide (change.subject = .resource id))
      (dueOf_nodup handle.run.connectionId) ?_ hold
    intro x _ change hchange id
    rw [List.mem_singleton.mp hchange]
    simp [tombstoneChange, resourceChange, subjectChange, tombstoneResource]
  · intro w _ change hchange id
    rw [(planResource_change_id hchange).2.1]
    simp

theorem row_exact (hwf : batch.WellFormed) {r : Resource}
    (hr : r ∈ (s.commitOf handle batch finishedAt).resources) :
    s.RowExact (s.commitOf handle batch finishedAt) r := by
  rw [commitOf_resources] at hr
  rcases List.mem_append.mp hr with hr | hr
  · obtain ⟨v, hv, rfl⟩ := List.mem_map.mp hr
    have hid : (s.projected (finishedRun handle batch finishedAt) v).resourceId =
        stableResourceId v.key := rfl
    constructor
    · intro old hold
      rw [hid] at hold
      unfold projected
      rw [hold]
      rfl
    · rw [hid, changesOf_observed hwf hv]
      rcases projectResource_lastChangedAt v (stableResourceId v.key)
        (finishedRun handle batch finishedAt) (s.getResource (stableResourceId v.key)) with
        ⟨hchanges, hlast⟩ | ⟨hchanges, old, hold, hlast⟩
      · refine Or.inl ?_
        simp only [planResource, Outcome.count, hchanges, if_true]
        exact ⟨_, rfl, hlast⟩
      · refine Or.inr ⟨?_, old, hold, hlast⟩
        simp only [planResource, Outcome.count, hchanges]
        rfl
  · obtain ⟨old, hold, rfl⟩ := List.mem_map.mp hr
    have hstored : s.getResource old.resourceId = some old := (mem_dueOf_stored hold).1
    constructor
    · intro old' hold'
      have hsame : some old = some old' := hstored.symm.trans hold'
      cases hsame
      rfl
    · have hchange := changesOf_due finishedAt hold
      exact Or.inl ⟨_, hchange, rfl⟩

/-- The tombstones of a commit are the resources that fall due. -/
theorem tombstones_length (handle : SyncRunHandle) (batch : ValidatedBatch)
    (finishedAt : Timestamp) :
    ((s.commitOf handle batch finishedAt).resources.filter fun r =>
      decide (r.lifecycle = .tombstoned)).length =
        (s.dueOf handle.run.connectionId batch).length := by
  rw [commitOf_resources, List.filter_append, List.filter_eq_nil_iff.mpr, List.nil_append,
    List.filter_eq_self.mpr, List.length_map]
  · intro r hr
    obtain ⟨old, _, rfl⟩ := List.mem_map.mp hr
    rfl
  · intro r hr
    obtain ⟨v, _, rfl⟩ := List.mem_map.mp hr
    simp [projected, projectResource]

end Store

end NextInfra
