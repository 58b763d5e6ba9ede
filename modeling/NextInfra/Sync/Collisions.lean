import NextInfra.Sync.Finality

/-!
# What colliding ids do to a commit

Two keys collide when their colon-separated texts regroup, two versions or
changes when text shifts across the colon between id and run. §1 is the first
consequence: the planned commit of a well-formed batch is accepted iff no two of
its rows, or a row and a stored one, meet at an id with different keys. §2 and §3
are the second: the versions and changes of an accepted commit under a running
run are all written iff none shifts into a stored one.
-/

namespace NextInfra

/-! ## §1  Rows -/

/-- The texts joined to a relation's id. -/
def RelationKey.fields (k : RelationKey) : List (List Char) :=
  ["relation".toList, k.sourceResourceId.val.toList, k.targetResourceId.val.toList,
    k.kind.val.toList, k.evidenceKey.val.toList]

def RelationKey.Regroups (a b : RelationKey) : Prop :=
  Separated.segments ':' a.fields = Separated.segments ':' b.fields

theorem relationIdOfKey_toList (k : RelationKey) :
    (Store.relationIdOfKey k).val.toList = Separated.join ':' k.fields := by
  simp only [Store.relationIdOfKey, relationIdOf, RelationKey.fields, String.toList_append,
    Separated.join_cons_cons, Separated.join_singleton, List.append_assoc]
  rfl

theorem relationIdOfKey_eq_iff {a b : RelationKey} :
    Store.relationIdOfKey a = Store.relationIdOfKey b ↔ a.Regroups b := by
  rw [val_eq_iff, relationIdOfKey_toList, relationIdOfKey_toList]
  exact Separated.join_eq_iff (List.cons_ne_nil _ _) (List.cons_ne_nil _ _)

/-- The identity columns of the row planned for a relation. -/
def ValidatedRelation.rowKey (v : ValidatedRelation) : RelationKey where
  sourceResourceId := stableResourceId v.key.source
  targetResourceId := stableResourceId v.key.target
  kind := v.key.kind
  evidenceType := v.evidence.evidenceType
  evidenceKey := v.key.evidenceKey

namespace Store

/-- No two rows that differ in key regroup to one id. -/
structure KeysApart (s : Store) (batch : ValidatedBatch) : Prop where
  resourcesStored : ∀ v ∈ batch.resources, ∀ x ∈ s.resources.rows,
    x.key.Regroups v.key → x.key = v.key
  resources : ∀ v ∈ batch.resources, ∀ w ∈ batch.resources, v.key.Regroups w.key → v.key = w.key
  relationsStored : ∀ v ∈ batch.relations, ∀ x ∈ s.relations.rows,
    x.key.Regroups v.rowKey → x.key = v.rowKey
  relations : ∀ v ∈ batch.relations, ∀ w ∈ batch.relations,
    v.rowKey.Regroups w.rowKey → v.rowKey = w.rowKey

variable {s : Store} {handle : SyncRunHandle} {batch : ValidatedBatch} {at_ : Timestamp}

theorem fits_iff {κ ρ ι : Type} [LinearOrder κ] {key : ρ → κ} {u : UpsertRule key ι}
    {t : KeyedTable key} {r : ρ} :
    u.Fits t r ↔ ∀ x ∈ t.rows, key x = key r → u.ident x = u.ident r := by
  constructor
  · intro hfit x hx hk
    exact hfit x (hk ▸ KeyedTable.get_of_mem hx)
  · intro h x hx
    exact h x (KeyedTable.mem_of_get hx) (KeyedTable.key_of_get hx)

/-- The row of a resource that falls due meets only itself. -/
theorem tombstone_apart {old : Resource}
    (hold : old ∈ s.dueOf handle.run.connectionId batch) {r : Resource}
    (hr : r ∈ (s.commitOf handle batch at_).resources) (hid : r.resourceId = old.resourceId) :
    r.key = old.key := by
  obtain ⟨hstored, _, hnobs, _⟩ := mem_dueOf_stored hold
  rw [commitOf_resources] at hr
  rcases List.mem_append.mp hr with hr | hr
  · obtain ⟨v, hv, rfl⟩ := List.mem_map.mp hr
    have hid' : stableResourceId v.key = old.resourceId := hid
    exact absurd (hid' ▸ List.mem_map_of_mem hv) hnobs
  · obtain ⟨old', hold', rfl⟩ := List.mem_map.mp hr
    have hid' : old'.resourceId = old.resourceId := hid
    have hstored' := (mem_dueOf_stored hold').1
    rw [hid', hstored] at hstored'
    rw [Option.some.inj hstored']
    rfl

theorem agrees_resources_iff (hs : s.WellIdentified) :
    resourceRule.Agrees s.resources (s.commitOf handle batch at_).resources ↔
      (∀ v ∈ batch.resources, ∀ x ∈ s.resources.rows, x.key.Regroups v.key → x.key = v.key) ∧
      ∀ v ∈ batch.resources, ∀ w ∈ batch.resources, v.key.Regroups w.key → v.key = w.key := by
  have hproj : ∀ v ∈ batch.resources, s.projected (finishedRun handle batch at_) v ∈
      (s.commitOf handle batch at_).resources := by
    intro v hv
    rw [commitOf_resources]
    exact List.mem_append_left _ (List.mem_map_of_mem hv)
  constructor
  · rintro ⟨hfits, hpair⟩
    refine ⟨?_, ?_⟩
    · intro v hv x hx hregroups
      refine fits_iff.mp (hfits _ (hproj v hv)) x hx ?_
      rw [hs.resources x hx]
      exact stableResourceId_eq_iff.mpr hregroups
    · intro v hv w hw hregroups
      exact hpair _ (hproj v hv) _ (hproj w hw) (stableResourceId_eq_iff.mpr hregroups)
  · rintro ⟨hstored, hbatch⟩
    refine ⟨?_, ?_⟩
    · intro r hr
      rw [fits_iff]
      intro x hx hid
      have hr' := hr
      rw [commitOf_resources] at hr'
      rcases List.mem_append.mp hr' with hr' | hr'
      · obtain ⟨v, hv, rfl⟩ := List.mem_map.mp hr'
        refine hstored v hv x hx (stableResourceId_eq_iff.mp ?_)
        rw [← hs.resources x hx]
        exact hid
      · obtain ⟨old, hold, rfl⟩ := List.mem_map.mp hr'
        have hsame : x = old := s.resources.row_unique hx
          (KeyedTable.mem_of_get (mem_dueOf_stored hold).1) hid
        rw [hsame]
        rfl
    · intro r hr r' hr' hid
      rw [commitOf_resources] at hr
      rcases List.mem_append.mp hr with hr | hr
      · obtain ⟨v, hv, rfl⟩ := List.mem_map.mp hr
        have hr'' := hr'
        rw [commitOf_resources] at hr''
        rcases List.mem_append.mp hr'' with hr'' | hr''
        · obtain ⟨w, hw, rfl⟩ := List.mem_map.mp hr''
          exact hbatch v hv w hw (stableResourceId_eq_iff.mp hid)
        · obtain ⟨old, hold, rfl⟩ := List.mem_map.mp hr''
          exact tombstone_apart hold (hproj v hv) hid
      · obtain ⟨old, hold, rfl⟩ := List.mem_map.mp hr
        exact (tombstone_apart hold hr' hid.symm).symm

theorem projectedRelation_id (v : ValidatedRelation) :
    (s.projectedRelation v).relationId = relationIdOfKey v.rowKey := rfl

theorem agrees_relations_iff (hs : s.WellIdentified) :
    relationRule.Agrees s.relations (s.commitOf handle batch at_).relations ↔
      (∀ v ∈ batch.relations, ∀ x ∈ s.relations.rows,
        x.key.Regroups v.rowKey → x.key = v.rowKey) ∧
      ∀ v ∈ batch.relations, ∀ w ∈ batch.relations,
        v.rowKey.Regroups w.rowKey → v.rowKey = w.rowKey := by
  have hmeet : ∀ v, ∀ x ∈ s.relations.rows,
      x.relationId = (s.projectedRelation v).relationId ↔ x.key.Regroups v.rowKey := by
    intro v x hx
    have hid : x.relationId = relationIdOfKey x.key := hs.relations x hx
    rw [hid, projectedRelation_id, relationIdOfKey_eq_iff]
  have hmeet' : ∀ v w, (s.projectedRelation v).relationId = (s.projectedRelation w).relationId ↔
      v.rowKey.Regroups w.rowKey := by
    intro v w
    rw [projectedRelation_id, projectedRelation_id, relationIdOfKey_eq_iff]
  rw [commitOf_relations]
  constructor
  · rintro ⟨hfits, hpair⟩
    refine ⟨?_, ?_⟩
    · intro v hv x hx hregroups
      have hfit := fits_iff.mp (hfits (s.projectedRelation v) (List.mem_map_of_mem hv))
      exact hfit x hx ((hmeet v x hx).mpr hregroups)
    · intro v hv w hw hregroups
      exact hpair (s.projectedRelation v) (List.mem_map_of_mem hv) (s.projectedRelation w)
        (List.mem_map_of_mem hw) ((hmeet' v w).mpr hregroups)
  · rintro ⟨hstored, hbatch⟩
    refine ⟨?_, ?_⟩
    · intro r hr
      obtain ⟨v, hv, rfl⟩ := List.mem_map.mp hr
      rw [fits_iff]
      exact fun x hx heq => hstored v hv x hx ((hmeet v x hx).mp heq)
    · intro r hr r' hr' heq
      obtain ⟨v, hv, rfl⟩ := List.mem_map.mp hr
      obtain ⟨w, hw, rfl⟩ := List.mem_map.mp hr'
      exact hbatch v hv w hw ((hmeet' v w).mp heq)

/-- The planned commit of a well-formed batch passes the provenance checks. -/
theorem validateCommit_commitOf (hchecked : s.Checked handle batch) (hwf : batch.WellFormed) :
    validateCommit (s.commitOf handle batch at_) = .ok () := by
  have hresources : (s.commitOf handle batch at_).resources.any (fun resource =>
      decide (resource.connectionId ≠ handle.run.connectionId) ||
        decide (resource.lastSyncRunId ≠ handle.run.syncRunId)) = false := by
    rw [List.any_eq_false]
    intro r hr
    rw [commitOf_resources] at hr
    rcases List.mem_append.mp hr with hr | hr
    · obtain ⟨v, hv, rfl⟩ := List.mem_map.mp hr
      have hconn : v.key.connectionId = handle.run.connectionId :=
        (hwf.resourceConnection v hv).trans hchecked.connection.symm
      simp [projected, projectResource, finishedRun, hconn]
    · obtain ⟨old, hold, rfl⟩ := List.mem_map.mp hr
      simp [tombstoneResource, finishedRun, (mem_dueOf_stored hold).2.1]
  have hversions : (s.commitOf handle batch at_).resourceVersions.any (fun version =>
      decide (version.syncRunId ≠ handle.run.syncRunId)) = false := by
    rw [List.any_eq_false]
    intro x hx
    rw [commitOf_resourceVersions] at hx
    obtain ⟨p, hp, hxp⟩ := List.mem_flatMap.mp hx
    obtain ⟨v, _, rfl⟩ := List.mem_map.mp hp
    have hrun : x.syncRunId = handle.run.syncRunId := (planResource_version_id hxp).2.1
    simp [hrun]
  have hrelations : (s.commitOf handle batch at_).relations.any
      (foreignEvidence (s.commitOf handle batch at_).syncRun) = false := by
    rw [List.any_eq_false]
    intro r hr
    rw [commitOf_relations] at hr
    obtain ⟨v, hv, rfl⟩ := List.mem_map.mp hr
    obtain ⟨path, hpath⟩ := hwf.evidence v hv
    have hevidence : (s.projectedRelation v).evidence =
        .provider handle.run.connectionId handle.run.syncRunId path := by
      rw [hchecked.connection, hchecked.syncRun]
      exact hpath
    have hconn : (s.commitOf handle batch at_).syncRun.connectionId =
        handle.run.connectionId := rfl
    have hrun : (s.commitOf handle batch at_).syncRun.syncRunId = handle.run.syncRunId := rfl
    simp [foreignEvidence, hevidence, hconn, hrun]
  unfold validateCommit
  show (if (s.commitOf handle batch at_).cursorAfter ≠
      (s.commitOf handle batch at_).syncRun.cursorAfter then _ else _) = _
  rw [if_neg (fun h => h rfl)]
  show (if (s.commitOf handle batch at_).resources.any (fun resource =>
      decide (resource.connectionId ≠ handle.run.connectionId) ||
        decide (resource.lastSyncRunId ≠ handle.run.syncRunId)) then _ else _) = _
  rw [hresources]
  show (if (s.commitOf handle batch at_).resourceVersions.any (fun version =>
      decide (version.syncRunId ≠ handle.run.syncRunId)) then _ else _) = _
  rw [hversions]
  show (if (s.commitOf handle batch at_).relations.any
      (foreignEvidence (s.commitOf handle batch at_).syncRun) then _ else _) = _
  rw [hrelations]
  rfl

/-- The planned commit of a well-formed batch is accepted iff its keys and the
stored ones are apart. -/
theorem commitOf_accepted_iff (hs : s.WellIdentified) (hi : s.Issued handle)
    (hchecked : s.Checked handle batch) (hwf : batch.WellFormed) :
    (∃ r s', s.commitSync (s.commitOf handle batch at_) = .ok (r, s')) ↔ s.KeysApart batch := by
  rw [commitSync_accepts_iff hs (offerable_commitOf hs hi hchecked.endpoints at_)]
  constructor
  · intro hfit
    obtain ⟨h₁, h₂⟩ := (agrees_resources_iff hs).mp hfit.resources
    obtain ⟨h₃, h₄⟩ := (agrees_relations_iff hs).mp hfit.relations
    exact ⟨h₁, h₂, h₃, h₄⟩
  · rintro ⟨h₁, h₂, h₃, h₄⟩
    exact
      { provenance := validateCommit_commitOf hchecked hwf
        resources := (agrees_resources_iff hs).mpr ⟨h₁, h₂⟩
        relations := (agrees_relations_iff hs).mpr ⟨h₃, h₄⟩ }

end Store

/-! ## §2  Versions and changes are of ended runs -/

namespace ChangeSubject

/-- The id text of a change's subject. -/
def text : ChangeSubject → String
  | .resource id => id.val
  | .relation id => id.val
  | .binding id => id.val

def changeId : ChangeSubject → SyncRunId → ChangeId
  | .resource id, run => NextInfra.changeId id run
  | .relation id, run => NextInfra.changeId id run
  | .binding id, run => NextInfra.changeId id run

theorem changeId_eq_iff {a b : ChangeSubject} {r q : SyncRunId} :
    a.changeId r = b.changeId q ↔ (a.text, r) = (b.text, q) ∨ PairShifts a.text r b.text q := by
  cases a <;> cases b <;> exact NextInfra.changeId_eq_iff

end ChangeSubject

namespace Store

/-- The run is stored and has ended. -/
def Ended (s : Store) (run : SyncRunId) : Prop :=
  ∃ row, s.getSyncRun run = some row ∧ row.status ≠ .running

/-- Every version and change carries the id built from its data and is of a run
that has ended. -/
structure Recorded (s : Store) : Prop where
  resourceVersions : ∀ x ∈ s.resourceVersions.rows,
    x.versionId = resourceVersionId x.resourceId x.syncRunId ∧ s.Ended x.syncRunId
  relationVersions : ∀ x ∈ s.relationVersions.rows, ∃ run, x.origin = .syncRun run ∧
    x.relationVersionId = relationVersionId x.relationId run ∧ s.Ended run
  changes : ∀ x ∈ s.changes.rows, ∃ run, x.origin = .syncRun run ∧
    x.changeId = x.subject.changeId run ∧ s.Ended run

end Store

namespace System

/-- A run that has ended never runs again. -/
theorem ended_persists {sys : System} (hs : sys.Sound) {call : Call} (hen : sys.enabled call)
    {id : SyncRunId} (h : sys.store.Ended id) : (sys.step call).store.Ended id := by
  obtain ⟨row, hrow, hended⟩ := h
  by_cases htimely : sys.Timely call
  · exact ⟨row, ended_step hs hen htimely hrow hended, hended⟩
  · cases call with
    | connect connection => exact absurd trivial htimely
    | secret connection secret => exact absurd trivial htimely
    | start e connection start => exact absurd trivial htimely
    | recover e at_ => exact absurd trivial htimely
    | finish e call =>
        by_cases hlands : sys.Lands e call
        · obtain ⟨commit, hplanned, _, hafter⟩ := run_of_lands hs hen hlands hrow
          rw [Store.Ended, hafter]
          by_cases hid : id = call.handle.run.syncRunId
          · rw [if_pos hid]
            have ho := offerable_of_planned hs.identified (hs.issued _ hen).1 hplanned
            exact ⟨_, rfl, ho.finished.1⟩
          · rw [if_neg hid]
            exact ⟨row, rfl, hended⟩
        · rw [store_of_not_lands hs hen hlands]
          exact ⟨row, hrow, hended⟩

/-- An applied commit ends its run. -/
theorem ended_of_effect {s s' : Store} {c : SyncCommit} {r : CommitResult}
    (h : CommitEffect s c r s') : s'.Ended c.syncRun.syncRunId := by
  obtain ⟨stored, hstored, _, hruns⟩ := h.started
  refine ⟨Store.completedRow stored c.syncRun, ?_, h.finished⟩
  have hkey : stored.syncRunId = c.syncRun.syncRunId := KeyedTable.key_of_get hstored
  unfold Store.getSyncRun
  rw [hruns, ← hkey]
  exact KeyedTable.get_put_self _ _

theorem recorded_preserved : machine.Preserves fun sys => sys.Sound ∧ sys.store.Recorded := by
  rintro sys call hen ⟨hs, hr⟩
  refine ⟨sound_preserved sys call hen hs, ?_⟩
  show (sys.step call).store.Recorded
  have hmoves := step_moves hs hen
  have hkeep : ∀ run, sys.store.Ended run → (sys.step call).store.Ended run :=
    fun run h => ended_persists hs hen h
  generalize sys.step call = next at hmoves hkeep ⊢
  have hresourceVersions : ∀ x ∈ sys.store.resourceVersions.rows,
      x.versionId = resourceVersionId x.resourceId x.syncRunId ∧
        next.store.Ended x.syncRunId := fun x hx =>
    ⟨(hr.resourceVersions x hx).1, hkeep _ (hr.resourceVersions x hx).2⟩
  have hrelationVersions : ∀ x ∈ sys.store.relationVersions.rows, ∃ run,
      x.origin = .syncRun run ∧ x.relationVersionId = relationVersionId x.relationId run ∧
        next.store.Ended run := by
    intro x hx
    obtain ⟨run, horigin, hid, hended⟩ := hr.relationVersions x hx
    exact ⟨run, horigin, hid, hkeep _ hended⟩
  have hchanges : ∀ x ∈ sys.store.changes.rows, ∃ run, x.origin = .syncRun run ∧
      x.changeId = x.subject.changeId run ∧ next.store.Ended run := by
    intro x hx
    obtain ⟨run, horigin, hid, hended⟩ := hr.changes x hx
    exact ⟨run, horigin, hid, hkeep _ hended⟩
  cases hmoves with
  | quiet _ same log =>
      constructor
      · rw [same.resourceVersions]
        exact hresourceVersions
      · rw [same.relationVersions]
        exact hrelationVersions
      · rw [same.changes]
        exact hchanges
  | failed e handle error at_ r empty effect log =>
      constructor
      · rw [effect.resourceVersions]
        exact hresourceVersions
      · rw [effect.relationVersions]
        exact hrelationVersions
      · rw [effect.changes]
        exact hchanges
  | committed e handle batch at_ r empty checked effect log =>
      have hnow : next.store.Ended handle.run.syncRunId := ended_of_effect effect
      constructor
      · intro x hx
        rw [effect.resourceVersions] at hx
        rcases KeyedTable.mem_insertNewAll hx with hold | hnew
        · exact hresourceVersions x hold
        · rw [Store.commitOf_resourceVersions] at hnew
          obtain ⟨p, hp, hxp⟩ := List.mem_flatMap.mp hnew
          obtain ⟨v, _, rfl⟩ := List.mem_map.mp hp
          obtain ⟨_, hrun, hid⟩ := Store.planResource_version_id hxp
          refine ⟨hid, ?_⟩
          rw [hrun]
          exact hnow
      · intro x hx
        rw [effect.relationVersions] at hx
        rcases KeyedTable.mem_insertNewAll hx with hold | hnew
        · exact hrelationVersions x hold
        · rw [Store.commitOf_relationVersions] at hnew
          obtain ⟨p, hp, hxp⟩ := List.mem_flatMap.mp hnew
          obtain ⟨v, _, rfl⟩ := List.mem_map.mp hp
          obtain ⟨_, horigin, hid⟩ := Store.planRelation_version_id hxp
          exact ⟨handle.run.syncRunId, horigin, hid, hnow⟩
      · intro x hx
        rw [effect.changes] at hx
        rcases KeyedTable.mem_insertNewAll hx with hold | hnew
        · exact hchanges x hold
        · rw [Store.commitOf_changes] at hnew
          rcases List.mem_append.mp hnew with hnew | hnew
          · obtain ⟨p, hp, hxp⟩ := List.mem_flatMap.mp hnew
            obtain ⟨v, _, rfl⟩ := List.mem_map.mp hp
            obtain ⟨hid, hsubject, horigin⟩ := Store.planResource_change_id hxp
            refine ⟨handle.run.syncRunId, horigin, ?_, hnow⟩
            rw [hid, hsubject]
            rfl
          · rcases List.mem_append.mp hnew with hnew | hnew
            · obtain ⟨p, hp, hxp⟩ := List.mem_flatMap.mp hnew
              obtain ⟨v, _, rfl⟩ := List.mem_map.mp hp
              obtain ⟨hid, hsubject, horigin⟩ := Store.planRelation_change_id hxp
              refine ⟨handle.run.syncRunId, horigin, ?_, hnow⟩
              rw [hid, hsubject]
              rfl
            · obtain ⟨old, _, rfl⟩ := List.mem_map.mp hnew
              exact ⟨handle.run.syncRunId, rfl, rfl, hnow⟩

theorem recorded_fresh : fresh.store.Recorded := by
  constructor
  · intro x hx
    cases hx
  · intro x hx
    cases hx
  · intro x hx
    cases hx

theorem Reachable.recorded {sys : System} (h : sys.Reachable) : sys.store.Recorded := by
  obtain ⟨calls, hrun⟩ := h
  exact (hrun.invariant recorded_preserved ⟨sound_fresh, recorded_fresh⟩).2

end System

/-! ## §3  Dropped rows -/

namespace Store

variable {s : Store} {handle : SyncRunHandle} {batch : ValidatedBatch} {at_ : Timestamp}

def resourceOutcomeOf (s : Store) (v : ValidatedResource) : Outcome :=
  resourceOutcome v (s.getResource (stableResourceId v.key))

def relationOutcomeOf (s : Store) (v : ValidatedRelation) : Outcome :=
  relationOutcome v (s.getRelation (stableRelationId v.key))
    (s.latestRelationVersionFingerprint (stableRelationId v.key))

/-- The resources of the batch that leave a version. -/
def versionedResources (s : Store) (batch : ValidatedBatch) : List ResourceId :=
  (batch.resources.filter fun v => (s.resourceOutcomeOf v).versions).map
    fun v => stableResourceId v.key

def versionedRelations (s : Store) (batch : ValidatedBatch) : List RelationId :=
  (batch.relations.filter fun v => (s.relationOutcomeOf v).versions).map
    fun v => stableRelationId v.key

/-- What leaves a change: resources, relations and rows that fall due. -/
def changedSubjects (s : Store) (conn : ConnectionId) (batch : ValidatedBatch) :
    List ChangeSubject :=
  ((batch.resources.filter fun v => (s.resourceOutcomeOf v).changes).map
      fun v => .resource (stableResourceId v.key)) ++
    (((batch.relations.filter fun v => (s.relationOutcomeOf v).changes).map
        fun v => .relation (stableRelationId v.key)) ++
      (s.dueOf conn batch).map fun old => .resource old.resourceId)

/-- No version or change of the batch, under this run, shifts into a stored one,
and no two relations that leave a change share an id. -/
structure RecordsApart (s : Store) (conn : ConnectionId) (run : SyncRunId)
    (batch : ValidatedBatch) : Prop where
  resourceVersions : ∀ id ∈ s.versionedResources batch, ∀ x ∈ s.resourceVersions.rows,
    ¬ PairShifts x.resourceId.val x.syncRunId id.val run
  relationVersions : ∀ id ∈ s.versionedRelations batch, ∀ x ∈ s.relationVersions.rows, ∀ q,
    x.origin = .syncRun q → ¬ PairShifts x.relationId.val q id.val run
  changes : ∀ subject ∈ s.changedSubjects conn batch, ∀ x ∈ s.changes.rows, ∀ q,
    x.origin = .syncRun q → ¬ PairShifts x.subject.text q subject.text run
  relations : ∀ v ∈ batch.relations, ∀ w ∈ batch.relations,
    (s.relationOutcomeOf v).changes = true → (s.relationOutcomeOf w).changes = true →
      v.key.Regroups w.key → v = w

/-- A walk in which each item leaves its own key or nothing. -/
theorem map_flatMap_of_each {α β γ δ : Type} {f : α → β} {g : β → List γ} {key : γ → δ}
    {p : α → Bool} {k : α → δ} (h : ∀ a, (g (f a)).map key = if p a then [k a] else [])
    (as : List α) : ((as.map f).flatMap g).map key = (as.filter p).map k := by
  induction as with
  | nil => rfl
  | cons a as ih =>
      rw [List.map_cons, List.flatMap_cons, List.map_append, ih, h a]
      by_cases hp : p a = true
      · rw [if_pos hp, List.filter_cons_of_pos hp]
        rfl
      · rw [if_neg hp, List.filter_cons_of_neg hp]
        rfl

theorem commitOf_versionIds :
    (s.commitOf handle batch at_).resourceVersions.map ResourceVersion.versionId =
      (s.versionedResources batch).map fun id => resourceVersionId id handle.run.syncRunId := by
  rw [commitOf_resourceVersions, versionedResources, List.map_map]
  refine map_flatMap_of_each ?_ batch.resources
  intro v
  unfold planResource Outcome.count resourceOutcomeOf
  simp only
  split <;> rfl

theorem commitOf_relationVersionIds :
    (s.commitOf handle batch at_).relationVersions.map RelationVersion.relationVersionId =
      (s.versionedRelations batch).map fun id => relationVersionId id handle.run.syncRunId := by
  rw [commitOf_relationVersions, versionedRelations, List.map_map]
  refine map_flatMap_of_each ?_ batch.relations
  intro v
  unfold planRelation Outcome.count relationOutcomeOf
  simp only
  split <;> rfl

theorem commitOf_changeIds :
    (s.commitOf handle batch at_).changes.map Change.changeId =
      (s.changedSubjects handle.run.connectionId batch).map fun subject =>
        subject.changeId handle.run.syncRunId := by
  rw [commitOf_changes, changedSubjects, List.map_append, List.map_append, List.map_append,
    List.map_append, List.map_map, List.map_map, List.map_map, List.map_map]
  refine congr (congrArg _ ?_) (congr (congrArg _ ?_) ?_)
  · refine map_flatMap_of_each ?_ batch.resources
    intro v
    unfold planResource Outcome.count resourceOutcomeOf
    simp only
    split <;> rfl
  · refine map_flatMap_of_each ?_ batch.relations
    intro v
    unfold planRelation Outcome.count relationOutcomeOf
    simp only
    split <;> rfl
  · rfl

/-- Insertion without a drop, in terms of the keys alone. -/
theorem freshAll_iff_of_keys {κ ρ α : Type} [LinearOrder κ] {key : ρ → κ} {t : KeyedTable key}
    {rows : List ρ} {as : List α} {f : α → κ} (hkeys : rows.map key = as.map f) :
    t.FreshAll rows ↔ (∀ a ∈ as, ∀ x ∈ t.rows, key x ≠ f a) ∧ (as.map f).Nodup := by
  have hfree : (∀ r ∈ rows, t.get (key r) = none) ↔ ∀ k ∈ rows.map key, t.get k = none := by
    simp
  unfold KeyedTable.FreshAll
  rw [hfree, hkeys]
  simp only [List.forall_mem_map, KeyedTable.get_eq_none_iff]

/-- Keys that are apart give distinct resource ids. -/
theorem observedIds_nodup (hwf : batch.WellFormed) (hapart : s.KeysApart batch) :
    batch.observedIds.Nodup := by
  have hmap : batch.observedIds = (batch.resources.map ValidatedResource.key).map stableResourceId := by
    rw [List.map_map]
    rfl
  rw [hmap]
  refine List.Nodup.map_on ?_ hwf.resourceKeys
  intro x hx y hy hid
  obtain ⟨v, hv, rfl⟩ := List.mem_map.mp hx
  obtain ⟨w, hw, rfl⟩ := List.mem_map.mp hy
  exact hapart.resources v hv w hw (stableResourceId_eq_iff.mp hid)

/-- The relations picked from a well-formed batch have distinct ids iff no two of
them regroup. -/
theorem relationIds_nodup_iff (hwf : batch.WellFormed) (p : ValidatedRelation → Bool) :
    ((batch.relations.filter p).map fun v => stableRelationId v.key).Nodup ↔
      ∀ v ∈ batch.relations, ∀ w ∈ batch.relations, p v = true → p w = true →
        v.key.Regroups w.key → v = w := by
  have hnodup : (batch.relations.filter p).Nodup :=
    (List.Nodup.of_map _ hwf.relationKeys).filter _
  rw [List.nodup_map_iff_inj_on hnodup]
  constructor
  · intro h v hv w hw hpv hpw hregroups
    exact h v (List.mem_filter.mpr ⟨hv, hpv⟩) w (List.mem_filter.mpr ⟨hw, hpw⟩)
      (stableRelationId_eq_iff.mpr hregroups)
  · intro h v hv w hw hid
    obtain ⟨hv, hpv⟩ := List.mem_filter.mp hv
    obtain ⟨hw, hpw⟩ := List.mem_filter.mp hw
    exact h v hv w hw hpv hpw (stableRelationId_eq_iff.mp hid)

theorem freshResourceVersions_iff (hr : s.Recorded) (hfresh : ¬ s.Ended handle.run.syncRunId)
    (hwf : batch.WellFormed) (hapart : s.KeysApart batch) :
    s.resourceVersions.FreshAll (s.commitOf handle batch at_).resourceVersions ↔
      ∀ id ∈ s.versionedResources batch, ∀ x ∈ s.resourceVersions.rows,
        ¬ PairShifts x.resourceId.val x.syncRunId id.val handle.run.syncRunId := by
  have hnodup : ((s.versionedResources batch).map fun id =>
      resourceVersionId id handle.run.syncRunId).Nodup := by
    refine List.Nodup.map_on ?_ ?_
    · intro a _ b _ hid
      rcases resourceVersionId_eq_iff.mp hid with hpair | hshift
      · exact StringValue.ext_val (Prod.mk.inj hpair).1
      · exact absurd hshift not_pairShifts_same_run
    · exact (observedIds_nodup hwf hapart).sublist (List.filter_sublist.map _)
  rw [freshAll_iff_of_keys commitOf_versionIds]
  constructor
  · rintro ⟨hfree, _⟩ id hid x hx hshift
    apply hfree id hid x hx
    rw [(hr.resourceVersions x hx).1]
    exact resourceVersionId_eq_iff.mpr (Or.inr hshift)
  · intro h
    refine ⟨?_, hnodup⟩
    intro id hid x hx heq
    obtain ⟨hxid, hended⟩ := hr.resourceVersions x hx
    rw [hxid] at heq
    rcases resourceVersionId_eq_iff.mp heq with hpair | hshift
    · exact hfresh ((Prod.mk.inj hpair).2 ▸ hended)
    · exact h id hid x hx hshift

theorem freshRelationVersions_iff (hr : s.Recorded) (hfresh : ¬ s.Ended handle.run.syncRunId)
    (hwf : batch.WellFormed) :
    s.relationVersions.FreshAll (s.commitOf handle batch at_).relationVersions ↔
      (∀ id ∈ s.versionedRelations batch, ∀ x ∈ s.relationVersions.rows, ∀ q,
        x.origin = .syncRun q → ¬ PairShifts x.relationId.val q id.val handle.run.syncRunId) ∧
      ∀ v ∈ batch.relations, ∀ w ∈ batch.relations,
        (s.relationOutcomeOf v).versions = true → (s.relationOutcomeOf w).versions = true →
          v.key.Regroups w.key → v = w := by
  have hinj : Function.Injective fun id => relationVersionId id handle.run.syncRunId := by
    intro a b hid
    rcases relationVersionId_eq_iff.mp hid with hpair | hshift
    · exact StringValue.ext_val (Prod.mk.inj hpair).1
    · exact absurd hshift not_pairShifts_same_run
  rw [freshAll_iff_of_keys commitOf_relationVersionIds, List.nodup_map_iff hinj]
  unfold versionedRelations
  rw [relationIds_nodup_iff hwf]
  refine and_congr_left (fun _ => ?_)
  constructor
  · intro hfree id hid x hx q horigin hshift
    obtain ⟨run, hrun, hxid, _⟩ := hr.relationVersions x hx
    rw [horigin] at hrun
    cases hrun
    apply hfree id hid x hx
    rw [hxid]
    exact relationVersionId_eq_iff.mpr (Or.inr hshift)
  · intro h id hid x hx heq
    obtain ⟨run, hrun, hxid, hended⟩ := hr.relationVersions x hx
    rw [hxid] at heq
    rcases relationVersionId_eq_iff.mp heq with hpair | hshift
    · exact hfresh ((Prod.mk.inj hpair).2 ▸ hended)
    · exact h id hid x hx run hrun hshift

/-- The subjects of a commit's changes are told apart by their texts, relations
aside. -/
theorem changedSubjects_nodup_iff (hs : s.WellIdentified) (hwf : batch.WellFormed)
    (hapart : s.KeysApart batch) (conn : ConnectionId) :
    ((s.changedSubjects conn batch).map ChangeSubject.text).Nodup ↔
      ∀ v ∈ batch.relations, ∀ w ∈ batch.relations,
        (s.relationOutcomeOf v).changes = true → (s.relationOutcomeOf w).changes = true →
          v.key.Regroups w.key → v = w := by
  have hobserved : ((batch.resources.filter fun v => (s.resourceOutcomeOf v).changes).map
      fun v => (stableResourceId v.key).val).Nodup := by
    have hids := (observedIds_nodup hwf hapart).map StringValue.val_injective
    rw [ValidatedBatch.observedIds, List.map_map] at hids
    exact hids.sublist (List.filter_sublist.map _)
  have hdue : ((s.dueOf conn batch).map fun old => old.resourceId.val).Nodup := by
    have hids : ((s.dueOf conn batch).map Resource.resourceId).Nodup := by
      unfold dueOf
      split
      · rename_i scope _
        exact (s.listResourcesForScope_nodup conn scope).sublist (List.filter_sublist.map _)
      · exact List.nodup_nil
      · exact List.nodup_nil
      · exact List.nodup_nil
    have hmapped := hids.map StringValue.val_injective
    rw [List.map_map] at hmapped
    exact hmapped
  have hrelations : ((batch.relations.filter fun v => (s.relationOutcomeOf v).changes).map
      fun v => (stableRelationId v.key).val).Nodup ↔
        ∀ v ∈ batch.relations, ∀ w ∈ batch.relations,
          (s.relationOutcomeOf v).changes = true → (s.relationOutcomeOf w).changes = true →
            v.key.Regroups w.key → v = w := by
    have hmap : ((batch.relations.filter fun v => (s.relationOutcomeOf v).changes).map
        fun v => (stableRelationId v.key).val) =
          ((batch.relations.filter fun v => (s.relationOutcomeOf v).changes).map
            fun v => stableRelationId v.key).map StringValue.val := by
      rw [List.map_map]
      rfl
    rw [hmap, List.nodup_map_iff StringValue.val_injective]
    exact relationIds_nodup_iff hwf _
  rw [← hrelations, changedSubjects, List.map_append, List.map_append, List.map_map, List.map_map,
    List.map_map]
  show (((batch.resources.filter fun v => (s.resourceOutcomeOf v).changes).map
      fun v => (stableResourceId v.key).val) ++
    (((batch.relations.filter fun v => (s.relationOutcomeOf v).changes).map
      fun v => (stableRelationId v.key).val) ++
    (s.dueOf conn batch).map fun old => old.resourceId.val)).Nodup ↔ _
  rw [List.nodup_append, List.nodup_append]
  constructor
  · rintro ⟨_, ⟨h, _, _⟩, _⟩
    exact h
  · intro h
    refine ⟨hobserved, ⟨h, hdue, ?_⟩, ?_⟩
    · -- a relation's id against the id of a row that falls due
      intro a ha b hb heq
      obtain ⟨v, _, rfl⟩ := List.mem_map.mp ha
      obtain ⟨old, hold, rfl⟩ := List.mem_map.mp hb
      have hid := hs.resources old (KeyedTable.mem_of_get (mem_dueOf_stored hold).1)
      rw [hid] at heq
      exact resource_val_ne_relation _ _ _ _ _ heq.symm
    · intro a ha b hb heq
      obtain ⟨v, hv, rfl⟩ := List.mem_map.mp ha
      rcases List.mem_append.mp hb with hb | hb
      · obtain ⟨w, _, rfl⟩ := List.mem_map.mp hb
        exact resource_val_ne_relation _ _ _ _ _ heq
      · obtain ⟨old, hold, rfl⟩ := List.mem_map.mp hb
        have hid : stableResourceId v.key = old.resourceId := StringValue.ext_val heq
        exact (mem_dueOf_stored hold).2.2.1
          (hid ▸ List.mem_map_of_mem (List.mem_filter.mp hv).1)

theorem freshChanges_iff (hs : s.WellIdentified) (hr : s.Recorded)
    (hfresh : ¬ s.Ended handle.run.syncRunId) (hwf : batch.WellFormed)
    (hapart : s.KeysApart batch) :
    s.changes.FreshAll (s.commitOf handle batch at_).changes ↔
      (∀ subject ∈ s.changedSubjects handle.run.connectionId batch, ∀ x ∈ s.changes.rows, ∀ q,
        x.origin = .syncRun q →
          ¬ PairShifts x.subject.text q subject.text handle.run.syncRunId) ∧
      ∀ v ∈ batch.relations, ∀ w ∈ batch.relations,
        (s.relationOutcomeOf v).changes = true → (s.relationOutcomeOf w).changes = true →
          v.key.Regroups w.key → v = w := by
  have hnodup : ((s.changedSubjects handle.run.connectionId batch).map fun subject =>
      subject.changeId handle.run.syncRunId).Nodup ↔
        ((s.changedSubjects handle.run.connectionId batch).map ChangeSubject.text).Nodup := by
    rw [List.Nodup, List.Nodup, List.pairwise_map, List.pairwise_map]
    refine List.Pairwise.iff ?_
    intro a b
    rw [not_iff_not, ChangeSubject.changeId_eq_iff]
    simp [not_pairShifts_same_run]
  rw [freshAll_iff_of_keys commitOf_changeIds, hnodup, changedSubjects_nodup_iff hs hwf hapart]
  refine and_congr_left (fun _ => ?_)
  constructor
  · intro hfree subject hsubject x hx q horigin hshift
    obtain ⟨run, hrun, hxid, _⟩ := hr.changes x hx
    rw [horigin] at hrun
    cases hrun
    apply hfree subject hsubject x hx
    rw [hxid]
    exact ChangeSubject.changeId_eq_iff.mpr (Or.inr hshift)
  · intro h subject hsubject x hx heq
    obtain ⟨run, hrun, hxid, hended⟩ := hr.changes x hx
    rw [hxid] at heq
    rcases ChangeSubject.changeId_eq_iff.mp heq with hpair | hshift
    · exact hfresh ((Prod.mk.inj hpair).2 ▸ hended)
    · exact h subject hsubject x hx run hrun hshift

/-- What leaves a version leaves a change. -/
theorem Outcome.changes_of_versions {o : Outcome} (h : o.versions = true) : o.changes = true := by
  cases o with
  | created => rfl
  | revised => rfl
  | relived => cases h
  | unchanged => cases h

/-- An accepted commit under a run that has not ended drops none of its versions
and changes iff they are apart from the stored ones. -/
theorem nothing_dropped_iff (hs : s.WellIdentified) (hr : s.Recorded)
    (hfresh : ¬ s.Ended handle.run.syncRunId) (hwf : batch.WellFormed)
    (hapart : s.KeysApart batch) {r : CommitResult} {s' : Store}
    (heff : CommitEffect s (s.commitOf handle batch at_) r s') :
    (r.resourceVersionsWritten = (s.commitOf handle batch at_).resourceVersions.length ∧
      r.relationVersionsWritten = (s.commitOf handle batch at_).relationVersions.length ∧
      r.changesWritten = (s.commitOf handle batch at_).changes.length) ↔
      s.RecordsApart handle.run.connectionId handle.run.syncRunId batch := by
  rw [heff.result]
  show (s.resourceVersions.insertedCount _ = _ ∧ s.relationVersions.insertedCount _ = _ ∧
    s.changes.insertedCount _ = _) ↔ _
  rw [KeyedTable.freshAll_iff, KeyedTable.freshAll_iff, KeyedTable.freshAll_iff,
    freshResourceVersions_iff hr hfresh hwf hapart, freshRelationVersions_iff hr hfresh hwf,
    freshChanges_iff hs hr hfresh hwf hapart]
  constructor
  · rintro ⟨h₁, ⟨h₂, _⟩, h₃, h₄⟩
    exact ⟨h₁, h₂, h₃, h₄⟩
  · rintro ⟨h₁, h₂, h₃, h₄⟩
    refine ⟨h₁, ⟨h₂, ?_⟩, h₃, h₄⟩
    intro v hv w hw hpv hpw
    exact h₄ v hv w hw (Outcome.changes_of_versions hpv) (Outcome.changes_of_versions hpw)

end Store

/-! ## §4  When ids collide, and what follows -/

/-- Exactly when two ids are equal; and in every reachable state, for the commit
planned from a well-formed batch under a running run: it is accepted iff its keys
are apart, and, accepted, nothing of it is dropped iff its records are apart. -/
theorem ids_collide_iff_regroup_or_shift (sys : System) (handle : SyncRunHandle)
    (batch : ValidatedBatch) (at_ : Timestamp) :
    (∀ a b : ResourceKey, stableResourceId a = stableResourceId b ↔ a.Regroups b) ∧
    (∀ a b : ValidatedRelationKey, stableRelationId a = stableRelationId b ↔ a.Regroups b) ∧
    (∀ (a b : ResourceId) (r q : SyncRunId), resourceVersionId a r = resourceVersionId b q ↔
      (a.val, r) = (b.val, q) ∨ PairShifts a.val r b.val q) ∧
    (∀ (a b : RelationId) (r q : SyncRunId), relationVersionId a r = relationVersionId b q ↔
      (a.val, r) = (b.val, q) ∨ PairShifts a.val r b.val q) ∧
    (∀ (a b : ChangeSubject) (r q : SyncRunId), a.changeId r = b.changeId q ↔
      (a.text, r) = (b.text, q) ∨ PairShifts a.text r b.text q) ∧
    (sys.Reachable → handle ∈ sys.issued → ¬ sys.store.Ended handle.run.syncRunId →
      batch.WellFormed → sys.store.Checked handle batch →
      ((∃ r s', sys.store.commitSync (sys.store.commitOf handle batch at_) = .ok (r, s')) ↔
        sys.store.KeysApart batch) ∧
      ∀ r s', sys.store.commitSync (sys.store.commitOf handle batch at_) = .ok (r, s') →
        ((r.resourceVersionsWritten =
            (sys.store.commitOf handle batch at_).resourceVersions.length ∧
          r.relationVersionsWritten =
            (sys.store.commitOf handle batch at_).relationVersions.length ∧
          r.changesWritten = (sys.store.commitOf handle batch at_).changes.length) ↔
          sys.store.RecordsApart handle.run.connectionId handle.run.syncRunId batch)) := by
  refine ⟨fun _ _ => stableResourceId_eq_iff, fun _ _ => stableRelationId_eq_iff,
    fun _ _ _ _ => resourceVersionId_eq_iff, fun _ _ _ _ => relationVersionId_eq_iff,
    fun _ _ _ _ => ChangeSubject.changeId_eq_iff, ?_⟩
  intro hr hissued hfresh hwf hchecked
  have hs := hr.sound
  have hi := (hs.issued handle hissued).1
  have hiff : (∃ r s', sys.store.commitSync (sys.store.commitOf handle batch at_) = .ok (r, s')) ↔
      sys.store.KeysApart batch := Store.commitOf_accepted_iff hs.identified hi hchecked hwf
  refine ⟨hiff, ?_⟩
  intro r s' hok
  exact Store.nothing_dropped_iff hs.identified hr.recorded hfresh hwf (hiff.mp ⟨r, s', hok⟩)
    (Store.commitSync_ok hok)

namespace Fixture

/-- Two keys of two connections whose texts regroup. -/
def shortConnection : ResourceKey where
  connectionId := text "a"
  kind := Fixture.kind "x.y"
  externalId := text "x.y:b"

def longConnection : ResourceKey where
  connectionId := text "a:x.y"
  kind := Fixture.kind "x.y"
  externalId := text "b"

/-- The resource of one of the keys. -/
def resourceOf (key : ResourceKey) : ValidatedResource :=
  { observed key.externalId with key := key }

/-- The first key's resource is stored, a run of the other connection started. -/
def regrouped : System :=
  System.machine.replay .fresh
    [.connect (connection (text "a")), .connect (connection (text "a:x.y")),
      .start 0 (text "a") (start (text "r1") .full (text "all")),
      .finish 0 (.commit (handle (text "a") (text "r1") .full (text "all"))
        (batch (text "r1") (.authoritativeFull (text "all")) [resourceOf shortConnection]) (time 2)),
      .start 0 (text "a:x.y") (start (text "r2") .full (text "all"))]

theorem regrouped_reachable : regrouped.Reachable := System.reachable_replay (by decide)

def regroupedHandle : SyncRunHandle := handle (text "a:x.y") (text "r2") .full (text "all")

def regroupedBatch : ValidatedBatch :=
  { batch (text "r2") (.authoritativeFull (text "all")) [resourceOf longConnection] with
    connectionId := text "a:x.y" }

theorem regroupedBatch_wellFormed : regroupedBatch.WellFormed where
  resourceKeys := List.nodup_singleton _
  relationKeys := List.nodup_nil
  resourceConnection := by decide
  sourceConnection := by decide
  targetConnection := by decide
  evidence := fun v hv => absurd hv (List.not_mem_nil)

theorem regroupedBatch_checked : regrouped.store.Checked regroupedHandle regroupedBatch where
  running := rfl
  connection := rfl
  syncRun := rfl
  mode := rfl
  scope := by
    intro scope h
    cases h
    rfl
  endpoints := by decide

theorem regrouped_running : ¬ regrouped.store.Ended (text "r2") := by
  rintro ⟨row, hrow, hended⟩
  have hrunning : (regrouped.store.getSyncRun (text "r2")).map SyncRun.status = some .running := rfl
  rw [hrow] at hrunning
  exact hended (Option.some.inj hrunning)

end Fixture

open Fixture in
/-- Two distinct keys with one id; the second one's commit is refused. And two
distinct pairs of id and run with one version id and one change id. -/
theorem distinct_keys_share_id :
    shortConnection ≠ longConnection ∧
      stableResourceId shortConnection = stableResourceId longConnection ∧
      regrouped.Reachable ∧ regroupedBatch.WellFormed ∧
      regrouped.store.Checked regroupedHandle regroupedBatch ∧
      (∃ e, regrouped.store.commitSync
        (regrouped.store.commitOf regroupedHandle regroupedBatch (time 3)) = .error e) ∧
      ((text "resource:a:b", text "c:d") : ResourceId × SyncRunId) ≠
        (text "resource:a:b:c", text "d") ∧
      resourceVersionId (text "resource:a:b") (text "c:d") =
        resourceVersionId (text "resource:a:b:c") (text "d") ∧
      changeId (text "resource:a:b" : ResourceId) (text "c:d") =
        changeId (text "resource:a:b:c" : ResourceId) (text "d") :=
  ⟨by decide, by decide, regrouped_reachable, regroupedBatch_wellFormed, regroupedBatch_checked,
    ⟨.contract "resource stable identity cannot change", rfl⟩, by decide, by decide, by decide⟩

open Fixture in
/-- The same commit, as an instance of the law. -/
theorem ids_collide_iff_regroup_or_shift_regrouped :
    (∃ r s', regrouped.store.commitSync
      (regrouped.store.commitOf regroupedHandle regroupedBatch (time 3)) = .ok (r, s')) ↔
        regrouped.store.KeysApart regroupedBatch :=
  ((ids_collide_iff_regroup_or_shift regrouped regroupedHandle regroupedBatch (time 3)).2.2.2.2.2
    regrouped_reachable (by decide) regrouped_running regroupedBatch_wellFormed
    regroupedBatch_checked).1

end NextInfra
