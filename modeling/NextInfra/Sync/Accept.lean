import NextInfra.Sync.StorePlan

/-!
# When the store accepts a planned commit

A store whose rows carry the ids the engine gives them (`WellIdentified`) and a
commit that fits it in every respect but identity (`Offerable`): the transaction
goes through iff the provenance checks pass and no two rows that meet at an id
disagree on their identity columns (`commitSync_accepts_iff`).

Rows are never removed and never change identity while runs are started,
committed, failed and recovered (`Grows`). A commit that was refused is therefore
refused for good (`Doomed.mono`).
-/

namespace NextInfra

namespace Store

/-! ## §1  Well-identified stores -/

/-- Every row's id is the one the engine builds from its identity columns. -/
structure WellIdentified (s : Store) : Prop where
  resources : ∀ r ∈ s.resources.rows, r.resourceId = stableResourceId r.key
  relations : ∀ r ∈ s.relations.rows,
    r.relationId = relationIdOf r.sourceResourceId r.targetResourceId r.kind r.evidenceKey

theorem wellIdentified_fresh : fresh.WellIdentified where
  resources := by
    intro r hr
    cases hr
  relations := by
    intro r hr
    cases hr

/-- A batch that fits keeps the rule "the id is a function of the identity". -/
theorem applyAll_identified {ρ ι κ : Type} [LinearOrder κ] {key : ρ → κ} (u : UpsertRule key ι)
    {idOf : ι → κ} {rows : List ρ} {t : KeyedTable key}
    (ht : ∀ r ∈ t.rows, key r = idOf (u.ident r)) (hrows : ∀ r ∈ rows, key r = idOf (u.ident r)) :
    ∀ r ∈ (u.applyAll t rows).rows, key r = idOf (u.ident r) := by
  intro r hr
  by_cases htouched : ∃ r' ∈ rows, key r' = key r
  · obtain ⟨r', hr', hk⟩ := htouched
    obtain ⟨r'', hr'', hk'', x, hx, hl⟩ := u.get_applyAll_of_mem (t := t) hr'
    rw [hk, KeyedTable.get_of_mem hr] at hx
    cases hx
    rw [hl.key_eq, hl.ident_eq]
    exact hrows r'' hr''
  · have hget : (u.applyAll t rows).get (key r) = t.get (key r) :=
      u.get_applyAll_of_not_mem (fun r' hr' e => htouched ⟨r', hr', e⟩)
    have hold : r ∈ t.rows := by
      rw [KeyedTable.mem_iff_get, ← hget]
      exact KeyedTable.get_of_mem hr
    exact ht r hold

/-- A relation's id as a function of its identity columns. -/
def relationIdOfKey (k : RelationKey) : RelationId :=
  relationIdOf k.sourceResourceId k.targetResourceId k.kind k.evidenceKey

/-! ## §2  Commits that can be offered -/

/-- What every commit the engine plans for an issued handle satisfies: its run is
started, and the rows it refers to are stored or carried along. -/
structure Offerable (s : Store) (c : SyncCommit) : Prop where
  finished : c.syncRun.status ≠ .running ∧ c.syncRun.finishedAt.isSome
  started : ∃ stored, s.syncRuns.get c.syncRun.syncRunId = some stored ∧
    stored.connectionId = c.syncRun.connectionId
  connected : (s.connections.get c.syncRun.connectionId).isSome
  resourceIds : ∀ r ∈ c.resources, r.resourceId = stableResourceId r.key
  relationIds : ∀ r ∈ c.relations, r.relationId = relationIdOfKey r.key
  versioned : ∀ v ∈ c.resourceVersions, ∃ r ∈ c.resources, r.resourceId = v.resourceId
  endpoints : ∀ r ∈ c.relations,
    s.Known (c.resources.map Resource.resourceId) r.sourceResourceId ∧
      s.Known (c.resources.map Resource.resourceId) r.targetResourceId
  relationVersioned : ∀ v ∈ c.relationVersions, ∃ r ∈ c.relations, r.relationId = v.relationId

/-- The commit passes the provenance checks and clashes with no identity. -/
structure Fitting (s : Store) (c : SyncCommit) : Prop where
  provenance : validateCommit c = .ok ()
  resources : resourceRule.Agrees s.resources c.resources
  relations : relationRule.Agrees s.relations c.relations

/-! ## §3  The statements of an accepted commit go through -/

/-- No stored row of another id has the key of a well-identified row. -/
theorem resource_unique_of_id {s : Store}
    (hs : ∀ r ∈ s.resources.rows, r.resourceId = stableResourceId r.key) {r : Resource}
    (hr : r.resourceId = stableResourceId r.key) (hnew : s.resources.get r.resourceId = none) :
    s.resources.rows.any (fun stored => decide (stored.key = r.key)) = false := by
  rw [Bool.eq_false_iff]
  intro hany
  obtain ⟨stored, hmem, hkey⟩ := List.any_eq_true.mp hany
  have hkey' : stored.key = r.key := by simpa using hkey
  have hid : stored.resourceId = r.resourceId := by rw [hs stored hmem, hr, hkey']
  exact KeyedTable.get_eq_none_iff.mp hnew stored hmem hid

theorem resourceViolation_none {s : Store}
    (hs : ∀ r ∈ s.resources.rows, r.resourceId = stableResourceId r.key) {r : Resource}
    (hr : r.resourceId = stableResourceId r.key) (hfit : resourceRule.Fits s.resources r)
    (hconn : (s.connections.get r.connectionId).isSome)
    (hrun : (s.syncRuns.get r.lastSyncRunId).isSome) : s.resourceViolation r = none := by
  unfold resourceViolation
  cases hg : s.resources.get r.resourceId with
  | some stored =>
      have hkey : stored.key = r.key := hfit stored hg
      obtain ⟨h1, h2, h3⟩ := resource_key_eq_iff.mp hkey
      have hsome := Option.isSome_iff_ne_none.mp hrun
      simp [h1, h2, h3, hsome]
  | none =>
      have hany := resource_unique_of_id hs hr hg
      have h1 := Option.isSome_iff_ne_none.mp hconn
      have h2 := Option.isSome_iff_ne_none.mp hrun
      simp only [hany]
      simp [h1, h2]

theorem relation_unique_of_id {s : Store}
    (hs : ∀ r ∈ s.relations.rows, r.relationId = relationIdOfKey r.key) {r : Relation}
    (hr : r.relationId = relationIdOfKey r.key) (hnew : s.relations.get r.relationId = none) :
    s.relations.rows.any (fun stored => decide (stored.key = r.key)) = false := by
  rw [Bool.eq_false_iff]
  intro hany
  obtain ⟨stored, hmem, hkey⟩ := List.any_eq_true.mp hany
  have hkey' : stored.key = r.key := by simpa using hkey
  have hid : stored.relationId = r.relationId := by rw [hs stored hmem, hr, hkey']
  exact KeyedTable.get_eq_none_iff.mp hnew stored hmem hid

theorem relationViolation_none {s : Store}
    (hs : ∀ r ∈ s.relations.rows, r.relationId = relationIdOfKey r.key) {r : Relation}
    (hr : r.relationId = relationIdOfKey r.key) (hfit : relationRule.Fits s.relations r)
    (hsource : (s.resources.get r.sourceResourceId).isSome)
    (htarget : (s.resources.get r.targetResourceId).isSome) : s.relationViolation r = none := by
  unfold relationViolation
  cases hg : s.relations.get r.relationId with
  | some stored =>
      have hkey : stored.key = r.key := hfit stored hg
      obtain ⟨h1, h2, h3, h4, h5⟩ := relation_key_eq_iff.mp hkey
      simp [h1, h2, h3, h4, h5]
  | none =>
      have hany := relation_unique_of_id hs hr hg
      have h1 := Option.isSome_iff_ne_none.mp hsource
      have h2 := Option.isSome_iff_ne_none.mp htarget
      simp only [hany]
      simp [h1, h2]

theorem upsertResources_total {s : Store} {rows : List Resource}
    (hs : ∀ r ∈ s.resources.rows, r.resourceId = stableResourceId r.key)
    (hfit : resourceRule.FitsAll s.resources rows)
    (hrows : ∀ r ∈ rows, r.resourceId = stableResourceId r.key ∧
      (s.connections.get r.connectionId).isSome ∧ (s.syncRuns.get r.lastSyncRunId).isSome) :
    upsertEach upsertResource s rows =
      .ok { s with resources := resourceRule.applyAll s.resources rows } := by
  have htotal : ∃ s', upsertEach upsertResource s rows = .ok s' := by
    refine upsertEach_total (fun s rows =>
      (∀ r ∈ s.resources.rows, r.resourceId = stableResourceId r.key) ∧
      resourceRule.FitsAll s.resources rows ∧
      ∀ r ∈ rows, r.resourceId = stableResourceId r.key ∧
        (s.connections.get r.connectionId).isSome ∧ (s.syncRuns.get r.lastSyncRunId).isSome)
      ?_ rows s ⟨hs, hfit, hrows⟩
    rintro s r rest ⟨hids, ⟨hr, hrest⟩, hall⟩
    obtain ⟨hid, hconn, hrun⟩ := hall r List.mem_cons_self
    refine ⟨{ s with resources := resourceRule.apply s.resources r }, ?_, ?_, hrest, ?_⟩
    · unfold upsertResource
      rw [resourceViolation_none hids hid hr hconn hrun]
    · show ∀ x ∈ (resourceRule.applyAll s.resources [r]).rows, x.resourceId = stableResourceId x.key
      refine applyAll_identified resourceRule hids ?_
      intro x hx
      rw [List.mem_singleton.mp hx]
      exact hid
    · exact fun x hx => hall x (List.mem_cons_of_mem _ hx)
  obtain ⟨s', hs'⟩ := htotal
  rw [hs', (upsertResources_ok hs').2]

theorem upsertRelations_total {s : Store} {rows : List Relation}
    (hs : ∀ r ∈ s.relations.rows, r.relationId = relationIdOfKey r.key)
    (hfit : relationRule.FitsAll s.relations rows)
    (hrows : ∀ r ∈ rows, r.relationId = relationIdOfKey r.key ∧
      (s.resources.get r.sourceResourceId).isSome ∧
      (s.resources.get r.targetResourceId).isSome) :
    upsertEach upsertRelation s rows =
      .ok { s with relations := relationRule.applyAll s.relations rows } := by
  have htotal : ∃ s', upsertEach upsertRelation s rows = .ok s' := by
    refine upsertEach_total (fun s rows =>
      (∀ r ∈ s.relations.rows, r.relationId = relationIdOfKey r.key) ∧
      relationRule.FitsAll s.relations rows ∧
      ∀ r ∈ rows, r.relationId = relationIdOfKey r.key ∧
        (s.resources.get r.sourceResourceId).isSome ∧
        (s.resources.get r.targetResourceId).isSome)
      ?_ rows s ⟨hs, hfit, hrows⟩
    rintro s r rest ⟨hids, ⟨hr, hrest⟩, hall⟩
    obtain ⟨hid, hsource, htarget⟩ := hall r List.mem_cons_self
    refine ⟨{ s with relations := relationRule.apply s.relations r }, ?_, ?_, hrest, ?_⟩
    · unfold upsertRelation
      rw [relationViolation_none hids hid hr hsource htarget]
    · show ∀ x ∈ (relationRule.applyAll s.relations [r]).rows, x.relationId = relationIdOfKey x.key
      refine applyAll_identified relationRule hids ?_
      intro x hx
      rw [List.mem_singleton.mp hx]
      exact hid
    · exact fun x hx => hall x (List.mem_cons_of_mem _ hx)
  obtain ⟨s', hs'⟩ := htotal
  rw [hs', (upsertRelations_ok hs').2]

theorem insertResourceVersions_total {s : Store} {rows : List ResourceVersion}
    (hrows : ∀ v ∈ rows, (s.resources.get v.resourceId).isSome ∧
      (s.syncRuns.get v.syncRunId).isSome) :
    ∃ n, insertEach insertResourceVersion s rows =
      .ok ({ s with resourceVersions := s.resourceVersions.insertNewAll rows }, n) := by
  have htotal : ∃ s' n, insertEach insertResourceVersion s rows = .ok (s', n) := by
    refine insertEach_total (fun s v =>
      (s.resources.get v.resourceId).isSome ∧ (s.syncRuns.get v.syncRunId).isSome) ?_ rows s hrows
    rintro s v ⟨hres, hrun⟩
    have h1 := Option.isSome_iff_ne_none.mp hres
    have h2 := Option.isSome_iff_ne_none.mp hrun
    by_cases hold : (s.resourceVersions.get v.versionId).isSome
    · exact ⟨s, 0, by simp [insertResourceVersion, hold], fun _ hb => hb⟩
    · exact ⟨{ s with resourceVersions := s.resourceVersions.put v }, 1,
        by simp [insertResourceVersion, hold, h1, h2], fun _ hb => hb⟩
  obtain ⟨s', n, hs'⟩ := htotal
  exact ⟨n, by rw [hs', (insertResourceVersions_ok hs').1]⟩

theorem insertRelationVersions_total {s : Store} {rows : List RelationVersion}
    (hrows : ∀ v ∈ rows, (s.relations.get v.relationId).isSome) :
    ∃ n, insertEach insertRelationVersion s rows =
      .ok ({ s with relationVersions := s.relationVersions.insertNewAll rows }, n) := by
  have htotal : ∃ s' n, insertEach insertRelationVersion s rows = .ok (s', n) := by
    refine insertEach_total (fun s v => (s.relations.get v.relationId).isSome) ?_ rows s hrows
    intro s v hrel
    have h1 := Option.isSome_iff_ne_none.mp hrel
    by_cases hold : (s.relationVersions.get v.relationVersionId).isSome
    · exact ⟨s, 0, by simp [insertRelationVersion, hold], fun _ hb => hb⟩
    · exact ⟨{ s with relationVersions := s.relationVersions.put v }, 1,
        by simp [insertRelationVersion, hold, h1], fun _ hb => hb⟩
  obtain ⟨s', n, hs'⟩ := htotal
  exact ⟨n, by rw [hs', (insertRelationVersions_ok hs').1]⟩

/-- A row of the batch is found after it. -/
theorem isSome_applyAll {ρ ι κ : Type} [LinearOrder κ] {key : ρ → κ} (u : UpsertRule key ι)
    (t : KeyedTable key) {rows : List ρ} {r : ρ} (h : r ∈ rows) :
    ((u.applyAll t rows).get (key r)).isSome := by
  obtain ⟨_, _, _, x, hx, _⟩ := u.get_applyAll_of_mem (t := t) h
  rw [hx]
  rfl

/-- A stored row is found after the batch. -/
theorem isSome_applyAll_of_stored {ρ ι κ : Type} [LinearOrder κ] {key : ρ → κ}
    (u : UpsertRule key ι) {t : KeyedTable key} {rows : List ρ} {k : κ} (h : (t.get k).isSome) :
    ((u.applyAll t rows).get k).isSome := by
  by_cases htouched : ∃ r ∈ rows, key r = k
  · obtain ⟨r, hr, rfl⟩ := htouched
    exact isSome_applyAll u t hr
  · rw [u.get_applyAll_of_not_mem (fun r hr e => htouched ⟨r, hr, e⟩)]
    exact h

/-- An endpoint known before the commit is stored once its resources are. -/
theorem isSome_of_known {s : Store} {rows : List Resource} {id : ResourceId}
    (h : s.Known (rows.map Resource.resourceId) id) :
    ((resourceRule.applyAll s.resources rows).get id).isSome := by
  rcases h with h | h
  · obtain ⟨r, hr, rfl⟩ := List.mem_map.mp h
    exact isSome_applyAll resourceRule s.resources hr
  · exact isSome_applyAll_of_stored resourceRule h

/-- An offerable commit that fits is applied. -/
theorem commitSync_of_fitting {s : Store} {c : SyncCommit} (hs : s.WellIdentified)
    (ho : s.Offerable c) (hf : s.Fitting c) : ∃ r s', s.commitSync c = .ok (r, s') := by
  obtain ⟨stored, hstored, hconn⟩ := ho.started
  obtain ⟨hcursor, hprov, hversions⟩ := validateCommit_ok hf.provenance
  have hrun : (s.syncRuns.put (completedRow stored c.syncRun)).get c.syncRun.syncRunId =
      some (completedRow stored c.syncRun) := by
    rw [KeyedTable.get_put, if_pos]
    exact (KeyedTable.key_of_get hstored).symm
  have h₁ : s.completeSyncRun c.syncRun =
      .ok { s with syncRuns := s.syncRuns.put (completedRow stored c.syncRun) } := by
    unfold completeSyncRun
    simp [hstored, hconn]
  have h₂ := upsertResources_total
    (s := { s with syncRuns := s.syncRuns.put (completedRow stored c.syncRun) })
    hs.resources (resourceRule.fitsAll_iff.mpr hf.resources)
    (by
      intro r hr
      refine ⟨ho.resourceIds r hr, ?_, ?_⟩
      · rw [(hprov r hr).1]
        exact ho.connected
      · show ((s.syncRuns.put _).get r.lastSyncRunId).isSome
        rw [(hprov r hr).2, hrun]
        rfl)
  obtain ⟨n₃, h₃⟩ := insertResourceVersions_total
    (s := { s with
      syncRuns := s.syncRuns.put (completedRow stored c.syncRun)
      resources := resourceRule.applyAll s.resources c.resources })
    (show ∀ v ∈ c.resourceVersions, _ by
      intro v hv
      obtain ⟨r, hr, hid⟩ := ho.versioned v hv
      refine ⟨?_, ?_⟩
      · rw [← hid]
        exact isSome_applyAll resourceRule s.resources hr
      · show ((s.syncRuns.put _).get v.syncRunId).isSome
        rw [hversions v hv, hrun]
        rfl)
  have h₄ := upsertRelations_total
    (s := { s with
      syncRuns := s.syncRuns.put (completedRow stored c.syncRun)
      resources := resourceRule.applyAll s.resources c.resources
      resourceVersions := s.resourceVersions.insertNewAll c.resourceVersions })
    hs.relations (relationRule.fitsAll_iff.mpr hf.relations)
    (by
      intro r hr
      exact ⟨ho.relationIds r hr, isSome_of_known (ho.endpoints r hr).1,
        isSome_of_known (ho.endpoints r hr).2⟩)
  obtain ⟨n₅, h₅⟩ := insertRelationVersions_total
    (s := { s with
      syncRuns := s.syncRuns.put (completedRow stored c.syncRun)
      resources := resourceRule.applyAll s.resources c.resources
      resourceVersions := s.resourceVersions.insertNewAll c.resourceVersions
      relations := relationRule.applyAll s.relations c.relations })
    (show ∀ v ∈ c.relationVersions, _ by
      intro v hv
      obtain ⟨r, hr, hid⟩ := ho.relationVersioned v hv
      rw [← hid]
      exact isSome_applyAll relationRule s.relations hr)
  obtain ⟨n₆, h₆⟩ := insertChanges_total
    { s with
      syncRuns := s.syncRuns.put (completedRow stored c.syncRun)
      resources := resourceRule.applyAll s.resources c.resources
      resourceVersions := s.resourceVersions.insertNewAll c.resourceVersions
      relations := relationRule.applyAll s.relations c.relations
      relationVersions := s.relationVersions.insertNewAll c.relationVersions }
    c.changes
  have hne := Option.isSome_iff_ne_none.mp ho.connected
  have hfin : ¬ (c.syncRun.status = .running ∨ c.syncRun.finishedAt.isNone) := by
    rintro (h | h)
    · exact ho.finished.1 h
    · have hsome := ho.finished.2
      rw [Option.isNone_iff_eq_none.mp h] at hsome
      cases hsome
  unfold commitSync
  rw [if_neg hfin, hf.provenance]
  show ∃ r s', s.commitStatements c = .ok (r, s')
  unfold commitStatements
  rw [h₁]
  simp only [bind, Except.bind, h₂, h₃, h₄, h₅, h₆, upsertConnectorState, Option.isNone_iff_eq_none,
    hne, if_false]
  exact ⟨_, _, rfl⟩

/-- An applied commit fitted. -/
theorem fitting_of_ok {s s' : Store} {c : SyncCommit} {r : CommitResult}
    (h : s.commitSync c = .ok (r, s')) : s.Fitting c := by
  have he := commitSync_ok h
  exact
    { provenance := he.valid
      resources := resourceRule.fitsAll_iff.mp he.resourcesFit
      relations := relationRule.fitsAll_iff.mp he.relationsFit }

theorem commitSync_accepts_iff {s : Store} {c : SyncCommit} (hs : s.WellIdentified)
    (ho : s.Offerable c) : (∃ r s', s.commitSync c = .ok (r, s')) ↔ s.Fitting c := by
  constructor
  · rintro ⟨r, s', h⟩
    exact fitting_of_ok h
  · exact commitSync_of_fitting hs ho

/-! ## §4  Growth -/

/-- Everything stored stays, with its identity. -/
structure Grows (s s' : Store) : Prop where
  connections : ∀ id, (s.connections.get id).isSome → (s'.connections.get id).isSome
  runs : ∀ id run, s.syncRuns.get id = some run →
    ∃ run', s'.syncRuns.get id = some run' ∧ run'.connectionId = run.connectionId
  resources : ∀ id r, s.resources.get id = some r →
    ∃ r', s'.resources.get id = some r' ∧ r'.key = r.key
  relations : ∀ id r, s.relations.get id = some r →
    ∃ r', s'.relations.get id = some r' ∧ r'.key = r.key

theorem grows_upsertConnection (s : Store) (connection : Connection) :
    s.Grows (s.upsertConnection connection) where
  connections := by
    intro id h
    show ((s.connections.put connection).get id).isSome
    rw [KeyedTable.get_put]
    split
    · rfl
    · exact h
  runs := fun _ run h => ⟨run, h, rfl⟩
  resources := fun _ r h => ⟨r, h, rfl⟩
  relations := fun _ r h => ⟨r, h, rfl⟩

theorem grows_secrets (s : Store) (secrets : KeyedTable ConnectionSecret.connectionId) :
    s.Grows { s with connectionSecrets := secrets } where
  connections := fun _ h => h
  runs := fun _ run h => ⟨run, h, rfl⟩
  resources := fun _ r h => ⟨r, h, rfl⟩
  relations := fun _ r h => ⟨r, h, rfl⟩

theorem grows_startSyncRun {s s' : Store} {run : SyncRun} (h : s.startSyncRun run = .ok s') :
    s.Grows s' := by
  obtain ⟨hnew, _, _, rfl⟩ := startSyncRun_ok h
  refine ⟨fun _ h => h, ?_, fun _ r h => ⟨r, h, rfl⟩, fun _ r h => ⟨r, h, rfl⟩⟩
  intro id old hold
  refine ⟨old, ?_, rfl⟩
  show (s.syncRuns.put run).get id = some old
  rw [KeyedTable.get_put, if_neg]
  · exact hold
  · rintro rfl
    rw [hnew] at hold
    cases hold

/-- `mark_running_syncs_interrupted` touches runs only, and their end only. -/
theorem markRunningSyncsInterrupted_eq (s : Store) (at_ : Timestamp) :
    ∃ revision, (s.markRunningSyncsInterrupted at_).2 =
      { s with
        syncRuns := s.syncRuns.update (interruptedRow at_) (interruptedRow_id at_)
        committedRevision := revision } := by
  unfold markRunningSyncsInterrupted
  simp only
  split
  · exact ⟨_, rfl⟩
  · exact ⟨_, rfl⟩

theorem interruptedRow_connection (at_ : Timestamp) (run : SyncRun) :
    (interruptedRow at_ run).connectionId = run.connectionId := by
  unfold interruptedRow
  split <;> rfl

theorem grows_markRunningSyncsInterrupted (s : Store) (at_ : Timestamp) :
    s.Grows (s.markRunningSyncsInterrupted at_).2 := by
  obtain ⟨revision, heq⟩ := s.markRunningSyncsInterrupted_eq at_
  rw [heq]
  refine ⟨fun _ h => h, ?_, fun _ r h => ⟨r, h, rfl⟩, fun _ r h => ⟨r, h, rfl⟩⟩
  intro id run hrun
  refine ⟨interruptedRow at_ run, ?_, interruptedRow_connection at_ run⟩
  show (s.syncRuns.update (interruptedRow at_) (interruptedRow_id at_)).get id = _
  rw [KeyedTable.get_update, hrun]
  rfl

theorem grows_of_effect {s s' : Store} {c : SyncCommit} {r : CommitResult}
    (h : CommitEffect s c r s') : s.Grows s' where
  connections := by
    rw [h.connections]
    exact fun _ h => h
  runs := by
    obtain ⟨stored, hstored, hconn, hruns⟩ := h.started
    intro id run hrun
    rw [hruns, KeyedTable.get_put]
    by_cases hid : id = (completedRow stored c.syncRun).syncRunId
    · rw [if_pos hid]
      have hkey : stored.syncRunId = c.syncRun.syncRunId := KeyedTable.key_of_get hstored
      have hsame : run = stored := by
        have hid' : id = c.syncRun.syncRunId := hid.trans hkey
        rw [hid', hstored] at hrun
        exact (Option.some.inj hrun).symm
      exact ⟨_, rfl, by rw [hsame]; rfl⟩
    · rw [if_neg hid]
      exact ⟨run, hrun, rfl⟩
  resources := by
    intro id r hr
    rw [h.resources]
    exact resourceRule.applyAll_keeps_ident h.resourcesFit hr
  relations := by
    intro id r hr
    rw [h.relations]
    exact relationRule.applyAll_keeps_ident h.relationsFit hr

theorem wellIdentified_of_effect {s s' : Store} {c : SyncCommit} {r : CommitResult}
    (hs : s.WellIdentified) (ho : s.Offerable c) (h : CommitEffect s c r s') :
    s'.WellIdentified where
  resources := by
    rw [h.resources]
    exact applyAll_identified resourceRule hs.resources ho.resourceIds
  relations := by
    rw [h.relations]
    show ∀ r ∈ (relationRule.applyAll s.relations c.relations).rows,
      r.relationId = relationIdOfKey r.key
    exact applyAll_identified relationRule hs.relations ho.relationIds

/-! ## §5  A refused commit stays refused -/

/-- Offerable, but clashing. -/
def Doomed (s : Store) (c : SyncCommit) : Prop := s.Offerable c ∧ ¬ s.Fitting c

theorem known_mono {s s' : Store} (hg : s.Grows s') {planned : List ResourceId} {id : ResourceId}
    (h : s.Known planned id) : s'.Known planned id := by
  rcases h with h | h
  · exact Or.inl h
  · right
    obtain ⟨r, hr⟩ := Option.isSome_iff_exists.mp h
    obtain ⟨r', hr', _⟩ := hg.resources id r hr
    rw [hr']
    rfl

theorem Offerable.mono {s s' : Store} (hg : s.Grows s') {c : SyncCommit} (h : s.Offerable c) :
    s'.Offerable c :=
  { h with
    started := by
      obtain ⟨stored, hstored, hconn⟩ := h.started
      obtain ⟨stored', hstored', hconn'⟩ := hg.runs _ _ hstored
      exact ⟨stored', hstored', hconn'.trans hconn⟩
    connected := hg.connections _ h.connected
    endpoints := fun r hr =>
      ⟨known_mono hg (h.endpoints r hr).1, known_mono hg (h.endpoints r hr).2⟩ }

theorem Doomed.mono {s s' : Store} (hg : s.Grows s') {c : SyncCommit} (h : s.Doomed c) :
    s'.Doomed c := by
  refine ⟨h.1.mono hg, ?_⟩
  intro hf
  apply h.2
  refine ⟨hf.provenance, ?_, ?_⟩
  · by_contra hn
    exact resourceRule.not_agrees_mono hg.resources hn hf.resources
  · by_contra hn
    exact relationRule.not_agrees_mono hg.relations hn hf.relations

theorem Doomed.refused {s : Store} {c : SyncCommit} (h : s.Doomed c) :
    ∃ e, s.commitSync c = .error e := by
  cases hc : s.commitSync c with
  | error e => exact ⟨e, rfl⟩
  | ok p => exact absurd (fitting_of_ok hc) h.2

/-- A refused offer is doomed. -/
theorem doomed_of_refused {s : Store} {c : SyncCommit} {e : StoreError} (hs : s.WellIdentified)
    (ho : s.Offerable c) (h : s.commitSync c = .error e) : s.Doomed c := by
  refine ⟨ho, ?_⟩
  intro hf
  obtain ⟨r, s', hok⟩ := commitSync_of_fitting hs ho hf
  rw [h] at hok
  cases hok

/-! ## §6  Planned commits can be offered -/

/-- The handle's run is stored under its connection, which is stored too. -/
structure Issued (s : Store) (handle : SyncRunHandle) : Prop where
  run : ∃ stored, s.syncRuns.get handle.run.syncRunId = some stored ∧
    stored.connectionId = handle.run.connectionId
  connection : (s.connections.get handle.run.connectionId).isSome

theorem Issued.mono {s s' : Store} (hg : s.Grows s') {handle : SyncRunHandle}
    (h : s.Issued handle) : s'.Issued handle where
  run := by
    obtain ⟨stored, hstored, hconn⟩ := h.run
    obtain ⟨stored', hstored', hconn'⟩ := hg.runs _ _ hstored
    exact ⟨stored', hstored', hconn'.trans hconn⟩
  connection := hg.connections _ h.connection

theorem offerable_failureCommit {s : Store} {handle : SyncRunHandle} (hi : s.Issued handle)
    (error : DomainError) (finishedAt : Timestamp) :
    s.Offerable (failureCommit handle error finishedAt) where
  finished := ⟨by simp [failureCommit], rfl⟩
  started := hi.run
  connected := hi.connection
  resourceIds := by simp [failureCommit]
  relationIds := by simp [failureCommit]
  versioned := by simp [failureCommit]
  endpoints := by simp [failureCommit]
  relationVersioned := by simp [failureCommit]

/-- A failure brings no rows, so nothing can clash. -/
theorem fitting_failureCommit (s : Store) (handle : SyncRunHandle) (error : DomainError)
    (finishedAt : Timestamp) : s.Fitting (failureCommit handle error finishedAt) where
  provenance := by simp [failureCommit, validateCommit]
  resources := by
    constructor
    · simp [failureCommit]
    · simp [failureCommit]
  relations := by
    constructor
    · simp [failureCommit]
    · simp [failureCommit]

theorem observedIds_subset (s : Store) (handle : SyncRunHandle) (batch : ValidatedBatch)
    (finishedAt : Timestamp) {id : ResourceId} (h : id ∈ batch.observedIds) :
    id ∈ (s.commitOf handle batch finishedAt).resources.map Resource.resourceId := by
  obtain ⟨v, hv, rfl⟩ := List.mem_map.mp h
  rw [commitOf_resources, List.map_append, List.mem_append, List.map_map]
  exact Or.inl (List.mem_map.mpr ⟨v, hv, rfl⟩)

theorem planResource_version_id {run : SyncRun} {v : ValidatedResource} {existing : Option Resource}
    {x : ResourceVersion} (h : x ∈ (planResource run v existing).resourceVersions) :
    x.resourceId = stableResourceId v.key ∧ x.syncRunId = run.syncRunId ∧
      x.versionId = resourceVersionId x.resourceId x.syncRunId := by
  unfold planResource Outcome.count at h
  simp only at h
  split at h
  · rw [List.mem_singleton.mp h]
    exact ⟨rfl, rfl, rfl⟩
  · cases h

theorem planRelation_version_id {run : SyncRun} {v : ValidatedRelation} {existing : Option Relation}
    {latest : Option Fingerprint} {x : RelationVersion}
    (h : x ∈ (planRelation run v existing latest).relationVersions) :
    x.relationId = stableRelationId v.key ∧ x.origin = .syncRun run.syncRunId ∧
      x.relationVersionId = relationVersionId x.relationId run.syncRunId := by
  unfold planRelation Outcome.count at h
  simp only at h
  split at h
  · rw [List.mem_singleton.mp h]
    exact ⟨rfl, rfl, rfl⟩
  · cases h

theorem planResource_change_id {run : SyncRun} {v : ValidatedResource} {existing : Option Resource}
    {x : Change} (h : x ∈ (planResource run v existing).changes) :
    x.changeId = changeId (stableResourceId v.key) run.syncRunId ∧
      x.subject = .resource (stableResourceId v.key) ∧ x.origin = .syncRun run.syncRunId := by
  unfold planResource Outcome.count at h
  simp only at h
  split at h
  · rw [List.mem_singleton.mp h]
    exact ⟨rfl, rfl, rfl⟩
  · cases h

theorem planRelation_change_id {run : SyncRun} {v : ValidatedRelation} {existing : Option Relation}
    {latest : Option Fingerprint} {x : Change}
    (h : x ∈ (planRelation run v existing latest).changes) :
    x.changeId = changeId (stableRelationId v.key) run.syncRunId ∧
      x.subject = .relation (stableRelationId v.key) ∧ x.origin = .syncRun run.syncRunId := by
  unfold planRelation Outcome.count at h
  simp only at h
  split at h
  · rw [List.mem_singleton.mp h]
    exact ⟨rfl, rfl, rfl⟩
  · cases h

/-- Every change of a planned commit is about an observed resource, an observed
relation or a resource that falls due, and carries the id built for it. -/
theorem mem_commitOf_changes {s : Store} {handle : SyncRunHandle} {batch : ValidatedBatch}
    {finishedAt : Timestamp} {x : Change}
    (h : x ∈ (s.commitOf handle batch finishedAt).changes) :
    (∃ v ∈ batch.resources, x.changeId = changeId (stableResourceId v.key) handle.run.syncRunId ∧
      x.subject = .resource (stableResourceId v.key)) ∨
    (∃ v ∈ batch.relations, x.changeId = changeId (stableRelationId v.key) handle.run.syncRunId ∧
      x.subject = .relation (stableRelationId v.key)) ∨
    ∃ old ∈ s.dueOf handle.run.connectionId batch,
      x = tombstoneChange (finishedRun handle batch finishedAt) finishedAt old := by
  rw [commitOf_changes] at h
  rcases List.mem_append.mp h with h | h
  · obtain ⟨p, hp, hx⟩ := List.mem_flatMap.mp h
    obtain ⟨v, hv, rfl⟩ := List.mem_map.mp hp
    exact Or.inl ⟨v, hv, (planResource_change_id hx).1, (planResource_change_id hx).2.1⟩
  · rcases List.mem_append.mp h with h | h
    · obtain ⟨p, hp, hx⟩ := List.mem_flatMap.mp h
      obtain ⟨v, hv, rfl⟩ := List.mem_map.mp hp
      exact Or.inr (Or.inl ⟨v, hv, (planRelation_change_id hx).1, (planRelation_change_id hx).2.1⟩)
    · obtain ⟨old, hold, rfl⟩ := List.mem_map.mp h
      exact Or.inr (Or.inr ⟨old, hold, rfl⟩)

theorem mem_dueOf_stored {s : Store} {id : ConnectionId} {batch : ValidatedBatch} {r : Resource}
    (h : r ∈ s.dueOf id batch) :
    s.resources.get r.resourceId = some r ∧ r.connectionId = id ∧ r.resourceId ∉ batch.observedIds ∧
      ∃ scope, batch.coverage = .authoritativeFull scope ∧ r.scope = scope ∧
        1 ≤ s.missingCount id scope r.resourceId ∧ r.lifecycle ≠ .tombstoned := by
  unfold dueOf at h
  split at h
  · rename_i scope hcov
    obtain ⟨h1, h2, h3, h4, h5, h6⟩ := s.mem_dueResources.mp h
    exact ⟨h1, h2, h4, scope, hcov, h3, h5, h6⟩
  · cases h
  · cases h
  · cases h

theorem offerable_commitOf {s : Store} (hs : s.WellIdentified) {handle : SyncRunHandle}
    (hi : s.Issued handle) {batch : ValidatedBatch} (hknown : s.EndpointsKnown batch)
    (finishedAt : Timestamp) : s.Offerable (s.commitOf handle batch finishedAt) where
  finished := by
    refine ⟨?_, rfl⟩
    show (if batch.coverage.isPartial then SyncRunStatus.partial_ else .succeeded) ≠ .running
    split <;> simp
  started := hi.run
  connected := hi.connection
  resourceIds := by
    intro r hr
    rw [commitOf_resources] at hr
    rcases List.mem_append.mp hr with hr | hr
    · obtain ⟨v, _, rfl⟩ := List.mem_map.mp hr
      rfl
    · obtain ⟨old, hold, rfl⟩ := List.mem_map.mp hr
      exact hs.resources old (KeyedTable.mem_of_get (mem_dueOf_stored hold).1)
  relationIds := by
    intro r hr
    rw [commitOf_relations] at hr
    obtain ⟨v, _, rfl⟩ := List.mem_map.mp hr
    rfl
  versioned := by
    intro x hx
    rw [commitOf_resourceVersions] at hx
    obtain ⟨p, hp, hxp⟩ := List.mem_flatMap.mp hx
    obtain ⟨v, hv, rfl⟩ := List.mem_map.mp hp
    refine ⟨s.projected (finishedRun handle batch finishedAt) v, ?_, ?_⟩
    · rw [commitOf_resources]
      exact List.mem_append_left _ (List.mem_map_of_mem hv)
    · exact (planResource_version_id hxp).1.symm
  endpoints := by
    intro r hr
    rw [commitOf_relations] at hr
    obtain ⟨v, hv, rfl⟩ := List.mem_map.mp hr
    have hmono : ∀ id, s.Known batch.observedIds id →
        s.Known ((s.commitOf handle batch finishedAt).resources.map Resource.resourceId) id :=
      fun id h => h.imp (s.observedIds_subset handle batch finishedAt) (fun h => h)
    exact ⟨hmono _ (hknown v hv).1, hmono _ (hknown v hv).2⟩
  relationVersioned := by
    intro x hx
    rw [commitOf_relationVersions] at hx
    obtain ⟨p, hp, hxp⟩ := List.mem_flatMap.mp hx
    obtain ⟨v, hv, rfl⟩ := List.mem_map.mp hp
    refine ⟨s.projectedRelation v, ?_, (planRelation_version_id hxp).1.symm⟩
    rw [commitOf_relations]
    exact List.mem_map_of_mem hv

end Store

end NextInfra
