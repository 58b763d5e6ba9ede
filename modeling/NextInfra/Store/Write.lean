import NextInfra.Store.Tables
import NextInfra.Lib.TableWrites

/-!
# The projection store: row writes

The statements a transaction runs, one function a statement. Each is a check
followed by a pure effect on one table: `*Violation` says which error the
statement raises, an `UpsertRule` says which row it leaves. `INSERT OR IGNORE`
reports how many rows it wrote.
-/

namespace NextInfra


namespace Store

/-! ## §1  Sync runs -/

def insertSyncRun (s : Store) (run : SyncRun) : Except StoreError Store :=
  if (s.syncRuns.get run.syncRunId).isSome then .error (.sqlite .primaryKey)
  else if (s.connections.get run.connectionId).isNone then .error (.sqlite .foreignKey)
  else .ok { s with syncRuns := s.syncRuns.put run }

/-- The row `UPDATE sync_runs` leaves: identity, mode, trigger, start and
`cursor_before` keep their stored values. -/
def completedRow (stored run : SyncRun) : SyncRun :=
  { stored with
    finishedAt := run.finishedAt
    status := run.status
    coverage := run.coverage
    cursorAfter := run.cursorAfter
    counts := run.counts
    errors := run.errors
    warnings := run.warnings }

/-- `WHERE sync_run_id = ?1 AND connection_id = ?9`; the stored status is not
looked at. -/
def completeSyncRun (s : Store) (run : SyncRun) : Except StoreError Store :=
  match s.syncRuns.get run.syncRunId with
  | none => .error (.contract "sync run must be started before completion")
  | some stored =>
      if stored.connectionId = run.connectionId then
        .ok { s with syncRuns := s.syncRuns.put (completedRow stored run) }
      else .error (.contract "sync run must be started before completion")

/-! ## §2  Resources -/

/-- `ON CONFLICT(resource_id) DO UPDATE`: identity columns must agree, and an
existing row keeps its `first_seen_at`. -/
def resourceRule : UpsertRule Resource.resourceId ResourceKey where
  ident := Resource.key
  carry := fun old new => { new with firstSeenAt := old.firstSeenAt }
  key_carry := fun _ _ => rfl
  ident_carry := fun _ _ => rfl

/-- The error of `upsert_resource`, if it raises one. -/
def resourceViolation (s : Store) (r : Resource) : Option StoreError :=
  match s.resources.get r.resourceId with
  | some stored =>
      if stored.connectionId ≠ r.connectionId ∨ stored.kind ≠ r.kind ∨
          stored.externalId ≠ r.externalId then
        some (.contract "resource stable identity cannot change")
      else if (s.syncRuns.get r.lastSyncRunId).isNone then some (.sqlite .foreignKey)
      else none
  | none =>
      if s.resources.rows.any (fun stored => decide (stored.key = r.key)) then
        some (.sqlite .unique)
      else if (s.connections.get r.connectionId).isNone ∨
          (s.syncRuns.get r.lastSyncRunId).isNone then some (.sqlite .foreignKey)
      else none

def upsertResource (s : Store) (r : Resource) : Except StoreError Store :=
  match s.resourceViolation r with
  | some e => .error e
  | none => .ok { s with resources := resourceRule.apply s.resources r }

def insertResourceVersion (s : Store) (v : ResourceVersion) : Except StoreError (Store × Nat) :=
  if (s.resourceVersions.get v.versionId).isSome then .ok (s, 0)
  else if (s.resources.get v.resourceId).isNone ∨ (s.syncRuns.get v.syncRunId).isNone then
    .error (.sqlite .foreignKey)
  else .ok ({ s with resourceVersions := s.resourceVersions.put v }, 1)

/-! ## §3  Relations -/

/-- `ON CONFLICT(relation_id) DO UPDATE`: the `UNIQUE` columns must agree, and
an existing row keeps its `first_seen_at`. -/
def relationRule : UpsertRule Relation.relationId RelationKey where
  ident := Relation.key
  carry := fun old new => { new with firstSeenAt := old.firstSeenAt }
  key_carry := fun _ _ => rfl
  ident_carry := fun _ _ => rfl

/-- The error of `upsert_relation`, if it raises one. -/
def relationViolation (s : Store) (r : Relation) : Option StoreError :=
  match s.relations.get r.relationId with
  | some stored =>
      if stored.sourceResourceId ≠ r.sourceResourceId ∨
          stored.targetResourceId ≠ r.targetResourceId ∨ stored.kind ≠ r.kind ∨
          stored.evidence.evidenceType ≠ r.evidence.evidenceType ∨
          stored.evidenceKey ≠ r.evidenceKey then
        some (.contract "relation stable identity cannot change")
      else none
  | none =>
      if s.relations.rows.any (fun stored => decide (stored.key = r.key)) then
        some (.sqlite .unique)
      else if (s.resources.get r.sourceResourceId).isNone ∨
          (s.resources.get r.targetResourceId).isNone then some (.sqlite .foreignKey)
      else none

def upsertRelation (s : Store) (r : Relation) : Except StoreError Store :=
  match s.relationViolation r with
  | some e => .error e
  | none => .ok { s with relations := relationRule.apply s.relations r }

def insertRelationVersion (s : Store) (v : RelationVersion) : Except StoreError (Store × Nat) :=
  if (s.relationVersions.get v.relationVersionId).isSome then .ok (s, 0)
  else if (s.relations.get v.relationId).isNone then .error (.sqlite .foreignKey)
  else .ok ({ s with relationVersions := s.relationVersions.put v }, 1)

/-! ## §4  Changes and connector state -/

def insertChange (s : Store) (c : Change) : Except StoreError (Store × Nat) :=
  if (s.changes.get c.changeId).isSome then .ok (s, 0)
  else .ok ({ s with changes := s.changes.put c }, 1)

/-- `missing_evidence_json`: the stored map with the commit's scope replaced. -/
def missingEvidenceJson (s : Store) (commit : SyncCommit) : PersistedMissingEvidence :=
  let persisted := s.persistedMissing commit.syncRun.connectionId
  match commit.missingEvidence with
  | some state => OrderedMap.insert persisted state.scope state.counts
  | none => persisted

def upsertConnectorState (s : Store) (commit : SyncCommit) : Except StoreError Store :=
  if (s.connections.get commit.syncRun.connectionId).isNone then .error (.sqlite .foreignKey)
  else
    .ok { s with
      connectorState := s.connectorState.put
        { connectionId := commit.syncRun.connectionId
          syncCursor := commit.cursorAfter
          consecutiveMissing := s.missingEvidenceJson commit } }

/-- `bump_projection_metadata`; the clock column is not modelled. -/
def bump (s : Store) : Store := { s with committedRevision := s.committedRevision + 1 }

/-! ## §5  Loops over rows -/

/-- `for row in rows { upsert(row)?; }`. -/
def upsertEach {α : Type} (upsert : Store → α → Except StoreError Store) :
    Store → List α → Except StoreError Store
  | s, [] => .ok s
  | s, row :: rows =>
      match upsert s row with
      | .error e => .error e
      | .ok s' => upsertEach upsert s' rows

/-- `for row in rows { written += insert(row)?; }`. -/
def insertEach {α : Type} (insert : Store → α → Except StoreError (Store × Nat)) :
    Store → List α → Except StoreError (Store × Nat)
  | s, [] => .ok (s, 0)
  | s, row :: rows =>
      match insert s row with
      | .error e => .error e
      | .ok (s', n) =>
          match insertEach insert s' rows with
          | .error e => .error e
          | .ok (s'', m) => .ok (s'', n + m)

/-! ## §6  What one statement leaves -/

theorem completeSyncRun_ok {s s' : Store} {run : SyncRun} (h : s.completeSyncRun run = .ok s') :
    ∃ stored, s.syncRuns.get run.syncRunId = some stored ∧
      stored.connectionId = run.connectionId ∧
      s' = { s with syncRuns := s.syncRuns.put (completedRow stored run) } := by
  unfold completeSyncRun at h
  cases hg : s.syncRuns.get run.syncRunId with
  | none => simp [hg] at h
  | some stored =>
      simp only [hg] at h
      by_cases hc : stored.connectionId = run.connectionId
      · rw [if_pos hc] at h
        exact ⟨stored, rfl, hc, (Except.ok.inj h).symm⟩
      · rw [if_neg hc] at h
        cases h

/-- Equal identity columns are equal keys. -/
theorem resource_key_eq_iff {a b : Resource} :
    a.key = b.key ↔ a.connectionId = b.connectionId ∧ a.kind = b.kind ∧ a.externalId = b.externalId := by
  simp [Resource.key]

theorem relation_key_eq_iff {a b : Relation} :
    a.key = b.key ↔ a.sourceResourceId = b.sourceResourceId ∧
      a.targetResourceId = b.targetResourceId ∧ a.kind = b.kind ∧
      a.evidence.evidenceType = b.evidence.evidenceType ∧ a.evidenceKey = b.evidenceKey := by
  simp [Relation.key]

/-- A resource row without violation fits the table. -/
theorem fits_of_resourceViolation {s : Store} {r : Resource} (h : s.resourceViolation r = none) :
    resourceRule.Fits s.resources r := by
  intro old hold
  unfold resourceViolation at h
  simp only [hold] at h
  split at h
  · cases h
  · rename_i hsame
    have hsame' : old.connectionId = r.connectionId ∧ old.kind = r.kind ∧
        old.externalId = r.externalId := by simpa [not_or] using hsame
    exact resource_key_eq_iff.mpr hsame'

theorem fits_of_relationViolation {s : Store} {r : Relation} (h : s.relationViolation r = none) :
    relationRule.Fits s.relations r := by
  intro old hold
  unfold relationViolation at h
  simp only [hold] at h
  split at h
  · cases h
  · rename_i hsame
    have hsame' : old.sourceResourceId = r.sourceResourceId ∧
        old.targetResourceId = r.targetResourceId ∧ old.kind = r.kind ∧
        old.evidence.evidenceType = r.evidence.evidenceType ∧
        old.evidenceKey = r.evidenceKey := by simpa [not_or] using hsame
    exact relation_key_eq_iff.mpr hsame'

theorem upsertResource_ok {s s' : Store} {r : Resource} (h : s.upsertResource r = .ok s') :
    resourceRule.Fits s.resources r ∧
      s' = { s with resources := resourceRule.apply s.resources r } := by
  unfold upsertResource at h
  cases hv : s.resourceViolation r with
  | some e => simp [hv] at h
  | none =>
      simp only [hv] at h
      exact ⟨fits_of_resourceViolation hv, (Except.ok.inj h).symm⟩

theorem upsertRelation_ok {s s' : Store} {r : Relation} (h : s.upsertRelation r = .ok s') :
    relationRule.Fits s.relations r ∧
      s' = { s with relations := relationRule.apply s.relations r } := by
  unfold upsertRelation at h
  cases hv : s.relationViolation r with
  | some e => simp [hv] at h
  | none =>
      simp only [hv] at h
      exact ⟨fits_of_relationViolation hv, (Except.ok.inj h).symm⟩

theorem insertResourceVersion_ok {s s' : Store} {v : ResourceVersion} {n : Nat}
    (h : s.insertResourceVersion v = .ok (s', n)) :
    s' = { s with resourceVersions := s.resourceVersions.insertNew v } ∧
      n = if (s.resourceVersions.get v.versionId).isSome then 0 else 1 := by
  unfold insertResourceVersion at h
  unfold KeyedTable.insertNew
  by_cases hs : (s.resourceVersions.get v.versionId).isSome
  · rw [if_pos hs] at h
    cases h
    simp [hs]
  · rw [if_neg hs] at h
    split at h
    · cases h
    · cases h
      simp [hs]

theorem insertRelationVersion_ok {s s' : Store} {v : RelationVersion} {n : Nat}
    (h : s.insertRelationVersion v = .ok (s', n)) :
    s' = { s with relationVersions := s.relationVersions.insertNew v } ∧
      n = if (s.relationVersions.get v.relationVersionId).isSome then 0 else 1 := by
  unfold insertRelationVersion at h
  unfold KeyedTable.insertNew
  by_cases hs : (s.relationVersions.get v.relationVersionId).isSome
  · rw [if_pos hs] at h
    cases h
    simp [hs]
  · rw [if_neg hs] at h
    split at h
    · cases h
    · cases h
      simp [hs]

theorem insertChange_ok {s s' : Store} {c : Change} {n : Nat}
    (h : s.insertChange c = .ok (s', n)) :
    s' = { s with changes := s.changes.insertNew c } ∧
      n = if (s.changes.get c.changeId).isSome then 0 else 1 := by
  unfold insertChange at h
  unfold KeyedTable.insertNew
  by_cases hs : (s.changes.get c.changeId).isSome
  · rw [if_pos hs] at h
    cases h
    simp [hs]
  · rw [if_neg hs] at h
    cases h
    simp [hs]

theorem upsertConnectorState_ok {s s' : Store} {commit : SyncCommit}
    (h : s.upsertConnectorState commit = .ok s') :
    (s.connections.get commit.syncRun.connectionId).isSome ∧
      s' = { s with
        connectorState := s.connectorState.put
          { connectionId := commit.syncRun.connectionId
            syncCursor := commit.cursorAfter
            consecutiveMissing := s.missingEvidenceJson commit } } := by
  unfold upsertConnectorState at h
  split at h
  · cases h
  · rename_i hc
    exact ⟨by simpa [Option.isSome_iff_ne_none] using hc, (Except.ok.inj h).symm⟩

/-! ## §7  What a loop leaves -/

theorem upsertResources_ok : ∀ {rows : List Resource} {s s' : Store},
    upsertEach upsertResource s rows = .ok s' →
      resourceRule.FitsAll s.resources rows ∧
        s' = { s with resources := resourceRule.applyAll s.resources rows }
  | [], s, s', h => by
      cases h
      exact ⟨trivial, rfl⟩
  | r :: rows, s, s', h => by
      unfold upsertEach at h
      cases hr : s.upsertResource r with
      | error e => simp [hr] at h
      | ok s₁ =>
          simp only [hr] at h
          obtain ⟨hfit, rfl⟩ := upsertResource_ok hr
          obtain ⟨hfits, rfl⟩ := upsertResources_ok h
          exact ⟨⟨hfit, hfits⟩, rfl⟩

theorem upsertRelations_ok : ∀ {rows : List Relation} {s s' : Store},
    upsertEach upsertRelation s rows = .ok s' →
      relationRule.FitsAll s.relations rows ∧
        s' = { s with relations := relationRule.applyAll s.relations rows }
  | [], s, s', h => by
      cases h
      exact ⟨trivial, rfl⟩
  | r :: rows, s, s', h => by
      unfold upsertEach at h
      cases hr : s.upsertRelation r with
      | error e => simp [hr] at h
      | ok s₁ =>
          simp only [hr] at h
          obtain ⟨hfit, rfl⟩ := upsertRelation_ok hr
          obtain ⟨hfits, rfl⟩ := upsertRelations_ok h
          exact ⟨⟨hfit, hfits⟩, rfl⟩

/-- A loop of `INSERT OR IGNORE` on one table, read through that table's field. -/
theorem insertEach_ok {κ ρ : Type} [LinearOrder κ] {key : ρ → κ}
    {insert : Store → ρ → Except StoreError (Store × Nat)}
    {table : Store → KeyedTable key} {setTable : Store → KeyedTable key → Store}
    (hget : ∀ s t, table (setTable s t) = t)
    (hset : ∀ s t u, setTable (setTable s t) u = setTable s u)
    (hself : ∀ s, setTable s (table s) = s)
    (hins : ∀ s r s' n, insert s r = .ok (s', n) →
      s' = setTable s ((table s).insertNew r) ∧
        n = if ((table s).get (key r)).isSome then 0 else 1) :
    ∀ {rows : List ρ} {s s' : Store} {n : Nat}, insertEach insert s rows = .ok (s', n) →
      s' = setTable s ((table s).insertNewAll rows) ∧ n = (table s).insertedCount rows
  | [], s, s', n, h => by
      cases h
      exact ⟨(hself s).symm, rfl⟩
  | r :: rows, s, s', n, h => by
      unfold insertEach at h
      cases hr : insert s r with
      | error e => simp [hr] at h
      | ok p =>
          obtain ⟨s₁, n₁⟩ := p
          simp only [hr] at h
          cases hrest : insertEach insert s₁ rows with
          | error e => simp [hrest] at h
          | ok q =>
              obtain ⟨s₂, n₂⟩ := q
              simp only [hrest] at h
              cases h
              obtain ⟨rfl, rfl⟩ := hins _ _ _ _ hr
              obtain ⟨rfl, rfl⟩ := insertEach_ok hget hset hself hins hrest
              rw [hget, hset]
              exact ⟨rfl, rfl⟩

theorem insertResourceVersions_ok {rows : List ResourceVersion} {s s' : Store} {n : Nat}
    (h : insertEach insertResourceVersion s rows = .ok (s', n)) :
    s' = { s with resourceVersions := s.resourceVersions.insertNewAll rows } ∧
      n = s.resourceVersions.insertedCount rows :=
  @insertEach_ok _ _ _ ResourceVersion.versionId _ Store.resourceVersions (fun s t => { s with resourceVersions := t })
    (fun _ _ => rfl) (fun _ _ _ => rfl) (fun _ => rfl)
    (fun _ _ _ _ hr => insertResourceVersion_ok hr) rows s s' n h

theorem insertRelationVersions_ok {rows : List RelationVersion} {s s' : Store} {n : Nat}
    (h : insertEach insertRelationVersion s rows = .ok (s', n)) :
    s' = { s with relationVersions := s.relationVersions.insertNewAll rows } ∧
      n = s.relationVersions.insertedCount rows :=
  @insertEach_ok _ _ _ RelationVersion.relationVersionId _ Store.relationVersions (fun s t => { s with relationVersions := t })
    (fun _ _ => rfl) (fun _ _ _ => rfl) (fun _ => rfl)
    (fun _ _ _ _ hr => insertRelationVersion_ok hr) rows s s' n h

theorem insertChanges_ok {rows : List Change} {s s' : Store} {n : Nat}
    (h : insertEach insertChange s rows = .ok (s', n)) :
    s' = { s with changes := s.changes.insertNewAll rows } ∧
      n = s.changes.insertedCount rows :=
  @insertEach_ok _ _ _ Change.changeId _ Store.changes (fun s t => { s with changes := t })
    (fun _ _ => rfl) (fun _ _ _ => rfl) (fun _ => rfl)
    (fun _ _ _ _ hr => insertChange_ok hr) rows s s' n h

/-! ## §8  Loops that go through -/

/-- A loop goes through if each row does and leaves the rest ready. -/
theorem upsertEach_total {α : Type} {upsert : Store → α → Except StoreError Store}
    (Ready : Store → List α → Prop)
    (hstep : ∀ s a rest, Ready s (a :: rest) → ∃ s', upsert s a = .ok s' ∧ Ready s' rest)
    (rows : List α) (s : Store) (h : Ready s rows) : ∃ s', upsertEach upsert s rows = .ok s' := by
  induction rows generalizing s with
  | nil => exact ⟨s, rfl⟩
  | cons a rest ih =>
      obtain ⟨s', hs', hrest⟩ := hstep s a rest h
      unfold upsertEach
      simp only [hs']
      exact ih s' hrest

theorem insertEach_total {α : Type} {insert : Store → α → Except StoreError (Store × Nat)}
    (Ready : Store → α → Prop)
    (hstep : ∀ s a, Ready s a → ∃ s' n, insert s a = .ok (s', n) ∧ ∀ b, Ready s b → Ready s' b)
    (rows : List α) (s : Store) (h : ∀ a ∈ rows, Ready s a) :
    ∃ s' n, insertEach insert s rows = .ok (s', n) := by
  induction rows generalizing s with
  | nil => exact ⟨s, 0, rfl⟩
  | cons a rest ih =>
      obtain ⟨s', n, hs', hkeep⟩ := hstep s a (h a List.mem_cons_self)
      obtain ⟨s'', m, hs''⟩ := ih s' (fun b hb => hkeep b (h b (List.mem_cons_of_mem _ hb)))
      refine ⟨s'', n + m, ?_⟩
      unfold insertEach
      simp only [hs', hs'']

theorem insertChanges_total (s : Store) (rows : List Change) :
    ∃ n, insertEach insertChange s rows =
      .ok ({ s with changes := s.changes.insertNewAll rows }, n) := by
  have htotal : ∃ s' n, insertEach insertChange s rows = .ok (s', n) := by
    refine insertEach_total (fun _ _ => True) ?_ rows s (fun _ _ => trivial)
    intro s c _
    by_cases hold : (s.changes.get c.changeId).isSome
    · exact ⟨s, 0, by simp [insertChange, hold], fun _ hb => hb⟩
    · exact ⟨{ s with changes := s.changes.put c }, 1, by simp [insertChange, hold],
        fun _ hb => hb⟩
  obtain ⟨s', n, hs'⟩ := htotal
  exact ⟨n, by rw [hs', (insertChanges_ok hs').1]⟩

end Store

end NextInfra
