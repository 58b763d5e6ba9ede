import NextInfra.Store.Write

/-!
# The projection store: transactions

`start_sync_run`, `commit_sync`, `mark_running_syncs_interrupted`,
`upsert_connection` and `upsert_connection_secret`. A transaction that fails rolls back:
it returns an error and no store.

`commitSync_ok` says once what an accepted commit does to every table
(`CommitEffect`); nothing else unfolds `commitSync`.
-/

namespace NextInfra

/-! ## §1  Small transactions -/

namespace Store

def startSyncRun (s : Store) (run : SyncRun) : Except StoreError Store :=
  if run.status ≠ .running ∨ run.finishedAt.isSome then
    .error (.contract "start_sync_run requires running status without finished_at")
  else
    match s.insertSyncRun run with
    | .error e => .error e
    | .ok s' => .ok s'.bump

/-- `UPDATE sync_runs SET status = 'interrupted', finished_at = ?1 WHERE status = 'running'`. -/
def interruptedRow (at_ : Timestamp) (run : SyncRun) : SyncRun :=
  if run.status = .running then { run with status := .interrupted, finishedAt := some at_ } else run

theorem interruptedRow_id (at_ : Timestamp) (run : SyncRun) :
    (interruptedRow at_ run).syncRunId = run.syncRunId := by
  unfold interruptedRow
  split <;> rfl

def markRunningSyncsInterrupted (s : Store) (at_ : Timestamp) : Nat × Store :=
  let updated := s.syncRuns.rows.countP fun run => decide (run.status = .running)
  let s' := { s with syncRuns := s.syncRuns.update (interruptedRow at_) (interruptedRow_id at_) }
  (updated, if 0 < updated then s'.bump else s')

def upsertConnection (s : Store) (connection : Connection) : Store :=
  { s with connections := s.connections.put connection }.bump

def upsertConnectionSecret (s : Store) (id : ConnectionId) (secret : List UInt8) :
    Except StoreError Store :=
  if (s.connections.get id).isNone then .error (.sqlite .foreignKey)
  else
    .ok { s with
      connectionSecrets := s.connectionSecrets.put { connectionId := id, secret := secret } }

/-! ## §2  `commit_sync` -/

/-- Provider evidence of another connection or another run. -/
def foreignEvidence (run : SyncRun) (relation : Relation) : Bool :=
  match relation.evidence with
  | .provider connectionId syncRunId _ =>
      decide (connectionId ≠ run.connectionId) || decide (syncRunId ≠ run.syncRunId)
  | .configured _ => false
  | .inferred _ _ _ _ => false

def validateCommit (commit : SyncCommit) : Except StoreError Unit :=
  let run := commit.syncRun
  if commit.cursorAfter ≠ run.cursorAfter then
    .error (.contract "commit cursor must match SyncRun cursor_after")
  else if commit.resources.any (fun resource =>
      decide (resource.connectionId ≠ run.connectionId) ||
        decide (resource.lastSyncRunId ≠ run.syncRunId)) then
    .error (.contract "resource provenance does not match SyncRun")
  else if commit.resourceVersions.any (fun version => decide (version.syncRunId ≠ run.syncRunId)) then
    .error (.contract "resource version provenance does not match SyncRun")
  else if commit.relations.any (foreignEvidence run) then
    .error (.contract "provider relation provenance does not match SyncRun")
  else .ok ()

/-- The statements between `BEGIN` and `COMMIT`, in order. -/
def commitStatements (s : Store) (commit : SyncCommit) : Except StoreError (CommitResult × Store) := do
  let s ← s.completeSyncRun commit.syncRun
  let s ← upsertEach upsertResource s commit.resources
  let (s, resourceVersionsWritten) ← insertEach insertResourceVersion s commit.resourceVersions
  let s ← upsertEach upsertRelation s commit.relations
  let (s, relationVersionsWritten) ← insertEach insertRelationVersion s commit.relationVersions
  let (s, changesWritten) ← insertEach insertChange s commit.changes
  let s ← s.upsertConnectorState commit
  return ({ resourcesWritten := commit.resources.length
            resourceVersionsWritten := resourceVersionsWritten
            relationsWritten := commit.relations.length
            relationVersionsWritten := relationVersionsWritten
            changesWritten := changesWritten }, s.bump)

def commitSync (s : Store) (commit : SyncCommit) : Except StoreError (CommitResult × Store) :=
  if commit.syncRun.status = .running ∨ commit.syncRun.finishedAt.isNone then
    .error (.contract "commit_sync requires a finished sync run")
  else
    match validateCommit commit with
    | .error e => .error e
    | .ok () => s.commitStatements commit

end Store

/-! ## §3  What an accepted commit does -/

/-- The effect of an accepted commit, table by table. -/
structure CommitEffect (s : Store) (c : SyncCommit) (r : CommitResult) (s' : Store) : Prop where
  finished : c.syncRun.status ≠ .running
  valid : Store.validateCommit c = .ok ()
  started : ∃ stored, s.syncRuns.get c.syncRun.syncRunId = some stored ∧
    stored.connectionId = c.syncRun.connectionId ∧
    s'.syncRuns = s.syncRuns.put (Store.completedRow stored c.syncRun)
  connected : (s.connections.get c.syncRun.connectionId).isSome
  connections : s'.connections = s.connections
  resourcesFit : Store.resourceRule.FitsAll s.resources c.resources
  resources : s'.resources = Store.resourceRule.applyAll s.resources c.resources
  resourceVersions : s'.resourceVersions = s.resourceVersions.insertNewAll c.resourceVersions
  relationsFit : Store.relationRule.FitsAll s.relations c.relations
  relations : s'.relations = Store.relationRule.applyAll s.relations c.relations
  relationVersions : s'.relationVersions = s.relationVersions.insertNewAll c.relationVersions
  changes : s'.changes = s.changes.insertNewAll c.changes
  connectorState : s'.connectorState = s.connectorState.put
    { connectionId := c.syncRun.connectionId
      syncCursor := c.cursorAfter
      consecutiveMissing := s.missingEvidenceJson c }
  bindings : s'.bindings = s.bindings
  inferenceRuns : s'.inferenceRuns = s.inferenceRuns
  inferenceOutputs : s'.inferenceOutputs = s.inferenceOutputs
  connectionSecrets : s'.connectionSecrets = s.connectionSecrets
  revision : s'.committedRevision = s.committedRevision + 1
  result : r = { resourcesWritten := c.resources.length
                 resourceVersionsWritten := s.resourceVersions.insertedCount c.resourceVersions
                 relationsWritten := c.relations.length
                 relationVersionsWritten := s.relationVersions.insertedCount c.relationVersions
                 changesWritten := s.changes.insertedCount c.changes }

namespace Store

/-- A transaction body that succeeds has run each of its statements. -/
theorem commitStatements_ok {s s' : Store} {c : SyncCommit} {r : CommitResult}
    (h : s.commitStatements c = .ok (r, s')) (hfin : c.syncRun.status ≠ .running)
    (hvalid : validateCommit c = .ok ()) : CommitEffect s c r s' := by
  unfold commitStatements at h
  obtain ⟨s₁, h₁, h⟩ := bind_ok h
  obtain ⟨s₂, h₂, h⟩ := bind_ok h
  obtain ⟨⟨s₃, rv⟩, h₃, h⟩ := bind_ok h
  obtain ⟨s₄, h₄, h⟩ := bind_ok h
  obtain ⟨⟨s₅, lv⟩, h₅, h⟩ := bind_ok h
  obtain ⟨⟨s₆, cw⟩, h₆, h⟩ := bind_ok h
  obtain ⟨s₇, h₇, h⟩ := bind_ok h
  obtain ⟨stored, hstored, hconn, rfl⟩ := completeSyncRun_ok h₁
  obtain ⟨hfitr, rfl⟩ := upsertResources_ok h₂
  obtain ⟨rfl, rfl⟩ := insertResourceVersions_ok h₃
  obtain ⟨hfitl, rfl⟩ := upsertRelations_ok h₄
  obtain ⟨rfl, rfl⟩ := insertRelationVersions_ok h₅
  obtain ⟨rfl, rfl⟩ := insertChanges_ok h₆
  obtain ⟨hsome, rfl⟩ := upsertConnectorState_ok h₇
  cases h
  exact
    { finished := hfin
      valid := hvalid
      started := ⟨stored, hstored, hconn, rfl⟩
      connected := hsome
      connections := rfl
      resourcesFit := hfitr
      resources := rfl
      resourceVersions := rfl
      relationsFit := hfitl
      relations := rfl
      relationVersions := rfl
      changes := rfl
      connectorState := rfl
      bindings := rfl
      inferenceRuns := rfl
      inferenceOutputs := rfl
      connectionSecrets := rfl
      revision := rfl
      result := rfl }

theorem commitSync_ok {s s' : Store} {c : SyncCommit} {r : CommitResult}
    (h : s.commitSync c = .ok (r, s')) : CommitEffect s c r s' := by
  unfold commitSync at h
  split at h
  · cases h
  · rename_i hfin
    split at h
    · cases h
    · rename_i hvalid
      exact commitStatements_ok h (fun e => hfin (Or.inl e)) hvalid

/-- The provenance every accepted commit has. -/
theorem validateCommit_ok {c : SyncCommit} (h : validateCommit c = .ok ()) :
    c.cursorAfter = c.syncRun.cursorAfter ∧
      (∀ r ∈ c.resources, r.connectionId = c.syncRun.connectionId ∧
        r.lastSyncRunId = c.syncRun.syncRunId) ∧
      (∀ v ∈ c.resourceVersions, v.syncRunId = c.syncRun.syncRunId) := by
  unfold validateCommit at h
  simp only at h
  split at h
  · cases h
  rename_i hcursor
  split at h
  · cases h
  rename_i hres
  split at h
  · cases h
  rename_i hver
  refine ⟨not_not.mp hcursor, ?_, ?_⟩
  · simpa using hres
  · simpa using hver

theorem startSyncRun_ok {s s' : Store} {run : SyncRun} (h : s.startSyncRun run = .ok s') :
    s.syncRuns.get run.syncRunId = none ∧ (s.connections.get run.connectionId).isSome ∧
      run.status = .running ∧
      s' = ({ s with syncRuns := s.syncRuns.put run } : Store).bump := by
  unfold startSyncRun at h
  split at h
  · cases h
  rename_i hrun
  unfold insertSyncRun at h
  split at h
  · rename_i s₁ e heq
    cases h
  · rename_i s₁ heq
    split at heq
    · cases heq
    rename_i hpk
    split at heq
    · cases heq
    rename_i hfk
    cases heq
    cases h
    refine ⟨by simpa using hpk, by simpa [Option.isSome_iff_ne_none] using hfk, ?_, rfl⟩
    by_contra hne
    exact hrun (Or.inl hne)

end Store

end NextInfra
