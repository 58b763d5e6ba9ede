import NextInfra.Store.LocalCommits
import NextInfra.Store.Purge

/-!
# The committed revision

Every write of the store as the transaction it runs (`Write.statements`), the
database free to fail before any statement and before the commit (`Attempt`).
A write that completes is the function the rest of the development uses
(`Write.run_statements`).

The revision counts the writes: each one raises it, or leaves it alone together
with everything a query can see (`Write.counted`).
-/

namespace NextInfra

/-! ## §1  Writes as transactions -/

/-- The methods that write the store. -/
inductive Write
  | upsertConnection (connection : Connection)
  | upsertConnectionSecret (connection : ConnectionId) (secret : List UInt8)
  | startSyncRun (run : SyncRun)
  | commitSync (commit : SyncCommit)
  | markRunningSyncsInterrupted (at_ : Timestamp)
  | commitBinding (commit : BindingCommit)
  | commitInference (commit : InferenceCommit)
  | purgeConnection (connection : ConnectionId)

namespace Write

open Store

/-- One statement a row. -/
def each {α : Type} (upsert : Store → α → Except StoreError Store) (rows : List α) :
    List (Store → Except StoreError Store) :=
  rows.map fun row s => upsert s row

/-- The same for statements that report how many rows they wrote. -/
def eachCounted {α : Type} (insert : Store → α → Except StoreError (Store × Nat))
    (rows : List α) : List (Store → Except StoreError Store) :=
  rows.map fun row s => (insert s row).map Prod.fst

/-- What `commit_sync` checks before it opens its transaction. -/
def checkCommit (commit : SyncCommit) (s : Store) : Except StoreError Store :=
  if commit.syncRun.status = .running ∨ commit.syncRun.finishedAt.isNone then
    .error (.contract "commit_sync requires a finished sync run")
  else (validateCommit commit).map fun _ => s

def checkStart (run : SyncRun) (s : Store) : Except StoreError Store :=
  if run.status ≠ .running ∨ run.finishedAt.isSome then
    .error (.contract "start_sync_run requires running status without finished_at")
  else .ok s

def checkPurge (id : ConnectionId) (s : Store) : Except StoreError Store :=
  if (s.connections.get id).isNone then .error (.contract "connection does not exist for purge")
  else .ok s

/-- The statements that write relations with their versions and changes. -/
def relationStatements (relations : List Relation) (versions : List RelationVersion)
    (changes : List Change) : List (Store → Except StoreError Store) :=
  each upsertRelation relations ++
    (eachCounted insertRelationVersion versions ++ eachCounted insertChange changes)

/-- `bump_projection_metadata`, or the `UPDATE` in its place. -/
def bumped (s : Store) : Except StoreError Store := .ok s.bump

/-- The statements of a write on a store, the checks before them included. -/
def statements (s : Store) : Write → List (Store → Except StoreError Store)
  | .upsertConnection connection =>
      [fun s => .ok { s with connections := s.connections.put connection }, bumped]
  | .upsertConnectionSecret id secret => [fun s => s.upsertConnectionSecret id secret]
  | .startSyncRun run => [checkStart run, fun s => s.insertSyncRun run, bumped]
  | .commitSync commit =>
      checkCommit commit :: (fun s => s.completeSyncRun commit.syncRun) ::
        (each upsertResource commit.resources ++
          (eachCounted insertResourceVersion commit.resourceVersions ++
            (relationStatements commit.relations commit.relationVersions commit.changes ++
              [fun s : Store => s.upsertConnectorState commit, bumped])))
  | .markRunningSyncsInterrupted at_ =>
      (fun s => .ok { s with
        syncRuns := s.syncRuns.update (interruptedRow at_) (interruptedRow_id at_) }) ::
        if 0 < (s.markRunningSyncsInterrupted at_).1 then [bumped] else []
  | .commitBinding commit =>
      (fun s : Store => s.upsertBinding commit.binding) ::
        (relationStatements commit.relations commit.relationVersions commit.changes ++
          [bumped])
  | .commitInference commit =>
      (fun s : Store => s.insertInferenceRun commit.run) ::
        (relationStatements commit.relations commit.relationVersions commit.changes ++
          (each (insertInferenceOutput commit) commit.run.outputRelationIds ++
            [bumped]))
  | .purgeConnection id => checkPurge id :: purgeStatements id

/-- The write as one function of the store. -/
def run (s : Store) : Write → Except StoreError Store
  | .upsertConnection connection => .ok (s.upsertConnection connection)
  | .upsertConnectionSecret id secret => s.upsertConnectionSecret id secret
  | .startSyncRun run => s.startSyncRun run
  | .commitSync commit => (s.commitSync commit).map Prod.snd
  | .markRunningSyncsInterrupted at_ => .ok (s.markRunningSyncsInterrupted at_).2
  | .commitBinding commit => s.commitBinding commit
  | .commitInference commit => s.commitInference commit
  | .purgeConnection id => (s.purgeConnection id).map Prod.snd

/-! ## §2  The transaction is the function -/

theorem run_each {α : Type} (upsert : Store → α → Except StoreError Store) (rows : List α)
    (s : Store) : Transaction.run (each upsert rows) s = upsertEach upsert s rows := by
  induction rows generalizing s with
  | nil => rfl
  | cons row rows ih =>
      show Transaction.run ((fun s => upsert s row) :: each upsert rows) s = _
      rw [Transaction.run_cons]
      unfold upsertEach
      cases hrow : upsert s row with
      | error e => rfl
      | ok s' => exact ih s'

theorem run_eachCounted {α : Type} (insert : Store → α → Except StoreError (Store × Nat))
    (rows : List α) (s : Store) :
    Transaction.run (eachCounted insert rows) s = (insertEach insert s rows).map Prod.fst := by
  induction rows generalizing s with
  | nil => rfl
  | cons row rows ih =>
      show Transaction.run ((fun s => (insert s row).map Prod.fst) :: eachCounted insert rows) s = _
      rw [Transaction.run_cons]
      unfold insertEach
      cases hrow : insert s row with
      | error e => rfl
      | ok p =>
          obtain ⟨s', n⟩ := p
          have hstep := ih s'
          simp only [Except.map]
          show Transaction.run (eachCounted insert rows) s' = _
          rw [hstep]
          cases hrest : insertEach insert s' rows with
          | error e => rfl
          | ok q => rfl

theorem map_bind {ε α β γ : Type} (f : β → γ) (x : Except ε α) (next : α → Except ε β) :
    (x >>= next).map f = x >>= fun a => (next a).map f := by
  cases x with
  | error e => rfl
  | ok a => rfl

theorem fst_bind {ε α β γ : Type} (x : Except ε (α × β)) (next : α → Except ε γ) :
    x.map Prod.fst >>= next = x >>= fun p => next p.1 := by
  cases x with
  | error e => rfl
  | ok p => rfl

/-- The three loops over relations, followed by `rest`. -/
theorem run_relationStatements (relations : List Relation) (versions : List RelationVersion)
    (changes : List Change) (rest : List (Store → Except StoreError Store)) (s : Store) :
    Transaction.run (relationStatements relations versions changes ++ rest) s =
      upsertEach upsertRelation s relations >>= fun s =>
        insertEach insertRelationVersion s versions >>= fun p =>
          insertEach insertChange p.1 changes >>= fun q => Transaction.run rest q.1 := by
  unfold relationStatements
  rw [List.append_assoc, List.append_assoc, Transaction.run_append, run_each]
  refine bind_congr fun s₁ => ?_
  rw [Transaction.run_append, run_eachCounted, fst_bind]
  refine bind_congr fun p => ?_
  rw [Transaction.run_append, run_eachCounted, fst_bind]

/-- A write whose statements all run is its function. -/
theorem run_statements (s : Store) (w : Write) :
    Transaction.run (w.statements s) s = w.run s := by
  cases w with
  | upsertConnection connection => rfl
  | upsertConnectionSecret id secret =>
      show (s.upsertConnectionSecret id secret >>= _) = s.upsertConnectionSecret id secret
      cases s.upsertConnectionSecret id secret with
      | error e => rfl
      | ok s' => rfl
  | startSyncRun run =>
      show (checkStart run s >>= _) = s.startSyncRun run
      unfold checkStart Store.startSyncRun
      by_cases hrun : run.status ≠ .running ∨ run.finishedAt.isSome
      · rw [if_pos hrun, if_pos hrun]
        rfl
      · rw [if_neg hrun, if_neg hrun]
        show (s.insertSyncRun run >>= _) = _
        cases s.insertSyncRun run with
        | error e => rfl
        | ok s' => rfl
  | commitSync commit =>
      show (checkCommit commit s >>= _) = (s.commitSync commit).map Prod.snd
      unfold checkCommit Store.commitSync
      by_cases hfin : commit.syncRun.status = .running ∨ commit.syncRun.finishedAt.isNone
      · rw [if_pos hfin, if_pos hfin]
        rfl
      rw [if_neg hfin, if_neg hfin]
      cases validateCommit commit with
      | error e => rfl
      | ok _ =>
          show (s.completeSyncRun commit.syncRun >>= _) = (s.commitStatements commit).map Prod.snd
          unfold commitStatements
          rw [map_bind]
          refine bind_congr fun s₁ => ?_
          show Transaction.run _ s₁ = _
          rw [Transaction.run_append, run_each, map_bind]
          refine bind_congr fun s₂ => ?_
          rw [Transaction.run_append, run_eachCounted, fst_bind, map_bind]
          refine bind_congr fun p => ?_
          rw [run_relationStatements, map_bind]
          refine bind_congr fun s₄ => ?_
          rw [map_bind]
          refine bind_congr fun q => ?_
          rw [map_bind]
          refine bind_congr fun c => ?_
          show (c.1.upsertConnectorState commit >>= _) = _
          rw [map_bind]
          rfl
  | markRunningSyncsInterrupted at_ =>
      show Transaction.run (if 0 < (s.markRunningSyncsInterrupted at_).1 then [bumped] else []) _ =
        .ok (s.markRunningSyncsInterrupted at_).2
      unfold Store.markRunningSyncsInterrupted
      simp only
      split
      · rfl
      · rfl
  | commitBinding commit =>
      show (s.upsertBinding commit.binding >>= Transaction.run _) = s.commitBinding commit
      unfold Store.commitBinding
      refine bind_congr fun s₁ => ?_
      rw [run_relationStatements]
      rfl
  | commitInference commit =>
      show (s.insertInferenceRun commit.run >>= Transaction.run _) = s.commitInference commit
      unfold Store.commitInference
      refine bind_congr fun s₁ => ?_
      rw [run_relationStatements]
      refine bind_congr fun s₂ => ?_
      refine bind_congr fun p => ?_
      refine bind_congr fun q => ?_
      rw [Transaction.run_append, run_each]
      rfl
  | purgeConnection id =>
      show (checkPurge id s >>= _) = (s.purgeConnection id).map Prod.snd
      unfold checkPurge Store.purgeConnection connectionPurgeSummary
      by_cases hnone : (s.connections.get id).isNone
      · rw [if_pos hnone, if_pos hnone]
        rfl
      · rw [if_neg hnone, if_neg hnone]
        show Transaction.run (purgeStatements id) s = _
        simp only
        cases Transaction.run (purgeStatements id) s with
        | error e => rfl
        | ok s' => rfl

end Write

/-! ## §3  What a write does -/

/-- Resources, relations, bindings and their records are untouched. -/
structure Store.SameGraph (s s' : Store) : Prop where
  resources : s'.resources = s.resources
  resourceVersions : s'.resourceVersions = s.resourceVersions
  relations : s'.relations = s.relations
  relationVersions : s'.relationVersions = s.relationVersions
  changes : s'.changes = s.changes
  bindings : s'.bindings = s.bindings
  inferenceRuns : s'.inferenceRuns = s.inferenceRuns
  inferenceOutputs : s'.inferenceOutputs = s.inferenceOutputs

/-- A write is one of the commits, a purge, or leaves the graph alone. -/
inductive Write.Effect (s : Store) : Write → Store → Prop
  | quiet {w : Write} {s' : Store} (same : s.SameGraph s') : Effect s w s'
  | sync {commit : SyncCommit} {r : CommitResult} {s' : Store}
      (effect : CommitEffect s commit r s') : Effect s (.commitSync commit) s'
  | binding {commit : BindingCommit} {s' : Store} (effect : BindingEffect s commit s') :
      Effect s (.commitBinding commit) s'
  | inference {commit : InferenceCommit} {s' : Store} (effect : InferenceEffect s commit s') :
      Effect s (.commitInference commit) s'
  | purge {id : ConnectionId} : Effect s (.purgeConnection id) (s.purged id)

theorem Store.markRunningSyncsInterrupted_same (s : Store) (at_ : Timestamp) :
    s.SameGraph (s.markRunningSyncsInterrupted at_).2 := by
  unfold Store.markRunningSyncsInterrupted
  simp only
  split
  · exact ⟨rfl, rfl, rfl, rfl, rfl, rfl, rfl, rfl⟩
  · exact ⟨rfl, rfl, rfl, rfl, rfl, rfl, rfl, rfl⟩

theorem Write.effect {s s' : Store} {w : Write} (h : w.run s = .ok s') : Write.Effect s w s' := by
  cases w with
  | upsertConnection connection =>
      cases h
      exact .quiet ⟨rfl, rfl, rfl, rfl, rfl, rfl, rfl, rfl⟩
  | upsertConnectionSecret id secret =>
      obtain rfl := Store.upsertConnectionSecret_ok h
      exact .quiet ⟨rfl, rfl, rfl, rfl, rfl, rfl, rfl, rfl⟩
  | startSyncRun run =>
      obtain ⟨_, _, _, rfl⟩ := Store.startSyncRun_ok h
      exact .quiet ⟨rfl, rfl, rfl, rfl, rfl, rfl, rfl, rfl⟩
  | commitSync commit =>
      obtain ⟨⟨r, t⟩, hc, rfl⟩ := map_ok h
      exact .sync (Store.commitSync_ok hc)
  | markRunningSyncsInterrupted at_ =>
      cases h
      exact .quiet (s.markRunningSyncsInterrupted_same at_)
  | commitBinding commit => exact .binding (Store.commitBinding_ok h)
  | commitInference commit => exact .inference (Store.commitInference_ok h)
  | purgeConnection id =>
      obtain ⟨⟨summary, t⟩, hp, rfl⟩ := map_ok h
      obtain ⟨_, _, _, rfl⟩ := Store.purgeConnection_ok hp
      exact .purge

/-- The store a write leaves; a write that fails leaves it alone. -/
def Store.written (s : Store) (w : Write) : Store := (w.run s).toOption.getD s

theorem Store.written_cases (s : Store) (w : Write) :
    s.written w = s ∨ w.run s = .ok (s.written w) := by
  unfold Store.written
  cases hrun : w.run s with
  | error e => exact Or.inl rfl
  | ok s' => exact Or.inr rfl

/-! ## §4  Attempts -/

/-- A write, and the statement before which the database fails, if it does. -/
structure Attempt where
  write : Write
  fault : Option Nat

def Attempt.outcome (a : Attempt) (s : Store) : Except (Transaction.Abort StoreError) Store :=
  Transaction.attempt a.fault (a.write.statements s) s

/-- The store after an attempt. -/
def Store.after (s : Store) (a : Attempt) : Store := Transaction.stored s (a.outcome s)

/-- An attempt leaves the store as it was, or does its write. -/
theorem Store.after_cases (s : Store) (a : Attempt) :
    s.after a = s ∨ a.write.run s = .ok (s.after a) := by
  rcases Transaction.stored_attempt (a.write.statements s) a.fault s with h | h
  · exact Or.inl h
  · rw [Write.run_statements] at h
    exact Or.inr h

/-! ## §5  What the revision identifies -/

/-- The tables queries are answered from. -/
structure Visible where
  connections : KeyedTable Connection.connectionId
  resources : KeyedTable Resource.resourceId
  relations : KeyedTable Relation.relationId
  resourceVersions : KeyedTable ResourceVersion.versionId
  relationVersions : KeyedTable RelationVersion.relationVersionId
  changes : KeyedTable Change.changeId
  bindings : KeyedTable Binding.bindingId
  syncRuns : KeyedTable SyncRun.syncRunId

def Store.visible (s : Store) : Visible where
  connections := s.connections
  resources := s.resources
  relations := s.relations
  resourceVersions := s.resourceVersions
  relationVersions := s.relationVersions
  changes := s.changes
  bindings := s.bindings
  syncRuns := s.syncRuns

abbrev Store.CountedTo (s s' : Store) : Prop :=
  Transaction.Counted Store.committedRevision Store.visible s s'

theorem Store.countedTo_of_succ {s s' : Store}
    (h : s'.committedRevision = s.committedRevision + 1) : s.CountedTo s' :=
  Or.inl (by rw [h]; exact Nat.lt_succ_self _)

/-- No running run, no row rewritten. -/
theorem Store.markRunningSyncsInterrupted_counted (s : Store) (at_ : Timestamp) :
    s.CountedTo (s.markRunningSyncsInterrupted at_).2 := by
  unfold Store.markRunningSyncsInterrupted
  simp only
  split
  · exact Store.countedTo_of_succ rfl
  · rename_i hnone
    right
    refine ⟨rfl, ?_⟩
    -- no row has the status the `UPDATE` asks for, so its map is the identity
    have hsame : s.syncRuns.update (Store.interruptedRow at_) (Store.interruptedRow_id at_) =
        s.syncRuns := by
      apply KeyedTable.ext_rows
      show s.syncRuns.rows.map (Store.interruptedRow at_) = s.syncRuns.rows
      conv_rhs => rw [← List.map_id s.syncRuns.rows]
      apply List.map_congr_left
      intro run hrun
      have hnot : run.status ≠ .running := by
        intro hrunning
        apply hnone
        exact List.countP_pos_iff.mpr ⟨run, hrun, decide_eq_true hrunning⟩
      unfold Store.interruptedRow
      rw [if_neg hnot]
      rfl
    unfold Store.visible
    simp only [hsame]

theorem Write.counted {s s' : Store} {w : Write} (h : w.run s = .ok s') : s.CountedTo s' := by
  cases w with
  | upsertConnection connection =>
      cases h
      exact Store.countedTo_of_succ rfl
  | upsertConnectionSecret id secret =>
      obtain rfl := Store.upsertConnectionSecret_ok h
      exact Or.inr ⟨rfl, rfl⟩
  | startSyncRun run =>
      obtain ⟨_, _, _, rfl⟩ := Store.startSyncRun_ok h
      exact Store.countedTo_of_succ rfl
  | commitSync commit =>
      obtain ⟨⟨r, t⟩, hc, rfl⟩ := map_ok h
      exact Store.countedTo_of_succ (Store.commitSync_ok hc).revision
  | markRunningSyncsInterrupted at_ =>
      cases h
      exact s.markRunningSyncsInterrupted_counted at_
  | commitBinding commit =>
      rw [(Store.commitBinding_ok h).eq]
      exact Store.countedTo_of_succ rfl
  | commitInference commit =>
      obtain ⟨outputs, rfl⟩ := (Store.commitInference_ok h).eq
      exact Store.countedTo_of_succ rfl
  | purgeConnection id =>
      obtain ⟨⟨summary, t⟩, hp, rfl⟩ := map_ok h
      obtain ⟨_, _, _, rfl⟩ := Store.purgeConnection_ok hp
      exact Store.countedTo_of_succ rfl

theorem Store.after_counted (s : Store) (a : Attempt) : s.CountedTo (s.after a) := by
  rcases s.after_cases a with h | h
  · rw [h]
    exact Transaction.Counted.refl s
  · exact Write.counted h

/-- Along every sequence of attempted writes, failures included, the revision
never decreases, moments with one revision show one state, and a failed attempt
changes nothing. -/
theorem revision_identifies_visible (s : Store) (attempts : List Attempt) :
    (Transaction.moments Store.after s attempts).Pairwise (fun earlier later =>
        earlier.committedRevision ≤ later.committedRevision ∧
          (earlier.committedRevision = later.committedRevision →
            earlier.visible = later.visible)) ∧
      ∀ t ∈ Transaction.moments Store.after s attempts, ∀ a : Attempt,
        (∀ e, a.outcome t = .error e → t.after a = t) ∧
          ∀ t', a.outcome t = .ok t' → a.write.run t = .ok t' ∧ t.after a = t' := by
  constructor
  · have hpair : (Transaction.moments Store.after s attempts).Pairwise Store.CountedTo :=
      Transaction.pairwise_moments (fun s => Transaction.Counted.refl s)
        (fun _ _ _ => Transaction.Counted.trans) Store.after_counted attempts s
    exact hpair.imp fun h => ⟨h.le, h.view_eq⟩
  · intro t _ a
    constructor
    · intro e he
      unfold Store.after
      rw [he]
      rfl
    · intro t' ht'
      refine ⟨?_, ?_⟩
      · rw [← Write.run_statements]
        exact Transaction.run_of_attempt ht'
      · unfold Store.after
        rw [ht']
        rfl

end NextInfra
