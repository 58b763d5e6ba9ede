import Mathlib.Algebra.Order.Ring.Nat
import NextInfra.Sync.Absence

/-!
# Syncing the same observations again

A batch is committed, and later the same observations are normalized and
committed under another run. The stored rows then carry the fingerprints of the
batch (`observed_row_after`), so no resource of the batch leaves a version or a
change and each counts as unchanged. What the second run may still write about
resources are the tombstones of the rows of the scope that both runs left out.
-/

namespace NextInfra

/-! ## §1  Counts -/

namespace Plan

/-- How many items a plan counts. -/
def counted (p : Plan) : Nat := p.created + p.updated + p.unchanged

/-- A walk whose items count once each counts them all. -/
theorem concat_counted {ps : List Plan} (h : ∀ p ∈ ps, p.counted = 1) :
    (concat ps).counted = ps.length := by
  induction ps with
  | nil => rfl
  | cons p ps ih =>
      have hp := h p List.mem_cons_self
      have hps := ih (fun q hq => h q (List.mem_cons_of_mem _ hq))
      unfold counted at hp hps ⊢
      rw [concat_cons, List.length_cons]
      simp only [append]
      omega

end Plan

/-- An item counts once, as new, updated or unchanged. -/
theorem Outcome.count_counted (o : Outcome) (p : Plan) : (o.count p).counted = 1 := by
  cases o <;> rfl

/-- Nothing new, nothing updated, no version, no change. -/
structure Plan.Quiet (p : Plan) : Prop where
  resourceVersions : p.resourceVersions = []
  changes : p.changes = []
  created : p.created = 0
  updated : p.updated = 0
  unchanged : p.unchanged = 1

theorem planResource_quiet (run : SyncRun) {v : ValidatedResource} {existing : Resource}
    (hfingerprint : existing.fingerprint = v.fingerprint) (hactive : existing.lifecycle = .active) :
    (planResource run v (some existing)).Quiet := by
  have houtcome : resourceOutcome v (some existing) = .unchanged := by
    simp [resourceOutcome, Outcome.of, hfingerprint, hactive]
  unfold planResource
  rw [houtcome]
  exact ⟨rfl, rfl, rfl, rfl, rfl⟩

/-- Quiet items add up to unchanged ones. -/
theorem Plan.concat_quiet {ps : List Plan} (h : ∀ p ∈ ps, p.Quiet) :
    (concat ps).created = 0 ∧ (concat ps).updated = 0 ∧ (concat ps).unchanged = ps.length := by
  induction ps with
  | nil => exact ⟨rfl, rfl, rfl⟩
  | cons p ps ih =>
      obtain ⟨hc, hu, hn⟩ := ih (fun q hq => h q (List.mem_cons_of_mem _ hq))
      have hp := h p List.mem_cons_self
      rw [concat_cons, List.length_cons]
      simp only [append, hp.created, hp.updated, hp.unchanged]
      omega

namespace Store

variable {s s' : Store} {handle : SyncRunHandle} {batch : ValidatedBatch} {at_ : Timestamp}
  {r : CommitResult}

/-- Resources, relations and tombstones are counted once each. -/
theorem commitOf_counted (s : Store) (handle : SyncRunHandle) (batch : ValidatedBatch)
    (at_ : Timestamp) :
    (s.batchPlan handle batch at_).counted = batch.resources.length + batch.relations.length +
      (s.dueOf handle.run.connectionId batch).length := by
  have hres : (Plan.concat (s.resourcePlans (finishedRun handle batch at_)
      batch.resources)).counted = batch.resources.length := by
    rw [Plan.concat_counted]
    · exact List.length_map _
    · intro p hp
      obtain ⟨v, _, rfl⟩ := List.mem_map.mp hp
      exact Outcome.count_counted _ _
  have hrel : (Plan.concat (s.relationPlans (finishedRun handle batch at_)
      batch.relations)).counted = batch.relations.length := by
    rw [Plan.concat_counted]
    · exact List.length_map _
    · intro p hp
      obtain ⟨v, _, rfl⟩ := List.mem_map.mp hp
      exact Outcome.count_counted _ _
  rw [batchPlan_eq]
  unfold Plan.counted at hres hrel ⊢
  simp only [Plan.append, tombstonePlan]
  omega

/-! ## §2  What the first commit leaves -/

/-- The store holds the batch's own fingerprint for each of its resources. -/
theorem observed_row_after (heff : CommitEffect s (s.commitOf handle batch at_) r s')
    (hkeys : (batch.resources.map ValidatedResource.key).Nodup) {v : ValidatedResource}
    (hv : v ∈ batch.resources) :
    ∃ x, s'.getResource (stableResourceId v.key) = some x ∧ x.lifecycle = .active ∧
      x.fingerprint = v.fingerprint := by
  have hmem : s.projected (finishedRun handle batch at_) v ∈
      (s.commitOf handle batch at_).resources := by
    rw [commitOf_resources]
    exact List.mem_append_left _ (List.mem_map_of_mem hv)
  obtain ⟨r', hr', hid, x, hx, hlands⟩ :=
    resourceRule.get_applyAll_of_mem (t := s.resources) hmem
  have hagrees := (resourceRule.fitsAll_iff.mp heff.resourcesFit).2 r' hr' _ hmem hid
  have hsame : r' = s.projected (finishedRun handle batch at_) v := by
    rw [commitOf_resources] at hr'
    rcases List.mem_append.mp hr' with hr' | hr'
    · -- rows that meet at an id have one key, and a key occurs once in the batch
      obtain ⟨w, hw, rfl⟩ := List.mem_map.mp hr'
      have hkey : w.key = v.key := hagrees
      rw [List.inj_on_of_nodup_map hkeys hw hv hkey]
    · obtain ⟨old, hold, rfl⟩ := List.mem_map.mp hr'
      have hid' : old.resourceId = stableResourceId v.key := hid
      exact absurd (hid' ▸ List.mem_map_of_mem hv) (mem_dueOf_stored hold).2.2.1
  subst hsame
  refine ⟨x, ?_, ?_, ?_⟩
  · unfold getResource
    rw [heff.resources]
    exact hx
  · rw [lands_eq hlands]
    rfl
  · rw [lands_eq hlands]
    rfl

end Store

/-! ## §3  The second run -/

namespace SyncEngine

/-- A successful commit through a new engine is the commit planned on its store. -/
theorem commit_new_ok {s : Store} {handle : SyncRunHandle} {batch : ValidatedBatch}
    {at_ : Timestamp} {r : CommitResult} {engine : SyncEngine Store}
    (h : SyncEngine.commit (.new s) handle batch at_ =
      ((.ok r : Except (SyncEngineError StoreError) CommitResult), engine)) :
    s.Checked handle batch ∧ CommitEffect s (s.commitOf handle batch at_) r engine.store := by
  have hcall := SyncEngine.call_new s (.commit handle batch at_)
  have hcall' : SyncEngine.call (.new s) (.commit handle batch at_) =
      ((.ok r : Except (SyncEngineError StoreError) CommitResult), engine) := h
  rw [hcall] at hcall'
  cases hp : (plannedCommit s handle batch at_ :
      Except (SyncEngineError StoreError) SyncCommit) with
  | error error =>
      simp only [EngineCall.planned, hp, offerNew] at hcall'
      cases hcall'
  | ok commit =>
      obtain ⟨hchecked, rfl⟩ := s.plannedCommit_ok_iff.mp hp
      refine ⟨hchecked, ?_⟩
      simp only [EngineCall.planned, hp, offerNew, StoreWriter.commitSync] at hcall'
      cases htaken : s.commitSync (s.commitOf handle batch at_) with
      | error cause =>
          rw [htaken] at hcall'
          cases hcall'
      | ok p =>
          obtain ⟨r', store⟩ := p
          rw [htaken] at hcall'
          cases hcall'
          exact Store.commitSync_ok htaken

end SyncEngine

/-- The second sync of the same observations: no resource version, every resource
unchanged, and about resources no change but the tombstones of the rows left out
twice. Without relations nothing else happens either. -/
theorem resync_leaves_resources_unchanged {digest : Value → Fingerprint} {n : Normalizer}
    {request : SyncRequest} {observations : ObservationBatch} {run₂ : SyncRunId}
    {b₁ b₂ : ValidatedBatch} {s s₂ : Store} {first second : SyncEngine Store}
    {h₁ h₂ : SyncRunHandle} {t₁ t₂ : Timestamp} {r₁ r₂ : CommitResult}
    (hn₁ : n.normalize digest request observations = .ok b₁)
    (hn₂ : n.normalize digest (Normalizer.withRun request run₂) observations = .ok b₂)
    (hc₁ : SyncEngine.commit (.new s) h₁ b₁ t₁ =
      ((.ok r₁ : Except (SyncEngineError StoreError) CommitResult), first))
    (hsame : System.SameProjection first.store s₂)
    (hc₂ : SyncEngine.commit (.new s₂) h₂ b₂ t₂ =
      ((.ok r₂ : Except (SyncEngineError StoreError) CommitResult), second)) :
    r₂.resourceVersionsWritten = 0 ∧ second.store.resourceVersions = s₂.resourceVersions ∧
      (∀ x ∈ second.store.changes.rows, x ∈ s₂.changes.rows ∨
        (∃ v ∈ b₂.relations, x.subject = .relation (stableRelationId v.key)) ∨
        ∃ old ∈ s₂.dueOf request.connection.connectionId b₂,
          x = tombstoneChange (finishedRun h₂ b₂ t₂) t₂ old) ∧
      ∃ run, second.store.getSyncRun run₂ = some run ∧
        b₂.resources.length ≤ run.counts.unchanged ∧
        run.counts.created + run.counts.updated + run.counts.unchanged =
          b₂.resources.length + b₂.relations.length +
            (s₂.dueOf request.connection.connectionId b₂).length ∧
        (b₂.relations = [] →
          r₂.relationVersionsWritten = 0 ∧
          second.store.relationVersions = s₂.relationVersions ∧
          run.counts.unchanged = b₂.resources.length ∧ run.counts.created = 0 ∧
          r₂.changesWritten ≤ (s₂.dueOf request.connection.connectionId b₂).length) := by
  obtain ⟨_, heff₁⟩ := SyncEngine.commit_new_ok hc₁
  obtain ⟨hchecked, heff₂⟩ := SyncEngine.commit_new_ok hc₂
  obtain ⟨hconn₂, hrun₂, _⟩ := Normalizer.normalize_provenance hn₂
  have hconn : h₂.run.connectionId = request.connection.connectionId :=
    hchecked.connection.trans hconn₂
  have hid : h₂.run.syncRunId = run₂ := hchecked.syncRun.trans hrun₂
  have hkeys := (Normalizer.normalize_wellFormed hn₁).resourceKeys
  have hresources := Normalizer.normalize_resources_run hn₁ hn₂
  -- every resource of the batch finds its own row, active and with its fingerprint
  have hquiet : ∀ p ∈ s₂.resourcePlans (finishedRun h₂ b₂ t₂) b₂.resources, p.Quiet := by
    intro p hp
    obtain ⟨v, hv, rfl⟩ := List.mem_map.mp hp
    rw [hresources] at hv
    obtain ⟨x, hx, hactive, hfingerprint⟩ := Store.observed_row_after heff₁ hkeys hv
    have hx₂ : s₂.getResource (stableResourceId v.key) = some x := by
      unfold Store.getResource at hx ⊢
      rw [hsame.resources]
      exact hx
    show (planResource _ v (s₂.getResource (stableResourceId v.key))).Quiet
    rw [hx₂]
    exact planResource_quiet _ hfingerprint hactive
  have hversions : (s₂.commitOf h₂ b₂ t₂).resourceVersions = [] := by
    rw [Store.commitOf_resourceVersions]
    exact List.flatMap_eq_nil_iff.mpr (fun p hp => (hquiet p hp).resourceVersions)
  have hchanges : (s₂.commitOf h₂ b₂ t₂).changes =
      (s₂.relationPlans (finishedRun h₂ b₂ t₂) b₂.relations).flatMap Plan.changes ++
        (s₂.dueOf request.connection.connectionId b₂).map
          (tombstoneChange (finishedRun h₂ b₂ t₂) t₂) := by
    rw [Store.commitOf_changes, List.flatMap_eq_nil_iff.mpr (fun p hp => (hquiet p hp).changes),
      List.nil_append, hconn]
  obtain ⟨hcreated, hupdated, hunchanged⟩ := Plan.concat_quiet hquiet
  have hcounted := s₂.commitOf_counted h₂ b₂ t₂
  rw [hconn] at hcounted
  have hlen : (s₂.resourcePlans (finishedRun h₂ b₂ t₂) b₂.resources).length =
      b₂.resources.length := List.length_map _
  rw [hlen] at hunchanged
  obtain ⟨stored, hstored, _, hruns⟩ := heff₂.started
  refine ⟨?_, ?_, ?_, Store.completedRow stored (s₂.commitOf h₂ b₂ t₂).syncRun, ?_, ?_, ?_, ?_⟩
  · rw [heff₂.result, hversions]
    rfl
  · rw [heff₂.resourceVersions, hversions]
    rfl
  · intro x hx
    rw [heff₂.changes, hchanges] at hx
    rcases KeyedTable.mem_insertNewAll hx with hold | hnew
    · exact Or.inl hold
    · right
      rcases List.mem_append.mp hnew with hrel | hdue
      · obtain ⟨p, hp, hxp⟩ := List.mem_flatMap.mp hrel
        obtain ⟨v, hv, rfl⟩ := List.mem_map.mp hp
        exact Or.inl ⟨v, hv, (Store.planRelation_change_id hxp).2.1⟩
      · obtain ⟨old, hold, rfl⟩ := List.mem_map.mp hdue
        exact Or.inr ⟨old, hold, rfl⟩
  · unfold Store.getSyncRun
    have hkey : stored.syncRunId = run₂ := (KeyedTable.key_of_get hstored).trans hid
    rw [hruns, ← hkey]
    exact KeyedTable.get_put_self _ _
  · show b₂.resources.length ≤ (s₂.batchPlan h₂ b₂ t₂).unchanged
    unfold Store.batchPlan
    simp only [Plan.append]
    omega
  · exact hcounted
  · intro hnone
    have hrelations : s₂.relationPlans (finishedRun h₂ b₂ t₂) b₂.relations = [] := by
      unfold Store.relationPlans
      rw [hnone]
      rfl
    have hrelVersions : (s₂.commitOf h₂ b₂ t₂).relationVersions = [] := by
      rw [Store.commitOf_relationVersions, hrelations]
      rfl
    have hplan : s₂.batchPlan h₂ b₂ t₂ =
        (Plan.concat (s₂.resourcePlans (finishedRun h₂ b₂ t₂) b₂.resources)).append
          ((Plan.concat []).append (tombstonePlan (finishedRun h₂ b₂ t₂) t₂
            (s₂.dueOf h₂.run.connectionId b₂))) := by
      rw [Store.batchPlan_eq, hrelations]
    refine ⟨?_, ?_, ?_, ?_, ?_⟩
    · rw [heff₂.result, hrelVersions]
      rfl
    · rw [heff₂.relationVersions, hrelVersions]
      rfl
    · show (s₂.batchPlan h₂ b₂ t₂).unchanged = _
      rw [hplan]
      simp [Plan.append, tombstonePlan, hunchanged]
    · show (s₂.batchPlan h₂ b₂ t₂).created = _
      rw [hplan]
      simp [Plan.append, tombstonePlan, hcreated]
    · rw [heff₂.result]
      have hle := KeyedTable.insertedCount_le (s₂.commitOf h₂ b₂ t₂).changes s₂.changes
      rw [hchanges, hrelations] at hle
      simpa [hchanges, hrelations] using hle

namespace Fixture

def normalizer : Normalizer where
  attributeSchemas := KeyedTable.empty.put
    { kind := kind "host.vm"
      schemaVersion := nextSchemaVersion
      allowedAttributes := [] }
  relationSchemas := []
  pathsAllowed := by decide
  relationsDistinct := List.nodup_nil

def request (run : SyncRunId) : SyncRequest where
  syncRunId := run
  connection :=
    { connectionId := text "a"
      connectorType := .github
      config := .object []
      configSchemaVersion := nextSchemaVersion }
  mode := .full
  scope := text "all"
  cursor := none
  targetedResources := []

/-- One resource `x` of the scope. -/
def onlyX : ObservationBatch where
  resources :=
    [{ kind := kind "host.vm"
       externalId := text "x"
       name := "vm"
       displayName := "vm"
       scope := text "all"
       labels := .empty
       health := .healthy
       attributes := .object []
       attributeSchemaVersion := nextSchemaVersion
       observedAt := time 1 }]
  relations := []
  coverage := .authoritativeFull (text "all")
  nextCursor := none
  warnings := []
  redactionReport := {}
  providerRequestSummary := {}

/-- Any digest does for one batch without relations. -/
def digest : Value → Fingerprint := fun _ => text "f"

def onlyXBatch (run : SyncRunId) : ValidatedBatch :=
  batch run (.authoritativeFull (text "all")) [observed (text "x")]

def fullHandle (run : SyncRunId) : SyncRunHandle := handle (text "a") run .full (text "all")

/-- `x` and `y` are stored; the runs `r1` and `r2` are started. -/
def bothStored : Store :=
  (System.machine.replay .fresh <|
    .connect (connection (text "a")) ::
      (fullOf (text "r0") [observed (text "x"), observed (text "y")] ++
        (fullOf (text "r1") []).take 1 ++ (fullOf (text "r2") []).take 1)).store

def firstSync : SyncEngine Store :=
  (SyncEngine.commit (.new bothStored) (fullHandle (text "r1")) (onlyXBatch (text "r1")) (time 2)).2

def secondSync : SyncEngine Store :=
  (SyncEngine.commit (.new firstSync.store) (fullHandle (text "r2")) (onlyXBatch (text "r2"))
    (time 3)).2

/-- The results of the two commits: `x` is written twice, `y` tombstoned by the
second. -/
def firstResult : CommitResult := { resourcesWritten := 1 }

def secondResult : CommitResult := { resourcesWritten := 2, changesWritten := 1 }

theorem onlyX_normalized :
    normalizer.normalize digest (request (text "r1")) onlyX = .ok (onlyXBatch (text "r1")) ∧
      normalizer.normalize digest (Normalizer.withRun (request (text "r1")) (text "r2")) onlyX =
        .ok (onlyXBatch (text "r2")) := ⟨rfl, rfl⟩

theorem firstSync_ok :
    SyncEngine.commit (.new bothStored) (fullHandle (text "r1")) (onlyXBatch (text "r1")) (time 2) =
      ((.ok firstResult : Except (SyncEngineError StoreError) CommitResult), firstSync) :=
  Prod.ext rfl rfl

theorem secondSync_ok :
    SyncEngine.commit (.new firstSync.store) (fullHandle (text "r2")) (onlyXBatch (text "r2"))
      (time 3) =
        ((.ok secondResult : Except (SyncEngineError StoreError) CommitResult), secondSync) :=
  Prod.ext rfl rfl

end Fixture

open Fixture in
/-- The same observations are synced twice; the second commit writes a change,
the tombstone of the row both left out. -/
theorem resync_tombstones_absent :
    normalizer.normalize digest (request (text "r1")) onlyX = .ok (onlyXBatch (text "r1")) ∧
      normalizer.normalize digest (Normalizer.withRun (request (text "r1")) (text "r2")) onlyX =
        .ok (onlyXBatch (text "r2")) ∧
      SyncEngine.commit (.new bothStored) (fullHandle (text "r1")) (onlyXBatch (text "r1"))
        (time 2) = ((.ok firstResult : Except (SyncEngineError StoreError) CommitResult), firstSync) ∧
      SyncEngine.commit (.new firstSync.store) (fullHandle (text "r2")) (onlyXBatch (text "r2"))
        (time 3) =
          ((.ok secondResult : Except (SyncEngineError StoreError) CommitResult), secondSync) ∧
      secondResult.changesWritten = 1 :=
  ⟨onlyX_normalized.1, onlyX_normalized.2, firstSync_ok, secondSync_ok, rfl⟩

open Fixture in
theorem resync_leaves_resources_unchanged_onlyX :
    secondSync.store.resourceVersions = firstSync.store.resourceVersions :=
  (resync_leaves_resources_unchanged onlyX_normalized.1 onlyX_normalized.2 firstSync_ok
    ⟨rfl, rfl, rfl, rfl, rfl, rfl⟩ secondSync_ok).2.1

end NextInfra
