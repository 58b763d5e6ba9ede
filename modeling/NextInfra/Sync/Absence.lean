import NextInfra.Sync.System

/-!
# Absence and tombstones

What an applied commit does to the counters and to each resource row (§1), and
from it, over whole runs, what a tombstone says about the past: the counter of a
resource in a scope never exceeds the number of latest authoritative full runs of
that scope that left the resource out (§2), so a tombstone means the last two did
(§3). Runs of another kind do not touch the counters, not even when they observe
the resource.

§4 is the converse: two successive full runs without the resource, nothing seeing
it in between, tombstone it with one change.
-/

namespace NextInfra

/-- An authoritative full batch of this connection and scope. -/
def ValidatedBatch.FullOf (b : ValidatedBatch) (conn : ConnectionId) (scope : Scope) : Prop :=
  b.connectionId = conn ∧ b.coverage = .authoritativeFull scope

instance (b : ValidatedBatch) (conn : ConnectionId) (scope : Scope) :
    Decidable (b.FullOf conn scope) := by
  unfold ValidatedBatch.FullOf; infer_instance

namespace Store

/-! ## §1  One applied commit -/

variable {s s' : Store} {handle : SyncRunHandle} {batch : ValidatedBatch} {at_ : Timestamp}
  {r : CommitResult}

theorem persistedMissing_of_effect {c : SyncCommit} (h : CommitEffect s c r s')
    (conn : ConnectionId) :
    s'.persistedMissing conn =
      if conn = c.syncRun.connectionId then s.missingEvidenceJson c
      else s.persistedMissing conn := by
  unfold persistedMissing
  rw [h.connectorState, KeyedTable.get_put]
  by_cases hc : conn = c.syncRun.connectionId
  · rw [if_pos hc, if_pos hc]
  · rw [if_neg hc, if_neg hc]

/-- Without a missing-evidence state every counter map stays. -/
theorem persistedMissing_of_none {c : SyncCommit} (h : CommitEffect s c r s')
    (hnone : c.missingEvidence = none) (conn : ConnectionId) :
    s'.persistedMissing conn = s.persistedMissing conn := by
  rw [persistedMissing_of_effect h]
  split
  · rename_i hc
    unfold missingEvidenceJson
    rw [hnone, hc]
  · rfl

theorem commitOf_missingEvidence_none (h : ∀ scope, batch.coverage ≠ .authoritativeFull scope) :
    (s.commitOf handle batch at_).missingEvidence = none := by
  show (s.missingPart _ at_ batch.observedIds batch.coverage).1 = none
  cases hcov : batch.coverage with
  | authoritativeFull scope => exact absurd hcov (h scope)
  | incremental cursor => rfl
  | partial_ scope reason => rfl
  | targeted ids => rfl

/-- Every entry of every counter map after a commit. -/
theorem missingEntry_of_commit (h : CommitEffect s (s.commitOf handle batch at_) r s')
    (hconn : handle.run.connectionId = batch.connectionId) (conn : ConnectionId) (scope : Scope)
    (id : ResourceId) :
    s'.missingEntry conn scope id =
      if batch.FullOf conn scope then
        if id ∈ batch.observedIds then none
        else if id ∈ (s.listResourcesForScope conn scope).map Resource.resourceId then
          some (nextCount (s.missingCount conn scope id))
        else s.missingEntry conn scope id
      else s.missingEntry conn scope id := by
  by_cases hfull : ∃ sc, batch.coverage = .authoritativeFull sc
  · obtain ⟨sc, hcov⟩ := hfull
    obtain ⟨final, hpart, hscope, hlookup⟩ := s.missingPart_full
      (finishedRun handle batch at_) at_ batch.observedIds sc
    have hme : (s.commitOf handle batch at_).missingEvidence = some final := by
      show (s.missingPart _ at_ batch.observedIds batch.coverage).1 = some final
      rw [hcov, hpart]
    have hrunconn : (finishedRun handle batch at_).connectionId = batch.connectionId := hconn
    have hcommitconn : (s.commitOf handle batch at_).syncRun.connectionId = batch.connectionId :=
      hconn
    show ((OrderedMap.lookup (s'.persistedMissing conn) scope).bind _) = _
    rw [persistedMissing_of_effect h, hcommitconn]
    by_cases hc : conn = batch.connectionId
    · subst hc
      rw [if_pos rfl]
      unfold missingEvidenceJson
      rw [hme, hcommitconn]
      show ((OrderedMap.lookup (OrderedMap.insert (s.persistedMissing batch.connectionId)
        final.scope final.counts) scope).bind _) = _
      rw [hscope, OrderedMap.lookup_insert]
      by_cases hsc : scope = sc
      · subst hsc
        rw [if_pos rfl, if_pos ⟨rfl, hcov⟩]
        show OrderedMap.lookup final.counts id = _
        rw [hlookup id, hrunconn]
      · rw [if_neg hsc, if_neg]
        · rfl
        · rintro ⟨_, hcov'⟩
          rw [hcov] at hcov'
          cases hcov'
          exact hsc rfl
    · rw [if_neg hc, if_neg (fun hf => hc hf.1.symm)]
      rfl
  · have hnot : ∀ sc, batch.coverage ≠ .authoritativeFull sc := fun sc e => hfull ⟨sc, e⟩
    rw [if_neg (fun hf => hnot scope hf.2)]
    unfold missingEntry
    rw [persistedMissing_of_none h (commitOf_missingEvidence_none hnot)]

/-- A row of the commit lands with all its columns but `first_seen_at`. -/
theorem lands_eq {a x : Resource} (h : resourceRule.Lands a x) :
    x = { a with firstSeenAt := x.firstSeenAt } := by
  rcases h with rfl | ⟨old, rfl⟩
  · rfl
  · rfl

/-- An observed resource is active after the commit. -/
theorem active_of_observed (hs : CommitEffect s (s.commitOf handle batch at_) r s')
    {id : ResourceId} (hobs : id ∈ batch.observedIds) :
    ∃ x, s'.getResource id = some x ∧ x.lifecycle = .active := by
  obtain ⟨v, hv, rfl⟩ := List.mem_map.mp hobs
  have hmem : s.projected (finishedRun handle batch at_) v ∈
      (s.commitOf handle batch at_).resources := by
    rw [commitOf_resources]
    exact List.mem_append_left _ (List.mem_map_of_mem hv)
  obtain ⟨r', hr', hid, x, hx, hlands⟩ :=
    resourceRule.get_applyAll_of_mem (t := s.resources) hmem
  refine ⟨x, ?_, ?_⟩
  · unfold getResource
    rw [hs.resources]
    exact hx
  · rw [lands_eq hlands]
    rw [commitOf_resources] at hr'
    rcases List.mem_append.mp hr' with hr' | hr'
    · obtain ⟨w, _, rfl⟩ := List.mem_map.mp hr'
      rfl
    · -- a tombstone never carries an observed id
      obtain ⟨old, hold, rfl⟩ := List.mem_map.mp hr'
      have hnot := (mem_dueOf_stored hold).2.2.1
      have hid' : old.resourceId = stableResourceId v.key := hid
      rw [hid'] at hnot
      exact absurd hobs hnot

/-- A resource that falls due is a tombstone after the commit. -/
theorem tombstoned_of_due (hs : CommitEffect s (s.commitOf handle batch at_) r s')
    {old : Resource} (hdue : old ∈ s.dueOf handle.run.connectionId batch) :
    ∃ x, s'.getResource old.resourceId = some x ∧ x.lifecycle = .tombstoned ∧
      x.connectionId = old.connectionId ∧ x.scope = old.scope := by
  have hmem : tombstoneResource old (finishedRun handle batch at_) at_ ∈
      (s.commitOf handle batch at_).resources := by
    rw [commitOf_resources]
    exact List.mem_append_right _ (List.mem_map_of_mem hdue)
  obtain ⟨r', hr', hid, x, hx, hlands⟩ :=
    resourceRule.get_applyAll_of_mem (t := s.resources) hmem
  obtain ⟨hstored, _, hnobs, _⟩ := mem_dueOf_stored hdue
  have hsame : r' = tombstoneResource old (finishedRun handle batch at_) at_ := by
    rw [commitOf_resources] at hr'
    rcases List.mem_append.mp hr' with hr' | hr'
    · obtain ⟨w, hw, rfl⟩ := List.mem_map.mp hr'
      have hid' : stableResourceId w.key = old.resourceId := hid
      exact absurd (hid' ▸ List.mem_map_of_mem hw) hnobs
    · obtain ⟨old', hold', rfl⟩ := List.mem_map.mp hr'
      have hid' : old'.resourceId = old.resourceId := hid
      have hstored' := (mem_dueOf_stored hold').1
      rw [hid', hstored] at hstored'
      rw [Option.some.inj hstored']
  subst hsame
  refine ⟨x, ?_, ?_, ?_, ?_⟩
  · unfold getResource
    rw [hs.resources]
    exact hx
  · rw [lands_eq hlands]
    rfl
  · rw [lands_eq hlands]
    rfl
  · rw [lands_eq hlands]
    rfl

/-- A resource neither observed nor due keeps its row. -/
theorem untouched_of_absent (hs : CommitEffect s (s.commitOf handle batch at_) r s')
    {id : ResourceId} (hobs : id ∉ batch.observedIds)
    (hdue : ∀ old ∈ s.dueOf handle.run.connectionId batch, old.resourceId ≠ id) :
    s'.getResource id = s.getResource id := by
  unfold getResource
  rw [hs.resources]
  apply resourceRule.get_applyAll_of_not_mem
  intro x hx
  rw [commitOf_resources] at hx
  rcases List.mem_append.mp hx with hx | hx
  · obtain ⟨v, hv, rfl⟩ := List.mem_map.mp hx
    intro e
    exact hobs (e ▸ List.mem_map_of_mem hv)
  · obtain ⟨old, hold, rfl⟩ := List.mem_map.mp hx
    exact hdue old hold

/-- Whether the stored row of a resource is a tombstone. -/
def isTombstoned (s : Store) (id : ResourceId) : Bool :=
  match s.getResource id with
  | some row => decide (row.lifecycle = .tombstoned)
  | none => false

theorem isTombstoned_iff {s : Store} {id : ResourceId} :
    s.isTombstoned id = true ↔ ∃ row, s.getResource id = some row ∧ row.lifecycle = .tombstoned := by
  unfold isTombstoned
  cases s.getResource id with
  | none => simp
  | some row => simp

/-- A commit that turns a resource into a tombstone found it due. -/
theorem due_of_tombstoned (hs : CommitEffect s (s.commitOf handle batch at_) r s')
    {id : ResourceId} (hbefore : s.isTombstoned id = false) (hafter : s'.isTombstoned id = true) :
    ∃ old ∈ s.dueOf handle.run.connectionId batch, old.resourceId = id := by
  obtain ⟨row, hrow, htomb⟩ := isTombstoned_iff.mp hafter
  by_cases hobs : id ∈ batch.observedIds
  · obtain ⟨x, hx, hactive⟩ := active_of_observed hs hobs
    rw [hrow] at hx
    cases hx
    rw [htomb] at hactive
    cases hactive
  · by_contra hnone
    have hsame := untouched_of_absent hs hobs (fun old hold e => hnone ⟨old, hold, e⟩)
    rw [hsame] at hrow
    have hyes := isTombstoned_iff.mpr ⟨row, hrow, htomb⟩
    rw [hbefore] at hyes
    cases hyes

end Store

namespace System

/-! ## §2  Counters count absences -/

/-- How many of the latest full runs of the scope, newest first and in a row,
left the resource out. -/
def absentRuns (conn : ConnectionId) (scope : Scope) (id : ResourceId) : List ValidatedBatch → Nat
  | [] => 0
  | b :: rest =>
      if b.FullOf conn scope then
        if id ∈ b.observedIds then 0 else absentRuns conn scope id rest + 1
      else absentRuns conn scope id rest

/-- The latest full batch of the scope. -/
def lastFull (conn : ConnectionId) (scope : Scope) (committed : List ValidatedBatch) :
    Option ValidatedBatch :=
  committed.find? fun b => decide (b.FullOf conn scope)

theorem lastFull_of_absentRuns {conn : ConnectionId} {scope : Scope} {id : ResourceId}
    {committed : List ValidatedBatch} (h : 1 ≤ absentRuns conn scope id committed) :
    ∃ b, lastFull conn scope committed = some b ∧ id ∉ b.observedIds := by
  induction committed with
  | nil => simp [absentRuns] at h
  | cons b rest ih =>
      unfold absentRuns at h
      unfold lastFull
      by_cases hfull : b.FullOf conn scope
      · rw [if_pos hfull] at h
        refine ⟨b, List.find?_cons_of_pos (by simp [hfull]), ?_⟩
        intro hobs
        rw [if_pos hobs] at h
        omega
      · rw [if_neg hfull] at h
        rw [List.find?_cons_of_neg (by simp [hfull])]
        exact ih h

/-- No counter exceeds the absences in a row. -/
def Counted (sys : System) : Prop :=
  ∀ conn scope id, sys.store.missingCount conn scope id ≤ absentRuns conn scope id sys.committed

theorem counted_of_same {sys next : System} (h : sys.Counted)
    (hsame : next.store.connectorState = sys.store.connectorState)
    (hlog : next.committed = sys.committed) : next.Counted := by
  intro conn scope id
  have hcount := h conn scope id
  unfold Store.missingCount Store.missingEntry Store.persistedMissing at hcount ⊢
  rw [hsame, hlog]
  exact hcount

theorem counted_preserved : machine.Preserves fun sys => sys.Sound ∧ sys.Counted := by
  rintro sys call hen ⟨hs, hc⟩
  refine ⟨sound_preserved sys call hen hs, ?_⟩
  show (sys.step call).Counted
  have hmoves := step_moves hs hen
  generalize sys.step call = next at hmoves ⊢
  cases hmoves with
  | quiet _ same log => exact counted_of_same hc same.connectorState log
  | failed e handle error at_ r empty effect log =>
      intro conn scope id
      have hcount := hc conn scope id
      unfold Store.missingCount Store.missingEntry at hcount ⊢
      rw [Store.persistedMissing_of_none effect rfl, log]
      exact hcount
  | committed e handle batch at_ r empty checked effect log =>
      intro conn scope id
      have hcount := hc conn scope id
      have hentry := Store.missingEntry_of_commit effect checked.connection conn scope id
      unfold Store.missingCount at hcount ⊢
      rw [hentry, log]
      unfold absentRuns
      by_cases hfull : batch.FullOf conn scope
      · rw [if_pos hfull, if_pos hfull]
        by_cases hobs : id ∈ batch.observedIds
        · rw [if_pos hobs, if_pos hobs]
          exact le_refl 0
        · rw [if_neg hobs, if_neg hobs]
          split
          · have hnext : nextCount (sys.store.missingCount conn scope id) ≤
                sys.store.missingCount conn scope id + 1 := min_le_left _ _
            unfold Store.missingCount at hnext
            show nextCount _ ≤ _
            unfold Store.missingCount
            omega
          · omega
      · rw [if_neg hfull, if_neg hfull]
        exact hcount

theorem counted_fresh : fresh.Counted := by
  intro conn scope id
  exact le_refl 0

theorem Reachable.counted {sys : System} (h : sys.Reachable) : sys.Counted := by
  obtain ⟨calls, hrun⟩ := h
  exact (hrun.invariant counted_preserved ⟨sound_fresh, counted_fresh⟩).2

/-! ## §3  What a tombstone says about the past -/

/-- Only the commit of a full batch of a connection and scope touches their counters. -/
theorem missingEntry_of_other {sys : System} (hs : sys.Sound) {call : Call} (hen : sys.enabled call)
    {conn : ConnectionId} {scope : Scope}
    (hother : ∀ e handle batch at_, call = .finish e (.commit handle batch at_) →
      ¬batch.FullOf conn scope) (id : ResourceId) :
    (sys.step call).store.missingEntry conn scope id = sys.store.missingEntry conn scope id := by
  have hmoves := step_moves hs hen
  generalize sys.step call = next at hmoves ⊢
  cases hmoves with
  | quiet _ same _ =>
      unfold Store.missingEntry Store.persistedMissing
      rw [same.connectorState]
  | failed e handle error at_ r empty effect _ =>
      unfold Store.missingEntry
      rw [Store.persistedMissing_of_none effect rfl]
  | committed e handle batch at_ r empty checked effect _ =>
      rw [Store.missingEntry_of_commit effect checked.connection conn scope id,
        if_neg (hother e handle batch at_ rfl)]

theorem full_of_tombstoned {sys : System} (hr : sys.Reachable) {call : Call}
    (hen : sys.enabled call) {id : ResourceId} (hbefore : sys.store.isTombstoned id = false)
    (hafter : (sys.step call).store.isTombstoned id = true) :
    ∃ row e handle batch at_,
      sys.store.getResource id = some row ∧
      call = .finish e (.commit handle batch at_) ∧
      (sys.step call).committed = batch :: sys.committed ∧
      batch.FullOf row.connectionId row.scope ∧ id ∉ batch.observedIds ∧
      ∃ previous, lastFull row.connectionId row.scope sys.committed = some previous ∧
        id ∉ previous.observedIds := by
  have hmoves := step_moves hr.sound hen
  have hcounted := hr.counted
  generalize sys.step call = next at hmoves hafter
  have hkept : ∀ s : Store, s.resources = sys.store.resources → s.isTombstoned id = true → False := by
    intro s hs hyes
    unfold Store.isTombstoned Store.getResource at hyes hbefore
    rw [hs, hbefore] at hyes
    cases hyes
  cases hmoves with
  | quiet _ same log => exact absurd hafter (fun h => hkept _ same.resources h)
  | failed e handle error at_ r empty effect log =>
      exact absurd hafter (fun h => hkept _ effect.resources h)
  | committed e handle batch at_ r empty checked effect log =>
      obtain ⟨old, hdue, hid⟩ := Store.due_of_tombstoned effect hbefore hafter
      obtain ⟨hstored, hconn, hnobs, scope, hcov, hscope, hcount, _⟩ :=
        Store.mem_dueOf_stored hdue
      subst hid
      have hstreak : 1 ≤ absentRuns old.connectionId old.scope old.resourceId sys.committed := by
        have hle := hcounted old.connectionId old.scope old.resourceId
        rw [hconn, hscope] at hle ⊢
        omega
      refine ⟨old, e, handle, batch, at_, hstored, rfl, log, ⟨?_, ?_⟩, hnobs,
        lastFull_of_absentRuns hstreak⟩
      · rw [hconn]
        exact checked.connection.symm
      · rw [hscope]
        exact hcov

/-- A step that turns a resource into a tombstone is the commit of a full batch
of the resource's connection and scope that leaves it out, and so did the full
batch of that scope committed before. A step of another kind leaves the counters
of the scope as they are. -/
theorem tombstone_after_two_absent_full_runs {sys : System} (hr : sys.Reachable) {call : Call}
    (hen : sys.enabled call) :
    (∀ id, sys.store.isTombstoned id = false → (sys.step call).store.isTombstoned id = true →
      ∃ row e handle batch at_,
        sys.store.getResource id = some row ∧
        call = .finish e (.commit handle batch at_) ∧
        (sys.step call).committed = batch :: sys.committed ∧
        batch.FullOf row.connectionId row.scope ∧ id ∉ batch.observedIds ∧
        ∃ previous, lastFull row.connectionId row.scope sys.committed = some previous ∧
          id ∉ previous.observedIds) ∧
    ∀ conn scope,
      (∀ e handle batch at_, call = .finish e (.commit handle batch at_) →
        ¬batch.FullOf conn scope) →
      ∀ id, (sys.step call).store.missingEntry conn scope id =
        sys.store.missingEntry conn scope id :=
  ⟨fun _ hbefore hafter => full_of_tombstoned hr hen hbefore hafter,
    fun _ _ hother id => missingEntry_of_other hr.sound hen hother id⟩

end System

namespace Fixture

/-- An observation of one resource of connection `a`, scope `all`. -/
def observed (ext : ExternalId) : ValidatedResource where
  key := { connectionId := text "a", kind := kind "host.vm", externalId := ext }
  name := "vm"
  displayName := "vm"
  scope := text "all"
  labels := .empty
  health := .healthy
  attributes := .object []
  attributeSchemaVersion := nextSchemaVersion
  observedAt := time 1
  fingerprint := text "f"

def batch (run : SyncRunId) (coverage : SyncCoverage) (resources : List ValidatedResource) :
    ValidatedBatch where
  connectionId := text "a"
  syncRunId := run
  resources := resources
  relations := []
  coverage := coverage
  nextCursor := none
  warnings := []
  redactionReport := {}
  providerRequestSummary := {}

/-- Start a run of connection `a` and commit one batch under it. -/
def syncOnce (run : SyncRunId) (mode : SyncMode) (coverage : SyncCoverage)
    (resources : List ValidatedResource) : List Call :=
  [.start 0 (text "a") (start run mode (text "all")),
    .finish 0 (.commit (handle (text "a") run mode (text "all")) (batch run coverage resources)
      (time 2))]

def fullOf (run : SyncRunId) (resources : List ValidatedResource) : List Call :=
  syncOnce run .full (.authoritativeFull (text "all")) resources

def vm : ResourceId := stableResourceId (observed (text "x")).key

/-- Seen, missed by a full run, seen by an incremental run, and one more full run
started: the next commit is the second absence. -/
def reappeared : System :=
  System.machine.replay .fresh <|
    .connect (connection (text "a")) ::
      (fullOf (text "r0") [observed (text "x")] ++ fullOf (text "r1") [] ++
        syncOnce (text "r2") .incremental (.incremental (text "c")) [observed (text "x")] ++
        (fullOf (text "r3") []).take 1)

/-- The commit of the run started last. -/
def secondAbsence : Call :=
  .finish 0 (.commit (handle (text "a") (text "r3") .full (text "all"))
    (batch (text "r3") (.authoritativeFull (text "all")) []) (time 2))

theorem reappeared_reachable : reappeared.Reachable := System.reachable_replay (by decide)

end Fixture

namespace System

open Fixture in
/-- The incremental run saw the resource between the two full runs without it, and
the second one tombstones it all the same. -/
theorem incremental_observation_does_not_reset :
    reappeared.Reachable ∧ reappeared.enabled secondAbsence ∧
      reappeared.store.isTombstoned vm = false ∧
      (reappeared.step secondAbsence).store.isTombstoned vm = true ∧
      reappeared.committed =
        [batch (text "r2") (.incremental (text "c")) [observed (text "x")],
          batch (text "r1") (.authoritativeFull (text "all")) [],
          batch (text "r0") (.authoritativeFull (text "all")) [observed (text "x")]] ∧
      vm ∈ (batch (text "r2") (.incremental (text "c")) [observed (text "x")]).observedIds :=
  ⟨reappeared_reachable, by decide, rfl, rfl, rfl, by decide⟩

open Fixture in
/-- The same run, as an instance of the law. -/
theorem tombstone_after_two_absent_full_runs_reappeared :
    ∃ row e handle batch at_,
      reappeared.store.getResource vm = some row ∧
      secondAbsence = .finish e (.commit handle batch at_) ∧
      (reappeared.step secondAbsence).committed = batch :: reappeared.committed ∧
      batch.FullOf row.connectionId row.scope ∧ vm ∉ batch.observedIds ∧
      ∃ previous, lastFull row.connectionId row.scope reappeared.committed = some previous ∧
        vm ∉ previous.observedIds :=
  (tombstone_after_two_absent_full_runs reappeared_reachable (by decide)).1 vm rfl rfl

end System

end NextInfra
