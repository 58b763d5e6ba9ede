import NextInfra.Sync.Absence

/-!
# Two absences tombstone a resource

Between two authoritative full runs of a scope, runs of every other kind leave
the counters of the scope alone (`missing_step`), so the first absence is still
counted when the second run comes. The commit of the second run then tombstones
the resource and carries one change about it.

The frame: only the commit of a full batch touches a counter map, and only the
entry of its scope.
-/

namespace NextInfra

/-- A full batch of the scope that does not have the resource. -/
def ValidatedBatch.LeavesOut (b : ValidatedBatch) (conn : ConnectionId) (scope : Scope)
    (id : ResourceId) : Prop :=
  b.FullOf conn scope ∧ id ∉ b.observedIds

/-- Neither a full batch of the scope nor an observation of the resource. -/
def ValidatedBatch.Passes (b : ValidatedBatch) (conn : ConnectionId) (scope : Scope)
    (id : ResourceId) : Prop :=
  ¬ b.FullOf conn scope ∧ id ∉ b.observedIds

instance (b : ValidatedBatch) (conn : ConnectionId) (scope : Scope) (id : ResourceId) :
    Decidable (b.LeavesOut conn scope id) := by
  unfold ValidatedBatch.LeavesOut; infer_instance

instance (b : ValidatedBatch) (conn : ConnectionId) (scope : Scope) (id : ResourceId) :
    Decidable (b.Passes conn scope id) := by
  unfold ValidatedBatch.Passes; infer_instance

namespace System

/-- The call commits this batch. -/
def Commits (sys : System) (call : Call) (batch : ValidatedBatch) : Prop :=
  sys.enabled call ∧ (sys.step call).committed = batch :: sys.committed

/-! ## §1  The frame -/

/-- The batches a step adds to the log. -/
theorem log_step {sys : System} (hs : sys.Sound) {call : Call} (hen : sys.enabled call) :
    ∃ new, (sys.step call).committed = new ++ sys.committed := by
  have hmoves := step_moves hs hen
  generalize sys.step call = next at hmoves ⊢
  cases hmoves with
  | quiet _ same log => exact ⟨[], log⟩
  | committed e handle batch at_ r empty checked effect log => exact ⟨[batch], log⟩
  | failed e handle error at_ r empty effect log => exact ⟨[], log⟩

theorem log_run {sys sys' : System} {calls : List Call} (hs : sys.Sound)
    (hrun : machine.Run sys calls sys') : ∃ new, sys'.committed = new ++ sys.committed := by
  refine hrun.relates (P := Sound) (R := fun a b => ∃ new, b.committed = new ++ a.committed)
    sound_preserved (fun s => ⟨[], rfl⟩) ?_ (fun s a hen hs => log_step hs hen) hs
  rintro a b c ⟨new, hnew⟩ ⟨new', hnew'⟩
  exact ⟨new' ++ new, by rw [hnew', hnew, List.append_assoc]⟩

/-- The batch a commit step commits is the one its call carries. -/
theorem committed_of_commits {sys : System} (hs : sys.Sound) {call : Call} {batch : ValidatedBatch}
    (h : sys.Commits call batch) :
    ∃ e handle at_ r, call = .finish e (.commit handle batch at_) ∧
      sys.store.Checked handle batch ∧
      CommitEffect sys.store (sys.store.commitOf handle batch at_) r (sys.step call).store := by
  obtain ⟨hen, hlog⟩ := h
  have hmoves := step_moves hs hen
  have hne : ∀ log : List ValidatedBatch, log ≠ batch :: log := by
    intro log heq
    have hl := congrArg List.length heq
    simp at hl
  generalize sys.step call = next at hmoves hlog ⊢
  cases hmoves with
  | quiet _ same log => exact absurd (log.symm.trans hlog) (hne _)
  | failed e handle error at_ r empty effect log => exact absurd (log.symm.trans hlog) (hne _)
  | committed e handle batch' at_ r empty checked effect log =>
      rw [log] at hlog
      cases hlog
      exact ⟨e, handle, at_, r, rfl, checked, effect⟩

/-- Only the commit of a full batch changes a counter map. -/
theorem missing_frame {sys : System} (hs : sys.Sound) {call : Call} (hen : sys.enabled call)
    (hnot : ∀ batch scope, sys.Commits call batch → batch.coverage ≠ .authoritativeFull scope)
    (conn : ConnectionId) :
    (sys.step call).store.persistedMissing conn = sys.store.persistedMissing conn := by
  have hmoves := step_moves hs hen
  have hcommits : ∀ batch, (sys.step call).committed = batch :: sys.committed →
      sys.Commits call batch := fun batch h => ⟨hen, h⟩
  generalize sys.step call = next at hmoves hcommits ⊢
  cases hmoves with
  | quiet _ same log =>
      unfold Store.persistedMissing
      rw [same.connectorState]
  | failed e handle error at_ r empty effect log =>
      exact Store.persistedMissing_of_none effect rfl conn
  | committed e handle batch at_ r empty checked effect log =>
      refine Store.persistedMissing_of_none effect ?_ conn
      exact Store.commitOf_missingEvidence_none (fun scope => hnot batch scope (hcommits batch log))

/-- The commit of a full batch changes the entry of its own scope only. -/
theorem missing_frame_full {sys : System} (hs : sys.Sound) {call : Call} {batch : ValidatedBatch}
    (h : sys.Commits call batch) {conn : ConnectionId} {scope : Scope}
    (hother : ¬ batch.FullOf conn scope) :
    OrderedMap.lookup ((sys.step call).store.persistedMissing conn) scope =
      OrderedMap.lookup (sys.store.persistedMissing conn) scope := by
  obtain ⟨e, handle, at_, r, rfl, checked, effect⟩ := committed_of_commits hs h
  have hcommitconn : (sys.store.commitOf handle batch at_).syncRun.connectionId =
      batch.connectionId := checked.connection
  rw [Store.persistedMissing_of_effect effect, hcommitconn]
  by_cases hc : conn = batch.connectionId
  · rw [if_pos hc]
    unfold Store.missingEvidenceJson
    rw [hcommitconn, hc]
    cases hcov : batch.coverage with
    | authoritativeFull sc =>
        obtain ⟨final, hpart, hscope, _⟩ := sys.store.missingPart_full
          (finishedRun handle batch at_) at_ batch.observedIds sc
        have hme : (sys.store.commitOf handle batch at_).missingEvidence = some final := by
          show (sys.store.missingPart _ at_ batch.observedIds batch.coverage).1 = some final
          rw [hcov, hpart]
        rw [hme]
        show OrderedMap.lookup (OrderedMap.insert _ final.scope final.counts) scope = _
        rw [OrderedMap.lookup_insert, if_neg]
        rw [hscope]
        rintro rfl
        exact hother ⟨hc.symm, hcov⟩
    | incremental cursor =>
        rw [Store.commitOf_missingEvidence_none (fun sc => by rw [hcov]; simp)]
    | partial_ sc reason =>
        rw [Store.commitOf_missingEvidence_none (fun sc => by rw [hcov]; simp)]
    | targeted ids =>
        rw [Store.commitOf_missingEvidence_none (fun sc => by rw [hcov]; simp)]
  · rw [if_neg hc]

/-! ## §2  A stretch without full runs of the scope -/

/-- A step whose batches pass the resource by keeps its counter, and a live row
found after it was there before. -/
theorem missing_step {sys : System} (hs : sys.Sound) {call : Call} (hen : sys.enabled call)
    {conn : ConnectionId} {scope : Scope} {id : ResourceId} {new : List ValidatedBatch}
    (hlog : (sys.step call).committed = new ++ sys.committed)
    (hpass : ∀ b ∈ new, b.Passes conn scope id) :
    (sys.step call).store.missingEntry conn scope id = sys.store.missingEntry conn scope id ∧
      ∀ row, (sys.step call).store.getResource id = some row → row.lifecycle ≠ .tombstoned →
        sys.store.getResource id = some row := by
  have hmoves := step_moves hs hen
  generalize sys.step call = next at hmoves hlog ⊢
  cases hmoves with
  | quiet _ same log =>
      unfold Store.missingEntry Store.persistedMissing Store.getResource
      rw [same.connectorState, same.resources]
      exact ⟨rfl, fun row hrow _ => hrow⟩
  | failed e handle error at_ r empty effect log =>
      refine ⟨?_, ?_⟩
      · unfold Store.missingEntry
        rw [Store.persistedMissing_of_none effect rfl]
      · intro row hrow _
        unfold Store.getResource at hrow ⊢
        rw [effect.resources] at hrow
        exact hrow
  | committed e handle batch at_ r empty checked effect log =>
      have hmem : batch ∈ new := by
        rw [log] at hlog
        have happ : [batch] ++ sys.committed = new ++ sys.committed := hlog
        rw [← List.append_cancel_right happ]
        exact List.mem_singleton.mpr rfl
      obtain ⟨hfull, hobs⟩ := hpass batch hmem
      refine ⟨?_, ?_⟩
      · rw [Store.missingEntry_of_commit effect checked.connection, if_neg hfull]
      · intro row hrow hlive
        by_cases hdue : ∃ old ∈ sys.store.dueOf handle.run.connectionId batch, old.resourceId = id
        · obtain ⟨old, hold, rfl⟩ := hdue
          obtain ⟨x, hx, htomb, _⟩ := Store.tombstoned_of_due effect hold
          rw [hrow] at hx
          cases hx
          exact absurd htomb hlive
        · rw [Store.untouched_of_absent effect hobs (fun old hold e => hdue ⟨old, hold, e⟩)] at hrow
          exact hrow

theorem missing_run {sys sys' : System} {calls : List Call} (hs : sys.Sound)
    (hrun : machine.Run sys calls sys') {conn : ConnectionId} {scope : Scope} {id : ResourceId}
    {between : List ValidatedBatch} (hlog : sys'.committed = between ++ sys.committed)
    (hpass : ∀ b ∈ between, b.Passes conn scope id) :
    sys'.store.missingEntry conn scope id = sys.store.missingEntry conn scope id ∧
      ∀ row, sys'.store.getResource id = some row → row.lifecycle ≠ .tombstoned →
        sys.store.getResource id = some row := by
  induction hrun generalizing between with
  | nil s => exact ⟨rfl, fun row hrow _ => hrow⟩
  | @cons s s' a as head tail ih =>
      have hs' := sound_preserved s a head hs
      obtain ⟨new, hnew⟩ := log_step hs head
      obtain ⟨later, hlater⟩ := log_run hs' tail
      -- the batches of the whole run are those of the first step and those after it
      have hsplit : between = later ++ new := by
        have heq : between ++ s.committed = (later ++ new) ++ s.committed := by
          rw [← hlog, hlater, List.append_assoc]
          show later ++ (s.step a).committed = _
          rw [hnew]
        exact List.append_cancel_right heq
      rw [hsplit] at hpass
      obtain ⟨hentry, hrow⟩ := missing_step hs head hnew
        (fun b hb => hpass b (List.mem_append_right _ hb))
      obtain ⟨hentry', hrow'⟩ := ih hs' hlater (fun b hb => hpass b (List.mem_append_left _ hb))
      exact ⟨hentry'.trans hentry, fun row h hlive => hrow row (hrow' row h hlive) hlive⟩

/-! ## §3  The two absences -/

/-- After a full run without a stored resource of the scope, its counter is up. -/
theorem counted_after_absence {sys : System} (hs : sys.Sound) {call : Call} {b : ValidatedBatch}
    {conn : ConnectionId} {scope : Scope} {id : ResourceId} (h : sys.Commits call b)
    (hout : b.LeavesOut conn scope id) {row : Resource}
    (hrow : (sys.step call).store.getResource id = some row) (hlive : row.lifecycle ≠ .tombstoned)
    (hconn : row.connectionId = conn) (hscope : row.scope = scope) :
    1 ≤ (sys.step call).store.missingCount conn scope id := by
  obtain ⟨e, handle, at_, r, rfl, checked, effect⟩ := committed_of_commits hs h
  obtain ⟨hfull, hobs⟩ := hout
  have hbefore : sys.store.getResource id = some row := by
    by_cases hdue : ∃ old ∈ sys.store.dueOf handle.run.connectionId b, old.resourceId = id
    · obtain ⟨old, hold, rfl⟩ := hdue
      obtain ⟨x, hx, htomb, _⟩ := Store.tombstoned_of_due effect hold
      rw [hrow] at hx
      cases hx
      exact absurd htomb hlive
    · rw [← Store.untouched_of_absent effect hobs (fun old hold e => hdue ⟨old, hold, e⟩)]
      exact hrow
  have hid : row.resourceId = id := KeyedTable.key_of_get hbefore
  have hlisted : id ∈ (sys.store.listResourcesForScope conn scope).map Resource.resourceId := by
    refine List.mem_map.mpr ⟨row, ?_, hid⟩
    refine Store.mem_listResourcesForScope.mpr ⟨?_, hconn, hscope⟩
    rw [hid]
    exact hbefore
  unfold Store.missingCount
  rw [Store.missingEntry_of_commit effect checked.connection, if_pos hfull, if_neg hobs,
    if_pos hlisted]
  show 1 ≤ nextCount _
  unfold nextCount
  omega

/-- The change table gains one row about the resource, and only one. -/
def GainsOneChange (s s' : Store) (id : ResourceId) : Prop :=
  ∃ change, change ∉ s.changes.rows ∧ change.subject = .resource id ∧
    ∀ x, x.subject = .resource id → (x ∈ s'.changes.rows ↔ x ∈ s.changes.rows ∨ x = change)

/-- The changes of a commit about a resource that falls due: the tombstone's. -/
theorem changes_about_due {s : Store} (hs : s.WellIdentified) {handle : SyncRunHandle}
    {batch : ValidatedBatch} (at_ : Timestamp) {old : Resource}
    (hdue : old ∈ s.dueOf handle.run.connectionId batch) :
    (s.commitOf handle batch at_).changes.filter
        (fun x => decide (x.subject = .resource old.resourceId)) =
      [tombstoneChange (finishedRun handle batch at_) at_ old] ∧
    ∀ x ∈ (s.commitOf handle batch at_).changes,
      x.changeId = (tombstoneChange (finishedRun handle batch at_) at_ old).changeId →
        x = tombstoneChange (finishedRun handle batch at_) at_ old := by
  obtain ⟨hstored, _, hnobs, scope, hcov, _, _, _⟩ := Store.mem_dueOf_stored hdue
  have hsame : ∀ old' ∈ s.dueOf handle.run.connectionId batch,
      old'.resourceId = old.resourceId → old' = old := by
    intro old' hold' hid
    have hstored' := (Store.mem_dueOf_stored hold').1
    rw [hid, hstored] at hstored'
    exact (Option.some.inj hstored').symm
  refine ⟨?_, ?_⟩
  · rw [Store.commitOf_changes, List.filter_append, List.filter_append]
    have hres : ((s.resourcePlans (finishedRun handle batch at_) batch.resources).flatMap
        Plan.changes).filter (fun x => decide (x.subject = .resource old.resourceId)) = [] := by
      apply List.filter_eq_nil_iff.mpr
      intro x hx
      obtain ⟨p, hp, hxp⟩ := List.mem_flatMap.mp hx
      obtain ⟨v, hv, rfl⟩ := List.mem_map.mp hp
      rw [(Store.planResource_change_id hxp).2.1]
      simp only [decide_eq_true_eq, ChangeSubject.resource.injEq]
      intro hid
      exact hnobs (hid ▸ List.mem_map_of_mem hv)
    have hrel : ((s.relationPlans (finishedRun handle batch at_) batch.relations).flatMap
        Plan.changes).filter (fun x => decide (x.subject = .resource old.resourceId)) = [] := by
      apply List.filter_eq_nil_iff.mpr
      intro x hx
      obtain ⟨p, hp, hxp⟩ := List.mem_flatMap.mp hx
      obtain ⟨v, hv, rfl⟩ := List.mem_map.mp hp
      rw [(Store.planRelation_change_id hxp).2.1]
      simp
    rw [hres, hrel, List.nil_append, List.nil_append, List.filter_map]
    have hfilter : (s.dueOf handle.run.connectionId batch).filter
        ((fun x => decide (x.subject = ChangeSubject.resource old.resourceId)) ∘
          tombstoneChange (finishedRun handle batch at_) at_) = [old] := by
      have hnodup : (s.dueOf handle.run.connectionId batch).Nodup := by
        unfold Store.dueOf
        rw [hcov]
        exact (s.resources.rows_nodup.sublist List.filter_sublist).sublist List.filter_sublist
      have hpred : ∀ x ∈ s.dueOf handle.run.connectionId batch,
          ((fun x => decide (x.subject = ChangeSubject.resource old.resourceId)) ∘
            tombstoneChange (finishedRun handle batch at_) at_) x = decide (x = old) := by
        intro x hx
        have hiff : x.resourceId = old.resourceId ↔ x = old :=
          ⟨hsame x hx, fun h => by rw [h]⟩
        have hsub : (tombstoneChange (finishedRun handle batch at_) at_ x).subject =
            .resource x.resourceId := rfl
        simp only [Function.comp, hsub, ChangeSubject.resource.injEq, hiff]
      rw [List.filter_congr hpred]
      have hcount := List.filter_eq (l := s.dueOf handle.run.connectionId batch) old
      have hone : (s.dueOf handle.run.connectionId batch).count old = 1 :=
        List.count_eq_one_of_mem hnodup hdue
      rw [hone] at hcount
      simpa using hcount
    rw [hfilter]
    rfl
  · intro x hx hid
    have hid' : x.changeId = changeId old.resourceId handle.run.syncRunId := hid
    have hold := hs.resources old (KeyedTable.mem_of_get hstored)
    rcases Store.mem_commitOf_changes hx with ⟨v, hv, hxid, _⟩ | ⟨v, hv, hxid, _⟩ | ⟨old', hold', rfl⟩
    · rw [hxid, changeId_eq_iff] at hid'
      rcases hid' with hpair | hshift
      · have hval := (Prod.mk.inj hpair).1
        have hids : stableResourceId v.key = old.resourceId := StringValue.ext_val hval
        exact absurd (hids ▸ List.mem_map_of_mem hv) hnobs
      · exact absurd hshift not_pairShifts_same_run
    · rw [hxid, changeId_eq_iff] at hid'
      rcases hid' with hpair | hshift
      · have hval := (Prod.mk.inj hpair).1
        rw [hold] at hval
        exact absurd hval.symm (resource_val_ne_relation _ _ _ _ _)
      · exact absurd hshift not_pairShifts_same_run
    · have hxid : (tombstoneChange (finishedRun handle batch at_) at_ old').changeId =
          changeId old'.resourceId handle.run.syncRunId := rfl
      rw [hxid, changeId_eq_iff] at hid'
      rcases hid' with hpair | hshift
      · have hids : old'.resourceId = old.resourceId := StringValue.ext_val (Prod.mk.inj hpair).1
        rw [hsame old' hold' hids]
      · exact absurd hshift not_pairShifts_same_run

/-- The change of a resource that falls due lands iff its id is free. -/
theorem gainsOneChange_iff {s s' : Store} (hs : s.WellIdentified) {handle : SyncRunHandle}
    {batch : ValidatedBatch} {at_ : Timestamp} {r : CommitResult} {old : Resource}
    (hdue : old ∈ s.dueOf handle.run.connectionId batch)
    (heff : CommitEffect s (s.commitOf handle batch at_) r s') :
    GainsOneChange s s' old.resourceId ↔
      s.changes.get (changeId old.resourceId handle.run.syncRunId) = none := by
  obtain ⟨hfilter, hunique⟩ := changes_about_due hs at_ hdue
  have hmem : tombstoneChange (finishedRun handle batch at_) at_ old ∈
      (s.commitOf handle batch at_).changes := by
    rw [Store.commitOf_changes]
    exact List.mem_append_right _ (List.mem_append_right _ (List.mem_map_of_mem hdue))
  have honly : ∀ x, x.subject = .resource old.resourceId → x ∈ s'.changes.rows →
      x ∈ s.changes.rows ∨ x = tombstoneChange (finishedRun handle batch at_) at_ old := by
    intro x hsubject hx
    rw [heff.changes] at hx
    rcases KeyedTable.mem_insertNewAll hx with hold | hnew
    · exact Or.inl hold
    · right
      have hx' : x ∈ (s.commitOf handle batch at_).changes.filter
          (fun x => decide (x.subject = .resource old.resourceId)) :=
        List.mem_filter.mpr ⟨hnew, by simp [hsubject]⟩
      rw [hfilter] at hx'
      exact List.mem_singleton.mp hx'
  have hkeep : ∀ x ∈ s.changes.rows, x ∈ s'.changes.rows := by
    intro x hx
    rw [heff.changes]
    exact KeyedTable.mem_of_get (KeyedTable.get_insertNewAll_of_some (KeyedTable.get_of_mem hx))
  constructor
  · rintro ⟨change, hnew, hsubject, hgains⟩
    have hafter := (hgains change hsubject).mpr (Or.inr rfl)
    have heq := (honly change hsubject hafter).resolve_left hnew
    have hget : s'.changes.get (changeId old.resourceId handle.run.syncRunId) = some change := by
      have hself := KeyedTable.get_of_mem hafter
      rw [heq] at hself ⊢
      exact hself
    -- a row stored under this id before would still be the one found
    cases hbefore : s.changes.get (changeId old.resourceId handle.run.syncRunId) with
    | none => rfl
    | some x =>
        rw [heff.changes, KeyedTable.get_insertNewAll_of_some hbefore] at hget
        exact absurd (Option.some.inj hget ▸ KeyedTable.mem_of_get hbefore) hnew
  · intro hfree
    have hland : s'.changes.get (changeId old.resourceId handle.run.syncRunId) =
        some (tombstoneChange (finishedRun handle batch at_) at_ old) := by
      rw [heff.changes]
      exact KeyedTable.get_insertNewAll_of_unique hfree hmem hunique
    refine ⟨tombstoneChange (finishedRun handle batch at_) at_ old, ?_, rfl, ?_⟩
    · intro hold
      have hget := KeyedTable.get_of_mem hold
      have hnone : s.changes.get
          (tombstoneChange (finishedRun handle batch at_) at_ old).changeId = none := hfree
      rw [hnone] at hget
      cases hget
    · intro x hsubject
      refine ⟨honly x hsubject, ?_⟩
      rintro (hx | rfl)
      · exact hkeep x hx
      · exact KeyedTable.mem_of_get hland

/-- A full run without a counted live resource of the scope tombstones it. -/
theorem tombstones_at_absence {sys : System} (hs : sys.Sound) {call : Call} {b : ValidatedBatch}
    {conn : ConnectionId} {scope : Scope} {id : ResourceId} (h : sys.Commits call b)
    (hout : b.LeavesOut conn scope id) {row : Resource}
    (hrow : sys.store.getResource id = some row) (hlive : row.lifecycle ≠ .tombstoned)
    (hconn : row.connectionId = conn) (hscope : row.scope = scope)
    (hcount : 1 ≤ sys.store.missingCount conn scope id) :
    (sys.step call).store.isTombstoned id = true ∧
      (GainsOneChange sys.store (sys.step call).store id ↔
        sys.store.changes.get (changeId id b.syncRunId) = none) := by
  obtain ⟨e, handle, at_, r, rfl, checked, effect⟩ := committed_of_commits hs h
  obtain ⟨⟨hbconn, hcov⟩, hobs⟩ := hout
  have hid : row.resourceId = id := KeyedTable.key_of_get hrow
  subst hid
  have hdue : row ∈ sys.store.dueOf handle.run.connectionId b := by
    unfold Store.dueOf
    rw [hcov, checked.connection, hbconn]
    exact sys.store.mem_dueResources.mpr ⟨hrow, hconn, hscope, hobs, hcount, hlive⟩
  obtain ⟨x, hx, htomb, _⟩ := Store.tombstoned_of_due effect hdue
  refine ⟨Store.isTombstoned_iff.mpr ⟨x, hx, htomb⟩, ?_⟩
  rw [← checked.syncRun]
  exact gainsOneChange_iff hs.identified hdue effect

/-- Completeness and frame of the missing evidence, over every run: the second
absence tombstones, and leaves its one change iff no change is stored yet under
the id of this resource and run. -/
theorem missing_evidence_complete_iff_change_id_free_and_framed {sys : System}
    (hr : sys.Reachable) :
    -- two full runs leave out a live resource of their scope, nothing between them sees it
    (∀ (sys₂ : System) (call₁ call₂ : Call) (calls : List Call) (b₁ b₂ : ValidatedBatch)
      (between : List ValidatedBatch) (conn : ConnectionId) (scope : Scope) (id : ResourceId)
      (row : Resource),
      sys.Commits call₁ b₁ → b₁.LeavesOut conn scope id →
      machine.Run (sys.step call₁) calls sys₂ →
      sys₂.committed = between ++ (sys.step call₁).committed →
      (∀ b ∈ between, b.Passes conn scope id) →
      sys₂.store.getResource id = some row → row.connectionId = conn → row.scope = scope →
      row.lifecycle ≠ .tombstoned →
      sys₂.Commits call₂ b₂ → b₂.LeavesOut conn scope id →
      (sys₂.step call₂).store.isTombstoned id = true ∧
        (GainsOneChange sys₂.store (sys₂.step call₂).store id ↔
          sys₂.store.changes.get (changeId id b₂.syncRunId) = none)) ∧
    -- a call that commits no full batch leaves every counter map as it is
    (∀ call, sys.enabled call →
      (∀ batch scope, sys.Commits call batch → batch.coverage ≠ .authoritativeFull scope) →
      ∀ conn, (sys.step call).store.persistedMissing conn = sys.store.persistedMissing conn) ∧
    -- the commit of a full batch changes the entry of its scope only
    (∀ call batch, sys.Commits call batch → ∀ conn scope, ¬ batch.FullOf conn scope →
      OrderedMap.lookup ((sys.step call).store.persistedMissing conn) scope =
        OrderedMap.lookup (sys.store.persistedMissing conn) scope) := by
  refine ⟨?_, ?_, ?_⟩
  · intro sys₂ call₁ call₂ calls b₁ b₂ between conn scope id row hfirst hout₁ hrun hlog hpass hrow
      hconn hscope hlive hsecond hout₂
    have hs₁ := sound_preserved sys call₁ hfirst.1 hr.sound
    have hs₂ := hrun.invariant sound_preserved hs₁
    obtain ⟨hentry, hback⟩ := missing_run hs₁ hrun hlog hpass
    have hcount : 1 ≤ sys₂.store.missingCount conn scope id := by
      have hone := counted_after_absence hr.sound hfirst hout₁ (hback row hrow hlive) hlive hconn
        hscope
      unfold Store.missingCount at hone ⊢
      rw [hentry]
      exact hone
    exact tombstones_at_absence hs₂ hsecond hout₂ hrow hlive hconn hscope hcount
  · intro call hen hnot conn
    exact missing_frame hr.sound hen hnot conn
  · intro call batch h conn scope hother
    exact missing_frame_full hr.sound h hother

end System

namespace Fixture

/-- The commit of a full batch under a run of connection `a`. -/
def fullCommit (run : SyncRunId) (resources : List ValidatedResource) : Call :=
  .finish 0 (.commit (handle (text "a") run .full (text "all"))
    (batch run (.authoritativeFull (text "all")) resources) (time 2))

def startFull (run : SyncRunId) : Call :=
  .start 0 (text "a") (start run .full (text "all"))

/-- Two resources seen by run `r`, then `x` left out by a first full run, whose
commit is next. -/
def beforeAbsence : System :=
  System.machine.replay .fresh
    [.connect (connection (text "a")), startFull (text "r"),
      fullCommit (text "r") [observed (text "x"), observed (text "x:y")], startFull (text "r1")]

/-- The first absence committed and a second full run of this id started. -/
def betweenAbsences (run : SyncRunId) : System :=
  (beforeAbsence.step (fullCommit (text "r1") [observed (text "x:y")])).step (startFull run)

theorem beforeAbsence_reachable : beforeAbsence.Reachable := System.reachable_replay (by decide)

theorem beforeAbsence_commits :
    beforeAbsence.Commits (fullCommit (text "r1") [observed (text "x:y")])
      (batch (text "r1") (.authoritativeFull (text "all")) [observed (text "x:y")]) :=
  ⟨by decide, rfl⟩

theorem betweenAbsences_row :
    ∃ row, (betweenAbsences (text "r2")).store.getResource vm = some row ∧
      row.connectionId = text "a" ∧ row.scope = text "all" ∧ row.lifecycle = .active := by
  have hrow : ((betweenAbsences (text "r2")).store.getResource vm).map
      (fun row => (row.connectionId, row.scope, row.lifecycle)) =
        some (text "a", text "all", .active) := by decide
  obtain ⟨row, hget, heq⟩ := Option.map_eq_some_iff.mp hrow
  obtain ⟨hconn, hrest⟩ := Prod.mk.inj heq
  obtain ⟨hscope, hactive⟩ := Prod.mk.inj hrest
  exact ⟨row, hget, hconn, hscope, hactive⟩

end Fixture

namespace System

/-- A table that stays the same gains no change. -/
theorem not_gainsOneChange_of_same {s s' : Store} (h : s'.changes.rows = s.changes.rows)
    (id : ResourceId) : ¬ GainsOneChange s s' id := by
  rintro ⟨change, hnew, hsubject, hgains⟩
  rw [h] at hgains
  exact hnew ((hgains change hsubject).mpr (Or.inr rfl))

open Fixture in
/-- The change of `x` in run `y:r` has the id of the change of `x:y` in run `r`,
so the second absence of `x` leaves no change. -/
theorem tombstone_without_change :
    beforeAbsence.Reachable ∧
      beforeAbsence.Commits (fullCommit (text "r1") [observed (text "x:y")])
        (batch (text "r1") (.authoritativeFull (text "all")) [observed (text "x:y")]) ∧
      (betweenAbsences (text "y:r")).committed =
        (beforeAbsence.step (fullCommit (text "r1") [observed (text "x:y")])).committed ∧
      (betweenAbsences (text "y:r")).Commits
        (fullCommit (text "y:r") [observed (text "x:y")])
        (batch (text "y:r") (.authoritativeFull (text "all")) [observed (text "x:y")]) ∧
      vm ∉ (batch (text "y:r") (.authoritativeFull (text "all")) [observed (text "x:y")]).observedIds ∧
      (betweenAbsences (text "y:r")).store.isTombstoned vm = false ∧
      ((betweenAbsences (text "y:r")).step
        (fullCommit (text "y:r") [observed (text "x:y")])).store.isTombstoned vm = true ∧
      ¬ GainsOneChange (betweenAbsences (text "y:r")).store
        ((betweenAbsences (text "y:r")).step
          (fullCommit (text "y:r") [observed (text "x:y")])).store vm :=
  ⟨beforeAbsence_reachable, beforeAbsence_commits, rfl, ⟨by decide, rfl⟩, by decide, rfl, rfl,
    not_gainsOneChange_of_same (by decide +kernel) vm⟩

open Fixture in
/-- Under another run id the second absence of `x` leaves its change. -/
theorem missing_evidence_complete_iff_change_id_free_and_framed_second :
    ((betweenAbsences (text "r2")).step
        (fullCommit (text "r2") [observed (text "x:y")])).store.isTombstoned vm = true ∧
      (GainsOneChange (betweenAbsences (text "r2")).store
          ((betweenAbsences (text "r2")).step
            (fullCommit (text "r2") [observed (text "x:y")])).store vm ↔
        (betweenAbsences (text "r2")).store.changes.get (changeId vm (text "r2")) = none) := by
  obtain ⟨row, hrow, hconn, hscope, hactive⟩ := betweenAbsences_row
  have hsecond : (betweenAbsences (text "r2")).Commits
      (fullCommit (text "r2") [observed (text "x:y")])
      (batch (text "r2") (.authoritativeFull (text "all")) [observed (text "x:y")]) :=
    ⟨by decide, rfl⟩
  have hrun : machine.Run
      (beforeAbsence.step (fullCommit (text "r1") [observed (text "x:y")]))
      [startFull (text "r2")] (betweenAbsences (text "r2")) := .single trivial
  have hlog : (betweenAbsences (text "r2")).committed =
      [] ++ (beforeAbsence.step (fullCommit (text "r1") [observed (text "x:y")])).committed := rfl
  exact (missing_evidence_complete_iff_change_id_free_and_framed beforeAbsence_reachable).1
    _ _ _ _ _ _ _ _ _ vm row beforeAbsence_commits (by decide) hrun hlog (by simp) hrow hconn hscope
    (by rw [hactive]; decide) hsecond (by decide)

end System

end NextInfra
