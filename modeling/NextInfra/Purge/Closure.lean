import NextInfra.Store.Purge
import NextInfra.Binding.Invariant

/-!
# What a purge closes over

A purge of a stored connection goes through unless a row of another connection
names a run of this one (`Store.RunsAtHome`), a thing no commit of a sync writes
(§4). When it goes through, every foreign key still holds, nothing that is left
references what went, every other row is as it was, and the summary counts what is
gone.

References are the columns the schema declares and the subject of a change. The
texts of evidence and origins are no references to the schema: a purge keeps them.
-/

namespace NextInfra

/-! ## §1  The schema's foreign keys -/

namespace Store

@[mk_iff] structure ForeignKeys (s : Store) : Prop where
  connectorState : ∀ x ∈ s.connectorState.rows, (s.connections.get x.connectionId).isSome
  connectionSecrets : ∀ x ∈ s.connectionSecrets.rows, (s.connections.get x.connectionId).isSome
  syncRuns : ∀ run ∈ s.syncRuns.rows, (s.connections.get run.connectionId).isSome
  resources : ∀ r ∈ s.resources.rows, (s.connections.get r.connectionId).isSome
  lastSyncRuns : ∀ r ∈ s.resources.rows, (s.syncRuns.get r.lastSyncRunId).isSome
  versionResources : ∀ v ∈ s.resourceVersions.rows, (s.resources.get v.resourceId).isSome
  versionRuns : ∀ v ∈ s.resourceVersions.rows, (s.syncRuns.get v.syncRunId).isSome
  relationSources : ∀ r ∈ s.relations.rows, (s.resources.get r.sourceResourceId).isSome
  relationTargets : ∀ r ∈ s.relations.rows, (s.resources.get r.targetResourceId).isSome
  relationVersions : ∀ v ∈ s.relationVersions.rows, (s.relations.get v.relationId).isSome
  bindingSources : ∀ b ∈ s.bindings.rows, (s.resources.get b.sourceResourceId).isSome
  bindingTargets : ∀ b ∈ s.bindings.rows, (s.resources.get b.targetResourceId).isSome
  outputRuns : ∀ o ∈ s.inferenceOutputs.rows, (s.inferenceRuns.get o.inferenceRunId).isSome
  outputRelations : ∀ o ∈ s.inferenceOutputs.rows, (s.relations.get o.relationId).isSome

instance (s : Store) : Decidable s.ForeignKeys := decidable_of_iff _ (foreignKeys_iff s).symm

/-! ## §2  What a purge promises -/

/-- No resource or version of another connection names a run of this one. -/
def RunsAtHome (s : Store) (id : ConnectionId) : Prop :=
  (∀ r ∈ s.resources.rows, r.connectionId ≠ id → s.ownsRun id r.lastSyncRunId = false) ∧
    ∀ v ∈ s.resourceVersions.rows, s.ownsResource id v.resourceId = false →
      s.ownsRun id v.syncRunId = false

theorem runsAtHome_iff {s : Store} {id : ConnectionId} :
    s.RunsAtHome id ↔ s.runStillNamed id = false := by
  unfold RunsAtHome runStillNamed
  rw [Bool.or_eq_false_iff, List.any_eq_false, List.any_eq_false]
  simp

/-- No row of `s'` references the connection, or what belonged to it in `s`. -/
structure Forgotten (s : Store) (id : ConnectionId) (s' : Store) : Prop where
  connections : ∀ x ∈ s'.connections.rows, x.connectionId ≠ id
  connectorState : ∀ x ∈ s'.connectorState.rows, x.connectionId ≠ id
  connectionSecrets : ∀ x ∈ s'.connectionSecrets.rows, x.connectionId ≠ id
  syncRuns : ∀ run ∈ s'.syncRuns.rows, run.connectionId ≠ id
  resources : ∀ r ∈ s'.resources.rows, r.connectionId ≠ id ∧ s.ownsRun id r.lastSyncRunId = false
  resourceVersions : ∀ v ∈ s'.resourceVersions.rows,
    s.ownsResource id v.resourceId = false ∧ s.ownsRun id v.syncRunId = false
  relations : ∀ r ∈ s'.relations.rows,
    s.ownsResource id r.sourceResourceId = false ∧ s.ownsResource id r.targetResourceId = false
  relationVersions : ∀ v ∈ s'.relationVersions.rows, s.ownsRelation id v.relationId = false
  bindings : ∀ b ∈ s'.bindings.rows,
    s.ownsResource id b.sourceResourceId = false ∧ s.ownsResource id b.targetResourceId = false
  changes : ∀ c ∈ s'.changes.rows, s.ownsSubject id c.subject = false
  inferenceOutputs : ∀ o ∈ s'.inferenceOutputs.rows, s.ownsRelation id o.relationId = false

/-- The rows of `s'` are those of `s` that did not belong to the connection and did
not touch one of its resources. -/
structure Framed (s : Store) (id : ConnectionId) (s' : Store) : Prop where
  connections : ∀ x, x ∈ s'.connections.rows ↔ x ∈ s.connections.rows ∧ x.connectionId ≠ id
  connectorState : ∀ x,
    x ∈ s'.connectorState.rows ↔ x ∈ s.connectorState.rows ∧ x.connectionId ≠ id
  connectionSecrets : ∀ x,
    x ∈ s'.connectionSecrets.rows ↔ x ∈ s.connectionSecrets.rows ∧ x.connectionId ≠ id
  syncRuns : ∀ run, run ∈ s'.syncRuns.rows ↔ run ∈ s.syncRuns.rows ∧ run.connectionId ≠ id
  resources : ∀ r, r ∈ s'.resources.rows ↔ r ∈ s.resources.rows ∧ r.connectionId ≠ id
  resourceVersions : ∀ v, v ∈ s'.resourceVersions.rows ↔
    v ∈ s.resourceVersions.rows ∧ s.ownsResource id v.resourceId = false
  relations : ∀ r, r ∈ s'.relations.rows ↔
    r ∈ s.relations.rows ∧ s.touches id r.sourceResourceId r.targetResourceId = false
  relationVersions : ∀ v, v ∈ s'.relationVersions.rows ↔
    v ∈ s.relationVersions.rows ∧ s.ownsRelation id v.relationId = false
  bindings : ∀ b, b ∈ s'.bindings.rows ↔
    b ∈ s.bindings.rows ∧ s.touches id b.sourceResourceId b.targetResourceId = false
  changes : ∀ c, c ∈ s'.changes.rows ↔ c ∈ s.changes.rows ∧ s.ownsSubject id c.subject = false
  inferenceRuns : s'.inferenceRuns = s.inferenceRuns
  inferenceOutputs : ∀ o, o ∈ s'.inferenceOutputs.rows ↔
    o ∈ s.inferenceOutputs.rows ∧ s.ownsRelation id o.relationId = false

end Store

/-- The summary counts the rows that are gone. -/
structure ConnectionPurgeSummary.Counts (summary : ConnectionPurgeSummary) (s s' : Store) :
    Prop where
  resources : summary.resources + s'.resources.rows.length = s.resources.rows.length
  relations : summary.relations + s'.relations.rows.length = s.relations.rows.length
  resourceVersions :
    summary.resourceVersions + s'.resourceVersions.rows.length = s.resourceVersions.rows.length
  relationVersions :
    summary.relationVersions + s'.relationVersions.rows.length = s.relationVersions.rows.length
  changes : summary.changes + s'.changes.rows.length = s.changes.rows.length
  bindings : summary.bindings + s'.bindings.rows.length = s.bindings.rows.length
  syncRuns : summary.syncRuns + s'.syncRuns.rows.length = s.syncRuns.rows.length

/-! ## §3  What a purge does -/

namespace Store

variable {s : Store} {id : ConnectionId}

theorem mem_keep_not {κ ρ : Type} [LinearOrder κ] {key : ρ → κ} {t : KeyedTable key}
    {p : ρ → Bool} {r : ρ} : r ∈ (t.keep fun r => !p r).rows ↔ r ∈ t.rows ∧ p r = false := by
  rw [KeyedTable.mem_keep, Bool.not_eq_true']

theorem mem_keep_ne {κ ρ : Type} [LinearOrder κ] {key : ρ → κ} {t : KeyedTable key}
    {f : ρ → ConnectionId} {r : ρ} :
    r ∈ (t.keep fun r => decide (f r ≠ id)).rows ↔ r ∈ t.rows ∧ f r ≠ id := by
  rw [KeyedTable.mem_keep, decide_eq_true_eq]

theorem framed_purged (s : Store) (id : ConnectionId) : s.Framed id (s.purged id) where
  connections := fun _ => mem_keep_ne
  connectorState := fun _ => mem_keep_ne
  connectionSecrets := fun _ => mem_keep_ne
  syncRuns := fun _ => mem_keep_ne
  resources := fun _ => mem_keep_ne
  resourceVersions := fun _ => mem_keep_not
  relations := fun _ => mem_keep_not
  relationVersions := fun _ => mem_keep_not
  bindings := fun _ => mem_keep_not
  changes := fun _ => mem_keep_not
  inferenceRuns := rfl
  inferenceOutputs := fun _ => mem_keep_not

theorem forgotten_purged (h : s.RunsAtHome id) : s.Forgotten id (s.purged id) := by
  have hframed := s.framed_purged id
  have hends : ∀ {source target : ResourceId}, s.touches id source target = false →
      s.ownsResource id source = false ∧ s.ownsResource id target = false := by
    intro source target htouches
    exact Bool.or_eq_false_iff.mp htouches
  constructor
  · exact fun x hx => ((hframed.connections x).mp hx).2
  · exact fun x hx => ((hframed.connectorState x).mp hx).2
  · exact fun x hx => ((hframed.connectionSecrets x).mp hx).2
  · exact fun run hrun => ((hframed.syncRuns run).mp hrun).2
  · intro r hr
    obtain ⟨hmem, hne⟩ := (hframed.resources r).mp hr
    exact ⟨hne, h.1 r hmem hne⟩
  · intro v hv
    obtain ⟨hmem, hkept⟩ := (hframed.resourceVersions v).mp hv
    exact ⟨hkept, h.2 v hmem hkept⟩
  · exact fun r hr => hends ((hframed.relations r).mp hr).2
  · exact fun v hv => ((hframed.relationVersions v).mp hv).2
  · exact fun b hb => hends ((hframed.bindings b).mp hb).2
  · exact fun c hc => ((hframed.changes c).mp hc).2
  · exact fun o ho => ((hframed.inferenceOutputs o).mp ho).2

/-- A stored row that the purge keeps is found under its key. -/
theorem isSome_keep {κ ρ : Type} [LinearOrder κ] {key : ρ → κ} {t : KeyedTable key}
    {p : ρ → Bool} {k : κ} (h : (t.get k).isSome) (hp : ∀ r ∈ t.rows, key r = k → p r = true) :
    ((t.keep p).get k).isSome := by
  obtain ⟨r, hr⟩ := Option.isSome_iff_exists.mp h
  obtain ⟨hmem, hkey⟩ := KeyedTable.get_eq_some_iff.mp hr
  rw [KeyedTable.get_keep, hr, Option.filter_some, hp r hmem hkey]
  rfl

/-- Nothing that stays references what goes, so every foreign key still holds. -/
theorem ForeignKeys.purged (hs : s.ForeignKeys) (h : s.RunsAtHome id) :
    (s.purged id).ForeignKeys := by
  have hforgotten := forgotten_purged h
  have hframed := s.framed_purged id
  have hconnection : ∀ {other : ConnectionId}, (s.connections.get other).isSome → other ≠ id →
      ((s.purged id).connections.get other).isSome := by
    intro other hsome hne
    refine isSome_keep hsome ?_
    intro x _ hkey
    rw [decide_eq_true_eq, hkey]
    exact hne
  have hrun : ∀ {run : SyncRunId}, (s.syncRuns.get run).isSome → s.ownsRun id run = false →
      ((s.purged id).syncRuns.get run).isSome := by
    intro run hsome hkept
    refine isSome_keep hsome ?_
    intro x hx hkey
    rw [decide_eq_true_eq]
    intro howned
    unfold ownsRun at hkept
    rw [List.any_eq_false] at hkept
    exact hkept x hx (by simp [howned, hkey])
  have hresource : ∀ {resource : ResourceId}, (s.resources.get resource).isSome →
      s.ownsResource id resource = false → ((s.purged id).resources.get resource).isSome := by
    intro resource hsome hkept
    refine isSome_keep hsome ?_
    intro x hx hkey
    rw [decide_eq_true_eq]
    intro howned
    unfold ownsResource at hkept
    rw [List.any_eq_false] at hkept
    exact hkept x hx (by simp [howned, hkey])
  have hrelation : ∀ {relation : RelationId}, (s.relations.get relation).isSome →
      s.ownsRelation id relation = false → ((s.purged id).relations.get relation).isSome := by
    intro relation hsome hkept
    refine isSome_keep hsome ?_
    intro x hx hkey
    rw [← hkey, ownsRelation_eq_touches hx] at hkept
    rw [hkept]
    rfl
  constructor
  · intro x hx
    exact hconnection (hs.connectorState x ((hframed.connectorState x).mp hx).1)
      (hforgotten.connectorState x hx)
  · intro x hx
    exact hconnection (hs.connectionSecrets x ((hframed.connectionSecrets x).mp hx).1)
      (hforgotten.connectionSecrets x hx)
  · intro run hx
    exact hconnection (hs.syncRuns run ((hframed.syncRuns run).mp hx).1)
      (hforgotten.syncRuns run hx)
  · intro r hr
    exact hconnection (hs.resources r ((hframed.resources r).mp hr).1)
      (hforgotten.resources r hr).1
  · intro r hr
    exact hrun (hs.lastSyncRuns r ((hframed.resources r).mp hr).1) (hforgotten.resources r hr).2
  · intro v hv
    exact hresource (hs.versionResources v ((hframed.resourceVersions v).mp hv).1)
      (hforgotten.resourceVersions v hv).1
  · intro v hv
    exact hrun (hs.versionRuns v ((hframed.resourceVersions v).mp hv).1)
      (hforgotten.resourceVersions v hv).2
  · intro r hr
    exact hresource (hs.relationSources r ((hframed.relations r).mp hr).1)
      (hforgotten.relations r hr).1
  · intro r hr
    exact hresource (hs.relationTargets r ((hframed.relations r).mp hr).1)
      (hforgotten.relations r hr).2
  · intro v hv
    exact hrelation (hs.relationVersions v ((hframed.relationVersions v).mp hv).1)
      (hforgotten.relationVersions v hv)
  · intro b hb
    exact hresource (hs.bindingSources b ((hframed.bindings b).mp hb).1)
      (hforgotten.bindings b hb).1
  · intro b hb
    exact hresource (hs.bindingTargets b ((hframed.bindings b).mp hb).1)
      (hforgotten.bindings b hb).2
  · exact fun o ho => hs.outputRuns o ((hframed.inferenceOutputs o).mp ho).1
  · intro o ho
    exact hrelation (hs.outputRelations o ((hframed.inferenceOutputs o).mp ho).1)
      (hforgotten.inferenceOutputs o ho)

/-- What a filter drops and what it keeps make the whole. -/
theorem countP_add_length_keep {κ ρ : Type} [LinearOrder κ] {key : ρ → κ} (t : KeyedTable key)
    {p q : ρ → Bool} (hpq : ∀ r, q r = !p r) :
    t.rows.countP p + (t.keep q).rows.length = t.rows.length := by
  show t.rows.countP p + (t.rows.filter q).length = t.rows.length
  rw [← List.countP_eq_length_filter, List.length_eq_countP_add_countP p]
  congr 1
  refine List.countP_congr ?_
  intro r _
  rw [hpq r]
  simp

theorem counts_purged {summary : ConnectionPurgeSummary}
    (h : s.connectionPurgeSummary id = some summary) : summary.Counts s (s.purged id) := by
  unfold connectionPurgeSummary at h
  split at h
  · cases h
  · cases h
    constructor
    · exact countP_add_length_keep s.resources (by simp)
    · exact countP_add_length_keep s.relations (by simp)
    · exact countP_add_length_keep s.resourceVersions (by simp)
    · exact countP_add_length_keep s.relationVersions (by simp)
    · exact countP_add_length_keep s.changes (by simp)
    · exact countP_add_length_keep s.bindings (by simp)
    · exact countP_add_length_keep s.syncRuns (by simp)

theorem connectionPurgeSummary_stored (hstored : (s.connections.get id).isSome) :
    ∃ summary, s.connectionPurgeSummary id = some summary := by
  unfold connectionPurgeSummary
  rw [if_neg (by simpa [Option.isSome_iff_ne_none] using hstored)]
  exact ⟨_, rfl⟩

theorem purge_refused (hstored : (s.connections.get id).isSome)
    (hnamed : s.runStillNamed id = true) :
    s.purgeConnection id = .error (.sqlite .foreignKey) := by
  obtain ⟨summary, hsummary⟩ := connectionPurgeSummary_stored hstored
  unfold purgeConnection
  rw [hsummary]
  simp only
  rw [run_purgeStatements s id hstored, hnamed]
  rfl

theorem purge_succeeds_iff (hstored : (s.connections.get id).isSome) :
    (∃ result, s.purgeConnection id = .ok result) ↔ s.RunsAtHome id := by
  constructor
  · rintro ⟨⟨summary, s'⟩, h⟩
    obtain ⟨_, hnamed, _⟩ := purgeConnection_ok h
    exact runsAtHome_iff.mpr hnamed
  · intro hhome
    have hnamed := runsAtHome_iff.mp hhome
    obtain ⟨summary, hsummary⟩ := connectionPurgeSummary_stored hstored
    refine ⟨(summary, s.purged id), ?_⟩
    unfold purgeConnection
    rw [hsummary]
    simp only
    rw [run_purgeStatements s id hstored, hnamed]
    rfl

end Store

/-! ## §4  Writes keep runs at home -/

namespace Store

/-- Resources and versions name runs of their own connection. -/
structure HomeRuns (s : Store) : Prop where
  resources : ∀ r ∈ s.resources.rows, ∃ run, s.syncRuns.get r.lastSyncRunId = some run ∧
    run.connectionId = r.connectionId
  versions : ∀ v ∈ s.resourceVersions.rows, ∃ run r, s.syncRuns.get v.syncRunId = some run ∧
    s.resources.get v.resourceId = some r ∧ run.connectionId = r.connectionId

theorem ownsRun_eq_false {s : Store} {id : ConnectionId} {runId : SyncRunId} {run : SyncRun}
    (hrun : s.syncRuns.get runId = some run) (hne : run.connectionId ≠ id) :
    s.ownsRun id runId = false := by
  obtain ⟨hmem, hid⟩ := KeyedTable.get_eq_some_iff.mp hrun
  unfold ownsRun
  rw [List.any_eq_false]
  intro other hother howned
  rw [Bool.and_eq_true, decide_eq_true_eq, decide_eq_true_eq] at howned
  apply hne
  rw [s.syncRuns.row_unique hmem hother (hid.trans howned.2.symm)]
  exact howned.1

theorem HomeRuns.runsAtHome {s : Store} (h : s.HomeRuns) (id : ConnectionId) :
    s.RunsAtHome id := by
  constructor
  · intro r hr hne
    obtain ⟨run, hrun, hsame⟩ := h.resources r hr
    apply ownsRun_eq_false hrun
    rw [hsame]
    exact hne
  · intro v hv howned
    obtain ⟨run, r, hrun, hr, hsame⟩ := h.versions v hv
    apply ownsRun_eq_false hrun
    rw [hsame]
    intro hid
    obtain ⟨hmem, hkey⟩ := KeyedTable.get_eq_some_iff.mp hr
    unfold ownsResource at howned
    rw [List.any_eq_false] at howned
    exact howned r hmem (by simp [hid, hkey])

/-- Runs stay stored, each of its connection. -/
def RunsKept (s s' : Store) : Prop :=
  ∀ id run, s.syncRuns.get id = some run →
    ∃ run', s'.syncRuns.get id = some run' ∧ run'.connectionId = run.connectionId

theorem runsKept_of_eq {s s' : Store} (h : s'.syncRuns = s.syncRuns) : s.RunsKept s' := by
  intro id run hrun
  rw [← h] at hrun
  exact ⟨run, hrun, rfl⟩

theorem CommitEffect.runsKept {s s' : Store} {c : SyncCommit} {r : CommitResult}
    (h : CommitEffect s c r s') : s.RunsKept s' := by
  obtain ⟨stored, hstored, _, hruns⟩ := h.started
  intro id run hrun
  rw [hruns, KeyedTable.get_put]
  by_cases hid : id = (completedRow stored c.syncRun).syncRunId
  · rw [if_pos hid]
    have hsame : (completedRow stored c.syncRun).syncRunId = c.syncRun.syncRunId :=
      (KeyedTable.key_of_get hstored : stored.syncRunId = c.syncRun.syncRunId)
    rw [hid, hsame, hstored] at hrun
    cases hrun
    exact ⟨_, rfl, rfl⟩
  · rw [if_neg hid]
    exact ⟨run, hrun, rfl⟩

end Store

namespace Write

open Store

/-- Every version of a sync commit is of a resource of the commit. The engine's
commits are such (`Store.Offerable.versioned`). -/
def VersionsOwn : Write → Prop
  | .commitSync c => ∀ v ∈ c.resourceVersions, ∃ r ∈ c.resources, r.resourceId = v.resourceId
  | _ => True

theorem runsKept {s s' : Store} {w : Write} (h : w.run s = .ok s')
    (hw : ∀ id, w ≠ .purgeConnection id) : s.RunsKept s' := by
  cases w with
  | upsertConnection connection =>
      cases h
      exact runsKept_of_eq rfl
  | upsertConnectionSecret id secret =>
      obtain rfl := upsertConnectionSecret_ok h
      exact runsKept_of_eq rfl
  | startSyncRun new =>
      obtain ⟨hfree, _, _, rfl⟩ := startSyncRun_ok h
      intro id run hrun
      refine ⟨run, ?_, rfl⟩
      show (s.syncRuns.put new).get id = some run
      rw [KeyedTable.get_put_ne, hrun]
      rintro rfl
      rw [hfree] at hrun
      cases hrun
  | commitSync c =>
      obtain ⟨⟨r, t⟩, hc, rfl⟩ := map_ok h
      exact CommitEffect.runsKept (commitSync_ok hc)
  | markRunningSyncsInterrupted at_ =>
      cases h
      intro id run hrun
      have hget : (s.markRunningSyncsInterrupted at_).2.syncRuns.get id =
          some (interruptedRow at_ run) := by
        have hupdated : (s.markRunningSyncsInterrupted at_).2.syncRuns =
            s.syncRuns.update (interruptedRow at_) (interruptedRow_id at_) := by
          unfold Store.markRunningSyncsInterrupted
          simp only
          split
          · rfl
          · rfl
        rw [hupdated, KeyedTable.get_update, hrun]
        rfl
      refine ⟨_, hget, ?_⟩
      unfold interruptedRow
      split
      · rfl
      · rfl
  | commitBinding c =>
      rw [(commitBinding_ok h).eq]
      exact runsKept_of_eq rfl
  | commitInference c =>
      obtain ⟨outputs, rfl⟩ := (commitInference_ok h).eq
      exact runsKept_of_eq rfl
  | purgeConnection id => exact absurd rfl (hw id)

/-- Resources and versions that a write leaves alone name runs as before. -/
theorem homeRuns_of_same {s s' : Store} (hs : s.HomeRuns) (hruns : s.RunsKept s')
    (hresources : s'.resources = s.resources)
    (hversions : s'.resourceVersions = s.resourceVersions) : s'.HomeRuns where
  resources := by
    intro r hr
    rw [hresources] at hr
    obtain ⟨run, hrun, hsame⟩ := hs.resources r hr
    obtain ⟨run', hrun', hconnection⟩ := hruns _ _ hrun
    exact ⟨run', hrun', hconnection.trans hsame⟩
  versions := by
    intro v hv
    rw [hversions] at hv
    obtain ⟨run, r, hrun, hr, hsame⟩ := hs.versions v hv
    obtain ⟨run', hrun', hconnection⟩ := hruns _ _ hrun
    exact ⟨run', r, hrun', by rw [hresources]; exact hr, hconnection.trans hsame⟩

/-- A commit names its own run, which is of its connection. -/
theorem homeRuns_commit {s s' : Store} {c : SyncCommit} {r : CommitResult}
    (h : CommitEffect s c r s') (hs : s.HomeRuns)
    (hown : ∀ v ∈ c.resourceVersions, ∃ r ∈ c.resources, r.resourceId = v.resourceId) :
    s'.HomeRuns := by
  have hruns := CommitEffect.runsKept h
  obtain ⟨_, hprovenance, hversions⟩ := validateCommit_ok h.valid
  obtain ⟨stored, hstored, hconnection, _⟩ := h.started
  obtain ⟨run, hrun, hrunconn⟩ := hruns _ _ hstored
  have hlanded : ∀ {row x : Resource}, row ∈ c.resources → resourceRule.Lands row x →
      x.connectionId = c.syncRun.connectionId ∧ x.lastSyncRunId = c.syncRun.syncRunId := by
    intro row x hrow hlands
    rcases hlands with rfl | ⟨old, rfl⟩
    · exact hprovenance x hrow
    · exact hprovenance row hrow
  constructor
  · intro x hx
    rw [h.resources] at hx
    rcases resourceRule.mem_applyAll hx with hold | ⟨row, hrow, hlands⟩
    · obtain ⟨run', hrun', hsame⟩ := hs.resources x hold
      obtain ⟨run'', hrun'', hsame'⟩ := hruns _ _ hrun'
      exact ⟨run'', hrun'', hsame'.trans hsame⟩
    · obtain ⟨hconn, hlast⟩ := hlanded hrow hlands
      refine ⟨run, ?_, ?_⟩
      · rw [hlast]
        exact hrun
      · rw [hrunconn, hconnection, hconn]
  · intro v hv
    rw [h.resourceVersions] at hv
    rcases KeyedTable.mem_insertNewAll hv with hold | hnew
    · obtain ⟨run', x, hrun', hx, hsame⟩ := hs.versions v hold
      obtain ⟨run'', hrun'', hsame'⟩ := hruns _ _ hrun'
      -- an upsert keeps the connection of the row it replaces
      obtain ⟨x', hx', hkey⟩ := resourceRule.applyAll_keeps_ident h.resourcesFit hx
      refine ⟨run'', x', hrun'', by rw [h.resources]; exact hx', ?_⟩
      rw [hsame', hsame, (resource_key_eq_iff.mp hkey).1]
    · obtain ⟨row, hrow, hid⟩ := hown v hnew
      obtain ⟨row', hrow', _, x, hx, hlands⟩ :=
        resourceRule.get_applyAll_of_mem (t := s.resources) hrow
      refine ⟨run, x, ?_, ?_, ?_⟩
      · rw [hversions v hnew]
        exact hrun
      · rw [h.resources, ← hid]
        exact hx
      · rw [hrunconn, hconnection, (hlanded hrow' hlands).1]

theorem homeRuns_purged {s : Store} (hs : s.HomeRuns) (id : ConnectionId) :
    (s.purged id).HomeRuns := by
  have hframed := s.framed_purged id
  have hkept : ∀ {runId : SyncRunId} {run : SyncRun}, s.syncRuns.get runId = some run →
      run.connectionId ≠ id → (s.purged id).syncRuns.get runId = some run := by
    intro runId run hrun hne
    obtain ⟨hmem, hid⟩ := KeyedTable.get_eq_some_iff.mp hrun
    exact KeyedTable.get_eq_some_iff.mpr ⟨(hframed.syncRuns run).mpr ⟨hmem, hne⟩, hid⟩
  constructor
  · intro r hr
    obtain ⟨hmem, hne⟩ := (hframed.resources r).mp hr
    obtain ⟨run, hrun, hsame⟩ := hs.resources r hmem
    exact ⟨run, hkept hrun (by rw [hsame]; exact hne), hsame⟩
  · intro v hv
    obtain ⟨hmem, howned⟩ := (hframed.resourceVersions v).mp hv
    obtain ⟨run, r, hrun, hr, hsame⟩ := hs.versions v hmem
    obtain ⟨hrmem, hrid⟩ := KeyedTable.get_eq_some_iff.mp hr
    have hne : r.connectionId ≠ id := by
      intro hid
      unfold ownsResource at howned
      rw [List.any_eq_false] at howned
      exact howned r hrmem (by simp [hid, hrid])
    exact ⟨run, r, hkept hrun (by rw [hsame]; exact hne),
      KeyedTable.get_eq_some_iff.mpr ⟨(hframed.resources r).mpr ⟨hrmem, hne⟩, hrid⟩, hsame⟩

theorem homeRuns {s s' : Store} {w : Write} (h : w.run s = .ok s') (hw : w.VersionsOwn)
    (hs : s.HomeRuns) : s'.HomeRuns := by
  cases w with
  | commitSync c =>
      obtain ⟨⟨r, t⟩, hc, rfl⟩ := map_ok h
      exact homeRuns_commit (commitSync_ok hc) hs hw
  | purgeConnection id =>
      obtain ⟨⟨summary, t⟩, hp, rfl⟩ := map_ok h
      obtain ⟨_, _, _, rfl⟩ := purgeConnection_ok hp
      exact homeRuns_purged hs id
  | commitBinding c =>
      have hruns := runsKept h (fun id => by simp)
      have heq := (commitBinding_ok h).eq
      exact homeRuns_of_same hs hruns (by rw [heq]) (by rw [heq])
  | commitInference c =>
      have hruns := runsKept h (fun id => by simp)
      obtain ⟨outputs, heq⟩ := (commitInference_ok h).eq
      exact homeRuns_of_same hs hruns (by rw [heq]) (by rw [heq])
  | _ =>
      have hruns := runsKept h (fun id => by simp)
      cases Write.effect h with
      | quiet same => exact homeRuns_of_same hs hruns same.resources same.resourceVersions

end Write

/-- After any writes whose sync commits carry versions of their own resources, no
purge meets a run out of place. -/
theorem runsAtHome_written {ws : List Write} (hws : ∀ w ∈ ws, w.VersionsOwn)
    (id : ConnectionId) : (ws.foldl Store.written Store.fresh).RunsAtHome id := by
  have hall : ∀ (ws : List Write) (s : Store), (∀ w ∈ ws, w.VersionsOwn) → s.HomeRuns →
      (ws.foldl Store.written s).HomeRuns := by
    intro ws
    induction ws with
    | nil => exact fun s _ hs => hs
    | cons w ws ih =>
        intro s hws hs
        apply ih _ (fun x hx => hws x (List.mem_cons_of_mem _ hx))
        rcases s.written_cases w with hsame | hrun
        · rw [hsame]
          exact hs
        · exact Write.homeRuns hrun (hws w List.mem_cons_self) hs
  apply (hall ws Store.fresh hws _).runsAtHome
  constructor
  · intro r hr
    cases hr
  · intro v hv
    cases hv

namespace Store

/-- A purge of a stored connection succeeds iff no other connection's row names one
of its runs; then the foreign keys hold, nothing references what went, the other rows
are as they were, and the summary, which is the preview, counts what went.  Otherwise
a foreign key refuses it, which no store met whose sync commits carried versions of
their own resources. -/
theorem purge_closed_and_framed {s : Store} {id : ConnectionId} (hs : s.ForeignKeys)
    (hstored : (s.connections.get id).isSome) :
    ((∃ result, s.purgeConnection id = .ok result) ↔ s.RunsAtHome id) ∧
      (¬ s.RunsAtHome id → s.purgeConnection id = .error (.sqlite .foreignKey)) ∧
      (∀ ws : List Write, (∀ w ∈ ws, w.VersionsOwn) → s = ws.foldl Store.written Store.fresh →
        s.RunsAtHome id) ∧
      ∀ summary s', s.purgeConnection id = .ok (summary, s') →
        s.previewConnectionPurge id = some summary ∧ s'.ForeignKeys ∧ s.Forgotten id s' ∧
          s.Framed id s' ∧ summary.Counts s s' := by
  refine ⟨purge_succeeds_iff hstored, ?refused, ?written, ?succeeded⟩
  case refused =>
    intro haway
    apply purge_refused hstored
    rw [← Bool.not_eq_false]
    exact fun hnamed => haway (runsAtHome_iff.mpr hnamed)
  case written =>
    intro ws hws hs
    rw [hs]
    exact runsAtHome_written hws id
  case succeeded =>
    intro summary s' h
    obtain ⟨_, hnamed, hsummary, rfl⟩ := purgeConnection_ok h
    have hhome := runsAtHome_iff.mpr hnamed
    exact ⟨hsummary, hs.purged hhome, forgotten_purged hhome, s.framed_purged id,
      counts_purged hsummary⟩

end Store

/-! ## §5  Fixed stores -/

namespace Fixture

/-- A run of connection `c` that writes `z`. -/
def otherWrites : List Write :=
  let started := (handle (text "c") (text "rc") .full (text "all")).run
  [.startSyncRun started,
    .commitSync
      { syncRun := { started with status := .succeeded, finishedAt := some (time 2) }
        resources := [{ resourceRow (text "rc") .active (text "z") with connectionId := text "c" }]
        resourceVersions := []
        relations := []
        relationVersions := []
        changes := []
        cursorAfter := none
        missingEvidence := none }]

/-- Connection `a` with `x` and `y`, connection `c` with `z`; the link of `x` and `y`
is moved to `x` and `z`. -/
def movedAcross : BindingWorld :=
  (BindingWorld.machine fun _ => text "f").replay .fresh
    (endpointCalls [text "x", text "y"] ++
      (Write.upsertConnection (connection (text "c")) :: otherWrites).map .other ++
        [.service (.create (linkInput (text "x") (text "y")) (time 10) uuidOne),
          .service (.update (bindingIdOf uuidOne) (linkInput (text "x") (text "z")) (time 20))])

/-- A resource of connection `a` last seen by a run of connection `c`. -/
def crossedRun : Store :=
  { movedAcross.store with
    resources := movedAcross.store.resources.put (resourceRow (text "rc") .active (text "w")) }

/-- What holds of the two stores, evaluated at once. -/
theorem movedAcross_facts :
    movedAcross.store.ForeignKeys ∧ (movedAcross.store.connections.get (text "c")).isSome ∧
      movedAcross.store.relations.rows.length = 2 ∧
      movedAcross.store.ownsBinding (text "c") (bindingIdOf uuidOne) = true ∧
      ((movedAcross.store.purgeConnection (text "c")).toOption.any fun result =>
        result.2.relations.rows.any fun r =>
          decide (r.evidence = .configured (bindingIdOf uuidOne))) = true ∧
      crossedRun.ForeignKeys ∧ (crossedRun.connections.get (text "c")).isSome ∧
        crossedRun.runStillNamed (text "c") = true := by
  decide +kernel

end Fixture

namespace Store

open Fixture in
theorem purge_closed_and_framed_moved :
    (((∃ result, movedAcross.store.purgeConnection (text "c") = .ok result) ↔
        movedAcross.store.RunsAtHome (text "c")) ∧
      (¬ movedAcross.store.RunsAtHome (text "c") →
        movedAcross.store.purgeConnection (text "c") = .error (.sqlite .foreignKey)) ∧
      (∀ ws : List Write, (∀ w ∈ ws, w.VersionsOwn) →
        movedAcross.store = ws.foldl Store.written Store.fresh →
          movedAcross.store.RunsAtHome (text "c")) ∧
      ∀ summary s', movedAcross.store.purgeConnection (text "c") = .ok (summary, s') →
        movedAcross.store.previewConnectionPurge (text "c") = some summary ∧ s'.ForeignKeys ∧
          movedAcross.store.Forgotten (text "c") s' ∧ movedAcross.store.Framed (text "c") s' ∧
            summary.Counts movedAcross.store s') ∧
      movedAcross.store.relations.rows.length = 2 := by
  obtain ⟨hkeys, hstored, hlength, _⟩ := movedAcross_facts
  exact ⟨purge_closed_and_framed hkeys hstored, hlength⟩

open Fixture in
/-- A purge that the foreign keys refuse, and one that leaves a relation whose evidence
names a binding that went. -/
theorem purge_refused_and_evidence_left :
    (crossedRun.ForeignKeys ∧ (crossedRun.connections.get (text "c")).isSome ∧
        crossedRun.purgeConnection (text "c") = .error (.sqlite .foreignKey)) ∧
      movedAcross.store.ForeignKeys ∧
        movedAcross.store.ownsBinding (text "c") (bindingIdOf uuidOne) = true ∧
          ((movedAcross.store.purgeConnection (text "c")).toOption.any fun result =>
            result.2.relations.rows.any fun r =>
              decide (r.evidence = .configured (bindingIdOf uuidOne))) = true := by
  obtain ⟨hkeys, _, _, howned, hleft, hcrossed, hstored, hnamed⟩ := movedAcross_facts
  exact ⟨⟨hcrossed, hstored, purge_refused hstored hnamed⟩, hkeys, howned, hleft⟩

end Store

end NextInfra
