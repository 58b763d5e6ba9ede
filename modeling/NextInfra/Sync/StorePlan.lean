import NextInfra.Sync.Engine

/-!
# Planning over the projection store

Reads of the projection store do not fail, so `build_commit` either names an
unknown relation endpoint or returns `commitOf`, a pure function of the store,
the handle and the batch (`buildCommit_ok_iff`).

§2 opens the plan: which rows, versions and changes it holds, and what the
absence walk does to the counters and to each resource of the scope.
-/

namespace NextInfra

/-! ## §1  The planned commit -/

namespace Store

variable (s : Store)

/-- Reads of the projection store do not fail, so each walk is a list of
contributions. -/
def resourcePlans (run : SyncRun) (vs : List ValidatedResource) : List Plan :=
  vs.map fun v => planResource run v (s.getResource (stableResourceId v.key))

def relationPlans (run : SyncRun) (vs : List ValidatedRelation) : List Plan :=
  vs.map fun v =>
    planRelation run v (s.getRelation (stableRelationId v.key))
      (s.latestRelationVersionFingerprint (stableRelationId v.key))

/-- A resource the batch brings or the store has. -/
def Known (planned : List ResourceId) (id : ResourceId) : Prop :=
  id ∈ planned ∨ (s.resources.get id).isSome

instance (planned : List ResourceId) (id : ResourceId) : Decidable (s.Known planned id) := by
  unfold Known; infer_instance

/-- Every relation of the batch has both endpoints known. -/
def EndpointsKnown (batch : ValidatedBatch) : Prop :=
  ∀ v ∈ batch.relations, s.Known batch.observedIds (stableResourceId v.key.source) ∧
    s.Known batch.observedIds (stableResourceId v.key.target)

instance (batch : ValidatedBatch) : Decidable (s.EndpointsKnown batch) := by
  unfold EndpointsKnown; infer_instance

def missingPart (run : SyncRun) (at_ : Timestamp) (observed : List ResourceId) :
    SyncCoverage → Option MissingEvidenceState × Plan
  | .authoritativeFull scope =>
      let state := forgetObserved observed
        ((s.missingEvidenceState run.connectionId scope).getD (.new scope))
      let (final, p) := planAbsent run at_ observed state
        (s.listResourcesForScope run.connectionId scope)
      (some final, p)
  | .incremental _ => (none, {})
  | .partial_ _ _ => (none, {})
  | .targeted _ => (none, {})

/-- The whole plan of a batch. -/
def batchPlan (handle : SyncRunHandle) (batch : ValidatedBatch) (finishedAt : Timestamp) : Plan :=
  let run := finishedRun handle batch finishedAt
  (Plan.concat (s.resourcePlans run batch.resources)).append
    ((Plan.concat (s.relationPlans run batch.relations)).append
      (s.missingPart run finishedAt batch.observedIds batch.coverage).2)

/-- The commit `build_commit` returns when every endpoint is known. -/
def commitOf (handle : SyncRunHandle) (batch : ValidatedBatch) (finishedAt : Timestamp) :
    SyncCommit :=
  let run := finishedRun handle batch finishedAt
  assembleCommit batch run (s.missingPart run finishedAt batch.observedIds batch.coverage).1
    (s.batchPlan handle batch finishedAt)

theorem planResources_eq (run : SyncRun) (vs : List ValidatedResource) :
    planResources s run vs = .ok (Plan.concat (s.resourcePlans run vs)) := by
  induction vs with
  | nil => rfl
  | cons v vs ih =>
      unfold planResources
      rw [ih]
      rfl

theorem ensureRelationEndpoint_eq (planned : List ResourceId) (id : ResourceId) :
    ensureRelationEndpoint s planned id =
      if s.Known planned id then .ok () else .error (.missingResource id) := by
  unfold ensureRelationEndpoint Known
  by_cases hp : id ∈ planned
  · simp [hp]
  · simp only [hp, if_false, false_or, StoreReader.getResource, Store.getResource]
    cases s.resources.get id with
    | none => rfl
    | some r => rfl

theorem planRelations_eq (run : SyncRun) (planned : List ResourceId) (vs : List ValidatedRelation)
    (h : ∀ v ∈ vs, s.Known planned (stableResourceId v.key.source) ∧
      s.Known planned (stableResourceId v.key.target)) :
    planRelations s run planned vs = .ok (Plan.concat (s.relationPlans run vs)) := by
  induction vs with
  | nil => rfl
  | cons v vs ih =>
      obtain ⟨hs, ht⟩ := h v List.mem_cons_self
      unfold planRelations
      rw [ensureRelationEndpoint_eq, ensureRelationEndpoint_eq, if_pos hs, if_pos ht,
        ih (fun w hw => h w (List.mem_cons_of_mem _ hw))]
      rfl

/-- A relation walk that succeeds knew every endpoint. -/
theorem known_of_planRelations {run : SyncRun} {planned : List ResourceId}
    {vs : List ValidatedRelation} {p : Plan} (h : planRelations s run planned vs = .ok p) :
    ∀ v ∈ vs, s.Known planned (stableResourceId v.key.source) ∧
      s.Known planned (stableResourceId v.key.target) := by
  induction vs generalizing p with
  | nil => simp
  | cons v vs ih =>
      unfold planRelations at h
      obtain ⟨_, hs, h⟩ := bind_ok h
      obtain ⟨_, ht, h⟩ := bind_ok h
      obtain ⟨_, _, h⟩ := bind_ok h
      obtain ⟨_, _, h⟩ := bind_ok h
      obtain ⟨tail, htail, _⟩ := bind_ok h
      rw [ensureRelationEndpoint_eq] at hs ht
      intro w hw
      rcases List.mem_cons.mp hw with rfl | hw'
      · constructor
        · by_contra hn
          rw [if_neg hn] at hs
          cases hs
        · by_contra hn
          rw [if_neg hn] at ht
          cases ht
      · exact ih htail w hw'

theorem planMissing_eq (run : SyncRun) (at_ : Timestamp) (observed : List ResourceId)
    (coverage : SyncCoverage) :
    planMissing s run at_ observed coverage = .ok (s.missingPart run at_ observed coverage) := by
  cases coverage with
  | authoritativeFull scope => rfl
  | incremental cursor => rfl
  | partial_ scope reason => rfl
  | targeted ids => rfl

/-- Over the projection store `build_commit` fails only for an unknown endpoint. -/
theorem buildCommit_ok_iff {handle : SyncRunHandle} {batch : ValidatedBatch}
    {finishedAt : Timestamp} {c : SyncCommit} :
    buildCommit s handle batch finishedAt = .ok c ↔
      s.EndpointsKnown batch ∧ c = s.commitOf handle batch finishedAt := by
  unfold buildCommit
  constructor
  · intro h
    obtain ⟨resources, hres, h⟩ := bind_ok h
    obtain ⟨relations, hrel, h⟩ := bind_ok h
    obtain ⟨⟨missing, absent⟩, hmiss, h⟩ := bind_ok h
    have hknown := s.known_of_planRelations hrel
    rw [planRelations_eq s _ _ _ hknown] at hrel
    rw [planResources_eq] at hres
    rw [planMissing_eq] at hmiss
    cases hres
    cases hrel
    have hm := Except.ok.inj hmiss
    refine ⟨hknown, ?_⟩
    cases h
    simp only [commitOf, batchPlan, hm]
  · rintro ⟨hknown, rfl⟩
    simp only [planResources_eq, planMissing_eq, planRelations_eq s _ _ _ hknown]
    rfl

/-- A commit that passed every check of the engine. -/
structure Checked (handle : SyncRunHandle) (batch : ValidatedBatch) : Prop where
  running : handle.isRunning = true
  connection : handle.run.connectionId = batch.connectionId
  syncRun : handle.run.syncRunId = batch.syncRunId
  mode : handle.run.mode.accepts batch.coverage = true
  scope : ∀ scope, batch.coverage.namedScope = some scope → scope = handle.scope
  endpoints : s.EndpointsKnown batch

theorem plannedCommit_ok_iff {handle : SyncRunHandle} {batch : ValidatedBatch}
    {finishedAt : Timestamp} {c : SyncCommit} :
    SyncEngine.plannedCommit s handle batch finishedAt = .ok c ↔
      s.Checked handle batch ∧ c = s.commitOf handle batch finishedAt := by
  unfold SyncEngine.plannedCommit
  constructor
  · intro h
    obtain ⟨_, hhandle, h⟩ := bind_ok h
    obtain ⟨_, hcoverage, h⟩ := bind_ok h
    obtain ⟨hknown, rfl⟩ := s.buildCommit_ok_iff.mp h
    unfold validateHandle at hhandle
    split at hhandle
    · cases hhandle
    rename_i hrun
    split at hhandle
    · cases hhandle
    rename_i hsame
    unfold validateCoverage at hcoverage
    split at hcoverage
    · cases hcoverage
    rename_i hmode
    refine ⟨⟨by simpa using hrun, ?_, ?_, by simpa using hmode, ?_, hknown⟩, rfl⟩
    · by_contra hne
      exact hsame (Or.inl hne)
    · by_contra hne
      exact hsame (Or.inr hne)
    · intro scope hscope
      simp only [hscope] at hcoverage
      by_contra hne
      rw [if_pos hne] at hcoverage
      cases hcoverage
  · rintro ⟨hc, rfl⟩
    have hhandle : validateHandle handle batch.connectionId batch.syncRunId =
        (.ok () : Except (SyncEngineError StoreError) Unit) := by
      unfold validateHandle
      rw [hc.running, hc.connection, hc.syncRun]
      simp
    have hcoverage : validateCoverage handle batch.coverage =
        (.ok () : Except (SyncEngineError StoreError) Unit) := by
      unfold validateCoverage
      rw [hc.mode]
      cases hn : batch.coverage.namedScope with
      | none => simp
      | some scope => simp [hc.scope scope hn]
    rw [hhandle, hcoverage]
    exact s.buildCommit_ok_iff.mpr ⟨hc.endpoints, rfl⟩

end Store

/-! ## §2  What the walks contribute -/

theorem flatMap_singleton_map {α β γ : Type} (f : α → β) (g : β → List γ) (h : α → γ)
    (hg : ∀ a, g (f a) = [h a]) (as : List α) : (as.map f).flatMap g = as.map h := by
  induction as with
  | nil => rfl
  | cons a as ih => simp [hg, ih]

theorem flatMap_nil_map {α β γ : Type} (f : α → β) (g : β → List γ) (hg : ∀ a, g (f a) = [])
    (as : List α) : (as.map f).flatMap g = [] := by
  induction as with
  | nil => rfl
  | cons a as ih => simp [hg, ih]

/-- `isDue`: absent from the batch for the second time and not a tombstone yet. -/
def isDue (observed : List ResourceId) (state : MissingEvidenceState) (r : Resource) : Bool :=
  decide (r.resourceId ∉ observed) && decide (1 ≤ state.countFor r.resourceId) &&
    decide (r.lifecycle ≠ .tombstoned)

/-- The change a tombstoned resource leaves. -/
def tombstoneChange (run : SyncRun) (at_ : Timestamp) (r : Resource) : Change :=
  resourceChange (tombstoneResource r run at_) (some r)
    (resourceDiff (some r) (tombstoneResource r run at_)) run.syncRunId at_

/-- The contribution of the resources that fall due. -/
def tombstonePlan (run : SyncRun) (at_ : Timestamp) (due : List Resource) : Plan where
  resources := due.map fun r => tombstoneResource r run at_
  changes := due.map (tombstoneChange run at_)
  updated := due.length

/-- The counter an absence leaves: one more, at most two. -/
def nextCount (count : Nat) : Nat := min (count + 1) 2

theorem saturated_next (n : Nat) : min (saturatingAdd 8 n 1) 2 = nextCount n := by
  unfold saturatingAdd nextCount
  omega

theorem two_le_saturated (n : Nat) : 2 ≤ saturatingAdd 8 n 1 ↔ 1 ≤ n := by
  unfold saturatingAdd
  omega

theorem countAbsence_state (run : SyncRun) (at_ : Timestamp) (state : MissingEvidenceState)
    (r : Resource) :
    (countAbsence run at_ state r).1 =
      { state with
        counts := OrderedMap.insert state.counts r.resourceId
          (nextCount (state.countFor r.resourceId)) } := by
  rw [← saturated_next]
  by_cases hd : 2 ≤ saturatingAdd 8 (state.countFor r.resourceId) 1 ∧ r.lifecycle ≠ .tombstoned
  · simp only [countAbsence, if_pos hd]
  · simp only [countAbsence, if_neg hd]

theorem countAbsence_plan (run : SyncRun) (at_ : Timestamp) (observed : List ResourceId)
    (state : MissingEvidenceState) (r : Resource) (h : r.resourceId ∉ observed) :
    (countAbsence run at_ state r).2 =
      tombstonePlan run at_ (if isDue observed state r then [r] else []) := by
  have hdue : (2 ≤ saturatingAdd 8 (state.countFor r.resourceId) 1 ∧ r.lifecycle ≠ .tombstoned) ↔
      isDue observed state r = true := by
    rw [two_le_saturated]
    simp [isDue, h]
  by_cases hd : isDue observed state r = true
  · simp only [countAbsence, if_pos (hdue.mpr hd), if_pos hd]
    rfl
  · simp only [countAbsence, if_neg (fun hc => hd (hdue.mp hc)), if_neg hd]
    rfl

theorem tombstonePlan_append (run : SyncRun) (at_ : Timestamp) (as bs : List Resource) :
    (tombstonePlan run at_ as).append (tombstonePlan run at_ bs) =
      tombstonePlan run at_ (as ++ bs) := by
  simp [tombstonePlan, Plan.append]

theorem countFor_countAbsence {run : SyncRun} {at_ : Timestamp} {state : MissingEvidenceState}
    {r : Resource} {id : ResourceId} (h : id ≠ r.resourceId) :
    (countAbsence run at_ state r).1.countFor id = state.countFor id := by
  rw [countAbsence_state]
  unfold MissingEvidenceState.countFor
  rw [OrderedMap.lookup_insert, if_neg h]

/-- The walk over distinct resources tombstones those due in the state it
started from: counting one resource does not touch another's counter. -/
theorem planAbsent_plan (run : SyncRun) (at_ : Timestamp) (observed : List ResourceId)
    (rows : List Resource) (state : MissingEvidenceState)
    (hids : (rows.map Resource.resourceId).Nodup) :
    (planAbsent run at_ observed state rows).2 =
      tombstonePlan run at_ (rows.filter (isDue observed state)) := by
  induction rows generalizing state with
  | nil => rfl
  | cons r rest ih =>
      rw [List.map_cons, List.nodup_cons] at hids
      obtain ⟨hnew, hrest⟩ := hids
      unfold planAbsent
      by_cases hobs : r.resourceId ∈ observed
      · have hnot : isDue observed state r = false := by simp [isDue, hobs]
        rw [if_pos hobs, ih state hrest, List.filter_cons_of_neg (by simp [hnot])]
      · rw [if_neg hobs]
        show ((countAbsence run at_ state r).2.append
          (planAbsent run at_ observed (countAbsence run at_ state r).1 rest).2) = _
        have hsame : rest.filter (isDue observed (countAbsence run at_ state r).1) =
            rest.filter (isDue observed state) := by
          apply List.filter_congr
          intro x hx
          have hne : x.resourceId ≠ r.resourceId := by
            intro e
            exact hnew (e ▸ List.mem_map_of_mem hx)
          unfold isDue
          rw [countFor_countAbsence hne]
        rw [ih _ hrest, hsame, countAbsence_plan run at_ observed state r hobs,
          tombstonePlan_append]
        by_cases hd : isDue observed state r = true
        · rw [if_pos hd, List.filter_cons_of_pos hd]
          rfl
        · rw [if_neg hd, List.filter_cons_of_neg hd]
          rfl

/-- The counters after the walk: one more for each distinct absent resource. -/
theorem planAbsent_counts (run : SyncRun) (at_ : Timestamp) (observed : List ResourceId)
    (rows : List Resource) (state : MissingEvidenceState)
    (hids : (rows.map Resource.resourceId).Nodup) (id : ResourceId) :
    OrderedMap.lookup (planAbsent run at_ observed state rows).1.counts id =
      if id ∈ rows.map Resource.resourceId ∧ id ∉ observed then
        some (nextCount (state.countFor id))
      else OrderedMap.lookup state.counts id := by
  induction rows generalizing state with
  | nil => simp [planAbsent]
  | cons r rest ih =>
      rw [List.map_cons, List.nodup_cons] at hids
      obtain ⟨hnew, hrest⟩ := hids
      unfold planAbsent
      by_cases hobs : r.resourceId ∈ observed
      · rw [if_pos hobs, ih state hrest]
        by_cases hid : id = r.resourceId
        · simp [hid, hobs]
        · simp [hid]
      · rw [if_neg hobs]
        show OrderedMap.lookup
          (planAbsent run at_ observed (countAbsence run at_ state r).1 rest).1.counts id = _
        rw [ih _ hrest]
        by_cases hid : id = r.resourceId
        · subst hid
          rw [if_neg (fun hc => hnew hc.1), if_pos ⟨List.mem_cons_self, hobs⟩,
            countAbsence_state, OrderedMap.lookup_insert, if_pos rfl]
        · rw [countFor_countAbsence hid, countAbsence_state, OrderedMap.lookup_insert, if_neg hid]
          simp [hid]

theorem planAbsent_scope (run : SyncRun) (at_ : Timestamp) (observed : List ResourceId)
    (rows : List Resource) (state : MissingEvidenceState) :
    (planAbsent run at_ observed state rows).1.scope = state.scope := by
  induction rows generalizing state with
  | nil => rfl
  | cons r rest ih =>
      unfold planAbsent
      by_cases hobs : r.resourceId ∈ observed
      · rw [if_pos hobs, ih]
      · rw [if_neg hobs]
        show (planAbsent run at_ observed (countAbsence run at_ state r).1 rest).1.scope = _
        rw [ih, countAbsence_state]

theorem lookup_forgetObserved (observed : List ResourceId) (state : MissingEvidenceState)
    (id : ResourceId) :
    OrderedMap.lookup (forgetObserved observed state).counts id =
      if id ∈ observed then none else OrderedMap.lookup state.counts id := by
  unfold forgetObserved
  show OrderedMap.lookup (observed.foldl OrderedMap.remove state.counts) id = _
  generalize state.counts = counts
  induction observed generalizing counts with
  | nil => simp
  | cons o os ih =>
      rw [List.foldl_cons, ih, OrderedMap.lookup_remove]
      by_cases ho : id = o
      · simp [ho]
      · simp [ho]

/-! ## §3  The planned commit, field by field -/

namespace Store

variable (s : Store)

/-- The rows of the scope that the batch leaves out for the second time. -/
def dueResources (id : ConnectionId) (scope : Scope) (observed : List ResourceId) :
    List Resource :=
  (s.listResourcesForScope id scope).filter fun r =>
    decide (r.resourceId ∉ observed) && decide (1 ≤ s.missingCount id scope r.resourceId) &&
      decide (r.lifecycle ≠ .tombstoned)

theorem mem_dueResources {id : ConnectionId} {scope : Scope} {observed : List ResourceId}
    {r : Resource} :
    r ∈ s.dueResources id scope observed ↔
      s.resources.get r.resourceId = some r ∧ r.connectionId = id ∧ r.scope = scope ∧
        r.resourceId ∉ observed ∧ 1 ≤ s.missingCount id scope r.resourceId ∧
        r.lifecycle ≠ .tombstoned := by
  simp [dueResources, List.mem_filter, mem_listResourcesForScope]
  tauto

theorem listResourcesForScope_nodup (id : ConnectionId) (scope : Scope) :
    ((s.listResourcesForScope id scope).map Resource.resourceId).Nodup :=
  s.resources.keys_nodup.sublist (List.filter_sublist.map _)

/-- An authoritative full batch: the resources due are tombstoned, the counter of
every other absent resource of the scope goes up, observed ones lose theirs. -/
theorem missingPart_full (run : SyncRun) (at_ : Timestamp) (observed : List ResourceId)
    (scope : Scope) :
    ∃ final : MissingEvidenceState,
      s.missingPart run at_ observed (.authoritativeFull scope) =
        (some final, tombstonePlan run at_ (s.dueResources run.connectionId scope observed)) ∧
      final.scope = scope ∧
      ∀ id, OrderedMap.lookup final.counts id =
        if id ∈ observed then none
        else if id ∈ (s.listResourcesForScope run.connectionId scope).map Resource.resourceId then
          some (nextCount (s.missingCount run.connectionId scope id))
        else s.missingEntry run.connectionId scope id := by
  have hids := s.listResourcesForScope_nodup run.connectionId scope
  have hcount : ∀ id, id ∉ observed →
      (forgetObserved observed
        ((s.missingEvidenceState run.connectionId scope).getD (.new scope))).countFor id =
        s.missingCount run.connectionId scope id := by
    intro id hid
    unfold MissingEvidenceState.countFor missingCount
    rw [lookup_forgetObserved, if_neg hid, lookup_missingEvidenceState]
  refine ⟨_, Prod.ext rfl ?_, ?_, ?_⟩
  · show (planAbsent run at_ observed _ _).2 = _
    rw [planAbsent_plan _ _ _ _ _ hids]
    congr 1
    apply List.filter_congr
    intro r _
    unfold isDue
    by_cases hobs : r.resourceId ∈ observed
    · simp [hobs]
    · rw [hcount r.resourceId hobs]
  · rw [planAbsent_scope]
    exact s.scope_missingEvidenceState run.connectionId scope
  · intro id
    rw [planAbsent_counts _ _ _ _ _ hids]
    by_cases hobs : id ∈ observed
    · rw [if_neg (fun hc => hc.2 hobs), if_pos hobs, lookup_forgetObserved, if_pos hobs]
    · rw [if_neg hobs]
      by_cases hlist : id ∈ (s.listResourcesForScope run.connectionId scope).map Resource.resourceId
      · rw [if_pos ⟨hlist, hobs⟩, if_pos hlist, hcount id hobs]
      · rw [if_neg (fun hc => hlist hc.1), if_neg hlist, lookup_forgetObserved, if_neg hobs,
          lookup_missingEvidenceState]

/-- The absence part of any batch: tombstones of the resources due, if any. -/
def dueOf (conn : ConnectionId) (batch : ValidatedBatch) : List Resource :=
  match batch.coverage with
  | .authoritativeFull scope => s.dueResources conn scope batch.observedIds
  | .incremental _ => []
  | .partial_ _ _ => []
  | .targeted _ => []

theorem missingPart_plan (run : SyncRun) (at_ : Timestamp) (batch : ValidatedBatch) :
    (s.missingPart run at_ batch.observedIds batch.coverage).2 =
      tombstonePlan run at_ (s.dueOf run.connectionId batch) := by
  unfold dueOf
  cases batch.coverage with
  | authoritativeFull scope =>
      obtain ⟨_, heq, _, _⟩ := s.missingPart_full run at_ batch.observedIds scope
      rw [heq]
  | incremental cursor => rfl
  | partial_ scope reason => rfl
  | targeted ids => rfl

theorem batchPlan_eq (handle : SyncRunHandle) (batch : ValidatedBatch) (at_ : Timestamp) :
    s.batchPlan handle batch at_ =
      (Plan.concat (s.resourcePlans (finishedRun handle batch at_) batch.resources)).append
        ((Plan.concat (s.relationPlans (finishedRun handle batch at_) batch.relations)).append
          (tombstonePlan (finishedRun handle batch at_) at_
            (s.dueOf handle.run.connectionId batch))) := by
  simp only [batchPlan, missingPart_plan]
  rfl

/-- The row the engine plans for an observed resource. -/
def projected (run : SyncRun) (v : ValidatedResource) : Resource :=
  projectResource v (stableResourceId v.key) run (s.getResource (stableResourceId v.key))

/-- The row the engine plans for an observed relation. -/
def projectedRelation (v : ValidatedRelation) : Relation :=
  projectRelation v (stableRelationId v.key) (stableResourceId v.key.source)
    (stableResourceId v.key.target) (s.getRelation (stableRelationId v.key))

section

variable (handle : SyncRunHandle) (batch : ValidatedBatch) (finishedAt : Timestamp)

theorem commitOf_resources :
    (s.commitOf handle batch finishedAt).resources =
      batch.resources.map (s.projected (finishedRun handle batch finishedAt)) ++
        (s.dueOf handle.run.connectionId batch).map fun r =>
          tombstoneResource r (finishedRun handle batch finishedAt) finishedAt := by
  show (Plan.concat _).resources ++ ((Plan.concat _).resources ++ _) = _
  rw [Plan.concat_resources, Plan.concat_resources, missingPart_plan]
  unfold resourcePlans relationPlans
  rw [flatMap_singleton_map _ _ (s.projected (finishedRun handle batch finishedAt))
      (fun _ => rfl), flatMap_nil_map _ _ (fun _ => rfl)]
  rfl

theorem commitOf_relations :
    (s.commitOf handle batch finishedAt).relations = batch.relations.map s.projectedRelation := by
  show (Plan.concat _).relations ++ ((Plan.concat _).relations ++ _) = _
  rw [Plan.concat_relations, Plan.concat_relations, missingPart_plan]
  unfold resourcePlans relationPlans
  rw [flatMap_singleton_map _ _ s.projectedRelation (fun _ => rfl), flatMap_nil_map _ _ (fun _ => rfl)]
  simp [tombstonePlan]

theorem commitOf_resourceVersions :
    (s.commitOf handle batch finishedAt).resourceVersions =
      (s.resourcePlans (finishedRun handle batch finishedAt) batch.resources).flatMap
        Plan.resourceVersions := by
  show (Plan.concat _).resourceVersions ++ ((Plan.concat _).resourceVersions ++ _) = _
  rw [Plan.concat_resourceVersions, Plan.concat_resourceVersions, missingPart_plan]
  unfold relationPlans
  rw [flatMap_nil_map _ Plan.resourceVersions (fun _ => rfl)]
  simp [tombstonePlan]

theorem commitOf_relationVersions :
    (s.commitOf handle batch finishedAt).relationVersions =
      (s.relationPlans (finishedRun handle batch finishedAt) batch.relations).flatMap
        Plan.relationVersions := by
  show (Plan.concat _).relationVersions ++ ((Plan.concat _).relationVersions ++ _) = _
  rw [Plan.concat_relationVersions, Plan.concat_relationVersions, missingPart_plan]
  unfold resourcePlans
  rw [flatMap_nil_map _ Plan.relationVersions (fun _ => rfl)]
  simp [tombstonePlan]

theorem commitOf_changes :
    (s.commitOf handle batch finishedAt).changes =
      (s.resourcePlans (finishedRun handle batch finishedAt) batch.resources).flatMap Plan.changes ++
        ((s.relationPlans (finishedRun handle batch finishedAt) batch.relations).flatMap
          Plan.changes ++
        (s.dueOf handle.run.connectionId batch).map
          (tombstoneChange (finishedRun handle batch finishedAt) finishedAt)) := by
  show (Plan.concat _).changes ++ ((Plan.concat _).changes ++ _) = _
  rw [Plan.concat_changes, Plan.concat_changes, missingPart_plan]
  rfl

end

end Store

end NextInfra
