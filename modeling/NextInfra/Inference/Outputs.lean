import NextInfra.Inference.Engine

/-!
# What a run of the engine does

On the projection store every read succeeds, so a run comes down to conditions on
the candidates and one commit (`InferenceEngine.run_ok_iff`). Candidates count
only normalized, and only as a set: `Gathered` collects them in ordered tables.

`InferenceRan` says what the accepted commit left of the relations.
-/

namespace NextInfra

/-! ## §1  The checks -/

/-- What the engine asks of a normalized candidate. -/
structure Store.Admits (s : Store) (c : InferenceCandidate) : Prop where
  distinct : c.sourceResourceId ≠ c.targetResourceId
  inputs : c.hasInputs = true
  source : ∃ r, s.getResource c.sourceResourceId = some r ∧ r.lifecycle = .active
  target : ∃ r, s.getResource c.targetResourceId = some r ∧ r.lifecycle = .active
  resourceVersions : ∀ v ∈ c.inputResourceVersionIds, s.resourceVersionExists v = true
  relationVersions : ∀ v ∈ c.inputRelationVersionIds, s.relationVersionExists v = true

namespace InferenceCandidate

theorem normalize_ok_iff {c n : InferenceCandidate} :
    c.normalize = .ok n ↔
      c.sourceResourceId ≠ c.targetResourceId ∧ c.normalized.hasInputs = true ∧
        n = c.normalized := by
  unfold normalize
  by_cases hdistinct : c.sourceResourceId = c.targetResourceId
  · simp [hdistinct]
  · rw [if_neg hdistinct]
    by_cases hinputs : c.normalized.hasInputs = true
    · rw [if_pos hinputs]
      simp [hdistinct, hinputs, eq_comm]
    · rw [if_neg hinputs]
      simp [hinputs]

end InferenceCandidate

namespace InferenceEngine

section

variable {ε : Type}

theorem stored_ok_iff {α : Type} {x : Except ε α} {a : α} :
    (stored x : Except (InferenceError ε) α) = .ok a ↔ x = .ok a := by
  unfold stored
  cases x <;> simp [Except.mapError]

theorem checked_ok_iff {α : Type} {x : Except DomainError α} {a : α} :
    (checked x : Except (InferenceError ε) α) = .ok a ↔ x = .ok a := by
  unfold checked
  cases x <;> simp [Except.mapError]

theorem requireActive_ok_iff {resource : Option Resource} :
    (requireActive resource : Except (InferenceError ε) Unit) = .ok () ↔
      ∃ r, resource = some r ∧ r.lifecycle = .active := by
  unfold requireActive
  cases resource with
  | none => simp
  | some r => by_cases h : r.lifecycle = .active <;> simp [h]

theorem requireEach_ok_iff {κ : Type} {exists_ : κ → Bool} : ∀ {ids : List κ},
    (requireEach (fun id => (.ok (exists_ id) : Except ε Bool)) ids :
      Except (InferenceError ε) Unit) = .ok () ↔ ∀ id ∈ ids, exists_ id = true
  | [] => by simp [requireEach]
  | id :: ids => by
      have hstep : (requireEach (fun id => (.ok (exists_ id) : Except ε Bool)) (id :: ids) :
          Except (InferenceError ε) Unit) =
            if exists_ id then requireEach (fun id => .ok (exists_ id)) ids
            else .error .inputVersionMissing := rfl
      rw [hstep]
      by_cases hid : exists_ id = true
      · rw [if_pos hid, requireEach_ok_iff]
        simp [hid]
      · rw [if_neg hid]
        simp [hid]

theorem addOutput_ok_iff {produced produced' : KeyedTable Relation.relationId} {r : Relation} :
    (addOutput produced r : Except (InferenceError ε) _) = .ok produced' ↔
      (∀ old ∈ produced.rows, old.relationId = r.relationId → old = r) ∧
        produced' = produced.put r := by
  unfold addOutput
  cases hget : produced.get r.relationId with
  | none =>
      have hfree := KeyedTable.get_eq_none_iff.mp hget
      constructor
      · intro h
        cases h
        exact ⟨fun old hold hid => absurd hid (hfree old hold), rfl⟩
      · rintro ⟨_, rfl⟩
        rfl
  | some previous =>
      obtain ⟨hmem, hid⟩ := KeyedTable.get_eq_some_iff.mp hget
      simp only
      by_cases hsame : previous = r
      · rw [if_pos hsame]
        rw [hsame] at hget
        rw [KeyedTable.put_of_get hget]
        constructor
        · intro h
          cases h
          refine ⟨?_, rfl⟩
          intro old hold hold_id
          rw [← hsame] at hold_id ⊢
          exact produced.row_unique hold hmem hold_id
        · rintro ⟨_, rfl⟩
          rfl
      · rw [if_neg hsame]
        constructor
        · intro h
          cases h
        · rintro ⟨hall, _⟩
          exact absurd (hall previous hmem hid) hsame

end

variable {digest : Value → HexDigest} {rule : RuleVersion} {at_ : Timestamp} {s : Store}

theorem validateCandidate_ok_iff {c : InferenceCandidate} :
    (validateCandidate s c : Except (InferenceError StoreError) Unit) = .ok () ↔
      (∃ r, s.getResource c.sourceResourceId = some r ∧ r.lifecycle = .active) ∧
        (∃ r, s.getResource c.targetResourceId = some r ∧ r.lifecycle = .active) ∧
          (∀ v ∈ c.inputResourceVersionIds, s.resourceVersionExists v = true) ∧
            ∀ v ∈ c.inputRelationVersionIds, s.relationVersionExists v = true := by
  have hread : (validateCandidate s c : Except (InferenceError StoreError) Unit) =
      (requireActive (s.getResource c.sourceResourceId) >>= fun _ =>
        requireActive (s.getResource c.targetResourceId) >>= fun _ =>
          requireEach (fun v => .ok (s.resourceVersionExists v)) c.inputResourceVersionIds >>=
            fun _ =>
              requireEach (fun v => .ok (s.relationVersionExists v)) c.inputRelationVersionIds) :=
    rfl
  rw [hread]
  constructor
  · intro h
    obtain ⟨_, hsource, h⟩ := bind_ok h
    obtain ⟨_, htarget, h⟩ := bind_ok h
    obtain ⟨_, hresources, h⟩ := bind_ok h
    exact ⟨requireActive_ok_iff.mp hsource, requireActive_ok_iff.mp htarget,
      requireEach_ok_iff.mp hresources, requireEach_ok_iff.mp h⟩
  · rintro ⟨hsource, htarget, hresources, hrelations⟩
    rw [requireActive_ok_iff.mpr hsource, requireActive_ok_iff.mpr htarget,
      requireEach_ok_iff.mpr hresources, requireEach_ok_iff.mpr hrelations]
    rfl

/-! ## §2  The loop over the candidates -/

/-- The relation a candidate stands for, beside the rule's stored rows. -/
def outputOf (digest : Value → HexDigest) (rule : RuleVersion) (at_ : Timestamp)
    (existing : KeyedTable Relation.relationId) (c : InferenceCandidate) : Relation :=
  c.normalized.inferredRelation digest rule at_
    (existing.get (c.normalized.relationId digest rule))

/-- Rows that share an id are one row. -/
def Agree (acc : KeyedTable Relation.relationId) (outputs : List Relation) : Prop :=
  ∀ a ∈ outputs, ∀ b, b ∈ acc.rows ∨ b ∈ outputs → b.relationId = a.relationId → b = a

/-- What the loop has collected after some candidates. -/
def Gathered.adding (acc : Gathered) (outputs : List Relation) (cs : List InferenceCandidate) :
    Gathered where
  produced := acc.produced.putAll outputs
  resourceInputs := acc.resourceInputs.putAll
    (cs.flatMap fun c => c.normalized.inputResourceVersionIds)
  relationInputs := acc.relationInputs.putAll
    (cs.flatMap fun c => c.normalized.inputRelationVersionIds)

theorem Gathered.adding_cons (acc : Gathered) (r : Relation) (outputs : List Relation)
    (c : InferenceCandidate) (cs : List InferenceCandidate) :
    acc.adding (r :: outputs) (c :: cs) =
      Gathered.adding
        { produced := acc.produced.put r
          resourceInputs := acc.resourceInputs.putAll c.normalized.inputResourceVersionIds
          relationInputs := acc.relationInputs.putAll c.normalized.inputRelationVersionIds }
        outputs cs := by
  unfold Gathered.adding
  simp only [KeyedTable.putAll, List.flatMap_cons, List.foldl_append, List.foldl_cons]

/-- The first output agrees with the rest iff it agrees with what is there and the
rest agrees with both. -/
theorem agree_cons {acc : KeyedTable Relation.relationId} {r : Relation}
    {outputs : List Relation} :
    Agree acc (r :: outputs) ↔
      (∀ old ∈ acc.rows, old.relationId = r.relationId → old = r) ∧
        Agree (acc.put r) outputs := by
  unfold Agree
  constructor
  · intro h
    refine ⟨fun old hold hid => h r List.mem_cons_self old (Or.inl hold) hid, ?_⟩
    intro a ha b hb hid
    refine h a (List.mem_cons_of_mem _ ha) b ?_ hid
    rcases hb with hb | hb
    · rcases KeyedTable.mem_put.mp hb with rfl | ⟨hb, _⟩
      · exact Or.inr List.mem_cons_self
      · exact Or.inl hb
    · exact Or.inr (List.mem_cons_of_mem _ hb)
  · rintro ⟨hfirst, hrest⟩ a ha b hb hid
    have hput : r ∈ (acc.put r).rows := KeyedTable.mem_put.mpr (Or.inl rfl)
    have hacc : b ∈ acc.rows → b ∈ (acc.put r).rows := by
      intro hb
      rw [KeyedTable.mem_put]
      by_cases hbr : b.relationId = r.relationId
      · exact Or.inl (hfirst b hb hbr)
      · exact Or.inr ⟨hb, hbr⟩
    rcases List.mem_cons.mp ha with rfl | harest
    · rcases hb with hb | hb
      · exact hfirst b hb hid
      · rcases List.mem_cons.mp hb with rfl | hbrest
        · rfl
        · exact (hrest b hbrest a (Or.inl hput) hid.symm).symm
    · rcases hb with hb | hb
      · exact hrest a harest b (Or.inl (hacc hb)) hid
      · rcases List.mem_cons.mp hb with rfl | hbrest
        · exact hrest a harest b (Or.inl hput) hid
        · exact hrest a harest b (Or.inr hbrest) hid

/-- The loop succeeds iff every candidate is admitted and those that share an id
agree, and then collects them all. -/
theorem gather_ok_iff {existing : KeyedTable Relation.relationId} :
    ∀ {cs : List InferenceCandidate} {acc g : Gathered},
      (gather digest rule at_ s existing acc cs : Except (InferenceError StoreError) Gathered) =
          .ok g ↔
        (∀ c ∈ cs, s.Admits c.normalized) ∧
          Agree acc.produced (cs.map (outputOf digest rule at_ existing)) ∧
            g = acc.adding (cs.map (outputOf digest rule at_ existing)) cs
  | [], acc, g => by
      constructor
      · intro h
        cases h
        exact ⟨fun _ h => absurd h List.not_mem_nil, fun _ h => absurd h List.not_mem_nil, rfl⟩
      · rintro ⟨_, _, rfl⟩
        rfl
  | c :: cs, acc, g => by
      unfold gather
      rw [List.map_cons, agree_cons]
      constructor
      · intro h
        obtain ⟨n, hnormal, h⟩ := bind_ok h
        obtain ⟨hdistinct, hinputs, rfl⟩ :=
          InferenceCandidate.normalize_ok_iff.mp (checked_ok_iff.mp hnormal)
        obtain ⟨_, hvalid, h⟩ := bind_ok h
        obtain ⟨hsource, htarget, hresources, hrelations⟩ := validateCandidate_ok_iff.mp hvalid
        obtain ⟨produced, hadd, h⟩ := bind_ok h
        obtain ⟨hfirst, rfl⟩ := addOutput_ok_iff.mp hadd
        obtain ⟨hadmits, hagree, rfl⟩ := gather_ok_iff.mp h
        refine ⟨?_, ⟨hfirst, hagree⟩, ?_⟩
        · intro x hx
          rcases List.mem_cons.mp hx with rfl | hx
          · exact ⟨hdistinct, hinputs, hsource, htarget, hresources, hrelations⟩
          · exact hadmits x hx
        · rw [Gathered.adding_cons]
          rfl
      · rintro ⟨hadmits, ⟨hfirst, hagree⟩, rfl⟩
        obtain ⟨hdistinct, hinputs, hsource, htarget, hresources, hrelations⟩ :=
          hadmits c List.mem_cons_self
        have hnormal : (checked c.normalize : Except (InferenceError StoreError) _) =
            .ok c.normalized :=
          checked_ok_iff.mpr (InferenceCandidate.normalize_ok_iff.mpr ⟨hdistinct, hinputs, rfl⟩)
        have hvalid := validateCandidate_ok_iff.mpr ⟨hsource, htarget, hresources, hrelations⟩
        have hadd : (addOutput acc.produced (outputOf digest rule at_ existing c) :
            Except (InferenceError StoreError) _) = _ := addOutput_ok_iff.mpr ⟨hfirst, rfl⟩
        rw [hnormal]
        show (validateCandidate s c.normalized >>= _) = _
        rw [hvalid]
        show (addOutput acc.produced (outputOf digest rule at_ existing c) >>= _) = _
        rw [hadd]
        refine gather_ok_iff.mpr ⟨fun x hx => hadmits x (List.mem_cons_of_mem _ hx), hagree, ?_⟩
        rw [Gathered.adding_cons]

/-! ## §3  Versions and changes -/

/-- The relations that differ from their stored rows. -/
def moved (existing : KeyedTable Relation.relationId) (relations : List Relation) :
    List Relation :=
  relations.filter fun r => decide (existing.get r.relationId ≠ some r)

/-- Every moved relation has its version and its change, in order. -/
theorem record_ok {existing : KeyedTable Relation.relationId} : ∀ {relations : List Relation}
    {versions : List RelationVersion} {changes : List Change},
    record digest at_ existing relations = .ok (versions, changes) →
      (moved existing relations).map (fun r => r.inferenceVersion digest at_) = versions.map .ok ∧
        (moved existing relations).map
          (fun r => r.inferenceChange (existing.get r.relationId) at_) = changes.map .ok
  | [], versions, changes, h => by
      cases h
      exact ⟨rfl, rfl⟩
  | r :: relations, versions, changes, h => by
      unfold record at h
      unfold moved
      by_cases hsame : existing.get r.relationId = some r
      · rw [if_pos hsame] at h
        rw [List.filter_cons_of_neg (by simpa using hsame)]
        exact record_ok h
      · rw [if_neg hsame] at h
        rw [List.filter_cons_of_pos (by simpa using hsame)]
        obtain ⟨version, hversion, h⟩ := bind_ok h
        obtain ⟨change, hchange, h⟩ := bind_ok h
        obtain ⟨⟨versions', changes'⟩, hrest, h⟩ := bind_ok h
        cases h
        obtain ⟨hversions, hchanges⟩ := record_ok hrest
        rw [List.map_cons, List.map_cons, List.map_cons, List.map_cons, hversion, hchange]
        exact ⟨congrArg _ hversions, congrArg _ hchanges⟩

/-- Results of a fallible map carry the keys of what they were made from. -/
theorem keys_of_map_ok {ε α β κ : Type} {f : α → Except ε β} {key : β → κ} {key' : α → κ}
    (hkey : ∀ a b, f a = .ok b → key b = key' a) : ∀ {as : List α} {bs : List β},
      as.map f = bs.map .ok → bs.map key = as.map key'
  | [], [], _ => rfl
  | [], _ :: _, h => by cases h
  | _ :: _, [], h => by cases h
  | a :: as, b :: bs, h => by
      rw [List.map_cons, List.map_cons, List.cons.injEq] at h
      rw [List.map_cons, List.map_cons, hkey a b h.1, keys_of_map_ok hkey h.2]

/-- What a version says of its relation. -/
theorem inferenceVersion_ok {r : Relation} {v : RelationVersion}
    (h : r.inferenceVersion digest at_ = .ok v) :
    v.relationVersionId = inferenceRelationVersionId r.relationId at_ ∧
      v.relationId = r.relationId ∧ v.observedAt = at_ ∧
        v.normalizedSnapshot = localSnapshot r := by
  obtain ⟨origin, _, rfl⟩ := map_ok h
  exact ⟨rfl, rfl, rfl, rfl⟩

theorem inferenceChange_ok {previous : Option Relation} {r : Relation} {c : Change}
    (h : r.inferenceChange previous at_ = .ok c) :
    c.changeId = inferenceChangeId r.relationId at_ ∧ c.subject = .relation r.relationId := by
  obtain ⟨origin, _, rfl⟩ := map_ok h
  exact ⟨rfl, rfl⟩

/-! ## §4  The run -/

end InferenceEngine

open InferenceEngine

/-- The relations the candidates stand for. -/
def Store.outputs (s : Store) (digest : Value → HexDigest) (rule : RuleVersion) (at_ : Timestamp)
    (cs : List InferenceCandidate) : List Relation :=
  cs.map (outputOf digest rule at_ (s.inferredBy rule))

/-- What the engine puts in the commit of a run. -/
structure InferencePlanned (digest : Value → HexDigest) (rule : RuleVersion) (at_ : Timestamp)
    (uuid : Uuid) (s : Store) (cs : List InferenceCandidate) (commit : InferenceCommit) : Prop where
  admits : ∀ c ∈ cs, s.Admits c.normalized
  agree : Agree .empty (s.outputs digest rule at_ cs)
  run : commit.run = runOf rule at_ uuid (Gathered.empty.adding (s.outputs digest rule at_ cs) cs)
  relations : commit.relations =
    outputRelations at_ (s.inferredBy rule).rows (KeyedTable.empty.putAll (s.outputs digest rule at_ cs))
  recorded : record digest at_ (s.inferredBy rule) commit.relations =
    .ok (commit.relationVersions, commit.changes)

namespace InferenceEngine

variable {digest : Value → HexDigest} {rule : RuleVersion} {at_ : Timestamp} {uuid : Uuid}
  {s s' : Store} {registered : List RuleVersion} {cs : List InferenceCandidate}

theorem requireRegistered_ok_iff {ε : Type} :
    (requireRegistered registered rule : Except (InferenceError ε) Unit) = .ok () ↔
      rule ∈ registered := by
  unfold requireRegistered
  by_cases h : rule ∈ registered <;> simp [h]

theorem requireWithinLimit_ok_iff {ε : Type} :
    (requireWithinLimit cs : Except (InferenceError ε) Unit) = .ok () ↔
      cs.length ≤ maxInferenceCandidates := by
  unfold requireWithinLimit
  by_cases h : cs.length > maxInferenceCandidates
  · rw [if_pos h]
    simp [h]
  · rw [if_neg h]
    simp [not_lt.mp h]

/-- A run plans a commit iff its rule is registered, its candidates are within the
limit, and the plan is the one the candidates give. -/
theorem commitFor_ok_iff {commit : InferenceCommit} :
    (commitFor digest rule at_ s registered cs uuid :
      Except (InferenceError StoreError) InferenceCommit) = .ok commit ↔
      rule ∈ registered ∧ cs.length ≤ maxInferenceCandidates ∧
        InferencePlanned digest rule at_ uuid s cs commit := by
  have hrows : (KeyedTable.empty.putAll (s.inferredRelationsForRule rule) :
      KeyedTable Relation.relationId) = s.inferredBy rule := KeyedTable.putAll_rows _
  unfold commitFor
  constructor
  · intro h
    obtain ⟨_, hregistered, h⟩ := bind_ok h
    obtain ⟨_, hlimit, h⟩ := bind_ok h
    obtain ⟨existing, hexisting, h⟩ := bind_ok h
    cases stored_ok_iff.mp hexisting
    obtain ⟨gathered, hgather, h⟩ := bind_ok h
    rw [hrows] at hgather h
    obtain ⟨hadmits, hagree, rfl⟩ := gather_ok_iff.mp hgather
    obtain ⟨⟨versions, changes⟩, hrecord, h⟩ := bind_ok h
    cases h
    exact ⟨requireRegistered_ok_iff.mp hregistered, requireWithinLimit_ok_iff.mp hlimit,
      hadmits, hagree, rfl, rfl, checked_ok_iff.mp hrecord⟩
  · rintro ⟨hregistered, hlimit, hadmits, hagree, hrun, hrelations, hrecorded⟩
    have hread : (stored (InferenceStore.inferredRelationsForRule s rule) :
        Except (InferenceError StoreError) _) = .ok (s.inferredRelationsForRule rule) := rfl
    have hgather : (gather digest rule at_ s (s.inferredBy rule) .empty cs :
        Except (InferenceError StoreError) Gathered) = _ :=
      gather_ok_iff.mpr ⟨hadmits, hagree, rfl⟩
    rw [hrelations] at hrecorded
    rw [requireRegistered_ok_iff.mpr hregistered]
    show (requireWithinLimit cs >>= _) = _
    rw [requireWithinLimit_ok_iff.mpr hlimit]
    show (gather digest rule at_ s (KeyedTable.empty.putAll (s.inferredRelationsForRule rule))
      .empty cs >>= _) = _
    rw [hrows, hgather]
    show (checked (record digest at_ (s.inferredBy rule) (outputRelations at_
      (s.inferredBy rule).rows (KeyedTable.empty.putAll (s.outputs digest rule at_ cs)))) >>= _) = _
    rw [checked_ok_iff.mpr hrecorded]
    cases commit
    cases hrun
    cases hrelations
    rfl

/-- A run that succeeds has planned its commit and had it accepted. -/
theorem run_ok_iff {r : InferenceRun} :
    (run digest rule at_ s registered cs uuid :
      Except (InferenceError StoreError) (InferenceRun × Store)) = .ok (r, s') ↔
      ∃ commit, (commitFor digest rule at_ s registered cs uuid :
          Except (InferenceError StoreError) InferenceCommit) = .ok commit ∧
        s.commitInference commit = .ok s' ∧ commit.run = r := by
  unfold run
  constructor
  · intro h
    obtain ⟨commit, hcommit, h⟩ := bind_ok h
    obtain ⟨store, hstore, h⟩ := bind_ok h
    cases h
    exact ⟨commit, hcommit, stored_ok_iff.mp hstore, rfl⟩
  · rintro ⟨commit, hcommit, hstore, rfl⟩
    rw [hcommit]
    show ((s.commitInference commit).mapError InferenceError.store >>= _) = _
    rw [hstore]
    rfl

end InferenceEngine

/-- What an accepted run did. -/
structure InferenceRan (digest : Value → HexDigest) (rule : RuleVersion) (at_ : Timestamp)
    (uuid : Uuid) (s : Store) (cs : List InferenceCandidate) (commit : InferenceCommit)
    (s' : Store) : Prop extends InferencePlanned digest rule at_ uuid s cs commit where
  effect : InferenceEffect s commit s'

theorem InferenceEngine.run_ok {digest : Value → HexDigest} {rule : RuleVersion} {at_ : Timestamp}
    {uuid : Uuid} {s s' : Store} {registered : List RuleVersion} {cs : List InferenceCandidate}
    {r : InferenceRun} (h : (run digest rule at_ s registered cs uuid :
      Except (InferenceError StoreError) (InferenceRun × Store)) = .ok (r, s')) :
    ∃ commit, InferenceRan digest rule at_ uuid s cs commit s' := by
  obtain ⟨commit, hcommit, hstore, _⟩ := run_ok_iff.mp h
  exact ⟨commit, (commitFor_ok_iff.mp hcommit).2.2, Store.commitInference_ok hstore⟩

/-! ## §5  The relations of a run -/

theorem Relation.inferredBy_iff {rule : RuleVersion} {r : Relation} :
    r.inferredBy rule = true ↔ ∃ vs ws confidence, r.evidence = .inferred rule vs ws confidence := by
  unfold Relation.inferredBy
  cases hevidence : r.evidence with
  | provider connectionId syncRunId fieldPath => simp
  | configured bindingId => simp
  | inferred ruleVersion vs ws confidence =>
      simp only [decide_eq_true_eq, RelationEvidence.inferred.injEq]
      constructor
      · rintro rfl
        exact ⟨vs, ws, confidence, rfl, rfl, rfl, rfl⟩
      · rintro ⟨_, _, _, rfl, _⟩
        rfl

theorem InferenceEngine.outputOf_inferredBy (digest : Value → HexDigest) (rule : RuleVersion)
    (at_ : Timestamp) (existing : KeyedTable Relation.relationId) (c : InferenceCandidate) :
    (outputOf digest rule at_ existing c).inferredBy rule = true :=
  Relation.inferredBy_iff.mpr ⟨_, _, _, rfl⟩

/-- An upsert carries over nothing but `first_seen_at`. -/
theorem Store.relationRule_row (t : KeyedTable Relation.relationId) (x : Relation) :
    ∃ firstSeenAt, Store.relationRule.row t x = { x with firstSeenAt := firstSeenAt } := by
  unfold UpsertRule.row
  split
  · exact ⟨_, rfl⟩
  · exact ⟨x.firstSeenAt, rfl⟩

namespace InferenceRan

variable {digest : Value → HexDigest} {rule : RuleVersion} {at_ : Timestamp} {uuid : Uuid}
  {s s' : Store} {cs : List InferenceCandidate} {commit : InferenceCommit}

theorem mem_produced (h : InferenceRan digest rule at_ uuid s cs commit s') {x : Relation} :
    x ∈ (KeyedTable.empty.putAll (s.outputs digest rule at_ cs) :
      KeyedTable Relation.relationId).rows ↔ x ∈ s.outputs digest rule at_ cs := by
  rw [KeyedTable.mem_putAll h.agree]
  simp

/-- The commit holds the outputs and the retired relations of the rule. -/
theorem mem_relations (h : InferenceRan digest rule at_ uuid s cs commit s') {x : Relation} :
    x ∈ commit.relations ↔ x ∈ s.outputs digest rule at_ cs ∨
      ∃ old ∈ (s.inferredBy rule).rows, old.lifecycle ≠ .tombstoned ∧
        (∀ o ∈ s.outputs digest rule at_ cs, o.relationId ≠ old.relationId) ∧
          x = retired at_ old := by
  rw [h.relations]
  unfold outputRelations
  rw [List.mem_insertionSort, List.mem_append, h.mem_produced, List.mem_map]
  have hretires : ∀ old, retires (KeyedTable.empty.putAll (s.outputs digest rule at_ cs)) old = true ↔
      (∀ o ∈ s.outputs digest rule at_ cs, o.relationId ≠ old.relationId) ∧
        old.lifecycle ≠ .tombstoned := by
    intro old
    unfold retires
    rw [Bool.and_eq_true, Option.isNone_iff_eq_none, KeyedTable.get_eq_none_iff, decide_eq_true_eq]
    simp only [h.mem_produced]
  constructor
  · rintro (hx | ⟨old, hold, rfl⟩)
    · exact Or.inl hx
    · obtain ⟨hmem, hret⟩ := List.mem_filter.mp hold
      obtain ⟨hnone, hlive⟩ := (hretires old).mp hret
      exact Or.inr ⟨old, hmem, hlive, hnone, rfl⟩
  · rintro (hx | ⟨old, hmem, hlive, hnone, rfl⟩)
    · exact Or.inl hx
    · exact Or.inr ⟨old, List.mem_filter.mpr ⟨hmem, (hretires old).mpr ⟨hnone, hlive⟩⟩, rfl⟩

theorem relationIds_nodup (h : InferenceRan digest rule at_ uuid s cs commit s') :
    (commit.relations.map Relation.relationId).Nodup := by
  rw [h.relations]
  unfold outputRelations
  have hperm := (List.perm_insertionSort (fun a b : Relation => a.relationId ≤ b.relationId)
    ((KeyedTable.empty.putAll (s.outputs digest rule at_ cs) :
      KeyedTable Relation.relationId).rows ++
      ((s.inferredBy rule).rows.filter (retires
        (KeyedTable.empty.putAll (s.outputs digest rule at_ cs)))).map (retired at_)))
  rw [(hperm.map Relation.relationId).nodup_iff, List.map_append, List.map_map]
  refine List.Nodup.append (KeyedTable.keys_nodup _) ?_ ?_
  · -- retiring keeps the id
    show (((s.inferredBy rule).rows.filter _).map Relation.relationId).Nodup
    exact (s.inferredBy rule).keys_nodup.sublist (List.filter_sublist.map _)
  · intro id hid hid'
    obtain ⟨x, hx, rfl⟩ := List.mem_map.mp hid
    obtain ⟨old, hold, hsame⟩ := List.mem_map.mp hid'
    have hret := (List.mem_filter.mp hold).2
    unfold retires at hret
    rw [Bool.and_eq_true, Option.isNone_iff_eq_none, KeyedTable.get_eq_none_iff] at hret
    exact hret.1 x hx hsame.symm

/-- Every relation of the commit is the rule's. -/
theorem relations_inferredBy (h : InferenceRan digest rule at_ uuid s cs commit s') {x : Relation}
    (hx : x ∈ commit.relations) : x.inferredBy rule = true := by
  rcases h.mem_relations.mp hx with hout | ⟨old, hold, _, _, rfl⟩
  · obtain ⟨c, _, rfl⟩ := List.mem_map.mp hout
    exact outputOf_inferredBy _ _ _ _ c
  · exact (KeyedTable.mem_keep.mp hold).2

/-- A relation of the commit is stored, with the `first_seen_at` its id has
already. -/
theorem get_relation (h : InferenceRan digest rule at_ uuid s cs commit s') {x : Relation}
    (hx : x ∈ commit.relations) :
    s'.relations.get x.relationId = some (Store.relationRule.row s.relations x) := by
  obtain ⟨outputs, rfl⟩ := h.effect.eq
  exact Store.relationRule.get_applyAll_of_nodup h.relationIds_nodup hx

/-- The commit touches no other id. -/
theorem get_other (h : InferenceRan digest rule at_ uuid s cs commit s') {id : RelationId}
    (hid : ∀ x ∈ commit.relations, x.relationId ≠ id) :
    s'.relations.get id = s.relations.get id := by
  obtain ⟨outputs, rfl⟩ := h.effect.eq
  exact Store.relationRule.get_applyAll_of_not_mem hid

/-- A relation whose id is new or the rule's is stored as the commit has it. -/
theorem get_known (h : InferenceRan digest rule at_ uuid s cs commit s') {x : Relation}
    (hx : x ∈ commit.relations)
    (hknown : ∀ old, s.relations.get x.relationId = some old → old.inferredBy rule = true) :
    s'.relations.get x.relationId = some x := by
  rw [h.get_relation hx]
  unfold UpsertRule.row
  cases hold : s.relations.get x.relationId with
  | none => rfl
  | some old =>
      have hmem : (s.inferredBy rule).get x.relationId = some old := by
        unfold Store.inferredBy
        rw [KeyedTable.get_keep, hold, Option.filter_some, if_pos (hknown old hold)]
      have hfirst : x.firstSeenAt = old.firstSeenAt := by
        rcases h.mem_relations.mp hx with hout | ⟨old', hold', _, _, rfl⟩
        · obtain ⟨c, _, rfl⟩ := List.mem_map.mp hout
          show ((s.inferredBy rule).get (outputOf digest rule at_ (s.inferredBy rule) c).relationId
            |>.map Relation.firstSeenAt).getD at_ = old.firstSeenAt
          rw [hmem]
          rfl
        · change (s.inferredBy rule).get old'.relationId = some old at hmem
          rw [KeyedTable.get_of_mem hold'] at hmem
          cases hmem
          rfl
      show some { x with firstSeenAt := old.firstSeenAt } = some x
      rw [← hfirst]

/-! ## §6  The history of a run -/

/-- Each version of the commit is of a relation that moved, and stamped with its id
and the time. -/
theorem mem_versions (h : InferenceRan digest rule at_ uuid s cs commit s') {v : RelationVersion}
    (hv : v ∈ commit.relationVersions) :
    ∃ r ∈ commit.relations, (s.inferredBy rule).get r.relationId ≠ some r ∧
      r.inferenceVersion digest at_ = .ok v := by
  have hmem : (Except.ok v : Except DomainError _) ∈ commit.relationVersions.map .ok :=
    List.mem_map.mpr ⟨v, hv, rfl⟩
  rw [← (record_ok h.recorded).1] at hmem
  obtain ⟨r, hr, hversion⟩ := List.mem_map.mp hmem
  obtain ⟨hr, hmoved⟩ := List.mem_filter.mp hr
  exact ⟨r, hr, by simpa using hmoved, hversion⟩

theorem mem_changes (h : InferenceRan digest rule at_ uuid s cs commit s') {c : Change}
    (hc : c ∈ commit.changes) :
    ∃ r ∈ commit.relations, (s.inferredBy rule).get r.relationId ≠ some r ∧
      r.inferenceChange ((s.inferredBy rule).get r.relationId) at_ = .ok c := by
  have hmem : (Except.ok c : Except DomainError _) ∈ commit.changes.map .ok :=
    List.mem_map.mpr ⟨c, hc, rfl⟩
  rw [← (record_ok h.recorded).2] at hmem
  obtain ⟨r, hr, hchange⟩ := List.mem_map.mp hmem
  obtain ⟨hr, hmoved⟩ := List.mem_filter.mp hr
  exact ⟨r, hr, by simpa using hmoved, hchange⟩

/-- Each relation that moved has its version and its change in the commit. -/
theorem recorded_of_moved (h : InferenceRan digest rule at_ uuid s cs commit s') {r : Relation}
    (hr : r ∈ commit.relations) (hmoved : (s.inferredBy rule).get r.relationId ≠ some r) :
    (∃ v ∈ commit.relationVersions, r.inferenceVersion digest at_ = .ok v) ∧
      ∃ c ∈ commit.changes,
        r.inferenceChange ((s.inferredBy rule).get r.relationId) at_ = .ok c := by
  have hmem : r ∈ moved (s.inferredBy rule) commit.relations :=
    List.mem_filter.mpr ⟨hr, by simpa using hmoved⟩
  obtain ⟨hversions, hchanges⟩ := record_ok h.recorded
  constructor
  · have hv := List.mem_map_of_mem (f := fun r => r.inferenceVersion digest at_) hmem
    rw [hversions] at hv
    obtain ⟨v, hv, hversion⟩ := List.mem_map.mp hv
    exact ⟨v, hv, hversion.symm⟩
  · have hc := List.mem_map_of_mem
      (f := fun r => r.inferenceChange ((s.inferredBy rule).get r.relationId) at_) hmem
    rw [hchanges] at hc
    obtain ⟨c, hc, hchange⟩ := List.mem_map.mp hc
    exact ⟨c, hc, hchange.symm⟩

/-- The relations that moved have distinct ids. -/
theorem moved_nodup (h : InferenceRan digest rule at_ uuid s cs commit s') :
    ((moved (s.inferredBy rule) commit.relations).map Relation.relationId).Nodup :=
  h.relationIds_nodup.sublist (List.filter_sublist.map _)

theorem versionIds_nodup (h : InferenceRan digest rule at_ uuid s cs commit s') :
    (commit.relationVersions.map RelationVersion.relationVersionId).Nodup := by
  rw [keys_of_map_ok (fun _ _ hv => (inferenceVersion_ok hv).1) (record_ok h.recorded).1]
  have hids := h.moved_nodup.map (f := fun id => inferenceRelationVersionId id at_)
    fun _ _ hsame => (stamped_eq_iff.mp hsame).1
  rw [List.map_map] at hids
  exact hids

theorem changeIds_nodup (h : InferenceRan digest rule at_ uuid s cs commit s') :
    (commit.changes.map Change.changeId).Nodup := by
  rw [keys_of_map_ok (fun _ _ hc => (inferenceChange_ok hc).1) (record_ok h.recorded).2]
  have hids := h.moved_nodup.map (f := fun id => inferenceChangeId id at_)
    fun _ _ hsame => (stamped_eq_iff.mp hsame).1
  rw [List.map_map] at hids
  exact hids

end InferenceRan

end NextInfra
