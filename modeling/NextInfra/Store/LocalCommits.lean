import NextInfra.Store.Commit

/-!
# The projection store: binding and inference commits

`commit_binding` and `commit_inference` write relations of their own evidence
type together with the versions and changes of the same step. Both end in an
`UPDATE` of the revision; the singleton row it updates is inserted by a migration
and deleted by nothing.

`BindingEffect` and `InferenceEffect` say once what an accepted commit does: the
whole store after it is written out, so everything they do not name is as it was.
-/

namespace NextInfra

namespace Store

/-! ## §1  Rows -/

/-- `ON CONFLICT(binding_id) DO UPDATE`: every column but `created_at` is taken
from the new row. -/
def bindingRule : UpsertRule Binding.bindingId Unit where
  ident := fun _ => ()
  carry := fun old new => { new with createdAt := old.createdAt }
  key_carry := fun _ _ => rfl
  ident_carry := fun _ _ => rfl

def upsertBinding (s : Store) (b : Binding) : Except StoreError Store :=
  if (s.resources.get b.sourceResourceId).isNone ∨ (s.resources.get b.targetResourceId).isNone then
    .error (.sqlite .foreignKey)
  else .ok { s with bindings := bindingRule.apply s.bindings b }

def insertInferenceRun (s : Store) (run : InferenceRun) : Except StoreError Store :=
  if (s.inferenceRuns.get run.inferenceRunId).isSome then .error (.sqlite .primaryKey)
  else .ok { s with inferenceRuns := s.inferenceRuns.put run }

/-- The evidence key of an output: that of the relation in the same commit. -/
def outputKey (commit : InferenceCommit) (relationId : RelationId) : Except StoreError EvidenceKey :=
  match commit.relations.find? (fun relation => decide (relation.relationId = relationId)) with
  | some relation => .ok relation.evidenceKey
  | none => .error (.contract "inference output relation is missing from the commit")

def insertInferenceOutput (commit : InferenceCommit) (s : Store) (relationId : RelationId) :
    Except StoreError Store :=
  match outputKey commit relationId with
  | .error e => .error e
  | .ok evidenceKey =>
      let output : InferenceOutput :=
        { inferenceRunId := commit.run.inferenceRunId
          relationId := relationId
          evidenceKey := evidenceKey }
      if (s.inferenceOutputs.get output.key).isSome then .error (.sqlite .primaryKey)
      else if (s.inferenceRuns.get output.inferenceRunId).isNone ∨
          (s.relations.get relationId).isNone then .error (.sqlite .foreignKey)
      else .ok { s with inferenceOutputs := s.inferenceOutputs.put output }

/-! ## §2  The transactions -/

def commitBinding (s : Store) (commit : BindingCommit) : Except StoreError Store := do
  let s ← s.upsertBinding commit.binding
  let s ← upsertEach upsertRelation s commit.relations
  let (s, _) ← insertEach insertRelationVersion s commit.relationVersions
  let (s, _) ← insertEach insertChange s commit.changes
  return s.bump

def commitInference (s : Store) (commit : InferenceCommit) : Except StoreError Store := do
  let s ← s.insertInferenceRun commit.run
  let s ← upsertEach upsertRelation s commit.relations
  let (s, _) ← insertEach insertRelationVersion s commit.relationVersions
  let (s, _) ← insertEach insertChange s commit.changes
  let s ← upsertEach (insertInferenceOutput commit) s commit.run.outputRelationIds
  return s.bump

end Store

/-! ## §3  What an accepted commit does -/

/-- The effect of an accepted binding commit. -/
structure BindingEffect (s : Store) (c : BindingCommit) (s' : Store) : Prop where
  source : (s.resources.get c.binding.sourceResourceId).isSome
  target : (s.resources.get c.binding.targetResourceId).isSome
  relationsFit : Store.relationRule.FitsAll s.relations c.relations
  eq : s' = { s with
    bindings := Store.bindingRule.apply s.bindings c.binding
    relations := Store.relationRule.applyAll s.relations c.relations
    relationVersions := s.relationVersions.insertNewAll c.relationVersions
    changes := s.changes.insertNewAll c.changes
    committedRevision := s.committedRevision + 1 }

/-- The effect of an accepted inference commit; `outputs` is the table with the
run's outputs in it. -/
structure InferenceEffect (s : Store) (c : InferenceCommit) (s' : Store) : Prop where
  unrun : s.inferenceRuns.get c.run.inferenceRunId = none
  relationsFit : Store.relationRule.FitsAll s.relations c.relations
  eq : ∃ outputs, s' = { s with
    inferenceRuns := s.inferenceRuns.put c.run
    inferenceOutputs := outputs
    relations := Store.relationRule.applyAll s.relations c.relations
    relationVersions := s.relationVersions.insertNewAll c.relationVersions
    changes := s.changes.insertNewAll c.changes
    committedRevision := s.committedRevision + 1 }

namespace Store

theorem upsertBinding_ok {s s' : Store} {b : Binding} (h : s.upsertBinding b = .ok s') :
    (s.resources.get b.sourceResourceId).isSome ∧ (s.resources.get b.targetResourceId).isSome ∧
      s' = { s with bindings := bindingRule.apply s.bindings b } := by
  unfold upsertBinding at h
  split at h
  · cases h
  · rename_i hends
    rw [not_or] at hends
    refine ⟨?_, ?_, (Except.ok.inj h).symm⟩
    · simpa [Option.isSome_iff_ne_none] using hends.1
    · simpa [Option.isSome_iff_ne_none] using hends.2

theorem insertInferenceOutput_ok {commit : InferenceCommit} {s s' : Store} {id : RelationId}
    (h : insertInferenceOutput commit s id = .ok s') :
    ∃ outputs, s' = { s with inferenceOutputs := outputs } := by
  unfold insertInferenceOutput at h
  split at h
  · cases h
  · simp only at h
    split at h
    · cases h
    · split at h
      · cases h
      · cases h
        exact ⟨_, rfl⟩

theorem insertInferenceOutputs_ok {commit : InferenceCommit} : ∀ {ids : List RelationId}
    {s s' : Store}, upsertEach (insertInferenceOutput commit) s ids = .ok s' →
      ∃ outputs, s' = { s with inferenceOutputs := outputs }
  | [], s, s', h => by
      cases h
      exact ⟨s.inferenceOutputs, rfl⟩
  | id :: ids, s, s', h => by
      unfold upsertEach at h
      cases hid : insertInferenceOutput commit s id with
      | error e => simp [hid] at h
      | ok s₁ =>
          simp only [hid] at h
          obtain ⟨_, rfl⟩ := insertInferenceOutput_ok hid
          obtain ⟨outputs, rfl⟩ := insertInferenceOutputs_ok h
          exact ⟨outputs, rfl⟩

theorem commitBinding_ok {s s' : Store} {c : BindingCommit} (h : s.commitBinding c = .ok s') :
    BindingEffect s c s' := by
  unfold commitBinding at h
  obtain ⟨s₁, h₁, h⟩ := bind_ok h
  obtain ⟨s₂, h₂, h⟩ := bind_ok h
  obtain ⟨⟨s₃, _⟩, h₃, h⟩ := bind_ok h
  obtain ⟨⟨s₄, _⟩, h₄, h⟩ := bind_ok h
  obtain ⟨hsource, htarget, rfl⟩ := upsertBinding_ok h₁
  obtain ⟨hfit, rfl⟩ := upsertRelations_ok h₂
  obtain ⟨rfl, _⟩ := insertRelationVersions_ok h₃
  obtain ⟨rfl, _⟩ := insertChanges_ok h₄
  cases h
  exact ⟨hsource, htarget, hfit, rfl⟩

theorem commitInference_ok {s s' : Store} {c : InferenceCommit} (h : s.commitInference c = .ok s') :
    InferenceEffect s c s' := by
  unfold commitInference at h
  obtain ⟨s₁, h₁, h⟩ := bind_ok h
  obtain ⟨s₂, h₂, h⟩ := bind_ok h
  obtain ⟨⟨s₃, _⟩, h₃, h⟩ := bind_ok h
  obtain ⟨⟨s₄, _⟩, h₄, h⟩ := bind_ok h
  obtain ⟨s₅, h₅, h⟩ := bind_ok h
  unfold insertInferenceRun at h₁
  split at h₁
  · cases h₁
  rename_i hunrun
  cases h₁
  obtain ⟨hfit, rfl⟩ := upsertRelations_ok h₂
  obtain ⟨rfl, _⟩ := insertRelationVersions_ok h₃
  obtain ⟨rfl, _⟩ := insertChanges_ok h₄
  obtain ⟨outputs, rfl⟩ := insertInferenceOutputs_ok h₅
  cases h
  exact ⟨by simpa using hunrun, hfit, outputs, rfl⟩

end Store

end NextInfra
