import NextInfra.Core.LocalRelation
import NextInfra.Store.LocalCommits
import NextInfra.Sync.Plan

/-!
# The inference engine

`InferenceEngine::run` materializes the candidates of one rule: it normalizes and
validates each, builds the relation it stands for, retires the rule's other
relations and commits the lot with a version and a change for every relation that
differs from its stored row.

`uuid` and the digest of a value are third-party code and stand as arguments.
-/

namespace NextInfra

/-! ## §1  Ports and errors -/

/-- `MAX_INFERENCE_CANDIDATES`. -/
def maxInferenceCandidates : Nat := 1000

structure InferenceCandidate where
  sourceResourceId : ResourceId
  targetResourceId : ResourceId
  kind : RelationKind
  inputResourceVersionIds : List ResourceVersionId
  inputRelationVersionIds : List RelationVersionId
  confidence : Confidence
deriving DecidableEq

inductive InferenceError (ε : Type)
  | store (error : ε)
  | invalid (error : DomainError)
  | ruleNotRegistered
  | inputVersionMissing
  | candidateLimit
  | conflictingOutput
deriving DecidableEq

/-- The `InferenceStore` methods the engine calls. A commit that fails leaves the
store as it was. -/
class InferenceStore (σ : Type) (ε : outParam Type) extends StoreReader σ ε where
  resourceVersionExists : σ → ResourceVersionId → Except ε Bool
  relationVersionExists : σ → RelationVersionId → Except ε Bool
  inferredRelationsForRule : σ → RuleVersion → Except ε (List Relation)
  commitInference : σ → InferenceCommit → Except ε σ

/-- `json_extract(evidence_json, '$.rule_version') = ?`, of inferred evidence. -/
def Relation.inferredBy (rule : RuleVersion) (r : Relation) : Bool :=
  match r.evidence with
  | .inferred ruleVersion _ _ _ => decide (ruleVersion = rule)
  | _ => false

namespace Store

def resourceVersionExists (s : Store) (id : ResourceVersionId) : Bool :=
  (s.resourceVersions.get id).isSome

def relationVersionExists (s : Store) (id : RelationVersionId) : Bool :=
  (s.relationVersions.get id).isSome

/-- The table of the rule's relations. -/
def inferredBy (s : Store) (rule : RuleVersion) : KeyedTable Relation.relationId :=
  s.relations.keep (Relation.inferredBy rule)

/-- `ORDER BY relation_id` is the row order of the table. -/
def inferredRelationsForRule (s : Store) (rule : RuleVersion) : List Relation :=
  (s.inferredBy rule).rows

end Store

instance : InferenceStore Store StoreError where
  resourceVersionExists s id := .ok (s.resourceVersionExists id)
  relationVersionExists s id := .ok (s.relationVersionExists id)
  inferredRelationsForRule s rule := .ok (s.inferredRelationsForRule rule)
  commitInference := Store.commitInference

/-! ## §2  Candidates -/

namespace InferenceCandidate

/-- The candidate with its input ids sorted and without repeats. -/
def normalized (c : InferenceCandidate) : InferenceCandidate :=
  { c with
    inputResourceVersionIds := OrderedSet.sorted c.inputResourceVersionIds
    inputRelationVersionIds := OrderedSet.sorted c.inputRelationVersionIds }

/-- The candidate names a version it is inferred from. -/
def hasInputs (c : InferenceCandidate) : Bool :=
  !(c.inputResourceVersionIds.isEmpty && c.inputRelationVersionIds.isEmpty)

/-- `normalize_candidate`. -/
def normalize (c : InferenceCandidate) : Except DomainError InferenceCandidate :=
  if c.sourceResourceId = c.targetResourceId then
    .error (.invalidValue "inference source and target must be different")
  else if c.normalized.hasInputs then .ok c.normalized
  else .error (.invalidValue "inference requires versioned inputs")

/-- What `candidate_digest` hashes. -/
def digested (rule : RuleVersion) (c : InferenceCandidate) : Value :=
  .mkObject [("rule_version", .string rule.val),
    ("source_resource_id", .string c.sourceResourceId.val),
    ("target_resource_id", .string c.targetResourceId.val), ("kind", .string c.kind.val),
    ("input_resource_version_ids", .array (c.inputResourceVersionIds.map fun v => .string v.val)),
    ("input_relation_version_ids", .array (c.inputRelationVersionIds.map fun v => .string v.val))]

section

variable (digest : Value → HexDigest) (rule : RuleVersion) (c : InferenceCandidate)

/-- `candidate_digest`. -/
def digestOf : HexDigest := digest (c.digested rule)

/-- `candidate_relation_id`. -/
def relationId : RelationId where
  val := "inferred-relation:" ++ (c.digestOf digest rule).text
  trimmed := trimmed_of_visible ⟨'i', _, rfl, by decide⟩ (c.digestOf digest rule).endsVisible

/-- `candidate_evidence_key`. -/
def evidenceKey : EvidenceKey where
  val := "inference:" ++ (c.digestOf digest rule).text
  trimmed := trimmed_of_visible ⟨'i', _, rfl, by decide⟩ (c.digestOf digest rule).endsVisible

/-- The evidence a candidate gives its relation. -/
def evidence : RelationEvidence :=
  .inferred rule c.inputResourceVersionIds c.inputRelationVersionIds c.confidence

/-- `inferred_relation`. -/
def inferredRelation (at_ : Timestamp) (existing : Option Relation) : Relation where
  relationId := c.relationId digest rule
  sourceResourceId := c.sourceResourceId
  targetResourceId := c.targetResourceId
  kind := c.kind
  evidenceKey := c.evidenceKey digest rule
  evidence := c.evidence rule
  firstSeenAt := (existing.map Relation.firstSeenAt).getD at_
  lastSeenAt := at_
  lifecycle := .active

end

end InferenceCandidate

/-! ## §3  Versions and changes -/

/-- `inference_origin`. -/
def inferenceOrigin : RelationEvidence → Except DomainError OriginRef
  | .inferred rule resourceInputs relationInputs _ =>
      .ok (.inference rule resourceInputs relationInputs)
  | _ => .error (.invalidValue "inference output has non-inferred evidence")

/-- The id of the inferred version of a relation at a time. -/
def inferenceRelationVersionId (id : RelationId) (at_ : Timestamp) : RelationVersionId :=
  stamped "inference-relation-version" ⟨'i', _, rfl, by decide⟩ id at_

def inferenceChangeId (id : RelationId) (at_ : Timestamp) : ChangeId :=
  stamped "inference-change" ⟨'i', _, rfl, by decide⟩ id at_

/-- `inference-run:v1:{uuid}`. -/
def inferenceRunIdOf (uuid : Uuid) : InferenceRunId where
  val := "inference-run:v1:" ++ uuid.text
  trimmed := trimmed_of_visible ⟨'i', _, rfl, by decide⟩ uuid.endsVisible

/-- `sha256:{digest}`. -/
def fingerprintOf (digest : Value → HexDigest) (value : Value) : Fingerprint where
  val := "sha256:" ++ (digest value).text
  trimmed := trimmed_of_visible ⟨'s', _, rfl, by decide⟩ (digest value).endsVisible

def FieldPath.relationSnapshot : FieldPath := ⟨"relation.snapshot", by decide⟩

namespace Relation

variable (digest : Value → HexDigest)

/-- `relation_version`. -/
def inferenceVersion (r : Relation) (at_ : Timestamp) : Except DomainError RelationVersion :=
  (inferenceOrigin r.evidence).map fun origin =>
    { relationVersionId := inferenceRelationVersionId r.relationId at_
      relationId := r.relationId
      observedAt := at_
      normalizedSnapshot := localSnapshot r
      fingerprint := fingerprintOf digest (localSnapshot r)
      schemaVersion := .one
      origin := origin }

/-- `relation_change`. -/
def inferenceChange (previous : Option Relation) (r : Relation) (at_ : Timestamp) :
    Except DomainError Change :=
  (inferenceOrigin r.evidence).map fun origin =>
    { changeId := inferenceChangeId r.relationId at_
      subject := .relation r.relationId
      observedAt := at_
      fields :=
        [{ path := FieldPath.relationSnapshot
           before := previous.map localSnapshot
           after := some (localSnapshot r) }]
      origin := origin }

end Relation

/-! ## §4  The run -/

namespace InferenceEngine

/-- What the loop over the candidates has collected. -/
structure Gathered where
  produced : KeyedTable Relation.relationId
  resourceInputs : OrderedSet ResourceVersionId
  relationInputs : OrderedSet RelationVersionId

def Gathered.empty : Gathered where
  produced := .empty
  resourceInputs := .empty
  relationInputs := .empty

section

variable {ε : Type}

/-- `.map_err(InferenceError::Store)?`. -/
def stored {α : Type} (result : Except ε α) : Except (InferenceError ε) α := result.mapError .store

/-- `.map_err(InferenceError::Invalid)?`. -/
def checked {α : Type} (result : Except DomainError α) : Except (InferenceError ε) α :=
  result.mapError .invalid

def requireRegistered (registered : List RuleVersion) (rule : RuleVersion) :
    Except (InferenceError ε) Unit :=
  if rule ∈ registered then .ok () else .error .ruleNotRegistered

def requireWithinLimit (candidates : List InferenceCandidate) : Except (InferenceError ε) Unit :=
  if candidates.length > maxInferenceCandidates then .error .candidateLimit else .ok ()

/-- Stored and active. -/
def requireActive (resource : Option Resource) : Except (InferenceError ε) Unit :=
  if resource.any fun r => decide (r.lifecycle = .active) then .ok ()
  else .error .inputVersionMissing

/-- Every id of the list exists. -/
def requireEach {κ : Type} (exists_ : κ → Except ε Bool) : List κ → Except (InferenceError ε) Unit
  | [] => .ok ()
  | id :: ids => do
      let found ← stored (exists_ id)
      if found then requireEach exists_ ids else .error .inputVersionMissing

/-- The produced relations with one more; a second one under its id must be the
same. -/
def addOutput (produced : KeyedTable Relation.relationId) (r : Relation) :
    Except (InferenceError ε) (KeyedTable Relation.relationId) :=
  match produced.get r.relationId with
  | some previous => if previous = r then .ok produced else .error .conflictingOutput
  | none => .ok (produced.put r)

end

section

variable {σ ε : Type} [InferenceStore σ ε]

/-- `validate_candidate`. -/
def validateCandidate (store : σ) (c : InferenceCandidate) : Except (InferenceError ε) Unit := do
  let source ← stored (StoreReader.getResource store c.sourceResourceId)
  let target ← stored (StoreReader.getResource store c.targetResourceId)
  requireActive source
  requireActive target
  requireEach (InferenceStore.resourceVersionExists store) c.inputResourceVersionIds
  requireEach (InferenceStore.relationVersionExists store) c.inputRelationVersionIds

variable (digest : Value → HexDigest) (rule : RuleVersion) (at_ : Timestamp)

/-- The loop over the candidates. -/
def gather (store : σ) (existing : KeyedTable Relation.relationId) :
    Gathered → List InferenceCandidate → Except (InferenceError ε) Gathered
  | acc, [] => .ok acc
  | acc, c :: cs => do
      let c ← checked c.normalize
      validateCandidate store c
      let relation := c.inferredRelation digest rule at_ (existing.get (c.relationId digest rule))
      let produced ← addOutput acc.produced relation
      gather store existing
        { produced := produced
          resourceInputs := acc.resourceInputs.putAll c.inputResourceVersionIds
          relationInputs := acc.relationInputs.putAll c.inputRelationVersionIds } cs

/-- A stored relation that no candidate stands for, unless it is retired already. -/
def retires (produced : KeyedTable Relation.relationId) (old : Relation) : Bool :=
  (produced.get old.relationId).isNone && decide (old.lifecycle ≠ .tombstoned)

/-- The row a retired relation leaves. -/
def retired (old : Relation) : Relation :=
  { old with lifecycle := .tombstoned, lastSeenAt := at_ }

/-- The relations of the commit, by id: those produced, and those retired. -/
def outputRelations (existing : List Relation) (produced : KeyedTable Relation.relationId) :
    List Relation :=
  (produced.rows ++ (existing.filter (retires produced)).map (retired at_)).insertionSort
    fun a b => a.relationId ≤ b.relationId

/-- A version and a change for every relation that differs from its stored row. -/
def record (existing : KeyedTable Relation.relationId) :
    List Relation → Except DomainError (List RelationVersion × List Change)
  | [] => .ok ([], [])
  | r :: rs =>
      if existing.get r.relationId = some r then record existing rs
      else do
        let version ← r.inferenceVersion digest at_
        let change ← r.inferenceChange (existing.get r.relationId) at_
        let (versions, changes) ← record existing rs
        return (version :: versions, change :: changes)

/-- The finished run. -/
def runOf (uuid : Uuid) (gathered : Gathered) : InferenceRun where
  inferenceRunId := inferenceRunIdOf uuid
  ruleVersion := rule
  startedAt := at_
  finishedAt := some at_
  status := .completed
  inputResourceVersionIds := gathered.resourceInputs.rows
  inputRelationVersionIds := gathered.relationInputs.rows
  outputRelationIds := gathered.produced.rows.map Relation.relationId

/-- The commit a run hands to the store. -/
def commitFor (store : σ) (registered : List RuleVersion) (candidates : List InferenceCandidate)
    (uuid : Uuid) : Except (InferenceError ε) InferenceCommit := do
  requireRegistered registered rule
  requireWithinLimit candidates
  let existing ← stored (InferenceStore.inferredRelationsForRule store rule)
  let existingById := KeyedTable.empty.putAll existing
  let gathered ← gather digest rule at_ store existingById .empty candidates
  let relations := outputRelations at_ existing gathered.produced
  let (versions, changes) ← checked (record digest at_ existingById relations)
  return { run := runOf rule at_ uuid gathered
           relations := relations
           relationVersions := versions
           changes := changes }

/-- `InferenceEngine::run`. -/
def run (store : σ) (registered : List RuleVersion) (candidates : List InferenceCandidate)
    (uuid : Uuid) : Except (InferenceError ε) (InferenceRun × σ) := do
  let commit ← commitFor digest rule at_ store registered candidates uuid
  let store ← stored (InferenceStore.commitInference store commit)
  return (commit.run, store)

end

end InferenceEngine

end NextInfra
