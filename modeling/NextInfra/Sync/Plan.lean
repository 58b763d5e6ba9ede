import NextInfra.Store.Commit
import NextInfra.Sync.Project

/-!
# Planning a commit

`SyncEngine::build_commit`. The source pushes into six vectors while it walks
the batch; here each item contributes a `Plan` of its own and a walk appends the
contributions in order. §2 to §4 are the three walks (resources, relations,
absent resources), generic in the store they read; §5 assembles the commit.
-/

namespace NextInfra

/-! ## §1  The store the engine reads -/

/-- The `StoreReader` methods the engine calls. -/
class StoreReader (σ : Type) (ε : outParam Type) where
  getResource : σ → ResourceId → Except ε (Option Resource)
  getRelation : σ → RelationId → Except ε (Option Relation)
  latestRelationVersionFingerprint : σ → RelationId → Except ε (Option Fingerprint)
  syncCursor : σ → ConnectionId → Except ε (Option SyncCursor)
  missingEvidenceState : σ → ConnectionId → Scope → Except ε (Option MissingEvidenceState)
  listResourcesForScope : σ → ConnectionId → Scope → Except ε (List Resource)

/-- The `StoreWriter` methods the engine calls. A method that fails leaves the
store as it was. -/
class StoreWriter (σ : Type) (ε : outParam Type) where
  startSyncRun : σ → SyncRun → Except ε σ
  commitSync : σ → SyncCommit → Except ε (CommitResult × σ)
  markRunningSyncsInterrupted : σ → Timestamp → Except ε (Nat × σ)

instance : StoreReader Store StoreError where
  getResource s id := .ok (s.getResource id)
  getRelation s id := .ok (s.getRelation id)
  latestRelationVersionFingerprint s id := .ok (s.latestRelationVersionFingerprint id)
  syncCursor s id := .ok (s.syncCursor id)
  missingEvidenceState s id scope := .ok (s.missingEvidenceState id scope)
  listResourcesForScope s id scope := .ok (s.listResourcesForScope id scope)

instance : StoreWriter Store StoreError where
  startSyncRun := Store.startSyncRun
  commitSync := Store.commitSync
  markRunningSyncsInterrupted s at_ := .ok (s.markRunningSyncsInterrupted at_)

inductive SyncEngineError (ε : Type)
  | store (error : ε)
  | domain (error : DomainError)
  | invalidRun (message : String)
  | missingResource (id : ResourceId)
deriving DecidableEq

/-- `.map_err(SyncEngineError::Store)?`. -/
def storeRead {ε α : Type} : Except ε α → Except (SyncEngineError ε) α
  | .ok a => .ok a
  | .error e => .error (.store e)

/-! ## §2  Contributions -/

/-- What one item, or a walk over many, adds to the commit. -/
structure Plan where
  resources : List Resource := []
  resourceVersions : List ResourceVersion := []
  relations : List Relation := []
  relationVersions : List RelationVersion := []
  changes : List Change := []
  created : Nat := 0
  updated : Nat := 0
  unchanged : Nat := 0

namespace Plan

def append (p q : Plan) : Plan where
  resources := p.resources ++ q.resources
  resourceVersions := p.resourceVersions ++ q.resourceVersions
  relations := p.relations ++ q.relations
  relationVersions := p.relationVersions ++ q.relationVersions
  changes := p.changes ++ q.changes
  created := p.created + q.created
  updated := p.updated + q.updated
  unchanged := p.unchanged + q.unchanged

/-- The contributions of a walk, in order. -/
def concat : List Plan → Plan
  | [] => {}
  | p :: ps => p.append (concat ps)

@[simp] theorem concat_nil : concat [] = {} := rfl

@[simp] theorem concat_cons (p : Plan) (ps : List Plan) : concat (p :: ps) = p.append (concat ps) :=
  rfl

theorem concat_resources (ps : List Plan) :
    (concat ps).resources = ps.flatMap Plan.resources := by
  induction ps with
  | nil => rfl
  | cons p ps ih => simp [append, ih]

theorem concat_resourceVersions (ps : List Plan) :
    (concat ps).resourceVersions = ps.flatMap Plan.resourceVersions := by
  induction ps with
  | nil => rfl
  | cons p ps ih => simp [append, ih]

theorem concat_relations (ps : List Plan) :
    (concat ps).relations = ps.flatMap Plan.relations := by
  induction ps with
  | nil => rfl
  | cons p ps ih => simp [append, ih]

theorem concat_relationVersions (ps : List Plan) :
    (concat ps).relationVersions = ps.flatMap Plan.relationVersions := by
  induction ps with
  | nil => rfl
  | cons p ps ih => simp [append, ih]

theorem concat_changes (ps : List Plan) :
    (concat ps).changes = ps.flatMap Plan.changes := by
  induction ps with
  | nil => rfl
  | cons p ps ih => simp [append, ih]

end Plan

/-! ## §3  Resources and relations -/

/-- How an observed row counts and whether it leaves a version or a change. -/
inductive Outcome
  | created
  | revised
  | relived
  | unchanged
deriving DecidableEq

namespace Outcome

/-- `existing.is_none()`, `fingerprint_changed` and `lifecycle_changed`, in the
order the source tests them. -/
def of (isNew fingerprintChanged lifecycleChanged : Bool) : Outcome :=
  if isNew then .created
  else if fingerprintChanged then .revised
  else if lifecycleChanged then .relived
  else .unchanged

/-- `existing.is_none() || fingerprint_changed`. -/
def versions : Outcome → Bool
  | .created => true
  | .revised => true
  | .relived => false
  | .unchanged => false

def changes : Outcome → Bool
  | .created => true
  | .revised => true
  | .relived => true
  | .unchanged => false

/-- The contribution of one row with its version and change. -/
def count (o : Outcome) (p : Plan) : Plan :=
  { p with
    created := if o = .created then 1 else 0
    updated := if o = .revised ∨ o = .relived then 1 else 0
    unchanged := if o = .unchanged then 1 else 0 }

end Outcome

/-- The projected row is active and has the validated fingerprint. -/
def resourceOutcome (validated : ValidatedResource) (existing : Option Resource) : Outcome :=
  match existing with
  | none => .of true true false
  | some previous =>
      .of false (decide (previous.fingerprint ≠ validated.fingerprint))
        (decide (previous.lifecycle ≠ .active))

/-- The body of `for validated in &batch.resources`. -/
def planResource (run : SyncRun) (validated : ValidatedResource) (existing : Option Resource) :
    Plan :=
  let resource := projectResource validated (stableResourceId validated.key) run existing
  let outcome := resourceOutcome validated existing
  let summary := resourceDiff existing resource
  outcome.count
    { resources := [resource]
      resourceVersions :=
        if outcome.versions then
          [{ versionId := resourceVersionId resource.resourceId run.syncRunId
             resourceId := resource.resourceId
             observedAt := validated.observedAt
             syncRunId := run.syncRunId
             normalizedSnapshot := resourceSnapshot resource
             fingerprint := resource.fingerprint
             schemaVersion := resource.attributeSchemaVersion
             changeSummary := summary }]
        else []
      changes :=
        if outcome.changes then
          [resourceChange resource existing summary run.syncRunId validated.observedAt]
        else [] }

/-- The projected row is active; the fingerprint compared is the latest version's. -/
def relationOutcome (validated : ValidatedRelation) (existing : Option Relation)
    (latestFingerprint : Option Fingerprint) : Outcome :=
  match existing with
  | none => .of true true false
  | some previous =>
      .of false (decide (latestFingerprint ≠ some validated.fingerprint))
        (decide (previous.lifecycle ≠ .active))

/-- `next_schema_version`. -/
def nextSchemaVersion : SchemaVersion := .one

/-- The body of `for validated in &batch.relations`, its endpoints known. -/
def planRelation (run : SyncRun) (validated : ValidatedRelation) (existing : Option Relation)
    (latestFingerprint : Option Fingerprint) : Plan :=
  let relation := projectRelation validated (stableRelationId validated.key)
    (stableResourceId validated.key.source) (stableResourceId validated.key.target) existing
  let outcome := relationOutcome validated existing latestFingerprint
  let summary := relationDiff existing relation
  outcome.count
    { relations := [relation]
      relationVersions :=
        if outcome.versions then
          [{ relationVersionId := relationVersionId relation.relationId run.syncRunId
             relationId := relation.relationId
             observedAt := validated.observedAt
             normalizedSnapshot := relationSnapshot relation
             fingerprint := validated.fingerprint
             schemaVersion := nextSchemaVersion
             origin := .syncRun run.syncRunId }]
        else []
      changes :=
        if outcome.changes then
          [relationChange relation existing summary run.syncRunId validated.observedAt]
        else [] }

/-! ## §4  Absent resources -/

/-- The body of `for existing in existing_resources`: count the absence, and
tombstone at the second one. -/
def countAbsence (run : SyncRun) (at_ : Timestamp) (state : MissingEvidenceState)
    (existing : Resource) : MissingEvidenceState × Plan :=
  let count := saturatingAdd 8 (state.countFor existing.resourceId) 1
  let state' : MissingEvidenceState :=
    { state with counts := OrderedMap.insert state.counts existing.resourceId (min count 2) }
  if 2 ≤ count ∧ existing.lifecycle ≠ .tombstoned then
    let tombstoned := tombstoneResource existing run at_
    (state',
      { resources := [tombstoned]
        changes :=
          [resourceChange tombstoned (some existing) (resourceDiff (some existing) tombstoned)
            run.syncRunId at_]
        updated := 1 })
  else (state', {})

def planAbsent (run : SyncRun) (at_ : Timestamp) (observed : List ResourceId) :
    MissingEvidenceState → List Resource → MissingEvidenceState × Plan
  | state, [] => (state, {})
  | state, existing :: rest =>
      if existing.resourceId ∈ observed then planAbsent run at_ observed state rest
      else
        let (state', p) := countAbsence run at_ state existing
        let (final, tail) := planAbsent run at_ observed state' rest
        (final, p.append tail)

/-- `for resource_id in &observed_resource_ids { state.counts.remove(resource_id); }`. -/
def forgetObserved (observed : List ResourceId) (state : MissingEvidenceState) :
    MissingEvidenceState :=
  { state with counts := observed.foldl OrderedMap.remove state.counts }

/-! ## §5  The commit -/

/-- `SyncRunHandle`; the source lets a caller clone it. -/
structure SyncRunHandle where
  run : SyncRun
  scope : Scope
deriving DecidableEq

/-- The ids the batch observes. -/
def ValidatedBatch.observedIds (batch : ValidatedBatch) : List ResourceId :=
  batch.resources.map fun v => stableResourceId v.key

section

variable {σ ε : Type} [StoreReader σ ε]

def planResources (store : σ) (run : SyncRun) :
    List ValidatedResource → Except (SyncEngineError ε) Plan
  | [] => .ok {}
  | validated :: rest => do
      let existing ← storeRead (StoreReader.getResource store (stableResourceId validated.key))
      let tail ← planResources store run rest
      return (planResource run validated existing).append tail

def ensureRelationEndpoint (store : σ) (planned : List ResourceId) (id : ResourceId) :
    Except (SyncEngineError ε) Unit :=
  if id ∈ planned then .ok ()
  else do
    match ← storeRead (StoreReader.getResource store id) with
    | none => .error (.missingResource id)
    | some _ => .ok ()

def planRelations (store : σ) (run : SyncRun) (planned : List ResourceId) :
    List ValidatedRelation → Except (SyncEngineError ε) Plan
  | [] => .ok {}
  | validated :: rest => do
      let relationId := stableRelationId validated.key
      ensureRelationEndpoint store planned (stableResourceId validated.key.source)
      ensureRelationEndpoint store planned (stableResourceId validated.key.target)
      let existing ← storeRead (StoreReader.getRelation store relationId)
      let latestFingerprint ←
        storeRead (StoreReader.latestRelationVersionFingerprint store relationId)
      let tail ← planRelations store run planned rest
      return (planRelation run validated existing latestFingerprint).append tail

/-- The missing-evidence part; only an authoritative full batch has one. -/
def planMissing (store : σ) (run : SyncRun) (at_ : Timestamp) (observed : List ResourceId) :
    SyncCoverage → Except (SyncEngineError ε) (Option MissingEvidenceState × Plan)
  | .authoritativeFull scope => do
      let stored ← storeRead (StoreReader.missingEvidenceState store run.connectionId scope)
      let state := forgetObserved observed (stored.getD (.new scope))
      let existing ← storeRead (StoreReader.listResourcesForScope store run.connectionId scope)
      let (final, p) := planAbsent run at_ observed state existing
      return (some final, p)
  | .incremental _ => .ok (none, {})
  | .partial_ _ _ => .ok (none, {})
  | .targeted _ => .ok (none, {})

/-- The run as `build_commit` finishes it, its counts and warnings aside. -/
def finishedRun (handle : SyncRunHandle) (batch : ValidatedBatch) (finishedAt : Timestamp) :
    SyncRun :=
  { handle.run with
    status := if batch.coverage.isPartial then .partial_ else .succeeded
    finishedAt := some finishedAt
    coverage := batch.coverage
    cursorAfter := batch.nextCursor }

/-- The commit that carries a finished run and a whole plan. -/
def assembleCommit (batch : ValidatedBatch) (run : SyncRun) (missing : Option MissingEvidenceState)
    (plan : Plan) : SyncCommit :=
  { syncRun :=
      { run with
        counts :=
          { read := batch.resources.length + batch.relations.length
            created := plan.created
            updated := plan.updated
            unchanged := plan.unchanged
            warnings := batch.warnings.length }
        warnings := batch.warnings.map fun w => { code := w.code, message := w.message } }
    resources := plan.resources
    resourceVersions := plan.resourceVersions
    relations := plan.relations
    relationVersions := plan.relationVersions
    changes := plan.changes
    cursorAfter := batch.nextCursor
    missingEvidence := missing }

def buildCommit (store : σ) (handle : SyncRunHandle) (batch : ValidatedBatch)
    (finishedAt : Timestamp) : Except (SyncEngineError ε) SyncCommit := do
  let run := finishedRun handle batch finishedAt
  let observed := batch.observedIds
  let resources ← planResources store run batch.resources
  let relations ← planRelations store run observed batch.relations
  let (missing, absent) ← planMissing store run finishedAt observed batch.coverage
  return assembleCommit batch run missing (resources.append (relations.append absent))

end

end NextInfra
