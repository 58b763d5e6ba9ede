import NextInfra.Normalizer.Scan

/-!
# The normalizer

`Normalizer::normalize` turns a connector's observations into a validated
batch: one resource per resource key, one relation per relation key, each with
a fingerprint. The digest (`sha2` over the serialized value) is third-party
code and stands as the parameter `digest`.

§3 states what every accepted batch looks like (`normalize_wellFormed`) and §4
what does not depend on the run id: the resources do not
(`normalize_resources_run`), the relations' evidence does.
-/

namespace NextInfra

/-! ## §1  The validated batch -/

structure ValidatedRelationKey where
  source : ResourceKey
  target : ResourceKey
  kind : RelationKind
  evidenceKey : EvidenceKey

namespace ValidatedRelationKey

/-- The derived `Ord`: lexicographic in declaration order. -/
def toLexKey (k : ValidatedRelationKey) :
    ResourceKey ×ₗ (ResourceKey ×ₗ (RelationKind ×ₗ EvidenceKey)) :=
  toLex (k.source, toLex (k.target, toLex (k.kind, k.evidenceKey)))

theorem toLexKey_injective : Function.Injective toLexKey := by
  rintro ⟨s, t, k, e⟩ ⟨s', t', k', e'⟩ h
  have h1 := toLex.injective h
  have h2 := toLex.injective (congrArg Prod.snd h1)
  have h3 := toLex.injective (congrArg Prod.snd h2)
  simp only [Prod.mk.injEq] at h1 h2 h3
  obtain ⟨rfl, _⟩ := h1
  obtain ⟨rfl, _⟩ := h2
  obtain ⟨rfl, rfl⟩ := h3
  rfl

instance : LinearOrder ValidatedRelationKey := LinearOrder.lift' toLexKey toLexKey_injective

def toValue (k : ValidatedRelationKey) : Value :=
  .mkObject [("source", k.source.toValue), ("target", k.target.toValue),
    ("kind", .string k.kind.val), ("evidence_key", .string k.evidenceKey.val)]

end ValidatedRelationKey

structure ValidatedResource where
  key : ResourceKey
  name : String
  displayName : String
  scope : Scope
  labels : OrderedMap LabelKey String
  health : ResourceHealth
  attributes : Value
  attributeSchemaVersion : SchemaVersion
  observedAt : Timestamp
  fingerprint : Fingerprint
deriving DecidableEq

structure ValidatedRelation where
  key : ValidatedRelationKey
  evidence : RelationEvidence
  observedAt : Timestamp
  fingerprint : Fingerprint
deriving DecidableEq

structure ValidatedBatch where
  connectionId : ConnectionId
  syncRunId : SyncRunId
  resources : List ValidatedResource
  relations : List ValidatedRelation
  coverage : SyncCoverage
  nextCursor : Option SyncCursor
  warnings : List ObservationWarning
  redactionReport : RedactionReport
  providerRequestSummary : ProviderRequestSummary
deriving DecidableEq

/-! ## §2  The normalizer -/

structure AttributeSchema where
  kind : ResourceKind
  schemaVersion : SchemaVersion
  allowedAttributes : List String
deriving DecidableEq

def AttributeSchema.key (schema : AttributeSchema) : ResourceKind ×ₗ Nat :=
  toLex (schema.kind, schema.schemaVersion.val)

structure RelationSchema where
  kind : RelationKind
  sourceKind : ResourceKind
  targetKind : ResourceKind
deriving DecidableEq

/-- A path the constructor of `Normalizer` lets through. -/
def allowedPath (path : String) : Bool :=
  !((path.toList.splitOn '.').any List.isEmpty) && !isSensitiveFieldName path

structure Normalizer where
  attributeSchemas : KeyedTable AttributeSchema.key
  relationSchemas : List RelationSchema
  pathsAllowed : ∀ schema ∈ attributeSchemas.rows, ∀ path ∈ schema.allowedAttributes,
    allowedPath path = true
  relationsDistinct : relationSchemas.Nodup

/-- Keep the newer of two equal observations; refuse two that differ. -/
def absorb {ρ κ : Type} [LinearOrder κ] {key : ρ → κ} (fingerprint : ρ → Fingerprint)
    (observedAt : ρ → Timestamp) (conflict : String) (t : KeyedTable key) (r : ρ) :
    Except DomainError (KeyedTable key) :=
  match t.get (key r) with
  | some existing =>
      if fingerprint existing ≠ fingerprint r then
        .error (contractError .invalidResponse conflict)
      else if observedAt r ≤ observedAt existing then .ok t
      else .ok (t.put r)
  | none => .ok (t.put r)

def labelsToValue (labels : OrderedMap LabelKey String) : Value :=
  .object (labels.rows.map fun p => (p.1.val, .string p.2))

def scanLabels : List (LabelKey × String) → Except DomainError Unit
  | [] => .ok ()
  | (key, value) :: labels =>
      if isSensitiveFieldName key.val then
        .error (contractError .invalidResponse "resource labels contain a forbidden secret field")
      else
        match scanText value with
        | .error e => .error e
        | .ok () => scanLabels labels

namespace Normalizer

section

variable (digest : Value → Fingerprint) (n : Normalizer)

/-- The value whose digest is a resource's fingerprint. -/
def resourceFingerprintInput (key : ResourceKey) (o : ResourceObservation) (attributes : Value) :
    Value :=
  .mkObject [("key", key.toValue), ("name", .string o.name),
    ("display_name", .string o.displayName), ("scope", .string o.scope.val),
    ("labels", labelsToValue o.labels), ("health", o.health.toValue),
    ("attributes", attributes), ("attribute_schema_version", .ofNat o.attributeSchemaVersion.val)]

def normalizeResource (request : SyncRequest) (o : ResourceObservation) :
    Except DomainError (ValidatedResource × Nat) := do
  scanForSecrets o.attributes
  scanText o.name
  scanText o.displayName
  scanLabels o.labels.rows
  match n.attributeSchemas.get (toLex (o.kind, o.attributeSchemaVersion.val)) with
  | none => .error (contractError .schemaIncompatible "no matching resource attribute schema")
  | some schema =>
      match o.attributes with
      | .object object =>
          let (attributes, dropped) := projectAttributes object schema.allowedAttributes
          let key : ResourceKey :=
            { connectionId := request.connection.connectionId
              kind := o.kind
              externalId := o.externalId }
          .ok ({ key := key
                 name := o.name
                 displayName := o.displayName
                 scope := o.scope
                 labels := o.labels
                 health := o.health
                 attributes := attributes
                 attributeSchemaVersion := o.attributeSchemaVersion
                 observedAt := o.observedAt
                 fingerprint := digest (resourceFingerprintInput key o attributes) }, dropped)
      | _ => .error (contractError .invalidResponse "resource attributes must be a JSON object")

def normalizeRelation (request : SyncRequest) (o : RelationObservation) :
    Except DomainError ValidatedRelation :=
  if isSensitiveFieldName o.fieldPath.val then
    .error (contractError .invalidResponse "relation evidence points at a forbidden secret field")
  else if n.relationSchemas.any (fun schema =>
      decide (schema.kind = o.kind) && decide (schema.sourceKind = o.source.kind) &&
        decide (schema.targetKind = o.target.kind)) = false then
    .error (contractError .schemaIncompatible "relation kind or endpoint kinds are not registered")
  else
    let connectionId := request.connection.connectionId
    let key : ValidatedRelationKey :=
      { source :=
          { connectionId := connectionId, kind := o.source.kind, externalId := o.source.externalId }
        target :=
          { connectionId := connectionId, kind := o.target.kind, externalId := o.target.externalId }
        kind := o.kind
        evidenceKey := o.evidenceKey }
    -- the run id is part of the evidence, and the evidence part of the fingerprint
    let evidence : RelationEvidence := .provider connectionId request.syncRunId o.fieldPath
    .ok { key := key
          evidence := evidence
          observedAt := o.observedAt
          fingerprint := digest (.mkObject [("key", key.toValue), ("evidence", evidence.toValue)]) }

/-- `for observation in batch.resources`. -/
def collectResources (request : SyncRequest) :
    KeyedTable ValidatedResource.key × Nat → List ResourceObservation →
      Except DomainError (KeyedTable ValidatedResource.key × Nat)
  | acc, [] => .ok acc
  | (resources, dropped), o :: os => do
      let (resource, d) ← n.normalizeResource digest request o
      let resources ← absorb ValidatedResource.fingerprint ValidatedResource.observedAt
        "conflicting observations share one resource identity" resources resource
      collectResources request (resources, dropped + d) os

/-- `for observation in batch.relations`. -/
def collectRelations (request : SyncRequest) :
    KeyedTable ValidatedRelation.key → List RelationObservation →
      Except DomainError (KeyedTable ValidatedRelation.key)
  | relations, [] => .ok relations
  | relations, o :: os => do
      let relation ← n.normalizeRelation digest request o
      let relations ← absorb ValidatedRelation.fingerprint ValidatedRelation.observedAt
        "conflicting observations share one relation identity" relations relation
      collectRelations request relations os

def scanWarnings : List ObservationWarning → Except DomainError Unit
  | [] => .ok ()
  | warning :: warnings =>
      match scanText warning.message with
      | .error e => .error e
      | .ok () => scanWarnings warnings

def normalize (request : SyncRequest) (batch : ObservationBatch) :
    Except DomainError ValidatedBatch := do
  batch.validateFor request
  scanWarnings batch.warnings
  let (resources, dropped) ← n.collectResources digest request
    (.empty, batch.redactionReport.unknownFieldsDropped) batch.resources
  let relations ← n.collectRelations digest request .empty batch.relations
  return {
    connectionId := request.connection.connectionId
    syncRunId := request.syncRunId
    resources := resources.rows
    relations := relations.rows
    coverage := batch.coverage
    nextCursor := batch.nextCursor
    warnings := batch.warnings
    redactionReport := { batch.redactionReport with unknownFieldsDropped := dropped }
    providerRequestSummary := batch.providerRequestSummary }

end

end Normalizer

/-! ## §3  What an accepted batch looks like -/

/-- Every key belongs to the batch's connection and occurs once; every
relation's evidence is the batch's run. -/
structure ValidatedBatch.WellFormed (b : ValidatedBatch) : Prop where
  resourceKeys : (b.resources.map ValidatedResource.key).Nodup
  relationKeys : (b.relations.map ValidatedRelation.key).Nodup
  resourceConnection : ∀ v ∈ b.resources, v.key.connectionId = b.connectionId
  sourceConnection : ∀ v ∈ b.relations, v.key.source.connectionId = b.connectionId
  targetConnection : ∀ v ∈ b.relations, v.key.target.connectionId = b.connectionId
  evidence : ∀ v ∈ b.relations, ∃ path, v.evidence = .provider b.connectionId b.syncRunId path

/-- A property of every row carries over to the table that absorbs a new row
with the property. -/
theorem absorb_ok {ρ κ : Type} [LinearOrder κ] {key : ρ → κ} {fingerprint : ρ → Fingerprint}
    {observedAt : ρ → Timestamp} {conflict : String} {t t' : KeyedTable key} {r : ρ}
    {P : ρ → Prop} (h : absorb fingerprint observedAt conflict t r = .ok t')
    (ht : ∀ x ∈ t.rows, P x) (hr : P r) : ∀ x ∈ t'.rows, P x := by
  have hput : ∀ x ∈ (t.put r).rows, P x := by
    intro x hx
    rcases KeyedTable.mem_put.mp hx with rfl | ⟨hx', _⟩
    · exact hr
    · exact ht x hx'
  unfold absorb at h
  cases hg : t.get (key r) with
  | none =>
      simp only [hg] at h
      cases h
      exact hput
  | some existing =>
      simp only [hg] at h
      split at h
      · cases h
      · split at h
        · cases h
          exact ht
        · cases h
          exact hput

namespace Normalizer

variable {digest : Value → Fingerprint} {n : Normalizer} {request : SyncRequest}

theorem normalizeResource_key {o : ResourceObservation} {v : ValidatedResource} {d : Nat}
    (h : n.normalizeResource digest request o = .ok (v, d)) :
    v.key.connectionId = request.connection.connectionId := by
  unfold normalizeResource at h
  obtain ⟨_, _, h⟩ := bind_ok h
  obtain ⟨_, _, h⟩ := bind_ok h
  obtain ⟨_, _, h⟩ := bind_ok h
  obtain ⟨_, _, h⟩ := bind_ok h
  split at h
  · cases h
  · split at h
    · cases h
      rfl
    · cases h

theorem normalizeRelation_ok {o : RelationObservation} {v : ValidatedRelation}
    (h : n.normalizeRelation digest request o = .ok v) :
    v.key.source.connectionId = request.connection.connectionId ∧
      v.key.target.connectionId = request.connection.connectionId ∧
      v.evidence = .provider request.connection.connectionId request.syncRunId o.fieldPath := by
  unfold normalizeRelation at h
  split at h
  · cases h
  · split at h
    · cases h
    · cases h
      exact ⟨rfl, rfl, rfl⟩

theorem collectResources_connection : ∀ {os : List ResourceObservation}
    {acc acc' : KeyedTable ValidatedResource.key × Nat},
    n.collectResources digest request acc os = .ok acc' →
      (∀ v ∈ acc.1.rows, v.key.connectionId = request.connection.connectionId) →
        ∀ v ∈ acc'.1.rows, v.key.connectionId = request.connection.connectionId := by
  intro os
  induction os with
  | nil =>
      intro acc acc' h hacc
      cases h
      exact hacc
  | cons o os ih =>
      rintro ⟨t, dropped⟩ acc' h hacc
      unfold collectResources at h
      obtain ⟨⟨v, d⟩, hv, h⟩ := bind_ok h
      obtain ⟨t', ht', h⟩ := bind_ok h
      exact ih h (absorb_ok ht' hacc (normalizeResource_key hv))

theorem collectRelations_rows : ∀ {os : List RelationObservation}
    {t t' : KeyedTable ValidatedRelation.key},
    n.collectRelations digest request t os = .ok t' →
      ∀ {P : ValidatedRelation → Prop},
        (∀ o v, n.normalizeRelation digest request o = .ok v → P v) →
          (∀ v ∈ t.rows, P v) → ∀ v ∈ t'.rows, P v := by
  intro os
  induction os with
  | nil =>
      intro t t' h P _ ht
      cases h
      exact ht
  | cons o os ih =>
      intro t t' h P hP ht
      unfold collectRelations at h
      obtain ⟨v, hv, h⟩ := bind_ok h
      obtain ⟨t₁, ht₁, h⟩ := bind_ok h
      exact ih h hP (absorb_ok ht₁ ht (hP o v hv))

/-- The parts of an accepted batch. -/
theorem normalize_ok {batch : ObservationBatch} {b : ValidatedBatch}
    (h : n.normalize digest request batch = .ok b) :
    ∃ resources dropped relations,
      batch.validateFor request = .ok () ∧
      n.collectResources digest request
        (.empty, batch.redactionReport.unknownFieldsDropped) batch.resources =
          .ok (resources, dropped) ∧
      n.collectRelations digest request .empty batch.relations = .ok relations ∧
      b = { connectionId := request.connection.connectionId
            syncRunId := request.syncRunId
            resources := resources.rows
            relations := relations.rows
            coverage := batch.coverage
            nextCursor := batch.nextCursor
            warnings := batch.warnings
            redactionReport := { batch.redactionReport with unknownFieldsDropped := dropped }
            providerRequestSummary := batch.providerRequestSummary } := by
  unfold normalize at h
  obtain ⟨_, hvalid, h⟩ := bind_ok h
  obtain ⟨_, _, h⟩ := bind_ok h
  obtain ⟨⟨resources, dropped⟩, hres, h⟩ := bind_ok h
  obtain ⟨relations, hrel, h⟩ := bind_ok h
  cases h
  exact ⟨resources, dropped, relations, hvalid, hres, hrel, rfl⟩

theorem normalize_wellFormed {batch : ObservationBatch} {b : ValidatedBatch}
    (h : n.normalize digest request batch = .ok b) : b.WellFormed := by
  obtain ⟨resources, dropped, relations, _, hres, hrel, rfl⟩ := normalize_ok h
  exact
    { resourceKeys := resources.keys_nodup
      relationKeys := relations.keys_nodup
      resourceConnection := collectResources_connection hres (by simp)
      sourceConnection :=
        collectRelations_rows hrel (fun _ _ hv => (normalizeRelation_ok hv).1) (by simp)
      targetConnection :=
        collectRelations_rows hrel (fun _ _ hv => (normalizeRelation_ok hv).2.1) (by simp)
      evidence :=
        collectRelations_rows hrel (fun o _ hv => ⟨o.fieldPath, (normalizeRelation_ok hv).2.2⟩)
          (by simp) }

/-- The batch carries the request's connection and run and an accepted coverage. -/
theorem normalize_provenance {batch : ObservationBatch} {b : ValidatedBatch}
    (h : n.normalize digest request batch = .ok b) :
    b.connectionId = request.connection.connectionId ∧ b.syncRunId = request.syncRunId ∧
      b.coverage = batch.coverage ∧ b.nextCursor = batch.nextCursor ∧
      request.acceptsCoverage b.coverage = true := by
  obtain ⟨_, _, _, hvalid, _, _, rfl⟩ := normalize_ok h
  refine ⟨rfl, rfl, rfl, rfl, ?_⟩
  unfold ObservationBatch.validateFor at hvalid
  split at hvalid
  · cases hvalid
  · rename_i hacc
    simpa using hacc

/-! ## §4  What the run id reaches -/

/-- The same request under another run id. -/
def withRun (request : SyncRequest) (run : SyncRunId) : SyncRequest :=
  { request with syncRunId := run }

theorem normalizeResource_run (run : SyncRunId) (o : ResourceObservation) :
    n.normalizeResource digest (withRun request run) o = n.normalizeResource digest request o := rfl

theorem collectResources_run (run : SyncRunId) (os : List ResourceObservation)
    (acc : KeyedTable ValidatedResource.key × Nat) :
    n.collectResources digest (withRun request run) acc os =
      n.collectResources digest request acc os := by
  induction os generalizing acc with
  | nil => rfl
  | cons o os ih =>
      unfold collectResources
      rw [normalizeResource_run]
      simp only [ih]

/-- Normalizing the same observations under another run id gives the same
resources. -/
theorem normalize_resources_run {run : SyncRunId} {batch : ObservationBatch} {b b' : ValidatedBatch}
    (h : n.normalize digest request batch = .ok b)
    (h' : n.normalize digest (withRun request run) batch = .ok b') :
    b'.resources = b.resources := by
  obtain ⟨resources, dropped, _, _, hres, _, rfl⟩ := normalize_ok h
  obtain ⟨resources', dropped', _, _, hres', _, rfl⟩ := normalize_ok h'
  rw [collectResources_run, hres] at hres'
  cases hres'
  rfl

end Normalizer

end NextInfra
