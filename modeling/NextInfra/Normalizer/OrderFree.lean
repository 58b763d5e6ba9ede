import NextInfra.Lib.Entries
import NextInfra.Lib.Latest
import NextInfra.Normalizer.Accept
import Mathlib.Data.Set.Function
import Mathlib.Algebra.BigOperators.Group.List.Basic

/-!
# Normalization is order free

The fold over the observations is read as `Latest.keepAll` over their normalized rows.
Where the digest tells the serialized values apart, a row's key, fingerprint and instant
tell it from every other row of the batch, so what is kept does not depend on the order
the observations come in (`normalize_order_free`).
-/

namespace NextInfra

/-! ## §1  What is serialized -/

namespace Normalizer

section

variable (n : Normalizer) (request : SyncRequest)

/-- The attributes a normalized observation keeps. -/
def attributesOf (o : ResourceObservation) : Value :=
  match n.attributeSchemas.get (toLex (o.kind, o.attributeSchemaVersion.val)), o.attributes with
  | some schema, .object object => (projectAttributes object schema.allowedAttributes).1
  | _, _ => .null

/-- The value behind the fingerprint of a resource observation. -/
def serializedResource (o : ResourceObservation) : Value :=
  resourceFingerprintInput (o.locator.key request.connection.connectionId) o (n.attributesOf o)

/-- The value behind the fingerprint of a relation observation. -/
def serializedRelation (o : RelationObservation) : Value :=
  .mkObject [("key", (o.key request.connection.connectionId).toValue),
    ("evidence", (RelationEvidence.provider request.connection.connectionId request.syncRunId
      o.fieldPath).toValue)]

/-- Everything the normalizer digests for a batch. -/
def serialized (batch : ObservationBatch) : List Value :=
  batch.resources.map (n.serializedResource request) ++
    batch.relations.map (serializedRelation request)

end

variable {digest : Value → Fingerprint} {n : Normalizer} {request : SyncRequest}

/-- A normalized resource, field by field. -/
theorem normalizeResource_eq {o : ResourceObservation} {v : ValidatedResource} {d : Nat}
    (h : n.normalizeResource digest request o = .ok (v, d)) :
    v = { key := o.locator.key request.connection.connectionId
          name := o.name
          displayName := o.displayName
          scope := o.scope
          labels := o.labels
          health := o.health
          attributes := n.attributesOf o
          attributeSchemaVersion := o.attributeSchemaVersion
          observedAt := o.observedAt
          fingerprint := digest (n.serializedResource request o) } := by
  unfold normalizeResource at h
  obtain ⟨_, _, h⟩ := bind_ok h
  obtain ⟨_, _, h⟩ := bind_ok h
  obtain ⟨_, _, h⟩ := bind_ok h
  obtain ⟨_, _, h⟩ := bind_ok h
  split at h
  · cases h
  · rename_i schema hschema
    split at h
    · rename_i object hobject
      have hattributes : n.attributesOf o =
          (projectAttributes object schema.allowedAttributes).1 := by
        unfold attributesOf
        rw [hschema, hobject]
      unfold serializedResource
      rw [hattributes]
      cases h
      rfl
    · cases h

/-- A normalized relation, field by field. -/
theorem normalizeRelation_eq {o : RelationObservation} {v : ValidatedRelation}
    (h : n.normalizeRelation digest request o = .ok v) :
    v = { key := o.key request.connection.connectionId
          evidence := .provider request.connection.connectionId request.syncRunId o.fieldPath
          observedAt := o.observedAt
          fingerprint := digest (serializedRelation request o) } := by
  unfold normalizeRelation at h
  split at h
  · cases h
  · split at h
    · cases h
    · cases h
      rfl

end Normalizer

/-! ## §2  A serialized value tells its observation -/

theorem labelsToValue_injective : Function.Injective labelsToValue := by
  intro a b h
  apply KeyedTable.ext_rows
  have hrows : a.rows.map (fun p : LabelKey × String => (p.1.val, Value.string p.2)) =
      b.rows.map fun p => (p.1.val, Value.string p.2) := Value.object.inj h
  refine List.map_injective_iff.mpr ?_ hrows
  rintro ⟨k, s⟩ ⟨k', s'⟩ hpair
  obtain ⟨hkey, hvalue⟩ := Prod.mk.inj hpair
  exact Prod.ext (NamespacedValue.val_injective hkey) (Value.string.inj hvalue)

theorem ResourceHealth.toValue_injective : Function.Injective ResourceHealth.toValue := by
  intro a b h
  cases a <;> cases b <;> first | rfl | exact absurd h (by decide)

/-- The fields of a fingerprint input, read back. -/
theorem resourceFingerprintInput_inj {key : ResourceKey} {o o' : ResourceObservation}
    {attributes attributes' : Value}
    (h : Normalizer.resourceFingerprintInput key o attributes =
      Normalizer.resourceFingerprintInput key o' attributes') :
    o.name = o'.name ∧ o.displayName = o'.displayName ∧ o.scope = o'.scope ∧
      o.labels = o'.labels ∧ o.health = o'.health ∧ attributes = attributes' ∧
      o.attributeSchemaVersion = o'.attributeSchemaVersion := by
  have hget : ∀ field, (Normalizer.resourceFingerprintInput key o attributes).get field =
      (Normalizer.resourceFingerprintInput key o' attributes').get field := by
    intro field
    rw [h]
  simp only [Normalizer.resourceFingerprintInput, Value.mkObject, Value.get, List.foldl_cons,
    List.foldl_nil, Value.fieldOf_setField] at hget
  refine ⟨?_, ?_, ?_, ?_, ?_, ?_, ?_⟩
  · simpa using hget "name"
  · simpa using hget "display_name"
  · exact StringValue.ext_val (by simpa using hget "scope")
  · exact labelsToValue_injective (by simpa using hget "labels")
  · exact ResourceHealth.toValue_injective (by simpa using hget "health")
  · simpa using hget "attributes"
  · have hversion : o.attributeSchemaVersion.val = o'.attributeSchemaVersion.val := by
      exact_mod_cast (by simpa [Value.ofNat] using hget "attribute_schema_version" :
        (o.attributeSchemaVersion.val : Int) = o'.attributeSchemaVersion.val)
    cases hv : o.attributeSchemaVersion
    cases hv' : o'.attributeSchemaVersion
    rw [hv, hv'] at hversion
    cases hversion
    rfl

/-- The field path of a relation's evidence is part of what is digested. -/
theorem serializedRelation_inj {request : SyncRequest} {o o' : RelationObservation}
    (h : Normalizer.serializedRelation request o = Normalizer.serializedRelation request o') :
    o.fieldPath = o'.fieldPath := by
  have hevidence := congrArg (fun value => (value.get "evidence").bind fun e => e.get "field_path") h
  apply StringValue.ext_val
  simpa [Normalizer.serializedRelation, RelationEvidence.toValue, Value.mkObject, Value.get,
    Value.fieldOf_setField] using hevidence

/-! ## §3  The fold -/

theorem absorb_ok_iff {ρ κ : Type} [LinearOrder κ] {key : ρ → κ} {fingerprint : ρ → Fingerprint}
    {observedAt : ρ → Timestamp} {conflict : String} {t t' : KeyedTable key} {r : ρ} :
    absorb fingerprint observedAt conflict t r = .ok t' ↔
      Latest.keep fingerprint observedAt t r = some t' := by
  unfold absorb Latest.keep
  cases t.get (key r) with
  | none => simp
  | some existing =>
      by_cases hsame : fingerprint existing = fingerprint r
      · by_cases hle : observedAt r ≤ observedAt existing
        · simp [hsame, hle]
        · simp [hsame, hle]
      · simp [hsame]

namespace Normalizer

section

variable {digest : Value → Fingerprint} {n : Normalizer} {request : SyncRequest}

/-- The resources collected are the latest of the normalized rows. -/
theorem collectResources_ok_iff {os : List ResourceObservation}
    {acc acc' : KeyedTable ValidatedResource.key × Nat} :
    n.collectResources digest request acc os = .ok acc' ↔
      ∃ rows, os.mapM (n.normalizeResource digest request) = .ok rows ∧
        Latest.keepAll ValidatedResource.fingerprint ValidatedResource.observedAt acc.1
          (rows.map Prod.fst) = some acc'.1 ∧
        acc'.2 = acc.2 + (rows.map Prod.snd).sum := by
  induction os generalizing acc with
  | nil =>
      obtain ⟨t, d⟩ := acc
      obtain ⟨t', d'⟩ := acc'
      constructor
      · intro h
        cases h
        exact ⟨[], rfl, rfl, rfl⟩
      · rintro ⟨rows, hrows, hkeep, hsum⟩
        cases hrows
        cases hkeep
        obtain rfl : d' = d := hsum
        rfl
  | cons o os ih =>
      obtain ⟨t, d⟩ := acc
      constructor
      · intro h
        unfold collectResources at h
        obtain ⟨⟨v, dropped⟩, hv, h⟩ := bind_ok h
        obtain ⟨t₁, ht₁, h⟩ := bind_ok h
        obtain ⟨rows, hrows, hkeep, hsum⟩ := ih.mp h
        refine ⟨(v, dropped) :: rows, ?_, ?_, ?_⟩
        · exact Fallible.mapM_ok_iff.mpr (.cons hv (Fallible.mapM_ok_iff.mp hrows))
        · show (Latest.keep _ _ t v).bind _ = _
          rw [absorb_ok_iff.mp ht₁]
          exact hkeep
        · rw [hsum]
          simp [Nat.add_assoc]
      · rintro ⟨rows, hrows, hkeep, hsum⟩
        cases Fallible.mapM_ok_iff.mp hrows with
        | cons hv htail =>
            rename_i row rows
            obtain ⟨v, dropped⟩ := row
            obtain ⟨t₁, ht₁, hkeep⟩ := Option.bind_eq_some_iff.mp hkeep
            unfold collectResources
            rw [hv]
            show (absorb _ _ _ t v >>= _) = _
            rw [absorb_ok_iff.mpr ht₁]
            refine ih.mpr ⟨rows, Fallible.mapM_ok_iff.mpr htail, hkeep, ?_⟩
            rw [hsum]
            simp [Nat.add_assoc]

/-- The relations collected are the latest of the normalized rows. -/
theorem collectRelations_ok_iff {os : List RelationObservation}
    {t t' : KeyedTable ValidatedRelation.key} :
    n.collectRelations digest request t os = .ok t' ↔
      ∃ rows, os.mapM (n.normalizeRelation digest request) = .ok rows ∧
        Latest.keepAll ValidatedRelation.fingerprint ValidatedRelation.observedAt t rows =
          some t' := by
  induction os generalizing t with
  | nil =>
      constructor
      · intro h
        cases h
        exact ⟨[], rfl, rfl⟩
      · rintro ⟨rows, hrows, hkeep⟩
        cases hrows
        cases hkeep
        rfl
  | cons o os ih =>
      constructor
      · intro h
        unfold collectRelations at h
        obtain ⟨v, hv, h⟩ := bind_ok h
        obtain ⟨t₁, ht₁, h⟩ := bind_ok h
        obtain ⟨rows, hrows, hkeep⟩ := ih.mp h
        refine ⟨v :: rows, ?_, ?_⟩
        · exact Fallible.mapM_ok_iff.mpr (.cons hv (Fallible.mapM_ok_iff.mp hrows))
        · show (Latest.keep _ _ t v).bind _ = _
          rw [absorb_ok_iff.mp ht₁]
          exact hkeep
      · rintro ⟨rows, hrows, hkeep⟩
        cases Fallible.mapM_ok_iff.mp hrows with
        | cons hv htail =>
            obtain ⟨t₁, ht₁, hkeep⟩ := Option.bind_eq_some_iff.mp hkeep
            unfold collectRelations
            rw [hv]
            show (absorb _ _ _ t _ >>= _) = _
            rw [absorb_ok_iff.mpr ht₁]
            exact ih.mpr ⟨_, Fallible.mapM_ok_iff.mpr htail, hkeep⟩

/-- What is observed more than once under a key is serialized alike, as far as the digest
can tell. -/
def Agree {ο κ : Type} (digest : Value → Fingerprint) (key : ο → κ) (serialize : ο → Value)
    (os : List ο) : Prop :=
  ∀ o ∈ os, ∀ o' ∈ os, key o = key o' → digest (serialize o) = digest (serialize o')

/-- Resources are collected where each is accepted and none conflicts with another. -/
theorem collectResources_isOk_iff {os : List ResourceObservation} {d : Nat} :
    (∃ acc, n.collectResources digest request (.empty, d) os = .ok acc) ↔
      (∀ o ∈ os, ∃ v d, n.normalizeResource digest request o = .ok (v, d)) ∧
        Agree digest ResourceObservation.locator (n.serializedResource request) os := by
  have hconsistent : ∀ {rows}, os.mapM (n.normalizeResource digest request) = .ok rows →
      (Latest.Consistent ValidatedResource.fingerprint ValidatedResource.key (rows.map Prod.fst) ↔
        Agree digest ResourceObservation.locator (n.serializedResource request) os) := by
    intro rows hrows
    constructor
    · intro h o ho o' ho' hlocator
      obtain ⟨⟨v, dv⟩, hv, hvo⟩ := Fallible.result_of_mapM hrows ho
      obtain ⟨⟨w, dw⟩, hw, hwo⟩ := Fallible.result_of_mapM hrows ho'
      have hsame := h v (List.mem_map_of_mem hv) w (List.mem_map_of_mem hw)
      rw [normalizeResource_eq hvo, normalizeResource_eq hwo, hlocator] at hsame
      exact hsame rfl
    · intro h a ha b hb hkey
      obtain ⟨⟨v, dv⟩, hv, rfl⟩ := List.mem_map.mp ha
      obtain ⟨⟨w, dw⟩, hw, rfl⟩ := List.mem_map.mp hb
      obtain ⟨o, ho, hvo⟩ := Fallible.argument_of_mapM hrows hv
      obtain ⟨o', ho', hwo⟩ := Fallible.argument_of_mapM hrows hw
      have hv := normalizeResource_eq hvo
      have hw := normalizeResource_eq hwo
      subst hv hw
      exact h o ho o' ho' (ResourceLocator.key_injective _ hkey)
  constructor
  · rintro ⟨acc, h⟩
    obtain ⟨rows, hrows, hkeep, _⟩ := collectResources_ok_iff.mp h
    refine ⟨?_, (hconsistent hrows).mp (Latest.keepAll_isSome_iff.mp ⟨_, hkeep⟩)⟩
    intro o ho
    obtain ⟨⟨v, d⟩, _, hv⟩ := Fallible.result_of_mapM hrows ho
    exact ⟨v, d, hv⟩
  · rintro ⟨haccepted, hagree⟩
    obtain ⟨rows, hrows⟩ := Fallible.mapM_ok_of_forall fun o ho =>
      (haccepted o ho).elim fun v hv => hv.elim fun d hd => ⟨(v, d), hd⟩
    have htaken : ∃ t, Latest.keepAll ValidatedResource.fingerprint ValidatedResource.observedAt
        (KeyedTable.empty : KeyedTable ValidatedResource.key) (rows.map Prod.fst) = some t :=
      Latest.keepAll_isSome_iff.mpr ((hconsistent hrows).mpr hagree)
    obtain ⟨t, ht⟩ := htaken
    exact ⟨(t, _), collectResources_ok_iff.mpr ⟨rows, hrows, ht, rfl⟩⟩

theorem collectRelations_isOk_iff {os : List RelationObservation} :
    (∃ t, n.collectRelations digest request .empty os = .ok t) ↔
      (∀ o ∈ os, ∃ v, n.normalizeRelation digest request o = .ok v) ∧
        Agree digest (fun o => o.key request.connection.connectionId)
          (serializedRelation request) os := by
  have hconsistent : ∀ {rows}, os.mapM (n.normalizeRelation digest request) = .ok rows →
      (Latest.Consistent ValidatedRelation.fingerprint ValidatedRelation.key rows ↔
        Agree digest (fun o => o.key request.connection.connectionId)
          (serializedRelation request) os) := by
    intro rows hrows
    constructor
    · intro h o ho o' ho' hkey
      obtain ⟨v, hv, hvo⟩ := Fallible.result_of_mapM hrows ho
      obtain ⟨w, hw, hwo⟩ := Fallible.result_of_mapM hrows ho'
      have hsame := h v hv w hw
      rw [normalizeRelation_eq hvo, normalizeRelation_eq hwo] at hsame
      exact hsame hkey
    · intro h v hv w hw hkey
      obtain ⟨o, ho, hvo⟩ := Fallible.argument_of_mapM hrows hv
      obtain ⟨o', ho', hwo⟩ := Fallible.argument_of_mapM hrows hw
      have hv := normalizeRelation_eq hvo
      have hw := normalizeRelation_eq hwo
      subst hv hw
      exact h o ho o' ho' hkey
  constructor
  · rintro ⟨t, h⟩
    obtain ⟨rows, hrows, hkeep⟩ := collectRelations_ok_iff.mp h
    refine ⟨?_, (hconsistent hrows).mp (Latest.keepAll_isSome_iff.mp ⟨_, hkeep⟩)⟩
    intro o ho
    obtain ⟨v, _, hv⟩ := Fallible.result_of_mapM hrows ho
    exact ⟨v, hv⟩
  · rintro ⟨haccepted, hagree⟩
    obtain ⟨rows, hrows⟩ := Fallible.mapM_ok_of_forall haccepted
    have htaken : ∃ t, Latest.keepAll ValidatedRelation.fingerprint ValidatedRelation.observedAt
        (KeyedTable.empty : KeyedTable ValidatedRelation.key) rows = some t :=
      Latest.keepAll_isSome_iff.mpr ((hconsistent hrows).mpr hagree)
    obtain ⟨t, ht⟩ := htaken
    exact ⟨t, collectRelations_ok_iff.mpr ⟨rows, hrows, ht⟩⟩

/-- When a batch is accepted. -/
theorem normalize_isOk_iff {batch : ObservationBatch} :
    (∃ b, n.normalize digest request batch = .ok b) ↔
      batch.validateFor request = .ok () ∧ scanWarnings batch.warnings = .ok () ∧
        ((∀ o ∈ batch.resources, ∃ v d, n.normalizeResource digest request o = .ok (v, d)) ∧
          Agree digest ResourceObservation.locator (n.serializedResource request)
            batch.resources) ∧
        (∀ o ∈ batch.relations, ∃ v, n.normalizeRelation digest request o = .ok v) ∧
          Agree digest (fun o => o.key request.connection.connectionId)
            (serializedRelation request) batch.relations := by
  rw [← collectRelations_isOk_iff,
    ← @collectResources_isOk_iff _ _ _ _ batch.redactionReport.unknownFieldsDropped]
  unfold normalize
  constructor
  · rintro ⟨b, h⟩
    obtain ⟨_, hvalid, h⟩ := bind_ok h
    obtain ⟨_, hwarnings, h⟩ := bind_ok h
    obtain ⟨acc, hresources, h⟩ := bind_ok h
    obtain ⟨relations, hrelations, _⟩ := bind_ok h
    exact ⟨hvalid, hwarnings, ⟨acc, hresources⟩, ⟨relations, hrelations⟩⟩
  · rintro ⟨hvalid, hwarnings, ⟨acc, hresources⟩, ⟨relations, hrelations⟩⟩
    rw [hvalid, hwarnings, hresources, hrelations]
    exact ⟨_, rfl⟩

/-! ## §4  Order -/

/-- Two normalized resources of one key and fingerprint differ in their instant only. -/
theorem resources_determined {os : List ResourceObservation}
    {rows : List (ValidatedResource × Nat)}
    (hrows : os.mapM (n.normalizeResource digest request) = .ok rows)
    (hdigest : ∀ o ∈ os, ∀ o' ∈ os,
      digest (n.serializedResource request o) = digest (n.serializedResource request o') →
        n.serializedResource request o = n.serializedResource request o') :
    Latest.Determined ValidatedResource.fingerprint ValidatedResource.observedAt
      ValidatedResource.key (rows.map Prod.fst) := by
  intro a ha b hb hkey hfingerprint htime
  obtain ⟨⟨v, d⟩, hv, rfl⟩ := List.mem_map.mp ha
  obtain ⟨⟨w, e⟩, hw, rfl⟩ := List.mem_map.mp hb
  obtain ⟨o, ho, hvo⟩ := Fallible.argument_of_mapM hrows hv
  obtain ⟨o', ho', hwo⟩ := Fallible.argument_of_mapM hrows hw
  have hv := normalizeResource_eq hvo
  have hw := normalizeResource_eq hwo
  subst hv hw
  have hsame := hdigest o ho o' ho' hfingerprint
  have hlocator : o.locator.key request.connection.connectionId =
      o'.locator.key request.connection.connectionId := hkey
  unfold serializedResource at hsame
  rw [hlocator] at hsame
  obtain ⟨h1, h2, h3, h4, h5, h6, h7⟩ := resourceFingerprintInput_inj hsame
  have htime' : o.observedAt = o'.observedAt := htime
  have hfingerprint' : digest (n.serializedResource request o) =
      digest (n.serializedResource request o') := hfingerprint
  simp only [hlocator, h1, h2, h3, h4, h5, h6, h7, htime', hfingerprint']

theorem relations_determined {os : List RelationObservation} {rows : List ValidatedRelation}
    (hrows : os.mapM (n.normalizeRelation digest request) = .ok rows)
    (hdigest : ∀ o ∈ os, ∀ o' ∈ os,
      digest (serializedRelation request o) = digest (serializedRelation request o') →
        serializedRelation request o = serializedRelation request o') :
    Latest.Determined ValidatedRelation.fingerprint ValidatedRelation.observedAt
      ValidatedRelation.key rows := by
  intro v hv w hw hkey hfingerprint htime
  obtain ⟨o, ho, hvo⟩ := Fallible.argument_of_mapM hrows hv
  obtain ⟨o', ho', hwo⟩ := Fallible.argument_of_mapM hrows hw
  have hv := normalizeRelation_eq hvo
  have hw := normalizeRelation_eq hwo
  subst hv hw
  have hpath := serializedRelation_inj (hdigest o ho o' ho' hfingerprint)
  have hkey' : o.key request.connection.connectionId = o'.key request.connection.connectionId :=
    hkey
  have htime' : o.observedAt = o'.observedAt := htime
  have hfingerprint' : digest (serializedRelation request o) =
      digest (serializedRelation request o') := hfingerprint
  simp only [hkey', hpath, htime', hfingerprint']

theorem collectResources_perm {os os' : List ResourceObservation} {d : Nat}
    {acc' : KeyedTable ValidatedResource.key × Nat} (hperm : os.Perm os')
    (hdigest : ∀ o ∈ os, ∀ o' ∈ os,
      digest (n.serializedResource request o) = digest (n.serializedResource request o') →
        n.serializedResource request o = n.serializedResource request o')
    (h : n.collectResources digest request (.empty, d) os = .ok acc') :
    n.collectResources digest request (.empty, d) os' = .ok acc' := by
  obtain ⟨rows, hrows, hkeep, hsum⟩ := collectResources_ok_iff.mp h
  obtain ⟨rows', hrows', hbs⟩ := Fallible.mapM_perm hperm hrows
  refine collectResources_ok_iff.mpr ⟨rows', hrows', ?_, ?_⟩
  · show Latest.keepAll _ _ KeyedTable.empty _ = _
    rw [Latest.keepAll_perm (hbs.map Prod.fst) (resources_determined hrows hdigest)]
    exact hkeep
  · rw [hsum, (hbs.map Prod.snd).sum_eq]

theorem collectRelations_perm {os os' : List RelationObservation}
    {t' : KeyedTable ValidatedRelation.key} (hperm : os.Perm os')
    (hdigest : ∀ o ∈ os, ∀ o' ∈ os,
      digest (serializedRelation request o) = digest (serializedRelation request o') →
        serializedRelation request o = serializedRelation request o')
    (h : n.collectRelations digest request .empty os = .ok t') :
    n.collectRelations digest request .empty os' = .ok t' := by
  obtain ⟨rows, hrows, hkeep⟩ := collectRelations_ok_iff.mp h
  obtain ⟨rows', hrows', hbs⟩ := Fallible.mapM_perm hperm hrows
  refine collectRelations_ok_iff.mpr ⟨rows', hrows', ?_⟩
  rw [Latest.keepAll_perm hbs (relations_determined hrows hdigest)]
  exact hkeep

/-- An accepted batch is accepted in every order, with one result. -/
theorem normalize_perm {batch : ObservationBatch} {resources : List ResourceObservation}
    {relations : List RelationObservation} (hresources : batch.resources.Perm resources)
    (hrelations : batch.relations.Perm relations)
    (hdigest : Set.InjOn digest {value | value ∈ n.serialized request batch}) {b : ValidatedBatch}
    (h : n.normalize digest request batch = .ok b) :
    n.normalize digest request { batch with resources := resources, relations := relations } =
      .ok b := by
  have hres : ∀ o ∈ batch.resources, n.serializedResource request o ∈ n.serialized request batch :=
    fun o ho => List.mem_append_left _ (List.mem_map.mpr ⟨o, ho, rfl⟩)
  have hrel : ∀ o ∈ batch.relations, serializedRelation request o ∈ n.serialized request batch :=
    fun o ho => List.mem_append_right _ (List.mem_map.mpr ⟨o, ho, rfl⟩)
  unfold normalize at h
  obtain ⟨_, hvalid, h⟩ := bind_ok h
  obtain ⟨_, hwarnings, h⟩ := bind_ok h
  obtain ⟨⟨t, dropped⟩, hcollected, h⟩ := bind_ok h
  obtain ⟨t', hcollected', h⟩ := bind_ok h
  have hcollected := collectResources_perm hresources
    (fun o ho o' ho' => hdigest (hres o ho) (hres o' ho')) hcollected
  have hcollected' := collectRelations_perm hrelations
    (fun o ho o' ho' => hdigest (hrel o ho) (hrel o' ho')) hcollected'
  have hvalid' : ObservationBatch.validateFor
      { batch with resources := resources, relations := relations } request = .ok () := hvalid
  unfold normalize
  rw [hvalid', hwarnings, hcollected, hcollected']
  exact h

/-- The serialized values of a permuted batch. -/
theorem mem_serialized_perm {batch : ObservationBatch} {resources : List ResourceObservation}
    {relations : List RelationObservation} (hresources : batch.resources.Perm resources)
    (hrelations : batch.relations.Perm relations) {value : Value} :
    value ∈ n.serialized request { batch with resources := resources, relations := relations } ↔
      value ∈ n.serialized request batch :=
  (((hresources.map _).append (hrelations.map _)).mem_iff).symm

/-- Every row of an accepted batch is an observation that none of its key is later than. -/
structure KeepsLatest (digest : Value → Fingerprint) (n : Normalizer) (request : SyncRequest)
    (batch : ObservationBatch) (b : ValidatedBatch) : Prop where
  resources : ∀ v ∈ b.resources, ∃ o ∈ batch.resources,
    (∃ d, n.normalizeResource digest request o = .ok (v, d)) ∧
      ∀ o' ∈ batch.resources, o'.locator = o.locator → o'.observedAt ≤ o.observedAt
  resourcesKept : ∀ o ∈ batch.resources, ∃ v ∈ b.resources,
    v.key = o.locator.key request.connection.connectionId
  relations : ∀ v ∈ b.relations, ∃ o ∈ batch.relations,
    n.normalizeRelation digest request o = .ok v ∧
      ∀ o' ∈ batch.relations, o'.key request.connection.connectionId =
        o.key request.connection.connectionId → o'.observedAt ≤ o.observedAt
  relationsKept : ∀ o ∈ batch.relations, ∃ v ∈ b.relations,
    v.key = o.key request.connection.connectionId

theorem normalize_keepsLatest {batch : ObservationBatch} {b : ValidatedBatch}
    (hdigest : Set.InjOn digest {value | value ∈ n.serialized request batch})
    (h : n.normalize digest request batch = .ok b) : KeepsLatest digest n request batch b := by
  obtain ⟨t, dropped, t', _, hres, hrel, rfl⟩ := normalize_ok h
  obtain ⟨rows, hrows, hkeep, _⟩ := collectResources_ok_iff.mp hres
  obtain ⟨rows', hrows', hkeep'⟩ := collectRelations_ok_iff.mp hrel
  have hdetermined := resources_determined hrows fun o ho o' ho' =>
    hdigest (List.mem_append_left _ (List.mem_map.mpr ⟨o, ho, rfl⟩))
      (List.mem_append_left _ (List.mem_map.mpr ⟨o', ho', rfl⟩))
  have hdetermined' := relations_determined hrows' fun o ho o' ho' =>
    hdigest (List.mem_append_right _ (List.mem_map.mpr ⟨o, ho, rfl⟩))
      (List.mem_append_right _ (List.mem_map.mpr ⟨o', ho', rfl⟩))
  have hholds := ((Latest.keepAll_some_iff hdetermined).mp hkeep).2
  have hholds' := ((Latest.keepAll_some_iff hdetermined').mp hkeep').2
  constructor
  · intro v hv
    obtain ⟨⟨v, d⟩, hrow, rfl⟩ := List.mem_map.mp (hholds.taken v hv)
    obtain ⟨o, ho, hvo⟩ := Fallible.argument_of_mapM hrows hrow
    obtain ⟨hkey, htime, _⟩ := normalizeResource_ok hvo
    refine ⟨o, ho, ⟨d, hvo⟩, fun o' ho' hlocator => ?_⟩
    obtain ⟨⟨w, e⟩, hw, hwo⟩ := Fallible.result_of_mapM hrows ho'
    obtain ⟨hkey', htime', _⟩ := normalizeResource_ok hwo
    rw [← htime, ← htime']
    exact hholds.latest hv (List.mem_map.mpr ⟨_, hw, rfl⟩) (by rw [hkey, hkey', hlocator])
  · intro o ho
    obtain ⟨⟨v, d⟩, hrow, hvo⟩ := Fallible.result_of_mapM hrows ho
    obtain ⟨w, hw, hkey, _⟩ := hholds.covers v (List.mem_map.mpr ⟨_, hrow, rfl⟩)
    exact ⟨w, hw, hkey.trans (normalizeResource_ok hvo).1⟩
  · intro v hv
    obtain ⟨o, ho, hvo⟩ := Fallible.argument_of_mapM hrows' (hholds'.taken v hv)
    obtain ⟨hkey, htime⟩ := normalizeRelation_key hvo
    refine ⟨o, ho, hvo, fun o' ho' hsame => ?_⟩
    obtain ⟨w, hw, hwo⟩ := Fallible.result_of_mapM hrows' ho'
    obtain ⟨hkey', htime'⟩ := normalizeRelation_key hwo
    rw [← htime, ← htime']
    exact hholds'.latest hv hw (by rw [hkey, hkey', hsame])
  · intro o ho
    obtain ⟨v, hrow, hvo⟩ := Fallible.result_of_mapM hrows' ho
    obtain ⟨w, hw, hkey, _⟩ := hholds'.covers v hrow
    exact ⟨w, hw, hkey.trans (normalizeRelation_key hvo).1⟩

/-- Where the digest tells the serialized values of a batch apart: the batch fails in one
order of its observations iff it fails in another, a batch that is accepted has one result
in every order, and of the observations of a key the latest is kept. -/
theorem normalize_order_free (digest : Value → Fingerprint) (n : Normalizer)
    (request : SyncRequest) (batch : ObservationBatch) (resources : List ResourceObservation)
    (relations : List RelationObservation) (hresources : batch.resources.Perm resources)
    (hrelations : batch.relations.Perm relations)
    (hdigest : Set.InjOn digest {value | value ∈ n.serialized request batch}) :
    ((∃ e, n.normalize digest request batch = .error e) ↔
      ∃ e, n.normalize digest request
        { batch with resources := resources, relations := relations } = .error e) ∧
    (∀ b b', n.normalize digest request batch = .ok b →
      n.normalize digest request
        { batch with resources := resources, relations := relations } = .ok b' → b' = b) ∧
    ∀ b, n.normalize digest request batch = .ok b → KeepsLatest digest n request batch b := by
  have hback : ∀ b, n.normalize digest request
      { batch with resources := resources, relations := relations } = .ok b →
        n.normalize digest request batch = .ok b := by
    intro b h
    have hdigest' : Set.InjOn digest {value | value ∈ n.serialized request
        { batch with resources := resources, relations := relations }} :=
      hdigest.mono fun value hvalue => (mem_serialized_perm hresources hrelations).mp hvalue
    exact normalize_perm hresources.symm hrelations.symm hdigest' h
  have hforth := fun b => normalize_perm (b := b) hresources hrelations hdigest
  refine ⟨?_, ?_, fun b => normalize_keepsLatest hdigest⟩
  · constructor
    · rintro ⟨e, he⟩
      cases h : n.normalize digest request
          { batch with resources := resources, relations := relations } with
      | error e' => exact ⟨e', rfl⟩
      | ok b =>
          rw [hback b h] at he
          cases he
    · rintro ⟨e, he⟩
      cases h : n.normalize digest request batch with
      | error e' => exact ⟨e', rfl⟩
      | ok b =>
          rw [hforth b h] at he
          cases he
  · intro b b' h h'
    rw [hforth b h] at h'
    exact (Except.ok.inj h').symm

end

namespace Repeated

def hostKind : ResourceKind := ⟨"host.vm", by decide +kernel⟩

def normalizer : Normalizer where
  attributeSchemas := KeyedTable.empty.put
    { kind := hostKind, schemaVersion := .one, allowedAttributes := [] }
  relationSchemas := []
  pathsAllowed := by decide
  relationsDistinct := List.nodup_nil

def request : SyncRequest where
  syncRunId := ⟨"run", trimmed_run⟩
  connection :=
    { connectionId := ⟨"lab", trimmed_lab⟩
      connectorType := .github
      config := .object []
      configSchemaVersion := .one }
  mode := .full
  scope := ⟨"all", trimmed_all⟩
  cursor := none
  targetedResources := []

def seen (externalId : ExternalId) (at_ : Timestamp) : ResourceObservation where
  kind := hostKind
  externalId := externalId
  name := "vm"
  displayName := "vm"
  scope := ⟨"all", trimmed_all⟩
  labels := .empty
  health := .healthy
  attributes := .object []
  attributeSchemaVersion := .one
  observedAt := at_

def x : ExternalId := ⟨"x", trimmed_x⟩

def y : ExternalId := ⟨"y", by decide⟩

theorem seven_le : 7 ≤ maxTimestampMillis := by decide

/-- `x` is observed twice. -/
def batch : ObservationBatch where
  resources := [seen x ⟨7, seven_le⟩, seen y ⟨5, by decide⟩, seen x ⟨6, by decide⟩]
  relations := []
  coverage := .authoritativeFull ⟨"all", trimmed_all⟩
  nextCursor := none
  warnings := []
  redactionReport := {}
  providerRequestSummary := {}

/-- Tells the two resources apart. -/
def digest (value : Value) : Fingerprint :=
  if value = normalizer.serializedResource request (seen x ⟨7, seven_le⟩) then ⟨"x", trimmed_x⟩
  else ⟨"y", by decide⟩

/-- What an accepted batch lists: the external ids and the instants. -/
def listed (answer : Except DomainError ValidatedBatch) : Option (List (String × Nat)) :=
  answer.toOption.map fun b => b.resources.map fun v => (v.key.externalId.val, v.observedAt.unixMillis)

theorem digest_apart :
    Set.InjOn digest {value | value ∈ normalizer.serialized request batch} := by
  have happart : ∀ a ∈ normalizer.serialized request batch,
      ∀ b ∈ normalizer.serialized request batch, digest a = digest b → a = b := by
    decide +kernel
  exact fun a ha b hb h => happart a ha b hb h

end Repeated

open Repeated in
/-- Reversed, the batch is accepted with the same result. -/
theorem normalize_order_free_repeated :
    ∃ b, normalizer.normalize digest request batch = .ok b ∧
      listed (.ok b) = some [("x", 7), ("y", 5)] ∧
      ∀ b', normalizer.normalize digest request
        { batch with resources := batch.resources.reverse, relations := [] } = .ok b' → b' = b := by
  have hlisted : listed (normalizer.normalize digest request batch) = some [("x", 7), ("y", 5)] := by
    decide +kernel
  cases h : normalizer.normalize digest request batch with
  | error e =>
      rw [h] at hlisted
      cases hlisted
  | ok b =>
      rw [h] at hlisted
      refine ⟨b, rfl, hlisted, fun b' h' => ?_⟩
      exact (normalize_order_free digest normalizer request batch batch.resources.reverse []
        (List.reverse_perm _).symm (List.Perm.refl _) digest_apart).2.1 b b' h h'

end Normalizer

end NextInfra
