import NextInfra.Normalizer.Normalize

/-!
# When the normalizer accepts a batch

§1: where the rows of a batch come from. §2: a batch whose observations are accepted one
by one, under keys that all differ, is accepted, and its rows are what they make.
-/

namespace NextInfra

/-- The key of an observation within its connection. -/
def ResourceObservation.locator (o : ResourceObservation) : ResourceLocator :=
  { kind := o.kind, externalId := o.externalId }

def ResourceLocator.key (locator : ResourceLocator) (connection : ConnectionId) : ResourceKey where
  connectionId := connection
  kind := locator.kind
  externalId := locator.externalId

theorem ResourceLocator.key_injective (connection : ConnectionId) :
    Function.Injective fun locator : ResourceLocator => locator.key connection := by
  rintro ⟨kind, externalId⟩ ⟨kind', externalId'⟩ h
  cases h
  rfl

/-- The key of a relation within its connection. -/
def RelationObservation.key (o : RelationObservation) (connection : ConnectionId) :
    ValidatedRelationKey where
  source := o.source.key connection
  target := o.target.key connection
  kind := o.kind
  evidenceKey := o.evidenceKey

/-- A new key is put beside the others. -/
theorem absorb_new {ρ κ : Type} [LinearOrder κ] {key : ρ → κ} {fingerprint : ρ → Fingerprint}
    {observedAt : ρ → Timestamp} {conflict : String} {t : KeyedTable key} {r : ρ}
    (hnew : ∀ x ∈ t.rows, key x ≠ key r) :
    absorb fingerprint observedAt conflict t r = .ok (t.put r) := by
  unfold absorb
  rw [KeyedTable.get_eq_none_iff.mpr hnew]

namespace Normalizer

variable {digest : Value → Fingerprint} {n : Normalizer} {request : SyncRequest}

/-! ## §1  Rows and observations -/

/-- What a row keeps of its observation. -/
theorem normalizeResource_ok {o : ResourceObservation} {v : ValidatedResource} {d : Nat}
    (h : n.normalizeResource digest request o = .ok (v, d)) :
    v.key = o.locator.key request.connection.connectionId ∧ v.observedAt = o.observedAt ∧
      v.scope = o.scope := by
  unfold normalizeResource at h
  obtain ⟨_, _, h⟩ := bind_ok h
  obtain ⟨_, _, h⟩ := bind_ok h
  obtain ⟨_, _, h⟩ := bind_ok h
  obtain ⟨_, _, h⟩ := bind_ok h
  split at h
  · cases h
  · split at h
    · cases h
      exact ⟨rfl, rfl, rfl⟩
    · cases h

theorem normalizeRelation_key {o : RelationObservation} {v : ValidatedRelation}
    (h : n.normalizeRelation digest request o = .ok v) :
    v.key = o.key request.connection.connectionId ∧ v.observedAt = o.observedAt := by
  unfold normalizeRelation at h
  split at h
  · cases h
  · split at h
    · cases h
    · cases h
      exact ⟨rfl, rfl⟩

/-- A row is one of the observations, as it was accepted. -/
theorem mem_collectResources {os : List ResourceObservation}
    {acc acc' : KeyedTable ValidatedResource.key × Nat}
    (h : n.collectResources digest request acc os = .ok acc') {v : ValidatedResource}
    (hv : v ∈ acc'.1.rows) :
    v ∈ acc.1.rows ∨ ∃ o ∈ os, ∃ d, n.normalizeResource digest request o = .ok (v, d) := by
  induction os generalizing acc with
  | nil =>
      cases h
      exact Or.inl hv
  | cons o os ih =>
      obtain ⟨t, dropped⟩ := acc
      unfold collectResources at h
      obtain ⟨⟨w, d⟩, hw, h⟩ := bind_ok h
      obtain ⟨t', ht', h⟩ := bind_ok h
      rcases ih h with hmem | ⟨o', ho', hex⟩
      · have habsorbed := @absorb_ok _ _ _ _ _ _ _ _ _ _ (fun x => x ∈ t.rows ∨ x = w) ht'
          (fun x hx => Or.inl hx) (Or.inr rfl) v hmem
        rcases habsorbed with hold | rfl
        · exact Or.inl hold
        · exact Or.inr ⟨o, List.mem_cons_self, d, hw⟩
      · exact Or.inr ⟨o', List.mem_cons_of_mem _ ho', hex⟩

/-- A validated resource is one of the observed ones, as it was accepted. -/
theorem mem_normalize_resources {batch : ObservationBatch} {b : ValidatedBatch}
    (h : n.normalize digest request batch = .ok b) {v : ValidatedResource}
    (hv : v ∈ b.resources) :
    ∃ o ∈ batch.resources, ∃ d, n.normalizeResource digest request o = .ok (v, d) := by
  obtain ⟨resources, dropped, relations, _, hres, _, rfl⟩ := normalize_ok h
  rcases mem_collectResources hres hv with hnone | hex
  · cases hnone
  · exact hex

/-! ## §2  Acceptance -/

theorem scanLabels_of_forall {labels : List (LabelKey × String)}
    (h : ∀ p ∈ labels, isSensitiveFieldName p.1.val = false ∧ scanText p.2 = .ok ()) :
    scanLabels labels = .ok () := by
  induction labels with
  | nil => rfl
  | cons p labels ih =>
      obtain ⟨key, value⟩ := p
      obtain ⟨hkey, hvalue⟩ := h _ List.mem_cons_self
      unfold scanLabels
      simp only at hkey hvalue
      rw [hkey, hvalue]
      exact ih fun q hq => h q (List.mem_cons_of_mem _ hq)

theorem scanWarnings_of_forall {warnings : List ObservationWarning}
    (h : ∀ w ∈ warnings, scanText w.message = .ok ()) : scanWarnings warnings = .ok () := by
  induction warnings with
  | nil => rfl
  | cons w warnings ih =>
      unfold scanWarnings
      rw [h w List.mem_cons_self]
      exact ih fun x hx => h x (List.mem_cons_of_mem _ hx)

/-- An observation without secrets, of a kind the normalizer knows, is accepted. -/
theorem normalizeResource_total {o : ResourceObservation} {fields : List (String × Value)}
    (hfields : o.attributes = .object fields)
    (hattributes : scanForSecrets o.attributes = .ok ()) (hname : scanText o.name = .ok ())
    (hdisplay : scanText o.displayName = .ok ()) (hlabels : scanLabels o.labels.rows = .ok ())
    (hschema : (n.attributeSchemas.get
      (toLex (o.kind, o.attributeSchemaVersion.val))).isSome = true) :
    ∃ v d, n.normalizeResource digest request o = .ok (v, d) := by
  obtain ⟨schema, hschema⟩ := Option.isSome_iff_exists.mp hschema
  unfold normalizeResource
  rw [hattributes, hname, hdisplay, hlabels]
  simp only [hschema, hfields]
  exact ⟨_, _, rfl⟩

/-- A relation of registered kinds whose field is no secret is accepted. -/
theorem normalizeRelation_total {o : RelationObservation}
    (hfield : isSensitiveFieldName o.fieldPath.val = false) {schema : RelationSchema}
    (hschema : schema ∈ n.relationSchemas) (hkind : schema.kind = o.kind)
    (hsource : schema.sourceKind = o.source.kind) (htarget : schema.targetKind = o.target.kind) :
    ∃ v, n.normalizeRelation digest request o = .ok v := by
  have hany : n.relationSchemas.any (fun schema =>
      decide (schema.kind = o.kind) && decide (schema.sourceKind = o.source.kind) &&
        decide (schema.targetKind = o.target.kind)) = true := by
    refine List.any_eq_true.mpr ⟨schema, hschema, ?_⟩
    simp [hkind, hsource, htarget]
  unfold normalizeRelation
  rw [if_neg (by rw [hfield]; decide), if_neg (by rw [hany]; decide)]
  exact ⟨_, rfl⟩

theorem collectResources_total {os : List ResourceObservation}
    (hnormal : ∀ o ∈ os, ∃ v d, n.normalizeResource digest request o = .ok (v, d))
    (hkeys : (os.map ResourceObservation.locator).Nodup)
    (acc : KeyedTable ValidatedResource.key × Nat)
    (hapart : ∀ v ∈ acc.1.rows, ∀ o ∈ os,
      v.key ≠ o.locator.key request.connection.connectionId) :
    ∃ acc', n.collectResources digest request acc os = .ok acc' ∧
      ∀ v, v ∈ acc'.1.rows ↔
        v ∈ acc.1.rows ∨ ∃ o ∈ os, ∃ d, n.normalizeResource digest request o = .ok (v, d) := by
  induction os generalizing acc with
  | nil => exact ⟨acc, rfl, by simp⟩
  | cons o os ih =>
      obtain ⟨t, dropped⟩ := acc
      obtain ⟨v, d, hv⟩ := hnormal o List.mem_cons_self
      obtain ⟨hkey, _, _⟩ := normalizeResource_ok hv
      rw [List.map_cons, List.nodup_cons] at hkeys
      obtain ⟨hnew, hrest⟩ := hkeys
      have hfresh : ∀ x ∈ t.rows, x.key ≠ v.key := by
        intro x hx
        rw [hkey]
        exact hapart x hx o List.mem_cons_self
      have hput := @absorb_new _ _ _ _ ValidatedResource.fingerprint ValidatedResource.observedAt
        "conflicting observations share one resource identity" t v hfresh
      obtain ⟨acc', hacc', hmem⟩ := ih (fun o' ho' => hnormal o' (List.mem_cons_of_mem _ ho')) hrest
        (t.put v, dropped + d) (by
          intro x hx o' ho'
          rcases KeyedTable.mem_put.mp hx with rfl | ⟨hold, _⟩
          · intro heq
            rw [hkey] at heq
            exact hnew (ResourceLocator.key_injective _ heq ▸ List.mem_map_of_mem ho')
          · exact hapart x hold o' (List.mem_cons_of_mem _ ho'))
      refine ⟨acc', ?_, ?_⟩
      · unfold collectResources
        rw [hv]
        show (absorb _ _ _ t v >>= _) = _
        rw [hput]
        exact hacc'
      · intro x
        rw [hmem]
        constructor
        · rintro (hx | ⟨o', ho', hex⟩)
          · rcases KeyedTable.mem_put.mp hx with rfl | ⟨hold, _⟩
            · exact Or.inr ⟨o, List.mem_cons_self, d, hv⟩
            · exact Or.inl hold
          · exact Or.inr ⟨o', List.mem_cons_of_mem _ ho', hex⟩
        · rintro (hx | ⟨o', ho', d', hd'⟩)
          · exact Or.inl (KeyedTable.mem_put.mpr (Or.inr ⟨hx, hfresh x hx⟩))
          · rcases List.mem_cons.mp ho' with rfl | ho'
            · rw [hv] at hd'
              cases hd'
              exact Or.inl (KeyedTable.mem_put.mpr (Or.inl rfl))
            · exact Or.inr ⟨o', ho', d', hd'⟩

theorem collectRelations_total {os : List RelationObservation}
    (hnormal : ∀ o ∈ os, ∃ v, n.normalizeRelation digest request o = .ok v)
    (hkeys : (os.map fun o => o.key request.connection.connectionId).Nodup)
    (t : KeyedTable ValidatedRelation.key)
    (hapart : ∀ v ∈ t.rows, ∀ o ∈ os, v.key ≠ o.key request.connection.connectionId) :
    ∃ t', n.collectRelations digest request t os = .ok t' ∧
      ∀ v, v ∈ t'.rows ↔
        v ∈ t.rows ∨ ∃ o ∈ os, n.normalizeRelation digest request o = .ok v := by
  induction os generalizing t with
  | nil => exact ⟨t, rfl, by simp⟩
  | cons o os ih =>
      obtain ⟨v, hv⟩ := hnormal o List.mem_cons_self
      obtain ⟨hkey, _⟩ := normalizeRelation_key hv
      rw [List.map_cons, List.nodup_cons] at hkeys
      obtain ⟨hnew, hrest⟩ := hkeys
      have hfresh : ∀ x ∈ t.rows, x.key ≠ v.key := by
        intro x hx
        rw [hkey]
        exact hapart x hx o List.mem_cons_self
      have hput := @absorb_new _ _ _ _ ValidatedRelation.fingerprint ValidatedRelation.observedAt
        "conflicting observations share one relation identity" t v hfresh
      obtain ⟨t', ht', hmem⟩ := ih (fun o' ho' => hnormal o' (List.mem_cons_of_mem _ ho')) hrest
        (t.put v) (by
          intro x hx o' ho'
          rcases KeyedTable.mem_put.mp hx with rfl | ⟨hold, _⟩
          · intro heq
            rw [hkey] at heq
            exact hnew (List.mem_map.mpr ⟨o', ho', heq.symm⟩)
          · exact hapart x hold o' (List.mem_cons_of_mem _ ho'))
      refine ⟨t', ?_, ?_⟩
      · unfold collectRelations
        rw [hv]
        show (absorb _ _ _ t v >>= _) = _
        rw [hput]
        exact ht'
      · intro x
        rw [hmem]
        constructor
        · rintro (hx | ⟨o', ho', hex⟩)
          · rcases KeyedTable.mem_put.mp hx with rfl | ⟨hold, _⟩
            · exact Or.inr ⟨o, List.mem_cons_self, hv⟩
            · exact Or.inl hold
          · exact Or.inr ⟨o', List.mem_cons_of_mem _ ho', hex⟩
        · rintro (hx | ⟨o', ho', ho''⟩)
          · exact Or.inl (KeyedTable.mem_put.mpr (Or.inr ⟨hx, hfresh x hx⟩))
          · rcases List.mem_cons.mp ho' with rfl | ho'
            · rw [hv] at ho''
              cases ho''
              exact Or.inl (KeyedTable.mem_put.mpr (Or.inl rfl))
            · exact Or.inr ⟨o', ho', ho''⟩

/-- What an accepted batch takes over from its observations, row by row. -/
structure Takes (digest : Value → Fingerprint) (n : Normalizer) (request : SyncRequest)
    (batch : ObservationBatch) (b : ValidatedBatch) : Prop where
  resources : ∀ v, v ∈ b.resources ↔
    ∃ o ∈ batch.resources, ∃ d, n.normalizeResource digest request o = .ok (v, d)
  relations : ∀ v, v ∈ b.relations ↔
    ∃ o ∈ batch.relations, n.normalizeRelation digest request o = .ok v

/-- A batch of accepted observations under different keys is accepted. -/
theorem normalize_total {batch : ObservationBatch} (hvalid : batch.validateFor request = .ok ())
    (hwarnings : scanWarnings batch.warnings = .ok ())
    (hresources : ∀ o ∈ batch.resources, ∃ v d, n.normalizeResource digest request o = .ok (v, d))
    (hresourceKeys : (batch.resources.map ResourceObservation.locator).Nodup)
    (hrelations : ∀ o ∈ batch.relations, ∃ v, n.normalizeRelation digest request o = .ok v)
    (hrelationKeys :
      (batch.relations.map fun o => o.key request.connection.connectionId).Nodup) :
    ∃ b, n.normalize digest request batch = .ok b ∧ Takes digest n request batch b := by
  obtain ⟨⟨resources, dropped⟩, hres, hresMem⟩ := collectResources_total hresources hresourceKeys
    (.empty, batch.redactionReport.unknownFieldsDropped) (by simp)
  obtain ⟨relations, hrel, hrelMem⟩ := collectRelations_total hrelations hrelationKeys .empty
    (by simp)
  let b : ValidatedBatch :=
    { connectionId := request.connection.connectionId
      syncRunId := request.syncRunId
      resources := resources.rows
      relations := relations.rows
      coverage := batch.coverage
      nextCursor := batch.nextCursor
      warnings := batch.warnings
      redactionReport := { batch.redactionReport with unknownFieldsDropped := dropped }
      providerRequestSummary := batch.providerRequestSummary }
  refine ⟨b, ?_, ?_, ?_⟩
  · unfold normalize
    rw [hvalid, hwarnings]
    show (n.collectResources digest request _ _ >>= _) = _
    rw [hres]
    show (n.collectRelations digest request _ _ >>= _) = _
    rw [hrel]
    rfl
  · intro v
    show v ∈ resources.rows ↔ _
    rw [hresMem]
    simp
  · intro v
    show v ∈ relations.rows ↔ _
    rw [hrelMem]
    simp

end Normalizer

end NextInfra
