import NextInfra.Cloudflare.HashOrder
import NextInfra.Desktop.Normalizers
import NextInfra.Normalizer.Secrets

/-!
# What one failing child costs

A child list that fails is meant to cost its own rows and no more. §1 gathers what the
mapper and the normalizer do with one kind of rows, §2 says when they accept what was
collected, §3 when each child list is heard, and §4 when all of this holds of a sync.
-/

namespace NextInfra

namespace Cloudflare

/-! ## §1  Kinds of rows -/

/-- A text, a truth value or nothing. -/
def IsScalar (value : Value) : Prop :=
  (∃ text, value = .string text) ∨ (∃ b, value = .bool b) ∨ value = .null

/-- One kind of rows: how a row is observed, and the schema its fields are under. -/
structure RowKind (α : Type) where
  mapped : MappedKind
  observe : Context → α → Except String ResourceObservation
  idOf : α → String
  shownOf : α → String
  fieldsOf : α → List (String × Value)
  keys : List String
  schema : AttributeSchema
  observed : ∀ {ctx v r}, observe ctx v = .ok r →
    mapping.resource ctx mapped (idOf v) (shownOf v) (.mkObject (fieldsOf v)) = .ok r
  keysOf : ∀ v, (fieldsOf v).map Prod.fst = keys
  scalars : ∀ v, ∀ p ∈ fieldsOf v, IsScalar p.2
  distinct : keys.Nodup
  clear : ∀ key ∈ keys, isSensitiveFieldName key = false
  registered : cloudflareNormalizer.attributeSchemas.get (toLex (mapped.kind, 1)) = some schema
  allowed : ∀ key ∈ keys, Under schema.allowedAttributes [key]
  label : scanText mapped.label = .ok ()

theorem optional_scalar (text : Option String) : IsScalar (optional text) := by
  cases text with
  | none => exact Or.inr (Or.inr rfl)
  | some text => exact Or.inl ⟨text, rfl⟩

def accountRows : RowKind AccountDto where
  mapped := accountKind
  observe := account
  idOf := AccountDto.id
  shownOf := AccountDto.name
  fieldsOf := fun _ => []
  keys := []
  schema := provSchema "cloudflare.account" [] account_named
  observed := fun h => h
  keysOf := fun _ => rfl
  scalars := fun _ p hp => by cases hp
  distinct := List.nodup_nil
  clear := fun key hkey => by cases hkey
  registered := by decide +kernel
  allowed := fun key hkey => by cases hkey
  label := by decide +kernel

def zoneRows : RowKind ZoneDto where
  mapped := zoneKind
  observe := zone
  idOf := ZoneDto.id
  shownOf := ZoneDto.name
  fieldsOf := fun v => [("account_id", .string v.account.id), ("status", optional v.status)]
  keys := ["account_id", "status"]
  schema := provSchema "cloudflare.zone" ["account_id", "status"] zone_named
  observed := fun h => h
  keysOf := fun _ => rfl
  scalars := by
    intro v
    simp only [List.forall_mem_cons]
    exact ⟨Or.inl ⟨_, rfl⟩, optional_scalar _, by simp⟩
  distinct := by decide +kernel
  clear := by decide +kernel
  registered := by decide +kernel
  allowed := by decide +kernel
  label := by decide +kernel

def recordRows : RowKind DnsRecordDto where
  mapped := recordKind
  observe := record
  idOf := DnsRecordDto.id
  shownOf := DnsRecordDto.name
  fieldsOf := fun v =>
    [("zone_id", .string v.zoneId), ("type", .string v.recordType), ("content", .string v.content),
      ("proxied", (v.proxied.map Value.bool).getD .null)]
  keys := ["zone_id", "type", "content", "proxied"]
  schema := provSchema "cloudflare.dns_record" ["zone_id", "type", "content", "proxied"] record_named
  observed := by
    intro ctx v r h
    unfold record at h
    split at h
    · cases h
    · exact h
  keysOf := fun _ => rfl
  scalars := by
    intro v
    simp only [List.forall_mem_cons]
    refine ⟨Or.inl ⟨_, rfl⟩, Or.inl ⟨_, rfl⟩, Or.inl ⟨_, rfl⟩, ?_, by simp⟩
    cases v.proxied with
    | none => exact Or.inr (Or.inr rfl)
    | some b => exact Or.inr (Or.inl ⟨b, rfl⟩)
  distinct := by decide +kernel
  clear := by decide +kernel
  registered := by decide +kernel
  allowed := by decide +kernel
  label := by decide +kernel

def tunnelRows : RowKind TunnelWithAccount where
  mapped := tunnelKind
  observe := tunnel
  idOf := fun v => v.tunnel.id
  shownOf := fun v => v.tunnel.name
  fieldsOf := fun v => [("account_id", .string v.accountId), ("status", optional v.tunnel.status)]
  keys := ["account_id", "status"]
  schema := provSchema "cloudflare.tunnel" ["account_id", "status"] tunnel_named
  observed := fun h => h
  keysOf := fun _ => rfl
  scalars := by
    intro v
    simp only [List.forall_mem_cons]
    exact ⟨Or.inl ⟨_, rfl⟩, optional_scalar _, by simp⟩
  distinct := by decide +kernel
  clear := by decide +kernel
  registered := by decide +kernel
  allowed := by decide +kernel
  label := by decide +kernel

def workerRows : RowKind WorkerWithAccount where
  mapped := workerKind
  observe := worker
  idOf := fun v => v.worker.id
  shownOf := fun v => v.worker.id
  fieldsOf := fun v =>
    [("account_id", .string v.accountId), ("modified_on", optional v.worker.modifiedOn)]
  keys := ["account_id", "modified_on"]
  schema := provSchema "cloudflare.worker" ["account_id", "modified_on"] worker_named
  observed := fun h => h
  keysOf := fun _ => rfl
  scalars := by
    intro v
    simp only [List.forall_mem_cons]
    exact ⟨Or.inl ⟨_, rfl⟩, optional_scalar _, by simp⟩
  distinct := by decide +kernel
  clear := by decide +kernel
  registered := by decide +kernel
  allowed := by decide +kernel
  label := by decide +kernel

namespace RowKind

variable {α : Type} (k : RowKind α) {ctx : Context} {v v' : α} {r r' : ResourceObservation}

/-- The texts of a row: its id, its name and the fields that hold one. -/
def texts (v : α) : List String :=
  k.idOf v :: k.shownOf v :: (k.fieldsOf v).filterMap fun p => p.2.asStr

/-- No text of the row is taken for a secret. -/
def Clean (v : α) : Prop := ∀ text ∈ k.texts v, ¬Sentinel text

/-- Rows with one id are mapped alike. -/
def Alike (ctx : Context) (P : α → Prop) : Prop :=
  ∀ v v', P v → P v' → k.idOf v = k.idOf v' → k.observe ctx v = k.observe ctx v'

variable {k}

theorem makes (h : k.observe ctx v = .ok r) :
    mapping.Makes k.mapped (k.idOf v) (k.shownOf v) (.mkObject (k.fieldsOf v)) r :=
  Mapping.resource_makes (k.observed h)

theorem locator_eq_iff (h : k.observe ctx v = .ok r) (h' : k.observe ctx v' = .ok r') :
    r.locator = r'.locator ↔ k.idOf v = k.idOf v' := by
  have hm := makes h
  have hm' := makes h'
  constructor
  · intro heq
    have hid := congrArg (fun l => l.externalId.val) heq
    dsimp only [ResourceObservation.locator] at hid
    rw [hm.externalId, hm'.externalId] at hid
    exact (named_injective hid).2
  · intro hid
    unfold ResourceObservation.locator
    rw [ResourceLocator.mk.injEq]
    refine ⟨hm.kind.trans hm'.kind.symm, StringValue.ext_val ?_⟩
    rw [hm.externalId, hm'.externalId, hid]

/-- A field of a row, where its keys differ. -/
theorem fieldOf_reverse {p : String × Value} (hp : p ∈ k.fieldsOf v) :
    Value.fieldOf p.1 (k.fieldsOf v).reverse = some p.2 := by
  have hnodup : ((k.fieldsOf v).reverse.map Prod.fst).Nodup := by
    rw [List.map_reverse, List.nodup_reverse, k.keysOf]
    exact k.distinct
  have hmem : p ∈ (k.fieldsOf v).reverse := List.mem_reverse.mpr hp
  unfold Value.fieldOf
  cases hfind : (k.fieldsOf v).reverse.find? fun q => decide (q.1 = p.1) with
  | none =>
      have hno := List.find?_eq_none.mp hfind p hmem
      simp at hno
  | some q =>
      have hkey : q.1 = p.1 := by simpa using List.find?_some hfind
      rw [Option.map_some, List.inj_on_of_nodup_map hnodup (List.mem_of_find?_eq_some hfind) hmem hkey]

theorem scan_scalar_iff {value : Value} (h : IsScalar value) :
    scanForSecrets value = .ok () ↔ ∀ text ∈ value.asStr, ¬Sentinel text := by
  rcases h with ⟨text, rfl⟩ | ⟨b, rfl⟩ | rfl
  · rw [show scanForSecrets (.string text) = scanText text from rfl, scanText_ok_iff]
    exact ⟨fun h text' heq => Option.some.inj heq ▸ h, fun h => h text rfl⟩
  · exact iff_of_true rfl fun text h => by cases h
  · exact iff_of_true rfl fun text h => by cases h

/-- A row is accepted when no text of it is taken for a secret. -/
theorem accepted_iff {digest : Value → Fingerprint} {request : SyncRequest}
    (h : k.observe ctx v = .ok r) :
    (∃ w d, cloudflareNormalizer.normalizeResource digest request r = .ok (w, d)) ↔ k.Clean v := by
  have hm := makes h
  have hlabels : scanLabels r.labels.rows = .ok () := by
    rw [hm.labels]
    show scanLabels [(mapping.labelKey, k.mapped.label)] = .ok ()
    apply Normalizer.scanLabels_of_forall
    intro p hp
    have hkey : isSensitiveFieldName mapping.labelKey.val = false := by decide +kernel
    rw [List.mem_singleton.mp hp]
    exact ⟨hkey, k.label⟩
  have htexts : k.Clean v ↔ ¬Sentinel (k.idOf v) ∧ ¬Sentinel (k.shownOf v) ∧
      ∀ p ∈ k.fieldsOf v, scanForSecrets p.2 = .ok () := by
    unfold Clean texts
    rw [List.forall_mem_cons, List.forall_mem_cons]
    refine and_congr_right fun _ => and_congr_right fun _ => ?_
    constructor
    · intro hclean p hp
      apply (scan_scalar_iff (k.scalars v p hp)).mpr
      exact fun text htext => hclean text (List.mem_filterMap.mpr ⟨p, hp, htext⟩)
    · intro hscan text htext
      obtain ⟨p, hp, hstring⟩ := List.mem_filterMap.mp htext
      exact (scan_scalar_iff (k.scalars v p hp)).mp (hscan p hp) text hstring
  rw [htexts]
  constructor
  · rintro ⟨w, d, hw⟩
    obtain ⟨⟨hattributes, hname, hdisplay, _⟩, _⟩ := Normalizer.normalizeResource_scanned hw
    rw [hm.attributes] at hattributes
    refine ⟨hm.name ▸ scanText_ok_iff.mp hname, hm.displayName ▸ scanText_ok_iff.mp hdisplay, ?_⟩
    intro p hp
    apply (scan_scalar_iff (k.scalars v p hp)).mpr
    intro text htext
    have hvalue : p.2 = .string text := by
      cases hp2 : p.2 with
      | string s =>
          rw [hp2] at htext
          cases htext
          rfl
      | _ =>
          rw [hp2] at htext
          cases htext
    have hget : (Value.mkObject (k.fieldsOf v)).get p.1 = some (.string text) := by
      rw [Value.get_mkObject, fieldOf_reverse hp, hvalue]
    exact not_sentinel_of_get hget hattributes
  · rintro ⟨hid, hshown, hfields⟩
    have hscan : scanForSecrets r.attributes = .ok () := by
      rw [hm.attributes]
      apply scanForSecrets_mkObject
      intro p hp
      refine ⟨k.clear p.1 ?_, hfields p hp⟩
      rw [← k.keysOf v]
      exact List.mem_map_of_mem hp
    apply Normalizer.normalizeResource_total (hm.attributes.trans rfl) hscan
      (hm.name ▸ scanText_ok_iff.mpr hid) (hm.displayName ▸ scanText_ok_iff.mpr hshown) hlabels
    rw [hm.kind, hm.version]
    show (cloudflareNormalizer.attributeSchemas.get (toLex (k.mapped.kind, 1))).isSome = true
    rw [k.registered]
    rfl

/-- A leaf of an object stays under an allowed path. -/
theorem leafAt_attributesOf (h : k.observe ctx v = .ok r) {p : String × Value}
    (hp : p ∈ k.fieldsOf v) : (cloudflareNormalizer.attributesOf r).leafAt [p.1] = some p.2 := by
  have hm := makes h
  have hkey : p.1 ∈ k.keys := k.keysOf v ▸ List.mem_map_of_mem hp
  have hleaf : p.2.isLeaf = true := by
    rcases k.scalars v p hp with ⟨text, h⟩ | ⟨b, h⟩ | h <;> rw [h] <;> rfl
  have hat : (Value.mkObject (k.fieldsOf v)).leafAt [p.1] = some p.2 := by
    have hget := Value.get_mkObject (k.fieldsOf v) p.1
    rw [fieldOf_reverse hp] at hget
    have hpath : valueAtPath (Value.mkObject (k.fieldsOf v)) [p.1] = some p.2 := by
      unfold Value.mkObject at hget ⊢
      rw [valueAtPath, show Value.fieldOf p.1 _ = some p.2 from hget]
      cases p.2 <;> rfl
    unfold Value.leafAt
    rw [hpath]
    exact Option.filter_some_pos hleaf
  obtain ⟨object, hobject⟩ : ∃ object, Value.mkObject (k.fieldsOf v) = .object object := ⟨_, rfl⟩
  rw [hobject] at hat
  have hattributes : cloudflareNormalizer.attributesOf r =
      (projectAttributes object k.schema.allowedAttributes).1 := by
    unfold Normalizer.attributesOf
    rw [hm.kind, hm.version, hm.attributes, hobject]
    rw [show cloudflareNormalizer.attributeSchemas.get
      (toLex (k.mapped.kind, SchemaVersion.one.val)) = some k.schema from k.registered]
  rw [hattributes, leafAt_projected, if_pos (k.allowed p.1 hkey)]
  exact hat

/-- Rows with one id are serialized alike exactly where they are mapped alike. -/
theorem serialized_eq_iff {request : SyncRequest} (h : k.observe ctx v = .ok r)
    (h' : k.observe ctx v' = .ok r') (hid : k.idOf v = k.idOf v') :
    cloudflareNormalizer.serializedResource request r =
        cloudflareNormalizer.serializedResource request r' ↔
      k.observe ctx v = k.observe ctx v' := by
  constructor
  · intro heq
    have hm := makes h
    have hm' := makes h'
    unfold Normalizer.serializedResource at heq
    rw [(locator_eq_iff h h').mpr hid] at heq
    obtain ⟨_, hshown, _, _, _, hattributes, _⟩ := resourceFingerprintInput_inj heq
    rw [hm.displayName, hm'.displayName] at hshown
    have hfields : k.fieldsOf v = k.fieldsOf v' := by
      apply List.ext_getElem
      · have hlength := congrArg List.length ((k.keysOf v).trans (k.keysOf v').symm)
        rwa [List.length_map, List.length_map] at hlength
      · intro i hi hi'
        have hkeys : (k.fieldsOf v)[i].1 = (k.fieldsOf v')[i].1 := by
          have hkey := congrArg (fun l => l[i]?) ((k.keysOf v).trans (k.keysOf v').symm)
          simpa [hi, hi'] using hkey
        have hleaf := leafAt_attributesOf h (List.getElem_mem hi)
        have hleaf' := leafAt_attributesOf h' (List.getElem_mem hi')
        rw [hattributes, hkeys, hleaf'] at hleaf
        exact Prod.ext hkeys (Option.some.inj hleaf).symm
    have hsame := k.observed h
    rw [hid, hshown, hfields, k.observed h'] at hsame
    rw [h, h', Except.ok.inj hsame]
  · intro heq
    rw [h, h'] at heq
    rw [Except.ok.inj heq]

end RowKind

/-! ## §2  What is accepted -/

/-- The rows of a kind and the observations they are among. -/
structure RowKind.Held {α : Type} (k : RowKind α) (ctx : Context) (items : List α)
    (rs : List ResourceObservation) : Prop where
  total : ∀ v ∈ items, ∃ r ∈ rs, k.observe ctx v = .ok r
  only : ∀ r ∈ rs, r.kind = k.mapped.kind → ∃ v ∈ items, k.observe ctx v = .ok r

section

variable {α : Type} {k : RowKind α} {ctx : Context} {items : List α}
  {rs : List ResourceObservation} {request : SyncRequest}

theorem RowKind.Held.accepted_iff {digest : Value → Fingerprint} (h : k.Held ctx items rs) :
    (∀ r ∈ rs, r.kind = k.mapped.kind →
      ∃ w d, cloudflareNormalizer.normalizeResource digest request r = .ok (w, d)) ↔
      ∀ v ∈ items, k.Clean v := by
  constructor
  · intro haccepted v hv
    obtain ⟨r, hr, hobserve⟩ := h.total v hv
    exact (RowKind.accepted_iff hobserve).mp (haccepted r hr (RowKind.makes hobserve).kind)
  · intro hclean r hr hkind
    obtain ⟨v, hv, hobserve⟩ := h.only r hr hkind
    exact (RowKind.accepted_iff hobserve).mpr (hclean v hv)

theorem RowKind.Held.agree_iff (h : k.Held ctx items rs) :
    (∀ r ∈ rs, r.kind = k.mapped.kind → ∀ r' ∈ rs, r.locator = r'.locator →
      cloudflareNormalizer.serializedResource request r =
        cloudflareNormalizer.serializedResource request r') ↔ k.Alike ctx (· ∈ items) := by
  constructor
  · intro hagree v v' hv hv' hid
    obtain ⟨r, hr, hobserve⟩ := h.total v hv
    obtain ⟨r', hr', hobserve'⟩ := h.total v' hv'
    apply (RowKind.serialized_eq_iff hobserve hobserve' hid).mp
    exact hagree r hr (RowKind.makes hobserve).kind r' hr'
      ((RowKind.locator_eq_iff hobserve hobserve').mpr hid)
  · intro halike r hr hkind r' hr' hlocator
    have hkind' : r'.kind = k.mapped.kind :=
      (congrArg ResourceLocator.kind hlocator).symm.trans hkind
    obtain ⟨v, hv, hobserve⟩ := h.only r hr hkind
    obtain ⟨v', hv', hobserve'⟩ := h.only r' hr' hkind'
    have hid := (RowKind.locator_eq_iff hobserve hobserve').mp hlocator
    exact (RowKind.serialized_eq_iff hobserve hobserve' hid).mpr (halike v v' hv hv' hid)

end

/-- No text of a collected row is taken for a secret. -/
structure Collector.Clean (c : Collector) : Prop where
  accounts : ∀ v ∈ c.accounts, accountRows.Clean v
  zones : ∀ v ∈ c.zones, zoneRows.Clean v
  records : ∀ v ∈ c.records, recordRows.Clean v
  tunnels : ∀ v ∈ c.tunnels, tunnelRows.Clean v
  workers : ∀ v ∈ c.workers, workerRows.Clean v

/-- Collected rows of one kind and id are mapped alike. -/
structure Collector.Alike (ctx : Context) (c : Collector) : Prop where
  accounts : accountRows.Alike ctx (· ∈ c.accounts)
  zones : zoneRows.Alike ctx (· ∈ c.zones)
  records : recordRows.Alike ctx (· ∈ c.records)
  tunnels : tunnelRows.Alike ctx (· ∈ c.tunnels)
  workers : workerRows.Alike ctx (· ∈ c.workers)

section

variable {ctx : Context} {c : Collector} {request : SyncRequest}

/-- An observation is of a row of its kind. -/
theorem observation_cases {r : ResourceObservation} (h : r ∈ c.observations ctx) :
    (r.kind = accountRows.mapped.kind ∧ ∃ v ∈ c.accounts, account ctx v = .ok r) ∨
      (r.kind = zoneRows.mapped.kind ∧ ∃ v ∈ c.zones, zone ctx v = .ok r) ∨
      (r.kind = recordRows.mapped.kind ∧ ∃ v ∈ c.records, record ctx v = .ok r) ∨
      (r.kind = tunnelRows.mapped.kind ∧ ∃ v ∈ c.tunnels, tunnel ctx v = .ok r) ∨
      (r.kind = workerRows.mapped.kind ∧ ∃ v ∈ c.workers, worker ctx v = .ok r) := by
  unfold Collector.observations at h
  simp only [List.mem_append, Fallible.mem_results_iff, or_assoc] at h
  rcases h with ⟨v, hv, h⟩ | ⟨v, hv, h⟩ | ⟨v, hv, h⟩ | ⟨v, hv, h⟩ | ⟨v, hv, h⟩
  · exact Or.inl ⟨(@RowKind.makes _ accountRows _ _ _ h).kind, v, hv, h⟩
  · exact Or.inr (Or.inl ⟨(@RowKind.makes _ zoneRows _ _ _ h).kind, v, hv, h⟩)
  · exact Or.inr (Or.inr (Or.inl ⟨(@RowKind.makes _ recordRows _ _ _ h).kind, v, hv, h⟩))
  · exact Or.inr (Or.inr (Or.inr (Or.inl ⟨(@RowKind.makes _ tunnelRows _ _ _ h).kind, v, hv, h⟩)))
  · exact Or.inr (Or.inr (Or.inr (Or.inr ⟨(@RowKind.makes _ workerRows _ _ _ h).kind, v, hv, h⟩)))

/-- The five kinds are five. -/
theorem kinds_apart : [accountRows.mapped.kind, zoneRows.mapped.kind, recordRows.mapped.kind,
    tunnelRows.mapped.kind, workerRows.mapped.kind].Nodup := by
  decide +kernel

/-- The rows of the five kinds are held by their observations. -/
structure Collector.Holds (ctx : Context) (c : Collector) : Prop where
  accounts : accountRows.Held ctx c.accounts (c.observations ctx)
  zones : zoneRows.Held ctx c.zones (c.observations ctx)
  records : recordRows.Held ctx c.records (c.observations ctx)
  tunnels : tunnelRows.Held ctx c.tunnels (c.observations ctx)
  workers : workerRows.Held ctx c.workers (c.observations ctx)

theorem Collector.Fits.holds (h : c.Fits) : c.Holds ctx := by
  have hmem : ∀ r, r ∈ c.observations ctx ↔ (∃ v ∈ c.accounts, account ctx v = .ok r) ∨
      (∃ v ∈ c.zones, zone ctx v = .ok r) ∨ (∃ v ∈ c.records, record ctx v = .ok r) ∨
      (∃ v ∈ c.tunnels, tunnel ctx v = .ok r) ∨ ∃ v ∈ c.workers, worker ctx v = .ok r := by
    intro r
    unfold Collector.observations
    simp only [List.mem_append, Fallible.mem_results_iff, or_assoc]
  have hapart := kinds_apart
  simp only [List.nodup_cons, List.mem_cons, not_or, List.not_mem_nil, not_false_eq_true,
    and_true, List.nodup_nil] at hapart
  obtain ⟨⟨haz, har, hat, haw⟩, ⟨hzr, hzt, hzw⟩, ⟨hrt, hrw⟩, htw⟩ := hapart
  refine ⟨⟨?_, ?_⟩, ⟨?_, ?_⟩, ⟨?_, ?_⟩, ⟨?_, ?_⟩, ⟨?_, ?_⟩⟩
  · intro v hv
    obtain ⟨r, hr, _⟩ := (@account_fits_iff ctx v).mpr (h.accounts v hv)
    exact ⟨r, (hmem r).mpr (Or.inl ⟨v, hv, hr⟩), hr⟩
  · intro r hr hkind
    rcases observation_cases hr with ⟨_, hx⟩ | ⟨hk, _⟩ | ⟨hk, _⟩ | ⟨hk, _⟩ | ⟨hk, _⟩
    · exact hx
    · exact absurd (hkind.symm.trans hk) haz
    · exact absurd (hkind.symm.trans hk) har
    · exact absurd (hkind.symm.trans hk) hat
    · exact absurd (hkind.symm.trans hk) haw
  · intro v hv
    obtain ⟨r, hr, _⟩ := (@zone_fits_iff ctx v).mpr (h.zones v hv)
    exact ⟨r, (hmem r).mpr (Or.inr (Or.inl ⟨v, hv, hr⟩)), hr⟩
  · intro r hr hkind
    rcases observation_cases hr with ⟨hk, _⟩ | ⟨_, hx⟩ | ⟨hk, _⟩ | ⟨hk, _⟩ | ⟨hk, _⟩
    · exact absurd (hk.symm.trans hkind) haz
    · exact hx
    · exact absurd (hkind.symm.trans hk) hzr
    · exact absurd (hkind.symm.trans hk) hzt
    · exact absurd (hkind.symm.trans hk) hzw
  · intro v hv
    obtain ⟨r, hr, _⟩ := (@record_fits_iff ctx v).mpr (h.records v hv)
    exact ⟨r, (hmem r).mpr (Or.inr (Or.inr (Or.inl ⟨v, hv, hr⟩))), hr⟩
  · intro r hr hkind
    rcases observation_cases hr with ⟨hk, _⟩ | ⟨hk, _⟩ | ⟨_, hx⟩ | ⟨hk, _⟩ | ⟨hk, _⟩
    · exact absurd (hk.symm.trans hkind) har
    · exact absurd (hk.symm.trans hkind) hzr
    · exact hx
    · exact absurd (hkind.symm.trans hk) hrt
    · exact absurd (hkind.symm.trans hk) hrw
  · intro v hv
    obtain ⟨r, hr, _⟩ := (@tunnel_fits_iff ctx v).mpr (h.tunnels v hv)
    exact ⟨r, (hmem r).mpr (Or.inr (Or.inr (Or.inr (Or.inl ⟨v, hv, hr⟩)))), hr⟩
  · intro r hr hkind
    rcases observation_cases hr with ⟨hk, _⟩ | ⟨hk, _⟩ | ⟨hk, _⟩ | ⟨_, hx⟩ | ⟨hk, _⟩
    · exact absurd (hk.symm.trans hkind) hat
    · exact absurd (hk.symm.trans hkind) hzt
    · exact absurd (hk.symm.trans hkind) hrt
    · exact hx
    · exact absurd (hkind.symm.trans hk) htw
  · intro v hv
    obtain ⟨r, hr, _⟩ := (@worker_fits_iff ctx v).mpr (h.workers v hv)
    exact ⟨r, (hmem r).mpr (Or.inr (Or.inr (Or.inr (Or.inr ⟨v, hv, hr⟩)))), hr⟩
  · intro r hr hkind
    rcases observation_cases hr with ⟨hk, _⟩ | ⟨hk, _⟩ | ⟨hk, _⟩ | ⟨hk, _⟩ | ⟨_, hx⟩
    · exact absurd (hk.symm.trans hkind) haw
    · exact absurd (hk.symm.trans hkind) hzw
    · exact absurd (hk.symm.trans hkind) hrw
    · exact absurd (hk.symm.trans hkind) htw
    · exact hx

/-- What holds of the observations of each of the five kinds holds of them all. -/
theorem forall_observations_iff {P : ResourceObservation → Prop} :
    (∀ r ∈ c.observations ctx, P r) ↔
      (∀ r ∈ c.observations ctx, r.kind = accountRows.mapped.kind → P r) ∧
      (∀ r ∈ c.observations ctx, r.kind = zoneRows.mapped.kind → P r) ∧
      (∀ r ∈ c.observations ctx, r.kind = recordRows.mapped.kind → P r) ∧
      (∀ r ∈ c.observations ctx, r.kind = tunnelRows.mapped.kind → P r) ∧
      ∀ r ∈ c.observations ctx, r.kind = workerRows.mapped.kind → P r := by
  constructor
  · intro h
    exact ⟨fun r hr _ => h r hr, fun r hr _ => h r hr, fun r hr _ => h r hr, fun r hr _ => h r hr,
      fun r hr _ => h r hr⟩
  · rintro ⟨ha, hz, hr, ht, hw⟩ r hmem
    rcases observation_cases hmem with ⟨hk, _⟩ | ⟨hk, _⟩ | ⟨hk, _⟩ | ⟨hk, _⟩ | ⟨hk, _⟩
    · exact ha r hmem hk
    · exact hz r hmem hk
    · exact hr r hmem hk
    · exact ht r hmem hk
    · exact hw r hmem hk

theorem accepted_iff_clean {digest : Value → Fingerprint} (h : c.Fits) :
    (∀ r ∈ c.observations ctx,
      ∃ w d, cloudflareNormalizer.normalizeResource digest request r = .ok (w, d)) ↔ c.Clean := by
  have hholds := @Collector.Fits.holds ctx c h
  rw [forall_observations_iff, hholds.accounts.accepted_iff, hholds.zones.accepted_iff,
    hholds.records.accepted_iff, hholds.tunnels.accepted_iff, hholds.workers.accepted_iff]
  exact ⟨fun ⟨ha, hz, hr, ht, hw⟩ => ⟨ha, hz, hr, ht, hw⟩,
    fun h => ⟨h.accounts, h.zones, h.records, h.tunnels, h.workers⟩⟩

theorem agree_iff_alike (h : c.Fits) :
    (∀ r ∈ c.observations ctx, ∀ r' ∈ c.observations ctx, r.locator = r'.locator →
      cloudflareNormalizer.serializedResource request r =
        cloudflareNormalizer.serializedResource request r') ↔ c.Alike ctx := by
  have hholds := @Collector.Fits.holds ctx c h
  rw [forall_observations_iff, hholds.accounts.agree_iff, hholds.zones.agree_iff,
    hholds.records.agree_iff, hholds.tunnels.agree_iff, hholds.workers.agree_iff]
  exact ⟨fun ⟨ha, hz, hr, ht, hw⟩ => ⟨ha, hz, hr, ht, hw⟩,
    fun h => ⟨h.accounts, h.zones, h.records, h.tunnels, h.workers⟩⟩

/-- A relation of what was collected is one the normalizer knows. -/
theorem relations_accepted {digest : Value → Fingerprint} {rel : RelationObservation}
    (h : rel ∈ relationsOf ctx (c.observations ctx)) :
    ∃ w, cloudflareNormalizer.normalizeRelation digest request rel = .ok w := by
  obtain ⟨r, _, hok⟩ := Fallible.mem_results_iff.mp (List.reduceOption_mem_iff.mp h)
  obtain ⟨parent, field, text, hrelates⟩ := relationOf_relates hok
  have hclear : isSensitiveFieldName "account_id" = false ∧
      isSensitiveFieldName "zone_id" = false := by
    decide +kernel
  have hpath : isSensitiveFieldName rel.fieldPath.val = false := by
    rw [hrelates.fieldPath]
    rcases parentOf_cases hrelates.parentOf with ⟨_, rfl⟩ | ⟨_, rfl⟩
    · exact hclear.1
    · exact hclear.2
  have hregistered : (⟨containsKind, parent.kind, r.kind⟩ : RelationSchema) ∈
      cloudflareNormalizer.relationSchemas := by
    have hall : ∀ kind ∈ [zoneKind.kind, tunnelKind.kind, workerKind.kind],
        (⟨containsKind, accountKind.kind, kind⟩ : RelationSchema) ∈
          cloudflareNormalizer.relationSchemas := by
      decide +kernel
    have hparent := hrelates.parentOf
    unfold parentOf at hparent
    split at hparent
    · rename_i hmem
      cases hparent
      exact hall r.kind hmem
    · split at hparent
      · rename_i hrecord
        cases hparent
        rw [hrecord]
        decide +kernel
      · cases hparent
  exact Normalizer.normalizeRelation_total hpath hregistered hrelates.kind.symm
    hrelates.sourceKind.symm (congrArg ResourceLocator.kind hrelates.target).symm

end

/-! ## §3  Warnings -/

section

/-- A text that starts with a character none of the front has starts behind the front. -/
theorem infix_of_front {c : Char} {needle front text : List Char} (hc : c ∉ front)
    (h : c :: needle <:+: front ++ text) : c :: needle <:+: text := by
  induction front with
  | nil => exact h
  | cons d front ih =>
      rw [List.mem_cons, not_or] at hc
      rw [List.cons_append, List.infix_cons_iff] at h
      rcases h with hprefix | h
      · exact absurd (List.cons_prefix_cons.mp hprefix).1 hc.1
      · exact ih hc.2 h

theorem infix_of_back {c : Char} {needle back text : List Char} (hc : c ∉ back)
    (h : needle ++ [c] <:+: text ++ back) : needle ++ [c] <:+: text := by
  rw [← List.reverse_infix, List.reverse_append, List.reverse_append] at h
  rw [← List.reverse_infix, List.reverse_append]
  exact infix_of_front (fun hmem => hc (List.mem_reverse.mp hmem)) h

/-- A message is taken for a secret only because of the id in it. -/
theorem enclosed_clean {front back id : String} {rest : List Char}
    (hfront : toAsciiLowercase front = 'c' :: rest) (hrest : '-' ∉ rest)
    (hback : '-' ∉ toAsciiLowercase back) (h : ¬Sentinel id) :
    scanText (front ++ id ++ back) = .ok () := by
  have hlist : toAsciiLowercase (front ++ id ++ back) =
      ('c' :: rest) ++ (toAsciiLowercase id ++ toAsciiLowercase back) := by
    rw [← hfront]
    unfold toAsciiLowercase
    rw [String.toList_append, String.toList_append, List.map_append, List.map_append,
      List.append_assoc]
  apply scanText_ok_iff.mpr
  unfold Sentinel
  rw [hlist]
  rintro (hkey | hbearer)
  · have hnot : '-' ∉ 'c' :: rest := by
      rw [List.mem_cons, not_or]
      exact ⟨by decide, hrest⟩
    have hinner := infix_of_front hnot hkey
    have hid : "-----begin private key-----".toList <:+: toAsciiLowercase id :=
      @infix_of_back _ "-----begin private key----".toList _ _ hback hinner
    exact h (Or.inl hid)
  · have hhead := (List.cons_prefix_cons.mp hbearer).1
    exact absurd hhead (by decide)

theorem messages_clean {id : String} (h : ¬Sentinel id) :
    scanText (recordsMessage id) = .ok () ∧ scanText (tunnelsMessage id) = .ok () ∧
      scanText (workersMessage id) = .ok () := by
  have hback : '-' ∉ toAsciiLowercase " is partial" := by decide +kernel
  refine ⟨?_, ?_, ?_⟩
  · exact enclosed_clean (by rfl) (by decide +kernel) hback h
  · exact enclosed_clean (by rfl) (by decide +kernel) hback h
  · exact enclosed_clean (by rfl) (by decide +kernel) hback h

/-- A message tells its module. -/
theorem messages_apart (a b : String) : recordsMessage a ≠ tunnelsMessage b ∧
    recordsMessage a ≠ workersMessage b ∧ tunnelsMessage a ≠ workersMessage b := by
  have hat : ∀ id, (recordsMessage id).toList[18]? = some 'd' ∧
      (tunnelsMessage id).toList[18]? = some 't' ∧ (workersMessage id).toList[18]? = some 'w' := by
    intro id
    unfold recordsMessage tunnelsMessage workersMessage
    simp only [String.toList_append, List.append_assoc]
    exact ⟨rfl, rfl, rfl⟩
  obtain ⟨hr, ht, _⟩ := hat a
  obtain ⟨_, ht', hw'⟩ := hat b
  refine ⟨?_, ?_, ?_⟩
  · intro h
    rw [h, ht'] at hr
    cases hr
  · intro h
    rw [h, hw'] at hr
    cases hr
  · intro h
    rw [h, hw'] at ht
    cases ht

end

/-! ## §4  Children -/

section

variable {α β : Type}

/-- The batch tells what became of a child list: each of its rows is among the resources,
or there is a warning of its failure and the coverage is partial. -/
def Told (decode : Body → Option (List α)) (withId : String → α → β)
    (observe : β → Except String ResourceObservation) (message : String → String)
    (batch : ObservationBatch) (child : String × ListFetch) : Prop :=
  match child.2.items decode with
  | .ok items => ∀ raw ∈ items, ∃ r ∈ batch.resources, observe (withId child.1 raw) = .ok r
  | .error failure =>
      ⟨failure.code, message child.1⟩ ∈ batch.warnings ∧ batch.coverage.isPartial = true

/-- What became of a child list is kept: each of its rows is mapped as some row of an entry
that stays, or an entry that stays under its id failed with the same code. -/
def Heard (decode : Body → Option (List α)) (withId : String → α → β)
    (observe : β → Except String ResourceObservation) (children : List (String × ListFetch))
    (child : String × ListFetch) : Prop :=
  match child.2.items decode with
  | .ok items => ∀ raw ∈ items, ∃ item, KeptItem decode withId children item ∧
      observe item = observe (withId child.1 raw)
  | .error failure => ∃ fetch failure', Kept decode children child.1 fetch ∧
      fetch.items decode = .error failure' ∧ failure'.code = failure.code

variable {decode : Body → Option (List α)} {withId : String → α → β}
  {observe : β → Except String ResourceObservation} {message : String → String}
  {children : List (String × ListFetch)} {batch : ObservationBatch}

/-- The warnings of a module are those of its entries that failed. -/
theorem warning_mem_iff (hmessage : Function.Injective message) (order : HashOrder) {id : String}
    {code : ErrorCode} :
    (⟨code, message id⟩ : ObservationWarning) ∈
        (order.visit (childResults decode withId children).rows).filterMap (warningOf message) ↔
      ∃ fetch failure, Kept decode children id fetch ∧ fetch.items decode = .error failure ∧
        failure.code = code := by
  rw [List.mem_filterMap]
  simp only [(order.perm (childResults decode withId children).rows).mem_iff]
  constructor
  · rintro ⟨⟨id', items, failure⟩, hrow, hwarning⟩
    obtain ⟨f, hf, hw⟩ := Option.map_eq_some_iff.mp hwarning
    obtain ⟨hcode, hid⟩ := ObservationWarning.mk.inj hw
    cases hmessage hid
    obtain ⟨fetch, read, hkept, hoptional, _⟩ := mem_childResults_iff.mp hrow
    rcases optional_eq_some_iff.mp hoptional with ⟨_, hnone⟩ | ⟨f', herror, _, _, hsome⟩
    · cases hnone.symm.trans hf
    · cases hsome.symm.trans hf
      exact ⟨fetch, f, hkept, herror, hcode⟩
  · rintro ⟨fetch, failure, hkept, herror, rfl⟩
    have hcalm : isChildModuleFatal failure = false := by
      obtain ⟨_, _, _, hsome, _⟩ := hkept
      by_contra hfatal
      exact hsome (optional_eq_none_iff.mpr ⟨failure, herror, by simpa using hfatal⟩)
    refine ⟨(id, [], some failure), ?_, rfl⟩
    exact mem_childResults_iff.mpr ⟨fetch, [], hkept,
      optional_eq_some_iff.mpr (Or.inr ⟨failure, herror, hcalm, rfl, rfl⟩), rfl⟩

/-- A child list is told of exactly where it is heard. -/
theorem told_iff (htotal : ∀ item, KeptItem decode withId children item →
      ∃ r ∈ batch.resources, observe item = .ok r)
    (honly : ∀ item, ∀ r ∈ batch.resources, observe item = .ok r →
      ∃ kept, KeptItem decode withId children kept ∧ observe kept = .ok r)
    (hwarning : ∀ id code, ⟨code, message id⟩ ∈ batch.warnings ↔
      ∃ fetch failure, Kept decode children id fetch ∧ fetch.items decode = .error failure ∧
        failure.code = code)
    (hgap : Recorded decode children → batch.coverage.isPartial = true)
    (child : String × ListFetch) :
    Told decode withId observe message batch child ↔
      Heard decode withId observe children child := by
  unfold Told Heard
  cases child.2.items decode with
  | ok items =>
      refine forall₂_congr fun raw _ => ?_
      constructor
      · rintro ⟨r, hr, hobserve⟩
        obtain ⟨kept, hkept, hsame⟩ := honly _ r hr hobserve
        exact ⟨kept, hkept, hsame.trans hobserve.symm⟩
      · rintro ⟨item, hkept, hsame⟩
        obtain ⟨r, hr, hobserve⟩ := htotal item hkept
        exact ⟨r, hr, hsame.symm.trans hobserve⟩
  | error failure =>
      dsimp only
      rw [hwarning]
      refine and_iff_left_of_imp ?_
      rintro ⟨fetch, failure', hkept, herror, _⟩
      exact hgap ⟨_, fetch, failure', hkept, herror⟩

end

/-! ## §5  The sync -/

/-- No text of a row a sync would map is taken for a secret. -/
structure Lists.Clean (wire : Wire) (lists : Lists) : Prop where
  accounts : ∀ v ∈ lists.accounts, accountRows.Clean v
  zones : ∀ v ∈ lists.zones, zoneRows.Clean v
  records : ∀ v, KeptItem wire.records (fun _ record => record) lists.records v →
    recordRows.Clean v
  tunnels : ∀ v, KeptItem wire.tunnels (fun id tunnel => ⟨tunnel, id⟩) lists.tunnels v →
    tunnelRows.Clean v
  workers : ∀ v, KeptItem wire.workers (fun id worker => ⟨worker, id⟩) lists.workers v →
    workerRows.Clean v

/-- Rows of one kind and id that a sync would map are mapped alike. -/
structure Lists.Alike (wire : Wire) (ctx : Context) (lists : Lists) : Prop where
  accounts : accountRows.Alike ctx (· ∈ lists.accounts)
  zones : zoneRows.Alike ctx (· ∈ lists.zones)
  records : recordRows.Alike ctx
    (KeptItem wire.records (fun _ record => record) lists.records)
  tunnels : tunnelRows.Alike ctx
    (KeptItem wire.tunnels (fun id tunnel => ⟨tunnel, id⟩) lists.tunnels)
  workers : workerRows.Alike ctx
    (KeptItem wire.workers (fun id worker => ⟨worker, id⟩) lists.workers)

/-- Every row fits, is clean and agrees with those of its id, and every child list is heard. -/
structure Lists.Harmless (wire : Wire) (ctx : Context) (lists : Lists) : Prop where
  fit : lists.Fit wire
  clean : lists.Clean wire
  alike : lists.Alike wire ctx
  records : ∀ child ∈ lists.records,
    Heard wire.records (fun _ record => record) (record ctx) lists.records child
  tunnels : ∀ child ∈ lists.tunnels,
    Heard wire.tunnels (fun id tunnel => ⟨tunnel, id⟩) (tunnel ctx) lists.tunnels child
  workers : ∀ child ∈ lists.workers,
    Heard wire.workers (fun id worker => ⟨worker, id⟩) (worker ctx) lists.workers child

/-- The outcome tells of every child list, and the normalizer accepts its batch. -/
structure Isolated (wire : Wire) (request : SyncRequest) (lists : Lists) (outcome : SyncOutcome) :
    Prop where
  records : ∀ child ∈ lists.records, Told wire.records (fun _ record => record)
    (record (contextOf request)) recordsMessage outcome.batch child
  tunnels : ∀ child ∈ lists.tunnels, Told wire.tunnels (fun id tunnel => ⟨tunnel, id⟩)
    (tunnel (contextOf request)) tunnelsMessage outcome.batch child
  workers : ∀ child ∈ lists.workers, Told wire.workers (fun id worker => ⟨worker, id⟩)
    (worker (contextOf request)) workersMessage outcome.batch child
  accepted : ∀ digest, ∃ b, cloudflareNormalizer.normalize digest request outcome.batch = .ok b

/-- Once the roots are read, the sync succeeds with an outcome that isolates every failure. -/
def FailuresIsolated (wire : Wire) (transport : Transport) (request : SyncRequest)
    (secret : Option (List UInt8)) : Prop :=
  ∀ orders token lists, Admitted request secret token → readLists wire transport token = .ok lists →
    ∃ outcome, sync wire transport orders request secret = .ok outcome ∧
      Isolated wire request lists outcome

section

variable {wire : Wire} {transport : Transport} {lists : Lists} {request : SyncRequest}
  {token : List UInt8}

theorem kept_mem {α : Type} {decode : Body → Option (List α)} {children : List (String × ListFetch)}
    {id : String} {fetch : ListFetch} (h : Kept decode children id fetch) :
    id ∈ children.map Prod.fst := by
  obtain ⟨before, after, rfl, _⟩ := h
  rw [List.map_append]
  exact List.mem_append_right _ List.mem_cons_self

/-- The warnings of clean roots are clean. -/
theorem scanWarnings_collect (hwalked : lists.Walked wire transport token)
    (hzones : ∀ v ∈ lists.zones, zoneRows.Clean v)
    (haccounts : ∀ v ∈ lists.accounts, accountRows.Clean v) (orders : HashOrders) :
    Normalizer.scanWarnings (collect wire orders lists).warnings = .ok () := by
  have hzone : ∀ id ∈ lists.records.map Prod.fst, ¬Sentinel id := by
    intro id hid
    rw [hwalked.recordIds] at hid
    obtain ⟨v, hv, rfl⟩ := List.mem_map.mp hid
    exact hzones v hv v.id List.mem_cons_self
  have haccount : ∀ id ∈ lists.accounts.map AccountDto.id, ¬Sentinel id := by
    intro id hid
    obtain ⟨v, hv, rfl⟩ := List.mem_map.mp hid
    exact haccounts v hv v.id List.mem_cons_self
  have hmodule : ∀ {α β : Type} {decode : Body → Option (List α)} {withId : String → α → β}
      {children : List (String × ListFetch)} (order : HashOrder) (message : String → String),
      (∀ id ∈ children.map Prod.fst, scanText (message id) = .ok ()) →
      ∀ w ∈ (order.visit (childResults decode withId children).rows).filterMap (warningOf message),
        scanText w.message = .ok () := by
    intro α β decode withId children order message hclean w hw
    obtain ⟨row, hrow, hwarning⟩ := List.mem_filterMap.mp hw
    obtain ⟨f, _, rfl⟩ := Option.map_eq_some_iff.mp hwarning
    rw [(order.perm _).mem_iff] at hrow
    obtain ⟨fetch, _, hkept, _⟩ := mem_childResults_iff.mp hrow
    exact hclean row.1 (kept_mem hkept)
  apply Normalizer.scanWarnings_of_forall
  rw [collect_warnings]
  intro w hw
  rcases List.mem_append.mp hw with hw | hw
  · rcases List.mem_append.mp hw with hw | hw
    · exact hmodule orders.records recordsMessage
        (fun id hid => (messages_clean (hzone id hid)).1) w hw
    · exact hmodule orders.tunnels tunnelsMessage
        (fun id hid => (messages_clean (haccount id (hwalked.tunnelIds ▸ hid))).2.1) w hw
  · exact hmodule orders.workers workersMessage
      (fun id hid => (messages_clean (haccount id (hwalked.workerIds ▸ hid))).2.2) w hw

/-- What a collector holds is clean where the lists are. -/
theorem clean_iff (orders : HashOrders) :
    (collect wire orders lists).Clean ↔ lists.Clean wire := by
  have h := @collect_collects wire orders lists
  constructor
  · rintro ⟨ha, hz, hr, ht, hw⟩
    exact ⟨h.accounts ▸ ha, h.zones ▸ hz, fun v hv => hr v ((h.records v).mpr hv),
      fun v hv => ht v ((h.tunnels v).mpr hv), fun v hv => hw v ((h.workers v).mpr hv)⟩
  · rintro ⟨ha, hz, hr, ht, hw⟩
    exact ⟨h.accounts ▸ ha, h.zones ▸ hz, fun v hv => hr v ((h.records v).mp hv),
      fun v hv => ht v ((h.tunnels v).mp hv), fun v hv => hw v ((h.workers v).mp hv)⟩

theorem alike_iff {ctx : Context} (orders : HashOrders) :
    (collect wire orders lists).Alike ctx ↔ lists.Alike wire ctx := by
  have h := @collect_collects wire orders lists
  have hmem : ∀ {α : Type} {k : RowKind α} {items : List α} {P : α → Prop},
      (∀ v, v ∈ items ↔ P v) → (k.Alike ctx (· ∈ items) ↔ k.Alike ctx P) := by
    intro α k items P hiff
    unfold RowKind.Alike
    simp only [hiff]
  constructor
  · rintro ⟨ha, hz, hr, ht, hw⟩
    exact ⟨h.accounts ▸ ha, h.zones ▸ hz, (hmem h.records).mp hr, (hmem h.tunnels).mp ht,
      (hmem h.workers).mp hw⟩
  · rintro ⟨ha, hz, hr, ht, hw⟩
    exact ⟨h.accounts ▸ ha, h.zones ▸ hz, (hmem h.records).mpr hr, (hmem h.tunnels).mpr ht,
      (hmem h.workers).mpr hw⟩

/-- The batch of an outcome, from what was collected and mapped. -/
theorem outcome_batch_parts {c : Collector} {scope : Scope} {mapped : CloudflareMapperOutput} :
    (c.outcome scope mapped).batch.relations = mapped.relations ∧
      (c.childFailures ≠ [] → (c.outcome scope mapped).batch.coverage.isPartial = true) := by
  unfold Collector.outcome
  cases c.childFailures with
  | nil => exact ⟨rfl, fun h => absurd rfl h⟩
  | cons failure rest => exact ⟨rfl, fun _ => rfl⟩

/-- The normalizer accepts what was collected, whatever its digest, where it is clean and
rows of one id are mapped alike. -/
theorem normalized_iff {c : Collector} {ctx : Context} {output : CloudflareMapperOutput}
    (hmode : request.mode = .full) (hfits : c.Fits) (hmap : mapCollected ctx c = .ok output)
    (hwarnings : c.Clean → Normalizer.scanWarnings c.warnings = .ok ()) :
    (∀ digest, ∃ b, cloudflareNormalizer.normalize digest request
      (c.outcome ctx.scope output).batch = .ok b) ↔ c.Clean ∧ c.Alike ctx := by
  obtain ⟨hsorted, hrelations⟩ := mapCollected_eq hmap
  obtain ⟨hw, hr⟩ := outcome_batch c ctx.scope output
  have hrel := (@outcome_batch_parts c ctx.scope output).1
  have hmem : ∀ r, r ∈ (c.outcome ctx.scope output).batch.resources ↔ r ∈ c.observations ctx := by
    intro r
    rw [hr, hsorted, List.mem_insertionSort]
  have hmemRel : ∀ rel, rel ∈ (c.outcome ctx.scope output).batch.relations ↔
      rel ∈ relationsOf ctx (c.observations ctx) := by
    intro rel
    rw [hrel, hrelations, List.mem_insertionSort]
  rw [← @agree_iff_alike ctx c request hfits]
  constructor
  · intro h
    constructor
    · obtain ⟨b, hb⟩ := h fun _ => ⟨"d", by decide⟩
      have haccepted := (Normalizer.normalize_isOk_iff.mp ⟨b, hb⟩).2.2.1.1
      exact (accepted_iff_clean hfits).mp fun r hr => haccepted r ((hmem r).mpr hr)
    · intro r hr r' hr' hlocator
      classical
      -- a digest that tells this serialization from every other
      obtain ⟨b, hb⟩ := h fun value =>
        if value = cloudflareNormalizer.serializedResource request r then ⟨"same", by decide⟩
        else ⟨"other", by decide⟩
      have hagree := (Normalizer.normalize_isOk_iff.mp ⟨b, hb⟩).2.2.1.2
      have hsame := hagree r ((hmem r).mpr hr) r' ((hmem r').mpr hr') hlocator
      dsimp only at hsame
      rw [if_pos rfl] at hsame
      by_contra hne
      rw [if_neg (Ne.symm hne)] at hsame
      exact absurd (congrArg StringValue.val hsame) (by decide)
  · rintro ⟨hclean, hagree⟩ digest
    apply Normalizer.normalize_isOk_iff.mpr
    have hvalid : (c.outcome ctx.scope output).validateFor request = .ok () :=
      outcome_valid hmode
    refine ⟨(bind_ok hvalid).elim fun _ h => h.1, hw.symm ▸ hwarnings hclean, ⟨?_, ?_⟩, ?_, ?_⟩
    · intro r hr
      exact (accepted_iff_clean hfits).mpr hclean r ((hmem r).mp hr)
    · intro r hr r' hr' hlocator
      rw [hagree r ((hmem r).mp hr) r' ((hmem r').mp hr') hlocator]
    · intro rel hrel
      exact relations_accepted ((hmemRel rel).mp hrel)
    · intro rel hrel rel' hrel' hkey
      have hids : relationKey rel = relationKey rel' := by
        have hsource := congrArg (fun k => k.source.externalId) hkey
        have htarget := congrArg (fun k => k.target.externalId) hkey
        exact congrArg toLex (Prod.ext hsource htarget)
      rw [relationsOf_unique ((hmemRel rel).mp hrel) ((hmemRel rel').mp hrel') hids]

/-- The outcome tells of every child list exactly where every one is heard. -/
theorem told_all_iff {ctx : Context} {output : CloudflareMapperOutput} (orders : HashOrders)
    (hfit : lists.Fit wire)
    (hmap : mapCollected ctx (collect wire orders lists) = .ok output) :
    (∀ child, Told wire.records (fun _ record => record) (record ctx) recordsMessage
        ((collect wire orders lists).outcome ctx.scope output).batch child ↔
      Heard wire.records (fun _ record => record) (record ctx) lists.records child) ∧
    (∀ child, Told wire.tunnels (fun id tunnel => ⟨tunnel, id⟩) (tunnel ctx) tunnelsMessage
        ((collect wire orders lists).outcome ctx.scope output).batch child ↔
      Heard wire.tunnels (fun id tunnel => ⟨tunnel, id⟩) (tunnel ctx) lists.tunnels child) ∧
    (∀ child, Told wire.workers (fun id worker => ⟨worker, id⟩) (worker ctx) workersMessage
        ((collect wire orders lists).outcome ctx.scope output).batch child ↔
      Heard wire.workers (fun id worker => ⟨worker, id⟩) (worker ctx) lists.workers child) := by
  have hcollects := @collect_collects wire orders lists
  have hholds := @Collector.Fits.holds ctx _ ((collect_fits_iff orders).mpr hfit)
  obtain ⟨hw, hr⟩ := outcome_batch (collect wire orders lists) ctx.scope output
  have hmem : ∀ r, r ∈ ((collect wire orders lists).outcome ctx.scope output).batch.resources ↔
      r ∈ (collect wire orders lists).observations ctx := by
    intro r
    rw [hr, (mapCollected_eq hmap).1, List.mem_insertionSort]
  have hgap : lists.Recorded wire →
      ((collect wire orders lists).outcome ctx.scope output).batch.coverage.isPartial = true :=
    fun hrecorded => outcome_batch_parts.2 fun hnone => hcollects.failures.mp hnone hrecorded
  have hmodule : ∀ {α β : Type} {k : RowKind β} {items : List β} {decode : Body → Option (List α)}
      {withId : String → α → β} {children : List (String × ListFetch)} (message : String → String),
      k.Held ctx items ((collect wire orders lists).observations ctx) →
      (∀ v, v ∈ items ↔ KeptItem decode withId children v) →
      (∀ id code, ⟨code, message id⟩ ∈ (collect wire orders lists).warnings ↔
        ∃ fetch failure, Kept decode children id fetch ∧ fetch.items decode = .error failure ∧
          failure.code = code) →
      (Recorded decode children → lists.Recorded wire) →
      ∀ child, Told decode withId (k.observe ctx) message
          ((collect wire orders lists).outcome ctx.scope output).batch child ↔
        Heard decode withId (k.observe ctx) children child := by
    intro α β k items decode withId children message hheld hitems hwarning hrecorded child
    apply told_iff
    · intro item hitem
      obtain ⟨r, hr, hobserve⟩ := hheld.total item ((hitems item).mpr hitem)
      exact ⟨r, (hmem r).mpr hr, hobserve⟩
    · intro item r hr hobserve
      obtain ⟨v, hv, hsame⟩ := hheld.only r ((hmem r).mp hr) (RowKind.makes hobserve).kind
      exact ⟨v, (hitems v).mp hv, hsame⟩
    · rw [hw]
      exact hwarning
    · exact fun h => hgap (hrecorded h)
  have hother : ∀ {β : Type} {message : String → String} {rows : List (ChildRow β)}
      {code : ErrorCode} {text : String}, (∀ id, message id ≠ text) →
      (⟨code, text⟩ : ObservationWarning) ∉ rows.filterMap (warningOf message) := by
    intro β message rows code text hne hwarning
    obtain ⟨row, _, hrow⟩ := List.mem_filterMap.mp hwarning
    obtain ⟨f, _, heq⟩ := Option.map_eq_some_iff.mp hrow
    exact hne row.1 (ObservationWarning.mk.inj heq).2
  refine ⟨?_, ?_, ?_⟩
  · apply @hmodule _ _ recordRows _ _ _ _ recordsMessage hholds.records hcollects.records
    · intro id code
      rw [collect_warnings, List.mem_append, List.mem_append,
        or_iff_left (hother fun id' => ((messages_apart id id').2.1).symm),
        or_iff_left (hother fun id' => ((messages_apart id id').1).symm)]
      exact warning_mem_iff messages_injective.1 orders.records
    · exact Or.inl
  · apply @hmodule _ _ tunnelRows _ _ _ _ tunnelsMessage hholds.tunnels hcollects.tunnels
    · intro id code
      rw [collect_warnings, List.mem_append, List.mem_append,
        or_iff_left (hother fun id' => ((messages_apart id id').2.2).symm),
        or_iff_right (hother fun id' => (messages_apart id' id).1)]
      exact warning_mem_iff messages_injective.2.1 orders.tunnels
    · exact fun h => Or.inr (Or.inl h)
  · apply @hmodule _ _ workerRows _ _ _ _ workersMessage hholds.workers hcollects.workers
    · intro id code
      rw [collect_warnings, List.mem_append, List.mem_append,
        or_iff_right fun h => h.elim (hother fun id' => (messages_apart id' id).2.1)
          (hother fun id' => (messages_apart id' id).2.2)]
      exact warning_mem_iff messages_injective.2.2 orders.workers
    · exact fun h => Or.inr (Or.inr h)

/-- A sync isolates the failures of its children exactly when every row fits and is clean,
rows of one kind and id are mapped alike, and every child list is heard. -/
theorem failures_isolated_iff (wire : Wire) (transport : Transport) (request : SyncRequest)
    (secret : Option (List UInt8)) :
    FailuresIsolated wire transport request secret ↔
      ∀ token lists, Admitted request secret token → readLists wire transport token = .ok lists →
        lists.Harmless wire (contextOf request) := by
  have hone : ∀ orders token lists, Admitted request secret token →
      readLists wire transport token = .ok lists →
      ((∃ outcome, sync wire transport orders request secret = .ok outcome ∧
        Isolated wire request lists outcome) ↔ lists.Harmless wire (contextOf request)) := by
    intro orders token lists hadmitted hlists
    rw [sync_of_lists hadmitted hlists]
    have hwalked := readLists_walked hlists
    by_cases hfit : lists.Fit wire
    · obtain ⟨output, hmap, hfinish⟩ :=
        @finish_of_fit _ _ (contextOf request) _ hfit hadmitted.2.2 orders
      obtain ⟨hrecords, htunnels, hworkers⟩ := told_all_iff orders hfit hmap
      have hnormalized := normalized_iff hadmitted.2.2 ((collect_fits_iff orders).mpr hfit) hmap
        (fun hclean => scanWarnings_collect hwalked ((clean_iff orders).mp hclean).zones
          ((clean_iff orders).mp hclean).accounts orders)
      rw [clean_iff, alike_iff] at hnormalized
      rw [hfinish]
      constructor
      · rintro ⟨outcome, houtcome, hisolated⟩
        cases houtcome
        obtain ⟨hclean, halike⟩ := hnormalized.mp hisolated.accepted
        exact ⟨hfit, hclean, halike,
          fun child hchild => (hrecords child).mp (hisolated.records child hchild),
          fun child hchild => (htunnels child).mp (hisolated.tunnels child hchild),
          fun child hchild => (hworkers child).mp (hisolated.workers child hchild)⟩
      · intro h
        exact ⟨_, rfl, fun child hchild => (hrecords child).mpr (h.records child hchild),
          fun child hchild => (htunnels child).mpr (h.tunnels child hchild),
          fun child hchild => (hworkers child).mpr (h.workers child hchild),
          hnormalized.mpr ⟨h.clean, h.alike⟩⟩
    · rw [finish_of_refused fun hc => hfit ((collect_fits_iff orders).mp hc)]
      exact iff_of_false (fun ⟨_, h, _⟩ => by cases h) (fun h => hfit h.fit)
  constructor
  · intro h token lists hadmitted hlists
    exact (hone ⟨.stored, .stored, .stored⟩ token lists hadmitted hlists).mp
      (h _ token lists hadmitted hlists)
  · intro h orders token lists hadmitted hlists
    exact (hone orders token lists hadmitted hlists).mpr (h token lists hadmitted hlists)

end

/-! ## §6  A pointer record -/

namespace Fixture

def addressBody : Body :=
  body "\x7b\"result\":[\x7b\"id\":\"r\",\"zone_id\":\"z\",\"type\":\"A\",\"name\":\"example.com\",\"content\":\"192.0.2.1\"\x7d]\x7d"

def pointerBody : Body :=
  body "\x7b\"result\":[\x7b\"id\":\"p\",\"zone_id\":\"y\",\"type\":\"PTR\",\"name\":\"1.example.org\",\"content\":\"example.org\"\x7d]\x7d"

def addressRecord : DnsRecordDto where
  id := "r"
  zoneId := "z"
  recordType := "A"
  name := "example.com"
  content := "192.0.2.1"
  proxied := none

def pointerRecord : DnsRecordDto where
  id := "p"
  zoneId := "y"
  recordType := "PTR"
  name := "1.example.org"
  content := "example.org"
  proxied := none

def pointerWire : Wire :=
  { twoZoneWire with
    records := fun body =>
      if body = addressBody then some [addressRecord]
      else if body = pointerBody then some [pointerRecord]
      else none }

def pointerTransport : Transport := fun number _ =>
  match number with
  | 0 => .ok { status := 200, retryAfterSeconds := none, body := noAccounts }
  | 1 => .ok { status := 200, retryAfterSeconds := none, body := twoZones }
  | 2 => .ok { status := 200, retryAfterSeconds := none, body := addressBody }
  | _ => .ok { status := 200, retryAfterSeconds := none, body := pointerBody }

end Fixture

open NextInfra.Cloudflare.Fixture in
/-- One record of a type the mapper does not know costs the rows of every list. -/
theorem pointer_record_voids :
    ¬FailuresIsolated pointerWire pointerTransport request (some token) := by
  intro h
  have hlists : (readLists pointerWire pointerTransport token).toOption.isSome = true := by
    decide +kernel
  have hvoid : (sync pointerWire pointerTransport ⟨.stored, .stored, .stored⟩ request
      (some token)).toOption.isSome = false := by
    decide +kernel
  cases hread : readLists pointerWire pointerTransport token with
  | error e =>
      rw [hread] at hlists
      cases hlists
  | ok lists =>
      obtain ⟨outcome, hok, _⟩ := h ⟨.stored, .stored, .stored⟩ token lists ⟨rfl, rfl, rfl⟩ hread
      rw [hok] at hvoid
      cases hvoid

end Cloudflare

end NextInfra
