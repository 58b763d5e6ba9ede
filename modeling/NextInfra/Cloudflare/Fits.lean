import Mathlib.Data.List.ReduceOption
import NextInfra.Cloudflare.Coverage
import NextInfra.Connector.Naming
import NextInfra.Lib.StableSort

/-!
# What the Cloudflare mapper takes

One item that does not fit refuses the whole output. §1 says what fits, kind by kind;
§2 what the output is when everything does.
-/

namespace NextInfra

namespace Cloudflare

/-! ## §1  Items -/

/-- The account has an id and a name of its own. -/
def AccountDto.Fits (v : AccountDto) : Prop := Nameable v.id v.name

def ZoneDto.Fits (v : ZoneDto) : Prop := Nameable v.id v.name ∧ Unpadded v.account.id

def DnsRecordDto.Fits (v : DnsRecordDto) : Prop :=
  v.recordType ∈ recordTypes ∧ Nameable v.id v.name ∧ Unpadded v.zoneId

def TunnelWithAccount.Fits (v : TunnelWithAccount) : Prop :=
  Nameable v.tunnel.id v.tunnel.name ∧ Unpadded v.accountId

/-- A worker is named by its id. -/
def WorkerWithAccount.Fits (v : WorkerWithAccount) : Prop :=
  Nameable v.worker.id v.worker.id ∧ Unpadded v.accountId

/-- The id of the parent a resource names. -/
def parentText (r : ResourceObservation) : Option String :=
  (parentOf r.kind).bind fun parent => (r.attributes.get parent.2).bind Value.asStr

section

variable {ctx : Context} {r : ResourceObservation}

/-- The parent of a resource of a kind is read from the field of the kind. -/
theorem parentText_of_makes {kind parent : MappedKind} {field id shown text : String}
    {fields : List (String × Value)} (hparent : parentOf kind.kind = some (parent, field))
    (hfield : Value.fieldOf field fields.reverse = some (.string text))
    (h : mapping.Makes kind id shown (.mkObject fields) r) : parentText r = some text := by
  unfold parentText
  rw [h.kind, hparent, Option.bind_some, h.attributes, Value.get_mkObject, hfield]
  rfl

theorem account_parentText {v : AccountDto} (h : account ctx v = .ok r) : parentText r = none := by
  have hnone : parentOf accountKind.kind = none := by decide +kernel
  unfold parentText
  rw [(Mapping.resource_makes h).kind, hnone]
  rfl

theorem zone_parentText {v : ZoneDto} (h : zone ctx v = .ok r) :
    parentText r = some v.account.id := by
  have hparent : parentOf zoneKind.kind = some (accountKind, "account_id") := rfl
  exact parentText_of_makes hparent rfl (Mapping.resource_makes h)

theorem record_makes {v : DnsRecordDto} (h : record ctx v = .ok r) :
    v.recordType ∈ recordTypes ∧ mapping.Makes recordKind v.id v.name
      (.mkObject
        [("zone_id", .string v.zoneId), ("type", .string v.recordType),
          ("content", .string v.content),
          ("proxied", (v.proxied.map Value.bool).getD .null)]) r := by
  unfold record at h
  split at h
  · cases h
  · rename_i htype
    exact ⟨not_not.mp htype, Mapping.resource_makes h⟩

theorem record_parentText {v : DnsRecordDto} (h : record ctx v = .ok r) :
    parentText r = some v.zoneId := by
  have hparent : parentOf recordKind.kind = some (zoneKind, "zone_id") := rfl
  exact parentText_of_makes hparent rfl (record_makes h).2

theorem tunnel_parentText {v : TunnelWithAccount} (h : tunnel ctx v = .ok r) :
    parentText r = some v.accountId := by
  have hparent : parentOf tunnelKind.kind = some (accountKind, "account_id") := rfl
  exact parentText_of_makes hparent rfl (Mapping.resource_makes h)

theorem worker_parentText {v : WorkerWithAccount} (h : worker ctx v = .ok r) :
    parentText r = some v.accountId := by
  have hparent : parentOf workerKind.kind = some (accountKind, "account_id") := rfl
  exact parentText_of_makes hparent rfl (Mapping.resource_makes h)

end

/-! ## §2  Relations -/

section

variable {ctx : Context} {ids : List ExternalId} {r : ResourceObservation}

/-- Two kinds of parents, each named by a field of its own. -/
theorem parentOf_cases {kind : ResourceKind} {parent : MappedKind} {field : String}
    (h : parentOf kind = some (parent, field)) :
    parent = accountKind ∧ field = "account_id" ∨ parent = zoneKind ∧ field = "zone_id" := by
  unfold parentOf at h
  split at h
  · cases h
    exact Or.inl ⟨rfl, rfl⟩
  · split at h
    · cases h
      exact Or.inr ⟨rfl, rfl⟩
    · cases h

/-- A field that names a parent makes a field path and evidence for any resource. -/
theorem parent_field_named {kind : ResourceKind} {parent : MappedKind} {field : String}
    (h : parentOf kind = some (parent, field)) (id : ExternalId) :
    (∃ path : FieldPath, StringValue.new field = .ok path) ∧ ∃ key : EvidenceKey,
      StringValue.new ("cloudflare:" ++ containsKind.val ++ ":" ++ field ++ ":" ++ id.val) =
        .ok key := by
  have hfront : StartsVisible ("cloudflare:" ++ containsKind.val ++ ":" ++ field) := by
    have hlist : ("cloudflare:" ++ containsKind.val ++ ":" ++ field).toList =
        'c' :: ("loudflare:".toList ++ containsKind.val.toList ++ ":".toList ++ field.toList) := by
      simp only [String.toList_append]
      rfl
    exact ⟨'c', _, hlist, by decide⟩
  refine ⟨?_, evidence_named _ hfront id⟩
  apply StringValue.new_ok_iff.mpr
  rcases parentOf_cases h with ⟨_, rfl⟩ | ⟨_, rfl⟩
  · decide +kernel
  · decide +kernel

theorem relationOf_isOk_iff :
    (∃ o, relationOf ctx ids r = .ok o) ↔ ∀ text ∈ parentText r, Unpadded text := by
  have hnone : ∀ {o : Option RelationObservation}, relationOf ctx ids r = .ok o →
      parentText r = none →
      ((∃ o, relationOf ctx ids r = .ok o) ↔ ∀ text ∈ parentText r, Unpadded text) := by
    intro o hok hparent
    refine iff_of_true ⟨o, hok⟩ ?_
    rw [hparent]
    exact fun text htext => by cases htext
  cases hparent : parentOf r.kind with
  | none =>
      apply @hnone none
      · unfold relationOf
        rw [hparent]
      · unfold parentText
        rw [hparent]
        rfl
  | some entry =>
      obtain ⟨parent, field⟩ := entry
      have htext : parentText r = (r.attributes.get field).bind Value.asStr := by
        unfold parentText
        rw [hparent]
        rfl
      by_cases hstring : ∃ text, r.attributes.get field = some (.string text)
      · obtain ⟨text, hget⟩ := hstring
        have hone : (∀ text' ∈ parentText r, Unpadded text') ↔ Unpadded text := by
          rw [htext, hget]
          exact ⟨fun h => h text rfl, fun h text' heq => Option.some.inj heq ▸ h⟩
        rw [hone, ← @external_ok_iff parent.kind]
        unfold relationOf
        rw [hparent]
        dsimp only
        rw [hget]
        dsimp only
        cases external parent.kind.val text with
        | error e => exact iff_of_false (fun ⟨_, h⟩ => by cases h) (fun ⟨_, h⟩ => by cases h)
        | ok sourceId =>
            refine iff_of_true ?_ ⟨sourceId, rfl⟩
            obtain ⟨⟨path, hpath⟩, key, hkey⟩ := parent_field_named hparent r.externalId
            show ∃ o, (if sourceId ∈ ids then _ else _) = _
            split
            · rw [hkey, hpath]
              exact ⟨_, rfl⟩
            · exact ⟨_, rfl⟩
      · have hwild : ∀ text, r.attributes.get field ≠ some (.string text) :=
          fun text h => hstring ⟨text, h⟩
        apply @hnone none
        · unfold relationOf
          rw [hparent]
          dsimp only
          split
          · rename_i text hget
            exact absurd hget (hwild text)
          · rfl
        · rw [htext]
          cases hget : r.attributes.get field with
          | none => rfl
          | some value =>
              cases value with
              | string text => exact absurd hget (hwild text)
              | _ => rfl

/-- What a relation is made of. -/
structure Relates (ctx : Context) (ids : List ExternalId) (r : ResourceObservation)
    (parent : MappedKind) (field text : String) (rel : RelationObservation) : Prop where
  parentOf : parentOf r.kind = some (parent, field)
  parentText : parentText r = some text
  sourceKind : rel.source.kind = parent.kind
  sourceId : rel.source.externalId.val = parent.kind.val ++ ":" ++ text
  listed : rel.source.externalId ∈ ids
  target : rel.target = { kind := r.kind, externalId := r.externalId }
  kind : rel.kind = containsKind
  evidenceKey : rel.evidenceKey.val =
    "cloudflare:" ++ containsKind.val ++ ":" ++ field ++ ":" ++ r.externalId.val
  fieldPath : rel.fieldPath.val = field
  observedAt : rel.observedAt = ctx.observedAt

theorem orMessage_ok {α : Type} {message : String} {x : Except DomainError α} {a : α}
    (h : orMessage message x = .ok a) : x = .ok a := by
  unfold orMessage at h
  split at h
  · cases h
    rfl
  · cases h

theorem relationOf_relates {rel : RelationObservation} (h : relationOf ctx ids r = .ok (some rel)) :
    ∃ parent field text, Relates ctx ids r parent field text rel := by
  unfold relationOf at h
  split at h
  · cases h
  rename_i parent field hparent
  split at h
  · rename_i text hget
    obtain ⟨sourceId, hsource, h⟩ := bind_ok h
    split at h
    · rename_i hmem
      obtain ⟨key, hkey, h⟩ := bind_ok h
      obtain ⟨path, hpath, h⟩ := bind_ok h
      cases h
      refine ⟨parent, field, text, hparent, ?_, rfl, external_val hsource, hmem, rfl, rfl,
        StringValue.new_val_eq (orMessage_ok hkey), StringValue.new_val_eq (orMessage_ok hpath), rfl⟩
      unfold parentText
      rw [hparent, Option.bind_some, hget]
      rfl
    · cases h
  · cases h

/-- A relation is known from its target and the id of its source. -/
theorem Relates.unique {ids' : List ExternalId} {r' : ResourceObservation}
    {parent parent' : MappedKind} {field field' text text' : String}
    {rel rel' : RelationObservation} (h : Relates ctx ids r parent field text rel)
    (h' : Relates ctx ids' r' parent' field' text' rel')
    (hsource : rel.source.externalId = rel'.source.externalId) (htarget : rel.target = rel'.target) :
    rel = rel' := by
  rw [h.target, h'.target] at htarget
  obtain ⟨hkind, hid⟩ := ResourceLocator.mk.inj htarget
  have hsame := h'.parentOf
  rw [← hkind, h.parentOf] at hsame
  cases hsame
  have hlocator : rel.source = rel'.source := by
    cases hs : rel.source with
    | mk kind externalId =>
        cases hs' : rel'.source with
        | mk kind' externalId' =>
            have hk := h.sourceKind.trans h'.sourceKind.symm
            rw [hs, hs'] at hk hsource
            exact congr (congrArg ResourceLocator.mk hk) hsource
  have hevidence : rel.evidenceKey = rel'.evidenceKey := by
    apply StringValue.ext_val
    rw [h.evidenceKey, h'.evidenceKey, hid]
  have hpath : rel.fieldPath = rel'.fieldPath :=
    StringValue.ext_val (h.fieldPath.trans h'.fieldPath.symm)
  have hat := h.observedAt.trans h'.observedAt.symm
  have hcontains := h.kind.trans h'.kind.symm
  have hfinal : rel.target = rel'.target := by rw [h.target, h'.target, hkind, hid]
  cases rel
  cases rel'
  simp_all only
end


/-! ## §3  The output -/

/-- The parent a resource names can be named. -/
def Relatable (r : ResourceObservation) : Prop := ∀ text ∈ parentText r, Unpadded text

/-- Everything that was collected fits. -/
structure Collector.Fits (c : Collector) : Prop where
  accounts : ∀ v ∈ c.accounts, v.Fits
  zones : ∀ v ∈ c.zones, v.Fits
  records : ∀ v ∈ c.records, v.Fits
  tunnels : ∀ v ∈ c.tunnels, v.Fits
  workers : ∀ v ∈ c.workers, v.Fits

/-- The observations of what was collected, kind by kind. -/
def Collector.observations (ctx : Context) (c : Collector) : List ResourceObservation :=
  Fallible.results (account ctx) c.accounts ++ Fallible.results (zone ctx) c.zones ++
    Fallible.results (record ctx) c.records ++ Fallible.results (tunnel ctx) c.tunnels ++
      Fallible.results (worker ctx) c.workers

/-- The relations among observations, in their order. -/
def relationsOf (ctx : Context) (resources : List ResourceObservation) : List RelationObservation :=
  (Fallible.results (relationOf ctx (resources.map ResourceObservation.externalId))
    resources).reduceOption

section

variable {ctx : Context} {c : Collector}

theorem relatable_iff {r : ResourceObservation} {text : String} (h : parentText r = some text) :
    Relatable r ↔ Unpadded text := by
  unfold Relatable
  rw [h]
  exact ⟨fun h => h text rfl, fun h text' heq => Option.some.inj heq ▸ h⟩

theorem account_fits_iff {v : AccountDto} :
    (∃ r, account ctx v = .ok r ∧ Relatable r) ↔ v.Fits := by
  unfold AccountDto.Fits
  rw [← @Mapping.resource_isOk_iff mapping ctx accountKind]
  refine exists_congr fun r => and_iff_left_of_imp ?_
  intro h text htext
  rw [account_parentText h] at htext
  cases htext

/-- An item fits where it makes a resource whose parent can be named. -/
theorem fits_iff {x : Except String ResourceObservation} {text : String} {P : Prop}
    (hparent : ∀ r, x = .ok r → parentText r = some text) (hok : (∃ r, x = .ok r) ↔ P) :
    (∃ r, x = .ok r ∧ Relatable r) ↔ P ∧ Unpadded text := by
  rw [← hok]
  constructor
  · rintro ⟨r, hr, hrelatable⟩
    exact ⟨⟨r, hr⟩, (relatable_iff (hparent r hr)).mp hrelatable⟩
  · rintro ⟨⟨r, hr⟩, hunpadded⟩
    exact ⟨r, hr, (relatable_iff (hparent r hr)).mpr hunpadded⟩

theorem zone_fits_iff {v : ZoneDto} : (∃ r, zone ctx v = .ok r ∧ Relatable r) ↔ v.Fits :=
  fits_iff (fun _ => zone_parentText) Mapping.resource_isOk_iff

theorem record_fits_iff {v : DnsRecordDto} : (∃ r, record ctx v = .ok r ∧ Relatable r) ↔ v.Fits := by
  unfold DnsRecordDto.Fits
  rw [← and_assoc]
  apply fits_iff fun _ => record_parentText
  unfold record
  by_cases htype : v.recordType ∈ recordTypes
  · rw [if_neg (not_not.mpr htype), and_iff_right htype]
    exact Mapping.resource_isOk_iff
  · rw [if_pos htype]
    exact iff_of_false (fun ⟨_, h⟩ => by cases h) (fun h => htype h.1)

theorem tunnel_fits_iff {v : TunnelWithAccount} :
    (∃ r, tunnel ctx v = .ok r ∧ Relatable r) ↔ v.Fits :=
  fits_iff (fun _ => tunnel_parentText) Mapping.resource_isOk_iff

theorem worker_fits_iff {v : WorkerWithAccount} :
    (∃ r, worker ctx v = .ok r ∧ Relatable r) ↔ v.Fits :=
  fits_iff (fun _ => worker_parentText) Mapping.resource_isOk_iff

theorem mapCollected_isOk_iff : (∃ output, mapCollected ctx c = .ok output) ↔ c.Fits := by
  have hrelations : ∀ ids : List ExternalId, ∀ rs : List ResourceObservation,
      (∃ relations, rs.mapM (relationOf ctx ids) = .ok relations) ↔ ∀ r ∈ rs, Relatable r := by
    intro ids rs
    constructor
    · rintro ⟨relations, h⟩ r hr
      obtain ⟨o, _, ho⟩ := Fallible.result_of_mapM h hr
      exact relationOf_isOk_iff.mp ⟨o, ho⟩
    · exact fun h => Fallible.mapM_ok_of_forall fun r hr => relationOf_isOk_iff.mpr (h r hr)
  constructor
  · rintro ⟨output, h⟩
    obtain ⟨as, has, h⟩ := bind_ok h
    obtain ⟨zs, hzs, h⟩ := bind_ok h
    obtain ⟨rs, hrs, h⟩ := bind_ok h
    obtain ⟨ts, hts, h⟩ := bind_ok h
    obtain ⟨ws, hws, h⟩ := bind_ok h
    obtain ⟨relations, hall, _⟩ := bind_ok h
    have hrelatable := (hrelations _ _).mp ⟨relations, hall⟩
    simp only [List.forall_mem_append] at hrelatable
    obtain ⟨⟨⟨⟨ha, hz⟩, hr⟩, ht⟩, hw⟩ := hrelatable
    exact ⟨fun v hv => account_fits_iff.mp (Fallible.mapM_ok_and_iff.mp ⟨as, has, ha⟩ v hv),
      fun v hv => zone_fits_iff.mp (Fallible.mapM_ok_and_iff.mp ⟨zs, hzs, hz⟩ v hv),
      fun v hv => record_fits_iff.mp (Fallible.mapM_ok_and_iff.mp ⟨rs, hrs, hr⟩ v hv),
      fun v hv => tunnel_fits_iff.mp (Fallible.mapM_ok_and_iff.mp ⟨ts, hts, ht⟩ v hv),
      fun v hv => worker_fits_iff.mp (Fallible.mapM_ok_and_iff.mp ⟨ws, hws, hw⟩ v hv)⟩
  · intro h
    obtain ⟨as, has, ha⟩ := Fallible.mapM_ok_and_iff.mpr fun v hv =>
      (@account_fits_iff ctx v).mpr (h.accounts v hv)
    obtain ⟨zs, hzs, hz⟩ := Fallible.mapM_ok_and_iff.mpr fun v hv =>
      (@zone_fits_iff ctx v).mpr (h.zones v hv)
    obtain ⟨rs, hrs, hr⟩ := Fallible.mapM_ok_and_iff.mpr fun v hv =>
      (@record_fits_iff ctx v).mpr (h.records v hv)
    obtain ⟨ts, hts, ht⟩ := Fallible.mapM_ok_and_iff.mpr fun v hv =>
      (@tunnel_fits_iff ctx v).mpr (h.tunnels v hv)
    obtain ⟨ws, hws, hw⟩ := Fallible.mapM_ok_and_iff.mpr fun v hv =>
      (@worker_fits_iff ctx v).mpr (h.workers v hv)
    have hrelatable : ∀ r ∈ as ++ zs ++ rs ++ ts ++ ws, Relatable r := by
      simp only [List.forall_mem_append]
      exact ⟨⟨⟨⟨ha, hz⟩, hr⟩, ht⟩, hw⟩
    obtain ⟨relations, hall⟩ := (hrelations
      ((as ++ zs ++ rs ++ ts ++ ws).map ResourceObservation.externalId) _).mpr hrelatable
    unfold mapCollected mapResources
    rw [has, hzs, hrs, hts, hws]
    simp only [bind, Except.bind, hall]
    exact ⟨_, rfl⟩

/-- The output is what was collected, sorted. -/
theorem mapCollected_eq {output : CloudflareMapperOutput} (h : mapCollected ctx c = .ok output) :
    output.resources =
        (c.observations ctx).insertionSort (fun a b => resourceKey a ≤ resourceKey b) ∧
      output.relations = (relationsOf ctx (c.observations ctx)).insertionSort
        fun a b => relationKey a ≤ relationKey b := by
  obtain ⟨as, has, h⟩ := bind_ok h
  obtain ⟨zs, hzs, h⟩ := bind_ok h
  obtain ⟨rs, hrs, h⟩ := bind_ok h
  obtain ⟨ts, hts, h⟩ := bind_ok h
  obtain ⟨ws, hws, h⟩ := bind_ok h
  obtain ⟨relations, hall, h⟩ := bind_ok h
  cases h
  have hobservations : c.observations ctx = as ++ zs ++ rs ++ ts ++ ws := by
    unfold Collector.observations
    rw [← Fallible.eq_results_of_mapM has, ← Fallible.eq_results_of_mapM hzs,
      ← Fallible.eq_results_of_mapM hrs, ← Fallible.eq_results_of_mapM hts,
      ← Fallible.eq_results_of_mapM hws]
  rw [hobservations]
  refine ⟨rfl, ?_⟩
  unfold relationsOf
  rw [← Fallible.eq_results_of_mapM hall]

/-- What was collected is named by its kind and its id. -/
theorem observations_named {r : ResourceObservation} (h : r ∈ c.observations ctx) :
    r.externalId.val = r.kind.val ++ ":" ++ r.name := by
  have hmakes : ∀ {kind id shown fields}, mapping.Makes kind id shown fields r →
      r.externalId.val = r.kind.val ++ ":" ++ r.name := by
    intro kind id shown fields hmade
    rw [hmade.externalId, hmade.kind, hmade.name]
  unfold Collector.observations at h
  simp only [List.mem_append, Fallible.mem_results_iff] at h
  rcases h with (((⟨_, _, h⟩ | ⟨_, _, h⟩) | ⟨_, _, h⟩) | ⟨_, _, h⟩) | ⟨_, _, h⟩
  · exact hmakes (Mapping.resource_makes h)
  · exact hmakes (Mapping.resource_makes h)
  · exact hmakes (record_makes h).2
  · exact hmakes (Mapping.resource_makes h)
  · exact hmakes (Mapping.resource_makes h)

theorem relationsOf_perm {rs rs' : List ResourceObservation} (hperm : rs.Perm rs') :
    (relationsOf ctx rs).Perm (relationsOf ctx rs') := by
  have hsame : relationOf ctx (rs.map ResourceObservation.externalId) =
      relationOf ctx (rs'.map ResourceObservation.externalId) := by
    funext r
    unfold relationOf
    simp only [(hperm.map ResourceObservation.externalId).mem_iff]
  unfold relationsOf
  rw [hsame]
  exact (hperm.filterMap _).filterMap _

/-- The relations of what was collected are told apart by what they are sorted by. -/
theorem relationsOf_unique {rel rel' : RelationObservation}
    (h : rel ∈ relationsOf ctx (c.observations ctx))
    (h' : rel' ∈ relationsOf ctx (c.observations ctx)) (hkey : relationKey rel = relationKey rel') :
    rel = rel' := by
  have hsource : ∀ {rel}, rel ∈ relationsOf ctx (c.observations ctx) →
      ∃ r ∈ c.observations ctx, ∃ parent field text, Relates ctx
        ((c.observations ctx).map ResourceObservation.externalId) r parent field text rel := by
    intro rel hrel
    obtain ⟨r, hr, hok⟩ := Fallible.mem_results_iff.mp (List.reduceOption_mem_iff.mp hrel)
    exact ⟨r, hr, relationOf_relates hok⟩
  obtain ⟨r, hr, parent, field, text, hrelates⟩ := hsource h
  obtain ⟨r', hr', parent', field', text', hrelates'⟩ := hsource h'
  obtain ⟨hid, htarget⟩ := Prod.mk.inj (toLex_inj.mp hkey)
  apply hrelates.unique hrelates' hid
  -- the target's id tells its kind
  have hnamed := congrArg StringValue.val htarget
  rw [hrelates.target, hrelates'.target] at htarget hnamed ⊢
  dsimp only at htarget hnamed
  rw [observations_named hr, observations_named hr'] at hnamed
  rw [(named_injective hnamed).1, htarget]

/-- The output is known from what was collected under each kind and id. -/
theorem mapCollected_congr {c' : Collector} {output output' : CloudflareMapperOutput}
    (h : mapCollected ctx c = .ok output) (h' : mapCollected ctx c' = .ok output')
    (hunder : ∀ key, StableSort.under resourceKey key (c.observations ctx) =
      StableSort.under resourceKey key (c'.observations ctx)) : output = output' := by
  obtain ⟨hresources, hrelations⟩ := mapCollected_eq h
  obtain ⟨hresources', hrelations'⟩ := mapCollected_eq h'
  have hsorted := StableSort.insertionSort_eq_iff.mpr hunder
  have hperm : (c.observations ctx).Perm (c'.observations ctx) := by
    have hleft := (List.perm_insertionSort
      (fun a b => resourceKey a ≤ resourceKey b) (c.observations ctx)).symm
    rw [hsorted] at hleft
    exact hleft.trans (List.perm_insertionSort _ _)
  cases output
  cases output'
  rw [CloudflareMapperOutput.mk.injEq]
  constructor
  · exact (hresources.trans hsorted).trans hresources'.symm
  · refine (hrelations.trans ?_).trans hrelations'.symm
    exact StableSort.insertionSort_eq_of_perm (relationsOf_perm hperm)
      fun rel hrel rel' hrel' => relationsOf_unique hrel hrel'

/-- A sync maps what it collected or not at all. -/
theorem finish_of_refused {request : SyncRequest} (h : ¬c.Fits) :
    c.finish ctx request = .error invalidResponse := by
  unfold Collector.finish
  cases hmap : mapResources ctx c.accounts c.zones c.records c.tunnels c.workers with
  | error e => rfl
  | ok output => exact absurd (mapCollected_isOk_iff.mp ⟨output, hmap⟩) h

theorem outcome_valid {request : SyncRequest} {scope : Scope} {output : CloudflareMapperOutput}
    (hmode : request.mode = .full) : (c.outcome scope output).validateFor request = .ok () := by
  apply SyncOutcome.validateFor_ok_iff.mpr
  unfold Collector.outcome SyncRequest.acceptsCoverage
  rw [hmode]
  cases c.childFailures.head? with
  | none => exact ⟨rfl, rfl, iff_of_false Bool.false_ne_true fun ⟨_, _, h⟩ => by cases h⟩
  | some failure => exact ⟨rfl, rfl, iff_of_true rfl ⟨_, _, rfl⟩⟩

theorem finish_of_mapped {request : SyncRequest} {output : CloudflareMapperOutput}
    (hmode : request.mode = .full) (hmap : mapCollected ctx c = .ok output) :
    c.finish ctx request = .ok (c.outcome ctx.scope output) := by
  unfold Collector.finish
  rw [show mapResources ctx c.accounts c.zones c.records c.tunnels c.workers = .ok output from hmap]
  simp only [outcome_valid hmode]

end

end Cloudflare

end NextInfra
