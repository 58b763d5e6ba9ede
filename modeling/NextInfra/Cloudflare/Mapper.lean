import Mathlib.Data.List.Sort
import NextInfra.Cloudflare.Client
import NextInfra.Connector.Mapping
import NextInfra.Lib.Entries

/-!
# The Cloudflare mapper

Five kinds of items become resources, and each zone, tunnel, worker and record a
relation from its parent when the parent is there too. One invalid item refuses them
all.
-/

namespace NextInfra

namespace Cloudflare

/-! ## §1  One resource -/

structure TunnelWithAccount where
  tunnel : TunnelDto
  accountId : String

structure WorkerWithAccount where
  worker : WorkerDto
  accountId : String

theorem account_named : IsNamespaced "cloudflare.account".toList := by decide
theorem zone_named : IsNamespaced "cloudflare.zone".toList := by decide
theorem record_named : IsNamespaced "cloudflare.dns_record".toList := by decide
theorem tunnel_named : IsNamespaced "cloudflare.tunnel".toList := by decide
theorem worker_named : IsNamespaced "cloudflare.worker".toList := by decide

def accountKind : MappedKind := ⟨⟨"cloudflare.account", account_named⟩, "account"⟩
def zoneKind : MappedKind := ⟨⟨"cloudflare.zone", zone_named⟩, "zone"⟩
def recordKind : MappedKind := ⟨⟨"cloudflare.dns_record", record_named⟩, "dns_record"⟩
def tunnelKind : MappedKind := ⟨⟨"cloudflare.tunnel", tunnel_named⟩, "tunnel"⟩
def workerKind : MappedKind := ⟨⟨"cloudflare.worker", worker_named⟩, "worker"⟩

def mapping : Mapping where
  labelKey := ⟨"cloudflare.resource_type", by decide +kernel⟩
  invalidIdentity := "Cloudflare resource identity is invalid"

def account (ctx : Context) (value : AccountDto) : Except String ResourceObservation :=
  mapping.resource ctx accountKind value.id value.name (.mkObject [])

def zone (ctx : Context) (value : ZoneDto) : Except String ResourceObservation :=
  mapping.resource ctx zoneKind value.id value.name
    (.mkObject [("account_id", .string value.account.id), ("status", optional value.status)])

def recordTypes : List String := ["A", "AAAA", "CNAME", "TXT", "MX", "SRV", "CAA", "NS"]

def record (ctx : Context) (value : DnsRecordDto) : Except String ResourceObservation :=
  if value.recordType ∉ recordTypes then .error "Cloudflare DNS record type is unsupported"
  else
    mapping.resource ctx recordKind value.id value.name
      (.mkObject
        [("zone_id", .string value.zoneId), ("type", .string value.recordType),
          ("content", .string value.content),
          ("proxied", (value.proxied.map Value.bool).getD .null)])

def tunnel (ctx : Context) (value : TunnelWithAccount) :
    Except String ResourceObservation :=
  mapping.resource ctx tunnelKind value.tunnel.id value.tunnel.name
    (.mkObject [("account_id", .string value.accountId), ("status", optional value.tunnel.status)])

def worker (ctx : Context) (value : WorkerWithAccount) :
    Except String ResourceObservation :=
  mapping.resource ctx workerKind value.worker.id value.worker.id
    (.mkObject
      [("account_id", .string value.accountId), ("modified_on", optional value.worker.modifiedOn)])

section

variable {ctx : Context} {r : ResourceObservation}

/-- An observation tells which kind of item it is of. -/
theorem observation_kind :
    (∀ v, account ctx v = .ok r → r.kind = accountKind.kind) ∧
      (∀ v, zone ctx v = .ok r → r.kind = zoneKind.kind) ∧
      (∀ v, record ctx v = .ok r → r.kind = recordKind.kind) ∧
      (∀ v, tunnel ctx v = .ok r → r.kind = tunnelKind.kind) ∧
      ∀ v, worker ctx v = .ok r → r.kind = workerKind.kind := by
  refine ⟨fun v h => (Mapping.resource_ok h).1, fun v h => (Mapping.resource_ok h).1, ?_,
    fun v h => (Mapping.resource_ok h).1, fun v h => (Mapping.resource_ok h).1⟩
  intro v h
  unfold record at h
  split at h
  · cases h
  · exact (Mapping.resource_ok h).1

end

/-! ## §2  The whole output -/

structure CloudflareMapperOutput where
  resources : List ResourceObservation
  relations : List RelationObservation

/-- The parent's kind and the attribute that names it. -/
def parentOf (kind : ResourceKind) : Option (MappedKind × String) :=
  if kind ∈ [zoneKind.kind, tunnelKind.kind, workerKind.kind] then some (accountKind, "account_id")
  else if kind = recordKind.kind then some (zoneKind, "zone_id")
  else none

def containsKind : RelationKind := ⟨"cloudflare.contains", by decide +kernel⟩

/-- The relation a resource gets, if its parent is one of the resources. -/
def relationOf (ctx : Context) (ids : List ExternalId) (resource : ResourceObservation) :
    Except String (Option RelationObservation) :=
  match parentOf resource.kind with
  | none => .ok none
  | some (parent, field) =>
      match resource.attributes.get field with
      | some (.string sourceValue) => do
          let sourceId ← external parent.kind.val sourceValue
          if sourceId ∈ ids then do
            let evidenceKey ← orMessage "invalid evidence" <| StringValue.new <|
              "cloudflare:" ++ containsKind.val ++ ":" ++ field ++ ":" ++ resource.externalId.val
            let fieldPath ← orMessage "invalid field path" (StringValue.new field)
            .ok <| some
              { source := { kind := parent.kind, externalId := sourceId }
                target := { kind := resource.kind, externalId := resource.externalId }
                kind := containsKind
                evidenceKey := evidenceKey
                fieldPath := fieldPath
                observedAt := ctx.observedAt }
          else .ok none
      | _ => .ok none

def resourceKey (r : ResourceObservation) : ResourceKind ×ₗ ExternalId :=
  toLex (r.kind, r.externalId)

def relationKey (r : RelationObservation) : ExternalId ×ₗ ExternalId :=
  toLex (r.source.externalId, r.target.externalId)

def mapResources (ctx : Context) (accounts : List AccountDto) (zones : List ZoneDto)
    (records : List DnsRecordDto) (tunnels : List TunnelWithAccount)
    (workers : List WorkerWithAccount) : Except String CloudflareMapperOutput := do
  let accounts ← accounts.mapM (account ctx)
  let zones ← zones.mapM (zone ctx)
  let records ← records.mapM (record ctx)
  let tunnels ← tunnels.mapM (tunnel ctx)
  let workers ← workers.mapM (worker ctx)
  let resources := accounts ++ zones ++ records ++ tunnels ++ workers
  let relations ← resources.mapM (relationOf ctx (resources.map ResourceObservation.externalId))
  .ok
    { resources := resources.insertionSort fun a b => resourceKey a ≤ resourceKey b
      relations := relations.reduceOption.insertionSort fun a b => relationKey a ≤ relationKey b }

/-- Every item is in the output, as the resource it makes. -/
structure Maps (ctx : Context) (accounts : List AccountDto) (zones : List ZoneDto)
    (records : List DnsRecordDto) (tunnels : List TunnelWithAccount)
    (workers : List WorkerWithAccount) (resources : List ResourceObservation) : Prop where
  everyAccount : ∀ v ∈ accounts, ∃ r ∈ resources, account ctx v = .ok r
  everyZone : ∀ v ∈ zones, ∃ r ∈ resources, zone ctx v = .ok r
  everyRecord : ∀ v ∈ records, ∃ r ∈ resources, record ctx v = .ok r
  everyTunnel : ∀ v ∈ tunnels, ∃ r ∈ resources, tunnel ctx v = .ok r
  everyWorker : ∀ v ∈ workers, ∃ r ∈ resources, worker ctx v = .ok r
  only : ∀ r ∈ resources, (∃ v ∈ accounts, account ctx v = .ok r) ∨
    (∃ v ∈ zones, zone ctx v = .ok r) ∨ (∃ v ∈ records, record ctx v = .ok r) ∨
    (∃ v ∈ tunnels, tunnel ctx v = .ok r) ∨ ∃ v ∈ workers, worker ctx v = .ok r

theorem maps_of_ok {ctx : Context} {accounts : List AccountDto} {zones : List ZoneDto}
    {records : List DnsRecordDto} {tunnels : List TunnelWithAccount}
    {workers : List WorkerWithAccount} {output : CloudflareMapperOutput}
    (h : mapResources ctx accounts zones records tunnels workers = .ok output) :
    Maps ctx accounts zones records tunnels workers output.resources := by
  obtain ⟨as, has, h⟩ := bind_ok h
  obtain ⟨zs, hzs, h⟩ := bind_ok h
  obtain ⟨rs, hrs, h⟩ := bind_ok h
  obtain ⟨ts, hts, h⟩ := bind_ok h
  obtain ⟨ws, hws, h⟩ := bind_ok h
  obtain ⟨relations, _, h⟩ := bind_ok h
  cases h
  have hmem : ∀ r, r ∈ (as ++ zs ++ rs ++ ts ++ ws).insertionSort
      (fun a b => resourceKey a ≤ resourceKey b) ↔
        r ∈ as ∨ r ∈ zs ∨ r ∈ rs ∨ r ∈ ts ∨ r ∈ ws := by
    intro r
    rw [List.mem_insertionSort]
    simp only [List.mem_append, or_assoc]
  refine ⟨?_, ?_, ?_, ?_, ?_, ?_⟩
  · intro v hv
    obtain ⟨r, hr, hf⟩ := Fallible.result_of_mapM has hv
    exact ⟨r, (hmem r).mpr (Or.inl hr), hf⟩
  · intro v hv
    obtain ⟨r, hr, hf⟩ := Fallible.result_of_mapM hzs hv
    exact ⟨r, (hmem r).mpr (Or.inr (Or.inl hr)), hf⟩
  · intro v hv
    obtain ⟨r, hr, hf⟩ := Fallible.result_of_mapM hrs hv
    exact ⟨r, (hmem r).mpr (Or.inr (Or.inr (Or.inl hr))), hf⟩
  · intro v hv
    obtain ⟨r, hr, hf⟩ := Fallible.result_of_mapM hts hv
    exact ⟨r, (hmem r).mpr (Or.inr (Or.inr (Or.inr (Or.inl hr)))), hf⟩
  · intro v hv
    obtain ⟨r, hr, hf⟩ := Fallible.result_of_mapM hws hv
    exact ⟨r, (hmem r).mpr (Or.inr (Or.inr (Or.inr (Or.inr hr)))), hf⟩
  · intro r hr
    rcases (hmem r).mp hr with hr | hr | hr | hr | hr
    · exact Or.inl (Fallible.argument_of_mapM has hr)
    · exact Or.inr (Or.inl (Fallible.argument_of_mapM hzs hr))
    · exact Or.inr (Or.inr (Or.inl (Fallible.argument_of_mapM hrs hr)))
    · exact Or.inr (Or.inr (Or.inr (Or.inl (Fallible.argument_of_mapM hts hr))))
    · exact Or.inr (Or.inr (Or.inr (Or.inr (Fallible.argument_of_mapM hws hr))))

/-- An observation of the output is of an item of its own kind. -/
theorem Maps.item_of_kind {ctx : Context} {accounts : List AccountDto} {zones : List ZoneDto}
    {records : List DnsRecordDto} {tunnels : List TunnelWithAccount}
    {workers : List WorkerWithAccount} {resources : List ResourceObservation}
    (h : Maps ctx accounts zones records tunnels workers resources) {r : ResourceObservation}
    (hr : r ∈ resources) :
    (r.kind = recordKind.kind → ∃ v ∈ records, record ctx v = .ok r) ∧
      (r.kind = tunnelKind.kind → ∃ v ∈ tunnels, tunnel ctx v = .ok r) ∧
      (r.kind = workerKind.kind → ∃ v ∈ workers, worker ctx v = .ok r) := by
  obtain ⟨haccount, hzone, hrecord, htunnel, hworker⟩ := @observation_kind ctx r
  rcases h.only r hr with ⟨v, hv, hobs⟩ | ⟨v, hv, hobs⟩ | ⟨v, hv, hobs⟩ | ⟨v, hv, hobs⟩ | ⟨v, hv, hobs⟩
  · have hkind := haccount v hobs
    refine ⟨?_, ?_, ?_⟩ <;> exact fun hk => absurd (hkind.symm.trans hk) (by decide +kernel)
  · have hkind := hzone v hobs
    refine ⟨?_, ?_, ?_⟩ <;> exact fun hk => absurd (hkind.symm.trans hk) (by decide +kernel)
  · have hkind := hrecord v hobs
    refine ⟨fun _ => ⟨v, hv, hobs⟩, ?_, ?_⟩ <;>
      exact fun hk => absurd (hkind.symm.trans hk) (by decide +kernel)
  · have hkind := htunnel v hobs
    refine ⟨?_, fun _ => ⟨v, hv, hobs⟩, ?_⟩ <;>
      exact fun hk => absurd (hkind.symm.trans hk) (by decide +kernel)
  · have hkind := hworker v hobs
    refine ⟨?_, ?_, fun _ => ⟨v, hv, hobs⟩⟩ <;>
      exact fun hk => absurd (hkind.symm.trans hk) (by decide +kernel)

end Cloudflare

end NextInfra
