import Mathlib.Data.List.ReduceOption
import NextInfra.Aliyun.Connector
import NextInfra.Tencent.Connector
import NextInfra.Connector.Naming

/-!
# Identities of the two cloud connectors

One list of keys finds the id of the rows of every product, and rows of one product
carry the id fields of others. A row keeps its identity exactly when the first of these
fields that is read is its own (`identities_faithful_iff`). §4 is two switches of one
network.
-/

namespace NextInfra

namespace Cloud

/-! ## §1  Rows -/

/-- The text of the field under a key, where it is read. -/
def textAt (text : Value → Option String) (fields : List (String × Value)) (key : String) :
    Option String :=
  (Value.fieldOf key fields).bind text

/-- The first of the keys whose field is read holds the id. -/
def FirstReads (text : Value → Option String) (keys : List String)
    (fields : List (String × Value)) (id : String) : Prop :=
  ∃ before key after, keys = before ++ key :: after ∧ textAt text fields key = some id ∧
    ∀ k ∈ before, textAt text fields k = none

/-- What the deserializer of a connector looks for in a row, and which fields tell what. -/
structure Reading where
  read : List (String × Value) → ResourceDto
  mapper : Mapper
  /-- The values that are taken for an id. -/
  idText : Value → Option String
  idKeys : List String
  parentKeys : List String
  /-- The id field of each product. -/
  ownKeys : List (ResourceKind × String)
  /-- The field in which a row of a child kind names its parent. -/
  referenceKey : ResourceKind → String
  read_id : ∀ fields, (read fields).id = (idKeys.findSome? (textAt idText fields)).getD ""
  read_parentId : ∀ fields,
    (read fields).parentId = parentKeys.findSome? (textAt Value.asStr fields)

/-- The text of an id in a row, a string or a number. -/
def fieldText (floatText : UInt64 → String) : Value → Option String := Tencent.idText floatText

/-- A row of a list response carries the id field of its own product. -/
structure Row (reading : Reading) (floatText : UInt64 → String) where
  kind : ResourceKind
  key : String
  fields : List (String × Value)
  own : String
  product : (kind, key) ∈ reading.ownKeys
  carries : textAt (fieldText floatText) fields key = some own

section

variable {reading : Reading} {floatText : UInt64 → String} (ctx : Context)

def Row.observe (row : Row reading floatText) : Except String ResourceObservation :=
  reading.mapper.map row.kind ctx (reading.read row.fields)

/-- The parent a row names: by the generic field, or by the one of its product. -/
def Row.reference (row : Row reading floatText) : Option String :=
  (textAt Value.asStr row.fields "parent_id").or
    (textAt (fieldText floatText) row.fields (reading.referenceKey row.kind))

/-- The observations are those of the rows, in some order. -/
def Observed (rows : List (Row reading floatText)) (resources : List ResourceObservation) : Prop :=
  ∃ mapped, rows.mapM (Row.observe ctx) = .ok mapped ∧ resources.Perm mapped

/-! ## §2  Faithful identities -/

/-- The text of an external id of a kind. -/
def nameOf (kind : ResourceKind) (id : String) : String := kind.val ++ ":" ++ id

structure Faithful (rows : List (Row reading floatText)) (relations : List RelationObservation) :
    Prop where
  /-- The external id is built from the row's own id. -/
  identity : ∀ row ∈ rows, ∀ r, row.observe ctx = .ok r →
    r.kind = row.kind ∧ r.externalId.val = nameOf row.kind row.own
  /-- Rows of different kinds or own ids are different resources. -/
  distinct : ∀ row ∈ rows, ∀ row' ∈ rows, (row.kind, row.own) ≠ (row'.kind, row'.own) →
    ∀ r r', row.observe ctx = .ok r → row'.observe ctx = .ok r' →
      (r.kind, r.externalId) ≠ (r'.kind, r'.externalId)
  /-- A relation goes from the resource that the reference of a row names to that row. -/
  relation : ∀ rel ∈ relations, ∃ row ∈ rows, rel.target.kind = row.kind ∧
    rel.target.externalId.val = nameOf row.kind row.own ∧
    ∃ parent ∈ reading.mapper.parentOf row.kind, ∃ id ∈ row.reference,
      rel.source.kind = parent.sourceKind ∧
        rel.source.externalId.val = nameOf parent.sourceKind id

/-- The first id field that is read is the row's own, or says the same. -/
def Row.Leads (row : Row reading floatText) : Prop :=
  FirstReads reading.idText reading.idKeys row.fields row.own

/-- Where the field that is taken for the parent of a row has the id of a listed row of the parent
kind, the row names that parent, or one of the same identity does. -/
def ParentsNamed (rows : List (Row reading floatText)) : Prop :=
  ∀ row ∈ rows, ∀ parent ∈ reading.mapper.parentOf row.kind, ∀ listed ∈ rows,
    listed.kind = parent.sourceKind →
    FirstReads Value.asStr reading.parentKeys row.fields listed.own →
    ∃ row' ∈ rows, row'.kind = row.kind ∧ row'.own = row.own ∧ row'.reference = some listed.own

theorem nameOf_injective {kind : ResourceKind} {a b : String} (h : nameOf kind a = nameOf kind b) :
    a = b := by
  have hlist := congrArg String.toList h
  unfold nameOf at hlist
  rw [String.toList_append, @String.toList_append _ b] at hlist
  exact String.toList_injective (List.append_cancel_left hlist)

theorem firstReads_iff {text : Value → Option String} {keys : List String}
    {fields : List (String × Value)} {id : String} :
    keys.findSome? (textAt text fields) = some id ↔ FirstReads text keys fields id :=
  List.findSome?_eq_some_iff

/-- What the mapper keeps of a row. -/
theorem map_spec {mapper : Mapper} {kind : ResourceKind} {v : ResourceDto} {r : ResourceObservation}
    (h : mapper.map kind ctx v = .ok r) :
    r.kind = kind ∧ v.id ≠ "" ∧ r.externalId.val = nameOf kind v.id ∧
      (r.attributes.get "parent_id").bind Value.asStr = v.parentId := by
  obtain ⟨hkind, hparent⟩ := Mapper.map_ok h
  unfold Mapper.map at h
  split at h
  · cases h
  rename_i hid
  obtain ⟨externalId, hnew, h⟩ := bind_ok h
  cases h
  refine ⟨hkind, hid, ?_, hparent⟩
  unfold orMessage at hnew
  split at hnew
  · rename_i hvalue
    cases hnew
    exact StringValue.new_val_eq hvalue
  · cases hnew

/-- An observation is named by the first id field that is read. -/
theorem observe_spec {row : Row reading floatText} {r : ResourceObservation}
    (h : row.observe ctx = .ok r) :
    r.kind = row.kind ∧
      (∃ id, FirstReads reading.idText reading.idKeys row.fields id ∧
        r.externalId.val = nameOf row.kind id) ∧
      ∀ id, (r.attributes.get "parent_id").bind Value.asStr = some id ↔
        FirstReads Value.asStr reading.parentKeys row.fields id := by
  obtain ⟨hkind, hid, hname, hparent⟩ := map_spec ctx h
  refine ⟨hkind, ⟨_, ?_, hname⟩, fun id => ?_⟩
  · rw [reading.read_id] at hid ⊢
    cases hfound : reading.idKeys.findSome? (textAt reading.idText row.fields) with
    | none =>
        rw [hfound] at hid
        exact absurd rfl hid
    | some id => exact firstReads_iff.mp hfound
  · rw [hparent, reading.read_parentId, firstReads_iff]

theorem FirstReads.unique {text : Value → Option String} {keys : List String}
    {fields : List (String × Value)} {id id' : String} (h : FirstReads text keys fields id)
    (h' : FirstReads text keys fields id') : id = id' :=
  Option.some.inj ((firstReads_iff.mpr h).symm.trans (firstReads_iff.mpr h'))

/-- An observation has the identity of its row exactly when the row's own id leads. -/
theorem identity_iff {row : Row reading floatText} {r : ResourceObservation}
    (h : row.observe ctx = .ok r) : r.externalId.val = nameOf row.kind row.own ↔ row.Leads := by
  obtain ⟨_, ⟨id, hid, hname⟩, _⟩ := observe_spec ctx h
  rw [hname]
  constructor
  · intro heq
    unfold Row.Leads
    rw [← nameOf_injective heq]
    exact hid
  · intro hleads
    rw [hid.unique hleads]

end

/-! ## §3  The relations -/

section

variable {mapper : Mapper} {resources : List ResourceObservation} {r : ResourceObservation}

theorem relationOf_some {rel : RelationObservation}
    (h : mapper.relationOf resources r = some (some rel)) :
    rel.target = ⟨r.kind, r.externalId⟩ ∧
      ∃ parentId, (r.attributes.get "parent_id").bind Value.asStr = some parentId ∧
        ∃ parent ∈ mapper.parentOf r.kind, rel.source.kind = parent.sourceKind ∧
          rel.source.externalId.val = nameOf parent.sourceKind parentId ∧
          ∃ r' ∈ resources, r'.kind = parent.sourceKind ∧ r'.externalId = rel.source.externalId := by
  unfold Mapper.relationOf at h
  split at h
  · rename_i parentId parent hparentId hparent
    obtain ⟨sourceId, hsourceId, h⟩ := Option.bind_eq_some_iff.mp h
    split at h
    · rename_i hlisted
      obtain ⟨evidenceKey, _, h⟩ := Option.bind_eq_some_iff.mp h
      obtain ⟨fieldPath, _, h⟩ := Option.bind_eq_some_iff.mp h
      cases h
      obtain ⟨r', hr', hsame⟩ := List.any_eq_true.mp hlisted
      exact ⟨rfl, parentId, hparentId, parent, hparent, rfl,
        StringValue.new_val_eq (toOption_eq_some_iff.mp hsourceId), r', hr', of_decide_eq_true hsame⟩
    · cases h
  · cases h

/-- A child whose parent is listed is related. -/
theorem relationOf_listed {o : Option RelationObservation}
    (h : mapper.relationOf resources r = some o) {parentId : String}
    (hparentId : (r.attributes.get "parent_id").bind Value.asStr = some parentId) {parent : Parent}
    (hparent : mapper.parentOf r.kind = some parent) {r' : ResourceObservation}
    (hr' : r' ∈ resources) (hkind : r'.kind = parent.sourceKind)
    (hname : r'.externalId.val = nameOf parent.sourceKind parentId) : ∃ rel, o = some rel := by
  unfold Mapper.relationOf at h
  rw [hparentId, hparent] at h
  dsimp only at h
  obtain ⟨sourceId, hsourceId, h⟩ := Option.bind_eq_some_iff.mp h
  have hsource : r'.externalId = sourceId := by
    apply StringValue.ext_val
    rw [hname, StringValue.new_val_eq (toOption_eq_some_iff.mp hsourceId)]
    rfl
  have hlisted : (resources.any fun r => decide (r.kind = parent.sourceKind ∧ r.externalId = sourceId))
      = true :=
    List.any_eq_true.mpr ⟨r', hr', decide_eq_true ⟨hkind, hsource⟩⟩
  rw [if_pos hlisted] at h
  obtain ⟨evidenceKey, _, h⟩ := Option.bind_eq_some_iff.mp h
  obtain ⟨fieldPath, _, h⟩ := Option.bind_eq_some_iff.mp h
  exact ⟨_, (Option.some.inj h).symm⟩

theorem mem_providerRelations_iff {relations : List RelationObservation}
    (h : mapper.providerRelations resources = some relations) {rel : RelationObservation} :
    rel ∈ relations ↔ ∃ r ∈ resources, mapper.relationOf resources r = some (some rel) := by
  obtain ⟨made, hmade, rfl⟩ := Option.map_eq_some_iff.mp h
  rw [List.mem_insertionSort, List.reduceOption_mem_iff]
  constructor
  · intro hrel
    obtain ⟨r, hr, hof⟩ := Fallible.forall₂_result (Fallible.mapM_some_iff.mp hmade).flip hrel
    exact ⟨r, hr, hof⟩
  · rintro ⟨r, hr, hof⟩
    obtain ⟨o, ho, hof'⟩ := Fallible.forall₂_result (Fallible.mapM_some_iff.mp hmade) hr
    cases hof.symm.trans hof'
    exact ho

/-- Where the relations do not panic, each resource has had its turn. -/
theorem relationOf_of_providerRelations {relations : List RelationObservation}
    (h : mapper.providerRelations resources = some relations) (hr : r ∈ resources) :
    ∃ o, mapper.relationOf resources r = some o := by
  obtain ⟨made, hmade, _⟩ := Option.map_eq_some_iff.mp h
  obtain ⟨o, _, ho⟩ := Fallible.forall₂_result (Fallible.mapM_some_iff.mp hmade) hr
  exact ⟨o, ho⟩

end

section

variable {reading : Reading} {floatText : UInt64 → String} {ctx : Context}
  {rows : List (Row reading floatText)} {resources : List ResourceObservation}
  {relations : List RelationObservation}

/-- Identities are faithful exactly when each row's own id leads and its parent is the one it
names. -/
theorem faithful_iff (hobserved : Observed ctx rows resources)
    (hrelations : reading.mapper.providerRelations resources = some relations) :
    Faithful ctx rows relations ↔ (∀ row ∈ rows, row.Leads) ∧ ParentsNamed rows := by
  obtain ⟨mapped, hmapped, hperm⟩ := hobserved
  have hresource : ∀ row ∈ rows, ∃ r ∈ resources, row.observe ctx = .ok r := by
    intro row hrow
    obtain ⟨r, hr, hobs⟩ := Fallible.result_of_mapM hmapped hrow
    exact ⟨r, hperm.mem_iff.mpr hr, hobs⟩
  have hrow : ∀ r ∈ resources, ∃ row ∈ rows, row.observe ctx = .ok r :=
    fun r hr => Fallible.argument_of_mapM hmapped (hperm.mem_iff.mp hr)
  constructor
  · intro h
    have hleads : ∀ row ∈ rows, row.Leads := by
      intro row hmem
      obtain ⟨r, _, hobs⟩ := hresource row hmem
      exact (identity_iff ctx hobs).mp (h.identity row hmem r hobs).2
    refine ⟨hleads, ?_⟩
    intro row hmem parent hparent listed hlisted hkind hreads
    obtain ⟨r, hr, hobs⟩ := hresource row hmem
    obtain ⟨r', hr', hobs'⟩ := hresource listed hlisted
    obtain ⟨hrkind, _, hparentId⟩ := observe_spec ctx hobs
    obtain ⟨hr'kind, hr'name⟩ := h.identity listed hlisted r' hobs'
    obtain ⟨o, ho⟩ := relationOf_of_providerRelations hrelations hr
    -- the listed row is there, so its turn has made a relation
    obtain ⟨rel, rfl⟩ := relationOf_listed ho ((hparentId _).mpr hreads) (hrkind ▸ hparent) hr'
      (hr'kind.trans hkind) (hkind ▸ hr'name)
    obtain ⟨htarget, parentId, hid, parent', hparent', _, hsource, _⟩ := relationOf_some ho
    rw [hrkind] at hparent'
    cases hparent.symm.trans hparent'
    obtain rfl : parentId = listed.own := ((hparentId _).mp hid).unique hreads
    obtain ⟨row', hrow', hkind', hname', parent', hparent', id, hreference, _, hsource'⟩ :=
      h.relation rel ((mem_providerRelations_iff hrelations).mpr ⟨r, hr, ho⟩)
    have hsame : row'.kind = row.kind := by
      rw [← hkind', htarget, hrkind]
    have hname : nameOf row.kind row.own = nameOf row.kind row'.own := by
      rw [← (h.identity row hmem r hobs).2, ← hsame, ← hname', htarget]
    rw [hsame] at hparent'
    cases hparent.symm.trans hparent'
    refine ⟨row', hrow', hsame, (nameOf_injective hname).symm, ?_⟩
    rw [hreference, nameOf_injective (hsource.symm.trans hsource')]
  · rintro ⟨hleads, hnamed⟩
    have hidentity : ∀ row ∈ rows, ∀ r, row.observe ctx = .ok r →
        r.kind = row.kind ∧ r.externalId.val = nameOf row.kind row.own :=
      fun row hmem r hobs =>
        ⟨(observe_spec ctx hobs).1, (identity_iff ctx hobs).mpr (hleads row hmem)⟩
    refine ⟨hidentity, ?_, ?_⟩
    · intro row hmem row' hmem' hne r r' hobs hobs' heq
      obtain ⟨hkind, hname⟩ := hidentity row hmem r hobs
      obtain ⟨hkind', hname'⟩ := hidentity row' hmem' r' hobs'
      obtain ⟨hsame, hid⟩ := Prod.mk.injEq _ _ _ _ ▸ heq
      apply hne
      have hrows : row.kind = row'.kind := hkind.symm.trans (hsame.trans hkind')
      have howns : nameOf row.kind row.own = nameOf row.kind row'.own := by
        rw [← hname, hid, hname', hrows]
      rw [hrows, nameOf_injective howns]
    · intro rel hrel
      obtain ⟨r, hr, hof⟩ := (mem_providerRelations_iff hrelations).mp hrel
      obtain ⟨row, hmem, hobs⟩ := hrow r hr
      obtain ⟨hkind, hname⟩ := hidentity row hmem r hobs
      obtain ⟨htarget, parentId, hid, parent, hparent, hsourceKind, hsource, r', hr', hr'kind, hr'id⟩ :=
        relationOf_some hof
      obtain ⟨listed, hlisted, hobs'⟩ := hrow r' hr'
      obtain ⟨hlistedKind, hlistedName⟩ := hidentity listed hlisted r' hobs'
      have hlisted_parent : listed.kind = parent.sourceKind := hlistedKind.symm.trans hr'kind
      -- the parent that is listed is the row with the id that was read
      have hown : parentId = listed.own := by
        apply @nameOf_injective parent.sourceKind
        rw [← hsource, ← hr'id, hlistedName, hlisted_parent]
      have hreads := ((observe_spec ctx hobs).2.2 parentId).mp hid
      rw [hkind] at hparent
      obtain ⟨row', hmem', hkind', hown', hreference⟩ :=
        hnamed row hmem parent hparent listed hlisted hlisted_parent (hown ▸ hreads)
      refine ⟨row', hmem', ?_, ?_, parent, hkind' ▸ hparent, parentId, ?_, hsourceKind, hsource⟩
      · rw [htarget, hkind', hkind]
      · rw [htarget, hkind', hown', hname]
      · rw [hreference, hown]
        rfl

end

end Cloud

/-! ## §4  The connectors -/

namespace Aliyun

def publicIpKind : ResourceKind := kind "aliyun.ecs.public_ip" publicIp_named

def vswitchKind : ResourceKind := kind "aliyun.vpc.vswitch" vswitch_named

def reading : Cloud.Reading where
  read := readResource
  mapper := mapper
  idText := Value.asStr
  idKeys := idKeys
  parentKeys := ["parent_id", "VpcId"]
  ownKeys :=
    [(kind "aliyun.ecs.instance" instance_named, "InstanceId"),
      (kind "aliyun.vpc.vpc" vpc_named, "VpcId"), (vswitchKind, "VSwitchId"),
      (kind "aliyun.vpc.security_group" securityGroup_named, "SecurityGroupId"),
      (kind "aliyun.slb.load_balancer" loadBalancer_named, "LoadBalancerId"),
      (kind "aliyun.dns.record" record_named, "RecordId"),
      (publicIpKind, "AllocationId")]
  referenceKey := fun k => if k = publicIpKind then "InstanceId" else "VpcId"
  read_id := fun _ => rfl
  read_parentId := by
    intro fields
    show Option.or _ _ = List.findSome? _ ["parent_id", "VpcId"]
    unfold Cloud.textAt
    simp only [List.findSome?_cons, List.findSome?_nil]
    cases (Value.fieldOf "parent_id" fields).bind Value.asStr <;>
      cases (Value.fieldOf "VpcId" fields).bind Value.asStr <;> rfl

end Aliyun

namespace Tencent

def publicIpKind : ResourceKind := kind "tencent.cvm.public_ip" publicIp_named

def reading (floatText : UInt64 → String) : Cloud.Reading where
  read := readResource floatText
  mapper := mapper
  idText := idText floatText
  idKeys := idKeys
  parentKeys := ["parent_id", "VpcId", "SubnetId", "InstanceId"]
  ownKeys :=
    [(kind "tencent.cvm.instance" instance_named, "InstanceId"),
      (kind "tencent.vpc.vpc" vpc_named, "VpcId"), (kind "tencent.vpc.subnet" subnet_named, "SubnetId"),
      (kind "tencent.vpc.security_group" securityGroup_named, "SecurityGroupId"),
      (kind "tencent.clb.load_balancer" loadBalancer_named, "LoadBalancerId"),
      (kind "tencent.dns.record" record_named, "RecordId"),
      (publicIpKind, "AddressId")]
  referenceKey := fun k => if k = publicIpKind then "InstanceId" else "VpcId"
  read_id := fun _ => rfl
  read_parentId := by
    intro fields
    show Option.or (Option.or (Option.or _ _) _) _ =
      List.findSome? _ ["parent_id", "VpcId", "SubnetId", "InstanceId"]
    unfold Cloud.textAt
    simp only [List.findSome?_cons, List.findSome?_nil]
    cases (Value.fieldOf "parent_id" fields).bind Value.asStr <;>
      cases (Value.fieldOf "VpcId" fields).bind Value.asStr <;>
      cases (Value.fieldOf "SubnetId" fields).bind Value.asStr <;>
      cases (Value.fieldOf "InstanceId" fields).bind Value.asStr <;> rfl

end Tencent

namespace Cloud

/-- On the rows of any lists whose items are mapped and related, both connectors keep identities
exactly where the first id field read in each row is its own, and the field taken for the parent
is the one that names it. -/
theorem identities_faithful_iff (floatText : UInt64 → String) (ctx : Context) :
    (∀ (rows : List (Row Aliyun.reading floatText)) resources relations,
      Observed ctx rows resources → Aliyun.mapper.providerRelations resources = some relations →
        (Faithful ctx rows relations ↔ (∀ row ∈ rows, row.Leads) ∧ ParentsNamed rows)) ∧
    ∀ (rows : List (Row (Tencent.reading floatText) floatText)) resources relations,
      Observed ctx rows resources → Tencent.mapper.providerRelations resources = some relations →
        (Faithful ctx rows relations ↔ (∀ row ∈ rows, row.Leads) ∧ ParentsNamed rows) :=
  ⟨fun _ _ _ hobserved hrelations => faithful_iff hobserved hrelations,
    fun _ _ _ hobserved hrelations => faithful_iff hobserved hrelations⟩

/-- Rows that are all mapped have their resources related, in any order. -/
theorem exists_related {reading : Reading} {floatText : UInt64 → String} {ctx : Context}
    {rows : List (Row reading floatText)} {n : Nat}
    (h : ((rows.mapM (Row.observe ctx)).toOption.bind fun resources =>
      (reading.mapper.providerRelations resources).map List.length) = some n) :
    ∃ resources relations, Observed ctx rows resources ∧
      reading.mapper.providerRelations resources = some relations ∧ relations.length = n := by
  obtain ⟨mapped, hmapped, h⟩ := Option.bind_eq_some_iff.mp h
  obtain ⟨relations, hrelations, hlength⟩ := Option.map_eq_some_iff.mp h
  exact ⟨mapped, relations, ⟨mapped, toOption_eq_some_iff.mp hmapped, List.Perm.refl _⟩, hrelations,
    hlength⟩

namespace SwitchesFixture

theorem scope_trimmed : Trimmed "aliyun:cn" := by decide

def ctx : Context where
  scope := ⟨"aliyun:cn", scope_trimmed⟩
  observedAt := ⟨0, Nat.zero_le _⟩

/-- A switch of the network `vpc-1`. -/
def switch (id : String) : Row Aliyun.reading (fun _ => "") where
  kind := Aliyun.vswitchKind
  key := "VSwitchId"
  fields := [("VSwitchId", .string id), ("VpcId", .string "vpc-1")]
  own := id
  product := by decide +kernel
  carries := rfl

/-- The network, and a switch of it that has its id under the generic key too. -/
def aliyunRows : List (Row Aliyun.reading (fun _ => "")) :=
  [{ kind := Aliyun.kind "aliyun.vpc.vpc" Aliyun.vpc_named
     key := "VpcId"
     fields := [("VpcId", .string "vpc-1")]
     own := "vpc-1"
     product := by decide +kernel
     carries := rfl },
    { kind := Aliyun.vswitchKind
      key := "VSwitchId"
      fields := [("id", .string "vsw-1"), ("VSwitchId", .string "vsw-1"), ("VpcId", .string "vpc-1")]
      own := "vsw-1"
      product := by decide +kernel
      carries := rfl }]

/-- A network, and a subnet of it. -/
def tencentRows : List (Row (Tencent.reading fun _ => "") (fun _ => "")) :=
  [{ kind := Tencent.kind "tencent.vpc.vpc" Tencent.vpc_named
     key := "VpcId"
     fields := [("VpcId", .string "vpc-1")]
     own := "vpc-1"
     product := by decide +kernel
     carries := rfl },
    { kind := Tencent.kind "tencent.vpc.subnet" Tencent.subnet_named
      key := "SubnetId"
      fields := [("SubnetId", .string "subnet-1"), ("VpcId", .string "vpc-1")]
      own := "subnet-1"
      product := by decide +kernel
      carries := rfl }]

/-- Both lists are mapped, and one relation is made of each. -/
theorem rows_related :
    (((aliyunRows.mapM (Row.observe ctx)).toOption.bind fun resources =>
        (Aliyun.reading.mapper.providerRelations resources).map List.length) = some 1) ∧
      ((tencentRows.mapM (Row.observe ctx)).toOption.bind fun resources =>
        ((Tencent.reading fun _ => "").mapper.providerRelations resources).map List.length) =
          some 1 := by
  decide +kernel

end SwitchesFixture

open SwitchesFixture in
theorem identities_faithful_networks :
    (∃ resources relations, Observed ctx aliyunRows resources ∧
        Aliyun.mapper.providerRelations resources = some relations ∧ relations.length = 1 ∧
        (Faithful ctx aliyunRows relations ↔
          (∀ row ∈ aliyunRows, row.Leads) ∧ ParentsNamed aliyunRows)) ∧
      ∃ resources relations, Observed ctx tencentRows resources ∧
        Tencent.mapper.providerRelations resources = some relations ∧ relations.length = 1 ∧
        (Faithful ctx tencentRows relations ↔
          (∀ row ∈ tencentRows, row.Leads) ∧ ParentsNamed tencentRows) := by
  obtain ⟨haliyun, htencent⟩ := identities_faithful_iff (fun _ => "") ctx
  constructor
  · obtain ⟨resources, relations, hobserved, hrelations, hone⟩ := exists_related rows_related.1
    exact ⟨resources, relations, hobserved, hrelations, hone,
      haliyun aliyunRows resources relations hobserved hrelations⟩
  · obtain ⟨resources, relations, hobserved, hrelations, hone⟩ := exists_related rows_related.2
    exact ⟨resources, relations, hobserved, hrelations, hone,
      htencent tencentRows resources relations hobserved hrelations⟩

open SwitchesFixture in
/-- Two switches of one network are mapped to one resource, which has the id of the network. -/
theorem switches_share_identity :
    ¬Faithful ctx [switch "vsw-1", switch "vsw-2"] [] ∧
      ∀ id ∈ ["vsw-1", "vsw-2"],
        ((switch id).observe ctx).toOption.map (fun r => (r.kind, r.externalId.val)) =
          some (Aliyun.vswitchKind, "aliyun.vpc.vswitch:vpc-1") := by
  have hmapped : ∀ id ∈ ["vsw-1", "vsw-2"],
      ((switch id).observe ctx).toOption.map (fun r => (r.kind, r.externalId.val)) =
        some (Aliyun.vswitchKind, "aliyun.vpc.vswitch:vpc-1") := by
    decide +kernel
  refine ⟨fun h => ?_, hmapped⟩
  obtain ⟨r, hobs, hr⟩ := Option.map_eq_some_iff.mp (hmapped "vsw-1" List.mem_cons_self)
  obtain ⟨_, hname⟩ := h.identity _ List.mem_cons_self r (toOption_eq_some_iff.mp hobs)
  have htext : r.externalId.val = "aliyun.vpc.vswitch:vpc-1" := congrArg Prod.snd hr
  rw [htext] at hname
  exact absurd hname (by decide +kernel)

end Cloud

end NextInfra
