import NextInfra.Desktop.Normalizers
import NextInfra.Normalizer.Secrets
import NextInfra.Supabase.SelfHosted

/-!
# The tables of a self-hosted instance

A table's external id is what follows the last dot of its path, so two paths give two
tables exactly when these ends differ. §3 says when a document of few tables comes
through, from the paths to the normalizer.
-/

namespace NextInfra

namespace Supabase

namespace SelfHosted

/-! ## §1  The normalizer -/

/-- The normalizer knows both kinds with their attributes, and the relation. -/
structure Registered (n : Normalizer) : Prop where
  instance_ : n.attributeSchemas.get (toLex (instanceKind, 1)) =
    some { kind := instanceKind, schemaVersion := .one, allowedAttributes := [] }
  table : n.attributeSchemas.get (toLex (tableKind, 1)) =
    some
      { kind := tableKind
        schemaVersion := .one
        allowedAttributes := ["auth_role", "schema", "table"] }
  contains : { kind := containsKind, sourceKind := instanceKind, targetKind := tableKind } ∈
    n.relationSchemas

def normalizer : Normalizer where
  attributeSchemas := attributeTable
    [provSchema "supabase.self_hosted.instance" [] instanceKind.namespaced,
      provSchema "supabase.self_hosted.table" ["table", "schema", "auth_role"] tableKind.namespaced]
  relationSchemas :=
    [provRelation "supabase.contains" "supabase.self_hosted.instance" "supabase.self_hosted.table"
      contains_named instanceKind.namespaced tableKind.namespaced]
  pathsAllowed := by decide +kernel
  relationsDistinct := by decide +kernel

theorem normalizer_registered : Registered normalizer where
  instance_ := by decide +kernel
  table := by decide +kernel
  contains := by decide +kernel

/-! ## §2  One table, the instance -/

/-- What follows the last dot of a path, without the slashes it starts with. -/
def lastSegment (path : String) : String := ((segmentsOf path).getLast?).getD path

theorem tableOf_name (path : String) : (tableOf path).name = lastSegment path := by
  unfold tableOf lastSegment
  split
  · rename_i schema name hsegments
    rw [hsegments]
    rfl
  · rfl

theorem mapTable_isOk_iff {ctx : Context} {authRole : Option String} {table : Table} :
    (∃ r, mapTable ctx authRole table = .ok r) ↔ Unpadded table.name := by
  rw [← trimmed_named_iff tableKind.startsVisible]
  unfold mapTable
  constructor
  · rintro ⟨_, h⟩
    obtain ⟨externalId, hid, _⟩ := bind_ok h
    apply StringValue.new_ok_iff.mp
    unfold orMessage at hid
    split at hid
    · exact ⟨_, by assumption⟩
    · cases hid
  · intro h
    rw [StringValue.new_ok h]
    exact ⟨_, rfl⟩

/-- What a table's resource is made of. -/
structure TableSpec (authRole : Option String) (table : Table) (r : ResourceObservation) : Prop where
  kind : r.kind = tableKind
  externalId : r.externalId.val = tableKind.val ++ ":" ++ table.name
  name : r.name = table.name
  displayName : r.displayName = table.name
  labels : r.labels = labels
  attributes : r.attributes = tableAttributes table authRole
  version : r.attributeSchemaVersion = .one

theorem mapTable_spec {ctx : Context} {authRole : Option String} {table : Table}
    {r : ResourceObservation} (h : mapTable ctx authRole table = .ok r) :
    TableSpec authRole table r := by
  unfold mapTable at h
  obtain ⟨externalId, hid, h⟩ := bind_ok h
  cases h
  refine ⟨rfl, ?_, rfl, rfl, rfl, rfl, rfl⟩
  unfold orMessage at hid
  split at hid
  · rename_i hnew
    cases hid
    exact StringValue.new_val_eq hnew
  · cases hid

theorem hex16_unpadded (n : UInt64) : Unpadded (hex16 n) := by
  have hdigit : ∀ k < 16, isWhitespace (Nat.digitChar k) = false := by decide
  intro c hc
  unfold hex16 at hc
  rw [String.toList_ofList] at hc
  obtain ⟨i, _, rfl⟩ := List.mem_map.mp (List.mem_of_getLast? hc)
  exact hdigit _ (Nat.mod_lt _ (by decide))

theorem stableScopeDigest_unpadded (scope : Scope) : Unpadded (stableScopeDigest scope) :=
  hex16_unpadded _

theorem trimText_trimText (text : String) : trimText (trimText text) = trimText text := by
  unfold trimText
  rw [String.toList_ofList, trim_trim]

/-- The name of the instance is trimmed, and there, and short. -/
theorem displayNameOf_fits (request : SyncRequest) :
    trimText (displayNameOf request) = displayNameOf request ∧ displayNameOf request ≠ "" ∧
      (displayNameOf request).utf8ByteSize ≤ maxDisplayNameBytes := by
  unfold displayNameOf
  cases hname : configuredDisplayName request.connection.config with
  | none => exact ⟨by decide, by decide, by decide⟩
  | some value =>
      obtain ⟨hvalue, hfits⟩ := Option.filter_eq_some_iff.mp hname
      obtain ⟨hne, hshort⟩ := of_decide_eq_true hfits
      obtain ⟨text, _, rfl⟩ := Option.map_eq_some_iff.mp hvalue
      exact ⟨trimText_trimText text, hne, hshort⟩

/-- The instance is always mapped. -/
theorem mapInstance_total (request : SyncRequest) :
    ∃ r, mapInstance (contextOf request) (displayNameOf request) = .ok r ∧ r.kind = instanceKind ∧
      r.name = displayNameOf request ∧ r.displayName = displayNameOf request ∧ r.labels = labels ∧
      r.attributes = .mkObject [] ∧ r.attributeSchemaVersion = .one := by
  obtain ⟨htrim, hne, hshort⟩ := displayNameOf_fits request
  have hid := (trimmed_named_iff instanceKind.startsVisible).mpr
    (stableScopeDigest_unpadded (contextOf request).scope)
  unfold mapInstance
  dsimp only
  rw [htrim, if_neg (by rintro (h | h); exacts [hne h, absurd hshort (by omega)]),
    StringValue.new_ok hid]
  exact ⟨_, rfl, rfl, rfl, rfl, rfl, rfl, rfl⟩

theorem tableAttributes_get (table : Table) (authRole : Option String) :
    (tableAttributes table authRole).get "schema" = table.schema.map Value.string ∧
      (tableAttributes table authRole).get "auth_role" = authRole.map Value.string := by
  have hnone : ∀ key, Value.fieldOf key [] = none := fun _ => rfl
  unfold tableAttributes
  cases table.schema <;> cases authRole <;>
    simp [Value.mkObject, Value.get, Value.fieldOf_setField, hnone]

/-! ## §3  What is accepted -/

section

variable {digest : Value → Fingerprint} {n : Normalizer} {request : SyncRequest}

theorem scanLabels_labels : scanLabels labels.rows = .ok () := by
  decide +kernel

/-- A table's resource is accepted when no text of it is taken for a secret. -/
theorem normalizeResource_table_iff (hn : Registered n) {authRole : Option String} {table : Table}
    {r : ResourceObservation} (h : TableSpec authRole table r) :
    (∃ v d, n.normalizeResource digest request r = .ok (v, d)) ↔
      ¬Sentinel table.name ∧ (∀ schema ∈ table.schema, ¬Sentinel schema) ∧
        ∀ role ∈ authRole, ¬Sentinel role := by
  obtain ⟨hschema, hrole⟩ := tableAttributes_get table authRole
  constructor
  · rintro ⟨v, d, hv⟩
    obtain ⟨⟨hattributes, hname, _, _⟩, _⟩ := Normalizer.normalizeResource_scanned hv
    rw [h.attributes] at hattributes
    refine ⟨h.name ▸ scanText_ok_iff.mp hname, ?_, ?_⟩
    · intro schema hmem
      exact not_sentinel_of_get (hschema.trans (congrArg _ hmem)) hattributes
    · intro role hmem
      exact not_sentinel_of_get (hrole.trans (congrArg _ hmem)) hattributes
  · rintro ⟨hname, hschemas, hroles⟩
    have hkeys : isSensitiveFieldName "table" = false ∧ isSensitiveFieldName "schema" = false ∧
        isSensitiveFieldName "auth_role" = false := by
      decide +kernel
    have htext : scanText table.name = .ok () := scanText_ok_iff.mpr hname
    obtain ⟨fields, hfields⟩ : ∃ fields, tableAttributes table authRole = .object fields := ⟨_, rfl⟩
    refine Normalizer.normalizeResource_total (h.attributes.trans hfields) ?_ (h.name ▸ htext)
      (h.displayName ▸ htext) (h.labels ▸ scanLabels_labels) ?_
    · rw [h.attributes]
      apply scanForSecrets_mkObject
      intro p hp
      rcases List.mem_cons.mp hp with rfl | hp
      · exact ⟨hkeys.1, htext⟩
      rcases List.mem_append.mp hp with hp | hp
      · obtain ⟨schema, hmem, rfl⟩ := Option.map_eq_some_iff.mp (Option.mem_toList.mp hp)
        exact ⟨hkeys.2.1, scanText_ok_iff.mpr (hschemas schema hmem)⟩
      · obtain ⟨role, hmem, rfl⟩ := Option.map_eq_some_iff.mp (Option.mem_toList.mp hp)
        exact ⟨hkeys.2.2, scanText_ok_iff.mpr (hroles role hmem)⟩
    · rw [h.kind, h.version]
      show (n.attributeSchemas.get (toLex (tableKind, 1))).isSome = true
      rw [hn.table]
      rfl

/-- The instance's resource is accepted when its name is not taken for a secret. -/
theorem normalizeResource_instance_iff (hn : Registered n) {r : ResourceObservation}
    (h : mapInstance (contextOf request) (displayNameOf request) = .ok r) :
    (∃ v d, n.normalizeResource digest request r = .ok (v, d)) ↔
      ¬Sentinel (displayNameOf request) := by
  obtain ⟨r', hr', hkind, hname, hdisplay, hlabels, hattributes, hversion⟩ := mapInstance_total request
  cases h.symm.trans hr'
  constructor
  · rintro ⟨v, d, hv⟩
    obtain ⟨⟨_, hscan, _, _⟩, _⟩ := Normalizer.normalizeResource_scanned hv
    exact hname ▸ scanText_ok_iff.mp hscan
  · intro hclean
    have htext := scanText_ok_iff.mpr hclean
    refine Normalizer.normalizeResource_total (hattributes : r.attributes = .object []) ?_
      (hname ▸ htext) (hdisplay ▸ htext) (hlabels ▸ scanLabels_labels) ?_
    · rw [hattributes]
      exact scanForSecrets_mkObject fun p hp => by cases hp
    · rw [hkind, hversion]
      show (n.attributeSchemas.get (toLex (instanceKind, 1))).isSome = true
      rw [hn.instance_]
      rfl

/-- The relations of an instance are accepted. -/
theorem normalizeRelation_contains (hn : Registered n) {instance_ table : ResourceObservation}
    (hinstance : instance_.kind = instanceKind) (htable : table.kind = tableKind) :
    ∃ v, n.normalizeRelation digest request (tableRelation instance_ table) = .ok v := by
  have hpaths : isSensitiveFieldName "paths" = false := by decide +kernel
  exact Normalizer.normalizeRelation_total hpaths hn.contains rfl hinstance.symm htable.symm

end

/-! ## §4  The batch -/

def exposed (spec : OpenApiSpec) : List String := (spec.paths.rows.map Prod.fst).filter isExposed

/-- The tables of a batch are different resources, one for each path, each with one relation
from the instance, and every normalizer with the connector's kinds accepts the batch. -/
structure Kept (request : SyncRequest) (paths : List String) (batch : ObservationBatch)
    (instance_ : ResourceObservation) (tables : List ResourceObservation) : Prop where
  resources : batch.resources = instance_ :: tables
  instance_kind : instance_.kind = instanceKind
  table_kind : ∀ table ∈ tables, table.kind = tableKind
  one : tables.length = paths.length
  distinct : (tables.map ResourceObservation.locator).Nodup
  related : ∀ table ∈ tables,
    (batch.relations.filter fun r =>
      decide (r.source = instance_.locator ∧ r.kind = containsKind ∧ r.target = table.locator)).length = 1
  accepted : ∀ digest n, Registered n → ∃ b, n.normalize digest request batch = .ok b

/-- The exposed paths end differently after their last dots, no end is padded, and nothing that
is kept of them, of the role or of the instance's name is taken for a secret. -/
structure TablesApart (request : SyncRequest) (spec : OpenApiSpec) : Prop where
  apart : ((exposed spec).map lastSegment).Nodup
  unpadded : ∀ path ∈ exposed spec, Unpadded (lastSegment path)
  clean : ∀ path ∈ exposed spec, ¬Sentinel (lastSegment path) ∧
    (∀ schema ∈ (tableOf path).schema, ¬Sentinel schema) ∧
    ∀ role ∈ extractAuthRole spec, ¬Sentinel role
  display_clean : ¬Sentinel (displayNameOf request)

section

variable {request : SyncRequest} {spec : OpenApiSpec} {instance_ : ResourceObservation}
  {tables : List ResourceObservation}

/-- Tables have the locators of the ends of their paths. -/
theorem locators_nodup_iff
    (h : ((exposed spec).map tableOf).mapM (mapTable (contextOf request) (extractAuthRole spec)) =
      .ok tables) :
    (tables.map ResourceObservation.locator).Nodup ↔ ((exposed spec).map lastSegment).Nodup := by
  have hnames : tables.map (fun r => (r.kind, r.externalId.val)) =
      ((exposed spec).map lastSegment).map fun name => (tableKind, tableKind.val ++ ":" ++ name) := by
    rw [Fallible.map_of_mapM h fun table r hr => by
      rw [(mapTable_spec hr).kind, (mapTable_spec hr).externalId], List.map_map, List.map_map]
    refine List.map_congr_left fun path _ => ?_
    rw [Function.comp_apply, Function.comp_apply, tableOf_name]
  have hlocator : Function.Injective fun l : ResourceLocator => (l.kind, l.externalId.val) := by
    rintro ⟨kind, externalId⟩ ⟨kind', externalId'⟩ heq
    obtain ⟨rfl, hval⟩ := Prod.mk.injEq _ _ _ _ ▸ heq
    obtain rfl : externalId = externalId' := StringValue.ext_val hval
    rfl
  have hname : Function.Injective fun name => (tableKind, tableKind.val ++ ":" ++ name) := by
    intro a b heq
    have hlist := congrArg (fun p => String.toList p.2) heq
    dsimp only at hlist
    rw [String.toList_append, @String.toList_append _ b] at hlist
    exact String.toList_injective (List.append_cancel_left hlist)
  rw [← List.nodup_map_iff hlocator, List.map_map, ← List.nodup_map_iff hname, ← hnames]
  rfl

/-- Different tables are related once each. -/
theorem related_once (hdistinct : (tables.map ResourceObservation.locator).Nodup)
    {table : ResourceObservation} (htable : table ∈ tables) :
    ((mapTableRelations instance_ tables).filter fun r =>
      decide (r.source = instance_.locator ∧ r.kind = containsKind ∧ r.target = table.locator)).length
        = 1 := by
  have hcount : (tables.map ResourceObservation.locator).count table.locator = 1 :=
    List.count_eq_one_of_mem hdistinct (List.mem_map_of_mem htable)
  unfold mapTableRelations
  rw [← List.countP_eq_length_filter, List.countP_map, ← hcount]
  unfold List.count
  rw [List.countP_map]
  refine List.countP_congr fun r _ => ?_
  simp [tableRelation, ResourceObservation.locator]

/-- A document of few tables, all mapped, gives a complete outcome in full mode. -/
theorem finish_complete (hmode : request.mode = .full) (hfew : (exposed spec).length ≤ maxTables)
    (htables : ((exposed spec).map tableOf).mapM
      (mapTable (contextOf request) (extractAuthRole spec)) = .ok tables)
    (hinstance : mapInstance (contextOf request) (displayNameOf request) = .ok instance_) :
    finish request spec = .ok (outcomeOf request.scope false instance_ tables) ∧
      (outcomeOf request.scope false instance_ tables).batch.validateFor request = .ok () := by
  have hlength : ((exposed spec).map tableOf).length ≤ maxTables := by
    rw [List.length_map]
    exact hfew
  have hvalid : (outcomeOf request.scope false instance_ tables).validateFor request = .ok () := by
    apply SyncOutcome.validateFor_ok_iff.mpr
    unfold SyncRequest.acceptsCoverage
    rw [hmode]
    refine ⟨rfl, rfl, iff_of_false ?_ ?_⟩
    · intro h
      cases h
    · rintro ⟨_, _, h⟩
      cases h
  refine ⟨?_, ?_⟩
  · have hexposed : (spec.paths.rows.map Prod.fst).filter isExposed = exposed spec := rfl
    unfold finish parseTablesFromOpenapi
    dsimp only
    rw [hexposed, List.take_of_length_le hlength, htables, hinstance,
      decide_eq_false (Nat.not_lt.mpr hlength)]
    dsimp only
    rw [hvalid]
  · obtain ⟨_, hbatch, _⟩ := bind_ok hvalid
    exact hbatch

/-- What is kept of a document, from what is mapped of it. -/
theorem kept_iff (hmode : request.mode = .full) (hfew : (exposed spec).length ≤ maxTables) :
    (∃ batch instance_ tables, finish request spec = .ok (.complete batch) ∧
      Kept request (exposed spec) batch instance_ tables) ↔ TablesApart request spec := by
  obtain ⟨inst, hinst, hinstKind, _⟩ := mapInstance_total request
  have hmapped : (∃ tables, ((exposed spec).map tableOf).mapM
      (mapTable (contextOf request) (extractAuthRole spec)) = .ok tables) ↔
      ∀ path ∈ exposed spec, Unpadded (lastSegment path) := by
    constructor
    · rintro ⟨tables, htables⟩ path hpath
      obtain ⟨r, _, hr⟩ := Fallible.result_of_mapM htables (List.mem_map_of_mem hpath)
      rw [← tableOf_name]
      exact mapTable_isOk_iff.mp ⟨r, hr⟩
    · intro h
      apply Fallible.mapM_ok_of_forall
      intro table htable
      obtain ⟨path, hpath, rfl⟩ := List.mem_map.mp htable
      exact mapTable_isOk_iff.mpr (tableOf_name path ▸ h path hpath)
  -- every table of the batch is the table of a path, and the other way round
  have hspec : ∀ {tables}, ((exposed spec).map tableOf).mapM
      (mapTable (contextOf request) (extractAuthRole spec)) = .ok tables →
      (∀ path ∈ exposed spec, ∃ r ∈ tables, TableSpec (extractAuthRole spec) (tableOf path) r) ∧
        ∀ r ∈ tables, ∃ path ∈ exposed spec, TableSpec (extractAuthRole spec) (tableOf path) r := by
    intro tables htables
    refine ⟨fun path hpath => ?_, fun r hr => ?_⟩
    · obtain ⟨r, hr, hmap⟩ := Fallible.result_of_mapM htables (List.mem_map_of_mem hpath)
      exact ⟨r, hr, mapTable_spec hmap⟩
    · obtain ⟨table, htable, hmap⟩ := Fallible.argument_of_mapM htables hr
      obtain ⟨path, hpath, rfl⟩ := List.mem_map.mp htable
      exact ⟨path, hpath, mapTable_spec hmap⟩
  constructor
  · rintro ⟨batch, instance_, tables, hfinish, hkept⟩
    have hunpadded : ∀ path ∈ exposed spec, Unpadded (lastSegment path) := by
      apply hmapped.mp
      have hlength : ((exposed spec).map tableOf).length ≤ maxTables := by
        rw [List.length_map]
        exact hfew
      have hexposed : (spec.paths.rows.map Prod.fst).filter isExposed = exposed spec := rfl
      unfold finish parseTablesFromOpenapi at hfinish
      dsimp only at hfinish
      rw [hexposed, List.take_of_length_le hlength] at hfinish
      split at hfinish
      · rename_i mapped _ htables _
        exact ⟨mapped, htables⟩
      · cases hfinish
    obtain ⟨mapped, htables⟩ := hmapped.mpr hunpadded
    obtain ⟨hcomplete, _⟩ := finish_complete hmode hfew htables hinst
    rw [hcomplete] at hfinish
    cases hfinish
    obtain ⟨rfl, rfl⟩ := List.cons.inj hkept.resources
    obtain ⟨b, hb⟩ := hkept.accepted (fun _ => ⟨"d", by decide⟩) normalizer normalizer_registered
    have haccepted := (Normalizer.normalize_isOk_iff.mp ⟨b, hb⟩).2.2.1.1
    refine ⟨(locators_nodup_iff htables).mp hkept.distinct, hunpadded, ?_, ?_⟩
    · intro path hpath
      obtain ⟨r, hr, hr'⟩ := (hspec htables).1 path hpath
      rw [← tableOf_name]
      exact (normalizeResource_table_iff normalizer_registered hr').mp
        (haccepted r (List.mem_cons_of_mem _ hr))
    · exact (normalizeResource_instance_iff normalizer_registered hinst).mp
        (haccepted inst List.mem_cons_self)
  · intro hapart
    obtain ⟨tables, htables⟩ := hmapped.mpr hapart.unpadded
    obtain ⟨hcomplete, hvalid⟩ := finish_complete hmode hfew htables hinst
    obtain ⟨hofPath, hofTable⟩ := hspec htables
    have hkind : ∀ table ∈ tables, table.kind = tableKind := by
      intro table htable
      obtain ⟨path, _, hpath⟩ := hofTable table htable
      exact hpath.kind
    have hdistinct := (locators_nodup_iff htables).mpr hapart.apart
    have hother : ∀ table ∈ tables, inst.locator ≠ table.locator := by
      intro table htable heq
      have hkinds : inst.kind = table.kind := congrArg ResourceLocator.kind heq
      rw [hinstKind, hkind table htable] at hkinds
      exact absurd hkinds (by decide +kernel)
    refine ⟨_, inst, tables, hcomplete, rfl, hinstKind, hkind, ?_, hdistinct,
      fun table htable => related_once hdistinct htable, ?_⟩
    · rw [← Fallible.mapM_length htables, List.length_map]
    · intro digest n hn
      have hresources : ∀ o ∈ inst :: tables,
          ∃ v d, n.normalizeResource digest request o = .ok (v, d) := by
        intro o ho
        rcases List.mem_cons.mp ho with rfl | ho
        · exact (normalizeResource_instance_iff hn hinst).mpr hapart.display_clean
        · obtain ⟨path, hpath, hspec⟩ := hofTable o ho
          apply (normalizeResource_table_iff hn hspec).mpr
          rw [tableOf_name]
          exact hapart.clean path hpath
      have hlocators : ((inst :: tables).map ResourceObservation.locator).Nodup := by
        rw [List.map_cons, List.nodup_cons]
        refine ⟨?_, hdistinct⟩
        intro hmem
        obtain ⟨table, htable, heq⟩ := List.mem_map.mp hmem
        exact hother table htable heq.symm
      have hrelations : ∀ o ∈ mapTableRelations inst tables,
          ∃ v, n.normalizeRelation digest request o = .ok v := by
        intro o ho
        obtain ⟨table, htable, rfl⟩ := List.mem_map.mp ho
        exact normalizeRelation_contains hn hinstKind (hkind table htable)
      have hkeys : ((mapTableRelations inst tables).map fun o =>
          o.key request.connection.connectionId).Nodup := by
        unfold mapTableRelations
        rw [List.map_map]
        apply List.Nodup.of_map ValidatedRelationKey.target
        rw [List.map_map]
        have htargets : (ValidatedRelationKey.target ∘
            (fun o => o.key request.connection.connectionId) ∘ tableRelation inst) =
            (fun l : ResourceLocator => l.key request.connection.connectionId) ∘
              ResourceObservation.locator := rfl
        rw [htargets, ← List.map_map]
        exact (List.nodup_map_iff (ResourceLocator.key_injective _)).mpr hdistinct
      obtain ⟨b, hb, _⟩ := Normalizer.normalize_total hvalid rfl hresources hlocators hrelations hkeys
      exact ⟨b, hb⟩

end

/-- The tables of a document within the limit keep their identities, and the batch is accepted,
exactly where they are apart. -/
theorem tables_kept_iff {decode : Decode} {body : Body} {request : SyncRequest} {spec : OpenApiSpec}
    (htype : request.connection.connectorType = connectorType) (hmode : request.mode = .full)
    (hdecode : decode body = some spec) (hfew : (exposed spec).length ≤ maxTables) :
    (∃ batch instance_ tables, sync decode (.ok body) request = .ok (.complete batch) ∧
      Kept request (exposed spec) batch instance_ tables) ↔ TablesApart request spec := by
  have hsync : sync decode (.ok body) request = finish request spec := by
    unfold sync
    rw [if_neg (not_not.mpr htype)]
    dsimp only [bind, Except.bind]
    rw [hdecode]
  rw [hsync]
  exact kept_iff hmode hfew

namespace SchemasFixture

/-- A document of two paths. -/
def documentOf (first second : String) : OpenApiSpec where
  paths :=
    OrderedMap.insert (OrderedMap.insert KeyedTable.empty first (.object [])) second (.object [])
  security := []

def bodyOf (first second : String) : Body :=
  ("\x7b\"paths\":\x7b\"" ++ first ++ "\":\x7b\x7d,\"" ++ second ++
    "\":\x7b\x7d\x7d\x7d").toUTF8.data.toList

def decode : Decode := fun body =>
  if body = bodyOf "/a.users" "/b.users" then some (documentOf "/a.users" "/b.users")
  else if body = bodyOf "/a.posts" "/users" then some (documentOf "/a.posts" "/users")
  else none

def request : SyncRequest where
  syncRunId := ⟨"r", trimmed_r⟩
  connection :=
    { connectionId := ⟨"c", trimmed_c⟩
      connectorType := connectorType
      config := .object []
      configSchemaVersion := .one }
  mode := .full
  scope := ⟨"s", trimmed_s⟩
  cursor := none
  targetedResources := []

end SchemasFixture

open SchemasFixture in
theorem tables_kept_posts_users :
    (∃ batch instance_ tables,
      sync decode (.ok (bodyOf "/a.posts" "/users")) request = .ok (.complete batch) ∧
        Kept request (exposed (documentOf "/a.posts" "/users")) batch instance_ tables) ↔
      TablesApart request (documentOf "/a.posts" "/users") := by
  have hother : bodyOf "/a.posts" "/users" ≠ bodyOf "/a.users" "/b.users" := by decide +kernel
  have hdecode : decode (bodyOf "/a.posts" "/users") = some (documentOf "/a.posts" "/users") := by
    unfold decode
    rw [if_neg hother, if_pos rfl]
  exact tables_kept_iff rfl rfl hdecode (by decide +kernel)

open SchemasFixture in
/-- The tables `users` of two schemas are one table, and no batch keeps both. -/
theorem users_of_two_schemas_collide :
    ¬∃ batch instance_ tables,
      sync decode (.ok (bodyOf "/a.users" "/b.users")) request = .ok (.complete batch) ∧
        Kept request (exposed (documentOf "/a.users" "/b.users")) batch instance_ tables := by
  have hsync : sync decode (.ok (bodyOf "/a.users" "/b.users")) request =
      finish request (documentOf "/a.users" "/b.users") := by
    rfl
  rw [hsync]
  intro h
  have hapart := (kept_iff rfl (by decide +kernel)).mp h
  exact absurd hapart.apart (by decide +kernel)

end SelfHosted

end Supabase

end NextInfra
