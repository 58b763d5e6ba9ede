import NextInfra.Desktop.Normalizers
import NextInfra.GitHub.Mapper
import NextInfra.Lib.Entries
import NextInfra.Normalizer.Accept

/-!
# What the GitHub mappers make is accepted

The mappers refuse the texts the normalizer would refuse, and map to the kinds and
relations its schemas list. So every observation they make is accepted by the GitHub
normalizer, whatever the item.
-/

namespace NextInfra

namespace GitHub

/-! ## §1  Texts -/

/-- A text the mapper lets through holds no secret sentinel. -/
theorem scanText_of_validateText {value field : String} (h : validateText value field = .ok ()) :
    scanText value = .ok () := by
  unfold validateText at h
  simp only at h
  split at h
  · cases h
  rename_i hno
  simp only [not_or, Bool.not_eq_true] at hno
  obtain ⟨_, _, hbearer, hkey⟩ := hno
  unfold scanText
  simp only [hbearer, hkey, Bool.or_false]
  rfl

theorem scanText_of_validateRequired {value field : String}
    (h : validateRequired value field = .ok ()) : scanText value = .ok () := by
  unfold validateRequired at h
  split at h
  · cases h
  · exact scanText_of_validateText h

/-- What is put into the attributes for an optional text holds none either. -/
theorem scanForSecrets_of_validateOptional {value : Option String} {field : String}
    (h : validateOptional value field = .ok ()) : scanForSecrets (optionalText value) = .ok () := by
  cases value with
  | none => rfl
  | some value =>
      have hscan := scanText_of_validateText (show validateText value field = .ok () from h)
      show scanForSecrets (.string value) = _
      unfold scanForSecrets
      exact hscan

theorem scanForSecrets_string {value : String} (h : scanText value = .ok ()) :
    scanForSecrets (.string value) = .ok () := by
  unfold scanForSecrets
  exact h

theorem scanForSecrets_ofNat (n : Nat) : scanForSecrets (.ofNat n) = .ok () := by
  unfold Value.ofNat scanForSecrets
  rfl

theorem scanForSecrets_bool (b : Bool) : scanForSecrets (.bool b) = .ok () := by
  unfold scanForSecrets
  rfl

/-- The name of a run is a number. -/
theorem scanText_runName (n : Nat) : scanText ("run-" ++ toString n) = .ok () := by
  refine scanText_of_no_b ?_
  unfold toAsciiLowercase
  intro hb
  obtain ⟨c, hc, hlower⟩ := List.mem_map.mp hb
  rw [String.toList_append] at hc
  rcases List.mem_append.mp hc with hc | hc
  · have hchars : "run-".toList = ['r', 'u', 'n', '-'] := by decide
    rw [hchars] at hc
    simp only [List.mem_cons, List.not_mem_nil, or_false] at hc
    rcases hc with rfl | rfl | rfl | rfl
    all_goals exact absurd hlower (by decide)
  · have hdigit : c.isDigit = true := by
      have hdigits : (toString n).toList = Nat.toDigits 10 n := Nat.toList_repr
      rw [hdigits] at hc
      exact Nat.isDigit_of_mem_toDigits (by decide) (by decide) hc
    have hsame : c.toLower = c := by
      have hnot : ¬(c.toNat ≥ 65 ∧ c.toNat ≤ 90) := by
        unfold Char.isDigit at hdigit
        rw [Bool.and_eq_true, decide_eq_true_eq, decide_eq_true_eq] at hdigit
        have hle : c.toNat ≤ 57 := hdigit.2
        omega
      unfold Char.toLower
      exact dif_neg hnot
    rw [hsame] at hlower
    rw [hlower] at hdigit
    revert hdigit
    decide

/-! ## §2  Observations -/

theorem numbered_val {name mapper tag : String} {id : Nat} {value : StringValue name}
    (h : numbered mapper tag id = .ok value) : value.val = tag ++ ":" ++ toString id := by
  unfold numbered StringValue.new at h
  split at h
  · rename_i v hnew
    split at hnew
    · cases hnew
      cases h
      rfl
    · cases hnew
  · cases h

/-- An observation a mapper makes of the item with an id. -/
structure Observed (kind : ResourceKind) (tag : String) (id : Nat) (scope : Scope) (at_ : Timestamp)
    (r : ResourceObservation) : Prop where
  kind_eq : r.kind = kind
  identity : r.externalId.val = tag ++ ":" ++ toString id
  scope_eq : r.scope = scope
  observedAt_eq : r.observedAt = at_
  accepted : ∀ digest request, ∃ v d,
    githubNormalizer.normalizeResource digest request r = .ok (v, d)

/-- The kinds the mappers make have a schema, under the version they give. -/
theorem schemas_listed : ∀ kind ∈ [repositoryKind, workflowKind, runKind],
    (githubNormalizer.attributeSchemas.get (toLex (kind, SchemaVersion.one.val))).isSome = true := by
  decide +kernel

/-- No field the mappers write has a sensitive name. -/
theorem fields_not_sensitive : ∀ key ∈ ["repository_id", "visibility", "default_branch", "archived",
    "disabled", "created_at", "updated_at", "workflow_id", "path", "state", "run_id", "run_number",
    "status", "conclusion"], isSensitiveFieldName key = false := by
  decide +kernel

theorem labels_not_sensitive : ∀ key ∈ [resourceTypeLabel, visibilityLabel, statusLabel],
    isSensitiveFieldName key.val = false := by
  decide +kernel

theorem scanText_resourceTypes : ∀ text ∈ ["repository", "workflow", "workflow_run"],
    scanText text = .ok () := by
  decide +kernel

theorem scanLabels_insert {labels : OrderedMap LabelKey String} {key : LabelKey} {value : String}
    (hkey : isSensitiveFieldName key.val = false) (hvalue : scanText value = .ok ())
    (hlabels : ∀ p ∈ labels.rows, isSensitiveFieldName p.1.val = false ∧ scanText p.2 = .ok ()) :
    ∀ p ∈ (OrderedMap.insert labels key value).rows,
      isSensitiveFieldName p.1.val = false ∧ scanText p.2 = .ok () := by
  intro p hp
  rcases KeyedTable.mem_put.mp hp with rfl | ⟨hp, _⟩
  · exact ⟨hkey, hvalue⟩
  · exact hlabels p hp

theorem scanLabels_action {resourceType : String} {status : Option String}
    (htype : scanText resourceType = .ok ()) (hstatus : ∀ s, status = some s → scanText s = .ok ()) :
    scanLabels (actionLabels resourceType status).rows = .ok () := by
  have hbase : ∀ p ∈ (OrderedMap.insert KeyedTable.empty resourceTypeLabel resourceType).rows,
      isSensitiveFieldName p.1.val = false ∧ scanText p.2 = .ok () :=
    scanLabels_insert (labels_not_sensitive resourceTypeLabel (by simp)) htype (by simp)
  refine Normalizer.scanLabels_of_forall ?_
  unfold actionLabels
  cases status with
  | none => exact hbase
  | some s => exact scanLabels_insert (labels_not_sensitive statusLabel (by simp)) (hstatus s rfl) hbase

theorem mapRepository_ok {scope : Scope} {at_ : Timestamp} {repository : RepositoryDto}
    {r : ResourceObservation} {route : RepositoryRouteContext}
    (h : mapRepository scope at_ repository = .ok (r, route)) :
    Observed repositoryKind "github-repository" repository.id scope at_ r ∧
      route.repositoryExternalId = r.externalId ∧ route.scope = scope ∧ route.observedAt = at_ := by
  unfold mapRepository at h
  obtain ⟨_, hname, h⟩ := bind_ok h
  obtain ⟨_, _, h⟩ := bind_ok h
  obtain ⟨_, _, h⟩ := bind_ok h
  obtain ⟨_, _, h⟩ := bind_ok h
  obtain ⟨_, hvisibility, h⟩ := bind_ok h
  obtain ⟨_, hbranch, h⟩ := bind_ok h
  obtain ⟨_, hcreated, h⟩ := bind_ok h
  obtain ⟨_, hupdated, h⟩ := bind_ok h
  split at h
  · cases h
  obtain ⟨externalId, hid, h⟩ := bind_ok h
  cases h
  refine ⟨⟨rfl, numbered_val hid, rfl, rfl, ?_⟩, rfl, rfl, rfl⟩
  intro digest request
  refine Normalizer.normalizeResource_total rfl (scanForSecrets_mkObject ?_)
    (scanText_of_validateRequired hname) (scanText_of_validateRequired hname)
    (Normalizer.scanLabels_of_forall ?_) (schemas_listed _ (by simp))
  · simp only [List.forall_mem_cons, List.not_mem_nil, false_imp_iff, implies_true, and_true]
    exact ⟨⟨fields_not_sensitive _ (by simp), scanForSecrets_ofNat _⟩,
      ⟨fields_not_sensitive _ (by simp),
        scanForSecrets_string (scanText_of_validateRequired hvisibility)⟩,
      ⟨fields_not_sensitive _ (by simp), scanForSecrets_of_validateOptional hbranch⟩,
      ⟨fields_not_sensitive _ (by simp), scanForSecrets_bool _⟩,
      ⟨fields_not_sensitive _ (by simp), scanForSecrets_bool _⟩,
      ⟨fields_not_sensitive _ (by simp),
        scanForSecrets_string (scanText_of_validateRequired hcreated)⟩,
      ⟨fields_not_sensitive _ (by simp),
        scanForSecrets_string (scanText_of_validateRequired hupdated)⟩⟩
  · refine scanLabels_insert (labels_not_sensitive visibilityLabel (by simp))
      (scanText_of_validateRequired hvisibility)
      (scanLabels_insert (labels_not_sensitive resourceTypeLabel (by simp))
        (scanText_resourceTypes _ (by simp)) (by simp))

/-- A kind of relation the mappers make: its ends, and the tags of the numbers in its ids. -/
structure EdgeShape where
  kind : RelationKind
  sourceKind : ResourceKind
  sourceTag : String
  targetKind : ResourceKind
  targetTag : String
  evidenceTag : String

def containsShape : EdgeShape where
  kind := containsKind
  sourceKind := repositoryKind
  sourceTag := "github-repository"
  targetKind := workflowKind
  targetTag := "github-workflow"
  evidenceTag := "github-provider-workflow"

def executesShape : EdgeShape where
  kind := executesKind
  sourceKind := workflowKind
  sourceTag := "github-workflow"
  targetKind := runKind
  targetTag := "github-run"
  evidenceTag := "github-provider-run"

/-- A relation of a shape, from the item with one number to the item with another. -/
structure Related (shape : EdgeShape) (source target : Nat) (at_ : Timestamp)
    (e : RelationObservation) : Prop where
  kind_eq : e.kind = shape.kind
  source_kind : e.source.kind = shape.sourceKind
  source_id : e.source.externalId.val = shape.sourceTag ++ ":" ++ toString source
  target_kind : e.target.kind = shape.targetKind
  target_id : e.target.externalId.val = shape.targetTag ++ ":" ++ toString target
  evidence : e.evidenceKey.val = shape.evidenceTag ++ ":" ++ toString target
  field_eq : e.fieldPath = workflowIdField
  observedAt_eq : e.observedAt = at_

theorem field_not_sensitive : isSensitiveFieldName workflowIdField.val = false := by decide +kernel

/-- The normalizer knows both kinds of relation. -/
theorem relations_registered : ∀ shape ∈ [containsShape, executesShape],
    ∃ schema ∈ githubNormalizer.relationSchemas, schema.kind = shape.kind ∧
      schema.sourceKind = shape.sourceKind ∧ schema.targetKind = shape.targetKind := by
  intro shape hshape
  rcases List.mem_cons.mp hshape with rfl | hshape
  · exact ⟨_, List.mem_cons_self, rfl, rfl, rfl⟩
  · obtain rfl := List.mem_singleton.mp hshape
    exact ⟨_, List.mem_cons_of_mem _ List.mem_cons_self, rfl, rfl, rfl⟩

theorem Related.accepted {shape : EdgeShape} {source target : Nat} {at_ : Timestamp}
    {e : RelationObservation} (h : Related shape source target at_ e)
    (hshape : shape ∈ [containsShape, executesShape]) (digest : Value → Fingerprint)
    (request : SyncRequest) : ∃ v, githubNormalizer.normalizeRelation digest request e = .ok v := by
  obtain ⟨schema, hschema, hkind, hsource, htarget⟩ := relations_registered shape hshape
  exact Normalizer.normalizeRelation_total (by rw [h.field_eq]; exact field_not_sensitive) hschema
    (hkind.trans h.kind_eq.symm) (hsource.trans h.source_kind.symm)
    (htarget.trans h.target_kind.symm)

/-- The relation of a workflow starts at the repository of the context. -/
theorem mapWorkflow_ok {context : GitHubRepositoryContext} {workflow : WorkflowDto}
    {r : ResourceObservation} {e : RelationObservation} {repository : Nat}
    (hrepository : context.repositoryExternalId.val =
      "github-repository" ++ ":" ++ toString repository)
    (h : mapWorkflow context workflow = .ok (r, e)) :
    Observed workflowKind "github-workflow" workflow.id context.scope context.observedAt r ∧
      Related containsShape repository workflow.id context.observedAt e ∧
      e.source.externalId = context.repositoryExternalId ∧ e.target = r.locator := by
  unfold mapWorkflow at h
  obtain ⟨_, hname, h⟩ := bind_ok h
  obtain ⟨_, hpath, h⟩ := bind_ok h
  obtain ⟨_, hstate, h⟩ := bind_ok h
  obtain ⟨_, hcreated, h⟩ := bind_ok h
  obtain ⟨_, hupdated, h⟩ := bind_ok h
  obtain ⟨externalId, hid, h⟩ := bind_ok h
  obtain ⟨evidenceKey, hevidence, h⟩ := bind_ok h
  cases h
  refine ⟨⟨rfl, numbered_val hid, rfl, rfl, ?_⟩,
    ⟨rfl, rfl, hrepository, rfl, numbered_val hid, numbered_val hevidence, rfl, rfl⟩, rfl, rfl⟩
  intro digest request
  refine Normalizer.normalizeResource_total rfl (scanForSecrets_mkObject ?_)
    (scanText_of_validateRequired hname) (scanText_of_validateRequired hname)
    (scanLabels_action (scanText_resourceTypes _ (by simp)) (by simp)) (schemas_listed _ (by simp))
  simp only [List.forall_mem_cons, List.not_mem_nil, false_imp_iff, implies_true, and_true]
  exact ⟨⟨fields_not_sensitive _ (by simp), scanForSecrets_ofNat _⟩,
    ⟨fields_not_sensitive _ (by simp), scanForSecrets_string (scanText_of_validateRequired hpath)⟩,
    ⟨fields_not_sensitive _ (by simp), scanForSecrets_string (scanText_of_validateRequired hstate)⟩,
    ⟨fields_not_sensitive _ (by simp),
      scanForSecrets_string (scanText_of_validateRequired hcreated)⟩,
    ⟨fields_not_sensitive _ (by simp),
      scanForSecrets_string (scanText_of_validateRequired hupdated)⟩⟩

/-- The relation of a run starts at the workflow the run names. -/
theorem mapRun_ok {context : GitHubRepositoryContext} {run : WorkflowRunDto}
    {r : ResourceObservation} {e : RelationObservation} (h : mapRun context run = .ok (r, e)) :
    Observed runKind "github-run" run.id context.scope context.observedAt r ∧
      Related executesShape run.workflowId run.id context.observedAt e ∧ e.target = r.locator := by
  unfold mapRun at h
  obtain ⟨_, _, h⟩ := bind_ok h
  obtain ⟨_, htitle, h⟩ := bind_ok h
  obtain ⟨_, hstatus, h⟩ := bind_ok h
  obtain ⟨_, hconclusion, h⟩ := bind_ok h
  obtain ⟨_, hcreated, h⟩ := bind_ok h
  obtain ⟨externalId, hid, h⟩ := bind_ok h
  obtain ⟨workflowExternalId, hworkflow, h⟩ := bind_ok h
  obtain ⟨evidenceKey, hevidence, h⟩ := bind_ok h
  cases h
  refine ⟨⟨rfl, numbered_val hid, rfl, rfl, ?_⟩,
    ⟨rfl, rfl, numbered_val hworkflow, rfl, numbered_val hid, numbered_val hevidence, rfl, rfl⟩, rfl⟩
  intro digest request
  have hscan := scanText_of_validateRequired hstatus
  refine Normalizer.normalizeResource_total rfl (scanForSecrets_mkObject ?_)
    (scanText_runName run.runNumber) (scanText_of_validateRequired htitle)
    (scanLabels_action (scanText_resourceTypes _ (by simp)) (by simp [hscan]))
    (schemas_listed _ (by simp))
  simp only [List.forall_mem_cons, List.not_mem_nil, false_imp_iff, implies_true, and_true]
  exact ⟨⟨fields_not_sensitive _ (by simp), scanForSecrets_ofNat _⟩,
    ⟨fields_not_sensitive _ (by simp), scanForSecrets_ofNat _⟩,
    ⟨fields_not_sensitive _ (by simp), scanForSecrets_ofNat _⟩,
    ⟨fields_not_sensitive _ (by simp), scanForSecrets_string hscan⟩,
    ⟨fields_not_sensitive _ (by simp), scanForSecrets_of_validateOptional hconclusion⟩,
    ⟨fields_not_sensitive _ (by simp),
      scanForSecrets_string (scanText_of_validateRequired hcreated)⟩⟩

/-! ## §3  The loop of a mapper -/

/-- A loop that ends has mapped every item. -/
theorem mapEach_ok {α γ : Type} {mapOne : α → Except ConnectorFailure (ResourceObservation × γ)}
    {twice : ConnectorFailure} {identities : List ExternalId} {items : List α}
    {mapped : List (ResourceObservation × γ)} (h : mapEach mapOne twice identities items = .ok mapped) :
    items.mapM mapOne = .ok mapped := by
  induction items generalizing identities mapped with
  | nil =>
      cases h
      rfl
  | cons item items ih =>
      unfold mapEach at h
      obtain ⟨one, hone, h⟩ := bind_ok h
      split at h
      · cases h
      obtain ⟨rest, hrest, h⟩ := bind_ok h
      cases h
      rw [Fallible.mapM_ok_iff]
      exact .cons hone (Fallible.mapM_ok_iff.mp (ih hrest))

theorem mem_sortResources {r : ResourceObservation} {rs : List ResourceObservation} :
    r ∈ sortResources rs ↔ r ∈ rs := List.mem_insertionSort _

theorem mem_sortRelations {e : RelationObservation} {es : List RelationObservation} :
    e ∈ sortRelations es ↔ e ∈ es := List.mem_insertionSort _

end GitHub

end NextInfra
