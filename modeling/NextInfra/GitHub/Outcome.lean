import NextInfra.GitHub.Accepted
import NextInfra.GitHub.Connector

/-!
# What a GitHub sync observes

A sync that goes through has observed the workflows and the runs it has read, each
accepted by the normalizer, and related each run to the workflow the run names
(`Traced`). The steps of the collector keep this, one after the other.
-/

namespace NextInfra

namespace GitHub

/-! ## §1  What was read -/

def ListFetch.pages (fetch : ListFetch) : List GitHubPage :=
  match fetch.result with
  | .ok pages => pages.pages
  | .error failure => failure.completedPages

/-- The workflows a repository keeps of a list. -/
def ListFetch.workflows (wire : Wire) (fetch : ListFetch) : List WorkflowDto :=
  if fetch.endpoint.endpointClass = "workflows" then
    ((fetch.pages.filterMap wire.workflowList).flatMap WorkflowListDto.workflows).take
      maxWorkflowsPerRepository
  else []

/-- The runs a repository keeps of a list. -/
def ListFetch.runs (wire : Wire) (fetch : ListFetch) : List WorkflowRunDto :=
  if fetch.endpoint.endpointClass = "runs" then
    keptRuns ((fetch.pages.filterMap wire.runList).flatMap WorkflowRunListDto.workflowRuns)
  else []

/-- The workflows of all repositories a sync has read. -/
def workflowsRead (wire : Wire) (lists : List ListFetch) : List WorkflowDto :=
  lists.flatMap (ListFetch.workflows wire)

/-- The runs of all repositories a sync has read. -/
def runsRead (wire : Wire) (lists : List ListFetch) : List WorkflowRunDto :=
  lists.flatMap (ListFetch.runs wire)

section

variable {wire : Wire} {transport : Transport} {secret : List UInt8}

theorem optionalPages_ok {result : Except GitHubPaginationFailure GitHubPages} {read : Read}
    (h : optionalPages result = .ok read) (endpoint : GitHubEndpoint) :
    read.pages = ListFetch.pages ⟨endpoint, result⟩ := by
  unfold optionalPages at h
  cases result with
  | ok pages =>
      cases h
      rfl
  | error failure =>
      obtain ⟨_, _, h⟩ := bind_ok h
      cases h
      rfl

/-- A fetch adds its list to those read. One that never starts reads nothing. -/
theorem fetchCached_reads (wire : Wire) (transport : Transport) (secret : List UInt8)
    (endpoint : GitHubEndpoint) (maxPages remaining : Nat) (s : Syncing) :
    workflowsRead wire (fetchCached wire transport secret endpoint maxPages remaining s).2.lists =
        workflowsRead wire s.lists ++ ListFetch.workflows wire
          ⟨endpoint, (fetchCached wire transport secret endpoint maxPages remaining s).1⟩ ∧
      runsRead wire (fetchCached wire transport secret endpoint maxPages remaining s).2.lists =
        runsRead wire s.lists ++ ListFetch.runs wire
          ⟨endpoint, (fetchCached wire transport secret endpoint maxPages remaining s).1⟩ := by
  have hnothing : ∀ failure,
      ListFetch.workflows wire ⟨endpoint, .error ⟨[], {}, failure⟩⟩ = [] ∧
        ListFetch.runs wire ⟨endpoint, .error ⟨[], {}, failure⟩⟩ = [] := by
    intro failure
    unfold ListFetch.workflows ListFetch.runs
    exact ⟨by split <;> rfl, by split <;> rfl⟩
  unfold fetchCached
  split
  · obtain ⟨h₁, h₂⟩ := hnothing boundedFailure
    rw [h₁, h₂]
    simp
  simp only
  split
  · rename_i failure _
    obtain ⟨h₁, h₂⟩ := hnothing failure
    rw [h₁, h₂]
    simp
  · unfold workflowsRead runsRead
    simp [List.flatMap_append]

theorem deserialize_ok {α : Type} {decode : Body → Option α} {pages : List GitHubPage}
    {values : List α} (h : deserialize decode pages = .ok values) :
    pages.filterMap decode = values := by
  unfold deserialize at h
  split at h
  · cases h
  rename_i found hfound
  cases h
  have hall := Fallible.mapM_some_iff.mp hfound
  clear hfound
  induction hall with
  | nil => rfl
  | cons hone _ ih => rw [List.filterMap_cons_some hone, ih]

theorem build_class {endpointClass path : String} {query : List (String × String)} {add : Bool}
    {endpoint : GitHubEndpoint}
    (h : GitHubEndpoint.build wire endpointClass path query add = .ok endpoint) :
    endpoint.endpointClass = endpointClass := by
  unfold GitHubEndpoint.build at h
  split at h
  · cases h
  split at h
  · cases h
  split at h
  · cases h
  split at h
  · cases h
  cases h
  rfl

theorem endpoint_class {route : RepositoryRouteContext} {endpointClass suffix : String}
    {endpoint : GitHubEndpoint} (h : route.endpoint wire endpointClass suffix = .ok endpoint) :
    endpoint.endpointClass = endpointClass := by
  unfold RepositoryRouteContext.endpoint at h
  split at h
  · exact build_class h
  · exact build_class h

/-! ## §2  The invariant -/

/-- No warning holds a secret sentinel. -/
def Quiet (warnings : List ObservationWarning) : Prop :=
  ∀ w ∈ warnings, scanText w.message = .ok ()

/-- Resources and relations that show the workflows and the runs of lists, among
resources under some locators. Only the start of the relation of a run may be missing. -/
structure Observes (at_ : Timestamp) (locators : List ResourceLocator) (workflows : List WorkflowDto)
    (runs : List WorkflowRunDto) (resources : List ResourceObservation)
    (relations : List RelationObservation) : Prop where
  accepted : ∀ r ∈ resources, ∃ kind tag id scope, Observed kind tag id scope at_ r
  related : ∀ e ∈ relations,
    (∃ repository workflow, Related containsShape repository workflow at_ e ∧
        e.source ∈ locators ∧ e.target ∈ locators) ∨
      ∃ run ∈ runs, Related executesShape run.workflowId run.id at_ e ∧ e.target ∈ locators
  fromWorkflow : ∀ r ∈ resources, r.kind = workflowKind →
    ∃ w ∈ workflows, r.externalId.val = "github-workflow" ++ ":" ++ toString w.id
  workflowsObserved : ∀ w ∈ workflows, ∃ r ∈ resources, r.kind = workflowKind ∧
    r.externalId.val = "github-workflow" ++ ":" ++ toString w.id
  runsObserved : ∀ run ∈ runs, ∃ e ∈ relations, Related executesShape run.workflowId run.id at_ e

theorem Observes.mono {at_ : Timestamp} {locators locators' : List ResourceLocator}
    {ws : List WorkflowDto} {runs : List WorkflowRunDto} {rs : List ResourceObservation}
    {es : List RelationObservation} (h : Observes at_ locators ws runs rs es)
    (hlocators : locators ⊆ locators') : Observes at_ locators' ws runs rs es := by
  refine ⟨h.accepted, ?_, h.fromWorkflow, h.workflowsObserved, h.runsObserved⟩
  intro e he
  rcases h.related e he with ⟨n, w, hrelated, hsource, htarget⟩ | ⟨run, hrun, hrelated, htarget⟩
  · exact Or.inl ⟨n, w, hrelated, hlocators hsource, hlocators htarget⟩
  · exact Or.inr ⟨run, hrun, hrelated, hlocators htarget⟩

theorem Observes.append {at_ : Timestamp} {locators : List ResourceLocator}
    {ws ws' : List WorkflowDto} {runs runs' : List WorkflowRunDto}
    {rs rs' : List ResourceObservation} {es es' : List RelationObservation}
    (h : Observes at_ locators ws runs rs es) (h' : Observes at_ locators ws' runs' rs' es') :
    Observes at_ locators (ws ++ ws') (runs ++ runs') (rs ++ rs') (es ++ es') := by
  refine ⟨?_, ?_, ?_, ?_, ?_⟩
  · intro r hr
    rcases List.mem_append.mp hr with hr | hr
    · exact h.accepted r hr
    · exact h'.accepted r hr
  · intro e he
    rcases List.mem_append.mp he with he | he
    · rcases h.related e he with hcontains | ⟨run, hrun, hexecutes⟩
      · exact Or.inl hcontains
      · exact Or.inr ⟨run, List.mem_append_left _ hrun, hexecutes⟩
    · rcases h'.related e he with hcontains | ⟨run, hrun, hexecutes⟩
      · exact Or.inl hcontains
      · exact Or.inr ⟨run, List.mem_append_right _ hrun, hexecutes⟩
  · intro r hr hkind
    rcases List.mem_append.mp hr with hr | hr
    · obtain ⟨w, hw, hid⟩ := h.fromWorkflow r hr hkind
      exact ⟨w, List.mem_append_left _ hw, hid⟩
    · obtain ⟨w, hw, hid⟩ := h'.fromWorkflow r hr hkind
      exact ⟨w, List.mem_append_right _ hw, hid⟩
  · intro w hw
    rcases List.mem_append.mp hw with hw | hw
    · obtain ⟨r, hr, hrow⟩ := h.workflowsObserved w hw
      exact ⟨r, List.mem_append_left _ hr, hrow⟩
    · obtain ⟨r, hr, hrow⟩ := h'.workflowsObserved w hw
      exact ⟨r, List.mem_append_right _ hr, hrow⟩
  · intro run hrun
    rcases List.mem_append.mp hrun with hrun | hrun
    · obtain ⟨e, he, hrelated⟩ := h.runsObserved run hrun
      exact ⟨e, List.mem_append_left _ he, hrelated⟩
    · obtain ⟨e, he, hrelated⟩ := h'.runsObserved run hrun
      exact ⟨e, List.mem_append_right _ he, hrelated⟩

/-- The scope and the time a sync observes under. -/
def Collector.stamp (c : Collector) : Scope × Timestamp := (c.scope, c.observedAt)

/-- What has been collected is what has been read, and is accepted. -/
structure Traced (wire : Wire) (scope : Scope) (at_ : Timestamp) (c : Collector) (s : Syncing) :
    Prop where
  stamp_eq : c.stamp = (scope, at_)
  observes : Observes at_ (c.resources.map ResourceObservation.locator)
    (workflowsRead wire s.lists) (runsRead wire s.lists) c.resources c.relations
  warnings : Quiet c.warnings

/-- A repository whose resource has been collected. -/
structure Routed (at_ : Timestamp) (c : Collector) (route : RepositoryRouteContext) : Prop where
  numbered : ∃ id : Nat,
    route.repositoryExternalId.val = "github-repository" ++ ":" ++ toString id
  collected : (⟨repositoryKind, route.repositoryExternalId⟩ : ResourceLocator) ∈
    c.resources.map ResourceObservation.locator
  observedAt_eq : route.observedAt = at_

variable {scope : Scope} {at_ : Timestamp} {c c' : Collector} {s s' : Syncing}

/-- What is added shows what was read meanwhile. -/
theorem Traced.extend {ws : List WorkflowDto} {runs : List WorkflowRunDto}
    {rs : List ResourceObservation} {es : List RelationObservation} (h : Traced wire scope at_ c s)
    (hstamp : c'.stamp = c.stamp) (hresources : c'.resources = c.resources ++ rs)
    (hrelations : c'.relations = c.relations ++ es) (hwarnings : Quiet c'.warnings)
    (hworkflows : workflowsRead wire s'.lists = workflowsRead wire s.lists ++ ws)
    (hruns : runsRead wire s'.lists = runsRead wire s.lists ++ runs)
    (hnew : Observes at_ (c'.resources.map ResourceObservation.locator) ws runs rs es) :
    Traced wire scope at_ c' s' := by
  refine ⟨hstamp.trans h.stamp_eq, ?_, hwarnings⟩
  have hold := @Observes.mono at_ _ (c'.resources.map ResourceObservation.locator) _ _ _ _ h.observes (by
    rw [hresources, List.map_append]
    exact List.subset_append_left _ _)
  rw [hworkflows, hruns]
  have hboth := hold.append hnew
  rw [← hresources, ← hrelations] at hboth
  exact hboth

theorem Routed.of_same {route : RepositoryRouteContext} (h : Routed at_ c route)
    (hresources : ∀ r ∈ c.resources, r ∈ c'.resources) : Routed at_ c' route := by
  obtain ⟨r, hr, hlocator⟩ := List.mem_map.mp h.collected
  exact ⟨h.numbered, List.mem_map.mpr ⟨r, hresources r hr, hlocator⟩, h.observedAt_eq⟩

theorem note_quiet {failure : ConnectorFailure} {warning : ObservationWarning}
    (hc : Quiet c.warnings) (hw : scanText warning.message = .ok ()) :
    Quiet (c.note failure warning).warnings := by
  intro w hmem
  rcases List.mem_append.mp hmem with hmem | hmem
  · exact hc w hmem
  · rw [List.mem_singleton.mp hmem]
    exact hw

def moduleNames : List String :=
  ["github.repositories", "github.actions.workflows", "github.actions.runs"]

theorem scanText_modules : ∀ name ∈ moduleNames,
    scanText ("GitHub module " ++ name ++ " is partial") = .ok () ∧
      scanText ("GitHub module " ++ name ++ " reached its bounded view") = .ok () := by
  decide +kernel

theorem collectGap_same (c : Collector) (result : ModuleResult) :
    (c.collectGap result).stamp = c.stamp ∧ (c.collectGap result).resources = c.resources ∧
      (c.collectGap result).relations = c.relations := by
  unfold Collector.collectGap
  split
  · exact ⟨rfl, rfl, rfl⟩
  · split <;> exact ⟨rfl, rfl, rfl⟩

theorem collectGap_quiet {result : ModuleResult} (hc : Quiet c.warnings)
    (hname : result.module ∈ moduleNames) : Quiet (c.collectGap result).warnings := by
  obtain ⟨hgap, hbounded⟩ := scanText_modules _ hname
  unfold Collector.collectGap
  split
  · exact note_quiet hc hgap
  · split
    · exact note_quiet hc hbounded
    · exact hc

theorem leaveOff_traced (h : Traced wire scope at_ c s) :
    Traced wire scope at_ c.markBudgetExhausted { s with leftOff := true } :=
  ⟨h.stamp_eq, h.observes, note_quiet h.warnings (by decide +kernel)⟩

/-! ## §3  One module -/

/-- What merging adds is what the module has mapped. -/
theorem mergeActions_same (c : Collector) (output : ActionMapperOutput) :
    (c.mergeActions output).stamp = c.stamp ∧
      (c.mergeActions output).resources = c.resources ++ output.resources ∧
      (c.mergeActions output).relations = c.relations ++ output.relations := by
  unfold Collector.mergeActions
  have hfold : ∀ (modules : List ModuleResult) (c : Collector),
      (modules.foldl Collector.collectGap c).stamp = c.stamp ∧
        (modules.foldl Collector.collectGap c).resources = c.resources ∧
        (modules.foldl Collector.collectGap c).relations = c.relations := by
    intro modules
    induction modules with
    | nil => exact fun c => ⟨rfl, rfl, rfl⟩
    | cons m modules ih =>
        intro c
        obtain ⟨h₁, h₂, h₃⟩ := ih (c.collectGap m)
        obtain ⟨k₁, k₂, k₃⟩ := collectGap_same c m
        exact ⟨h₁.trans k₁, h₂.trans k₂, h₃.trans k₃⟩
  exact hfold _ _

theorem mergeActions_quiet {module : String} {rows : List (ResourceObservation × RelationObservation)}
    {bounded : Bool} {failure : Option ConnectorFailure} (hc : Quiet c.warnings)
    (hname : module ∈ moduleNames) :
    Quiet (c.mergeActions (actionOutput module rows bounded failure)).warnings :=
  collectGap_quiet hc hname

/-- A locator of what has been mapped is one of what is put in order. -/
theorem locator_mapped {mapped : List (ResourceObservation × RelationObservation)}
    {m : ResourceObservation × RelationObservation} (hm : m ∈ mapped) :
    m.1.locator ∈ (sortResources (mapped.map Prod.fst)).map ResourceObservation.locator :=
  List.mem_map_of_mem (mem_sortResources.mpr (List.mem_map_of_mem hm))

theorem mapWorkflows_observes {context : GitHubRepositoryContext} {items : List WorkflowDto}
    {mapped : List (ResourceObservation × RelationObservation)} {locators : List ResourceLocator}
    {repository : Nat} (hrepository : context.repositoryExternalId.val =
      "github-repository" ++ ":" ++ toString repository)
    (hsource : (⟨repositoryKind, context.repositoryExternalId⟩ : ResourceLocator) ∈ locators)
    (hsubset : (sortResources (mapped.map Prod.fst)).map ResourceObservation.locator ⊆ locators)
    (h : items.mapM (mapWorkflow context) = .ok mapped) :
    Observes context.observedAt locators items [] (sortResources (mapped.map Prod.fst))
      (sortRelations (mapped.map Prod.snd)) := by
  refine ⟨?_, ?_, ?_, ?_, by simp⟩
  · intro r hr
    obtain ⟨m, hm, rfl⟩ := List.mem_map.mp (mem_sortResources.mp hr)
    obtain ⟨w, _, hmap⟩ := Fallible.argument_of_mapM h hm
    exact ⟨_, _, _, _, (mapWorkflow_ok hrepository hmap).1⟩
  · intro e he
    obtain ⟨m, hm, rfl⟩ := List.mem_map.mp (mem_sortRelations.mp he)
    obtain ⟨w, _, hmap⟩ := Fallible.argument_of_mapM h hm
    obtain ⟨_, hrelated, hid, htarget⟩ := mapWorkflow_ok hrepository hmap
    refine Or.inl ⟨repository, w.id, hrelated, ?_, ?_⟩
    · have hstart : m.2.source = ⟨repositoryKind, context.repositoryExternalId⟩ := by
        rw [← hid, ← show m.2.source.kind = repositoryKind from hrelated.source_kind]
      rw [hstart]
      exact hsource
    · rw [htarget]
      exact hsubset (locator_mapped hm)
  · intro r hr _
    obtain ⟨m, hm, rfl⟩ := List.mem_map.mp (mem_sortResources.mp hr)
    obtain ⟨w, hw, hmap⟩ := Fallible.argument_of_mapM h hm
    exact ⟨w, hw, (mapWorkflow_ok hrepository hmap).1.identity⟩
  · intro w hw
    obtain ⟨m, hm, hmap⟩ := Fallible.result_of_mapM h hw
    have hobserved := (mapWorkflow_ok hrepository hmap).1
    exact ⟨m.1, mem_sortResources.mpr (List.mem_map_of_mem hm), hobserved.kind_eq,
      hobserved.identity⟩

theorem mapRuns_observes {context : GitHubRepositoryContext} {items : List WorkflowRunDto}
    {mapped : List (ResourceObservation × RelationObservation)} {locators : List ResourceLocator}
    (hsubset : (sortResources (mapped.map Prod.fst)).map ResourceObservation.locator ⊆ locators)
    (h : items.mapM (mapRun context) = .ok mapped) :
    Observes context.observedAt locators [] items (sortResources (mapped.map Prod.fst))
      (sortRelations (mapped.map Prod.snd)) := by
  refine ⟨?_, ?_, ?_, by simp, ?_⟩
  · intro r hr
    obtain ⟨m, hm, rfl⟩ := List.mem_map.mp (mem_sortResources.mp hr)
    obtain ⟨run, _, hmap⟩ := Fallible.argument_of_mapM h hm
    exact ⟨_, _, _, _, (mapRun_ok hmap).1⟩
  · intro e he
    obtain ⟨m, hm, rfl⟩ := List.mem_map.mp (mem_sortRelations.mp he)
    obtain ⟨run, hrun, hmap⟩ := Fallible.argument_of_mapM h hm
    obtain ⟨_, hrelated, htarget⟩ := mapRun_ok hmap
    refine Or.inr ⟨run, hrun, hrelated, ?_⟩
    rw [htarget]
    exact hsubset (locator_mapped hm)
  · intro r hr hkind
    obtain ⟨m, hm, rfl⟩ := List.mem_map.mp (mem_sortResources.mp hr)
    obtain ⟨run, _, hmap⟩ := Fallible.argument_of_mapM h hm
    rw [(mapRun_ok hmap).1.kind_eq] at hkind
    exact absurd hkind (by decide)
  · intro run hrun
    obtain ⟨m, hm, hmap⟩ := Fallible.result_of_mapM h hrun
    exact ⟨m.2, mem_sortRelations.mpr (List.mem_map_of_mem hm), (mapRun_ok hmap).2.1⟩

/-- Reading the workflows of a repository keeps the invariant. -/
theorem collectWorkflows_traced {route : RepositoryRouteContext} (hc : Traced wire scope at_ c s)
    (hroute : Routed at_ c route)
    (h : collectWorkflows wire transport secret route c s = (.ok c', s')) :
    Traced wire scope at_ c' s' ∧ c.resources ⊆ c'.resources := by
  unfold collectWorkflows at h
  obtain ⟨endpoint, hendpoint, h⟩ := Attempt.ofExcept_bind_ok_iff.mp h
  have h := Attempt.result_bind_ok_iff.mp h
  obtain ⟨read, hread, h⟩ := Attempt.ofExcept_bind_ok_iff.mp h
  obtain ⟨lists, hlists, h⟩ := Attempt.ofExcept_bind_ok_iff.mp h
  obtain ⟨output, houtput, h⟩ := Attempt.ofExcept_bind_ok_iff.mp h
  cases h
  unfold mapWorkflows at houtput
  obtain ⟨mapped, hmapped, houtput⟩ := bind_ok houtput
  cases houtput
  have hmapped := mapEach_ok hmapped
  have hclass := endpoint_class hendpoint
  obtain ⟨hworkflows, hruns⟩ :=
    fetchCached_reads wire transport secret endpoint 2 c.remainingRequests s
  have hkept : ListFetch.workflows wire
      ⟨endpoint, (fetchCached wire transport secret endpoint 2 c.remainingRequests s).1⟩ =
        (lists.flatMap WorkflowListDto.workflows).take maxWorkflowsPerRepository := by
    unfold ListFetch.workflows
    rw [if_pos hclass, ← optionalPages_ok hread endpoint, deserialize_ok hlists]
  have hnoRuns : ListFetch.runs wire
      ⟨endpoint, (fetchCached wire transport secret endpoint 2 c.remainingRequests s).1⟩ = [] := by
    unfold ListFetch.runs
    rw [if_neg (by rw [hclass]; decide)]
  rw [hkept] at hworkflows
  rw [hnoRuns] at hruns
  obtain ⟨repository, hrepository⟩ := hroute.numbered
  obtain ⟨hstamp, hresources, hrelations⟩ := mergeActions_same (c.addSummary read.requestSummary)
    (actionOutput "github.actions.workflows" mapped (read.failure.isSome ||
      decide (maxWorkflowsPerRepository < (lists.flatMap WorkflowListDto.workflows).length))
      read.failure)
  refine ⟨hc.extend hstamp hresources hrelations (mergeActions_quiet hc.warnings (by decide))
    hworkflows hruns ?_, ?_⟩
  · have hcontext : route.context.observedAt = at_ := hroute.observedAt_eq
    rw [← hcontext]
    refine mapWorkflows_observes hrepository ?_ ?_ hmapped
    · rw [hresources, List.map_append]
      exact List.mem_append_left _ hroute.collected
    · rw [hresources, List.map_append]
      exact List.subset_append_right _ _
  · rw [hresources]
    exact List.subset_append_left _ _

/-- Reading the runs of a repository keeps it too. -/
theorem collectRuns_traced {route : RepositoryRouteContext} (hc : Traced wire scope at_ c s)
    (hroute : Routed at_ c route)
    (h : collectRuns wire transport secret route c s = (.ok c', s')) :
    Traced wire scope at_ c' s' ∧ c.resources ⊆ c'.resources := by
  unfold collectRuns at h
  obtain ⟨endpoint, hendpoint, h⟩ := Attempt.ofExcept_bind_ok_iff.mp h
  have h := Attempt.result_bind_ok_iff.mp h
  obtain ⟨read, hread, h⟩ := Attempt.ofExcept_bind_ok_iff.mp h
  obtain ⟨lists, hlists, h⟩ := Attempt.ofExcept_bind_ok_iff.mp h
  obtain ⟨output, houtput, h⟩ := Attempt.ofExcept_bind_ok_iff.mp h
  cases h
  unfold mapRuns at houtput
  obtain ⟨mapped, hmapped, houtput⟩ := bind_ok houtput
  cases houtput
  -- what is kept of the runs is short enough for the mapper
  have hshort : ∀ runs, (keptRuns runs).take maxRunsPerRepository = keptRuns runs := by
    intro runs
    unfold keptRuns
    rw [List.take_take, Nat.min_self]
  have hmapped := mapEach_ok hmapped
  rw [hshort] at hmapped
  have hclass := endpoint_class hendpoint
  obtain ⟨hworkflows, hruns⟩ :=
    fetchCached_reads wire transport secret endpoint 1 c.remainingRequests s
  have hkept : ListFetch.runs wire
      ⟨endpoint, (fetchCached wire transport secret endpoint 1 c.remainingRequests s).1⟩ =
        keptRuns (lists.flatMap WorkflowRunListDto.workflowRuns) := by
    unfold ListFetch.runs
    rw [if_pos hclass, ← optionalPages_ok hread endpoint, deserialize_ok hlists]
  have hnoWorkflows : ListFetch.workflows wire
      ⟨endpoint, (fetchCached wire transport secret endpoint 1 c.remainingRequests s).1⟩ = [] := by
    unfold ListFetch.workflows
    rw [if_neg (by rw [hclass]; decide)]
  rw [hkept] at hruns
  rw [hnoWorkflows] at hworkflows
  obtain ⟨hstamp, hresources, hrelations⟩ := mergeActions_same (c.addSummary read.requestSummary)
    (actionOutput "github.actions.runs" mapped
      (decide (maxRunsPerRepository < (lists.flatMap WorkflowRunListDto.workflowRuns).length) ||
        read.failure.isSome ||
        decide (maxRunsPerRepository <
          (keptRuns (lists.flatMap WorkflowRunListDto.workflowRuns)).length)) read.failure)
  refine ⟨hc.extend hstamp hresources hrelations (mergeActions_quiet hc.warnings (by decide))
    hworkflows hruns ?_, ?_⟩
  · have hcontext : route.context.observedAt = at_ := hroute.observedAt_eq
    rw [← hcontext]
    refine mapRuns_observes ?_ hmapped
    rw [hresources, List.map_append]
    exact List.subset_append_right _ _
  · rw [hresources]
    exact List.subset_append_left _ _

/-! ## §4  All repositories -/

theorem collectRepositoryChildren_traced {route : RepositoryRouteContext}
    (hc : Traced wire scope at_ c s) (hroute : Routed at_ c route)
    (h : collectRepositoryChildren wire transport secret route c s = (.ok c', s')) :
    Traced wire scope at_ c' s' ∧ c.resources ⊆ c'.resources := by
  unfold collectRepositoryChildren at h
  obtain ⟨middle, t, hworkflows, h⟩ := Attempt.bind_ok_iff.mp h
  obtain ⟨htraced, hmore⟩ := collectWorkflows_traced hc hroute hworkflows
  split at h
  · cases h
    exact ⟨leaveOff_traced htraced, hmore⟩
  · obtain ⟨htraced', hmore'⟩ := collectRuns_traced htraced (hroute.of_same hmore) h
    exact ⟨htraced', List.Subset.trans hmore hmore'⟩

/-- The loop over the repositories keeps the invariant, by induction on them. -/
theorem collectChildren_traced {routes : List RepositoryRouteContext} (hc : Traced wire scope at_ c s)
    (hroutes : ∀ route ∈ routes, Routed at_ c route)
    (h : collectChildren wire transport secret routes c s = (.ok c', s')) :
    Traced wire scope at_ c' s' := by
  induction routes generalizing c s with
  | nil =>
      cases h
      exact hc
  | cons route routes ih =>
      unfold collectChildren at h
      split at h
      · cases h
        exact leaveOff_traced hc
      · obtain ⟨middle, t, hone, h⟩ := Attempt.bind_ok_iff.mp h
        obtain ⟨htraced, hmore⟩ :=
          collectRepositoryChildren_traced hc (hroutes route List.mem_cons_self) hone
        exact ih htraced (fun r hr => (hroutes r (List.mem_cons_of_mem _ hr)).of_same hmore) h

/-- What the repository mapper makes at a time. -/
structure Mapped (at_ : Timestamp) (output : RepositoryMapperOutput) : Prop where
  resources : ∀ r ∈ output.resources, ∃ id scope,
    Observed repositoryKind "github-repository" id scope at_ r
  routes : ∀ route ∈ output.routes, route.observedAt = at_ ∧
    ∃ r ∈ output.resources, route.repositoryExternalId = r.externalId
  modules : ∀ m ∈ output.modules, m.module ∈ moduleNames

theorem mapRepositories_ok {scope : Scope} {repositories : List RepositoryDto} {bounded : Bool}
    {failure : Option ConnectorFailure} {output : RepositoryMapperOutput}
    (h : mapRepositories scope at_ repositories bounded failure = .ok output) :
    Mapped at_ output := by
  unfold mapRepositories at h
  obtain ⟨mapped, hmapped, h⟩ := bind_ok h
  cases h
  have hmapped := mapEach_ok hmapped
  have hone : ∀ m ∈ mapped, ∃ id, Observed repositoryKind "github-repository" id scope at_ m.1 ∧
      m.2.repositoryExternalId = m.1.externalId ∧ m.2.scope = scope ∧ m.2.observedAt = at_ := by
    intro m hm
    obtain ⟨repository, _, hmap⟩ := Fallible.argument_of_mapM hmapped hm
    exact ⟨repository.id, mapRepository_ok hmap⟩
  refine ⟨?_, ?_, ?_⟩
  · intro r hr
    obtain ⟨m, hm, rfl⟩ := List.mem_map.mp (mem_sortResources.mp hr)
    obtain ⟨id, hobserved, _⟩ := hone m hm
    exact ⟨id, scope, hobserved⟩
  · intro route hroute
    obtain ⟨m, hm, rfl⟩ := List.mem_map.mp ((List.mem_insertionSort _).mp hroute)
    obtain ⟨_, _, hid, _, hat⟩ := hone m hm
    exact ⟨hat, m.1, mem_sortResources.mpr (List.mem_map_of_mem hm), hid⟩
  · intro m hm
    rw [List.mem_singleton.mp hm]
    show "github.repositories" ∈ moduleNames
    decide

theorem Mapped.merge {output other : RepositoryMapperOutput} (h : Mapped at_ output)
    (h' : Mapped at_ other) : Mapped at_ (output.merge other) := by
  refine ⟨?_, ?_, ?_⟩
  · intro r hr
    rcases List.mem_append.mp (mem_sortResources.mp hr) with hr | hr
    · exact h.resources r hr
    · exact h'.resources r hr
  · intro route hroute
    rcases List.mem_append.mp ((List.mem_insertionSort _).mp hroute) with hroute | hroute
    · obtain ⟨hat, r, hr, hid⟩ := h.routes route hroute
      exact ⟨hat, r, mem_sortResources.mpr (List.mem_append_left _ hr), hid⟩
    · obtain ⟨hat, r, hr, hid⟩ := h'.routes route hroute
      exact ⟨hat, r, mem_sortResources.mpr (List.mem_append_right _ hr), hid⟩
  · intro m hm
    rcases List.mem_append.mp ((List.mem_insertionSort _).mp hm) with hm | hm
    · exact h.modules m hm
    · exact h'.modules m hm

/-- The repositories of an output join what has been collected, and may be read on. -/
theorem mergeRepository_traced {output : RepositoryMapperOutput} (hc : Traced wire scope at_ c s)
    (houtput : Mapped at_ output) :
    Traced wire scope at_ (c.mergeRepository output) s ∧
      ∀ route ∈ output.routes, Routed at_ (c.mergeRepository output) route := by
  have hfold : ∀ (modules : List ModuleResult), (∀ m ∈ modules, m.module ∈ moduleNames) →
      ∀ c : Collector, Quiet c.warnings →
      (modules.foldl Collector.collectGap c).stamp = c.stamp ∧
        (modules.foldl Collector.collectGap c).resources = c.resources ∧
        (modules.foldl Collector.collectGap c).relations = c.relations ∧
        Quiet (modules.foldl Collector.collectGap c).warnings := by
    intro modules
    induction modules with
    | nil => exact fun _ c hquiet => ⟨rfl, rfl, rfl, hquiet⟩
    | cons m modules ih =>
        intro hnames c hquiet
        obtain ⟨h₁, h₂, h₃, h₄⟩ := ih (fun m' hm' => hnames m' (List.mem_cons_of_mem _ hm'))
          (c.collectGap m) (collectGap_quiet hquiet (hnames m List.mem_cons_self))
        obtain ⟨k₁, k₂, k₃⟩ := collectGap_same c m
        exact ⟨h₁.trans k₁, h₂.trans k₂, h₃.trans k₃, h₄⟩
  obtain ⟨hstamp, hresources, hrelations, hquiet⟩ := hfold output.modules houtput.modules
    { c with resources := c.resources ++ output.resources } hc.warnings
  have hresources : (c.mergeRepository output).resources = c.resources ++ output.resources :=
    hresources
  refine ⟨@Traced.extend wire scope at_ c _ s s [] [] output.resources [] hc hstamp hresources
    (hrelations.trans (List.append_nil _).symm) hquiet (List.append_nil _).symm
    (List.append_nil _).symm ⟨?_, by simp, ?_, by simp, by simp⟩, ?_⟩
  · intro r hr
    obtain ⟨id, scope, hobserved⟩ := houtput.resources r hr
    exact ⟨_, _, _, _, hobserved⟩
  · intro r hr hkind
    obtain ⟨id, scope, hobserved⟩ := houtput.resources r hr
    rw [hobserved.kind_eq] at hkind
    exact absurd hkind (by decide)
  · intro route hroute
    obtain ⟨hobservedAt, r, hr, hid⟩ := houtput.routes route hroute
    obtain ⟨id, scope, hobserved⟩ := houtput.resources r hr
    refine ⟨⟨id, hid ▸ hobserved.identity⟩, ?_, hobservedAt⟩
    rw [hresources, List.map_append]
    refine List.mem_append_right _ (List.mem_map.mpr ⟨r, hr, ?_⟩)
    unfold ResourceObservation.locator
    rw [hobserved.kind_eq, hid]

/-! ## §5  The sync -/

/-- Lists of repositories hold no workflows and no runs. -/
theorem fetchCached_readsNone {endpoint : GitHubEndpoint} (maxPages remaining : Nat) (s : Syncing)
    (hworkflows : endpoint.endpointClass ≠ "workflows") (hruns : endpoint.endpointClass ≠ "runs") :
    workflowsRead wire (fetchCached wire transport secret endpoint maxPages remaining s).2.lists =
        workflowsRead wire s.lists ∧
      runsRead wire (fetchCached wire transport secret endpoint maxPages remaining s).2.lists =
        runsRead wire s.lists := by
  obtain ⟨h₁, h₂⟩ := fetchCached_reads wire transport secret endpoint maxPages remaining s
  rw [h₁, h₂]
  unfold ListFetch.workflows ListFetch.runs
  rw [if_neg hworkflows, if_neg hruns, List.append_nil, List.append_nil]
  exact ⟨rfl, rfl⟩

/-- Reading repositories leaves the collector as it is, its counts apart. -/
structure Reads (wire : Wire) (c c' : Collector) (s s' : Syncing) : Prop where
  stamp_eq : c'.stamp = c.stamp
  resources : c'.resources = c.resources
  relations : c'.relations = c.relations
  quiet : Quiet c.warnings → Quiet c'.warnings
  workflowsRead_eq : workflowsRead wire s'.lists = workflowsRead wire s.lists
  runsRead_eq : runsRead wire s'.lists = runsRead wire s.lists

theorem Reads.trans {c c' c'' : Collector} {s s' s'' : Syncing} (h : Reads wire c c' s s')
    (h' : Reads wire c' c'' s' s'') : Reads wire c c'' s s'' :=
  ⟨h'.stamp_eq.trans h.stamp_eq, h'.resources.trans h.resources,
    h'.relations.trans h.relations, fun hquiet => h'.quiet (h.quiet hquiet),
    h'.workflowsRead_eq.trans h.workflowsRead_eq, h'.runsRead_eq.trans h.runsRead_eq⟩

theorem collectRepositories_ok {request : SyncRequest} {output : RepositoryMapperOutput}
    (h : collectRepositories wire transport secret request c s = (.ok (output, c'), s')) :
    Mapped c.observedAt output ∧ Reads wire c c' s s' := by
  unfold collectRepositories at h
  obtain ⟨endpoint, hendpoint, h⟩ := Attempt.ofExcept_bind_ok_iff.mp h
  have h := Attempt.result_bind_ok_iff.mp h
  obtain ⟨read, hread, h⟩ := Attempt.ofExcept_bind_ok_iff.mp h
  obtain ⟨selected, _, h⟩ := Attempt.ofExcept_bind_ok_iff.mp h
  obtain ⟨repositories, _, h⟩ := Attempt.ofExcept_bind_ok_iff.mp h
  obtain ⟨made, hmade, h⟩ := Attempt.ofExcept_bind_ok_iff.mp h
  cases h
  unfold repositoriesEndpoint GitHubEndpoint.new at hendpoint
  have hclass := build_class hendpoint
  obtain ⟨hworkflows, hruns⟩ := @fetchCached_readsNone wire transport secret endpoint 20
    c.remainingRequests s (by rw [hclass]; decide) (by rw [hclass]; decide)
  exact ⟨mapRepositories_ok hmade, ⟨rfl, rfl, rfl, id, hworkflows, hruns⟩⟩

theorem collectTargetedRepositories_ok {request : SyncRequest}
    {routes : List RepositoryRouteContext} {output output' : RepositoryMapperOutput}
    (hquiet : Quiet c.warnings) (houtput : Mapped c.observedAt output)
    (h : collectTargetedRepositories wire transport secret request routes output c s =
      (.ok (output', c'), s')) :
    Mapped c.observedAt output' ∧ Reads wire c c' s s' := by
  induction routes generalizing c s output with
  | nil =>
      cases h
      exact ⟨houtput, rfl, rfl, rfl, id, rfl, rfl⟩
  | cons route routes ih =>
      unfold collectTargetedRepositories at h
      split at h
      · cases h
        exact ⟨houtput, rfl, rfl, rfl, fun hc => note_quiet hc (by decide +kernel), rfl, rfl⟩
      obtain ⟨endpoint, hendpoint, h⟩ := Attempt.ofExcept_bind_ok_iff.mp h
      have h := Attempt.result_bind_ok_iff.mp h
      obtain ⟨read, hread, h⟩ := Attempt.ofExcept_bind_ok_iff.mp h
      obtain ⟨repositories, _, h⟩ := Attempt.ofExcept_bind_ok_iff.mp h
      obtain ⟨made, hmade, h⟩ := Attempt.ofExcept_bind_ok_iff.mp h
      have hclass := endpoint_class hendpoint
      obtain ⟨hworkflows, hruns⟩ := @fetchCached_readsNone wire transport secret endpoint 1
        c.remainingRequests s (by rw [hclass]; decide) (by rw [hclass]; decide)
      obtain ⟨hmapped, hreads⟩ := @ih (c.addSummary read.requestSummary) _ (output.merge made)
        hquiet (houtput.merge (mapRepositories_ok hmade)) h
      have hfirst : Reads wire c (c.addSummary read.requestSummary) s
          (fetchCached wire transport secret endpoint 1 c.remainingRequests s).2 :=
        ⟨rfl, rfl, rfl, id, hworkflows, hruns⟩
      exact ⟨hmapped, hfirst.trans hreads⟩

theorem collectByMode_ok {request : SyncRequest} {output : RepositoryMapperOutput}
    (hquiet : Quiet c.warnings)
    (h : collectByMode wire transport secret request c s = (.ok (output, c'), s')) :
    Mapped c.observedAt output ∧ Reads wire c c' s s' := by
  unfold collectByMode at h
  split at h
  · exact collectRepositories_ok h
  · split at h
    · cases h
    · refine collectTargetedRepositories_ok hquiet ⟨?_, ?_, ?_⟩ h
      · simp
      · simp
      · simp
  · cases h

/-- What a sync collects, from a connector that has not sent anything yet. -/
theorem collect_traced {now : Nat} {request : SyncRequest} {connector : GitHubConnector}
    (h : collect wire transport secret now request { connector := connector } = (.ok c', s')) :
    Traced wire request.scope (observedAtOf now) c' s' := by
  unfold collect at h
  obtain ⟨⟨output, middle⟩, t, hmode, h⟩ := Attempt.bind_ok_iff.mp h
  obtain ⟨hmapped, hreads⟩ := collectByMode_ok (by intro w hw; cases hw) hmode
  have hstart : Traced wire request.scope (observedAtOf now) middle t := by
    refine ⟨hreads.stamp_eq, ?_, hreads.quiet (by intro w hw; cases hw)⟩
    rw [hreads.resources, hreads.relations, hreads.workflowsRead_eq, hreads.runsRead_eq]
    exact ⟨by simp, by simp, by simp, by simp [workflowsRead], by simp [runsRead]⟩
  obtain ⟨htraced, hroutes⟩ := mergeRepository_traced hstart hmapped
  simp only at h
  split at h
  · obtain ⟨_, u, hkeep, h⟩ := Attempt.bind_ok_iff.mp h
    cases hkeep
    have hkept : Traced wire request.scope (observedAtOf now) (middle.mergeRepository output)
        { t with connector := { t.connector with routeCache := output.routes } } :=
      ⟨htraced.stamp_eq, htraced.observes, htraced.warnings⟩
    exact collectChildren_traced hkept hroutes h
  · exact collectChildren_traced htraced hroutes h

end

end GitHub

end NextInfra
