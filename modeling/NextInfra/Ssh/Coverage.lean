import NextInfra.Ssh.Connector

/-!
# What an SSH sync claims to have seen

§1 and §2 give the two sides of a batch of outcomes: which batches are taken apart
and into what, and that no two observations of one sync share a key. §3 puts the
sync together: for a connection whose identity was read, the outcome is complete
exactly when the mode is full and every planned probe was answered once and parsed,
and in any case it holds the resources of every probe that was.
-/

namespace NextInfra

namespace Ssh

/-! ## §1  Batches of outcomes -/

/-- What `split_outcomes` lets through: planned probes, each once, and no failure
that ends the sync. -/
structure SshBatchOutput.Tolerable (batch : SshBatchOutput) (planned : List ProbeId) : Prop where
  planned : ∀ outcome ∈ batch.outcomes, outcome.probeId ∈ planned
  distinct : (batch.outcomes.map ProbeOutcome.probeId).Nodup
  calm : ∀ probeId failure, .failure probeId failure ∈ batch.outcomes →
    ErrorCode.endsSync failure.code = false

/-- The one outcome of the probe is a success with this output. -/
def SshBatchOutput.OnlySuccess (batch : SshBatchOutput) (id : ProbeId) (stdout : List UInt8) :
    Prop :=
  ∃ elapsedMs, batch.outcomes.filter (fun outcome => decide (outcome.probeId = id)) =
    [.success { probeId := id, stdout := stdout, elapsedMs := elapsedMs }]

def ProbeOutcome.output? : ProbeOutcome → Option (ProbeId × List UInt8)
  | .success output => some (output.probeId, output.stdout)
  | .failure _ _ => none

def ProbeOutcome.failure? : ProbeOutcome → Option (String × ConnectorFailure)
  | .success _ => none
  | .failure probeId cause => some (probeId.asStr, cause)

theorem splitOutcomes_ok {planned seen : List ProbeId} {outcomes : List ProbeOutcome}
    (hplanned : ∀ outcome ∈ outcomes, outcome.probeId ∈ planned ∧ outcome.probeId ∉ seen)
    (hdistinct : (outcomes.map ProbeOutcome.probeId).Nodup)
    (hcalm : ∀ probeId failure, .failure probeId failure ∈ outcomes →
      ErrorCode.endsSync failure.code = false) :
    splitOutcomes planned seen outcomes =
      .ok (outcomes.filterMap ProbeOutcome.output?, outcomes.filterMap ProbeOutcome.failure?) := by
  induction outcomes generalizing seen with
  | nil => rfl
  | cons outcome rest ih =>
      rw [List.map_cons, List.nodup_cons] at hdistinct
      have hhead := hplanned outcome List.mem_cons_self
      have hrest : ∀ o ∈ rest, o.probeId ∈ planned ∧ o.probeId ∉ outcome.probeId :: seen := by
        intro o ho
        obtain ⟨hp, hs⟩ := hplanned o (List.mem_cons_of_mem _ ho)
        refine ⟨hp, ?_⟩
        intro hmem
        rcases List.mem_cons.mp hmem with heq | hmem
        · exact hdistinct.1 (heq ▸ List.mem_map_of_mem ho)
        · exact hs hmem
      have ih := ih hrest hdistinct.2 fun id f hf => hcalm id f (List.mem_cons_of_mem _ hf)
      unfold splitOutcomes
      rw [if_neg (by simp [hhead.1, hhead.2])]
      cases outcome with
      | success output =>
          show (splitOutcomes planned (output.probeId :: seen) rest >>= _) = _
          rw [show splitOutcomes planned (output.probeId :: seen) rest = _ from ih]
          rfl
      | failure probeId failure =>
          have hcode := hcalm probeId failure List.mem_cons_self
          show (if ErrorCode.endsSync failure.code then _ else _) = _
          rw [hcode, if_neg (by simp)]
          rw [show splitOutcomes planned (probeId :: seen) rest = _ from ih]
          rfl

/-- Every other batch is refused. -/
theorem splitOutcomes_tolerable {planned seen : List ProbeId} {outcomes : List ProbeOutcome}
    {parts : ProbeOutputs × ModuleFailures} (h : splitOutcomes planned seen outcomes = .ok parts) :
    (∀ outcome ∈ outcomes, outcome.probeId ∈ planned ∧ outcome.probeId ∉ seen) ∧
      (outcomes.map ProbeOutcome.probeId).Nodup ∧
      ∀ probeId failure, .failure probeId failure ∈ outcomes →
        ErrorCode.endsSync failure.code = false := by
  induction outcomes generalizing seen parts with
  | nil => simp
  | cons outcome rest ih =>
      unfold splitOutcomes at h
      split at h
      · cases h
      rename_i hhead
      simp only [not_or, not_not] at hhead
      have hrest : ∃ parts', splitOutcomes planned (outcome.probeId :: seen) rest = .ok parts' ∧
          ∀ probeId failure, outcome = .failure probeId failure →
            ErrorCode.endsSync failure.code = false := by
        cases outcome with
        | success output =>
            obtain ⟨parts', hparts, _⟩ := bind_ok h
            exact ⟨parts', hparts, fun _ _ heq => by cases heq⟩
        | failure probeId failure =>
            simp only at h
            split at h
            · cases h
            rename_i hcode
            obtain ⟨parts', hparts, _⟩ := bind_ok h
            refine ⟨parts', hparts, ?_⟩
            rintro _ _ heq
            cases heq
            simpa using hcode
      obtain ⟨parts', hparts, hcalm⟩ := hrest
      obtain ⟨hp, hd, hc⟩ := ih hparts
      refine ⟨?_, ?_, ?_⟩
      · intro o ho
        rcases List.mem_cons.mp ho with rfl | ho
        · exact hhead
        · exact ⟨(hp o ho).1, fun hs => (hp o ho).2 (List.mem_cons_of_mem _ hs)⟩
      · rw [List.map_cons, List.nodup_cons]
        refine ⟨?_, hd⟩
        intro hmem
        obtain ⟨o, ho, heq⟩ := List.mem_map.mp hmem
        exact (hp o ho).2 (heq ▸ List.mem_cons_self)
      · intro id f hf
        rcases List.mem_cons.mp hf with heq | hf
        · exact hcalm id f heq.symm
        · exact hc id f hf

/-- The outcomes of one probe, in a batch that has each probe once. -/
theorem filter_of_mem {outcomes : List ProbeOutcome}
    (hdistinct : (outcomes.map ProbeOutcome.probeId).Nodup) {outcome : ProbeOutcome}
    (hmem : outcome ∈ outcomes) :
    outcomes.filter (fun o => decide (o.probeId = outcome.probeId)) = [outcome] := by
  induction outcomes with
  | nil => cases hmem
  | cons o rest ih =>
      rw [List.map_cons, List.nodup_cons] at hdistinct
      rcases List.mem_cons.mp hmem with rfl | hmem
      · rw [List.filter_cons_of_pos (by simp)]
        have hnone : rest.filter (fun o => decide (o.probeId = outcome.probeId)) = [] := by
          rw [List.filter_eq_nil_iff]
          intro o ho heq
          exact hdistinct.1 (of_decide_eq_true heq ▸ List.mem_map_of_mem ho)
        rw [hnone]
      · rw [List.filter_cons_of_neg]
        · exact ih hdistinct.2 hmem
        · intro heq
          exact hdistinct.1 (of_decide_eq_true heq ▸ List.mem_map_of_mem hmem)

/-- The output kept for a probe is that of its one successful outcome. -/
theorem outputOf_eq_some_iff {batch : SshBatchOutput} {planned : List ProbeId}
    (ht : batch.Tolerable planned) {id : ProbeId} {stdout : List UInt8} :
    outputOf (batch.outcomes.filterMap ProbeOutcome.output?) id = some stdout ↔
      batch.OnlySuccess id stdout := by
  constructor
  · intro h
    unfold outputOf at h
    obtain ⟨p, hp, rfl⟩ := Option.map_eq_some_iff.mp h
    have hid : p.1 = id := by simpa using List.find?_some hp
    obtain ⟨outcome, hmem, hout⟩ := List.mem_filterMap.mp (List.mem_of_find?_eq_some hp)
    cases outcome with
    | failure probeId failure => cases hout
    | success output =>
        cases hout
        obtain ⟨probeId, stdout, elapsedMs⟩ := output
        simp only at hid
        subst hid
        exact ⟨elapsedMs, filter_of_mem ht.distinct hmem⟩
  · rintro ⟨elapsedMs, hfilter⟩
    unfold outputOf
    have hmem : ProbeOutcome.success { probeId := id, stdout := stdout, elapsedMs := elapsedMs } ∈
        batch.outcomes := by
      have := List.mem_singleton.mpr (rfl : ProbeOutcome.success
        { probeId := id, stdout := stdout, elapsedMs := elapsedMs } = _)
      rw [← hfilter] at this
      exact (List.mem_filter.mp this).1
    cases hfind : (batch.outcomes.filterMap ProbeOutcome.output?).find?
        (fun p => decide (p.1 = id)) with
    | none =>
        have hnot := List.find?_eq_none.mp hfind (id, stdout)
          (List.mem_filterMap.mpr ⟨_, hmem, rfl⟩)
        simp at hnot
    | some p =>
        have hid : p.1 = id := by simpa using List.find?_some hfind
        obtain ⟨outcome, hmem', hout⟩ := List.mem_filterMap.mp (List.mem_of_find?_eq_some hfind)
        cases outcome with
        | failure probeId failure => cases hout
        | success output =>
            cases hout
            have hother := filter_of_mem ht.distinct hmem'
            have hsame : (ProbeOutcome.success output).probeId = id := hid
            rw [hsame, hfilter] at hother
            cases hother
            rfl

/-- The failures of a batch are those its probes report. -/
theorem failures_eq_nil_iff {batch : SshBatchOutput} :
    batch.outcomes.filterMap ProbeOutcome.failure? = [] ↔
      ∀ probeId failure, .failure probeId failure ∉ batch.outcomes := by
  rw [List.filterMap_eq_nil_iff]
  constructor
  · intro h probeId failure hmem
    have := h _ hmem
    cases this
  · intro h outcome hmem
    cases outcome with
    | success output => rfl
    | failure probeId failure => exact absurd hmem (h probeId failure)

/-- The identity batch gives an output exactly when it is one success. -/
theorem identityStdout_ok_iff {batch : SshBatchOutput} {stdout : List UInt8} :
    identityStdout batch = .ok stdout ↔
      batch.Tolerable [.hostIdentityV1] ∧ batch.OnlySuccess .hostIdentityV1 stdout := by
  constructor
  · intro h
    unfold identityStdout at h
    split at h
    · rename_i output houtcomes
      split at h
      · rename_i hid
        cases h
        obtain ⟨probeId, stdout, elapsedMs⟩ := output
        simp only at hid
        subst hid
        refine ⟨⟨?_, ?_, ?_⟩, elapsedMs, ?_⟩
        · intro o ho
          rw [houtcomes, List.mem_singleton] at ho
          rw [ho]
          exact List.mem_singleton.mpr rfl
        · rw [houtcomes]
          exact List.nodup_singleton _
        · intro id f hf
          rw [houtcomes, List.mem_singleton] at hf
          cases hf
        · rw [houtcomes]
          rfl
      · cases h
    · cases h
    · cases h
  · rintro ⟨ht, elapsedMs, hfilter⟩
    have hall : batch.outcomes.filter (fun o => decide (o.probeId = .hostIdentityV1)) =
        batch.outcomes := by
      rw [List.filter_eq_self]
      intro o ho
      exact decide_eq_true (List.mem_singleton.mp (ht.planned o ho))
    rw [hall] at hfilter
    unfold identityStdout
    rw [hfilter]
    rfl

/-! ## §2  No two observations share a key -/

/-- The ids of the services a parser keeps are distinct. -/
theorem parseServiceRows_ids {ρ σ : Type} {discovery : Bool}
    {read : List Char → RowStep (ServiceId × ρ)} {finish : ServiceId → ρ → Option σ}
    (idOf : σ → ServiceId)
    (hid : ∀ line id fields service, read line = .keep (id, fields) →
      finish id fields = some service → idOf service = id)
    {row : Nat} {seen : List ServiceId} {services : List σ} {lines : List (List Char)}
    {out : List σ} (h : parseServiceRows discovery read finish row seen services lines = .ok out)
    (hnodup : (services.map idOf).Nodup) (hseen : ∀ service ∈ services, idOf service ∈ seen) :
    (out.map idOf).Nodup := by
  induction lines generalizing row seen services with
  | nil =>
      cases h
      exact hnodup
  | cons line rest ih =>
      unfold parseServiceRows at h
      split at h
      · cases h
      cases hread : read line with
      | skip =>
          simp only [hread] at h
          exact ih h hnodup hseen
      | reject kind =>
          simp only [hread] at h
          split at h
          · exact ih h hnodup hseen
          · cases h
      | keep kept =>
          obtain ⟨id, fields⟩ := kept
          have hmore : ∀ service ∈ services, idOf service ∈ id :: seen :=
            fun service hs => List.mem_cons_of_mem _ (hseen service hs)
          simp only [hread] at h
          split at h
          · split at h
            · exact ih h hnodup hseen
            · cases h
          rename_i hnew
          cases hfinish : finish id fields with
          | none =>
              simp only [hfinish] at h
              split at h
              · exact ih h hnodup hmore
              · cases h
          | some service =>
              simp only [hfinish] at h
              split at h
              · cases h
                exact hnodup
              split at h
              · cases h
              -- the id was not seen before, so no service kept so far has it
              have hsame := hid line id fields service hread hfinish
              refine ih h ?_ ?_
              · rw [List.map_append, List.nodup_append]
                refine ⟨hnodup, List.nodup_singleton _, ?_⟩
                intro a ha b hb
                obtain ⟨s, hs, rfl⟩ := List.mem_map.mp ha
                rw [List.map_singleton, List.mem_singleton] at hb
                rw [hb, hsame]
                intro heq
                exact hnew (heq ▸ hseen s hs)
              · intro s hs
                rcases List.mem_append.mp hs with hs | hs
                · exact hmore s hs
                · rw [List.mem_singleton.mp hs, hsame]
                  exact List.mem_cons_self

theorem readSystemdRow_unit {allowlist : Option (List ServiceId)} {line : List Char}
    {id : ServiceId} {service : SystemdService}
    (h : readSystemdRow allowlist line = .keep (id, service)) : service.unit = id := by
  unfold readSystemdRow at h
  split at h
  · cases h
  split at h
  · cases h
  split at h
  · split at h
    · simp only at h
      split at h
      · cases h
        rfl
      · cases h
    · cases h
  · cases h

theorem finishLaunchdRow_label {id : ServiceId} {fields : List Char × List Char}
    {service : LaunchdService} (h : finishLaunchdRow id fields = some service) :
    service.serviceLabel = id := by
  unfold finishLaunchdRow at h
  simp only at h
  split at h
  · cases h
  · obtain ⟨status, _, rfl⟩ := Option.map_eq_some_iff.mp h
    rfl

theorem parseSystemdServices_units {input : List UInt8} {allowlist : Option (List ServiceId)}
    {services : List SystemdService} (h : parseSystemdServices input allowlist = .ok services) :
    (services.map SystemdService.unit).Nodup := by
  obtain ⟨text, _, h⟩ := bind_ok h
  obtain ⟨rows, hrows, h⟩ := bind_ok h
  cases h
  have hnodup := parseServiceRows_ids SystemdService.unit
    (fun line id fields service hread hfinish => by
      cases hfinish
      exact readSystemdRow_unit hread) hrows List.nodup_nil (by simp)
  exact ((List.perm_insertionSort _ rows).map _).nodup_iff.mpr hnodup

theorem parseLaunchdServices_labels {input : List UInt8} {allowlist : Option (List ServiceId)}
    {services : List LaunchdService} (h : parseLaunchdServices input allowlist = .ok services) :
    (services.map LaunchdService.serviceLabel).Nodup := by
  obtain ⟨text, _, h⟩ := bind_ok h
  split at h
  · cases h
  split at h
  · cases h
  obtain ⟨rows, hrows, h⟩ := bind_ok h
  cases h
  have hnodup := parseServiceRows_ids LaunchdService.serviceLabel
    (fun line id fields service _ hfinish => finishLaunchdRow_label hfinish) hrows
    List.nodup_nil (by simp)
  exact ((List.perm_insertionSort _ rows).map _).nodup_iff.mpr hnodup

abbrev Observed := List (ResourceObservation × RelationObservation)

/-- Every relation of the list goes to the resource it comes with. -/
def Paired (observed : Observed) : Prop :=
  ∀ p ∈ observed, p.2.target = { kind := p.1.kind, externalId := p.1.externalId }

/-- The services of a host: of one kind, each under its own id. -/
structure ServiceObservations (observed : Observed) : Prop where
  kinds : ∀ p ∈ observed, p.1.kind = systemdKind ∨ p.1.kind = launchdKind
  distinct : (observed.map fun p => ResourceObservation.sortKey p.1).Nodup
  paired : Paired observed

theorem serviceObservations_of {σ : Type} {ctx : Context} {observe : σ → ResourceObservation}
    {idOf : σ → ServiceId} {evidence : ServiceId → EvidenceKey} {fieldPath : FieldPath}
    {services : List σ} (hnodup : (services.map idOf).Nodup)
    (hkind : ∀ service, (observe service).kind = systemdKind ∨ (observe service).kind = launchdKind)
    (hid : ∀ a b, (observe a).externalId = (observe b).externalId → idOf a = idOf b) :
    ServiceObservations (ctx.services observe idOf evidence fieldPath services) where
  kinds := by
    intro p hp
    obtain ⟨service, _, rfl⟩ := List.mem_map.mp hp
    exact hkind service
  distinct := by
    unfold Context.services
    rw [List.map_map]
    refine List.Nodup.of_map (fun key => (ofLex key).2) ?_
    rw [List.map_map]
    -- the external id determines the service id
    rw [List.nodup_map_iff_inj_on (hnodup.of_map idOf)]
    intro a ha b hb heq
    have hsame : idOf a = idOf b := hid a b heq
    exact List.inj_on_of_nodup_map hnodup ha hb hsame
  paired := by
    intro p hp
    obtain ⟨service, _, rfl⟩ := List.mem_map.mp hp
    rfl

theorem serviceObservations_mapServices {ctx : Context} {platform : HostPlatform}
    {stdout : List UInt8} {allowlist : List ServiceId} {observed : Observed}
    (h : mapServices ctx platform stdout allowlist = .ok observed) :
    ServiceObservations observed := by
  cases platform with
  | darwin =>
      unfold mapServices at h
      simp only at h
      split at h
      · rename_i services hmap
        cases h
        obtain ⟨parsed, hparsed, rfl⟩ := map_ok hmap
        refine serviceObservations_of (parseLaunchdServices_labels hparsed)
          (fun _ => Or.inr rfl) ?_
        intro a b heq
        exact servicePrefixed_inj (by decide) heq
      · cases h
  | linux =>
      unfold mapServices at h
      simp only at h
      split at h
      · rename_i services hmap
        cases h
        obtain ⟨parsed, hparsed, rfl⟩ := map_ok hmap
        refine serviceObservations_of (parseSystemdServices_units hparsed)
          (fun _ => Or.inl rfl) ?_
        intro a b heq
        exact servicePrefixed_inj (by decide) heq
      · cases h

theorem serviceObservations_getD {config : SshConnectionConfigV1} {ctx : Context}
    {platform : HostPlatform} {outputs : ProbeOutputs} :
    ServiceObservations ((serviceResult config ctx platform outputs).toOption.getD []) := by
  have hnil : ServiceObservations [] := ⟨by simp, by simp, by simp [Paired]⟩
  cases hres : serviceResult config ctx platform outputs with
  | error e => exact hnil
  | ok observed =>
      unfold serviceResult at hres
      split at hres
      · cases hres
        exact hnil
      split at hres
      · cases hres
      · exact serviceObservations_mapServices hres

theorem paired_append {as bs : Observed} (ha : Paired as) (hb : Paired bs) : Paired (as ++ bs) := by
  intro p hp
  rcases List.mem_append.mp hp with hp | hp
  · exact ha p hp
  · exact hb p hp

theorem summaries_spec (ctx : Context) (identity : HostIdentityObservation)
    (filesystems : Option FilesystemSummary) (processes : Option ProcessSummary) :
    Paired (ctx.summaries identity filesystems processes) ∧
      ((ctx.summaries identity filesystems processes).map fun p => p.1.kind) =
        (filesystems.toList.map fun _ => filesystemKind) ++
          processes.toList.map fun _ => processKind := by
  cases filesystems <;> cases processes <;>
    simp [Context.summaries, Paired, Context.contains, Context.filesystems,
      Context.processSummary]

/-- The host, its summaries and its services have different keys. -/
theorem sortKeys_nodup (ctx : Context) (identity : HostIdentityObservation)
    (uptime : Except CommonParseError UptimeBucket) (filesystems : Option FilesystemSummary)
    (processes : Option ProcessSummary) {observed : Observed}
    (hobserved : ServiceObservations observed) :
    ((ctx.host identity uptime ::
        ((ctx.summaries identity filesystems processes) ++ observed).map Prod.fst).map
      ResourceObservation.sortKey).Nodup := by
  have hkinds := (summaries_spec ctx identity filesystems processes).2
  have hkey : ∀ p ∈ ctx.summaries identity filesystems processes,
      p.1.kind = filesystemKind ∨ p.1.kind = processKind := by
    intro p hp
    have hmem := List.mem_map_of_mem (f := fun p : ResourceObservation × RelationObservation =>
      p.1.kind) hp
    rw [hkinds] at hmem
    rcases List.mem_append.mp hmem with h | h
    · obtain ⟨_, _, h⟩ := List.mem_map.mp h
      exact Or.inl h.symm
    · obtain ⟨_, _, h⟩ := List.mem_map.mp h
      exact Or.inr h.symm
  have hapart : ∀ a b : ResourceObservation, a.kind ≠ b.kind →
      ResourceObservation.sortKey a ≠ ResourceObservation.sortKey b := by
    intro a b hne heq
    exact hne (congrArg (fun key => (ofLex key).1) heq)
  have hhost : (ctx.host identity uptime).kind = hostKind := rfl
  have hsummaries : ((ctx.summaries identity filesystems processes).map
      fun p => ResourceObservation.sortKey p.1).Nodup := by
    refine List.Nodup.of_map (fun key => (ofLex key).1) ?_
    rw [List.map_map]
    show ((ctx.summaries identity filesystems processes).map fun p => p.1.kind).Nodup
    rw [hkinds]
    cases filesystems <;> cases processes <;> simp
    decide
  rw [List.map_cons, List.map_map, List.nodup_cons, List.map_append, List.nodup_append]
  refine ⟨?_, hsummaries, hobserved.distinct, ?_⟩
  · intro hmem
    rcases List.mem_append.mp hmem with h | h
    · obtain ⟨p, hp, heq⟩ := List.mem_map.mp h
      refine hapart p.1 (ctx.host identity uptime) ?_ heq
      rcases hkey p hp with h | h <;> rw [h, hhost] <;> decide
    · obtain ⟨p, hp, heq⟩ := List.mem_map.mp h
      refine hapart p.1 (ctx.host identity uptime) ?_ heq
      rcases hobserved.kinds p hp with h | h <;> rw [h, hhost] <;> decide
  · intro a ha b hb
    obtain ⟨p, hp, rfl⟩ := List.mem_map.mp ha
    obtain ⟨q, hq, rfl⟩ := List.mem_map.mp hb
    refine hapart p.1 q.1 ?_
    rcases hkey p hp with h | h <;> rcases hobserved.kinds q hq with h' | h' <;> rw [h, h'] <;>
      decide

/-- Relations to resources of different keys have different keys. -/
theorem relationKeys_nodup {pairs : Observed} (hpaired : Paired pairs)
    (hnodup : (pairs.map fun p => ResourceObservation.sortKey p.1).Nodup) :
    ((pairs.map Prod.snd).map RelationObservation.sortKey).Nodup := by
  refine List.Nodup.of_map
    (fun key => (toLex ((ofLex (ofLex (ofLex key).2).2).1, (ofLex (ofLex (ofLex (ofLex key).2).2).2).1) :
      ResourceKind ×ₗ ExternalId)) ?_
  have heq : ((pairs.map Prod.snd).map RelationObservation.sortKey).map
      (fun key => (toLex ((ofLex (ofLex (ofLex key).2).2).1,
        (ofLex (ofLex (ofLex (ofLex key).2).2).2).1) : ResourceKind ×ₗ ExternalId)) =
      pairs.map fun p => ResourceObservation.sortKey p.1 := by
    rw [List.map_map, List.map_map]
    apply List.map_congr_left
    intro p hp
    have htarget := hpaired p hp
    show (toLex (p.2.target.kind, p.2.target.externalId) : ResourceKind ×ₗ ExternalId) = _
    rw [htarget]
    rfl
  rw [heq]
  exact hnodup

/-- `sort_and_validate` takes a host and paired observations of different keys. -/
theorem sortAndValidate_ok {resources : List ResourceObservation}
    {relations : List RelationObservation} {host : ResourceObservation} {pairs : Observed}
    (hres : resources.Perm (host :: pairs.map Prod.fst))
    (hrel : relations.Perm (pairs.map Prod.snd)) (hpaired : Paired pairs)
    (hkeys : ((host :: pairs.map Prod.fst).map ResourceObservation.sortKey).Nodup) :
    ∃ relations', sortAndValidate resources relations = .ok (sortResources resources, relations') ∧
      (sortResources resources).Perm (host :: pairs.map Prod.fst) := by
  have hpairs : (pairs.map fun p => ResourceObservation.sortKey p.1).Nodup := by
    rw [List.map_cons, List.nodup_cons, List.map_map] at hkeys
    exact hkeys.2
  have hres' : (sortResources resources).Perm (host :: pairs.map Prod.fst) :=
    (List.perm_insertionSort _ _).trans hres
  have hrel' : (sortRelations relations).Perm (pairs.map Prod.snd) :=
    (List.perm_insertionSort _ _).trans hrel
  refine ⟨sortRelations relations, ?_, hres'⟩
  unfold sortAndValidate
  exact if_pos ⟨(hres'.map _).nodup_iff.mpr hkeys,
    (hrel'.map _).nodup_iff.mpr (relationKeys_nodup hpaired hpairs)⟩

/-! ## §3  The sync -/

/-- The probe's parser accepts the output. -/
def ParserAccepts (config : SshConnectionConfigV1) : ProbeId → List UInt8 → Prop
  | .hostIdentityV1, stdout => ∃ parsed, parseIdentity stdout = .ok parsed
  | .hostUptimeV1, stdout => ∃ parsed, parseUptime stdout = .ok parsed
  | .hostFilesystemsV1, stdout => ∃ parsed, parseFilesystems stdout = .ok parsed
  | .hostProcessSummaryV1, stdout => ∃ parsed, parseProcessSummary stdout = .ok parsed
  | .macosLaunchdServicesV1, stdout =>
      ∃ parsed, parseLaunchdServices stdout (some config.allowedServiceIds) = .ok parsed
  | .linuxSystemdServicesV1, stdout =>
      ∃ parsed, parseSystemdServices stdout (some config.allowedServiceIds) = .ok parsed

/-- Exactly one successful outcome, and its parser accepts the output. -/
def SshBatchOutput.Answers (batch : SshBatchOutput) (config : SshConnectionConfigV1)
    (id : ProbeId) : Prop :=
  ∃ stdout, batch.OnlySuccess id stdout ∧ ParserAccepts config id stdout

/-- The resources a probe's output stands for, if its parser accepts it. The uptime
is a column of the host. -/
def probeResources (ctx : Context) (config : SshConnectionConfigV1)
    (identity : HostIdentityObservation) :
    ProbeId → List UInt8 → Option (List ResourceObservation)
  | .hostIdentityV1, _ => some []
  | .hostUptimeV1, stdout =>
      (parseUptime stdout).toOption.map fun uptime => [ctx.host identity (.ok uptime)]
  | .hostFilesystemsV1, stdout =>
      (parseFilesystems stdout).toOption.map fun summary => [ctx.filesystems identity summary]
  | .hostProcessSummaryV1, stdout =>
      (parseProcessSummary stdout).toOption.map fun summary =>
        [ctx.processSummary identity summary]
  | .macosLaunchdServicesV1, stdout =>
      (mapLaunchdServices ctx stdout config.allowedServiceIds).toOption.map fun observed =>
        observed.map Prod.fst
  | .linuxSystemdServicesV1, stdout =>
      (mapSystemdServices ctx stdout config.allowedServiceIds).toOption.map fun observed =>
        observed.map Prod.fst

section

variable (decode : Value → Option SshConnectionConfigV1)
  (client : SshConnectionConfigV1 → ProbeClient) (now : Timestamp) (request : SyncRequest)

/-- The identity was read and the planned probes were answered by a batch. -/
structure Walk (config : SshConnectionConfigV1) (stdout : List UInt8)
    (identity : HostIdentityObservation) (childBatch : SshBatchOutput) : Prop where
  connection : validateConnection decode request.connection = .ok config
  request : validateSyncRequest request config = .ok ()
  identityBatch : ∃ batch, client config [.hostIdentityV1] = .ok batch ∧
    batch.Tolerable [.hostIdentityV1] ∧ batch.OnlySuccess .hostIdentityV1 stdout
  readable : parseIdentity stdout = .ok identity
  childBatch : client config (plannedProbes config identity.platform) = .ok childBatch

end

/-- The readings of the second batch. -/
def outputsOf (batch : SshBatchOutput) : ProbeOutputs :=
  batch.outcomes.filterMap ProbeOutcome.output?

def uptimeOf (batch : SshBatchOutput) : Except CommonParseError UptimeBucket :=
  readProbe uptimeModule parseUptime (outputOf (outputsOf batch) .hostUptimeV1)

def filesystemsOf (batch : SshBatchOutput) : Except CommonParseError FilesystemSummary :=
  readProbe filesystemModule parseFilesystems (outputOf (outputsOf batch) .hostFilesystemsV1)

def processesOf (batch : SshBatchOutput) : Except CommonParseError ProcessSummary :=
  readProbe processModule parseProcessSummary (outputOf (outputsOf batch) .hostProcessSummaryV1)

/-- The resources of the sync but the host, each with its relation. -/
def pairsOf (ctx : Context) (config : SshConnectionConfigV1) (identity : HostIdentityObservation)
    (batch : SshBatchOutput) : Observed :=
  ctx.summaries identity (filesystemsOf batch).toOption (processesOf batch).toOption ++
    (serviceResult config ctx identity.platform (outputsOf batch)).toOption.getD []

theorem errorOf_eq_none_iff {ε α : Type} {x : Except ε α} :
    errorOf x = none ↔ ∃ a, x = .ok a := by
  cases x with
  | error e => simp [errorOf]
  | ok a => simp [errorOf]

theorem readProbe_ok_iff {α : Type} {module_ : String}
    {parse : List UInt8 → Except CommonParseError α} {output : Option (List UInt8)} :
    (∃ a, readProbe module_ parse output = .ok a) ↔
      ∃ stdout, output = some stdout ∧ ∃ a, parse stdout = .ok a := by
  cases output with
  | none => simp [readProbe]
  | some stdout => simp [readProbe]

theorem state_moduleResult {module_ : String} {collected : Nat}
    {failure : Option CommonParseError} :
    (moduleResult module_ collected failure).state = .partial_ ↔ failure ≠ none := by
  cases failure <;> simp [moduleResult]

theorem partialModules_sortOutput {resources : List ResourceObservation}
    {relations : List RelationObservation} {uptimes filesystems processes : Nat}
    {uptime filesystem process : Option CommonParseError} :
    partialModules (sortOutput
        { resources := resources
          relations := relations
          modules :=
            [{ module_ := identityModule, collected := 1, bounded := false, state := .complete
               failure := none },
              moduleResult uptimeModule uptimes uptime,
              moduleResult filesystemModule filesystems filesystem,
              moduleResult processModule processes process] }) = [] ↔
      uptime = none ∧ filesystem = none ∧ process = none := by
  unfold partialModules sortOutput
  rw [List.map_eq_nil_iff, List.filter_eq_nil_iff]
  simp only [List.mem_insertionSort, List.mem_cons, List.not_mem_nil, or_false, decide_eq_true_eq,
    forall_eq_or_imp, forall_eq, state_moduleResult, not_not]
  simp

/-- `map_common` of a readable identity: the host and its summaries in order of
their keys, and a partial module for each probe without a reading. -/
theorem mapCommon_ok (ctx : Context) {stdout : List UInt8} {identity : HostIdentityObservation}
    (batch : SshBatchOutput) (hidentity : parseIdentity stdout = .ok identity) :
    ∃ output, mapCommon ctx (commonInput stdout (outputsOf batch)) = .ok output ∧
      output.resources.Perm (ctx.host identity (uptimeOf batch) ::
        (ctx.summaries identity (filesystemsOf batch).toOption
          (processesOf batch).toOption).map Prod.fst) ∧
      output.relations.Perm ((ctx.summaries identity (filesystemsOf batch).toOption
        (processesOf batch).toOption).map Prod.snd) ∧
      (partialModules output = [] ↔
        (∃ a, uptimeOf batch = .ok a) ∧ (∃ a, filesystemsOf batch = .ok a) ∧
          ∃ a, processesOf batch = .ok a) := by
  unfold mapCommon
  rw [show readProbe identityModule parseIdentity (commonInput stdout (outputsOf batch)).identity =
    .ok identity from hidentity]
  refine ⟨_, rfl, List.perm_insertionSort _ _, List.perm_insertionSort _ _, ?_⟩
  rw [partialModules_sortOutput, errorOf_eq_none_iff, errorOf_eq_none_iff, errorOf_eq_none_iff]
  rfl

/-- The services are read exactly when none are asked for or their probe answered. -/
theorem serviceResult_ok_iff {config : SshConnectionConfigV1} {ctx : Context}
    {platform : HostPlatform} {batch : SshBatchOutput} {planned : List ProbeId}
    (ht : batch.Tolerable planned) :
    (∃ observed, serviceResult config ctx platform (outputsOf batch) = .ok observed) ↔
      config.allowedServiceIds = [] ∨ batch.Answers config (serviceProbe platform) := by
  unfold serviceResult
  by_cases hnone : config.allowedServiceIds = []
  · simp [hnone]
  · rw [if_neg hnone]
    simp only [hnone, false_or]
    have hmap : ∀ stdout, (∃ observed,
        mapServices ctx platform stdout config.allowedServiceIds = .ok observed) ↔
          ParserAccepts config (serviceProbe platform) stdout := by
      intro stdout
      cases platform with
      | darwin =>
          unfold mapServices mapLaunchdServices
          simp only [serviceProbe, ParserAccepts]
          cases parseLaunchdServices stdout (some config.allowedServiceIds) <;> simp [Except.map]
      | linux =>
          unfold mapServices mapSystemdServices
          simp only [serviceProbe, ParserAccepts]
          cases parseSystemdServices stdout (some config.allowedServiceIds) <;> simp [Except.map]
    constructor
    · rintro ⟨observed, h⟩
      split at h
      · cases h
      · rename_i stdout hout
        exact ⟨stdout, (outputOf_eq_some_iff ht).mp hout, (hmap stdout).mp ⟨observed, h⟩⟩
    · rintro ⟨stdout, honly, haccepts⟩
      have hout : outputOf (outputsOf batch) (serviceProbe platform) = some stdout :=
        (outputOf_eq_some_iff ht).mpr honly
      obtain ⟨observed, h⟩ := (hmap stdout).mpr haccepts
      exact ⟨observed, by rw [hout]; exact h⟩

/-- Nothing failed exactly when every planned probe answered. -/
theorem no_failures_iff {config : SshConnectionConfigV1} (ctx : Context)
    {platform : HostPlatform} {batch : SshBatchOutput}
    (ht : batch.Tolerable (plannedProbes config platform)) :
    (batch.outcomes.filterMap ProbeOutcome.failure? = [] ∧
        ((∃ a, uptimeOf batch = .ok a) ∧ (∃ a, filesystemsOf batch = .ok a) ∧
          ∃ a, processesOf batch = .ok a) ∧
        ∃ observed, serviceResult config ctx platform (outputsOf batch) = .ok observed) ↔
      ∀ id ∈ plannedProbes config platform, batch.Answers config id := by
  have hread : ∀ {α : Type} {module_ : String} {parse : List UInt8 → Except CommonParseError α}
      {id : ProbeId}, (∃ a, readProbe module_ parse (outputOf (outputsOf batch) id) = .ok a) ↔
        ∃ stdout, batch.OnlySuccess id stdout ∧ ∃ a, parse stdout = .ok a := by
    intro α module_ parse id
    rw [readProbe_ok_iff]
    have houtput : ∀ stdout, outputOf (outputsOf batch) id = some stdout ↔
        batch.OnlySuccess id stdout := fun stdout => outputOf_eq_some_iff ht
    simp only [houtput]
  unfold uptimeOf filesystemsOf processesOf
  rw [hread, hread, hread, serviceResult_ok_iff ht]
  unfold plannedProbes
  constructor
  · rintro ⟨_, ⟨huptime, hfilesystems, hprocesses⟩, hservices⟩ id hid
    rcases List.mem_append.mp hid with hid | hid
    · simp only [List.mem_cons, List.not_mem_nil, or_false] at hid
      rcases hid with rfl | rfl | rfl
      · exact huptime
      · exact hfilesystems
      · exact hprocesses
    · split at hid
      · cases hid
      · rename_i hnone
        rw [List.mem_singleton.mp hid]
        exact hservices.resolve_left hnone
  · intro h
    refine ⟨?_, ⟨h .hostUptimeV1 (by simp), h .hostFilesystemsV1 (by simp),
      h .hostProcessSummaryV1 (by simp)⟩, ?_⟩
    · -- a failure is an outcome of a planned probe, which answered with a success
      rw [failures_eq_nil_iff]
      intro id failure hmem
      obtain ⟨stdout, ⟨elapsedMs, hfilter⟩, _⟩ := h id (ht.planned _ hmem)
      have hself := filter_of_mem ht.distinct hmem
      have hsame : (ProbeOutcome.failure id failure).probeId = id := rfl
      rw [hsame, hfilter] at hself
      cases hself
    · by_cases hnone : config.allowedServiceIds = []
      · exact Or.inl hnone
      · exact Or.inr (h _ (List.mem_append_right _ (by simp [hnone])))

section

variable {decode : Value → Option SshConnectionConfigV1}
  {client : SshConnectionConfigV1 → ProbeClient} {request : SyncRequest}
  {config : SshConnectionConfigV1} {stdout : List UInt8} {identity : HostIdentityObservation}
  {childBatch : SshBatchOutput}

theorem not_incremental (h : validateSyncRequest request config = .ok ()) :
    request.mode ≠ .incremental := by
  intro hm
  unfold validateSyncRequest at h
  rw [if_pos (Or.inr hm)] at h
  cases h

theorem validateFor_finishSync {resources : List ResourceObservation}
    {relations : List RelationObservation} {failures : ModuleFailures}
    {summary : ProviderRequestSummary} (hmode : request.mode ≠ .incremental)
    (hfull : failures = [] → request.mode ≠ .targeted) :
    (finishSync request resources relations failures summary).validateFor request = .ok () := by
  rw [SyncOutcome.validateFor_ok_iff]
  unfold finishSync
  cases failures with
  | nil =>
      have hmode' : request.mode = .full := by
        have := hfull rfl
        cases hm : request.mode <;> simp_all
      refine ⟨?_, rfl, ?_⟩
      · show request.mode.accepts _ = true
        rw [hmode']
        rfl
      · simp [SyncOutcome.batch, SyncCoverage.isPartial]
  | cons failure rest =>
      refine ⟨?_, rfl, ?_⟩
      · show request.mode.accepts _ = true
        cases hm : request.mode with
        | full => rfl
        | targeted => rfl
        | incremental => exact absurd hm hmode
      · simp [SyncOutcome.batch, SyncCoverage.isPartial]

/-- A sync whose batches are taken returns the collected modules; it has no failure
exactly when every planned probe answered and the mode is not targeted. -/
theorem sync_of_walk (now : Timestamp) (w : Walk decode client request config stdout identity childBatch)
    (ht : childBatch.Tolerable (plannedProbes config identity.platform)) :
    ∃ resources relations failures summary,
      sync decode client now request = .ok (finishSync request resources relations failures summary) ∧
      resources.Perm ((contextOf config request now).host identity (uptimeOf childBatch) ::
        (pairsOf (contextOf config request now) config identity childBatch).map Prod.fst) ∧
      (failures = [] ↔ (∀ id ∈ plannedProbes config identity.platform,
        childBatch.Answers config id) ∧ request.mode ≠ .targeted) := by
  set ctx := contextOf config request now with hctx
  obtain ⟨batch, hbatch, htb, honly⟩ := w.identityBatch
  have hstdout := identityStdout_ok_iff.mpr ⟨htb, honly⟩
  have hsplit : splitOutcomes (plannedProbes config identity.platform) [] childBatch.outcomes =
      .ok (outputsOf childBatch, childBatch.outcomes.filterMap ProbeOutcome.failure?) :=
    splitOutcomes_ok (fun o ho => ⟨ht.planned o ho, List.not_mem_nil⟩) ht.distinct ht.calm
  obtain ⟨common, hcommon, hresources, hrelations, hpartial⟩ := mapCommon_ok ctx childBatch w.readable
  have hnone := no_failures_iff ctx ht
  have hservices : ServiceObservations
      ((serviceResult config ctx identity.platform (outputsOf childBatch)).toOption.getD []) :=
    serviceObservations_getD
  generalize hresult : serviceResult config ctx identity.platform (outputsOf childBatch) = services
    at hservices hnone
  have hpairs : pairsOf ctx config identity childBatch =
      ctx.summaries identity (filesystemsOf childBatch).toOption
        (processesOf childBatch).toOption ++ services.toOption.getD [] := by
    unfold pairsOf
    rw [hresult]
  have hres : (common.resources ++ (services.toOption.getD []).map Prod.fst).Perm
      (ctx.host identity (uptimeOf childBatch) ::
        (pairsOf ctx config identity childBatch).map Prod.fst) := by
    rw [hpairs, List.map_append]
    exact hresources.append_right _
  have hrel : (common.relations ++ (services.toOption.getD []).map Prod.snd).Perm
      ((pairsOf ctx config identity childBatch).map Prod.snd) := by
    rw [hpairs, List.map_append]
    exact hrelations.append_right _
  have hpaired : Paired (pairsOf ctx config identity childBatch) := by
    rw [hpairs]
    exact paired_append (summaries_spec _ _ _ _).1 hservices.paired
  have hkeys : ((ctx.host identity (uptimeOf childBatch) ::
      (pairsOf ctx config identity childBatch).map Prod.fst).map
        ResourceObservation.sortKey).Nodup := by
    rw [hpairs]
    exact sortKeys_nodup ctx identity (uptimeOf childBatch) _ _ hservices
  obtain ⟨relations, hsort, hsorted⟩ := sortAndValidate_ok hres hrel hpaired hkeys
  have hservice : serviceFailures identity.platform services = [] ↔
      ∃ observed, services = .ok observed := by
    cases services <;> simp [serviceFailures]
  have htargeted : targetedFailures request = [] ↔ request.mode ≠ .targeted := by
    simp [targetedFailures]
  generalize hfailures : childBatch.outcomes.filterMap ProbeOutcome.failure? ++
    partialModules common ++ serviceFailures identity.platform services ++
      targetedFailures request = failures
  have hiff : failures = [] ↔
      (∀ id ∈ plannedProbes config identity.platform, childBatch.Answers config id) ∧
        request.mode ≠ .targeted := by
    rw [← hnone, ← hfailures]
    simp only [List.append_eq_nil_iff, hpartial, hservice, htargeted, and_assoc]
  refine ⟨_, relations, failures, addSummary (addSummary {} batch) childBatch, ?_, hsorted, hiff⟩
  unfold sync
  simp only [w.connection, w.request, hbatch, hstdout, w.readable, w.childBatch, hsplit, ← hctx,
    hcommon, hresult, hsort, hfailures, Except.mapError, bind, Except.bind]
  rw [validateFor_finishSync (not_incremental w.request) (fun h => (hiff.mp h).2)]

/-- A sync that returns has walked to the end over batches it could take. -/
theorem walk_of_sync {now : Timestamp} {outcome : SyncOutcome} (h : sync decode client now request = .ok outcome) :
    ∃ config stdout identity childBatch,
      Walk decode client request config stdout identity childBatch ∧
      childBatch.Tolerable (plannedProbes config identity.platform) := by
  unfold sync at h
  obtain ⟨config, hconfig, h⟩ := bind_ok h
  obtain ⟨_, hrequest, h⟩ := bind_ok h
  obtain ⟨batch, hbatch, h⟩ := bind_ok h
  obtain ⟨stdout, hstdout, h⟩ := bind_ok h
  obtain ⟨identity, hidentity, h⟩ := bind_ok h
  obtain ⟨childBatch, hchild, h⟩ := bind_ok h
  obtain ⟨parts, hsplit, _⟩ := bind_ok h
  have hreadable : parseIdentity stdout = .ok identity := by
    cases hparse : parseIdentity stdout with
    | error e =>
        rw [hparse] at hidentity
        cases hidentity
    | ok parsed =>
        rw [hparse] at hidentity
        cases hidentity
        rfl
  obtain ⟨htb, honly⟩ := identityStdout_ok_iff.mp hstdout
  obtain ⟨hplanned, hdistinct, hcalm⟩ := splitOutcomes_tolerable hsplit
  exact ⟨config, stdout, identity, childBatch,
    ⟨hconfig, hrequest, ⟨batch, hbatch, htb, honly⟩, hreadable, hchild⟩,
    ⟨fun o ho => (hplanned o ho).1, hdistinct, hcalm⟩⟩

/-- The resources of a planned probe that succeeded and parsed are collected. -/
theorem probeResources_collected {ctx : Context}
    (ht : childBatch.Tolerable (plannedProbes config identity.platform)) {id : ProbeId}
    (hid : id ∈ plannedProbes config identity.platform) (honly : childBatch.OnlySuccess id stdout)
    {resources : List ResourceObservation}
    (h : probeResources ctx config identity id stdout = some resources) :
    ∀ r ∈ resources, r ∈ ctx.host identity (uptimeOf childBatch) ::
      (pairsOf ctx config identity childBatch).map Prod.fst := by
  have hout : outputOf (outputsOf childBatch) id = some stdout :=
    (outputOf_eq_some_iff ht).mpr honly
  have hservice : ∀ observed, mapServices ctx identity.platform stdout config.allowedServiceIds =
      .ok observed → id = serviceProbe identity.platform → config.allowedServiceIds ≠ [] →
      ∀ r ∈ observed.map Prod.fst, r ∈ (pairsOf ctx config identity childBatch).map Prod.fst := by
    intro observed hmap hprobe hsome r hr
    unfold pairsOf serviceResult
    rw [if_neg hsome, ← hprobe, hout]
    show r ∈ (_ ++ (mapServices ctx identity.platform stdout
      config.allowedServiceIds).toOption.getD []).map Prod.fst
    rw [hmap, List.map_append]
    exact List.mem_append_right _ hr
  have hplanned : id ∈ [ProbeId.hostUptimeV1, .hostFilesystemsV1, .hostProcessSummaryV1] ∨
      (id = serviceProbe identity.platform ∧ config.allowedServiceIds ≠ []) := by
    unfold plannedProbes at hid
    rcases List.mem_append.mp hid with hid | hid
    · exact Or.inl hid
    · split at hid
      · cases hid
      · rename_i hsome
        exact Or.inr ⟨List.mem_singleton.mp hid, hsome⟩
  cases id with
  | hostIdentityV1 =>
      cases h
      simp
  | hostUptimeV1 =>
      obtain ⟨uptime, huptime, rfl⟩ := Option.map_eq_some_iff.mp h
      have hread : uptimeOf childBatch = .ok uptime := by
        unfold uptimeOf
        rw [hout]
        exact toOption_eq_some_iff.mp huptime
      intro r hr
      rw [List.mem_singleton.mp hr, hread]
      exact List.mem_cons_self
  | hostFilesystemsV1 =>
      obtain ⟨summary, hsummary, rfl⟩ := Option.map_eq_some_iff.mp h
      have hread : filesystemsOf childBatch = .ok summary := by
        unfold filesystemsOf
        rw [hout]
        exact toOption_eq_some_iff.mp hsummary
      intro r hr
      rw [List.mem_singleton.mp hr]
      refine List.mem_cons_of_mem _ ?_
      unfold pairsOf
      rw [hread]
      exact List.mem_map.mpr ⟨_, List.mem_append_left _ (List.mem_append_left _
        List.mem_cons_self), rfl⟩
  | hostProcessSummaryV1 =>
      obtain ⟨summary, hsummary, rfl⟩ := Option.map_eq_some_iff.mp h
      have hread : processesOf childBatch = .ok summary := by
        unfold processesOf
        rw [hout]
        exact toOption_eq_some_iff.mp hsummary
      intro r hr
      rw [List.mem_singleton.mp hr]
      refine List.mem_cons_of_mem _ ?_
      unfold pairsOf
      rw [hread]
      exact List.mem_map.mpr ⟨_, List.mem_append_left _ (List.mem_append_right _
        List.mem_cons_self), rfl⟩
  | macosLaunchdServicesV1 =>
      obtain ⟨observed, hobserved, rfl⟩ := Option.map_eq_some_iff.mp h
      obtain ⟨hprobe, hsome⟩ := hplanned.resolve_left (by decide)
      have hmap : mapServices ctx identity.platform stdout config.allowedServiceIds =
          .ok observed := by
        cases hp : identity.platform with
        | linux =>
            rw [hp] at hprobe
            cases hprobe
        | darwin =>
            unfold mapServices
            rw [toOption_eq_some_iff.mp hobserved]
      exact fun r hr => List.mem_cons_of_mem _ (hservice observed hmap hprobe hsome r hr)
  | linuxSystemdServicesV1 =>
      obtain ⟨observed, hobserved, rfl⟩ := Option.map_eq_some_iff.mp h
      obtain ⟨hprobe, hsome⟩ := hplanned.resolve_left (by decide)
      have hmap : mapServices ctx identity.platform stdout config.allowedServiceIds =
          .ok observed := by
        cases hp : identity.platform with
        | darwin =>
            rw [hp] at hprobe
            cases hprobe
        | linux =>
            unfold mapServices
            rw [toOption_eq_some_iff.mp hobserved]
      exact fun r hr => List.mem_cons_of_mem _ (hservice observed hmap hprobe hsome r hr)

/-- The walk of a request is unique. -/
theorem Walk.unique {config' : SshConnectionConfigV1} {stdout' : List UInt8}
    {identity' : HostIdentityObservation} {childBatch' : SshBatchOutput}
    (w : Walk decode client request config stdout identity childBatch)
    (w' : Walk decode client request config' stdout' identity' childBatch') :
    config' = config ∧ identity' = identity ∧ childBatch' = childBatch := by
  have hconfig : config' = config := by
    have h := w'.connection
    rw [w.connection] at h
    exact (Except.ok.inj h).symm
  subst hconfig
  obtain ⟨batch, hbatch, htb, honly⟩ := w.identityBatch
  obtain ⟨batch', hbatch', htb', honly'⟩ := w'.identityBatch
  have hstdout := identityStdout_ok_iff.mpr ⟨htb, honly⟩
  have hstdout' := identityStdout_ok_iff.mpr ⟨htb', honly'⟩
  rw [hbatch] at hbatch'
  cases hbatch'
  rw [hstdout] at hstdout'
  cases hstdout'
  have hidentity := w'.readable
  rw [w.readable] at hidentity
  cases hidentity
  have hchild := w'.childBatch
  rw [w.childBatch] at hchild
  cases hchild
  exact ⟨rfl, rfl, rfl⟩

end

/-- An SSH sync is honest about its coverage: it is authoritative only for a full
sync whose planned probes each have one successful, accepted outcome; a batch it
cannot take fails it; and where the identity was read and the batches were taken it
is partial otherwise, with the resources of every probe that succeeded and parsed. -/
theorem sync_coverage (decode : Value → Option SshConnectionConfigV1)
    (client : SshConnectionConfigV1 → ProbeClient) (now : Timestamp) (request : SyncRequest) :
    (∀ outcome scope, sync decode client now request = .ok outcome →
      outcome.batch.coverage = .authoritativeFull scope →
      request.mode = .full ∧
        ∃ config identityBatch stdout identity childBatch,
          validateConnection decode request.connection = .ok config ∧
          client config [.hostIdentityV1] = .ok identityBatch ∧
          identityBatch.OnlySuccess .hostIdentityV1 stdout ∧
          parseIdentity stdout = .ok identity ∧
          client config (plannedProbes config identity.platform) = .ok childBatch ∧
          ∀ id ∈ plannedProbes config identity.platform, childBatch.Answers config id) ∧
    (∀ config identityBatch, validateConnection decode request.connection = .ok config →
      client config [.hostIdentityV1] = .ok identityBatch →
      ¬ identityBatch.Tolerable [.hostIdentityV1] →
      ∃ e, sync decode client now request = .error e) ∧
    (∀ config stdout identity childBatch,
      Walk decode client request config stdout identity childBatch →
      ¬ childBatch.Tolerable (plannedProbes config identity.platform) →
      ∃ e, sync decode client now request = .error e) ∧
    ∀ config stdout identity childBatch,
      Walk decode client request config stdout identity childBatch →
      childBatch.Tolerable (plannedProbes config identity.platform) →
      ∃ outcome, sync decode client now request = .ok outcome ∧
        (¬ (request.mode = .full ∧
            ∀ id ∈ plannedProbes config identity.platform, childBatch.Answers config id) →
          ∃ batch failure reason, outcome = .partial_ batch failure ∧
            batch.coverage = .partial_ (some request.scope) reason) ∧
        (∃ uptime, (contextOf config request now).host identity uptime ∈ outcome.batch.resources) ∧
        ∀ id ∈ plannedProbes config identity.platform, ∀ output,
          childBatch.OnlySuccess id output → ∀ resources,
            probeResources (contextOf config request now) config identity id output =
              some resources → ∀ r ∈ resources, r ∈ outcome.batch.resources := by
  have hbatch : ∀ resources relations failures summary,
      (finishSync request resources relations failures summary).batch.resources = resources := by
    intro resources relations failures summary
    cases failures <;> rfl
  refine ⟨?_, ?_, ?_, ?_⟩
  · intro outcome scope h hcoverage
    obtain ⟨config, stdout, identity, childBatch, w, ht⟩ := walk_of_sync h
    obtain ⟨resources, relations, failures, summary, hsync, _, hiff⟩ := sync_of_walk now w ht
    rw [h] at hsync
    cases hsync
    have hnil : failures = [] := by
      cases failures with
      | nil => rfl
      | cons failure rest => cases hcoverage
    obtain ⟨hanswers, hmode⟩ := hiff.mp hnil
    obtain ⟨batch, hidentity, _, honly⟩ := w.identityBatch
    refine ⟨?_, config, batch, stdout, identity, childBatch, w.connection, hidentity, honly,
      w.readable, w.childBatch, hanswers⟩
    cases hm : request.mode with
    | full => rfl
    | targeted => exact absurd hm hmode
    | incremental => exact absurd hm (not_incremental w.request)
  · intro config identityBatch hconfig hidentity hnot
    cases h : sync decode client now request with
    | error e => exact ⟨e, rfl⟩
    | ok outcome =>
        obtain ⟨config', _, _, _, w, _⟩ := walk_of_sync h
        obtain ⟨batch, hbatch', htb, _⟩ := w.identityBatch
        have hsame := w.connection
        rw [hconfig] at hsame
        cases hsame
        rw [hidentity] at hbatch'
        cases hbatch'
        exact absurd htb hnot
  · intro config stdout identity childBatch w hnot
    cases h : sync decode client now request with
    | error e => exact ⟨e, rfl⟩
    | ok outcome =>
        obtain ⟨config', _, _, _, w', ht⟩ := walk_of_sync h
        obtain ⟨rfl, rfl, rfl⟩ := w.unique w'
        exact absurd ht hnot
  · intro config stdout identity childBatch w ht
    obtain ⟨resources, relations, failures, summary, hsync, hperm, hiff⟩ :=
      sync_of_walk now w ht
    refine ⟨_, hsync, ?_, ?_, ?_⟩
    · intro hnot
      cases failures with
      | nil =>
          obtain ⟨hanswers, hmode⟩ := hiff.mp rfl
          refine absurd ⟨?_, hanswers⟩ hnot
          cases hm : request.mode with
          | full => rfl
          | targeted => exact absurd hm hmode
          | incremental => exact absurd hm (not_incremental w.request)
      | cons failure rest => exact ⟨_, _, _, rfl, rfl⟩
    · rw [hbatch]
      exact ⟨_, hperm.mem_iff.mpr List.mem_cons_self⟩
    · intro id hid output honly rs hrs r hr
      rw [hbatch]
      exact hperm.mem_iff.mpr (probeResources_collected ht hid honly hrs r hr)

namespace Fixture

def hostIdentity : HostIdentity := ⟨"9f7fd5e6-3bc8-4daa-ae6b-9dfdffb54743", by decide⟩

def config : SshConnectionConfigV1 where
  hostIdentity := hostIdentity
  hostAlias := ⟨"lab", by simp [IsHostAlias]⟩
  connectTimeoutSecs := 10
  probeProfile := .baselineV1
  allowedServiceIds := [⟨"a.service", by decide⟩]

def request : SyncRequest where
  syncRunId := ⟨"r", trimmed_r⟩
  connection :=
    { connectionId := ⟨"c", trimmed_c⟩
      connectorType := .ssh
      config := .null
      configSchemaVersion := .one }
  mode := .full
  scope := ⟨"all", trimmed_all⟩
  cursor := none
  targetedResources := []

theorem now_le : 1000 ≤ maxTimestampMillis := by decide

def now : Timestamp := ⟨1000, now_le⟩

def success (id : ProbeId) (text : String) : ProbeOutcome :=
  .success { probeId := id, stdout := text.toUTF8.data.toList, elapsedMs := 1 }

def batch (outcomes : List ProbeOutcome) : SshBatchOutput where
  outcomes := outcomes
  elapsedMs := 5
  outputBytes := 100

/-- A client whose host answers the identity probe with `identity` and the others
with `children`. -/
def client (identity : String) (children : List ProbeOutcome) :
    SshConnectionConfigV1 → ProbeClient :=
  fun _ probes =>
    if probes = [.hostIdentityV1] then .ok (batch [success .hostIdentityV1 identity])
    else .ok (batch children)

/-- The uptime is missing and the process summary is not text the parser takes. -/
def partialChildren : List ProbeOutcome :=
  [success .linuxSystemdServicesV1 "a.service loaded active running",
    success .hostFilesystemsV1 "nothing", success .hostProcessSummaryV1 "S init\nR top"]

end Fixture

open Fixture in
/-- An identity probe that succeeds with an unreadable output fails the sync. -/
theorem unreadable_identity_fails :
    (batch [success .hostIdentityV1 "?"]).Tolerable [.hostIdentityV1] ∧
      (batch [success .hostIdentityV1 "?"]).OnlySuccess .hostIdentityV1 "?".toUTF8.data.toList ∧
      client "?" [] config [.hostIdentityV1] = .ok (batch [success .hostIdentityV1 "?"]) ∧
      sync (fun _ => some config) (client "?" []) now request =
        .error (CommonParseError.connectorFailure ⟨identityModule, .malformed⟩) := by
  refine ⟨⟨by decide, by decide, ?_⟩, ⟨1, rfl⟩, rfl, rfl⟩
  intro id failure h
  cases List.mem_singleton.mp h

open Fixture in
/-- A Linux host with one allowed service; two of its four other probes are read. -/
theorem sync_coverage_linux :
    ∃ outcome, sync (fun _ => some config) (client "Linux\nx86_64\n" partialChildren) now request =
        .ok outcome ∧
      ∃ batch failure reason, outcome = .partial_ batch failure ∧
        batch.coverage = .partial_ (some request.scope) reason := by
  have hwalk : Walk (fun _ => some config) (client "Linux\nx86_64\n" partialChildren) request config
      "Linux\nx86_64\n".toUTF8.data.toList { platform := .linux, architecture := "x86_64" }
      (batch partialChildren) := by
    refine ⟨rfl, rfl, ⟨batch [success .hostIdentityV1 "Linux\nx86_64\n"], rfl,
      ⟨by decide, by decide, ?_⟩, 1, rfl⟩, rfl, rfl⟩
    intro id failure h
    cases List.mem_singleton.mp h
  have htolerable : (batch partialChildren).Tolerable (plannedProbes config .linux) := by
    refine ⟨by decide, by decide, ?_⟩
    intro id failure h
    simp [batch, partialChildren, success] at h
  obtain ⟨outcome, hsync, hpartial, _⟩ :=
    (sync_coverage (fun _ => some config) (client "Linux\nx86_64\n" partialChildren) now
      request).2.2.2 _ _ _ _ hwalk htolerable
  refine ⟨outcome, hsync, hpartial ?_⟩
  rintro ⟨_, hanswers⟩
  obtain ⟨stdout, ⟨elapsedMs, hfilter⟩, _⟩ := hanswers .hostUptimeV1 (by decide)
  cases hfilter

end Ssh

end NextInfra
