import NextInfra.Cloud.Sync
import NextInfra.Cloud.Windows

/-!
# What a cloud sync claims to have seen

The account holds one list for each module, one of domains, and one of records for each
domain. A complete outcome has observed all of it but the records the DNS walk leaves
out, and is honest exactly when these are observed as other records.
-/

namespace NextInfra

namespace Cloud

section

variable {ρ : Type} {p : Provider ρ} {transport : Transport ρ}

/-! ## §1  The account -/

/-- The lists of an account. -/
structure Holdings where
  items : Module → List ResourceDto
  domains : List String
  records : String → List ResourceDto

/-- Every page a sync reads is the window of the account's list. -/
structure Provider.Serves (p : Provider ρ) (transport : Transport ρ) (session : Session)
    (holdings : Holdings) : Prop where
  items : ∀ m ∈ p.modules, m.module ≠ p.dns →
    (p.moduleList session m).Serves transport (p.modulePageSize m.module) (holdings.items m)
  domains : (p.domainList session).Serves transport pageSize holdings.domains
  records : ∀ domain ∈ holdings.domains,
    (p.recordList session domain).Serves transport pageSize (holdings.records domain)

/-- Every item of the account is among the resources, as its connector observes it. -/
structure Provider.Observes (p : Provider ρ) (session : Session) (holdings : Holdings)
    (resources : List ResourceObservation) : Prop where
  items : ∀ m ∈ p.modules, m.module ≠ p.dns →
    ∀ item ∈ holdings.items m, ∃ r ∈ resources, p.observe session m.kind item = .ok r
  records : ∀ domain ∈ holdings.domains,
    ∀ item ∈ holdings.records domain, ∃ r ∈ resources, p.observe session p.dnsKind item = .ok r

/-- The records a DNS walk without a failure takes. -/
def Holdings.recordsTaken (holdings : Holdings) : List ResourceDto :=
  recordsSeen 0 ((holdings.domains.take maxDnsDomains).map holdings.records)

/-- No record is left out: every one of every domain is taken, or observed as one that is. -/
def Provider.NoneLeftOut (p : Provider ρ) (session : Session) (holdings : Holdings) : Prop :=
  ∀ domain ∈ holdings.domains, ∀ item ∈ holdings.records domain,
    ∃ taken ∈ holdings.recordsTaken,
      p.observe session p.dnsKind taken = p.observe session p.dnsKind item

/-! ## §2  The modules -/

/-- The module was read to its end. -/
def Provider.ReadWell (p : Provider ρ) (transport : Transport ρ) (session : Session) (turns : Nat)
    (m : Module) (fetch : ModuleFetch) : Prop :=
  (∃ number next, p.fetch transport session turns m number = some (fetch, next)) ∧
    fetch.failure = none

/-- Without a failure at the end, every module was read to its end. -/
theorem fetchAll_ok {session : Session} {turns : Nat} {modules : List Module} {number next : Nat}
    {gathered gathered' : Gathered}
    (h : p.fetchAll transport session turns modules number gathered = some (gathered', next))
    (hnone : gathered'.error = none) :
    gathered.error = none ∧ ∃ fetches,
      List.Forall₂ (p.ReadWell transport session turns) modules fetches ∧
      gathered'.resources = gathered.resources ++ fetches.flatMap ModuleFetch.resources := by
  induction modules generalizing number gathered with
  | nil =>
      cases h
      exact ⟨hnone, [], .nil, by simp⟩
  | cons m modules ih =>
      unfold Provider.fetchAll at h
      obtain ⟨⟨fetch, following⟩, hfetch, hrest⟩ := Option.bind_eq_some_iff.mp h
      obtain ⟨herror, fetches, hall, hresources⟩ := ih hrest
      obtain ⟨hclean, hbefore⟩ := Option.or_eq_none_iff.mp herror
      refine ⟨hbefore, fetch :: fetches, .cons ⟨⟨number, following, hfetch⟩, hclean⟩ hall, ?_⟩
      rw [hresources, List.flatMap_cons, List.append_assoc]

/-- What a module read to its end has observed: its items, or the records taken. -/
theorem readWell_observed {session : Session} {turns : Nat} {holdings : Holdings}
    (hserves : p.Serves transport session holdings) {m : Module} (hm : m ∈ p.modules)
    {fetch : ModuleFetch} (h : p.ReadWell transport session turns m fetch) :
    if m.module = p.dns then
      holdings.recordsTaken.mapM (p.observe session p.dnsKind) = .ok fetch.resources
    else (holdings.items m).mapM (p.observe session m.kind) = .ok fetch.resources := by
  obtain ⟨⟨number, next, hfetch⟩, hclean⟩ := h
  unfold Provider.fetch at hfetch
  split at hfetch
  · rename_i hdns
    rw [if_pos hdns]
    exact fetchDns_ok hserves.domains hserves.records hfetch hclean
  · rename_i hdns
    rw [if_neg hdns]
    obtain rfl := congrArg Prod.fst (Option.some.inj hfetch)
    exact fetchModule_complete (p.sizes_fit m hm).1 (hserves.items m hm hdns) hclean

theorem mem_of_readWell {session : Session} {turns : Nat} {modules : List Module}
    {fetches : List ModuleFetch}
    (h : List.Forall₂ (p.ReadWell transport session turns) modules fetches) :
    (∀ m ∈ modules, ∃ fetch ∈ fetches, p.ReadWell transport session turns m fetch) ∧
      ∀ fetch ∈ fetches, ∃ m ∈ modules, p.ReadWell transport session turns m fetch := by
  induction h with
  | nil => simp
  | cons hab _ ih =>
      rename_i m fetch modules fetches _
      constructor
      · intro m' hm'
        rcases List.mem_cons.mp hm' with rfl | hm'
        · exact ⟨fetch, List.mem_cons_self, hab⟩
        · obtain ⟨f, hf, hread⟩ := ih.1 m' hm'
          exact ⟨f, List.mem_cons_of_mem _ hf, hread⟩
      · intro f hf
        rcases List.mem_cons.mp hf with rfl | hf
        · exact ⟨m, List.mem_cons_self, hab⟩
        · obtain ⟨m', hm', hread⟩ := ih.2 f hf
          exact ⟨m', List.mem_cons_of_mem _ hm', hread⟩

/-- What was gathered without a failure observes the account exactly when no record is
left out. -/
theorem observes_iff {session : Session} {turns : Nat} {holdings : Holdings}
    (hserves : p.Serves transport session holdings) {gathered : Gathered} {next : Nat}
    (h : p.fetchAll transport session turns p.modules 0 ⟨[], none⟩ = some (gathered, next))
    (hnone : gathered.error = none) :
    p.Observes session holdings gathered.sorted ↔ p.NoneLeftOut session holdings := by
  obtain ⟨_, fetches, hall, hresources⟩ := fetchAll_ok h hnone
  obtain ⟨hfetchOf, hmoduleOf⟩ := mem_of_readWell hall
  have hmem : ∀ r, r ∈ gathered.sorted ↔ ∃ fetch ∈ fetches, r ∈ fetch.resources := by
    intro r
    unfold Gathered.sorted
    rw [List.mem_insertionSort, hresources, List.nil_append, List.mem_flatMap]
  obtain ⟨dns, hdns, hname⟩ := p.dns_listed
  obtain ⟨dnsFetch, hdnsFetch, hdnsRead⟩ := hfetchOf dns hdns
  have htaken := readWell_observed hserves hdns hdnsRead
  rw [if_pos hname] at htaken
  constructor
  · intro hobserves domain hdomain item hitem
    obtain ⟨r, hr, hobs⟩ := hobserves.records domain hdomain item hitem
    -- a resource of the DNS kind comes from the DNS walk
    obtain ⟨fetch, hfetch, hrf⟩ := (hmem r).mp hr
    obtain ⟨m, hm, hread⟩ := hmoduleOf fetch hfetch
    have hseen := readWell_observed hserves hm hread
    split at hseen
    · obtain ⟨taken, htakenMem, htakenObs⟩ := Fallible.argument_of_mapM hseen hrf
      exact ⟨taken, htakenMem, htakenObs.trans hobs.symm⟩
    · rename_i hother
      obtain ⟨v, _, hv⟩ := Fallible.argument_of_mapM hseen hrf
      exact absurd ((Mapper.map_ok hv).1.symm.trans (Mapper.map_ok hobs).1)
        (p.kinds_apart m hm hother)
  · intro hleft
    refine ⟨?_, ?_⟩
    · intro m hm hother item hitem
      obtain ⟨fetch, hfetch, hread⟩ := hfetchOf m hm
      have hseen := readWell_observed hserves hm hread
      rw [if_neg hother] at hseen
      obtain ⟨r, hr, hobs⟩ := Fallible.result_of_mapM hseen hitem
      exact ⟨r, (hmem r).mpr ⟨fetch, hfetch, hr⟩, hobs⟩
    · intro domain hdomain item hitem
      obtain ⟨taken, htakenMem, hsame⟩ := hleft domain hdomain item hitem
      obtain ⟨r, hr, hobs⟩ := Fallible.result_of_mapM htaken htakenMem
      exact ⟨r, (hmem r).mpr ⟨dnsFetch, hdnsFetch, hr⟩, hsame ▸ hobs⟩

/-! ## §3  The outcome -/

/-- The checks of `sync` let the request through, and this is its session. -/
def Provider.Admitted (p : Provider ρ) (request : SyncRequest) (secret : Option (List UInt8))
    (session : Session) : Prop :=
  request.connection.connectorType = p.connectorType ∧ request.mode = .full ∧
    ∃ bytes key, secret = some bytes ∧
      (request.connection.config.get p.keyField).bind Value.asStr = some key ∧
      session = ⟨request.scope, regionOf p.regionPrefix request.scope, key, bytes⟩

theorem outcome_covers_iff {gathered : Gathered} {scope scope' : Scope}
    {relations : List RelationObservation} :
    (gathered.outcome scope relations).batch.coverage = .authoritativeFull scope' ↔
      gathered.error = none ∧ scope = scope' := by
  unfold Gathered.outcome
  cases gathered.error with
  | none => simp [SyncOutcome.batch]
  | some f => simp [SyncOutcome.batch]

theorem outcome_resources {gathered : Gathered} {scope : Scope}
    {relations : List RelationObservation} :
    (gathered.outcome scope relations).batch.resources = gathered.sorted := by
  unfold Gathered.outcome
  split <;> rfl

/-- Without a failure the outcome may be returned in full mode, and in no other. -/
theorem outcome_valid_iff {gathered : Gathered} {request : SyncRequest}
    {relations : List RelationObservation} (hnone : gathered.error = none) :
    (gathered.outcome request.scope relations).validateFor request = .ok () ↔
      request.mode = .full := by
  rw [SyncOutcome.validateFor_ok_iff]
  unfold Gathered.outcome
  rw [hnone]
  show request.mode.accepts (.authoritativeFull request.scope) = true ∧ _ ↔ _
  cases request.mode <;> simp [SyncMode.accepts, SyncOutcome.batch, SyncCoverage.isPartial]

theorem finish_covers {gathered : Gathered} {request : SyncRequest} {outcome : SyncOutcome}
    {scope : Scope} (h : p.finish gathered request = .returned (.ok outcome))
    (hcoverage : outcome.batch.coverage = .authoritativeFull scope) :
    request.mode = .full ∧ gathered.error = none ∧
      (p.mapper.providerRelations gathered.sorted).isSome = true ∧
      outcome.batch.resources = gathered.sorted := by
  unfold Provider.finish at h
  split at h
  · cases h
  split at h
  · cases h
  rename_i relations hrelations
  simp only at h
  split at h
  · cases h
  rename_i hvalid
  cases h
  have hnone := (outcome_covers_iff.mp hcoverage).1
  exact ⟨(outcome_valid_iff hnone).mp hvalid, hnone, by rw [hrelations]; rfl, outcome_resources⟩

theorem finish_of_no_error {gathered : Gathered} {request : SyncRequest}
    (hmode : request.mode = .full) (hnone : gathered.error = none)
    (hrelations : (p.mapper.providerRelations gathered.sorted).isSome = true) :
    ∃ outcome, p.finish gathered request = .returned (.ok outcome) ∧
      outcome.batch.coverage = .authoritativeFull request.scope ∧
      outcome.batch.resources = gathered.sorted := by
  obtain ⟨relations, hrelations⟩ := Option.isSome_iff_exists.mp hrelations
  refine ⟨gathered.outcome request.scope relations, ?_, outcome_covers_iff.mpr ⟨hnone, rfl⟩,
    outcome_resources⟩
  unfold Provider.finish Provider.bareFailure
  rw [hnone, hrelations]
  simp only [Option.filter_none, (outcome_valid_iff hnone).mpr hmode]

/-- The checks before the first request let it through, in any mode, and this is its session. -/
def Provider.Begins (p : Provider ρ) (request : SyncRequest) (secret : Option (List UInt8))
    (session : Session) : Prop :=
  request.connection.connectorType = p.connectorType ∧
    ∃ bytes key, secret = some bytes ∧
      (request.connection.config.get p.keyField).bind Value.asStr = some key ∧
      session = ⟨request.scope, regionOf p.regionPrefix request.scope, key, bytes⟩

theorem Provider.Admitted.begins {request : SyncRequest} {secret : Option (List UInt8)}
    {session : Session} (h : p.Admitted request secret session) :
    p.Begins request secret session := by
  obtain ⟨htype, _, hkey⟩ := h
  exact ⟨htype, hkey⟩

theorem Provider.Begins.unique {request : SyncRequest} {secret : Option (List UInt8)}
    {session session' : Session} (h : p.Begins request secret session)
    (h' : p.Begins request secret session') : session = session' := by
  obtain ⟨_, bytes, key, rfl, hkey, rfl⟩ := h
  obtain ⟨_, bytes', key', hsecret, hkey', rfl⟩ := h'
  cases hkey.symm.trans hkey'
  cases hsecret
  rfl

theorem Provider.Admitted.unique {request : SyncRequest} {secret : Option (List UInt8)}
    {session session' : Session} (h : p.Admitted request secret session)
    (h' : p.Admitted request secret session') : session = session' :=
  h.begins.unique h'.begins

/-- A sync that begins reads its modules and finishes. -/
theorem sync_of_begins {turns : Nat} {request : SyncRequest} {secret : Option (List UInt8)}
    {session : Session} (h : p.Begins request secret session) :
    p.sync transport turns request secret =
      match p.fetchAll transport session turns p.modules 0 ⟨[], none⟩ with
      | none => .running
      | some (gathered, _) => p.finish gathered request := by
  obtain ⟨htype, bytes, key, rfl, hkey, rfl⟩ := h
  unfold Provider.sync
  rw [if_neg (not_not.mpr htype)]
  split
  · rename_i hnone
    cases hnone
  · rename_i hbytes
    cases hbytes
    split
    · rename_i hnone
      cases hkey.symm.trans hnone
    · rename_i key' hsome
      cases hkey.symm.trans hsome
      rfl

/-- A sync that does not begin returns the failure of its check. -/
theorem sync_of_not_begins {turns : Nat} {request : SyncRequest} {secret : Option (List UInt8)}
    (h : ¬∃ session, p.Begins request secret session) :
    ∃ f, p.sync transport turns request secret = .returned (.error f) := by
  unfold Provider.sync
  split
  · exact ⟨_, rfl⟩
  rename_i htype
  split
  · exact ⟨_, rfl⟩
  split
  · exact ⟨_, rfl⟩
  rename_i key hkey
  exact absurd ⟨_, not_not.mp htype, _, key, rfl, hkey, rfl⟩ h

/-- A sync of an admitted request reads its modules and finishes. -/
theorem sync_of_admitted {turns : Nat} {request : SyncRequest} {secret : Option (List UInt8)}
    {session : Session} (h : p.Admitted request secret session) :
    p.sync transport turns request secret =
      match p.fetchAll transport session turns p.modules 0 ⟨[], none⟩ with
      | none => .running
      | some (gathered, _) => p.finish gathered request :=
  sync_of_begins h.begins

/-- An outcome that covers the scope is the end of a sync whose modules are read without a
failure. -/
theorem sync_covers {turns : Nat} {request : SyncRequest} {secret : Option (List UInt8)}
    {outcome : SyncOutcome} {scope : Scope}
    (h : p.sync transport turns request secret = .returned (.ok outcome))
    (hcoverage : outcome.batch.coverage = .authoritativeFull scope) :
    ∃ session gathered next, p.Admitted request secret session ∧
      p.fetchAll transport session turns p.modules 0 ⟨[], none⟩ = some (gathered, next) ∧
      gathered.error = none ∧ (p.mapper.providerRelations gathered.sorted).isSome = true ∧
      outcome.batch.resources = gathered.sorted := by
  unfold Provider.sync at h
  split at h
  · cases h
  rename_i htype
  split at h
  · cases h
  split at h
  · cases h
  rename_i key hkey
  simp only at h
  split at h
  · cases h
  rename_i gathered next hfetch
  obtain ⟨hmode, hnone, hrelations, hresources⟩ := finish_covers h hcoverage
  exact ⟨_, gathered, next, ⟨not_not.mp htype, hmode, _, key, rfl, hkey, rfl⟩, hfetch, hnone,
    hrelations, hresources⟩

/-- An outcome that covers the scope has observed the whole account. -/
def Provider.CoverageHonest (p : Provider ρ) (transport : Transport ρ) (holdings : Holdings)
    (turns : Nat) (request : SyncRequest) (secret : Option (List UInt8)) : Prop :=
  ∀ outcome scope, p.sync transport turns request secret = .returned (.ok outcome) →
    outcome.batch.coverage = .authoritativeFull scope →
    ∃ session, p.Admitted request secret session ∧
      p.Observes session holdings outcome.batch.resources

/-! ## §4  Small accounts -/

theorem recordsSeen_small {ι : Type} {before : Nat} {lists : List (List ι)}
    (hsmall : ∀ records ∈ lists, records.length ≤ pageSize) :
    recordsSeen before lists = lists.flatten := by
  induction lists generalizing before with
  | nil => rfl
  | cons records rest ih =>
      have hall : records.take (recordsTaken before records.length) = records := by
        refine List.take_of_length_le ?_
        have := hsmall records List.mem_cons_self
        unfold recordsTaken pageSize at *
        omega
      unfold recordsSeen
      simp only [hall]
      rw [ih fun r hr => hsmall r (List.mem_cons_of_mem _ hr), List.flatten_cons]

/-- With at most twenty domains of at most a page of records, no record is left out. -/
theorem noneLeftOut_of_small {session : Session} {holdings : Holdings}
    (hdomains : holdings.domains.length ≤ maxDnsDomains)
    (hrecords : ∀ domain ∈ holdings.domains, (holdings.records domain).length ≤ pageSize) :
    p.NoneLeftOut session holdings := by
  intro domain hdomain item hitem
  refine ⟨item, ?_, rfl⟩
  unfold Holdings.recordsTaken
  rw [List.take_of_length_le hdomains, recordsSeen_small]
  · exact List.mem_flatten.mpr ⟨_, List.mem_map_of_mem hdomain, hitem⟩
  · intro records hmem
    obtain ⟨d, hd, rfl⟩ := List.mem_map.mp hmem
    exact hrecords d hd

/-! ## §5  Limited walks end -/

theorem readRecordsFrom_ends {list : Listing ρ ResourceDto} {obs : Observing}
    (left number page : Nat) (fetch : ModuleFetch) :
    ∃ result, readRecordsFrom transport list obs true left number page fetch = some result := by
  induction left generalizing number page fetch with
  | zero => exact ⟨_, rfl⟩
  | succ left ih =>
      unfold readRecordsFrom
      split
      · exact ⟨_, rfl⟩
      rcases list.page transport number page with ⟨f | ⟨found, total⟩, following⟩
      · exact ⟨_, rfl⟩
      simp only
      split
      · exact ⟨_, rfl⟩
      · exact ih following (page + 1) _

theorem readDomains_ends {listOf : String → Listing ρ ResourceDto} {obs : Observing} {turns : Nat}
    (domains : List String) (number : Nat) (fetch : ModuleFetch) :
    ∃ result, readDomains transport listOf obs true turns domains number fetch = some result := by
  induction domains generalizing number fetch with
  | nil => exact ⟨_, rfl⟩
  | cons domain domains ih =>
      unfold readDomains
      split
      · exact ⟨_, rfl⟩
      obtain ⟨⟨mid, following⟩, hmid⟩ :=
        @readRecordsFrom_ends _ transport (listOf domain) obs turns number 0 fetch
      rw [hmid]
      exact ih following mid

/-- A connector whose records have a page limit never goes on for ever. -/
theorem sync_ends (hlimited : p.limited = true) (turns : Nat) (request : SyncRequest)
    (secret : Option (List UInt8)) : p.sync transport turns request secret ≠ .running := by
  have hfetch : ∀ session m number, ∃ result,
      p.fetch transport session turns m number = some result := by
    intro session m number
    unfold Provider.fetch fetchDns
    rw [hlimited]
    split
    · rcases listDomainsFrom transport (p.domainList session) maxPagesPerModule number 0 [] with
        ⟨f | domains, next⟩
      · exact ⟨_, rfl⟩
      · exact readDomains_ends _ _ _
    · exact ⟨_, rfl⟩
  have hall : ∀ session modules number gathered, ∃ result,
      p.fetchAll transport session turns modules number gathered = some result := by
    intro session modules
    induction modules with
    | nil => exact fun number gathered => ⟨_, rfl⟩
    | cons m modules ih =>
        intro number gathered
        obtain ⟨⟨fetch, next⟩, hm⟩ := hfetch session m number
        unfold Provider.fetchAll
        rw [hm]
        exact ih next _
  have hfinish : ∀ gathered, p.finish gathered request ≠ .running := by
    intro gathered h
    unfold Provider.finish at h
    split at h
    · cases h
    split at h
    · cases h
    simp only at h
    split at h <;> cases h
  intro h
  unfold Provider.sync at h
  split at h
  · cases h
  split at h
  · cases h
  split at h
  · cases h
  simp only at h
  split at h
  · rename_i hnone
    obtain ⟨result, hsome⟩ := hall _ _ _ _
    rw [hsome] at hnone
    cases hnone
  · exact hfinish _ h

end

end Cloud

end NextInfra
