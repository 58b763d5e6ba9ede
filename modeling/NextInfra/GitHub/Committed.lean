import NextInfra.Desktop.RunEnds
import NextInfra.GitHub.Links
import NextInfra.GitHub.Outcome
import NextInfra.Lib.JsonText

/-!
# When what a GitHub sync observes can be committed

Whatever the provider answers, the normalizer takes the batch of a sync that goes
through. The engine takes it exactly when the workflow of every run is known: read by
the same sync or stored by an earlier one. The workflows of a repository are read apart
from its runs, so a run may well be read without its workflow.

§1 and §2: the ids of one connection never collide. §3: the batch of an outcome. §4: the
stores that the syncs of a connection fill. §5: the law.
-/

namespace NextInfra

/-! ## §1  Ids of one connection -/

/-- Within one connection no two keys regroup: the kind cannot hold a colon. -/
theorem ResourceKey.eq_of_regroups {a b : ResourceKey} (hconnection : a.connectionId = b.connectionId)
    (h : a.Regroups b) : a = b := by
  obtain ⟨connection, kind, externalId⟩ := a
  obtain ⟨connection', kind', externalId'⟩ := b
  cases hconnection
  unfold ResourceKey.Regroups ResourceKey.fields Separated.segments at h
  simp only [List.flatMap_cons, List.flatMap_nil, List.append_nil, List.append_cancel_left_eq] at h
  rw [List.splitOn_eq_singleton kind.colon_not_mem,
    List.splitOn_eq_singleton kind'.colon_not_mem] at h
  rw [List.singleton_append, List.singleton_append] at h
  obtain ⟨hkind, hexternal⟩ := List.cons.inj h
  have hexternal := congrArg ([':'].intercalate) hexternal
  rw [List.intercalate_splitOn, List.intercalate_splitOn] at hexternal
  have hkind : kind = kind' := NamespacedValue.ext_val (String.toList_inj.mp hkind)
  have hexternal : externalId = externalId' := val_eq_iff.mpr hexternal
  rw [hkind, hexternal]

/-- A resource id is cut into the literal, the connection, the kind and the external id. -/
theorem stableResourceId_pieces (key : ResourceKey) :
    ((stableResourceId key).val.toList.splitOn ':').length =
      (key.connectionId.val.toList.splitOn ':').length +
        (key.externalId.val.toList.splitOn ':').length + 2 := by
  have hfields : key.fields ≠ [] := List.cons_ne_nil _ _
  rw [stableResourceId_toList, Separated.splitOn_join hfields]
  unfold ResourceKey.fields Separated.segments
  have hliteral : ("resource".toList.splitOn ':').length = 1 :=
    Separated.length_splitOn_of_free (by decide)
  simp only [List.flatMap_cons, List.flatMap_nil, List.append_nil, List.length_append, hliteral,
    Separated.length_splitOn_of_free key.kind.colon_not_mem]
  omega

namespace GitHub

theorem colon_not_mem_number (n : Nat) : ':' ∉ (toString n).toList := by
  intro hmem
  have hdigits : (toString n).toList = Nat.toDigits 10 n := Nat.toList_repr
  rw [hdigits] at hmem
  exact absurd (Nat.isDigit_of_mem_toDigits (by decide) (by decide) hmem) (by decide)

/-- A tag and a number: two pieces. -/
theorem numbered_pieces {tag text : String} {n : Nat} (htag : ':' ∉ tag.toList)
    (h : text = tag ++ ":" ++ toString n) : (text.toList.splitOn ':').length = 2 := by
  have hjoin : text.toList = Separated.join ':' [tag.toList, (toString n).toList] := by
    rw [h, String.toList_append, String.toList_append, Separated.join_cons_cons,
      Separated.join_singleton, colon_toList, List.append_assoc]
    rfl
  rw [hjoin, Separated.splitOn_join (List.cons_ne_nil _ _)]
  unfold Separated.segments
  simp only [List.flatMap_cons, List.flatMap_nil, List.append_nil, List.length_append,
    Separated.length_splitOn_of_free htag, Separated.length_splitOn_of_free (colon_not_mem_number n)]

theorem number_of_numbered {tag : String} {n m : Nat}
    (h : tag ++ ":" ++ toString n = tag ++ ":" ++ toString m) : n = m := by
  have hlist := congrArg String.toList h
  rw [String.toList_append (s := tag ++ ":"), String.toList_append (s := tag ++ ":")] at hlist
  have hdigits : ∀ k : Nat, (toString k).toList = Nat.toDigits 10 k := fun _ => Nat.toList_repr
  have hsame := congrArg (fun digits => Nat.ofDigitChars 10 digits 0) (List.append_cancel_left hlist)
  simpa only [hdigits, Nat.ofDigitChars_ten_toDigits] using hsame

/-! ## §2  Keys of the mappers -/

/-- The columns a relation of a shape is stored under, its ends the resources of two numbers. -/
structure Edge (connection : ConnectionId) (shape : EdgeShape) (k : RelationKey) : Prop where
  ends : ∃ source target : ResourceKey,
    k.sourceResourceId = stableResourceId source ∧ k.targetResourceId = stableResourceId target ∧
      source.connectionId = connection ∧ target.connectionId = connection ∧
      (∃ n : Nat, source.externalId.val = shape.sourceTag ++ ":" ++ toString n) ∧
      ∃ n : Nat, target.externalId.val = shape.targetTag ++ ":" ++ toString n
  evidenceType_eq : k.evidenceType = .provider
  evidence : ∃ n : Nat, k.evidenceKey.val = shape.evidenceTag ++ ":" ++ toString n

/-- The tags of the shapes hold no colon. -/
theorem tags_free : ∀ shape ∈ [containsShape, executesShape], ':' ∉ shape.sourceTag.toList ∧
    ':' ∉ shape.targetTag.toList ∧ ':' ∉ shape.evidenceTag.toList := by
  decide

/-- Every field of a relation of the mappers is cut into as many pieces as any other's. -/
theorem Edge.pieces {connection : ConnectionId} {shape : EdgeShape} {k : RelationKey}
    (h : Edge connection shape k) (hshape : shape ∈ [containsShape, executesShape]) :
    k.fields.map (fun f => (f.splitOn ':').length) =
      [1, (connection.val.toList.splitOn ':').length + 4,
        (connection.val.toList.splitOn ':').length + 4, 1, 2] := by
  obtain ⟨hsourceTag, htargetTag, hevidenceTag⟩ := tags_free shape hshape
  obtain ⟨source, target, hsource, htarget, hsourceConnection, htargetConnection, ⟨n, hn⟩, m, hm⟩ :=
    h.ends
  obtain ⟨e, he⟩ := h.evidence
  have hliteral : ("relation".toList.splitOn ':').length = 1 :=
    Separated.length_splitOn_of_free (by decide)
  unfold RelationKey.fields
  simp only [List.map_cons, List.map_nil, hliteral, hsource, htarget, stableResourceId_pieces,
    numbered_pieces hsourceTag hn, numbered_pieces htargetTag hm, numbered_pieces hevidenceTag he,
    hsourceConnection, htargetConnection, Separated.length_splitOn_of_free k.kind.colon_not_mem]

/-- Within one connection no two relations of the mappers regroup. -/
theorem Edge.eq_of_regroups {connection : ConnectionId} {shape shape' : EdgeShape}
    {k k' : RelationKey} (h : Edge connection shape k) (h' : Edge connection shape' k')
    (hshape : shape ∈ [containsShape, executesShape])
    (hshape' : shape' ∈ [containsShape, executesShape]) (hregroups : k.Regroups k') : k = k' := by
  have hpieces := (h.pieces hshape).trans (h'.pieces hshape').symm
  have hfields : k.fields = k'.fields :=
    Separated.eq_of_segments (List.forall₂_map_left_iff.mp (List.forall₂_map_right_iff.mp
      (List.forall₂_eq_eq_eq ▸ hpieces))) hregroups
  have htype := h.evidenceType_eq.trans h'.evidenceType_eq.symm
  obtain ⟨source, target, kind, type, evidence⟩ := k
  obtain ⟨source', target', kind', type', evidence'⟩ := k'
  unfold RelationKey.fields at hfields
  simp only [List.cons.injEq, String.toList_inj, and_true, true_and] at hfields htype
  obtain ⟨hsource, htarget, hkind, hevidence⟩ := hfields
  rw [StringValue.ext_val hsource, StringValue.ext_val htarget, NamespacedValue.ext_val hkind, htype,
    StringValue.ext_val hevidence]

/-! ## §3  The batch of an outcome -/

/-- Only membership counts. -/
theorem Observes.of_mem {at_ : Timestamp} {locators locators' : List ResourceLocator}
    {ws : List WorkflowDto} {runs : List WorkflowRunDto} {rs rs' : List ResourceObservation}
    {es es' : List RelationObservation} (h : Observes at_ locators ws runs rs es)
    (hresources : ∀ r, r ∈ rs' ↔ r ∈ rs) (hrelations : ∀ e, e ∈ es' ↔ e ∈ es)
    (hlocators : locators ⊆ locators') : Observes at_ locators' ws runs rs' es' := by
  have h := h.mono hlocators
  refine ⟨?_, ?_, ?_, ?_, ?_⟩
  · exact fun r hr => h.accepted r ((hresources r).mp hr)
  · exact fun e he => h.related e ((hrelations e).mp he)
  · exact fun r hr => h.fromWorkflow r ((hresources r).mp hr)
  · intro w hw
    obtain ⟨r, hr, hrow⟩ := h.workflowsObserved w hw
    exact ⟨r, (hresources r).mpr hr, hrow⟩
  · intro run hrun
    obtain ⟨e, he, hrelated⟩ := h.runsObserved run hrun
    exact ⟨e, (hrelations e).mpr he, hrelated⟩

/-- What a sync that goes through hands over. -/
structure Handed (wire : Wire) (now : Nat) (request : SyncRequest) (lists : List ListFetch)
    (batch : ObservationBatch) : Prop where
  valid : batch.validateFor request = .ok ()
  scope : ∀ scope, batch.coverage.namedScope = some scope → scope = request.scope
  quiet : Quiet batch.warnings
  observes : Observes (observedAtOf now) (batch.resources.map ResourceObservation.locator)
    (workflowsRead wire lists) (runsRead wire lists) batch.resources batch.relations
  resourcesOnce : (batch.resources.map resourceOrder).Nodup
  relationsOnce : (batch.relations.map relationOrder).Nodup

theorem finish_ok {c : Collector} {request : SyncRequest} {outcome : SyncOutcome}
    (h : c.finish request = .ok outcome) :
    outcome = c.outcome request ∧ outcome.batch.validateFor request = .ok () ∧
      ((sortResources c.resources).map resourceOrder).Nodup ∧
      ((sortRelations c.relations).map relationOrder).Nodup := by
  unfold Collector.finish at h
  obtain ⟨_, honce, h⟩ := bind_ok h
  simp only at h
  split at h
  · cases h
  rename_i hvalid
  cases h
  unfold SyncOutcome.validateFor at hvalid
  obtain ⟨_, hvalid, _⟩ := bind_ok hvalid
  unfold rejectDuplicateObservations at honce
  split at honce
  · cases honce
  rename_i hresources
  split at honce
  · cases honce
  rename_i hrelations
  exact ⟨rfl, hvalid, not_not.mp hresources, not_not.mp hrelations⟩

/-- The batch of an outcome, complete or partial. -/
theorem outcome_batch (c : Collector) (request : SyncRequest) :
    (c.outcome request).batch.resources = sortResources c.resources ∧
      (c.outcome request).batch.relations = sortRelations c.relations ∧
      (c.outcome request).batch.coverage = c.coverage request ∧
      (c.outcome request).batch.warnings = c.warnings := by
  unfold Collector.outcome
  cases c.primaryFailure <;> exact ⟨rfl, rfl, rfl, rfl⟩

theorem coverage_scope {c : Collector} {request : SyncRequest} {scope : Scope}
    (h : (c.coverage request).namedScope = some scope) : scope = c.scope := by
  unfold Collector.coverage at h
  split at h
  · exact (Option.some.inj h).symm
  · split at h
    · cases h
    · exact (Option.some.inj h).symm

theorem sync_ok {wire : Wire} {transport : Transport} {now : Nat} {request : SyncRequest}
    {secret : Option (List UInt8)} {start s : Syncing} {outcome : SyncOutcome}
    (h : sync wire transport now request secret start = (.ok outcome, s)) :
    ∃ secret c, collect wire transport secret now request start = (.ok c, s) ∧
      c.finish request = .ok outcome := by
  unfold sync at h
  cases hissues : validateConnectionInput request.connection with
  | cons issue issues =>
      rw [hissues] at h
      cases h
  | nil =>
      rw [hissues] at h
      cases secret with
      | none => cases h
      | some secret =>
          obtain ⟨c, t, hcollect, h⟩ := Attempt.bind_ok_iff.mp h
          obtain ⟨hfinish, rfl⟩ := Prod.mk.inj h
          exact ⟨secret, c, hcollect, hfinish⟩

theorem sync_handed {wire : Wire} {transport : Transport} {now : Nat} {request : SyncRequest}
    {secret : Option (List UInt8)} {connector : GitHubConnector} {outcome : SyncOutcome}
    {s : Syncing} (h : sync wire transport now request secret { connector := connector } =
      (.ok outcome, s)) : Handed wire now request s.lists outcome.batch := by
  obtain ⟨secret, c, hcollect, hfinish⟩ := sync_ok h
  have htraced := collect_traced hcollect
  obtain ⟨rfl, hvalid, hresources, hrelations⟩ := finish_ok hfinish
  obtain ⟨hrs, hes, hcoverage, hwarnings⟩ := outcome_batch c request
  have hscope : c.scope = request.scope := congrArg Prod.fst htraced.stamp_eq
  refine ⟨hvalid, ?_, ?_, ?_, ?_, ?_⟩
  · intro scope hnamed
    rw [hcoverage] at hnamed
    exact (coverage_scope hnamed).trans hscope
  · rw [hwarnings]
    exact htraced.warnings
  · refine htraced.observes.of_mem ?_ ?_ ?_
    · rw [hrs]
      exact fun r => mem_sortResources
    · rw [hes]
      exact fun e => mem_sortRelations
    · rw [hrs]
      intro locator hlocator
      obtain ⟨r, hr, rfl⟩ := List.mem_map.mp hlocator
      exact List.mem_map_of_mem (mem_sortResources.mpr hr)
  · rw [hrs]
    exact hresources
  · rw [hes]
    exact hrelations

section

variable {digest : Value → Fingerprint} {wire : Wire} {now : Nat} {request : SyncRequest}
  {lists : List ListFetch} {batch : ObservationBatch}

/-- The normalizer takes it, row by row. -/
theorem Handed.normalized (h : Handed wire now request lists batch) :
    ∃ b, githubNormalizer.normalize digest request batch = .ok b ∧
      Normalizer.Takes digest githubNormalizer request batch b := by
  refine Normalizer.normalize_total h.valid (Normalizer.scanWarnings_of_forall h.quiet) ?_ ?_ ?_ ?_
  · intro o ho
    obtain ⟨kind, tag, id, scope, hobserved⟩ := h.observes.accepted o ho
    exact hobserved.accepted digest request
  · have honce := h.resourcesOnce
    rw [show resourceOrder = (fun l : ResourceLocator => toLex (l.kind, l.externalId)) ∘
      ResourceObservation.locator from rfl, ← List.map_map] at honce
    exact honce.of_map _
  · intro e he
    rcases h.observes.related e he with ⟨n, w, hrelated, _⟩ | ⟨run, _, hrelated, _⟩
    · exact hrelated.accepted List.mem_cons_self digest request
    · exact hrelated.accepted (List.mem_cons_of_mem _ List.mem_cons_self) digest request
  · have honce := h.relationsOnce
    rw [show relationOrder = (fun k : ValidatedRelationKey =>
        (toLex (k.source.kind, toLex (k.source.externalId, toLex (k.target.kind,
          toLex (k.target.externalId, toLex (k.kind, k.evidenceKey))))) : _ ×ₗ _)) ∘
      (fun o : RelationObservation => o.key request.connection.connectionId) from rfl,
      ← List.map_map] at honce
    exact honce.of_map _

theorem kept_of_normalize {b : ValidatedBatch}
    (h : githubNormalizer.normalize digest request batch = .ok b) :
    b.connectionId = request.connection.connectionId ∧ b.syncRunId = request.syncRunId ∧
      b.coverage = batch.coverage := by
  obtain ⟨_, _, _, _, _, _, rfl⟩ := Normalizer.normalize_ok h
  exact ⟨rfl, rfl, rfl⟩

/-- The relations of an accepted batch are relations of the mappers. -/
theorem Handed.edges (h : Handed wire now request lists batch) {b : ValidatedBatch}
    (hnormal : githubNormalizer.normalize digest request batch = .ok b)
    (htakes : Normalizer.Takes digest githubNormalizer request batch b) :
    ∀ v ∈ b.relations, ∃ shape ∈ [containsShape, executesShape],
      Edge request.connection.connectionId shape v.rowKey := by
  intro v hv
  obtain ⟨e, he, hone⟩ := (htakes.relations v).mp hv
  obtain ⟨hkey, _⟩ := Normalizer.normalizeRelation_key hone
  have htype : v.rowKey.evidenceType = .provider := by
    obtain ⟨path, hpath⟩ := (Normalizer.normalize_wellFormed hnormal).evidence v hv
    show v.evidence.evidenceType = .provider
    rw [hpath]
    rfl
  have hedge : ∀ shape source target, Related shape source target (observedAtOf now) e →
      Edge request.connection.connectionId shape v.rowKey := by
    intro shape source target hrelated
    refine ⟨⟨v.key.source, v.key.target, rfl, rfl, ?_⟩, htype, target, ?_⟩
    · rw [hkey]
      exact ⟨rfl, rfl, ⟨source, hrelated.source_id⟩, target, hrelated.target_id⟩
    · show v.key.evidenceKey.val = _
      rw [hkey]
      exact hrelated.evidence
  rcases h.observes.related e he with ⟨n, w, hrelated, _⟩ | ⟨run, _, hrelated, _⟩
  · exact ⟨_, List.mem_cons_self, hedge _ _ _ hrelated⟩
  · exact ⟨_, List.mem_cons_of_mem _ List.mem_cons_self, hedge _ _ _ hrelated⟩

end

end GitHub

/-! ## §4  The stores of one connection -/

namespace System

/-- Every stored row has the key of a row of a committed batch. -/
structure Sourced (sys : System) : Prop where
  resources : ∀ x ∈ sys.store.resources.rows, ∃ b ∈ sys.committed, ∃ v ∈ b.resources, x.key = v.key
  relations : ∀ x ∈ sys.store.relations.rows, ∃ b ∈ sys.committed, ∃ v ∈ b.relations,
    x.key = v.rowKey

theorem sourced_fresh : fresh.Sourced where
  resources := by
    intro x hx
    cases hx
  relations := by
    intro x hx
    cases hx

/-- One step keeps it: a commit stores the rows of its batch and of resources stored before. -/
theorem sourced_preserved : machine.Preserves fun sys => sys.Sound ∧ sys.Sourced := by
  rintro sys call hen ⟨hs, hsourced⟩
  refine ⟨sound_preserved sys call hen hs, ?_⟩
  have hmoves := step_moves hs hen
  show (sys.step call).Sourced
  generalize sys.step call = next at hmoves ⊢
  cases hmoves with
  | quiet _ same log =>
      refine ⟨?_, ?_⟩
      · rw [same.resources, log]
        exact hsourced.resources
      · rw [same.relations, log]
        exact hsourced.relations
  | committed e handle batch at_ r empty checked effect log =>
      have hold : ∀ b ∈ sys.committed, b ∈ next.committed := by
        intro b hb
        rw [log]
        exact List.mem_cons_of_mem _ hb
      have hstored : ∀ x ∈ sys.store.resources.rows,
          ∃ b ∈ next.committed, ∃ v ∈ b.resources, x.key = v.key := by
        intro x hx
        obtain ⟨b, hb, hex⟩ := hsourced.resources x hx
        exact ⟨b, hold b hb, hex⟩
      refine ⟨?_, ?_⟩
      · intro x hx
        rw [effect.resources] at hx
        rcases Store.resourceRule.mem_applyAll hx with hx | ⟨row, hrow, hlands⟩
        · exact hstored x hx
        · have hkey : x.key = row.key := hlands.ident_eq
          rw [hkey]
          rw [Store.commitOf_resources] at hrow
          rcases List.mem_append.mp hrow with hrow | hrow
          · obtain ⟨v, hv, rfl⟩ := List.mem_map.mp hrow
            exact ⟨batch, log ▸ List.mem_cons_self, v, hv, rfl⟩
          · obtain ⟨old, hdue, rfl⟩ := List.mem_map.mp hrow
            exact hstored old (KeyedTable.mem_of_get (Store.mem_dueOf_stored hdue).1)
      · intro x hx
        rw [effect.relations] at hx
        rcases Store.relationRule.mem_applyAll hx with hx | ⟨row, hrow, hlands⟩
        · obtain ⟨b, hb, hex⟩ := hsourced.relations x hx
          exact ⟨b, hold b hb, hex⟩
        · have hkey : x.key = row.key := hlands.ident_eq
          rw [hkey]
          rw [Store.commitOf_relations] at hrow
          obtain ⟨v, hv, rfl⟩ := List.mem_map.mp hrow
          exact ⟨batch, log ▸ List.mem_cons_self, v, hv, rfl⟩
  | failed e handle error at_ r empty effect log =>
      refine ⟨?_, ?_⟩
      · rw [effect.resources, log]
        exact hsourced.resources
      · rw [effect.relations, log]
        exact hsourced.relations

theorem Reachable.sourced {sys : System} (h : sys.Reachable) : sys.Sourced := by
  obtain ⟨calls, hrun⟩ := h
  exact (hrun.invariant sourced_preserved ⟨sound_fresh, sourced_fresh⟩).2

end System

namespace GitHub

/-- Batches the normalizer makes of what syncs of a connection hand over. -/
def CommittedBy (digest : Value → Fingerprint) (connection : ConnectionId) (b : ValidatedBatch) :
    Prop :=
  ∃ wire transport now request secret connector outcome s,
    request.connection.connectionId = connection ∧
    sync wire transport now request secret { connector := connector } = (.ok outcome, s) ∧
    githubNormalizer.normalize digest request outcome.batch = .ok b

/-- A store that only the syncs of one connection have filled. -/
structure FilledBy (connection : ConnectionId) (s : Store) : Prop where
  resources : ∀ x ∈ s.resources.rows, x.connectionId = connection
  relations : ∀ x ∈ s.relations.rows, ∃ shape ∈ [containsShape, executesShape],
    Edge connection shape x.key

theorem filledBy_of_committed {digest : Value → Fingerprint} {connection : ConnectionId}
    {sys : System} (hsourced : sys.Sourced)
    (hcommitted : ∀ b ∈ sys.committed, CommittedBy digest connection b) :
    FilledBy connection sys.store := by
  refine ⟨?_, ?_⟩
  · intro x hx
    obtain ⟨b, hb, v, hv, hkey⟩ := hsourced.resources x hx
    obtain ⟨_, _, _, request, _, _, _, _, rfl, _, hnormal⟩ := hcommitted b hb
    have hconnection := (Normalizer.normalize_wellFormed hnormal).resourceConnection v hv
    rw [(kept_of_normalize hnormal).1, ← hkey] at hconnection
    exact hconnection
  · intro x hx
    obtain ⟨b, hb, v, hv, hkey⟩ := hsourced.relations x hx
    obtain ⟨_, _, _, request, _, _, _, _, rfl, hsync, hnormal⟩ := hcommitted b hb
    have hhanded := sync_handed hsync
    obtain ⟨b', hnormal', htakes⟩ := @Handed.normalized digest _ _ _ _ _ hhanded
    rw [hnormal] at hnormal'
    cases hnormal'
    rw [hkey]
    exact hhanded.edges hnormal htakes v hv

section

variable {digest : Value → Fingerprint} {wire : Wire} {now : Nat} {request : SyncRequest}
  {lists : List ListFetch} {batch : ObservationBatch} {b : ValidatedBatch} {store : Store}

/-- Nothing of the batch collides, with itself or with what is stored. -/
theorem Handed.keysApart (h : Handed wire now request lists batch)
    (hnormal : githubNormalizer.normalize digest request batch = .ok b)
    (htakes : Normalizer.Takes digest githubNormalizer request batch b)
    (hfilled : FilledBy request.connection.connectionId store) : store.KeysApart b := by
  have hconnection : ∀ v ∈ b.resources, v.key.connectionId = request.connection.connectionId := by
    intro v hv
    rw [(Normalizer.normalize_wellFormed hnormal).resourceConnection v hv,
      (kept_of_normalize hnormal).1]
  have hedges := h.edges hnormal htakes
  refine ⟨?_, ?_, ?_, ?_⟩
  · intro v hv x hx hregroups
    exact ResourceKey.eq_of_regroups ((hfilled.resources x hx).trans (hconnection v hv).symm)
      hregroups
  · intro v hv w hw hregroups
    exact ResourceKey.eq_of_regroups ((hconnection v hv).trans (hconnection w hw).symm) hregroups
  · intro v hv x hx hregroups
    obtain ⟨shape, hshape, hedge⟩ := hedges v hv
    obtain ⟨shape', hshape', hedge'⟩ := hfilled.relations x hx
    exact hedge'.eq_of_regroups hedge hshape' hshape hregroups
  · intro v hv w hw hregroups
    obtain ⟨shape, hshape, hedge⟩ := hedges v hv
    obtain ⟨shape', hshape', hedge'⟩ := hedges w hw
    exact hedge.eq_of_regroups hedge' hshape hshape' hregroups

/-- An end is known when the batch or the store has a resource under its key. -/
theorem Handed.known_iff (hnormal : githubNormalizer.normalize digest request batch = .ok b)
    (hidentified : store.WellIdentified)
    (hfilled : FilledBy request.connection.connectionId store) {key : ResourceKey}
    (hkey : key.connectionId = request.connection.connectionId) :
    store.Known b.observedIds (stableResourceId key) ↔
      (∃ v ∈ b.resources, v.key = key) ∨ ∃ x ∈ store.resources.rows, x.key = key := by
  refine or_congr ?_ ?_
  · unfold ValidatedBatch.observedIds
    rw [List.mem_map]
    refine exists_congr fun v => and_congr_right fun hv => ?_
    have hconnection : v.key.connectionId = key.connectionId := by
      rw [(Normalizer.normalize_wellFormed hnormal).resourceConnection v hv,
        (kept_of_normalize hnormal).1, hkey]
    constructor
    · exact fun heq => ResourceKey.eq_of_regroups hconnection (stableResourceId_eq_iff.mp heq)
    · rintro rfl
      rfl
  · constructor
    · intro hsome
      obtain ⟨x, hx⟩ := Option.isSome_iff_exists.mp hsome
      have hmem := KeyedTable.mem_of_get hx
      have hid : stableResourceId x.key = stableResourceId key := by
        rw [← hidentified.resources x hmem]
        exact KeyedTable.key_of_get hx
      exact ⟨x, hmem, ResourceKey.eq_of_regroups ((hfilled.resources x hmem).trans hkey.symm)
        (stableResourceId_eq_iff.mp hid)⟩
    · rintro ⟨x, hx, rfl⟩
      rw [← hidentified.resources x hx, KeyedTable.get_of_mem hx]
      rfl

/-- A workflow of the connection that is stored, in whatever state. -/
def WorkflowStored (store : Store) (connection : ConnectionId) (id : Nat) : Prop :=
  ∃ x ∈ store.resources.rows, x.connectionId = connection ∧ x.kind = workflowKind ∧
    x.externalId.val = "github-workflow" ++ ":" ++ toString id

/-- The workflow of every run was read by the same sync, or is stored. -/
def WorkflowsKnown (wire : Wire) (lists : List ListFetch) (store : Store)
    (connection : ConnectionId) : Prop :=
  ∀ run ∈ runsRead wire lists,
    (∃ w ∈ workflowsRead wire lists, w.id = run.workflowId) ∨
      WorkflowStored store connection run.workflowId

/-- A resource of the batch is an observation under its locator. -/
theorem observed_iff (htakes : Normalizer.Takes digest githubNormalizer request batch b)
    (hnormal : ∀ o ∈ batch.resources, ∃ v d,
      githubNormalizer.normalizeResource digest request o = .ok (v, d)) {locator : ResourceLocator} :
    (∃ v ∈ b.resources, v.key = locator.key request.connection.connectionId) ↔
      locator ∈ batch.resources.map ResourceObservation.locator := by
  rw [List.mem_map]
  constructor
  · rintro ⟨v, hv, hkey⟩
    obtain ⟨o, ho, d, hone⟩ := (htakes.resources v).mp hv
    obtain ⟨hsame, _⟩ := Normalizer.normalizeResource_ok hone
    exact ⟨o, ho, ResourceLocator.key_injective _ (hsame.symm.trans hkey)⟩
  · rintro ⟨o, ho, rfl⟩
    obtain ⟨v, d, hone⟩ := hnormal o ho
    exact ⟨v, (htakes.resources v).mpr ⟨o, ho, d, hone⟩, (Normalizer.normalizeResource_ok hone).1⟩

theorem Handed.locator_known_iff (h : Handed wire now request lists batch)
    (hnormal : githubNormalizer.normalize digest request batch = .ok b)
    (htakes : Normalizer.Takes digest githubNormalizer request batch b)
    (hidentified : store.WellIdentified)
    (hfilled : FilledBy request.connection.connectionId store) (locator : ResourceLocator) :
    store.Known b.observedIds (stableResourceId (locator.key request.connection.connectionId)) ↔
      locator ∈ batch.resources.map ResourceObservation.locator ∨
        ∃ x ∈ store.resources.rows, x.key = locator.key request.connection.connectionId := by
  have haccepted : ∀ o ∈ batch.resources, ∃ v d,
      githubNormalizer.normalizeResource digest request o = .ok (v, d) := by
    intro o ho
    obtain ⟨_, _, _, _, hobserved⟩ := h.observes.accepted o ho
    exact hobserved.accepted digest request
  rw [Handed.known_iff hnormal hidentified hfilled rfl, observed_iff htakes haccepted]

/-- The workflow a run names is known when it was read or is stored. -/
theorem Handed.workflow_known_iff (h : Handed wire now request lists batch)
    (hnormal : githubNormalizer.normalize digest request batch = .ok b)
    (htakes : Normalizer.Takes digest githubNormalizer request batch b)
    (hidentified : store.WellIdentified)
    (hfilled : FilledBy request.connection.connectionId store) {locator : ResourceLocator} {n : Nat}
    (hkind : locator.kind = workflowKind)
    (hid : locator.externalId.val = "github-workflow" ++ ":" ++ toString n) :
    store.Known b.observedIds (stableResourceId (locator.key request.connection.connectionId)) ↔
      (∃ w ∈ workflowsRead wire lists, w.id = n) ∨
        WorkflowStored store request.connection.connectionId n := by
  rw [h.locator_known_iff hnormal htakes hidentified hfilled]
  refine or_congr ?_ ?_
  · rw [List.mem_map]
    constructor
    · rintro ⟨r, hr, rfl⟩
      obtain ⟨w, hw, hwid⟩ := h.observes.fromWorkflow r hr hkind
      have hrid : r.externalId.val = "github-workflow" ++ ":" ++ toString n := hid
      rw [hrid] at hwid
      exact ⟨w, hw, (number_of_numbered hwid).symm⟩
    · rintro ⟨w, hw, rfl⟩
      obtain ⟨r, hr, hrkind, hrid⟩ := h.observes.workflowsObserved w hw
      have hexternal : r.externalId = locator.externalId := StringValue.ext_val (hrid.trans hid.symm)
      refine ⟨r, hr, ?_⟩
      unfold ResourceObservation.locator
      rw [hrkind, hexternal, ← hkind]
  · refine exists_congr fun x => and_congr_right fun _ => ?_
    unfold Resource.key ResourceLocator.key
    rw [ResourceKey.mk.injEq, hkind]
    refine and_congr_right fun _ => and_congr_right fun _ => ?_
    constructor
    · intro heq
      rw [heq, hid]
    · exact fun heq => StringValue.ext_val (heq.trans hid.symm)

/-- The engine knows the ends of every relation exactly when it knows the workflow of every run. -/
theorem Handed.endpointsKnown_iff (h : Handed wire now request lists batch)
    (hnormal : githubNormalizer.normalize digest request batch = .ok b)
    (htakes : Normalizer.Takes digest githubNormalizer request batch b)
    (hidentified : store.WellIdentified)
    (hfilled : FilledBy request.connection.connectionId store) :
    store.EndpointsKnown b ↔ WorkflowsKnown wire lists store request.connection.connectionId := by
  have hlocator := h.locator_known_iff hnormal htakes hidentified hfilled
  constructor
  · intro hends run hrun
    obtain ⟨e, he, hrelated⟩ := h.observes.runsObserved run hrun
    obtain ⟨v, hone⟩ := hrelated.accepted (List.mem_cons_of_mem _ List.mem_cons_self) digest request
    have hv : v ∈ b.relations := (htakes.relations v).mpr ⟨e, he, hone⟩
    have hsource := (hends v hv).1
    rw [(Normalizer.normalizeRelation_key hone).1] at hsource
    exact (h.workflow_known_iff hnormal htakes hidentified hfilled hrelated.source_kind
      hrelated.source_id).mp hsource
  · intro hworkflows v hv
    obtain ⟨e, he, hone⟩ := (htakes.relations v).mp hv
    rw [(Normalizer.normalizeRelation_key hone).1]
    rcases h.observes.related e he with ⟨n, w, _, hsource, htarget⟩ | ⟨run, hrun, hrelated, htarget⟩
    · exact ⟨(hlocator _).mpr (Or.inl hsource), (hlocator _).mpr (Or.inl htarget)⟩
    · have hsource := h.workflow_known_iff hnormal htakes hidentified hfilled hrelated.source_kind
        hrelated.source_id
      exact ⟨hsource.mpr (hworkflows run hrun), (hlocator _).mpr (Or.inl htarget)⟩

end

/-! ## §5  The law -/

/-- The handle the engine issues for a request. -/
structure StartedFor (request : SyncRequest) (handle : SyncRunHandle) : Prop where
  connection : handle.run.connectionId = request.connection.connectionId
  syncRun : handle.run.syncRunId = request.syncRunId
  mode : handle.run.mode = request.mode
  scope : handle.scope = request.scope

/-- Through a new engine a call succeeds exactly when it is accepted. -/
theorem call_new_ok_iff {sys : System} (hs : sys.Sound) {call : EngineCall}
    (hh : call.handle ∈ sys.issued) :
    (∃ r engine, SyncEngine.call (.new sys.store) call = (.ok r, engine)) ↔ sys.Accepted call := by
  have hlands := System.lands_iff hs.unqueued (e := 0) hh
  constructor
  · rintro ⟨r, engine, hcall⟩
    exact (hlands.mp ⟨r, congrArg Prod.fst hcall⟩).2
  · intro haccepted
    obtain ⟨r, hr⟩ := hlands.mpr ⟨rfl, haccepted⟩
    exact ⟨r, _, Prod.ext hr rfl⟩

theorem Handed.checked_iff {digest : Value → Fingerprint} {wire : Wire} {now : Nat}
    {request : SyncRequest} {lists : List ListFetch} {batch : ObservationBatch}
    {b : ValidatedBatch} {store : Store} {handle : SyncRunHandle}
    (h : Handed wire now request lists batch)
    (hnormal : githubNormalizer.normalize digest request batch = .ok b)
    (hrunning : handle.isRunning = true) (hstarted : StartedFor request handle) :
    store.Checked handle b ↔ store.EndpointsKnown b := by
  obtain ⟨hconnection, hrun, hcoverage⟩ := kept_of_normalize hnormal
  refine ⟨fun hchecked => hchecked.endpoints, fun hknown => ⟨hrunning, ?_, ?_, ?_, ?_, hknown⟩⟩
  · rw [hstarted.connection, hconnection]
  · rw [hstarted.syncRun, hrun]
  · rw [hstarted.mode, hcoverage]
    have hvalid := h.valid
    unfold ObservationBatch.validateFor at hvalid
    split at hvalid
    · cases hvalid
    · rename_i haccepts
      exact Bool.of_not_eq_false haccepts
  · intro scope hnamed
    rw [hcoverage] at hnamed
    rw [hstarted.scope]
    exact h.scope scope hnamed

/-- Over a store that the syncs of the connection have filled, a new engine commits what a sync
hands over exactly when the workflow of every run is known. -/
theorem Handed.committed_iff {digest : Value → Fingerprint} {wire : Wire} {now : Nat}
    {request : SyncRequest} {lists : List ListFetch} {batch : ObservationBatch}
    {b : ValidatedBatch} (h : Handed wire now request lists batch)
    (hnormal : githubNormalizer.normalize digest request batch = .ok b)
    (htakes : Normalizer.Takes digest githubNormalizer request batch b) {sys : System}
    (hr : sys.Reachable)
    (hcommitted : ∀ b ∈ sys.committed, CommittedBy digest request.connection.connectionId b)
    {handle : SyncRunHandle} (hissued : handle ∈ sys.issued) (hstarted : StartedFor request handle)
    (at_ : Timestamp) :
    (∃ r engine, SyncEngine.call (.new sys.store) (.commit handle b at_) = (.ok r, engine)) ↔
      WorkflowsKnown wire lists sys.store request.connection.connectionId := by
  have hs := hr.sound
  have hfilled := filledBy_of_committed hr.sourced hcommitted
  have hwf := Normalizer.normalize_wellFormed hnormal
  rw [call_new_ok_iff hs (show (EngineCall.commit handle b at_).handle ∈ sys.issued from hissued),
    System.accepted_commit_iff hs hissued hwf,
    h.checked_iff hnormal (hs.issued handle hissued).2 hstarted,
    h.endpointsKnown_iff hnormal htakes hs.identified hfilled]
  exact and_iff_left (h.keysApart hnormal htakes hfilled)

/-- Whenever a sync goes through, the normalizer takes its batch; and over every store that the
syncs of its connection have filled, a new engine commits it exactly when the workflow of every run
was read by this sync or is stored. -/
theorem outcome_committed_iff {digest : Value → Fingerprint} {wire : Wire} {transport : Transport}
    {now : Nat} {request : SyncRequest} {secret : Option (List UInt8)} {connector : GitHubConnector}
    {outcome : SyncOutcome} {s : Syncing}
    (hsync : sync wire transport now request secret { connector := connector } = (.ok outcome, s)) :
    ∃ b, githubNormalizer.normalize digest request outcome.batch = .ok b ∧
      ∀ (sys : System) (handle : SyncRunHandle) (at_ : Timestamp), sys.Reachable →
        (∀ b ∈ sys.committed, CommittedBy digest request.connection.connectionId b) →
        handle ∈ sys.issued → StartedFor request handle →
        ((∃ r engine, SyncEngine.call (.new sys.store) (.commit handle b at_) = (.ok r, engine)) ↔
          WorkflowsKnown wire s.lists sys.store request.connection.connectionId) := by
  have hhanded := sync_handed hsync
  obtain ⟨b, hnormal, htakes⟩ := @Handed.normalized digest _ _ _ _ _ hhanded
  refine ⟨b, hnormal, ?_⟩
  intro sys handle at_ hr hcommitted hissued hstarted
  exact hhanded.committed_iff hnormal htakes hr hcommitted hissued hstarted at_

namespace OneRun

open Fixture

def repository : RepositoryDto where
  id := 1
  name := "infra"
  owner := ⟨"octo"⟩
  visibility := "private"
  defaultBranch := none
  archived := false
  disabled := false
  createdAt := "2026-01-01T00:00:00Z"
  updatedAt := "2026-01-01T00:00:00Z"

def workflow : WorkflowDto where
  id := 7
  name := "deploy"
  path := ".github/workflows/deploy.yml"
  state := "active"
  createdAt := "2026-01-01T00:00:00Z"
  updatedAt := "2026-01-01T00:00:00Z"

def run : WorkflowRunDto where
  id := 70
  workflowId := 7
  name := none
  displayTitle := "Deploy"
  runNumber := 3
  status := "completed"
  conclusion := some "success"
  createdAt := "2026-01-01T00:00:00Z"

/-! The three lists as GitHub writes them, with the members the client reads. -/

def repositoriesText (listed : List RepositoryDto) : Body :=
  (JsonText.array (listed.map fun repository => .record [
    ("id", .nat repository.id), ("name", .text repository.name),
    ("owner", .record [("login", .text repository.owner.login)]),
    ("visibility", .text repository.visibility),
    ("default_branch", repository.defaultBranch.elim .null .text),
    ("archived", .bool repository.archived), ("disabled", .bool repository.disabled),
    ("created_at", .text repository.createdAt),
    ("updated_at", .text repository.updatedAt)])).bytes

/-- A page of the workflows; the count is that of all pages. -/
def workflowsText (total : Nat) (listed : List WorkflowDto) : Body :=
  (JsonText.record [("total_count", .nat total),
    ("workflows", .array (listed.map fun workflow => .record [
      ("id", .nat workflow.id), ("name", .text workflow.name), ("path", .text workflow.path),
      ("state", .text workflow.state), ("created_at", .text workflow.createdAt),
      ("updated_at", .text workflow.updatedAt)]))]).bytes

def runsText (listed : List WorkflowRunDto) : Body :=
  (JsonText.record [("total_count", .nat listed.length),
    ("workflow_runs", .array (listed.map fun run => .record [
      ("id", .nat run.id), ("workflow_id", .nat run.workflowId),
      ("name", run.name.elim .null .text), ("display_title", .text run.displayTitle),
      ("run_number", .nat run.runNumber), ("run_attempt", .nat 1), ("event", .text "push"),
      ("status", .text run.status), ("conclusion", run.conclusion.elim .null .text),
      ("head_branch", .null), ("created_at", .text run.createdAt),
      ("updated_at", .text run.createdAt), ("run_started_at", .null)]))]).bytes

def repositoriesUrl : String :=
  "https://api.github.com/user/repos?visibility=all&" ++
    "affiliation=owner,collaborator,organization_member&sort=full_name&direction=asc&per_page=100"

def workflowsUrl : String :=
  "https://api.github.com/repos/octo/infra/actions/workflows?per_page=100"

/-- One repository with one run, its workflow listed or deleted. It reads the three texts
and no others. -/
def wire (listed : List WorkflowDto) : Wire :=
  { apiWire with
    repositories := fun body =>
      if body = repositoriesText [repository] then some [repository] else none
    workflowList := fun body =>
      if body = workflowsText listed.length listed then some ⟨listed⟩ else none
    runList := fun body => if body = runsText [run] then some ⟨[run]⟩ else none }

def untagged : GitHubResponseHeaders where
  etag := none
  link := none
  retryAfter := none
  rateLimitRemaining := none
  rateLimitReset := none

/-- Every list is one page. -/
def transport (listed : List WorkflowDto) : Transport := fun _ request =>
  { answer := .ok
      { status := 200
        headers := untagged
        body :=
          if request.url.text = repositoriesUrl then repositoriesText [repository]
          else if request.url.text = workflowsUrl then workflowsText listed.length listed
          else runsText [run]
        elapsedMs := 1 }
    now := 0 }

def request : SyncRequest where
  syncRunId := text "r1"
  connection :=
    { connectionId := text "c"
      connectorType := .github
      config := .object [("selected_repository_ids", .array [.string "1"])]
      configSchemaVersion := .one }
  mode := .full
  scope := text "github:c"
  cursor := none
  targetedResources := []

def synced (listed : List WorkflowDto) : Except ConnectorFailure SyncOutcome × Syncing :=
  sync (wire listed) (transport listed) 0 request (some [120]) { connector := .new }

/-- A sync that goes through and reads the run, and these workflows. -/
def Reads (listed : List WorkflowDto) (ids : List Nat) : Bool :=
  (synced listed).1.isOk &&
    decide ((runsRead (wire listed) (synced listed).2.lists).map WorkflowRunDto.workflowId = [7]) &&
    decide ((workflowsRead (wire listed) (synced listed).2.lists).map WorkflowDto.id = ids)

theorem reads_deleted : Reads [] [] = true := by decide +kernel

theorem reads_listed : Reads [workflow] [7] = true := by decide +kernel

theorem reads_iff {listed : List WorkflowDto} {ids : List Nat} : Reads listed ids = true ↔
    (synced listed).1.isOk = true ∧
      (runsRead (wire listed) (synced listed).2.lists).map WorkflowRunDto.workflowId = [7] ∧
      (workflowsRead (wire listed) (synced listed).2.lists).map WorkflowDto.id = ids := by
  unfold Reads
  rw [Bool.and_eq_true, Bool.and_eq_true, decide_eq_true_eq, decide_eq_true_eq, and_assoc]

/-- An empty store with the run of the request started. -/
def system : System :=
  System.machine.replay .fresh
    [.connect (connection (text "c")), .start 0 (text "c") (start (text "r1") .full (text "github:c"))]

theorem system_reachable : system.Reachable := System.reachable_replay (by decide)

def handle : SyncRunHandle := Fixture.handle (text "c") (text "r1") .full (text "github:c")

theorem handle_issued : handle ∈ system.issued := by decide

theorem handle_started : StartedFor request handle := ⟨rfl, rfl, rfl, rfl⟩

/-- With the workflow deleted, the run is left without its start. -/
theorem workflow_unknown :
    ¬ WorkflowsKnown (wire []) (synced []).2.lists system.store request.connection.connectionId := by
  obtain ⟨_, hruns, hworkflows⟩ := reads_iff.mp reads_deleted
  obtain ⟨found, hfound, hid⟩ : ∃ found ∈ runsRead (wire []) (synced []).2.lists,
      found.workflowId = 7 := List.mem_map.mp (hruns ▸ List.mem_cons_self)
  have hnone : workflowsRead (wire []) (synced []).2.lists = [] := List.map_eq_nil_iff.mp hworkflows
  intro h
  rcases h found hfound with ⟨w, hw, _⟩ | ⟨x, hx, _⟩
  · rw [hnone] at hw
    cases hw
  · have hempty : system.store.resources.rows = [] := rfl
    rw [hempty] at hx
    cases hx

theorem workflow_known : WorkflowsKnown (wire [workflow]) (synced [workflow]).2.lists system.store
    request.connection.connectionId := by
  obtain ⟨_, hruns, hworkflows⟩ := reads_iff.mp reads_listed
  intro found hfound
  have hid : found.workflowId = 7 := by
    have hmem := List.mem_map_of_mem (f := WorkflowRunDto.workflowId) hfound
    rw [hruns] at hmem
    exact List.mem_singleton.mp hmem
  obtain ⟨w, hw, hwid⟩ : ∃ w ∈ workflowsRead (wire [workflow]) (synced [workflow]).2.lists,
      w.id = 7 := List.mem_map.mp (hworkflows ▸ List.mem_cons_self)
  exact Or.inl ⟨w, hw, hwid.trans hid.symm⟩

end OneRun

open OneRun in
/-- The run of a deleted workflow: the sync goes through, the normalizer takes its batch, and the
commit of it is refused. -/
theorem deleted_workflow_refuses_commit :
    ∃ outcome b, synced [] = (.ok outcome, (synced []).2) ∧
      githubNormalizer.normalize (fun _ => Fixture.text "f") request outcome.batch = .ok b ∧
      system.Reachable ∧ system.committed = [] ∧ handle ∈ system.issued ∧
      StartedFor request handle ∧
      ¬ ∃ r engine, SyncEngine.call (.new system.store) (.commit handle b (Fixture.time 2)) =
        (.ok r, engine) := by
  obtain ⟨outcome, hsync⟩ := Attempt.result_of_isOk (reads_iff.mp reads_deleted).1
  have hhanded := sync_handed hsync
  obtain ⟨b, hnormal, htakes⟩ := @Handed.normalized (fun _ => Fixture.text "f") _ _ _ _ _ hhanded
  refine ⟨outcome, b, hsync, hnormal, system_reachable, rfl, handle_issued, handle_started, ?_⟩
  rw [hhanded.committed_iff hnormal htakes system_reachable (by intro b hb; cases hb) handle_issued
    handle_started]
  exact workflow_unknown

open OneRun in
/-- Listed, the same workflow lets the run be committed. -/
theorem outcome_committed_iff_listed :
    ∃ outcome b, synced [workflow] = (.ok outcome, (synced [workflow]).2) ∧
      githubNormalizer.normalize (fun _ => Fixture.text "f") request outcome.batch = .ok b ∧
      ∃ r engine, SyncEngine.call (.new system.store) (.commit handle b (Fixture.time 2)) =
        (.ok r, engine) := by
  obtain ⟨outcome, hsync⟩ := Attempt.result_of_isOk (reads_iff.mp reads_listed).1
  obtain ⟨b, hnormal, hiff⟩ := @outcome_committed_iff (fun _ => Fixture.text "f") _ _ _ _ _ _ _ _ hsync
  refine ⟨outcome, b, hsync, hnormal, ?_⟩
  exact (hiff system handle (Fixture.time 2) system_reachable (by intro b hb; cases hb) handle_issued
    handle_started).mpr workflow_known

end GitHub

end NextInfra
