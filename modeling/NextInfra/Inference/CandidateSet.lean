import NextInfra.Inference.History

/-!
# Inference as a function of the candidate set

Order and repetition of the candidates, and of the ids they are inferred from, decide
nothing (`SameCandidates`), except that a list longer than the limit is refused. A run
that succeeds leaves exactly the candidates' relations of its rule alive
(`InferenceRan.settles`).

Relations of other rules are out of reach because an inferred relation's id is the
digest of its rule and inputs. `SeparatesRules` is the collision resistance of
`Sha256` as far as that needs it.
-/

namespace NextInfra

open InferenceEngine

/-! ## §1  Candidate sets -/

/-- The same candidate up to order and repetition of its input ids. -/
structure InferenceCandidate.Same (c d : InferenceCandidate) : Prop where
  source : c.sourceResourceId = d.sourceResourceId
  target : c.targetResourceId = d.targetResourceId
  kind : c.kind = d.kind
  resourceInputs : ∀ v, v ∈ c.inputResourceVersionIds ↔ v ∈ d.inputResourceVersionIds
  relationInputs : ∀ v, v ∈ c.inputRelationVersionIds ↔ v ∈ d.inputRelationVersionIds
  confidence : c.confidence = d.confidence

/-- Each list repeats, in any order, what the other holds. -/
def SameCandidates (cs ds : List InferenceCandidate) : Prop :=
  (∀ c ∈ cs, ∃ d ∈ ds, c.Same d) ∧ ∀ d ∈ ds, ∃ c ∈ cs, c.Same d

theorem InferenceCandidate.Same.symm {c d : InferenceCandidate} (h : c.Same d) : d.Same c where
  source := h.source.symm
  target := h.target.symm
  kind := h.kind.symm
  resourceInputs := fun v => (h.resourceInputs v).symm
  relationInputs := fun v => (h.relationInputs v).symm
  confidence := h.confidence.symm

theorem SameCandidates.symm {cs ds : List InferenceCandidate} (h : SameCandidates cs ds) :
    SameCandidates ds cs := by
  constructor
  · intro d hd
    obtain ⟨c, hc, hsame⟩ := h.2 d hd
    exact ⟨c, hc, hsame.symm⟩
  · intro c hc
    obtain ⟨d, hd, hsame⟩ := h.1 c hc
    exact ⟨d, hd, hsame.symm⟩

/-- Sorting and dropping repeats forgets the difference. -/
theorem InferenceCandidate.Same.normalized_eq {c d : InferenceCandidate} (h : c.Same d) :
    c.normalized = d.normalized := by
  obtain ⟨hsource, htarget, hkind, hresources, hrelations, hconfidence⟩ := h
  cases c
  cases d
  simp only at hsource htarget hkind hresources hrelations hconfidence
  unfold InferenceCandidate.normalized
  simp only
  rw [OrderedSet.sorted_congr hresources, OrderedSet.sorted_congr hrelations, hsource, htarget,
    hkind, hconfidence]

/-- What holds of every candidate, normalized, holds of the other list's. -/
theorem SameCandidates.forall_normalized {cs ds : List InferenceCandidate}
    (h : SameCandidates cs ds) {P : InferenceCandidate → Prop} (hP : ∀ c ∈ cs, P c.normalized) :
    ∀ d ∈ ds, P d.normalized := by
  intro d hd
  obtain ⟨c, hc, hsame⟩ := h.2 d hd
  rw [← hsame.normalized_eq]
  exact hP c hc

theorem SameCandidates.mem_flatMap {cs ds : List InferenceCandidate} (h : SameCandidates cs ds)
    {α : Type} (f : InferenceCandidate → List α) {a : α} :
    a ∈ cs.flatMap (fun c => f c.normalized) ↔ a ∈ ds.flatMap fun d => f d.normalized := by
  have hhalf : ∀ {cs ds : List InferenceCandidate}, SameCandidates cs ds →
      a ∈ cs.flatMap (fun c => f c.normalized) → a ∈ ds.flatMap fun d => f d.normalized := by
    intro cs ds h ha
    obtain ⟨c, hc, ha⟩ := List.mem_flatMap.mp ha
    obtain ⟨d, hd, hsame⟩ := h.1 c hc
    rw [hsame.normalized_eq] at ha
    exact List.mem_flatMap.mpr ⟨d, hd, ha⟩
  exact ⟨hhalf h, hhalf h.symm⟩

section

variable {digest : Value → HexDigest} {rule : RuleVersion} {at_ : Timestamp} {uuid : Uuid}
  {s s' : Store} {registered : List RuleVersion} {cs ds : List InferenceCandidate}
  {commit : InferenceCommit}

theorem SameCandidates.mem_outputs (h : SameCandidates cs ds) {x : Relation} :
    x ∈ s.outputs digest rule at_ cs ↔ x ∈ s.outputs digest rule at_ ds := by
  have hhalf : ∀ {cs ds : List InferenceCandidate}, SameCandidates cs ds →
      x ∈ s.outputs digest rule at_ cs → x ∈ s.outputs digest rule at_ ds := by
    intro cs ds h hx
    obtain ⟨c, hc, rfl⟩ := List.mem_map.mp hx
    obtain ⟨d, hd, hsame⟩ := h.1 c hc
    refine List.mem_map.mpr ⟨d, hd, ?_⟩
    unfold outputOf
    rw [hsame.normalized_eq]
  exact ⟨hhalf h, hhalf h.symm⟩

/-- The commit planned for one list is the commit planned for the other. -/
theorem InferencePlanned.congr (h : SameCandidates cs ds)
    (hp : InferencePlanned digest rule at_ uuid s cs commit) :
    InferencePlanned digest rule at_ uuid s ds commit := by
  have hagree : Agree .empty (s.outputs digest rule at_ ds) := by
    intro a ha b hb hid
    rw [← h.mem_outputs] at ha
    refine hp.agree a ha b ?_ hid
    rcases hb with hb | hb
    · exact Or.inl hb
    · exact Or.inr (h.mem_outputs.mpr hb)
  have hproduced : (KeyedTable.empty.putAll (s.outputs digest rule at_ cs) :
      KeyedTable Relation.relationId) = KeyedTable.empty.putAll (s.outputs digest rule at_ ds) := by
    apply KeyedTable.ext_mem
    intro x
    rw [KeyedTable.mem_putAll hp.agree, KeyedTable.mem_putAll hagree, h.mem_outputs]
  have hgathered : Gathered.empty.adding (s.outputs digest rule at_ cs) cs =
      Gathered.empty.adding (s.outputs digest rule at_ ds) ds := by
    unfold Gathered.adding
    rw [Gathered.mk.injEq]
    refine ⟨hproduced, ?_, ?_⟩
    · apply KeyedTable.ext_mem
      intro v
      rw [OrderedSet.mem_putAll, OrderedSet.mem_putAll,
        h.mem_flatMap InferenceCandidate.inputResourceVersionIds]
    · apply KeyedTable.ext_mem
      intro v
      rw [OrderedSet.mem_putAll, OrderedSet.mem_putAll,
        h.mem_flatMap InferenceCandidate.inputRelationVersionIds]
  exact
    { admits := h.forall_normalized hp.admits
      agree := hagree
      run := by rw [hp.run, hgathered]
      relations := by rw [hp.relations, hproduced]
      recorded := hp.recorded }

theorem sameCandidates_replicate (c : InferenceCandidate) (n : Nat) :
    SameCandidates [c] (List.replicate (n + 1) c) := by
  have hself : c.Same c := ⟨rfl, rfl, rfl, fun _ => Iff.rfl, fun _ => Iff.rfl, rfl⟩
  constructor
  · intro x hx
    rw [List.mem_singleton.mp hx]
    exact ⟨c, List.mem_replicate.mpr ⟨Nat.succ_ne_zero n, rfl⟩, hself⟩
  · intro x hx
    rw [(List.mem_replicate.mp hx).2]
    exact ⟨c, List.mem_singleton.mpr rfl, hself⟩

/-- More candidates than the limit are refused, whatever they are. -/
theorem run_over_limit (hregistered : rule ∈ registered)
    (hcs : cs.length > maxInferenceCandidates) :
    (run digest rule at_ s registered cs uuid :
      Except (InferenceError StoreError) (InferenceRun × Store)) = .error .candidateLimit := by
  have hlimit : (requireWithinLimit cs : Except (InferenceError StoreError) Unit) =
      .error .candidateLimit := by
    unfold requireWithinLimit
    rw [if_pos hcs]
  unfold run commitFor
  rw [requireRegistered_ok_iff.mpr hregistered, hlimit]
  rfl

/-- A run over one list is a run over the other, within the limit. -/
theorem run_congr (h : SameCandidates cs ds) (hds : ds.length ≤ maxInferenceCandidates)
    {r : InferenceRun} (hrun : (run digest rule at_ s registered cs uuid :
      Except (InferenceError StoreError) (InferenceRun × Store)) = .ok (r, s')) :
    (run digest rule at_ s registered ds uuid :
      Except (InferenceError StoreError) (InferenceRun × Store)) = .ok (r, s') := by
  obtain ⟨commit, hcommit, hstore, hr⟩ := run_ok_iff.mp hrun
  obtain ⟨hregistered, _, hplanned⟩ := commitFor_ok_iff.mp hcommit
  exact run_ok_iff.mpr ⟨commit,
    commitFor_ok_iff.mpr ⟨hregistered, hds, hplanned.congr h⟩, hstore, hr⟩

end

/-! ## §2  What a run settles -/

/-- The rule's relations after a run over some candidates, and everyone else's. -/
structure Settles (digest : Value → HexDigest) (rule : RuleVersion) (at_ : Timestamp)
    (cs : List InferenceCandidate) (s s' : Store) : Prop where
  candidates : ∀ c ∈ cs, ∃ x, s'.relations.get (c.normalized.relationId digest rule) = some x ∧
    x.sourceResourceId = c.sourceResourceId ∧ x.targetResourceId = c.targetResourceId ∧
      x.kind = c.kind ∧ x.evidence = c.normalized.evidence rule ∧ x.lifecycle = .active
  live : ∀ x ∈ s'.relations.rows, x.inferredBy rule = true →
    (x.lifecycle ≠ .tombstoned ↔ ∃ c ∈ cs, x.relationId = c.normalized.relationId digest rule)
  retired : ∀ x ∈ s.relations.rows, x.inferredBy rule = true → x.lifecycle ≠ .tombstoned →
    (∀ c ∈ cs, c.normalized.relationId digest rule ≠ x.relationId) →
      s'.relations.get x.relationId = some { x with lifecycle := .tombstoned, lastSeenAt := at_ }
  others : ∀ x : Relation, x.evidence.evidenceType ≠ .inferred →
    (x ∈ s'.relations.rows ↔ x ∈ s.relations.rows)

theorem Relation.evidenceType_of_inferredBy {rule : RuleVersion} {x : Relation}
    (h : x.inferredBy rule = true) : x.evidence.evidenceType = .inferred := by
  obtain ⟨_, _, _, hevidence⟩ := Relation.inferredBy_iff.mp h
  rw [hevidence]
  rfl

theorem InferenceRan.settles {digest : Value → HexDigest} {rule : RuleVersion} {at_ : Timestamp}
    {uuid : Uuid} {s s' : Store} {cs : List InferenceCandidate} {commit : InferenceCommit}
    (h : InferenceRan digest rule at_ uuid s cs commit s') : Settles digest rule at_ cs s s' where
  candidates := by
    intro c hc
    obtain ⟨firstSeenAt, hget⟩ := h.get_output hc
    exact ⟨_, hget, rfl, rfl, rfl, rfl, rfl⟩
  live := fun x hx hrule => h.live_iff hx hrule
  retired := by
    intro x hx hrule hlive hno
    have hmem : retired at_ x ∈ commit.relations := by
      refine h.mem_relations.mpr (Or.inr ⟨x, KeyedTable.mem_keep.mpr ⟨hx, hrule⟩, hlive, ?_, rfl⟩)
      intro o ho
      obtain ⟨c, hc, rfl⟩ := List.mem_map.mp ho
      exact hno c hc
    refine h.get_known hmem ?_
    intro old hold
    have hsame : s.relations.get x.relationId = some old := hold
    rw [KeyedTable.get_of_mem hx] at hsame
    cases hsame
    exact hrule
  others := by
    intro x htype
    obtain ⟨outputs, rfl⟩ := h.effect.eq
    refine Store.mem_applyAll_of_type h.effect.relationsFit ?_ rfl
    intro r hr hsame
    rw [Relation.evidenceType_of_inferredBy (h.relations_inferredBy hr)] at hsame
    exact htype hsame.symm

/-! ## §3  Other rules -/

/-- Candidates of different rules have different digests. -/
def SeparatesRules (digest : Value → HexDigest) : Prop :=
  ∀ (rule rule' : RuleVersion) (c c' : InferenceCandidate),
    c.digestOf digest rule = c'.digestOf digest rule' → rule = rule'

/-- A digest without collisions separates rules: the rule is part of what is hashed. -/
theorem separatesRules_of_injective {digest : Value → HexDigest}
    (h : Function.Injective digest) : SeparatesRules digest := by
  intro rule rule' c c' hsame
  have hvalue : c.digested rule = c'.digested rule' := h hsame
  have hrule := congrArg (fun v => v.get "rule_version") hvalue
  have hread : ∀ (rule : RuleVersion) (c : InferenceCandidate),
      (c.digested rule).get "rule_version" = some (.string rule.val) := by
    intro rule c
    simp [InferenceCandidate.digested, Value.mkObject, Value.get, Value.fieldOf_setField]
  simp only [hread, Option.some.injEq, Value.string.injEq] at hrule
  exact StringValue.ext_val hrule

/-- An inferred relation's id is the digest of a candidate of its rule. -/
def Store.Digested (digest : Value → HexDigest) (s : Store) : Prop :=
  ∀ x ∈ s.relations.rows, ∀ rule, x.inferredBy rule = true →
    ∃ c : InferenceCandidate, x.relationId = c.relationId digest rule

theorem relationId_rule {digest : Value → HexDigest} (hdigest : SeparatesRules digest)
    {rule rule' : RuleVersion} {c c' : InferenceCandidate}
    (h : c.relationId digest rule = c'.relationId digest rule') : rule = rule' := by
  have hval : ("inferred-relation:" ++ (c.digestOf digest rule).text).toList =
      ("inferred-relation:" ++ (c'.digestOf digest rule').text).toList := by
    rw [show "inferred-relation:" ++ (c.digestOf digest rule).text =
      "inferred-relation:" ++ (c'.digestOf digest rule').text from congrArg StringValue.val h]
  rw [String.toList_append, String.toList_append] at hval
  have htext := String.toList_inj.mp (List.append_cancel_left hval)
  apply hdigest rule rule' c c'
  generalize c.digestOf digest rule = a at htext
  generalize c'.digestOf digest rule' = b at htext
  cases a
  cases b
  cases htext
  rfl

namespace InferenceRan

variable {digest : Value → HexDigest} {rule : RuleVersion} {at_ : Timestamp} {uuid : Uuid}
  {s s' : Store} {cs : List InferenceCandidate} {commit : InferenceCommit}

/-- The id of a relation of the commit is the digest of a candidate of the rule. -/
theorem digested_relation (h : InferenceRan digest rule at_ uuid s cs commit s')
    (hs : s.Digested digest) {y : Relation} (hy : y ∈ commit.relations) :
    ∃ c : InferenceCandidate, y.relationId = c.relationId digest rule := by
  rcases h.mem_relations.mp hy with hout | ⟨old, hold, _, _, rfl⟩
  · obtain ⟨c, _, rfl⟩ := List.mem_map.mp hout
    exact ⟨c.normalized, rfl⟩
  · obtain ⟨hmem, hrule⟩ := KeyedTable.mem_keep.mp hold
    exact hs old hmem rule hrule

/-- The relation a commit leaves under one of its ids is the rule's. -/
theorem inferredBy_of_touched (h : InferenceRan digest rule at_ uuid s cs commit s')
    {x y : Relation} (hy : y ∈ commit.relations) (hx : x ∈ s'.relations.rows)
    (hid : y.relationId = x.relationId) : x.inferredBy rule = true := by
  have hget := h.get_relation hy
  rw [hid, KeyedTable.get_of_mem hx] at hget
  obtain ⟨firstSeenAt, hrow⟩ := Store.relationRule_row s.relations y
  rw [hrow] at hget
  rw [Option.some.inj hget]
  show y.inferredBy rule = true
  exact h.relations_inferredBy hy

theorem digested (h : InferenceRan digest rule at_ uuid s cs commit s') (hs : s.Digested digest) :
    s'.Digested digest := by
  intro x hx rule' hrule'
  by_cases htouched : ∃ y ∈ commit.relations, y.relationId = x.relationId
  · obtain ⟨y, hy, hid⟩ := htouched
    obtain ⟨c, hc⟩ := h.digested_relation hs hy
    have hrule := h.inferredBy_of_touched hy hx hid
    obtain ⟨_, _, _, hevidence⟩ := Relation.inferredBy_iff.mp hrule
    obtain ⟨_, _, _, hevidence'⟩ := Relation.inferredBy_iff.mp hrule'
    rw [hevidence, RelationEvidence.inferred.injEq] at hevidence'
    rw [← hevidence'.1]
    exact ⟨c, hid.symm.trans hc⟩
  · have hkept := h.get_other fun y hy hid => htouched ⟨y, hy, hid⟩
    rw [KeyedTable.get_of_mem hx] at hkept
    exact hs x (KeyedTable.mem_of_get hkept.symm) rule' hrule'

/-- A relation of another rule is neither written nor removed. -/
theorem other_rule (h : InferenceRan digest rule at_ uuid s cs commit s')
    (hs : s.Digested digest) (hdigest : SeparatesRules digest) {rule' : RuleVersion}
    (hne : rule' ≠ rule) {x : Relation} (hrule' : x.inferredBy rule' = true) :
    x ∈ s'.relations.rows ↔ x ∈ s.relations.rows := by
  by_cases htouched : ∃ y ∈ commit.relations, y.relationId = x.relationId
  · obtain ⟨y, hy, hid⟩ := htouched
    obtain ⟨c, hc⟩ := h.digested_relation hs hy
    have hstranger : ∀ t : Store, t.Digested digest → x ∉ t.relations.rows := by
      intro t ht hx
      obtain ⟨c', hc'⟩ := ht x hx rule' hrule'
      exact hne (relationId_rule hdigest (hc'.symm.trans (hid.symm.trans hc)))
    exact ⟨fun hx => absurd hx (hstranger s' (h.digested hs)),
      fun hx => absurd hx (hstranger s hs)⟩
  · have hkept := h.get_other fun y hy hid => htouched ⟨y, hy, hid⟩
    rw [KeyedTable.mem_iff_get, KeyedTable.mem_iff_get, hkept]

end InferenceRan

/-! ## §4  Runs -/

namespace InferenceWorld

variable {digest : Value → HexDigest}

theorem digested_preserved :
    (machine digest).Preserves fun w => w.store.Digested digest := by
  intro w call hen hw
  cases call with
  | infer call =>
      show (w.ran (call.commit digest w.store)).store.Digested digest
      cases hcommit : call.commit digest w.store with
      | none => exact hw
      | some p =>
          obtain ⟨commit, s'⟩ := p
          exact (InferenceCall.commit_ran hcommit).1.digested hw
  | other write =>
      show (w.store.written write).Digested digest
      rcases w.store.written_cases write with hsame | hrun
      · rw [hsame]
        exact hw
      · intro x hx rule hrule
        have hrows : ∀ r ∈ write.relations, r.evidence.evidenceType ≠ .inferred := by
          intro r hr
          rw [hen.1.types r hr]
          exact hen.2
        exact hw x ((Write.relationEffect hrun).row_was hrows hx
          (Relation.evidenceType_of_inferredBy hrule)) rule hrule

theorem digested_fresh (digest : Value → HexDigest) : fresh.store.Digested digest := by
  intro x hx
  cases hx

/-- A run that fails commits nothing. -/
theorem step_of_error {w : InferenceWorld} {call : InferenceCall} {e : InferenceError StoreError}
    (h : (run digest call.rule call.at_ w.store call.registered call.candidates call.uuid :
      Except (InferenceError StoreError) (InferenceRun × Store)) = .error e) :
    w.step digest (.infer call) = w := by
  show w.ran (call.commit digest w.store) = w
  cases hcommit : call.commit digest w.store with
  | none => rfl
  | some p =>
      obtain ⟨commit, s'⟩ := p
      rw [(InferenceCall.commit_ran hcommit).2] at h
      cases h

end InferenceWorld

/-- Within the limit a run depends on the set of its candidates only; it leaves exactly
the candidates' relations of its rule alive and everyone else's untouched, those of
other rules in every state the writers reach; a run that fails commits nothing. -/
theorem inference_function_of_candidate_set (digest : Value → HexDigest) :
    (∀ (s s' : Store) rule at_ uuid registered cs ds (r : InferenceRun), SameCandidates cs ds →
        cs.length ≤ maxInferenceCandidates → ds.length ≤ maxInferenceCandidates →
        ((run digest rule at_ s registered cs uuid :
            Except (InferenceError StoreError) (InferenceRun × Store)) = .ok (r, s') ↔
          run digest rule at_ s registered ds uuid = .ok (r, s'))) ∧
      (∀ (s s' : Store) rule at_ uuid registered cs (r : InferenceRun),
        (run digest rule at_ s registered cs uuid :
            Except (InferenceError StoreError) (InferenceRun × Store)) = .ok (r, s') →
          Settles digest rule at_ cs s s') ∧
      (∀ calls w s' rule at_ uuid registered cs (r : InferenceRun) rule' (x : Relation),
        SeparatesRules digest → (InferenceWorld.machine digest).Run .fresh calls w →
          (run digest rule at_ w.store registered cs uuid :
            Except (InferenceError StoreError) (InferenceRun × Store)) = .ok (r, s') →
          rule' ≠ rule → x.inferredBy rule' = true →
            (x ∈ s'.relations.rows ↔ x ∈ w.store.relations.rows)) ∧
      ∀ (w : InferenceWorld) (call : InferenceCall) (e : InferenceError StoreError),
        (run digest call.rule call.at_ w.store call.registered call.candidates call.uuid :
          Except (InferenceError StoreError) (InferenceRun × Store)) = .error e →
        w.step digest (.infer call) = w := by
  refine ⟨?_, ?_, ?_, ?_⟩
  · intro s s' rule at_ uuid registered cs ds r hsame hcs hds
    exact ⟨run_congr hsame hds, run_congr hsame.symm hcs⟩
  · intro s s' rule at_ uuid registered cs r hrun
    obtain ⟨commit, h⟩ := run_ok hrun
    exact h.settles
  · intro calls w s' rule at_ uuid registered cs r rule' x hdigest hreach hrun hne hrule'
    obtain ⟨commit, h⟩ := run_ok hrun
    have hs : w.store.Digested digest :=
      hreach.invariant (P := fun w => w.store.Digested digest) InferenceWorld.digested_preserved
        (InferenceWorld.digested_fresh digest)
    exact h.other_rule hs hdigest hne hrule'
  · intro w call e h
    exact InferenceWorld.step_of_error h

/-! ## §5  Runs at the limit and beside another rule -/

namespace Fixture

/-- The decimal codes of the characters, each after an `a`. -/
def codes (s : String) : List (List Char) :=
  [] :: [] :: s.toList.map fun c => Nat.toDigits 10 c.toNat

theorem codes_free (s : String) : ∀ code ∈ codes s, 'a' ∉ code := by
  intro code hcode ha
  rcases List.mem_cons.mp hcode with rfl | hcode
  · cases ha
  rcases List.mem_cons.mp hcode with rfl | hcode
  · cases ha
  obtain ⟨c, _, rfl⟩ := List.mem_map.mp hcode
  have hdigit := Nat.isDigit_of_mem_toDigits (by decide) (by decide) ha
  revert hdigit
  decide

theorem codes_injective : Function.Injective codes := by
  intro s t h
  unfold codes at h
  rw [List.cons.injEq, List.cons.injEq] at h
  apply String.toList_inj.mp
  refine List.map_injective_iff.mpr ?_ h.2.2
  intro c d hcd
  have hdigits : Nat.toDigits 10 c.toNat = Nat.toDigits 10 d.toNat := hcd
  have hnat : c.toNat = d.toNat := by
    rw [← Nat.ofDigitChars_ten_toDigits (n := c.toNat), hdigits, Nat.ofDigitChars_ten_toDigits]
  exact Char.toNat_inj.mp hnat

theorem hex_codes (s : String) : (String.ofList (Separated.join 'a' (codes s))).toList ≠ [] ∧
    (String.ofList (Separated.join 'a' (codes s))).toList.all isHexChar = true := by
  rw [String.toList_ofList]
  constructor
  · unfold codes
    rw [Separated.join_cons_cons]
    exact List.cons_ne_nil _ _
  · rw [List.all_eq_true]
    intro c hc
    rcases mem_intercalate hc with ⟨code, hcode, hmem⟩ | hsep
    · rcases List.mem_cons.mp hcode with rfl | hcode
      · cases hmem
      rcases List.mem_cons.mp hcode with rfl | hcode
      · cases hmem
      obtain ⟨d, _, rfl⟩ := List.mem_map.mp hcode
      have hdigit := Nat.isDigit_of_mem_toDigits (by decide) (by decide) hmem
      unfold isHexChar
      rw [hdigit]
      rfl
    · rw [List.mem_singleton.mp hsep]
      decide

/-- The rule in what is hashed. -/
def hashedRule (v : Value) : String :=
  match v.get "rule_version" with
  | some (.string rule) => rule
  | _ => ""

/-- A digest that spells the rule out. -/
def ruleDigest (v : Value) : HexDigest :=
  ⟨String.ofList (Separated.join 'a' (codes (hashedRule v))), hex_codes (hashedRule v)⟩

theorem ruleDigest_text (v : Value) :
    (ruleDigest v).text = String.ofList (Separated.join 'a' (codes (hashedRule v))) := rfl

theorem separatesRules_ruleDigest : SeparatesRules ruleDigest := by
  intro rule rule' c c' h
  have hread : ∀ (rule : RuleVersion) (c : InferenceCandidate),
      hashedRule (c.digested rule) = rule.val := by
    intro rule c
    simp [hashedRule, InferenceCandidate.digested, Value.mkObject, Value.get,
      Value.fieldOf_setField]
  have hdigest : ruleDigest (c.digested rule) = ruleDigest (c'.digested rule') := h
  have htext := congrArg HexDigest.text hdigest
  rw [ruleDigest_text, ruleDigest_text, hread, hread, ← String.toList_inj, String.toList_ofList,
    String.toList_ofList] at htext
  have hcodes := Separated.join_injective_of_free (List.cons_ne_nil _ _) (List.cons_ne_nil _ _)
    (codes_free rule.val) (codes_free rule'.val) htext
  exact StringValue.ext_val (codes_injective hcodes)

def ruleTwo : RuleVersion := text "rule:v2"

/-- Rule one has inferred its relation at 10. -/
def ruleOneCalls : List InferenceWorld.Call :=
  versionedWrites.map .other ++ [inferCall [candidate 9000] (time 10) uuidOne]

def ruleOneWorld : InferenceWorld :=
  (InferenceWorld.machine ruleDigest).replay .fresh ruleOneCalls

/-- Rule one's relation. -/
def ruleOneRelation : Relation :=
  outputOf ruleDigest ruleOne (time 10) .empty (candidate 9000)

/-- The run of rule one, and the run of rule two over no candidates. -/
def ruleOneRun : InferenceRun :=
  runOf ruleOne (time 10) uuidOne (Gathered.empty.adding [ruleOneRelation] [candidate 9000])

def ruleTwoRun : InferenceRun := runOf ruleTwo (time 20) uuidTwo .empty

def ruleTwoStore : Store :=
  ((run ruleDigest ruleTwo (time 20) ruleOneWorld.store [ruleTwo] [] uuidTwo :
    Except (InferenceError StoreError) (InferenceRun × Store)).toOption.map Prod.snd).getD .fresh

/-- A call with a rule that is not registered. -/
def unregisteredCall : InferenceCall where
  rule := ruleTwo
  registered := [ruleOne]
  candidates := [candidate 9000]
  at_ := time 20
  uuid := uuidTwo

end Fixture

open Fixture in
/-- One candidate is inferred; the same candidate 1001 times is refused. -/
theorem duplicates_exceed_limit :
    SameCandidates [candidate 9000] (List.replicate 1001 (candidate 9000)) ∧
      (∃ r, (run ruleDigest ruleOne (time 10) versioned [ruleOne] [candidate 9000] uuidOne :
        Except (InferenceError StoreError) (InferenceRun × Store)) = .ok r) ∧
      (run ruleDigest ruleOne (time 10) versioned [ruleOne]
        (List.replicate 1001 (candidate 9000)) uuidOne :
          Except (InferenceError StoreError) (InferenceRun × Store)) = .error .candidateLimit := by
  exact ⟨sameCandidates_replicate (candidate 9000) 1000, ⟨_, rfl⟩,
    run_over_limit (List.mem_singleton.mpr rfl) (by rw [List.length_replicate]; decide)⟩

open Fixture in
theorem inference_function_of_candidate_set_rules :
    ((run ruleDigest ruleOne (time 10) versioned [ruleOne] [candidate 9000] uuidOne :
        Except (InferenceError StoreError) (InferenceRun × Store)) =
          .ok (ruleOneRun, ruleOneWorld.store) ↔
      run ruleDigest ruleOne (time 10) versioned [ruleOne]
        (List.replicate 2 (candidate 9000)) uuidOne = .ok (ruleOneRun, ruleOneWorld.store)) ∧
      Settles ruleDigest ruleOne (time 10) [candidate 9000] versioned ruleOneWorld.store ∧
      (ruleOneRelation ∈ ruleTwoStore.relations.rows ↔
        ruleOneRelation ∈ ruleOneWorld.store.relations.rows) ∧
      ruleOneWorld.step ruleDigest (.infer unregisteredCall) = ruleOneWorld := by
  obtain ⟨hsame, hsettles, hothers, hfailed⟩ := inference_function_of_candidate_set ruleDigest
  refine ⟨?_, ?_, ?_, ?_⟩
  · exact hsame versioned _ ruleOne (time 10) uuidOne [ruleOne] _ _ _
      (sameCandidates_replicate (candidate 9000) 1) (by decide) (by decide)
  · exact hsettles versioned _ ruleOne (time 10) uuidOne [ruleOne] [candidate 9000] ruleOneRun rfl
  · exact hothers ruleOneCalls ruleOneWorld ruleTwoStore ruleTwo (time 20) uuidTwo [ruleTwo] []
      ruleTwoRun ruleOne ruleOneRelation separatesRules_ruleDigest
      (Machine.run_replay (by decide)) rfl (by decide) rfl
  · exact hfailed ruleOneWorld unregisteredCall .ruleNotRegistered rfl

end NextInfra
