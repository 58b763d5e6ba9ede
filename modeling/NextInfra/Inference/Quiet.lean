import NextInfra.Binding.Invariant
import NextInfra.Inference.Outputs

/-!
# Running a rule again

The engine compares a relation with its stored row as whole records, and the row
holds the time of the run before. So a second run over the same candidates finds
every one of their relations moved, and writes a version and a change of each
unless the store ignores them because their ids are taken.

`second_run_quiet_iff` is that condition: the second run writes nothing of a
relation that kept its evidence and its lifecycle iff the version and the change of
every candidate at that time are stored before the first run.
-/

namespace NextInfra

open InferenceEngine

section

variable {digest : Value → HexDigest} {rule : RuleVersion} {at_ later : Timestamp}
  {uuid uuid' : Uuid} {s s' s'' : Store} {cs : List InferenceCandidate}
  {commit commit' : InferenceCommit}

/-- The later store holds the version and the change of this candidate at this time
already. -/
def Store.AlreadyRecorded (s : Store) (digest : Value → HexDigest) (rule : RuleVersion) (at_ : Timestamp)
    (c : InferenceCandidate) : Prop :=
  (s.relationVersions.get
      (inferenceRelationVersionId (c.normalized.relationId digest rule) at_)).isSome ∧
    (s.changes.get (inferenceChangeId (c.normalized.relationId digest rule) at_)).isSome

instance (s : Store) (digest : Value → HexDigest) (rule : RuleVersion) (at_ : Timestamp)
    (c : InferenceCandidate) : Decidable (s.AlreadyRecorded digest rule at_ c) := by
  unfold Store.AlreadyRecorded
  infer_instance

/-- From `s` to `s'` no version and no change of a relation was written that kept its
evidence and its lifecycle. -/
def Store.QuietTo (s s' : Store) : Prop :=
  ∀ id x y, s.relations.get id = some x → s'.relations.get id = some y →
    x.evidence = y.evidence → x.lifecycle = y.lifecycle →
      (∀ v ∈ s'.relationVersions.rows, v.relationId = id → v ∈ s.relationVersions.rows) ∧
        ∀ c ∈ s'.changes.rows, c.subject = .relation id → c ∈ s.changes.rows

namespace InferenceRan

/-- A candidate's relation is stored after the run, but for its `first_seen_at`. -/
theorem get_output (h : InferenceRan digest rule at_ uuid s cs commit s')
    {c : InferenceCandidate} (hc : c ∈ cs) :
    ∃ firstSeenAt, s'.relations.get (c.normalized.relationId digest rule) =
      some { outputOf digest rule at_ (s.inferredBy rule) c with firstSeenAt := firstSeenAt } := by
  have hout : outputOf digest rule at_ (s.inferredBy rule) c ∈ s.outputs digest rule at_ cs :=
    List.mem_map.mpr ⟨c, hc, rfl⟩
  have hget := h.get_relation (h.mem_relations.mpr (Or.inl hout))
  obtain ⟨firstSeenAt, hrow⟩ := Store.relationRule_row s.relations
    (outputOf digest rule at_ (s.inferredBy rule) c)
  rw [hrow] at hget
  exact ⟨firstSeenAt, hget⟩

/-- It is active, seen at the time of the run, and has the candidate's evidence. -/
theorem get_candidate (h : InferenceRan digest rule at_ uuid s cs commit s')
    {c : InferenceCandidate} (hc : c ∈ cs) :
    ∃ x, s'.relations.get (c.normalized.relationId digest rule) = some x ∧
      x.inferredBy rule = true ∧ x.evidence = c.normalized.evidence rule ∧
        x.lifecycle = .active ∧ x.lastSeenAt = at_ := by
  obtain ⟨firstSeenAt, hget⟩ := h.get_output hc
  exact ⟨_, hget, outputOf_inferredBy digest rule at_ (s.inferredBy rule) c, rfl, rfl, rfl⟩

/-- After a run every relation of the rule that is not retired is a candidate's. -/
theorem live_iff (h : InferenceRan digest rule at_ uuid s cs commit s') {x : Relation}
    (hx : x ∈ s'.relations.rows) (hrule : x.inferredBy rule = true) :
    x.lifecycle ≠ .tombstoned ↔ ∃ c ∈ cs, x.relationId = c.normalized.relationId digest rule := by
  have hget := KeyedTable.get_of_mem hx
  constructor
  · intro hlive
    by_contra hnone
    rw [not_exists] at hnone
    have hno : ∀ o ∈ s.outputs digest rule at_ cs, o.relationId ≠ x.relationId := by
      intro o ho hid
      obtain ⟨c, hc, rfl⟩ := List.mem_map.mp ho
      exact hnone c ⟨hc, hid.symm⟩
    by_cases hcommit : ∃ y ∈ commit.relations, y.relationId = x.relationId
    · obtain ⟨y, hy, hid⟩ := hcommit
      rcases h.mem_relations.mp hy with hout | ⟨old, hold, _, _, rfl⟩
      · exact hno y hout hid
      · -- the row left is the retired one
        have hrow := h.get_relation hy
        rw [hid, hget] at hrow
        obtain ⟨firstSeenAt, hkept⟩ := Store.relationRule_row s.relations (retired at_ old)
        rw [hkept] at hrow
        apply hlive
        rw [Option.some.inj hrow]
        rfl
    · have hkept : s'.relations.get x.relationId = s.relations.get x.relationId :=
        h.get_other fun y hy hid => hcommit ⟨y, hy, hid⟩
      rw [hget] at hkept
      have hmem : x ∈ (s.inferredBy rule).rows :=
        KeyedTable.mem_keep.mpr ⟨KeyedTable.mem_of_get hkept.symm, hrule⟩
      exact hcommit ⟨_, h.mem_relations.mpr (Or.inr ⟨x, hmem, hlive, hno, rfl⟩), rfl⟩
  · rintro ⟨c, hc, hid⟩
    obtain ⟨y, hy, _, _, hactive, _⟩ := h.get_candidate hc
    rw [← hid, hget] at hy
    cases hy
    rw [hactive]
    decide

/-- A second run retires nothing: its relations are those of the candidates. -/
theorem again_relations (h : InferenceRan digest rule at_ uuid s cs commit s')
    (h' : InferenceRan digest rule later uuid' s' cs commit' s'') {x : Relation}
    (hx : x ∈ commit'.relations) : ∃ c ∈ cs, x = outputOf digest rule later (s'.inferredBy rule) c := by
  rcases h'.mem_relations.mp hx with hout | ⟨old, hold, hlive, hno, _⟩
  · obtain ⟨c, hc, rfl⟩ := List.mem_map.mp hout
    exact ⟨c, hc, rfl⟩
  · obtain ⟨hmem, hrule⟩ := KeyedTable.mem_keep.mp hold
    obtain ⟨c, hc, hid⟩ := (h.live_iff hmem hrule).mp hlive
    exact absurd hid.symm (hno _ (List.mem_map.mpr ⟨c, hc, rfl⟩))

/-- At another time every candidate's relation has moved. -/
theorem again_moved (h : InferenceRan digest rule at_ uuid s cs commit s') (hlater : at_ < later)
    {c : InferenceCandidate} (hc : c ∈ cs) :
    (s'.inferredBy rule).get (outputOf digest rule later (s'.inferredBy rule) c).relationId ≠
      some (outputOf digest rule later (s'.inferredBy rule) c) := by
  intro hsame
  obtain ⟨x, hx, _, _, _, hseen⟩ := h.get_candidate hc
  -- the stored row was seen at the earlier time
  have hmem := (KeyedTable.mem_keep.mp (KeyedTable.mem_of_get hsame)).1
  have hget : s'.relations.get (c.normalized.relationId digest rule) =
      some (outputOf digest rule later (s'.inferredBy rule) c) := KeyedTable.get_of_mem hmem
  rw [hx] at hget
  rw [Option.some.inj hget] at hseen
  exact absurd hseen (ne_of_gt hlater)

/-- A run leaves the ids of other times alone. -/
theorem recorded_iff (h : InferenceRan digest rule at_ uuid s cs commit s') (hlater : at_ < later)
    (c : InferenceCandidate) :
    s'.AlreadyRecorded digest rule later c ↔ s.AlreadyRecorded digest rule later c := by
  unfold Store.AlreadyRecorded
  obtain ⟨outputs, hs'⟩ := h.effect.eq
  have hversions : s'.relationVersions = s.relationVersions.insertNewAll commit.relationVersions := by
    rw [hs']
  have hchanges : s'.changes = s.changes.insertNewAll commit.changes := by rw [hs']
  rw [hversions, hchanges, KeyedTable.get_insertNewAll_of_not_mem,
    KeyedTable.get_insertNewAll_of_not_mem]
  · intro change hchange hid
    obtain ⟨r, _, _, hok⟩ := h.mem_changes hchange
    rw [(inferenceChange_ok hok).1] at hid
    exact absurd (stamped_eq_iff.mp hid).2 (ne_of_lt hlater)
  · intro v hv hid
    obtain ⟨r, _, _, hok⟩ := h.mem_versions hv
    rw [(inferenceVersion_ok hok).1] at hid
    exact absurd (stamped_eq_iff.mp hid).2 (ne_of_lt hlater)

end InferenceRan

/-- The second of two runs over the same candidates writes nothing of a relation that
kept its evidence and its lifecycle iff every candidate's version and change of that
time are stored before. -/
theorem second_run_quiet_iff {registered registered' : List RuleVersion} {r r' : InferenceRun}
    (hfirst : (run digest rule at_ s registered cs uuid :
      Except (InferenceError StoreError) (InferenceRun × Store)) = .ok (r, s'))
    (hsecond : (run digest rule later s' registered' cs uuid' :
      Except (InferenceError StoreError) (InferenceRun × Store)) = .ok (r', s''))
    (hlater : at_ < later) :
    s'.QuietTo s'' ↔ ∀ c ∈ cs, s.AlreadyRecorded digest rule later c := by
  obtain ⟨commit, h⟩ := run_ok hfirst
  obtain ⟨commit', h'⟩ := run_ok hsecond
  obtain ⟨outputs, hs''⟩ := h'.effect.eq
  have hversions :
      s''.relationVersions = s'.relationVersions.insertNewAll commit'.relationVersions := by
    rw [hs'']
  have hchanges : s''.changes = s'.changes.insertNewAll commit'.changes := by rw [hs'']
  constructor
  · intro hquiet c hc
    rw [← h.recorded_iff hlater c]
    -- the candidate's relation moved, so its version and its change are in the commit
    obtain ⟨x, hx, _, hevidence, hactive, _⟩ := h.get_candidate hc
    obtain ⟨y, hy, _, hevidence', hactive', _⟩ := h'.get_candidate hc
    obtain ⟨hnoVersion, hnoChange⟩ := hquiet _ x y hx hy (hevidence.trans hevidence'.symm)
      (hactive.trans hactive'.symm)
    have hmem := h'.mem_relations.mpr (Or.inl (List.mem_map.mpr ⟨c, hc, rfl⟩))
    obtain ⟨⟨v, hv, hvok⟩, change, hchange, hcok⟩ :=
      h'.recorded_of_moved hmem (h.again_moved hlater hc)
    obtain ⟨hvid, hvrelation, _, _⟩ := inferenceVersion_ok hvok
    obtain ⟨hcid, hcsubject⟩ := inferenceChange_ok hcok
    constructor
    · by_contra hfree
      have hfree' : s'.relationVersions.get v.relationVersionId = none := by
        rw [hvid]
        exact Option.not_isSome_iff_eq_none.mp hfree
      have hstored : v ∈ s''.relationVersions.rows := by
        rw [hversions]
        exact KeyedTable.mem_of_get (KeyedTable.get_insertNewAll_of_unique hfree' hv
          fun w hw hid => List.inj_on_of_nodup_map h'.versionIds_nodup hw hv hid)
      rw [KeyedTable.get_of_mem (hnoVersion v hstored hvrelation)] at hfree'
      cases hfree'
    · by_contra hfree
      have hfree' : s'.changes.get change.changeId = none := by
        rw [hcid]
        exact Option.not_isSome_iff_eq_none.mp hfree
      have hstored : change ∈ s''.changes.rows := by
        rw [hchanges]
        exact KeyedTable.mem_of_get (KeyedTable.get_insertNewAll_of_unique hfree' hchange
          fun w hw hid => List.inj_on_of_nodup_map h'.changeIds_nodup hw hchange hid)
      rw [KeyedTable.get_of_mem (hnoChange change hstored hcsubject)] at hfree'
      cases hfree'
  · intro hall
    have hsameVersions : s''.relationVersions = s'.relationVersions := by
      rw [hversions]
      apply KeyedTable.insertNewAll_of_stored
      intro v hv
      obtain ⟨x, hx, _, hok⟩ := h'.mem_versions hv
      obtain ⟨c, hc, rfl⟩ := h.again_relations h' hx
      rw [(inferenceVersion_ok hok).1]
      exact ((h.recorded_iff hlater c).mpr (hall c hc)).1
    have hsameChanges : s''.changes = s'.changes := by
      rw [hchanges]
      apply KeyedTable.insertNewAll_of_stored
      intro change hchange
      obtain ⟨x, hx, _, hok⟩ := h'.mem_changes hchange
      obtain ⟨c, hc, rfl⟩ := h.again_relations h' hx
      rw [(inferenceChange_ok hok).1]
      exact ((h.recorded_iff hlater c).mpr (hall c hc)).2
    intro id x y _ _ _ _
    rw [hsameVersions, hsameChanges]
    exact ⟨fun _ hv _ => hv, fun _ hc _ => hc⟩

end

/-! ## A relation inferred twice -/

namespace Fixture

/-- Resource `x` has version `v`. -/
def resourceVersion : ResourceVersion where
  versionId := text "v"
  resourceId := text "x"
  observedAt := time 1
  syncRunId := text "r1"
  normalizedSnapshot := .null
  fingerprint := text "f"
  schemaVersion := .one
  changeSummary := []

/-- Connection `a` with active resources `x` and `y`, and the version of `x`. -/
def versionedWrites : List Write :=
  let started := (handle (text "a") (text "r1") .full (text "all")).run
  [.upsertConnection (connection (text "a")),
    .startSyncRun started,
    .commitSync
      { syncRun := { started with status := .succeeded, finishedAt := some (time 2) }
        resources := [text "x", text "y"].map (resourceRow (text "r1") .active)
        resourceVersions := [resourceVersion]
        relations := []
        relationVersions := []
        changes := []
        cursorAfter := none
        missingEvidence := none }]

def versioned : Store := versionedWrites.foldl Store.written .fresh

def hexDigest (text : String) : HexDigest :=
  if h : text.toList ≠ [] ∧ text.toList.all isHexChar = true then ⟨text, h⟩ else ⟨"0", by decide⟩

def ruleOne : RuleVersion := text "rule:v1"

/-- `x` uses `y`, inferred from the version of `x`. -/
def candidate (basisPoints : Nat) : InferenceCandidate where
  sourceResourceId := text "x"
  targetResourceId := text "y"
  kind := kind "host.uses"
  inputResourceVersionIds := [text "v"]
  inputRelationVersionIds := []
  confidence := ⟨min basisPoints 10000, Nat.min_le_right _ _⟩

def uuidTwo : Uuid := uuid "00000000-0000-0000-0000-000000000002"

/-- The store after a run over some candidates at a time. -/
def inferredAt (s : Store) (cs : List InferenceCandidate) (at_ : Timestamp) (uuid : Uuid) : Store :=
  ((run (fun _ => hexDigest "f") ruleOne at_ s [ruleOne] cs uuid :
    Except (InferenceError StoreError) (InferenceRun × Store)).toOption.map Prod.snd).getD s

def inferredOnce : Store := inferredAt versioned [candidate 9000] (time 10) uuidOne

def inferredTwice : Store := inferredAt inferredOnce [candidate 9000] (time 20) uuidTwo

end Fixture

open Fixture in
/-- One candidate at 10 and again at 20: the relation gains a second version. -/
theorem unchanged_relation_gains_version :
    (∃ r, (run (fun _ => hexDigest "f") ruleOne (time 10) versioned [ruleOne] [candidate 9000]
        uuidOne : Except (InferenceError StoreError) (InferenceRun × Store)) =
          .ok (r, inferredOnce)) ∧
      (∃ r, (run (fun _ => hexDigest "f") ruleOne (time 20) inferredOnce [ruleOne]
          [candidate 9000] uuidTwo : Except (InferenceError StoreError) (InferenceRun × Store)) =
            .ok (r, inferredTwice)) ∧
        ¬ inferredOnce.QuietTo inferredTwice := by
  refine ⟨⟨_, rfl⟩, ⟨_, rfl⟩, ?_⟩
  intro hquiet
  have hnone : ∀ v ∈ inferredTwice.relationVersions.rows,
      v.relationId = (candidate 9000).normalized.relationId (fun _ => hexDigest "f") ruleOne →
        v ∈ inferredOnce.relationVersions.rows :=
    (hquiet ((candidate 9000).normalized.relationId (fun _ => hexDigest "f") ruleOne) _ _ rfl rfl
      rfl rfl).1
  revert hnone
  decide

namespace Fixture

def uuidThree : Uuid := uuid "00000000-0000-0000-0000-000000000003"

/-- Inferred at 20, then at 10, then at 20 again. -/
def inferredLate : Store := inferredAt versioned [candidate 9000] (time 20) uuidOne

def inferredBack : Store := inferredAt inferredLate [candidate 9000] (time 10) uuidTwo

def inferredAgain : Store := inferredAt inferredBack [candidate 9000] (time 20) uuidThree

end Fixture

open Fixture in
theorem second_run_quiet_iff_again : inferredBack.QuietTo inferredAgain :=
  (@second_run_quiet_iff (fun _ => hexDigest "f") ruleOne (time 10) (time 20) uuidTwo uuidThree
    inferredLate inferredBack inferredAgain [candidate 9000] [ruleOne] [ruleOne] _ _ rfl rfl
    (by decide)).mpr (by decide)

end NextInfra
