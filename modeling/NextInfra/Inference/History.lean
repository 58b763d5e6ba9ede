import NextInfra.Inference.Quiet
import NextInfra.Store.Authors

/-!
# Inference history over any run

The engine beside every other writer of the store. The world remembers the versions
the accepted runs handed to the store, newest first, and the transitions of the
relations that still exist; what the tables hold is compared with that.

A version and a change are inserted under ids made of the relation and the
evaluation time, and ignored if the ids are taken. `InferenceCall.Clear` is the
condition that no relation the run moves has them taken; along runs that meet it
history and rows agree (`history_agrees_while_clear`). Two transitions of one
relation at one time break it (`same_time_retirement_unrecorded`).
-/

namespace NextInfra

open InferenceEngine

/-! ## §1  Calls -/

structure InferenceCall where
  rule : RuleVersion
  registered : List RuleVersion
  candidates : List InferenceCandidate
  at_ : Timestamp
  uuid : Uuid

namespace InferenceCall

variable (digest : Value → HexDigest) (call : InferenceCall) (s : Store)

/-- The commit of a successful run, and the store it leaves. -/
def commit : Option (InferenceCommit × Store) :=
  (commitFor digest call.rule call.at_ s call.registered call.candidates call.uuid :
    Except (InferenceError StoreError) InferenceCommit).toOption.bind fun commit =>
      (s.commitInference commit).toOption.map fun s' => (commit, s')

/-- No version and no change of this relation is stored for this time. -/
def Free (id : RelationId) : Prop :=
  s.relationVersions.get (inferenceRelationVersionId id call.at_) = none ∧
    s.changes.get (inferenceChangeId id call.at_) = none

instance (id : RelationId) : Decidable (call.Free s id) := by
  unfold Free
  infer_instance

/-- Every relation the run moves is free: a candidate's that differs from its stored
row, and a live one of the rule that is no candidate's. -/
def Clear : Prop :=
  (∀ c ∈ call.candidates,
      (s.inferredBy call.rule).get (c.normalized.relationId digest call.rule) ≠
        some (outputOf digest call.rule call.at_ (s.inferredBy call.rule) c) →
      call.Free s (c.normalized.relationId digest call.rule)) ∧
    ∀ old ∈ (s.inferredBy call.rule).rows, old.lifecycle ≠ .tombstoned →
      (∀ c ∈ call.candidates, c.normalized.relationId digest call.rule ≠ old.relationId) →
        call.Free s old.relationId

instance : Decidable (call.Clear digest s) := by
  unfold Clear
  infer_instance

theorem commit_ran {digest : Value → HexDigest} {call : InferenceCall} {s s' : Store}
    {commit : InferenceCommit} (h : call.commit digest s = some (commit, s')) :
    InferenceRan digest call.rule call.at_ call.uuid s call.candidates commit s' ∧
      (run digest call.rule call.at_ s call.registered call.candidates call.uuid :
        Except (InferenceError StoreError) (InferenceRun × Store)) = .ok (commit.run, s') := by
  unfold InferenceCall.commit at h
  obtain ⟨planned, hplanned, h⟩ := Option.bind_eq_some_iff.mp h
  obtain ⟨stored, hstored, h⟩ := Option.map_eq_some_iff.mp h
  cases h
  have hplanned' := toOption_eq_some_iff.mp hplanned
  have hstored' := toOption_eq_some_iff.mp hstored
  exact ⟨⟨(commitFor_ok_iff.mp hplanned').2.2, Store.commitInference_ok hstored'⟩,
    run_ok_iff.mpr ⟨_, hplanned', hstored', rfl⟩⟩

end InferenceCall

/-! ## §2  The world -/

structure InferenceWorld where
  store : Store
  /-- The versions accepted runs committed, newest first. -/
  versions : List RelationVersion
  /-- The transitions accepted runs committed, of the relations still stored. -/
  transitions : List Change

/-- The change is about a relation that is stored. -/
def Store.holdsSubject (s : Store) (c : Change) : Bool :=
  match c.subject with
  | .relation id => (s.relations.get id).isSome
  | _ => false

namespace InferenceWorld

def fresh : InferenceWorld where
  store := Store.fresh
  versions := []
  transitions := []

inductive Call
  | infer (call : InferenceCall)
  | other (write : Write)

/-- The version of a relation committed last. -/
def latest (w : InferenceWorld) (id : RelationId) : Option RelationVersion :=
  w.versions.find? fun v => decide (v.relationId = id)

/-- The world after a run. -/
def ran (w : InferenceWorld) : Option (InferenceCommit × Store) → InferenceWorld
  | none => w
  | some (commit, store) =>
      { store := store
        versions := commit.relationVersions ++ w.versions
        transitions := commit.changes ++ w.transitions }

section

variable (digest : Value → HexDigest)

def step (w : InferenceWorld) : Call → InferenceWorld
  | .infer call => w.ran (call.commit digest w.store)
  | .other write =>
      { w with
        store := w.store.written write
        transitions := w.transitions.filter (w.store.written write).holdsSubject }

/-- Runs succeed; other writers write no inferred relations. -/
def enabled (w : InferenceWorld) : Call → Prop
  | .infer call => (call.commit digest w.store).isSome
  | .other write => write.Authored ∧ write.author ≠ .inferred

instance (w : InferenceWorld) (call : Call) : Decidable (w.enabled digest call) := by
  cases call <;> unfold enabled <;> infer_instance

def machine : Machine InferenceWorld Call where
  enabled := enabled digest
  step := step digest

/-- The run a call makes finds its ids free. -/
def clear (w : InferenceWorld) : Call → Prop
  | .infer call => call.Clear digest w.store
  | .other _ => True

instance (w : InferenceWorld) (call : Call) : Decidable (w.clear digest call) := by
  cases call <;> unfold clear <;> infer_instance

instance (w : InferenceWorld) (call : Call) : Decidable ((machine digest).enabled w call) :=
  inferInstanceAs (Decidable (w.enabled digest call))

instance (w : InferenceWorld) (call : Call) :
    Decidable (((machine digest).restrict (clear digest)).enabled w call) :=
  inferInstanceAs (Decidable (w.enabled digest call ∧ w.clear digest call))

end

/-- History agrees with current state: the last version of every inferred relation is
stored and shows its row, and every transition has a change of its own. -/
structure Agrees (w : InferenceWorld) : Prop where
  latest : ∀ x ∈ w.store.relations.rows, x.evidence.evidenceType = .inferred →
    ∃ v, w.latest x.relationId = some v ∧ v ∈ w.store.relationVersions.rows ∧
      v.normalizedSnapshot = localSnapshot x
  stored : ∀ c ∈ w.transitions, c ∈ w.store.changes.rows
  own : (w.transitions.map Change.changeId).Nodup

/-! ## §3  A run of the engine -/

end InferenceWorld

namespace InferenceRan

variable {digest : Value → HexDigest} {call : InferenceCall} {s s' : Store}
  {commit : InferenceCommit}

/-- A moved relation of a clear run is free. -/
theorem free_of_moved
    (h : InferenceRan digest call.rule call.at_ call.uuid s call.candidates commit s')
    (hclear : call.Clear digest s) {r : Relation} (hr : r ∈ commit.relations)
    (hmoved : (s.inferredBy call.rule).get r.relationId ≠ some r) : call.Free s r.relationId := by
  rcases h.mem_relations.mp hr with hout | ⟨old, hold, hlive, hno, rfl⟩
  · obtain ⟨c, hc, rfl⟩ := List.mem_map.mp hout
    exact hclear.1 c hc hmoved
  · refine hclear.2 old hold hlive ?_
    intro c hc
    exact hno _ (List.mem_map.mpr ⟨c, hc, rfl⟩)

/-- A clear run inserts all its versions and all its changes. -/
theorem inserts_all
    (h : InferenceRan digest call.rule call.at_ call.uuid s call.candidates commit s')
    (hclear : call.Clear digest s) :
    s.relationVersions.FreshAll commit.relationVersions ∧ s.changes.FreshAll commit.changes := by
  refine ⟨⟨?_, h.versionIds_nodup⟩, ⟨?_, h.changeIds_nodup⟩⟩
  · intro v hv
    obtain ⟨r, hr, hmoved, hok⟩ := h.mem_versions hv
    rw [(inferenceVersion_ok hok).1]
    exact (h.free_of_moved hclear hr hmoved).1
  · intro c hc
    obtain ⟨r, hr, hmoved, hok⟩ := h.mem_changes hc
    rw [(inferenceChange_ok hok).1]
    exact (h.free_of_moved hclear hr hmoved).2

/-- The versions of one relation in the commit are one version. -/
theorem version_unique
    (h : InferenceRan digest call.rule call.at_ call.uuid s call.candidates commit s')
    {v w : RelationVersion} (hv : v ∈ commit.relationVersions) (hw : w ∈ commit.relationVersions)
    (hid : v.relationId = w.relationId) : v = w := by
  obtain ⟨r, _, _, hok⟩ := h.mem_versions hv
  obtain ⟨q, _, _, hok'⟩ := h.mem_versions hw
  obtain ⟨hvid, hvrel, _, _⟩ := inferenceVersion_ok hok
  obtain ⟨hwid, hwrel, _, _⟩ := inferenceVersion_ok hok'
  apply List.inj_on_of_nodup_map h.versionIds_nodup hv hw
  rw [hvid, hwid, ← hvrel, ← hwrel, hid]

end InferenceRan

namespace InferenceWorld

variable {digest : Value → HexDigest}

/-- A clear run keeps history and rows in agreement. -/
theorem agrees_infer {w : InferenceWorld} {call : InferenceCall} {commit : InferenceCommit}
    {s' : Store} (h : InferenceRan digest call.rule call.at_ call.uuid w.store call.candidates
      commit s') (hclear : call.Clear digest w.store) (hw : w.Agrees) :
    Agrees { store := s'
             versions := commit.relationVersions ++ w.versions
             transitions := commit.changes ++ w.transitions } := by
  obtain ⟨hversions, hchanges⟩ := h.inserts_all hclear
  obtain ⟨outputs, hs'⟩ := h.effect.eq
  have hversionTable :
      s'.relationVersions = w.store.relationVersions.insertNewAll commit.relationVersions := by
    rw [hs']
  have hchangeTable : s'.changes = w.store.changes.insertNewAll commit.changes := by rw [hs']
  have hstays : ∀ v ∈ w.store.relationVersions.rows, v ∈ s'.relationVersions.rows := by
    intro v hv
    rw [hversionTable]
    exact KeyedTable.mem_of_get (KeyedTable.get_insertNewAll_of_some (KeyedTable.get_of_mem hv))
  -- a relation without a version in the commit keeps the version it had
  have hquiet : ∀ x ∈ w.store.relations.rows, x.evidence.evidenceType = .inferred →
      (∀ v ∈ commit.relationVersions, v.relationId ≠ x.relationId) →
        ∃ v, (commit.relationVersions ++ w.versions).find?
            (fun v => decide (v.relationId = x.relationId)) = some v ∧
          v ∈ s'.relationVersions.rows ∧ v.normalizedSnapshot = localSnapshot x := by
    intro x hx htype hnone
    obtain ⟨v, hlatest, hv, hsnapshot⟩ := hw.latest x hx htype
    refine ⟨v, ?_, hstays v hv, hsnapshot⟩
    rw [List.find?_append, List.find?_eq_none.mpr (by simpa using hnone)]
    exact hlatest
  constructor
  · intro x hx htype
    show ∃ v, (commit.relationVersions ++ w.versions).find?
        (fun v => decide (v.relationId = x.relationId)) = some v ∧
      v ∈ s'.relationVersions.rows ∧ v.normalizedSnapshot = localSnapshot x
    by_cases htouched : ∃ r ∈ commit.relations, r.relationId = x.relationId
    · obtain ⟨r, hr, hid⟩ := htouched
      have hget := h.get_relation hr
      rw [hid, KeyedTable.get_of_mem hx] at hget
      obtain ⟨firstSeenAt, hrow⟩ := Store.relationRule_row w.store.relations r
      have hx' : x = { r with firstSeenAt := firstSeenAt } := by
        rw [← hrow]
        exact Option.some.inj hget
      by_cases hmoved : (w.store.inferredBy call.rule).get r.relationId = some r
      · -- the row is as it was, and the commit has no version of it
        have hmem := (KeyedTable.mem_keep.mp (KeyedTable.mem_of_get hmoved)).1
        have hrowr : Store.relationRule.row w.store.relations r = r := by
          unfold UpsertRule.row
          rw [KeyedTable.get_of_mem hmem]
          rfl
        rw [hrowr] at hget
        rw [Option.some.inj hget]
        refine hquiet r hmem (by rw [← Option.some.inj hget]; exact htype) ?_
        intro v hv hvid
        obtain ⟨q, hq, hqmoved, hok⟩ := h.mem_versions hv
        have hqr : q = r := List.inj_on_of_nodup_map h.relationIds_nodup hq hr
          ((inferenceVersion_ok hok).2.1.symm.trans hvid)
        rw [hqr] at hqmoved
        exact hqmoved hmoved
      · obtain ⟨⟨v, hv, hok⟩, _⟩ := h.recorded_of_moved hr hmoved
        obtain ⟨_, hvrel, _, hsnapshot⟩ := inferenceVersion_ok hok
        refine ⟨v, ?_, ?_, ?_⟩
        · rw [List.find?_append]
          cases hfind : commit.relationVersions.find?
              (fun v => decide (v.relationId = x.relationId)) with
          | none =>
              have hno := List.find?_eq_none.mp hfind v hv
              simp [hvrel, hid] at hno
          | some u =>
              have huid : u.relationId = x.relationId := by
                simpa using List.find?_some hfind
              have huv := h.version_unique (List.mem_of_find?_eq_some hfind) hv
                (huid.trans (hid.symm.trans hvrel.symm))
              rw [huv]
              rfl
        · rw [hversionTable]
          exact KeyedTable.mem_of_get (KeyedTable.get_insertNewAll_of_fresh hversions hv)
        · rw [hsnapshot, hx']
          rfl
    · have hkept : s'.relations.get x.relationId = w.store.relations.get x.relationId :=
        h.get_other fun r hr hid => htouched ⟨r, hr, hid⟩
      rw [KeyedTable.get_of_mem hx] at hkept
      refine hquiet x (KeyedTable.mem_of_get hkept.symm) htype ?_
      intro v hv hvid
      obtain ⟨q, hq, _, hok⟩ := h.mem_versions hv
      exact htouched ⟨q, hq, (inferenceVersion_ok hok).2.1.symm.trans hvid⟩
  · intro c hc
    show c ∈ s'.changes.rows
    rw [hchangeTable]
    rcases List.mem_append.mp hc with hc | hc
    · exact KeyedTable.mem_of_get (KeyedTable.get_insertNewAll_of_fresh hchanges hc)
    · exact KeyedTable.mem_of_get
        (KeyedTable.get_insertNewAll_of_some (KeyedTable.get_of_mem (hw.stored c hc)))
  · rw [List.map_append]
    refine List.Nodup.append hchanges.2 hw.own ?_
    intro id hid hid'
    obtain ⟨c, hc, rfl⟩ := List.mem_map.mp hid
    obtain ⟨d, hd, hsame⟩ := List.mem_map.mp hid'
    have hfree := hchanges.1 c hc
    rw [← hsame, KeyedTable.get_of_mem (hw.stored d hd)] at hfree
    cases hfree

/-! ## §4  Other writers -/

/-- A write that carries no inferred relation keeps the agreement. -/
theorem agrees_other {w : InferenceWorld} {write : Write} (hauthored : write.Authored)
    (hother : write.author ≠ .inferred) (hw : w.Agrees) :
    Agrees { w with
      store := w.store.written write
      transitions := w.transitions.filter (w.store.written write).holdsSubject } := by
  have hown : ((w.transitions.filter (w.store.written write).holdsSubject).map
      Change.changeId).Nodup := hw.own.sublist (List.filter_sublist.map _)
  rcases w.store.written_cases write with hsame | hrun
  · rw [hsame] at hown ⊢
    exact ⟨hw.latest, fun c hc => hw.stored c (List.mem_filter.mp hc).1, hown⟩
  generalize w.store.written write = s' at hrun hown ⊢
  have heffect := Write.relationEffect hrun
  have hrows : ∀ r ∈ write.relations, r.evidence.evidenceType ≠ .inferred := by
    intro r hr
    rw [hauthored.types r hr]
    exact hother
  refine ⟨?_, ?_, hown⟩
  · intro x hx htype
    have hwas := heffect.row_was hrows hx htype
    obtain ⟨v, hlatest, hv, hsnapshot⟩ := hw.latest x hwas htype
    refine ⟨v, hlatest, ?_, hsnapshot⟩
    have hvid : v.relationId = x.relationId := by
      unfold InferenceWorld.latest at hlatest
      simpa using List.find?_some hlatest
    cases heffect with
    | committed _ _ versions _ =>
        show v ∈ s'.relationVersions.rows
        rw [versions]
        exact KeyedTable.mem_of_get
          (KeyedTable.get_insertNewAll_of_some (KeyedTable.get_of_mem hv))
    | purged id _ hpurged =>
        subst hpurged
        refine KeyedTable.mem_keep.mpr ⟨hv, ?_⟩
        rw [hvid, Store.ownsRelation_eq_touches hwas]
        exact (KeyedTable.mem_keep.mp hx).2
  · intro c hc
    obtain ⟨hmem, hsubject⟩ := List.mem_filter.mp hc
    have hstored := hw.stored c hmem
    cases heffect with
    | committed _ _ _ changes =>
        show c ∈ s'.changes.rows
        rw [changes]
        exact KeyedTable.mem_of_get
          (KeyedTable.get_insertNewAll_of_some (KeyedTable.get_of_mem hstored))
    | purged id _ hpurged =>
        subst hpurged
        refine KeyedTable.mem_keep.mpr ⟨hstored, ?_⟩
        unfold Store.holdsSubject at hsubject
        cases hcase : c.subject with
        | resource _ => simp [hcase] at hsubject
        | binding _ => simp [hcase] at hsubject
        | relation relationId =>
            simp only [hcase] at hsubject
            obtain ⟨x, hx⟩ := Option.isSome_iff_exists.mp hsubject
            obtain ⟨hxmem, hxid⟩ := KeyedTable.get_eq_some_iff.mp hx
            obtain ⟨hwas, hstays⟩ := KeyedTable.mem_keep.mp hxmem
            show (!w.store.ownsRelation id relationId) = true
            rw [← hxid, Store.ownsRelation_eq_touches hwas]
            exact hstays

/-! ## §5  Runs -/

theorem agrees_fresh : fresh.Agrees where
  latest := by
    intro x hx
    cases hx
  stored := by
    intro c hc
    cases hc
  own := List.nodup_nil

theorem agrees_preserved : ((machine digest).restrict (clear digest)).Preserves Agrees := by
  rintro w call ⟨hen, hclear⟩ hw
  cases call with
  | other write => exact agrees_other hen.1 hen.2 hw
  | infer call =>
      show Agrees (w.ran (call.commit digest w.store))
      cases hcommit : call.commit digest w.store with
      | none => exact hw
      | some p =>
          obtain ⟨commit, s'⟩ := p
          exact agrees_infer (InferenceCall.commit_ran hcommit).1 hclear hw

/-- In every state of a run whose inference runs find their ids free, the last
version of each inferred relation is stored and shows its row, and every transition
has its own change. -/
theorem history_agrees_while_clear {calls : List Call} {w : InferenceWorld}
    (hrun : ((machine digest).restrict (clear digest)).Run fresh calls w) : w.Agrees :=
  hrun.invariant agrees_preserved agrees_fresh

end InferenceWorld

/-! ## §6  Retired at once -/

namespace Fixture

def inferCall (cs : List InferenceCandidate) (at_ : Timestamp) (uuid : Uuid) :
    InferenceWorld.Call :=
  .infer
    { rule := ruleOne
      registered := [ruleOne]
      candidates := cs
      at_ := at_
      uuid := uuid }

/-- The candidate is inferred at 10, and gone in a run at a given time. -/
def retiredCalls (at_ : Timestamp) : List InferenceWorld.Call :=
  versionedWrites.map .other ++
    [inferCall [candidate 9000] (time 10) uuidOne, inferCall [] at_ uuidTwo]

def retiredAt (at_ : Timestamp) : InferenceWorld :=
  (InferenceWorld.machine fun _ => hexDigest "f").replay .fresh (retiredCalls at_)

end Fixture

namespace InferenceWorld

open Fixture in
/-- Inferred and retired at 10: the relation is retired, the last version stored shows
it active, and the retirement has no change. -/
theorem same_time_retirement_unrecorded :
    (machine fun _ => hexDigest "f").Run fresh (retiredCalls (time 10)) (retiredAt (time 10)) ∧
      ¬ (retiredAt (time 10)).Agrees ∧
        (retiredAt (time 10)).store.relations.rows.map Relation.lifecycle = [.tombstoned] ∧
          (retiredAt (time 10)).store.changes.rows.length = 1 ∧
            (retiredAt (time 10)).store.relationVersions.rows.map
              (fun v => v.normalizedSnapshot.get "lifecycle") = [some (.string "active")] := by
  refine ⟨Machine.run_replay (by decide), ?_, rfl, rfl, rfl⟩
  intro h
  have hown := h.own
  revert hown
  decide

open Fixture in
theorem history_agrees_while_clear_retired : (retiredAt (time 20)).Agrees :=
  @history_agrees_while_clear (fun _ => hexDigest "f") (retiredCalls (time 20)) _
    (Machine.run_replay (by decide))

end InferenceWorld

end NextInfra
