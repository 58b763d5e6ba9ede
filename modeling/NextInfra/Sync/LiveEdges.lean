import NextInfra.Sync.Finality

/-!
# Live edges and dead nodes

A commit projects the relations of its batch as active and tombstones the
resources that fall due, but it never ends a relation: the edge to a resource
that is tombstoned stays active. §1 reads the ends of the live provider edges and
the tombstones off the store after a commit; §2 gives, for every run of the
system, the calls that put the two together.
-/

namespace NextInfra

/-! ## §1  Edges and tombstones after a commit -/

def Relation.IsLiveEdge (r : Relation) : Prop :=
  r.evidence.evidenceType = .provider ∧ r.lifecycle = .active

def Relation.EndsAt (r : Relation) (id : ResourceId) : Prop :=
  r.sourceResourceId = id ∨ r.targetResourceId = id

def ValidatedRelation.EndsAt (v : ValidatedRelation) (id : ResourceId) : Prop :=
  stableResourceId v.key.source = id ∨ stableResourceId v.key.target = id

/-- A provider relation of the batch ends at the resource. -/
def ValidatedBatch.HasEdgeAt (batch : ValidatedBatch) (id : ResourceId) : Prop :=
  ∃ v ∈ batch.relations, v.evidence.evidenceType = .provider ∧ v.EndsAt id

namespace Store

/-- An active provider relation of the store ends at the resource. -/
def HasLiveEdgeAt (s : Store) (id : ResourceId) : Prop :=
  ∃ r ∈ s.relations.rows, r.IsLiveEdge ∧ r.EndsAt id

/-- No live edge ends at a tombstone. -/
def NoDeadEnd (s : Store) : Prop := ∀ id, s.HasLiveEdgeAt id → s.isTombstoned id = false

variable {s s' : Store} {handle : SyncRunHandle} {batch : ValidatedBatch} {at_ : Timestamp}
  {r : CommitResult}

/-- Edges only come: the live ends after a commit are those before and those of
the batch. -/
theorem hasLiveEdgeAt_commit (hs : CommitEffect s (s.commitOf handle batch at_) r s')
    (id : ResourceId) : s'.HasLiveEdgeAt id ↔ s.HasLiveEdgeAt id ∨ batch.HasEdgeAt id := by
  have hrel := hs.relations
  have hfit := hs.relationsFit
  rw [commitOf_relations] at hrel hfit
  constructor
  · rintro ⟨x, hx, ⟨hprovider, hactive⟩, hend⟩
    rw [hrel] at hx
    rcases relationRule.mem_applyAll hx with hold | ⟨row, hrow, hlands⟩
    · exact Or.inl ⟨x, hold, ⟨hprovider, hactive⟩, hend⟩
    · obtain ⟨v, hv, rfl⟩ := List.mem_map.mp hrow
      -- the row that landed differs from the projected one in `first_seen_at` only
      have hcolumns : x.evidence = v.evidence ∧
          x.sourceResourceId = stableResourceId v.key.source ∧
          x.targetResourceId = stableResourceId v.key.target := by
        rcases hlands with rfl | ⟨old, rfl⟩
        · exact ⟨rfl, rfl, rfl⟩
        · exact ⟨rfl, rfl, rfl⟩
      obtain ⟨hevidence, hsource, htarget⟩ := hcolumns
      rw [hevidence] at hprovider
      unfold Relation.EndsAt at hend
      rw [hsource, htarget] at hend
      exact Or.inr ⟨v, hv, hprovider, hend⟩
  · -- whichever row has the key now is the old one or a row of the batch, both active
    have hlive : ∀ x ∈ s'.relations.rows, x.key.evidenceType = .provider →
        (∀ y ∈ s.relations.rows, y = x → y.lifecycle = .active) → x.IsLiveEdge := by
      intro x hx hprovider hstored
      refine ⟨hprovider, ?_⟩
      rw [hrel] at hx
      rcases relationRule.mem_applyAll hx with hold | ⟨row, hrow, hlands⟩
      · exact hstored x hold rfl
      · obtain ⟨v, _, rfl⟩ := List.mem_map.mp hrow
        rcases hlands with rfl | ⟨old, rfl⟩
        · rfl
        · rfl
    have hends : ∀ x y : Relation, x.key = y.key → y.EndsAt id → x.EndsAt id := by
      intro x y hkey hend
      have hsource : x.sourceResourceId = y.sourceResourceId :=
        congrArg RelationKey.sourceResourceId hkey
      have htarget : x.targetResourceId = y.targetResourceId :=
        congrArg RelationKey.targetResourceId hkey
      unfold Relation.EndsAt
      rw [hsource, htarget]
      exact hend
    rintro (⟨x, hx, ⟨hprovider, hactive⟩, hend⟩ | ⟨v, hv, hprovider, hend⟩)
    · obtain ⟨x', hx', hkey⟩ := relationRule.applyAll_keeps_ident hfit (KeyedTable.get_of_mem hx)
      rw [← hrel] at hx'
      have hmem := KeyedTable.mem_of_get hx'
      have hprovider' : x'.key.evidenceType = .provider := by
        have hkey' : x'.key = x.key := hkey
        rw [hkey']
        exact hprovider
      refine ⟨x', hmem, hlive x' hmem hprovider' ?_, hends x' x hkey hend⟩
      rintro y hy rfl
      have hsame := s.relations.row_unique hy hx (KeyedTable.key_of_get hx')
      rw [hsame]
      exact hactive
    · have hrow : s.projectedRelation v ∈ batch.relations.map s.projectedRelation :=
        List.mem_map_of_mem hv
      obtain ⟨x, hx, hlands⟩ : ∃ x,
          s'.relations.get (s.projectedRelation v).relationId = some x ∧
            ∃ w ∈ batch.relations, relationRule.Lands (s.projectedRelation w) x := by
        obtain ⟨row, hrow', _, x, hx, hlands⟩ :=
          relationRule.get_applyAll_of_mem (t := s.relations) hrow
        obtain ⟨w, hw, rfl⟩ := List.mem_map.mp hrow'
        rw [← hrel] at hx
        exact ⟨x, hx, w, hw, hlands⟩
      obtain ⟨x', hx', hkey⟩ := relationRule.applyAll_ident hfit hrow
      rw [← hrel, hx] at hx'
      cases hx'
      have hkey' : x.key = (s.projectedRelation v).key := hkey
      refine ⟨x, KeyedTable.mem_of_get hx, ⟨?_, ?_⟩, hends x _ hkey' hend⟩
      · have hsame := congrArg RelationKey.evidenceType hkey'
        exact hsame.trans hprovider
      · obtain ⟨w, _, hlands⟩ := hlands
        rcases hlands with rfl | ⟨old, rfl⟩
        · rfl
        · rfl

/-- The tombstones after a commit: the rows that fell due, and the tombstones
before that the batch does not observe. -/
theorem isTombstoned_commit (hs : CommitEffect s (s.commitOf handle batch at_) r s')
    (id : ResourceId) :
    s'.isTombstoned id = true ↔
      (∃ old ∈ s.dueOf handle.run.connectionId batch, old.resourceId = id) ∨
        id ∉ batch.observedIds ∧ s.isTombstoned id = true := by
  by_cases hdue : ∃ old ∈ s.dueOf handle.run.connectionId batch, old.resourceId = id
  · obtain ⟨old, hold, rfl⟩ := hdue
    obtain ⟨x, hx, htomb, _⟩ := tombstoned_of_due hs hold
    exact ⟨fun _ => Or.inl ⟨old, hold, rfl⟩, fun _ => isTombstoned_iff.mpr ⟨x, hx, htomb⟩⟩
  · by_cases hobs : id ∈ batch.observedIds
    · obtain ⟨x, hx, hactive⟩ := active_of_observed hs hobs
      constructor
      · intro h
        obtain ⟨row, hrow, htomb⟩ := isTombstoned_iff.mp h
        rw [hx] at hrow
        cases hrow
        rw [hactive] at htomb
        cases htomb
      · rintro (h | ⟨hnot, _⟩)
        · exact absurd h hdue
        · exact absurd hobs hnot
    · have hsame := untouched_of_absent hs hobs (fun old hold e => hdue ⟨old, hold, e⟩)
      unfold isTombstoned
      rw [hsame]
      simp [hdue, hobs]

/-- The batch strands an edge: a resource that falls due still has one, or the
batch brings one to a tombstone it does not observe. -/
def StrandedBy (s : Store) (connection : ConnectionId) (batch : ValidatedBatch) : Prop :=
  (∃ old ∈ s.dueOf connection batch,
      s.HasLiveEdgeAt old.resourceId ∨ batch.HasEdgeAt old.resourceId) ∨
    ∃ id ∉ batch.observedIds, s.isTombstoned id = true ∧ batch.HasEdgeAt id

theorem noDeadEnd_commit (hs : CommitEffect s (s.commitOf handle batch at_) r s')
    (hbefore : s.NoDeadEnd) :
    s'.NoDeadEnd ↔ ¬ s.StrandedBy handle.run.connectionId batch := by
  constructor
  · rintro hafter (⟨old, hold, hedge⟩ | ⟨id, hobs, htomb, hedge⟩)
    · have hlive := hafter _ ((hasLiveEdgeAt_commit hs _).mpr hedge)
      rw [(isTombstoned_commit hs _).mpr (Or.inl ⟨old, hold, rfl⟩)] at hlive
      cases hlive
    · have hlive := hafter _ ((hasLiveEdgeAt_commit hs _).mpr (Or.inr hedge))
      rw [(isTombstoned_commit hs _).mpr (Or.inr ⟨hobs, htomb⟩)] at hlive
      cases hlive
  · intro hnot id hedge
    have hedge' := (hasLiveEdgeAt_commit hs id).mp hedge
    by_contra hdead
    have htomb : s'.isTombstoned id = true := by simpa using hdead
    rcases (isTombstoned_commit hs id).mp htomb with ⟨old, hold, rfl⟩ | ⟨hobs, htomb'⟩
    · exact hnot (Or.inl ⟨old, hold, hedge'⟩)
    · rcases hedge' with hstored | hbatch
      · rw [hbefore id hstored] at htomb'
        cases htomb'
      · exact hnot (Or.inr ⟨id, hobs, htomb', hbatch⟩)

theorem noDeadEnd_of_same (hsame : System.SameProjection s s') : s'.NoDeadEnd ↔ s.NoDeadEnd := by
  unfold NoDeadEnd HasLiveEdgeAt isTombstoned getResource
  rw [hsame.relations, hsame.resources]

end Store

namespace System

/-! ## §2  Runs -/

/-- The commit that lands strands an edge. -/
def Strands (sys : System) : Call → Prop
  | .finish e (.commit handle batch at_) =>
      sys.Lands e (.commit handle batch at_) ∧
        sys.store.StrandedBy handle.run.connectionId batch
  | .finish _ (.fail _ _ _) => False
  | .connect _ => False
  | .secret _ _ => False
  | .start _ _ _ => False
  | .recover _ _ => False

theorem lands_of_effect {sys : System} {e : Nat} {handle : SyncRunHandle} {batch : ValidatedBatch}
    {at_ : Timestamp} {r : CommitResult} {store : Store} (empty : sys.queues e = [])
    (checked : sys.store.Checked handle batch)
    (effect : CommitEffect sys.store (sys.store.commitOf handle batch at_) r store) :
    sys.Lands e (.commit handle batch at_) := by
  have hfit : sys.store.Fitting (sys.store.commitOf handle batch at_) :=
    ⟨effect.valid, Store.resourceRule.fitsAll_iff.mp effect.resourcesFit,
      Store.relationRule.fitsAll_iff.mp effect.relationsFit⟩
  exact ⟨empty, _, sys.store.plannedCommit_ok_iff.mpr ⟨checked, rfl⟩, hfit⟩

theorem noDeadEnd_step {sys : System} {call : Call} (hen : machine.enabled sys call)
    (hs : sys.Sound) (hbefore : sys.store.NoDeadEnd) :
    (machine.step sys call).store.NoDeadEnd ↔ ¬ sys.Strands call := by
  by_cases hlands : ∃ e handle batch at_, call = .finish e (.commit handle batch at_) ∧
      sys.Lands e (.commit handle batch at_)
  · obtain ⟨e, handle, batch, at_, rfl, hlands⟩ := hlands
    have hcases := finish_cases hs (e := e) hen
    obtain ⟨r, hr⟩ := (lands_iff hs hen).mpr hlands
    show (sys.step (.finish e (.commit handle batch at_))).store.NoDeadEnd ↔ _
    generalize sys.step (.finish e (.commit handle batch at_)) = next at hcases ⊢
    rcases hcases with ⟨error, _, hres, _⟩ | ⟨commit, _, store, _, hplanned, _, htaken, _⟩
    · rw [hr] at hres
      cases hres
    · obtain ⟨_, rfl⟩ := sys.store.plannedCommit_ok_iff.mp hplanned
      have hiff := Store.noDeadEnd_commit (Store.commitSync_ok htaken) hbefore
      show store.NoDeadEnd ↔ ¬ (sys.Lands e _ ∧ _)
      rw [hiff]
      simp only [hlands, true_and]
  · -- every other call leaves both tables alone
    have hquiet : ¬ sys.Strands call := by
      intro h
      cases call with
      | finish e c =>
          cases c with
          | commit handle batch at_ => exact hlands ⟨e, handle, batch, at_, rfl, h.1⟩
          | fail handle error at_ => exact h
      | connect connection => exact h
      | secret connection secret => exact h
      | start e connection start => exact h
      | recover e at_ => exact h
    refine iff_of_true ?_ hquiet
    have hmoves := step_moves hs hen
    show (sys.step call).store.NoDeadEnd
    generalize sys.step call = next at hmoves ⊢
    cases hmoves with
    | quiet _ same log => exact (Store.noDeadEnd_of_same same).mpr hbefore
    | failed e handle error at_ r empty effect log =>
        have hres : next.store.resources = sys.store.resources := effect.resources
        have hrel : next.store.relations = sys.store.relations := effect.relations
        unfold Store.NoDeadEnd Store.HasLiveEdgeAt Store.isTombstoned Store.getResource
        rw [hres, hrel]
        exact hbefore
    | committed e handle batch at_ r empty checked effect log =>
        exact absurd ⟨e, handle, batch, at_, rfl, lands_of_effect empty checked effect⟩ hlands

theorem noDeadEnd_fresh : fresh.store.NoDeadEnd := by
  rintro id ⟨r, hr, _⟩
  cases hr

/-- No live edge to a dead node in any state of a run: exactly when no commit of
the run strands an edge. -/
theorem no_dead_end_throughout_iff {calls : List Call} {sys : System}
    (hrun : machine.Run fresh calls sys) :
    machine.Throughout (fun sys => sys.store.NoDeadEnd) fresh calls ↔
      Machine.Run (machine.restrict fun sys call => ¬ sys.Strands call) fresh calls sys :=
  hrun.throughout_iff sound_preserved (fun _ _ hen hs hbefore => noDeadEnd_step hen hs hbefore)
    sound_fresh noDeadEnd_fresh

end System

namespace Fixture

/-- A provider relation between two resources of connection `a`, as the normalizer
builds it for this run. -/
def edge (run : SyncRunId) (source target : ExternalId) : ValidatedRelation where
  key :=
    { source := (observed source).key
      target := (observed target).key
      kind := kind "host.uses"
      evidenceKey := text "e" }
  evidence := .provider (text "a") run (text "/uses")
  observedAt := time 1
  fingerprint := text "f"

/-- A full run that observes the resources and the relations. -/
def fullWith (run : SyncRunId) (resources : List ValidatedResource)
    (relations : List ValidatedRelation) : List Call :=
  [.start 0 (text "a") (start run .full (text "all")),
    .finish 0 (.commit (handle (text "a") run .full (text "all"))
      { batch run (.authoritativeFull (text "all")) resources with relations := relations }
      (time 2))]

/-- `x` uses `y`, then one full run without `y`. -/
def usedOnce : List Call :=
  .connect (connection (text "a")) ::
    (fullWith (text "r0") [observed (text "x"), observed (text "y")]
        [edge (text "r0") (text "x") (text "y")] ++
      fullWith (text "r1") [observed (text "x")] [])

/-- And a second one. -/
def usedTwice : List Call := usedOnce ++ fullWith (text "r2") [observed (text "x")] []

/-- The row the first run leaves for the relation. -/
def usesRow : Relation := Store.fresh.projectedRelation (edge (text "r0") (text "x") (text "y"))

def usedId : ResourceId := stableResourceId (observed (text "y")).key

end Fixture

namespace System

open Fixture in
/-- `y` is gone, the edge from `x` to it is active. -/
theorem dead_end_after_two_absences :
    (machine.replay fresh usedTwice).Reachable ∧
      ¬ (machine.replay fresh usedTwice).store.NoDeadEnd := by
  refine ⟨reachable_replay (by decide), ?_⟩
  intro h
  have hrow : (machine.replay fresh usedTwice).store.relations.get usesRow.relationId =
      some usesRow := rfl
  have htomb : (machine.replay fresh usedTwice).store.isTombstoned usedId = true := rfl
  rw [h usedId ⟨usesRow, KeyedTable.mem_of_get hrow, ⟨rfl, rfl⟩, Or.inr rfl⟩] at htomb
  cases htomb

open Fixture in
theorem no_dead_end_throughout_usedOnce :
    machine.Throughout (fun sys => sys.store.NoDeadEnd) fresh usedOnce ↔
      Machine.Run (machine.restrict fun sys call => ¬ sys.Strands call) fresh usedOnce
        (machine.replay fresh usedOnce) :=
  no_dead_end_throughout_iff (Machine.run_replay (by decide))

end System

end NextInfra
