import NextInfra.Lib.Runs
import NextInfra.Store.Authors
import NextInfra.Sync.LiveEdges
import Mathlib.Data.Prod.Lex

/-!
# The version change detection compares with

`build_commit` records a relation as changed where its fingerprint differs from
`latest_relation_version_fingerprint`, the one of the version observed last (the
version id breaks ties). A `Journal` keeps beside the store the versions in the order
they were committed. The two last versions agree in every state of a run of writes
exactly when each write commits in observation order (`InOrder`).
-/

namespace NextInfra

namespace Store

/-! ## §1  The version observed last -/

/-- The order of the query: observation time, then version id. -/
def stamp (v : RelationVersion) : Timestamp ×ₗ RelationVersionId :=
  toLex (v.observedAt, v.relationVersionId)

theorem laterVersion_iff {a b : RelationVersion} : laterVersion a b = true ↔ stamp a < stamp b := by
  simp [laterVersion, stamp, Prod.Lex.toLex_lt_toLex]

theorem latestVersion_eq_none {vs : List RelationVersion} (h : latestVersion vs = none) :
    vs = [] := by
  cases vs with
  | nil => rfl
  | cons x xs =>
      unfold latestVersion at h
      split at h
      · cases h
      · split at h <;> cases h

/-- No row of the list is later than the one the query returns. -/
theorem stamp_le_latest {w : RelationVersion} : ∀ {vs : List RelationVersion},
    latestVersion vs = some w → ∀ u ∈ vs, stamp u ≤ stamp w
  | x :: xs, h => by
      unfold latestVersion at h
      intro u hu
      cases hlast : latestVersion xs with
      | none =>
          rw [hlast] at h
          obtain rfl : x = w := Option.some.inj h
          rw [latestVersion_eq_none hlast] at hu
          obtain rfl := List.mem_singleton.mp hu
          exact le_refl _
      | some last =>
          rw [hlast] at h
          have hxs := stamp_le_latest hlast
          simp only [laterVersion_iff] at h
          split at h
          · rename_i hlater
            obtain rfl : last = w := Option.some.inj h
            rcases List.mem_cons.mp hu with rfl | hu
            · exact le_of_lt hlater
            · exact hxs u hu
          · rename_i hlater
            obtain rfl : x = w := Option.some.inj h
            rcases List.mem_cons.mp hu with rfl | hu
            · exact le_refl _
            · exact le_trans (hxs u hu) (not_lt.mp hlater)

/-- Rows under distinct version ids. -/
def Distinct (vs : List RelationVersion) : Prop :=
  ∀ u ∈ vs, ∀ v ∈ vs, u.relationVersionId = v.relationVersionId → u = v

theorem eq_of_stamp {vs : List RelationVersion} (hdistinct : Distinct vs) {u v : RelationVersion}
    (hu : u ∈ vs) (hv : v ∈ vs) (h : stamp u = stamp v) : u = v :=
  hdistinct u hu v hv (congrArg (fun s => (ofLex s).2) h)

/-- Only the rows decide which one the query returns. -/
theorem latestVersion_congr {vs ws : List RelationVersion} (hdistinct : Distinct vs)
    (h : ∀ v, v ∈ vs ↔ v ∈ ws) : latestVersion vs = latestVersion ws := by
  cases hvs : latestVersion vs with
  | none =>
      have hnil : ws = [] := List.eq_nil_iff_forall_not_mem.mpr fun v hv => by
        have hmem := (h v).mpr hv
        rw [latestVersion_eq_none hvs] at hmem
        exact absurd hmem List.not_mem_nil
      rw [hnil]
      rfl
  | some v =>
      have hv : v ∈ vs := latestVersion_mem hvs
      cases hws : latestVersion ws with
      | none =>
          have hmem := (h v).mp hv
          rw [latestVersion_eq_none hws] at hmem
          exact absurd hmem List.not_mem_nil
      | some w =>
          have hw : w ∈ vs := (h w).mpr (latestVersion_mem hws)
          have hle : stamp v ≤ stamp w := stamp_le_latest hws v ((h v).mp hv)
          rw [eq_of_stamp hdistinct hv hw (le_antisymm hle (stamp_le_latest hvs w hw))]

/-- The query returns the fingerprint of `v` exactly when each row with another one
comes before a row with this one. -/
theorem latest_fingerprint_iff {vs : List RelationVersion} (hdistinct : Distinct vs)
    {v : RelationVersion} (hv : v ∈ vs) :
    (latestVersion vs).map RelationVersion.fingerprint = some v.fingerprint ↔
      ∀ u ∈ vs, u.fingerprint ≠ v.fingerprint →
        ∃ later ∈ vs, later.fingerprint = v.fingerprint ∧ stamp u < stamp later := by
  cases hlast : latestVersion vs with
  | none =>
      rw [latestVersion_eq_none hlast] at hv
      exact absurd hv List.not_mem_nil
  | some last =>
      have hmem : last ∈ vs := latestVersion_mem hlast
      have htop := stamp_le_latest hlast
      simp only [Option.map_some, Option.some.injEq]
      constructor
      · intro hlatest u hu hother
        refine ⟨last, hmem, hlatest, lt_of_le_of_ne (htop u hu) fun hstamp => ?_⟩
        obtain rfl := eq_of_stamp hdistinct hu hmem hstamp
        exact hother hlatest
      · intro hbefore
        by_contra hother
        obtain ⟨later, hlater, -, hlt⟩ := hbefore last hmem hother
        exact absurd (htop later hlater) (not_le.mpr hlt)

end Store

/-! ## §2  Writes with their journal -/

/-- The versions of one relation. -/
def versionsOf (id : RelationId) (vs : List RelationVersion) : List RelationVersion :=
  vs.filter fun v => decide (v.relationId = id)

theorem mem_versionsOf {id : RelationId} {vs : List RelationVersion} {v : RelationVersion} :
    v ∈ versionsOf id vs ↔ v ∈ vs ∧ v.relationId = id := by
  simp [versionsOf]

/-- A store and the stored relation versions in the order they were committed. -/
structure Journal where
  store : Store
  committed : List RelationVersion

namespace Journal

def fresh : Journal := ⟨.fresh, []⟩

/-- The relation versions a write adds to the table. -/
def inserted (j : Journal) (w : Write) : List RelationVersion :=
  j.store.relationVersions.insertedRows w.relationVersions

/-- A write appends what it inserts and forgets what it removes. -/
def written (j : Journal) (w : Write) : Journal :=
  match w.run j.store with
  | .ok store =>
      { store := store
        committed := (j.committed ++ j.inserted w).filter fun v =>
          (store.relationVersions.get v.relationVersionId).isSome }
  | .error _ => j

/-- Every write of the store, where it is accepted. -/
def machine : Machine Journal Write where
  enabled := fun j w => (w.run j.store).isOk = true
  step := written

instance (j : Journal) (w : Write) : Decidable (machine.enabled j w) :=
  inferInstanceAs (Decidable (_ = true))

def lastCommitted (j : Journal) (id : RelationId) : Option RelationVersion :=
  (versionsOf id j.committed).getLast?

/-- The relation is new, or its content differs from the one committed last. -/
def Moved (j : Journal) (v : ValidatedRelation) : Prop :=
  j.store.getRelation (stableRelationId v.key) = none ∨
    (j.lastCommitted (stableRelationId v.key)).map RelationVersion.fingerprint ≠ some v.fingerprint

/-- The query answers with the fingerprint committed last, and a commit records a
version of exactly the relations that differ from it. -/
structure Detects (j : Journal) : Prop where
  latest : ∀ id, j.store.latestRelationVersionFingerprint id =
    (j.lastCommitted id).map RelationVersion.fingerprint
  recorded : ∀ handle batch at_ c, buildCommit j.store handle batch at_ = .ok c →
    (∀ v ∈ batch.relations, j.Moved v →
      ∃ x ∈ c.relationVersions, x.relationId = stableRelationId v.key ∧
        x.fingerprint = v.fingerprint) ∧
    ∀ x ∈ c.relationVersions, ∃ v ∈ batch.relations, j.Moved v ∧
      x.relationId = stableRelationId v.key ∧ x.fingerprint = v.fingerprint

/-- The version a write commits last of a relation comes after every version of the
relation with another fingerprint, or one that shares its fingerprint does. -/
def InOrder (j : Journal) (w : Write) : Prop :=
  ∀ id v, (versionsOf id (j.inserted w)).getLast? = some v →
    ∀ u ∈ versionsOf id (j.store.relationVersions.rows ++ j.inserted w),
      u.fingerprint ≠ v.fingerprint →
      ∃ later ∈ versionsOf id (j.store.relationVersions.rows ++ j.inserted w),
        later.fingerprint = v.fingerprint ∧ Store.stamp u < Store.stamp later

/-! ## §3  One write -/

variable {j : Journal} {w : Write}

/-- The journal lists the rows of the table. -/
def Complete (j : Journal) : Prop :=
  ∀ v, v ∈ j.committed ↔ v ∈ j.store.relationVersions.rows

theorem distinct_versionsOf (s : Store) (id : RelationId) :
    Store.Distinct (versionsOf id s.relationVersions.rows) := by
  intro u hu v hv hkey
  exact s.relationVersions.row_unique (mem_versionsOf.mp hu).1 (mem_versionsOf.mp hv).1 hkey

theorem written_ok {store : Store} (h : w.run j.store = .ok store) :
    j.written w =
      { store := store
        committed := (j.committed ++ j.inserted w).filter fun v =>
          (store.relationVersions.get v.relationVersionId).isSome } := by
  unfold written
  rw [h]

theorem ran_of_enabled (hen : machine.enabled j w) : ∃ store, w.run j.store = .ok store := by
  cases hrun : w.run j.store with
  | error e =>
      have hok : (w.run j.store).isOk = true := hen
      rw [hrun] at hok
      cases hok
  | ok store => exact ⟨store, rfl⟩

/-- What an accepted write does to the table and to the journal: both gain the rows
inserted, or both lose all versions of some relations. -/
inductive Step (j : Journal) (w : Write) (next : Journal) : Prop
  | commits (rows : ∀ x, x ∈ next.store.relationVersions.rows ↔
        x ∈ j.store.relationVersions.rows ∨ x ∈ j.inserted w)
      (committed : next.committed = j.committed ++ j.inserted w)
  | purges (owned : RelationId → Bool) (none_inserted : j.inserted w = [])
      (rows : ∀ x, x ∈ next.store.relationVersions.rows ↔
        x ∈ j.store.relationVersions.rows ∧ owned x.relationId = false)
      (committed : next.committed = j.committed.filter fun v => !owned v.relationId)

theorem step_of_enabled (hcomplete : j.Complete) (hen : machine.enabled j w) :
    Step j w (j.written w) := by
  obtain ⟨store, hrun⟩ := ran_of_enabled hen
  rw [written_ok hrun]
  cases Write.relationEffect hrun with
  | committed _ _ versions _ =>
      have hrows : ∀ x, x ∈ store.relationVersions.rows ↔
          x ∈ j.store.relationVersions.rows ∨ x ∈ j.inserted w := by
        intro x
        rw [versions]
        exact KeyedTable.mem_insertNewAll_iff
      refine .commits hrows (List.filter_eq_self.mpr fun v hv => ?_)
      have hv : v ∈ store.relationVersions.rows := by
        rw [hrows, ← hcomplete v]
        exact List.mem_append.mp hv
      rw [KeyedTable.get_of_mem hv]
      rfl
  | purged id hw hpurged =>
      have hnone : j.inserted w = [] := by
        rw [hw]
        rfl
      have hrows : ∀ x, x ∈ store.relationVersions.rows ↔
          x ∈ j.store.relationVersions.rows ∧ j.store.ownsRelation id x.relationId = false := by
        intro x
        rw [hpurged]
        show x ∈ (KeyedTable.keep _ _).rows ↔ _
        simp [KeyedTable.mem_keep]
      refine .purges (j.store.ownsRelation id) hnone hrows ?_
      rw [hnone, List.append_nil]
      refine List.filter_congr fun v hv => ?_
      -- a row under the id of `v` is `v` itself
      rw [Bool.eq_iff_iff, Bool.not_eq_true', Option.isSome_iff_exists]
      constructor
      · rintro ⟨x, hx⟩
        have hrow := (hrows x).mp (KeyedTable.mem_of_get hx)
        rw [← j.store.relationVersions.row_unique hrow.1 ((hcomplete v).mp hv)
          (KeyedTable.key_of_get hx)]
        exact hrow.2
      · intro howned
        exact ⟨v, KeyedTable.get_of_mem ((hrows v).mpr ⟨(hcomplete v).mp hv, howned⟩)⟩

theorem complete_preserved : machine.Preserves Complete := by
  intro j w hen hcomplete
  cases step_of_enabled hcomplete hen with
  | commits rows committed =>
      intro v
      show v ∈ (j.written w).committed ↔ v ∈ (j.written w).store.relationVersions.rows
      rw [committed, rows, List.mem_append, hcomplete v]
  | purges owned _ rows committed =>
      intro v
      show v ∈ (j.written w).committed ↔ v ∈ (j.written w).store.relationVersions.rows
      rw [committed, rows, List.mem_filter, hcomplete v, Bool.not_eq_true']

theorem latest_eq (s : Store) (id : RelationId) :
    s.latestRelationVersionFingerprint id =
      (Store.latestVersion (versionsOf id s.relationVersions.rows)).map
        RelationVersion.fingerprint := rfl

/-- The query and the journal agree on one relation. -/
def Agrees (j : Journal) (id : RelationId) : Prop :=
  j.store.latestRelationVersionFingerprint id =
    (j.lastCommitted id).map RelationVersion.fingerprint

theorem versionsOf_append (id : RelationId) (vs ws : List RelationVersion) :
    versionsOf id (vs ++ ws) = versionsOf id vs ++ versionsOf id ws :=
  List.filter_append vs ws

theorem versionsOf_filter_not {owned : RelationId → Bool} {id : RelationId}
    {vs : List RelationVersion} :
    versionsOf id (vs.filter fun v => !owned v.relationId) =
      if owned id then [] else versionsOf id vs := by
  unfold versionsOf
  rw [List.filter_filter]
  by_cases howned : owned id = true
  · rw [if_pos howned]
    refine List.filter_eq_nil_iff.mpr fun v _ h => ?_
    simp only [Bool.and_eq_true, decide_eq_true_eq, Bool.not_eq_true'] at h
    rw [h.1, howned] at h
    cases h.2
  · rw [if_neg howned]
    refine List.filter_congr fun v _ => ?_
    by_cases hid : v.relationId = id
    · simp [hid, howned]
    · simp [hid]

/-- After a write the query and the journal agree on a relation it inserts no version
of, and on another one exactly if its last version is in order. -/
theorem agrees_written (hcomplete : j.Complete) (hen : machine.enabled j w) {id : RelationId}
    (hagrees : j.Agrees id) :
    (j.written w).Agrees id ↔
      ∀ v, (versionsOf id (j.inserted w)).getLast? = some v →
        ∀ u ∈ versionsOf id (j.store.relationVersions.rows ++ j.inserted w),
          u.fingerprint ≠ v.fingerprint →
          ∃ later ∈ versionsOf id (j.store.relationVersions.rows ++ j.inserted w),
            later.fingerprint = v.fingerprint ∧ Store.stamp u < Store.stamp later := by
  have hdistinct := distinct_versionsOf (j.written w).store id
  unfold Agrees lastCommitted at hagrees ⊢
  cases step_of_enabled hcomplete hen with
  | commits rows committed =>
      have hmem : ∀ x, x ∈ versionsOf id (j.written w).store.relationVersions.rows ↔
          x ∈ versionsOf id (j.store.relationVersions.rows ++ j.inserted w) := by
        intro x
        rw [mem_versionsOf, mem_versionsOf, rows, List.mem_append]
      rw [committed, versionsOf_append, List.getLast?_append]
      cases hlast : (versionsOf id (j.inserted w)).getLast? with
      | none =>
          have hnil := List.getLast?_eq_none_iff.mp hlast
          have hsame : (j.written w).store.latestRelationVersionFingerprint id =
              j.store.latestRelationVersionFingerprint id := by
            rw [latest_eq, latest_eq]
            refine congrArg (Option.map _) (Store.latestVersion_congr hdistinct fun x => ?_)
            rw [hmem, versionsOf_append, hnil, List.append_nil]
          rw [hsame, hagrees]
          simp
      | some v =>
          have hv : v ∈ versionsOf id (j.written w).store.relationVersions.rows := by
            rw [hmem, versionsOf_append]
            exact List.mem_append_right _ (List.mem_of_getLast? hlast)
          have hiff := Store.latest_fingerprint_iff hdistinct hv
          simp only [hmem] at hiff
          simp only [Option.some_or, Option.map_some, Option.some.injEq, forall_eq']
          exact hiff
  | purges owned none_inserted rows committed =>
      rw [none_inserted]
      simp only [versionsOf, List.filter_nil, List.getLast?_nil, reduceCtorEq, false_implies,
        implies_true, iff_true]
      have hkept : ((j.written w).store.latestRelationVersionFingerprint id) =
          (Store.latestVersion (versionsOf id (j.store.relationVersions.rows.filter
            fun v => !owned v.relationId))).map RelationVersion.fingerprint := by
        rw [latest_eq]
        refine congrArg (Option.map _) (Store.latestVersion_congr hdistinct fun x => ?_)
        rw [mem_versionsOf, mem_versionsOf, rows, List.mem_filter, Bool.not_eq_true']
      rw [hkept, committed]
      show _ = ((versionsOf id _).getLast?).map _
      rw [versionsOf_filter_not, versionsOf_filter_not]
      split
      · rfl
      · exact hagrees

/-! ## §4  Whole runs -/

theorem versions_iff {v : ValidatedRelation} {existing : Option Relation}
    {latest : Option Fingerprint} :
    (relationOutcome v existing latest).versions = true ↔
      existing = none ∨ latest ≠ some v.fingerprint := by
  cases existing with
  | none => simp [relationOutcome, Outcome.of, Outcome.versions]
  | some previous =>
      by_cases hlatest : latest = some v.fingerprint
      · by_cases hlive : previous.lifecycle = .active <;>
          simp [relationOutcome, Outcome.of, Outcome.versions, hlatest, hlive]
      · simp [relationOutcome, Outcome.of, Outcome.versions, hlatest]

theorem planned_version {run : SyncRun} {v : ValidatedRelation} {existing : Option Relation}
    {latest : Option Fingerprint} (h : (relationOutcome v existing latest).versions = true) :
    ∃ x ∈ (planRelation run v existing latest).relationVersions,
      x.relationId = stableRelationId v.key ∧ x.fingerprint = v.fingerprint := by
  unfold planRelation Outcome.count
  simp only
  rw [if_pos h]
  exact ⟨_, List.mem_singleton.mpr rfl, rfl, rfl⟩

theorem of_planned_version {run : SyncRun} {v : ValidatedRelation} {existing : Option Relation}
    {latest : Option Fingerprint} {x : RelationVersion}
    (hx : x ∈ (planRelation run v existing latest).relationVersions) :
    (relationOutcome v existing latest).versions = true ∧
      x.relationId = stableRelationId v.key ∧ x.fingerprint = v.fingerprint := by
  unfold planRelation Outcome.count at hx
  simp only at hx
  split at hx
  · rename_i hversions
    rw [List.mem_singleton.mp hx]
    exact ⟨hversions, rfl, rfl⟩
  · cases hx

theorem moved_iff {v : ValidatedRelation} (hagrees : j.Agrees (stableRelationId v.key)) :
    j.Moved v ↔ (relationOutcome v (j.store.getRelation (stableRelationId v.key))
      (j.store.latestRelationVersionFingerprint (stableRelationId v.key))).versions = true := by
  rw [versions_iff, hagrees]
  exact Iff.rfl

/-- Change detection is right wherever the query agrees with the journal. -/
theorem detects_iff : j.Detects ↔ ∀ id, j.Agrees id := by
  refine ⟨fun h => h.latest, fun hagrees => ⟨hagrees, fun handle batch at_ c hc => ?_⟩⟩
  obtain rfl := (j.store.buildCommit_ok_iff.mp hc).2
  rw [Store.commitOf_relationVersions]
  constructor
  · intro v hv hmoved
    obtain ⟨x, hx, hfacts⟩ := planned_version ((moved_iff (hagrees _)).mp hmoved)
    exact ⟨x, List.mem_flatMap.mpr ⟨_, List.mem_map.mpr ⟨v, hv, rfl⟩, hx⟩, hfacts⟩
  · intro x hx
    obtain ⟨p, hp, hxp⟩ := List.mem_flatMap.mp hx
    obtain ⟨v, hv, rfl⟩ := List.mem_map.mp hp
    obtain ⟨hversions, hfacts⟩ := of_planned_version hxp
    exact ⟨v, hv, (moved_iff (hagrees _)).mpr hversions, hfacts⟩

theorem detects_written (hcomplete : j.Complete) (hen : machine.enabled j w) (h : j.Detects) :
    (j.written w).Detects ↔ j.InOrder w := by
  rw [detects_iff]
  exact forall_congr' fun id => agrees_written hcomplete hen (h.latest id)

theorem complete_fresh : fresh.Complete := fun _ => Iff.rfl

theorem detects_fresh : fresh.Detects := detects_iff.mpr fun _ => rfl

end Journal

namespace Fixture

/-- One relation of connection `a` with this content. -/
def edgeBatch (run : SyncRunId) (content : Fingerprint) : ValidatedBatch :=
  { batch run (.authoritativeFull (text "all")) [observed (text "x"), observed (text "y")] with
    relations := [{ edge run (text "x") (text "y") with fingerprint := content }] }

/-- The writes of a full sync that observes it. -/
def edgeSync (j : Journal) (run : SyncRunId) (content : Fingerprint) : List Write :=
  let start := Write.startSyncRun (handle (text "a") run .full (text "all")).run
  [start, .commitSync ((j.written start).store.commitOf
    (handle (text "a") run .full (text "all")) (edgeBatch run content) (time 2))]

/-- Two syncs at one observation time; the second run sorts before the first. -/
def twiceAtOnce : List Write :=
  let first := .upsertConnection (connection (text "a")) ::
    edgeSync (Journal.fresh.written (.upsertConnection (connection (text "a")))) (text "r1")
      (text "f")
  first ++ edgeSync (Journal.machine.replay .fresh first) (text "r0") (text "g")

def edgeId : RelationId := stableRelationId (edge (text "r1") (text "x") (text "y")).key

end Fixture

namespace Journal

end Journal

end NextInfra
