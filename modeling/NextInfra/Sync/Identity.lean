import NextInfra.Lib.Separated
import NextInfra.Normalizer.Normalize

/-!
# Stable identities

The ids the sync engine builds by joining fields with colons. Every built text
starts with a literal and ends with a trimmed value, so the id constructors
accept it and the functions here are total.

The fields may contain colons. §2 says exactly when two tuples get the same id:
when their colon-separated segments agree (`stableResourceId_eq_iff`,
`stableRelationId_eq_iff`), or, for an id and a run, when text shifts across the
colon between them (`changeId_eq_iff` and its siblings).
-/

namespace NextInfra

/-! ## §1  The ids -/

/-- A visible first character and a trimmed tail make a trimmed text. -/
theorem trimmed_append {name head : String} {c : Char} {rest : List Char}
    (hhead : head.toList = c :: rest) (hc : isWhitespace c = false) (tail : StringValue name) :
    Trimmed (head ++ tail.val) := by
  obtain ⟨init, d, htail, hd⟩ := tail.trimmed.last_visible
  have hlist : (head ++ tail.val).toList = c :: (rest ++ init) ++ [d] := by
    rw [String.toList_append, hhead, htail]
    simp
  exact trimmed_of_ends hlist hc hd

/-- `stable_resource_id`. -/
def stableResourceId (key : ResourceKey) : ResourceId where
  val := "resource:" ++ key.connectionId.val ++ ":" ++ key.kind.val ++ ":" ++ key.externalId.val
  trimmed := trimmed_append (c := 'r') (by simp [String.toList_append]; rfl) (by decide)
    key.externalId

/-- `stable_resource_id_from_locator`. -/
def stableResourceIdFromLocator (connectionId : ConnectionId) (locator : ResourceLocator) :
    ResourceId :=
  stableResourceId
    { connectionId := connectionId, kind := locator.kind, externalId := locator.externalId }

/-- The text `stable_relation_id` builds from the endpoints' ids. -/
def relationIdOf (source target : ResourceId) (kind : RelationKind) (evidenceKey : EvidenceKey) :
    RelationId where
  val := "relation:" ++ source.val ++ ":" ++ target.val ++ ":" ++ kind.val ++ ":" ++
    evidenceKey.val
  trimmed := trimmed_append (c := 'r') (by simp [String.toList_append]; rfl) (by decide)
    evidenceKey

/-- `stable_relation_id`. -/
def stableRelationId (key : ValidatedRelationKey) : RelationId :=
  relationIdOf (stableResourceId key.source) (stableResourceId key.target) key.kind key.evidenceKey

/-- The id of the change of one resource or relation in one run. -/
def changeId {name : String} (subject : StringValue name) (run : SyncRunId) : ChangeId where
  val := "change:" ++ subject.val ++ ":" ++ run.val
  trimmed := trimmed_append (c := 'c') (by simp [String.toList_append]; rfl) (by decide) run

/-- `resource_version_id`. -/
def resourceVersionId (resourceId : ResourceId) (run : SyncRunId) : ResourceVersionId where
  val := "resource-version:" ++ resourceId.val ++ ":" ++ run.val
  trimmed := trimmed_append (c := 'r') (by simp [String.toList_append]; rfl) (by decide) run

/-- `relation_version_id`. -/
def relationVersionId (relationId : RelationId) (run : SyncRunId) : RelationVersionId where
  val := "relation-version:" ++ relationId.val ++ ":" ++ run.val
  trimmed := trimmed_append (c := 'r') (by simp [String.toList_append]; rfl) (by decide) run

/-! ## §2  When two ids are equal -/

/-- The fields of a resource id. -/
def ResourceKey.fields (key : ResourceKey) : List (List Char) :=
  ["resource".toList, key.connectionId.val.toList, key.kind.val.toList,
    key.externalId.val.toList]

/-- The fields of a relation id, its endpoints' fields spliced in. -/
def ValidatedRelationKey.fields (key : ValidatedRelationKey) : List (List Char) :=
  "relation".toList :: (key.source.fields ++ (key.target.fields ++
    [key.kind.val.toList, key.evidenceKey.val.toList]))

/-- Two keys whose fields, cut at every colon, read the same. -/
def ResourceKey.Regroups (a b : ResourceKey) : Prop :=
  Separated.segments ':' a.fields = Separated.segments ':' b.fields

def ValidatedRelationKey.Regroups (a b : ValidatedRelationKey) : Prop :=
  Separated.segments ':' a.fields = Separated.segments ':' b.fields

instance (a b : ResourceKey) : Decidable (a.Regroups b) := by
  unfold ResourceKey.Regroups; infer_instance

instance (a b : ValidatedRelationKey) : Decidable (a.Regroups b) := by
  unfold ValidatedRelationKey.Regroups; infer_instance

/-- An id and a run against another id and run: a piece of text stands at the
end of one id or at the front of the other's run. -/
def PairShifts (a : String) (r : SyncRunId) (b : String) (q : SyncRunId) : Prop :=
  Separated.Shifted ':' a.toList r.val.toList b.toList q.val.toList ∨
    Separated.Shifted ':' b.toList q.val.toList a.toList r.val.toList

theorem val_eq_iff {name : String} {a b : StringValue name} :
    a = b ↔ a.val.toList = b.val.toList := by
  constructor
  · rintro rfl
    rfl
  · intro h
    exact StringValue.ext_val (String.toList_inj.mp h)

theorem colon_toList : ":".toList = [':'] := rfl

theorem stableResourceId_toList (key : ResourceKey) :
    (stableResourceId key).val.toList = Separated.join ':' key.fields := by
  simp only [stableResourceId, ResourceKey.fields, String.toList_append, Separated.join_cons_cons,
    Separated.join_singleton, List.append_assoc]
  rfl

theorem stableResourceId_eq_iff {a b : ResourceKey} :
    stableResourceId a = stableResourceId b ↔ a.Regroups b := by
  rw [val_eq_iff, stableResourceId_toList, stableResourceId_toList]
  exact Separated.join_eq_iff (List.cons_ne_nil _ _) (List.cons_ne_nil _ _)

theorem stableRelationId_toList (key : ValidatedRelationKey) :
    (stableRelationId key).val.toList =
      Separated.join ':' ["relation".toList, Separated.join ':' key.source.fields,
        Separated.join ':' key.target.fields, key.kind.val.toList,
        key.evidenceKey.val.toList] := by
  rw [← stableResourceId_toList, ← stableResourceId_toList]
  simp only [stableRelationId, relationIdOf, String.toList_append, Separated.join_cons_cons,
    Separated.join_singleton, List.append_assoc]
  rfl

theorem segments_relation (key : ValidatedRelationKey) :
    Separated.segments ':' ["relation".toList, Separated.join ':' key.source.fields,
        Separated.join ':' key.target.fields, key.kind.val.toList,
        key.evidenceKey.val.toList] = Separated.segments ':' key.fields := by
  have hs : key.source.fields ≠ [] := List.cons_ne_nil _ _
  have ht : key.target.fields ≠ [] := List.cons_ne_nil _ _
  unfold ValidatedRelationKey.fields Separated.segments
  simp only [List.flatMap_cons, List.flatMap_append, Separated.splitOn_join hs,
    Separated.splitOn_join ht]
  rfl

theorem stableRelationId_eq_iff {a b : ValidatedRelationKey} :
    stableRelationId a = stableRelationId b ↔ a.Regroups b := by
  rw [val_eq_iff, stableRelationId_toList, stableRelationId_toList,
    Separated.join_eq_iff (List.cons_ne_nil _ _) (List.cons_ne_nil _ _), segments_relation,
    segments_relation]
  rfl

/-- A literal, an id and a run: equal iff the pair is equal or shifts. -/
theorem prefixed_pair_eq_iff (lit : List Char) {a b : String} {r q : SyncRunId} :
    lit ++ (a.toList ++ ':' :: r.val.toList) = lit ++ (b.toList ++ ':' :: q.val.toList) ↔
      (a, r) = (b, q) ∨ PairShifts a r b q := by
  rw [List.append_cancel_left_eq]
  by_cases hpair : (a.toList, r.val.toList) = (b.toList, q.val.toList)
  · obtain ⟨ha, hr⟩ := Prod.mk.inj hpair
    have hab : a = b := String.toList_inj.mp ha
    have hrq : r = q := val_eq_iff.mpr hr
    simp [hab, hrq]
  · have hne : (a, r) ≠ (b, q) := by
      intro h
      obtain ⟨ha, rfl⟩ := Prod.mk.inj h
      exact hpair (by rw [ha])
    rw [Separated.join_pair_eq_iff hpair]
    simp only [hne, false_or]
    rfl

theorem toList_pair (lit a r : String) :
    (lit ++ a ++ ":" ++ r).toList = lit.toList ++ (a.toList ++ ':' :: r.toList) := by
  rw [String.toList_append, String.toList_append, String.toList_append, List.append_assoc,
    List.append_assoc, colon_toList]
  rfl

theorem changeId_eq_iff {name name' : String} {a : StringValue name} {b : StringValue name'}
    {r q : SyncRunId} :
    changeId a r = changeId b q ↔ (a.val, r) = (b.val, q) ∨ PairShifts a.val r b.val q := by
  unfold changeId
  rw [val_eq_iff, toList_pair, toList_pair]
  exact prefixed_pair_eq_iff _

theorem resourceVersionId_eq_iff {a b : ResourceId} {r q : SyncRunId} :
    resourceVersionId a r = resourceVersionId b q ↔
      (a.val, r) = (b.val, q) ∨ PairShifts a.val r b.val q := by
  unfold resourceVersionId
  rw [val_eq_iff, toList_pair, toList_pair]
  exact prefixed_pair_eq_iff _

theorem relationVersionId_eq_iff {a b : RelationId} {r q : SyncRunId} :
    relationVersionId a r = relationVersionId b q ↔
      (a.val, r) = (b.val, q) ∨ PairShifts a.val r b.val q := by
  unfold relationVersionId
  rw [val_eq_iff, toList_pair, toList_pair]
  exact prefixed_pair_eq_iff _

/-- Under one run nothing shifts. -/
theorem not_pairShifts_same_run {a b : String} {r : SyncRunId} : ¬ PairShifts a r b r := by
  have hlen : ∀ {x y : List Char}, ¬ Separated.Shifted ':' x r.val.toList y r.val.toList := by
    rintro x y ⟨mid, _, h⟩
    have hl := congrArg List.length h
    rw [List.length_append, List.length_cons] at hl
    omega
  rintro (h | h)
  · exact hlen h
  · exact hlen h

/-- A resource id never reads like a relation id. -/
theorem resource_val_ne_relation (key : ResourceKey) (source target : ResourceId)
    (kind : RelationKind) (evidenceKey : EvidenceKey) :
    (stableResourceId key).val ≠ (relationIdOf source target kind evidenceKey).val := by
  intro h
  have hlist := congrArg String.toList h
  simp only [stableResourceId, relationIdOf, String.toList_append, List.append_assoc] at hlist
  have htake := congrArg (List.take 3) hlist
  rw [List.take_append_of_le_length (by decide), List.take_append_of_le_length (by decide)] at htake
  exact absurd htake (by decide)

end NextInfra
