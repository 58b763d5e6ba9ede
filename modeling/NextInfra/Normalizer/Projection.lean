import NextInfra.Normalizer.Normalize
import Mathlib.Algebra.BigOperators.Group.List.Basic

/-!
# What the attribute projection keeps and counts

`project_attributes` copies each allowed path into the projected object, and counts the
leaves it copies. The object is exact for every set of paths (`leafAt_projected`): of the
leaves of the source it has those under an allowed path. The count is not: a leaf under
two allowed paths is counted twice (`projection_exact_iff`).
-/

namespace NextInfra

namespace Value

/-! ## §1  Leaves -/

/-- Everything but an object, as `count_leaf_fields` has it. -/
def isLeaf : Value → Bool
  | .object _ => false
  | .array _ => true
  | .null => true
  | .bool _ => true
  | .number _ => true
  | .string _ => true

/-- The leaf at a path. -/
def leafAt (value : Value) (path : List String) : Option Value :=
  (valueAtPath value path).filter isLeaf

mutual
/-- The paths of the leaves. -/
def leafPaths : Value → List (List String)
  | .object fields => leafPathsOf fields
  | .array _ => [[]]
  | .null => [[]]
  | .bool _ => [[]]
  | .number _ => [[]]
  | .string _ => [[]]
def leafPathsOf : List (String × Value) → List (List String)
  | [] => []
  | (key, value) :: fields => (leafPaths value).map (key :: ·) ++ leafPathsOf fields
end

mutual
/-- No object on the way to a leaf has a key twice; `serde_json::Map` has none. -/
def DistinctKeys : Value → Prop
  | .object fields => (fields.map Prod.fst).Nodup ∧ DistinctKeysOf fields
  | .array _ => True
  | .null => True
  | .bool _ => True
  | .number _ => True
  | .string _ => True
def DistinctKeysOf : List (String × Value) → Prop
  | [] => True
  | (_, value) :: fields => DistinctKeys value ∧ DistinctKeysOf fields
end

theorem valueAtPath_append (value : Value) (path rest : List String) :
    valueAtPath value (path ++ rest) = (valueAtPath value path).bind fun v => valueAtPath v rest := by
  induction path generalizing value with
  | nil => cases value <;> simp [valueAtPath]
  | cons s path ih =>
      cases value with
      | object fields =>
          simp only [List.cons_append, valueAtPath]
          cases fieldOf s fields with
          | none => rfl
          | some v => exact ih v
      | _ => rfl

mutual
theorem countLeafFields_eq : ∀ value : Value, countLeafFields value = (leafPaths value).length
  | .object fields => by
      unfold countLeafFields leafPaths
      exact countLeafFieldsOf_eq fields
  | .array _ => rfl
  | .null => rfl
  | .bool _ => rfl
  | .number _ => rfl
  | .string _ => rfl
theorem countLeafFieldsOf_eq : ∀ fields : List (String × Value),
    countLeafFieldsOf fields = (leafPathsOf fields).length
  | [] => rfl
  | (key, value) :: fields => by
      unfold countLeafFieldsOf leafPathsOf
      rw [countLeafFields_eq value, countLeafFieldsOf_eq fields]
      simp
end

theorem fieldOf_eq_none {key : String} {fields : List (String × Value)}
    (h : key ∉ fields.map Prod.fst) : fieldOf key fields = none := by
  unfold fieldOf
  rw [Option.map_eq_none_iff, List.find?_eq_none]
  intro p hp
  rw [decide_eq_true_iff]
  rintro rfl
  exact h (List.mem_map.mpr ⟨p, hp, rfl⟩)

/-- The leaves under a path of an object stand in the field the path starts with. -/
theorem countP_leafPathsOf {fields : List (String × Value)} (hkeys : (fields.map Prod.fst).Nodup)
    (key : String) (path : List String) :
    (leafPathsOf fields).countP (fun leaf => (key :: path).isPrefixOf leaf) =
      ((fieldOf key fields).map fun value =>
        (leafPaths value).countP fun leaf => path.isPrefixOf leaf).getD 0 := by
  induction fields with
  | nil => rfl
  | cons field fields ih =>
      obtain ⟨k, value⟩ := field
      rw [List.map_cons, List.nodup_cons] at hkeys
      obtain ⟨hnew, hrest⟩ := hkeys
      unfold leafPathsOf
      rw [List.countP_append, List.countP_map, ih hrest]
      by_cases hk : k = key
      · have hnone := fieldOf_eq_none (hk ▸ hnew)
        have hfield : fieldOf key ((k, value) :: fields) = some value := by simp [fieldOf, hk]
        rw [hnone, hfield]
        simp only [Option.map_none, Option.getD_none, Nat.add_zero, Option.map_some,
          Option.getD_some]
        congr 1
        funext leaf
        simp [List.isPrefixOf, hk]
      · have hfield : fieldOf key ((k, value) :: fields) = fieldOf key fields := by
          simp [fieldOf, hk]
        have hzero : (leafPaths value).countP
            ((fun leaf => (key :: path).isPrefixOf leaf) ∘ fun leaf => k :: leaf) = 0 := by
          rw [List.countP_eq_zero]
          intro leaf _
          have : ¬ key = k := fun e => hk e.symm
          simp [List.isPrefixOf, this]
        rw [hzero, hfield, Nat.zero_add]

theorem distinctKeys_of_fieldOf {key : String} {value : Value} :
    ∀ {fields : List (String × Value)}, DistinctKeysOf fields → fieldOf key fields = some value →
      DistinctKeys value
  | (k, v) :: fields, h, hfield => by
      unfold DistinctKeysOf at h
      by_cases hk : k = key
      · have : fieldOf key ((k, v) :: fields) = some v := by simp [fieldOf, hk]
        rw [this] at hfield
        cases hfield
        exact h.1
      · have : fieldOf key ((k, v) :: fields) = fieldOf key fields := by simp [fieldOf, hk]
        rw [this] at hfield
        exact distinctKeys_of_fieldOf h.2 hfield

/-- The leaves under a path are the leaves of the value there. -/
theorem countP_leafPaths {value : Value} (hkeys : DistinctKeys value) (path : List String) :
    (leafPaths value).countP (fun leaf => path.isPrefixOf leaf) =
      ((valueAtPath value path).map countLeafFields).getD 0 := by
  induction path generalizing value with
  | nil =>
      have hself : valueAtPath value [] = some value := by cases value <;> rfl
      rw [hself, Option.map_some, Option.getD_some, countLeafFields_eq]
      simp [List.isPrefixOf]
  | cons key path ih =>
      cases value with
      | object fields =>
          unfold DistinctKeys at hkeys
          unfold leafPaths valueAtPath
          rw [countP_leafPathsOf hkeys.1]
          cases hfield : fieldOf key fields with
          | none => rfl
          | some v => exact ih (distinctKeys_of_fieldOf hkeys.2 hfield)
      | _ => rfl

end Value

/-! ## §2  The projected object -/

/-- No leaf stands above a path that has a value. -/
theorem leafAt_above {value inner : Value} {path rest : List String}
    (h : valueAtPath value (path ++ rest) = some inner) (hrest : rest ≠ []) :
    value.leafAt path = none := by
  rw [Value.valueAtPath_append] at h
  obtain ⟨v, hv, hinner⟩ := Option.bind_eq_some_iff.mp h
  unfold Value.leafAt
  rw [hv]
  cases v with
  | object fields => rfl
  | _ =>
      cases rest with
      | nil => exact absurd rfl hrest
      | cons s rest => cases hinner

/-- The leaves under a path. -/
theorem leafAt_append {value inner : Value} {path : List String}
    (h : valueAtPath value path = some inner) (rest : List String) :
    value.leafAt (path ++ rest) = inner.leafAt rest := by
  unfold Value.leafAt
  rw [Value.valueAtPath_append, h]
  rfl

theorem leafAt_cons_object (fields : List (String × Value)) (key : String) (path : List String) :
    (Value.object fields).leafAt (key :: path) =
      (Value.fieldOf key fields).bind fun v => v.leafAt path := by
  unfold Value.leafAt
  simp only [valueAtPath]
  cases Value.fieldOf key fields with
  | none => rfl
  | some v => rfl

/-- The object below a field that holds no leaf; a missing field stands for an empty one. -/
theorem inner_of_open {fields : List (String × Value)} {key : String}
    (h : (Value.object fields).leafAt [key] = none) :
    ∃ inner, (Value.fieldOf key fields).getD (.object []) = .object inner ∧
      ∀ path, (Value.object fields).leafAt (key :: path) = (Value.object inner).leafAt path := by
  rw [leafAt_cons_object] at h
  cases hfield : Value.fieldOf key fields with
  | none =>
      refine ⟨[], rfl, fun path => ?_⟩
      rw [leafAt_cons_object, hfield]
      cases path with
      | nil => rfl
      | cons k path => rfl
  | some v =>
      rw [hfield] at h
      cases v with
      | object inner =>
          refine ⟨inner, rfl, fun path => ?_⟩
          rw [leafAt_cons_object, hfield]
          rfl
      | _ => cases h

/-- Setting a field replaces what lies below it. -/
theorem leafAt_setField (fields : List (String × Value)) (key : String) (value : Value)
    (k : String) (path : List String) :
    (Value.object (Value.setField key value fields)).leafAt (k :: path) =
      if k = key then value.leafAt path else (Value.object fields).leafAt (k :: path) := by
  rw [leafAt_cons_object, leafAt_cons_object, Value.fieldOf_setField]
  by_cases hk : k = key
  · rw [if_pos hk, if_pos hk]
    rfl
  · rw [if_neg hk, if_neg hk]

/-- An insertion whose way is not blocked by a leaf replaces the leaves under its path. -/
theorem leafAt_insertAtPath {segments : List String} (hsegments : segments ≠ [])
    {target : List (String × Value)} (value : Value)
    (hopen : ∀ above rest, segments = above ++ rest → rest ≠ [] →
      (Value.object target).leafAt above = none) (path : List String) :
    (Value.object (insertAtPath target segments value)).leafAt path =
      if segments <+: path then value.leafAt (path.drop segments.length)
      else (Value.object target).leafAt path := by
  induction segments generalizing target path with
  | nil => exact absurd rfl hsegments
  | cons first segments ih =>
      cases path with
      | nil =>
          rw [if_neg (by simp)]
          rfl
      | cons k path =>
          cases segments with
          | nil =>
              unfold insertAtPath
              rw [leafAt_setField]
              by_cases hk : k = first
              · simp [hk]
              · have : ¬ first = k := fun e => hk e.symm
                simp [hk, this]
          | cons second rest =>
              obtain ⟨inner, hinner, hbelow⟩ :=
                inner_of_open (hopen [first] (second :: rest) rfl (List.cons_ne_nil _ _))
              unfold insertAtPath
              rw [hinner]
              show (Value.object (Value.setField first
                (.object (insertAtPath inner (second :: rest) value)) target)).leafAt _ = _
              rw [leafAt_setField]
              by_cases hk : k = first
              · have hopen' : ∀ above tail, second :: rest = above ++ tail → tail ≠ [] →
                    (Value.object inner).leafAt above = none := by
                  intro above tail hsplit htail
                  rw [← hbelow]
                  exact hopen (first :: above) tail (by rw [hsplit]; rfl) htail
                rw [if_pos hk, ih (List.cons_ne_nil _ _) hopen', hk, hbelow]
                simp [List.cons_prefix_cons]
              · have : ¬ first = k := fun e => hk e.symm
                rw [if_neg hk, if_neg (by simp [this])]

/-- A leaf path lies under an allowed path. -/
def Under (allowedPaths : List String) (leaf : List String) : Prop :=
  ∃ path ∈ allowedPaths, pathSegments path <+: leaf

instance (allowedPaths : List String) (leaf : List String) : Decidable (Under allowedPaths leaf) := by
  unfold Under
  infer_instance

theorem pathSegments_ne_nil (path : String) : pathSegments path ≠ [] := by
  unfold pathSegments
  intro h
  exact List.splitOn_ne_nil _ _ (List.map_eq_nil_iff.mp h)

/-- The walk over the allowed paths, as far as it has come: the object has the leaves of
the source under the paths passed. -/
theorem leafAt_foldl (source : Value) (allowedPaths : List String) (leaf : List String) :
    (Value.object (allowedPaths.foldl (projectPath source) ([], 0)).1).leafAt leaf =
      if Under allowedPaths leaf then source.leafAt leaf else none := by
  induction allowedPaths using List.reverseRecOn generalizing leaf with
  | nil =>
      rw [if_neg (by simp [Under])]
      cases leaf with
      | nil => rfl
      | cons k leaf => rfl
  | append_singleton paths path ih =>
      rw [List.foldl_append, List.foldl_cons, List.foldl_nil]
      have hunder : Under (paths ++ [path]) leaf ↔
          Under paths leaf ∨ pathSegments path <+: leaf := by
        simp [Under, or_and_right, exists_or]
      cases hvalue : valueAtPath source (pathSegments path) with
      | none =>
          have hstep : projectPath source (paths.foldl (projectPath source) ([], 0)) path =
              paths.foldl (projectPath source) ([], 0) := by
            unfold projectPath
            rw [hvalue]
          rw [hstep, ih]
          by_cases hbefore : Under paths leaf
          · rw [if_pos hbefore, if_pos (hunder.mpr (Or.inl hbefore))]
          · rw [if_neg hbefore]
            split
            · rename_i hnow
              obtain ⟨rest, rfl⟩ := (hunder.mp hnow).resolve_left hbefore
              unfold Value.leafAt
              rw [Value.valueAtPath_append, hvalue]
              rfl
            · rfl
      | some value =>
          have hstep : (projectPath source (paths.foldl (projectPath source) ([], 0)) path).1 =
              insertAtPath (paths.foldl (projectPath source) ([], 0)).1 (pathSegments path)
                value := by
            unfold projectPath
            rw [hvalue]
          -- a leaf of the object is one of the source, where the path goes through objects
          have hopen : ∀ above rest, pathSegments path = above ++ rest → rest ≠ [] →
              (Value.object (paths.foldl (projectPath source) ([], 0)).1).leafAt above = none := by
            intro above rest hsplit hrest
            rw [hsplit] at hvalue
            rw [ih, leafAt_above hvalue hrest]
            split <;> rfl
          rw [hstep, leafAt_insertAtPath (pathSegments_ne_nil path) value hopen, ih]
          by_cases hnow : pathSegments path <+: leaf
          · rw [if_pos hnow, if_pos (hunder.mpr (Or.inr hnow))]
            obtain ⟨rest, rfl⟩ := hnow
            rw [List.drop_left, leafAt_append hvalue]
          · rw [if_neg hnow]
            by_cases hbefore : Under paths leaf
            · rw [if_pos hbefore, if_pos (hunder.mpr (Or.inl hbefore))]
            · rw [if_neg hbefore, if_neg fun h => (hunder.mp h).elim hbefore hnow]

/-- The projected object has the leaves of the source under an allowed path. -/
theorem leafAt_projected (source : List (String × Value)) (allowedPaths : List String)
    (leaf : List String) :
    (projectAttributes source allowedPaths).1.leafAt leaf =
      if Under allowedPaths leaf then (Value.object source).leafAt leaf else none :=
  leafAt_foldl (.object source) allowedPaths leaf

/-! ## §3  The count of what is dropped -/

/-- How many of the allowed paths a leaf lies under. -/
def hits (allowedPaths : List String) (leaf : List String) : Nat :=
  allowedPaths.countP fun path => (pathSegments path).isPrefixOf leaf

theorem hits_pos_iff {allowedPaths : List String} {leaf : List String} :
    0 < hits allowedPaths leaf ↔ Under allowedPaths leaf := by
  unfold hits Under
  rw [List.countP_pos_iff]
  simp only [List.isPrefixOf_iff_prefix]

/-- The count of selected leaves adds each leaf once for each path it lies under. -/
theorem selected_foldl {source : Value} (hkeys : source.DistinctKeys) (allowedPaths : List String) :
    (allowedPaths.foldl (projectPath source) ([], 0)).2 =
      (source.leafPaths.map (hits allowedPaths)).sum := by
  induction allowedPaths using List.reverseRecOn with
  | nil =>
      have hnone : hits [] = fun _ => 0 := rfl
      rw [hnone]
      simp
  | append_singleton paths path ih =>
      have hhits : hits (paths ++ [path]) = fun leaf =>
          hits paths leaf + if (pathSegments path).isPrefixOf leaf then 1 else 0 := by
        funext leaf
        simp [hits, List.countP_append, List.countP_cons]
      have hcount : (source.leafPaths.map fun leaf =>
          if (pathSegments path).isPrefixOf leaf then 1 else 0).sum =
            source.leafPaths.countP fun leaf => (pathSegments path).isPrefixOf leaf := by
        induction source.leafPaths with
        | nil => rfl
        | cons leaf leaves ih =>
            rw [List.map_cons, List.sum_cons, List.countP_cons, ih, Nat.add_comm]
      rw [hhits, List.foldl_append, List.foldl_cons, List.foldl_nil, List.sum_map_add, hcount,
        Value.countP_leafPaths hkeys, ← ih]
      unfold projectPath
      cases valueAtPath source (pathSegments path) with
      | none => rfl
      | some value => rfl

/-- A sum of counts is the number of positive ones and what exceeds one in each. -/
theorem sum_eq_positive_add_excess {α : Type} (f : α → Nat) (as : List α) :
    (as.map f).sum = as.countP (fun a => decide (0 < f a)) + (as.map fun a => f a - 1).sum := by
  induction as with
  | nil => rfl
  | cons a as ih =>
      rw [List.map_cons, List.sum_cons, List.countP_cons, List.map_cons, List.sum_cons, ih]
      by_cases ha : 0 < f a
      · simp only [ha, decide_true, if_true]
        omega
      · simp only [ha, decide_false]
        simp
        omega

/-- What the projection promises: the leaves of the source under an allowed path, and the
number of the others. -/
structure ProjectionExact (source : List (String × Value)) (allowedPaths : List String) : Prop where
  values : ∀ leaf value, (projectAttributes source allowedPaths).1.leafAt leaf = some value ↔
    (Value.object source).leafAt leaf = some value ∧ Under allowedPaths leaf
  dropped : (projectAttributes source allowedPaths).2 =
    (Value.object source).leafPaths.countP fun leaf => decide (¬ Under allowedPaths leaf)

/-- No leaf of the source lies under two allowed paths. -/
def NoLeafTwice (source : List (String × Value)) (allowedPaths : List String) : Prop :=
  ∀ leaf ∈ (Value.object source).leafPaths, ∀ path ∈ allowedPaths, ∀ path' ∈ allowedPaths,
    pathSegments path <+: leaf → pathSegments path' <+: leaf → path = path'

/-- Every leaf of the source lies under an allowed path. -/
def AllAllowed (source : List (String × Value)) (allowedPaths : List String) : Prop :=
  ∀ leaf ∈ (Value.object source).leafPaths, Under allowedPaths leaf

/-- Under distinct paths, at most one hit is no two. -/
theorem hits_le_one_iff {allowedPaths : List String} (hset : allowedPaths.Nodup)
    {leaf : List String} :
    hits allowedPaths leaf ≤ 1 ↔ ∀ path ∈ allowedPaths, ∀ path' ∈ allowedPaths,
      pathSegments path <+: leaf → pathSegments path' <+: leaf → path = path' := by
  have hmem : ∀ path, path ∈ allowedPaths.filter (fun path => (pathSegments path).isPrefixOf leaf) ↔
      path ∈ allowedPaths ∧ pathSegments path <+: leaf := by
    intro path
    rw [List.mem_filter, List.isPrefixOf_iff_prefix]
  have hnodup : (allowedPaths.filter fun path => (pathSegments path).isPrefixOf leaf).Nodup :=
    hset.filter _
  unfold hits
  rw [List.countP_eq_length_filter]
  constructor
  · intro hle path hp path' hp' hpath hpath'
    have h := (hmem path).mpr ⟨hp, hpath⟩
    have h' := (hmem path').mpr ⟨hp', hpath'⟩
    rcases hfound : allowedPaths.filter (fun path => (pathSegments path).isPrefixOf leaf) with
      _ | ⟨only, _ | ⟨other, rest⟩⟩
    · rw [hfound] at h
      cases h
    · rw [hfound, List.mem_singleton] at h h'
      rw [h, h']
    · rw [hfound, List.length_cons, List.length_cons] at hle
      omega
  · intro hone
    rcases hfound : allowedPaths.filter (fun path => (pathSegments path).isPrefixOf leaf) with
      _ | ⟨only, _ | ⟨other, rest⟩⟩
    · simp
    · simp
    · rw [hfound] at hnodup
      obtain ⟨hp, hpath⟩ := (hmem only).mp (by rw [hfound]; simp)
      obtain ⟨hp', hpath'⟩ := (hmem other).mp (by rw [hfound]; simp)
      have hsame := hone only hp other hp' hpath hpath'
      rw [hsame] at hnodup
      exact absurd hnodup (by simp)

/-- For every schema and every object: the projection is exact iff no leaf of the object
lies under two allowed paths, or every leaf under one. -/
theorem projection_exact_iff (schema : AttributeSchema) (hset : schema.allowedAttributes.Nodup)
    (source : List (String × Value)) (hkeys : (Value.object source).DistinctKeys) :
    ProjectionExact source schema.allowedAttributes ↔
      NoLeafTwice source schema.allowedAttributes ∨
        AllAllowed source schema.allowedAttributes := by
  generalize schema.allowedAttributes = allowedPaths at hset ⊢
  have hvalues : ∀ leaf value, (projectAttributes source allowedPaths).1.leafAt leaf = some value ↔
      (Value.object source).leafAt leaf = some value ∧ Under allowedPaths leaf := by
    intro leaf value
    rw [leafAt_projected]
    by_cases hunder : Under allowedPaths leaf
    · simp [hunder]
    · simp [hunder]
  have hdropped : (projectAttributes source allowedPaths).2 =
      (Value.object source).leafPaths.length -
        ((Value.object source).leafPaths.map (hits allowedPaths)).sum := by
    rw [← selected_foldl hkeys, ← Value.countLeafFields_eq]
    rfl
  have hsum := sum_eq_positive_add_excess (hits allowedPaths) (Value.object source).leafPaths
  simp only [hits_pos_iff] at hsum
  have hlength := List.length_eq_countP_add_countP (fun leaf => decide (Under allowedPaths leaf))
    (l := (Value.object source).leafPaths)
  simp only [decide_eq_true_eq] at hlength
  have htwice : NoLeafTwice source allowedPaths ↔
      ((Value.object source).leafPaths.map fun leaf => hits allowedPaths leaf - 1).sum = 0 := by
    rw [List.sum_eq_zero_iff_forall_eq_nat, List.forall_mem_map]
    refine forall₂_congr fun leaf _ => ?_
    rw [← hits_le_one_iff hset]
    omega
  have hall : AllAllowed source allowedPaths ↔ (Value.object source).leafPaths.countP
      (fun leaf => decide (Under allowedPaths leaf)) = (Value.object source).leafPaths.length := by
    rw [List.countP_eq_length]
    simp only [decide_eq_true_eq]
    rfl
  constructor
  · rintro ⟨_, hexact⟩
    rw [htwice, hall]
    omega
  · intro h
    refine ⟨hvalues, ?_⟩
    rw [htwice, hall] at h
    omega

/-- `{"a": {"b": 1}, "c": 2}`. -/
def nested : List (String × Value) := [("a", .object [("b", .ofNat 1)]), ("c", .ofNat 2)]

theorem nested_distinct : (Value.object nested).DistinctKeys := by
  simp [Value.DistinctKeys, Value.DistinctKeysOf, nested, Value.ofNat]

theorem hostVm_named : IsNamespaced "host.vm".toList := by decide

def schemaOf (allowedAttributes : List String) : AttributeSchema where
  kind := ⟨"host.vm", hostVm_named⟩
  schemaVersion := .one
  allowedAttributes := allowedAttributes

theorem projection_exact_apart : ProjectionExact nested (schemaOf ["a.b"]).allowedAttributes := by
  refine (projection_exact_iff (schemaOf ["a.b"]) (by decide) nested nested_distinct).mpr (Or.inl ?_)
  unfold NoLeafTwice
  decide +kernel

/-- A normalizer whose only schema allows a path and a longer one. -/
def overlappingNormalizer : Normalizer where
  attributeSchemas := KeyedTable.empty.put (schemaOf ["a", "a.b"])
  relationSchemas := []
  pathsAllowed := by decide +kernel
  relationsDistinct := List.nodup_nil

/-- The leaf `a.b` is counted under `a` and under `a.b`, and `c` is dropped unseen. -/
theorem overlap_hides_dropped :
    schemaOf ["a", "a.b"] ∈ overlappingNormalizer.attributeSchemas.rows ∧
      (Value.object nested).DistinctKeys ∧
      (projectAttributes nested (schemaOf ["a", "a.b"]).allowedAttributes).2 = 0 ∧
      ¬ ProjectionExact nested (schemaOf ["a", "a.b"]).allowedAttributes := by
  refine ⟨?_, nested_distinct, ?_, ?_⟩
  · exact List.mem_singleton.mpr rfl
  · decide +kernel
  · rintro ⟨_, hexact⟩
    revert hexact
    decide +kernel

end NextInfra
