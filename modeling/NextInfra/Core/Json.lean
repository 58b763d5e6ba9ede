import Mathlib.Algebra.Order.Ring.Int
import Mathlib.Data.String.Basic
import Mathlib.Order.Basic

/-!
# JSON values

`serde_json::Value` as the store and the normalizer use it. An object is kept
as its list of fields; `serde_json::Map` is an ordered map, so a well-formed
object lists its keys strictly ascending and `object!`-style literals go
through `mkObject`, which sorts.
-/

namespace NextInfra

/-- A `serde_json::Number`: an integer, or the bits of a finite double. -/
inductive JsonNumber
  | int (i : Int)
  | float (bits : UInt64)
deriving DecidableEq

inductive Value
  | null
  | bool (b : Bool)
  | number (n : JsonNumber)
  | string (s : String)
  | array (values : List Value)
  | object (fields : List (String × Value))

namespace Value

instance : Inhabited Value := ⟨.null⟩

/-! ## Equality -/

mutual
def same : Value → Value → Bool
  | .null, .null => true
  | .bool a, .bool b => decide (a = b)
  | .number a, .number b => decide (a = b)
  | .string a, .string b => decide (a = b)
  | .array a, .array b => sameValues a b
  | .object a, .object b => sameFields a b
  | _, _ => false
def sameValues : List Value → List Value → Bool
  | [], [] => true
  | a :: as, b :: bs => same a b && sameValues as bs
  | _, _ => false
def sameFields : List (String × Value) → List (String × Value) → Bool
  | [], [] => true
  | (k, a) :: as, (j, b) :: bs => decide (k = j) && same a b && sameFields as bs
  | _, _ => false
end

mutual
theorem same_iff : ∀ a b : Value, same a b = true ↔ a = b
  | .null, b => by cases b <;> simp [same]
  | .bool a, b => by cases b <;> simp [same]
  | .number a, b => by cases b <;> simp [same]
  | .string a, b => by cases b <;> simp [same]
  | .array as, b => by
      cases b with
      | array bs => simp [same, sameValues_iff as bs]
      | _ => simp [same]
  | .object as, b => by
      cases b with
      | object bs => simp [same, sameFields_iff as bs]
      | _ => simp [same]
theorem sameValues_iff : ∀ as bs : List Value, sameValues as bs = true ↔ as = bs
  | [], bs => by cases bs <;> simp [sameValues]
  | a :: as, bs => by
      cases bs with
      | nil => simp [sameValues]
      | cons b bs => simp [sameValues, same_iff a b, sameValues_iff as bs]
theorem sameFields_iff : ∀ as bs : List (String × Value), sameFields as bs = true ↔ as = bs
  | [], bs => by cases bs <;> simp [sameFields]
  | (k, a) :: as, bs => by
      cases bs with
      | nil => simp [sameFields]
      | cons p bs =>
          obtain ⟨j, b⟩ := p
          simp [sameFields, same_iff a b, sameFields_iff as bs]
end

instance : DecidableEq Value := fun a b => decidable_of_iff _ (same_iff a b)

/-! ## Objects -/

/-- `Map::insert`: replace the field, or place it at its sorted position. -/
def setField (key : String) (value : Value) : List (String × Value) → List (String × Value)
  | [] => [(key, value)]
  | (k, v) :: rest =>
      if key < k then (key, value) :: (k, v) :: rest
      else if key = k then (key, value) :: rest
      else (k, v) :: setField key value rest

def fieldOf (key : String) (fields : List (String × Value)) : Option Value :=
  (fields.find? (fun p => decide (p.1 = key))).map Prod.snd

theorem fieldOf_setField (key : String) (value : Value) (k : String) :
    ∀ fields : List (String × Value),
      fieldOf k (setField key value fields) = if k = key then some value else fieldOf k fields
  | [] => by
      by_cases h : k = key <;> simp [setField, fieldOf, h, eq_comm]
  | (j, v) :: rest => by
      have ih := fieldOf_setField key value k rest
      unfold fieldOf at ih ⊢
      unfold setField
      by_cases hlt : key < j
      · rw [if_pos hlt, List.find?_cons]
        by_cases h : k = key
        · simp [h]
        · have hkey : ¬ key = k := fun e => h e.symm
          simp [h, hkey]
      · rw [if_neg hlt]
        by_cases heq : key = j
        · rw [if_pos heq, List.find?_cons]
          by_cases h : k = key
          · simp [h]
          · have hj : ¬ j = k := fun e => h (e.symm.trans heq.symm)
            have hkey : ¬ key = k := fun e => h e.symm
            simp [h, hj, hkey]
        · rw [if_neg heq, List.find?_cons]
          by_cases hj : j = k
          · have h : ¬ k = key := fun e => heq (e.symm.trans hj.symm)
            simp [hj, h]
          · simpa [hj] using ih

theorem mem_setField {key : String} {value : Value} {fields : List (String × Value)} :
    (key, value) ∈ setField key value fields ∧
      ∀ p ∈ setField key value fields, p = (key, value) ∨ p ∈ fields := by
  induction fields with
  | nil => simp [setField]
  | cons field rest ih =>
      obtain ⟨k, v⟩ := field
      unfold setField
      split
      · exact ⟨List.mem_cons_self, fun p hp => List.mem_cons.mp hp⟩
      · split
        · refine ⟨List.mem_cons_self, fun p hp => ?_⟩
          rcases List.mem_cons.mp hp with rfl | hp
          · exact Or.inl rfl
          · exact Or.inr (List.mem_cons_of_mem _ hp)
        · refine ⟨List.mem_cons_of_mem _ ih.1, fun p hp => ?_⟩
          rcases List.mem_cons.mp hp with rfl | hp
          · exact Or.inr List.mem_cons_self
          · exact (ih.2 p hp).imp_right (List.mem_cons_of_mem _)

/-- `json!({ .. })`. -/
def mkObject (fields : List (String × Value)) : Value :=
  .object (fields.foldl (fun acc p => setField p.1 p.2 acc) [])

/-- `Value::get` with a string index. -/
def get (value : Value) (key : String) : Option Value :=
  match value with
  | .object fields => fieldOf key fields
  | _ => none

/-- The last field under a key is the one an object holds. -/
theorem get_mkObject (fields : List (String × Value)) (key : String) :
    (mkObject fields).get key = fieldOf key fields.reverse := by
  have hfold : ∀ acc, fieldOf key (fields.foldl (fun acc p => setField p.1 p.2 acc) acc) =
      (fieldOf key fields.reverse).or (fieldOf key acc) := by
    induction fields with
    | nil => exact fun acc => Option.none_or.symm
    | cons p rest ih =>
        intro acc
        rw [List.foldl_cons, ih, fieldOf_setField]
        unfold fieldOf
        rw [List.reverse_cons, List.find?_append]
        cases rest.reverse.find? fun q => decide (q.1 = key) with
        | some q => rfl
        | none =>
            by_cases hkey : key = p.1
            · simp [hkey]
            · simp [hkey, Ne.symm hkey]
  exact (hfold []).trans Option.or_none

def ofNat (n : Nat) : Value := .number (.int n)

/-! ## Views -/

def asStr : Value → Option String
  | .string s => some s
  | _ => none

def asU64 : Value → Option Nat
  | .number (.int i) => if 0 ≤ i ∧ i < 2 ^ 64 then some i.toNat else none
  | _ => none

def asArray : Value → Option (List Value)
  | .array values => some values
  | _ => none

def asObject : Value → Option (List (String × Value))
  | .object fields => some fields
  | _ => none

/-- The first array among the fields of an object. -/
def firstArray (fields : List (String × Value)) : Option (List Value) :=
  fields.findSome? fun p => p.2.asArray

/-- The first object among the fields of an object. -/
def firstObject (fields : List (String × Value)) : Option (List (String × Value)) :=
  fields.findSome? fun p => p.2.asObject

end Value

end NextInfra
