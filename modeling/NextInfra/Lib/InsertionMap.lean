import Mathlib.Data.List.Nodup
import Mathlib.Data.List.Pairwise

/-!
# Maps in insertion order

A map that is walked in the order its keys were first set. Setting a key that is there
leaves it in its place; a key that was deleted goes to the end when it is set again.
-/

structure InsertionMap (κ α : Type) where
  entries : List (κ × α)
  nodup : (entries.map Prod.fst).Nodup

namespace InsertionMap

variable {κ α : Type}

def empty : InsertionMap κ α := ⟨[], List.nodup_nil⟩

def keys (m : InsertionMap κ α) : List κ := m.entries.map Prod.fst

variable [DecidableEq κ]

def get (m : InsertionMap κ α) (k : κ) : Option α :=
  (m.entries.find? fun e => decide (e.1 = k)).map Prod.snd

def has (m : InsertionMap κ α) (k : κ) : Bool := (m.get k).isSome

theorem get_eq_some_iff {m : InsertionMap κ α} {k : κ} {a : α} :
    m.get k = some a ↔ (k, a) ∈ m.entries := by
  unfold get
  rw [Option.map_eq_some_iff]
  constructor
  · rintro ⟨⟨j, b⟩, hfind, rfl⟩
    have hkey : j = k := by simpa using List.find?_some hfind
    subst hkey
    exact List.mem_of_find?_eq_some hfind
  · intro hmem
    cases hfind : m.entries.find? fun e => decide (e.1 = k) with
    | none =>
        have hnot := List.find?_eq_none.mp hfind _ hmem
        simp at hnot
    | some e =>
        have hkey : e.1 = k := by simpa using List.find?_some hfind
        have heq : e = (k, a) :=
          List.inj_on_of_nodup_map m.nodup (List.mem_of_find?_eq_some hfind) hmem hkey
        exact ⟨e, rfl, by rw [heq]⟩

theorem mem_keys_iff {m : InsertionMap κ α} {k : κ} : k ∈ m.keys ↔ m.get k ≠ none := by
  unfold keys
  rw [Option.ne_none_iff_exists', List.mem_map]
  constructor
  · rintro ⟨⟨j, a⟩, hmem, rfl⟩
    exact ⟨a, get_eq_some_iff.mpr hmem⟩
  · rintro ⟨a, ha⟩
    exact ⟨(k, a), get_eq_some_iff.mp ha, rfl⟩

theorem has_eq_false_iff {m : InsertionMap κ α} {k : κ} : m.has k = false ↔ m.get k = none := by
  unfold has
  rw [Option.isSome_eq_false_iff, Option.isNone_iff_eq_none]

theorem has_iff_mem_keys {m : InsertionMap κ α} {k : κ} : m.has k = true ↔ k ∈ m.keys := by
  rw [mem_keys_iff, ← Bool.not_eq_false, ne_eq, ← has_eq_false_iff]

theorem replace_keys (k : κ) (a : α) (entries : List (κ × α)) :
    (entries.map fun e => if e.1 = k then (k, a) else e).map Prod.fst = entries.map Prod.fst := by
  rw [List.map_map]
  refine List.map_congr_left ?_
  intro e _
  show (if e.1 = k then (k, a) else e).1 = e.1
  split
  · rename_i hk
    exact hk.symm
  · rfl

theorem append_nodup {m : InsertionMap κ α} {k : κ} (h : m.has k ≠ true) (a : α) :
    ((m.entries ++ [(k, a)]).map Prod.fst).Nodup := by
  rw [List.map_append]
  refine List.nodup_append.mpr ⟨m.nodup, List.nodup_singleton _, ?_⟩
  rintro j hj _ hk rfl
  rw [List.mem_singleton.mp hk] at hj
  exact h (has_iff_mem_keys.mpr hj)

/-- `Map.set`. -/
def set (m : InsertionMap κ α) (k : κ) (a : α) : InsertionMap κ α :=
  if h : m.has k = true then
    ⟨m.entries.map fun e => if e.1 = k then (k, a) else e, (replace_keys k a _).symm ▸ m.nodup⟩
  else ⟨m.entries ++ [(k, a)], append_nodup h a⟩

/-- `Map.delete`. -/
def delete (m : InsertionMap κ α) (k : κ) : InsertionMap κ α :=
  ⟨m.entries.filter fun e => decide (e.1 ≠ k), m.nodup.sublist (List.filter_sublist.map _)⟩

@[simp] theorem get_empty (k : κ) : (empty : InsertionMap κ α).get k = none := rfl

theorem mem_set_entries {m : InsertionMap κ α} {k : κ} {a : α} {e : κ × α} :
    e ∈ (m.set k a).entries ↔ e = (k, a) ∨ (e ∈ m.entries ∧ e.1 ≠ k) := by
  unfold set
  split
  · rename_i hk
    show e ∈ m.entries.map _ ↔ _
    rw [List.mem_map]
    constructor
    · rintro ⟨d, hd, rfl⟩
      by_cases hdk : d.1 = k
      · rw [if_pos hdk]
        exact Or.inl rfl
      · rw [if_neg hdk]
        exact Or.inr ⟨hd, hdk⟩
    · rintro (rfl | ⟨he, hne⟩)
      · obtain ⟨d, hd, hdk⟩ := List.mem_map.mp (has_iff_mem_keys.mp hk)
        exact ⟨d, hd, if_pos hdk⟩
      · exact ⟨e, he, if_neg hne⟩
  · rename_i hk
    show e ∈ m.entries ++ _ ↔ _
    rw [List.mem_append, List.mem_singleton]
    constructor
    · rintro (he | rfl)
      · right
        refine ⟨he, ?_⟩
        intro hek
        exact hk (has_iff_mem_keys.mpr (hek ▸ List.mem_map_of_mem he))
      · exact Or.inl rfl
    · rintro (rfl | ⟨he, _⟩)
      · exact Or.inr rfl
      · exact Or.inl he

theorem get_set (m : InsertionMap κ α) (k : κ) (a : α) (j : κ) :
    (m.set k a).get j = if j = k then some a else m.get j := by
  apply Option.ext
  intro b
  rw [get_eq_some_iff, mem_set_entries]
  by_cases hj : j = k
  · rw [if_pos hj]
    simp [hj, eq_comm]
  · rw [if_neg hj, get_eq_some_iff]
    simp [hj]

theorem get_delete (m : InsertionMap κ α) (k j : κ) :
    (m.delete k).get j = if j = k then none else m.get j := by
  apply Option.ext
  intro b
  rw [get_eq_some_iff]
  unfold delete
  rw [List.mem_filter, decide_eq_true_iff]
  by_cases hj : j = k
  · rw [if_pos hj]
    simp [hj]
  · rw [if_neg hj, get_eq_some_iff]
    simp [hj]

/-- A map set from a list: what is left under a key is its last entry. -/
theorem get_foldl_set_of_nodup {entries : List (κ × α)} (h : (entries.map Prod.fst).Nodup)
    (m : InsertionMap κ α) {k : κ} :
    (entries.foldl (fun m e => m.set e.1 e.2) m).get k =
      ((entries.find? fun e => decide (e.1 = k)).map Prod.snd).or (m.get k) := by
  induction entries generalizing m with
  | nil => simp
  | cons e entries ih =>
      rw [List.map_cons, List.nodup_cons] at h
      rw [List.foldl_cons, ih h.2, get_set, List.find?_cons]
      by_cases hk : k = e.1
      · have hnone : entries.find? (fun e => decide (e.1 = k)) = none := by
          rw [List.find?_eq_none]
          intro d hd hdk
          exact h.1 (hk ▸ of_decide_eq_true hdk ▸ List.mem_map_of_mem hd)
        rw [hnone, if_pos hk]
        simp [hk]
      · have hne : decide (e.1 = k) = false := decide_eq_false (fun heq => hk heq.symm)
        rw [hne, if_neg hk]

end InsertionMap
