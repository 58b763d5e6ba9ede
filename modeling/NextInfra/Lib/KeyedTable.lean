import Mathlib.Order.Basic
import Mathlib.Data.List.Sort
import Mathlib.Data.List.Pairwise

/-!
# Keyed tables

A table whose rows stand strictly ascending by a key drawn from a linear order.
One structure serves a database table with a primary key (rows carry their key)
and an ordered map (rows are pairs, the key is the first component): iterating
the rows is `ORDER BY` the primary key in the first reading and the iteration
order of the map in the second.

The order is a field, so no operation can produce a duplicated key and two
tables with the same lookups are equal (`ext_get`).
-/

namespace KeyedTable

variable {κ ρ : Type} [LinearOrder κ]

/-! ## Insertion into an ascending list -/

/-- Place `r` at its sorted position, replacing the row that holds its key. -/
def putRow (key : ρ → κ) (r : ρ) : List ρ → List ρ
  | [] => [r]
  | x :: xs =>
      if key r < key x then r :: x :: xs
      else if key r = key x then r :: xs
      else x :: putRow key r xs

/-- Strictly ascending by key. -/
def Ascending (key : ρ → κ) (rows : List ρ) : Prop :=
  rows.Pairwise (fun a b => key a < key b)

theorem mem_putRow {key : ρ → κ} {r y : ρ} : ∀ {rows : List ρ},
    Ascending key rows →
      (y ∈ putRow key r rows ↔ y = r ∨ (y ∈ rows ∧ key y ≠ key r))
  | [], _ => by simp [putRow]
  | x :: xs, hs => by
      rcases List.pairwise_cons.mp hs with ⟨hx, hxs⟩
      unfold putRow
      by_cases hlt : key r < key x
      · rw [if_pos hlt]
        have habove : ∀ z ∈ x :: xs, key z ≠ key r := by
          intro z hz
          rcases List.mem_cons.mp hz with rfl | hz'
          · exact ne_of_gt hlt
          · exact ne_of_gt (lt_trans hlt (hx z hz'))
        rw [List.mem_cons]
        constructor
        · rintro (h | h)
          · exact Or.inl h
          · exact Or.inr ⟨h, habove y h⟩
        · rintro (h | ⟨h, _⟩)
          · exact Or.inl h
          · exact Or.inr h
      · rw [if_neg hlt]
        by_cases heq : key r = key x
        · rw [if_pos heq, List.mem_cons, List.mem_cons]
          constructor
          · rintro (h | h)
            · exact Or.inl h
            · exact Or.inr ⟨Or.inr h, by rw [heq]; exact ne_of_gt (hx y h)⟩
          · rintro (h | ⟨rfl | h, hne⟩)
            · exact Or.inl h
            · exact absurd heq.symm hne
            · exact Or.inr h
        · rw [if_neg heq, List.mem_cons, mem_putRow hxs, List.mem_cons]
          constructor
          · rintro (rfl | h | ⟨h, hne⟩)
            · exact Or.inr ⟨Or.inl rfl, fun e => heq e.symm⟩
            · exact Or.inl h
            · exact Or.inr ⟨Or.inr h, hne⟩
          · rintro (h | ⟨rfl | h, hne⟩)
            · exact Or.inr (Or.inl h)
            · exact Or.inl rfl
            · exact Or.inr (Or.inr ⟨h, hne⟩)

theorem putRow_ascending {key : ρ → κ} {r : ρ} : ∀ {rows : List ρ},
    Ascending key rows → Ascending key (putRow key r rows)
  | [], _ => List.pairwise_singleton _ _
  | x :: xs, hs => by
      rcases List.pairwise_cons.mp hs with ⟨hx, hxs⟩
      unfold putRow
      by_cases hlt : key r < key x
      · rw [if_pos hlt]
        refine List.pairwise_cons.mpr ⟨?_, hs⟩
        intro z hz
        rcases List.mem_cons.mp hz with rfl | hz'
        · exact hlt
        · exact lt_trans hlt (hx z hz')
      · rw [if_neg hlt]
        by_cases heq : key r = key x
        · rw [if_pos heq]
          refine List.pairwise_cons.mpr ⟨?_, hxs⟩
          intro z hz
          rw [heq]
          exact hx z hz
        · rw [if_neg heq]
          refine List.pairwise_cons.mpr ⟨?_, putRow_ascending hxs⟩
          intro z hz
          rcases (mem_putRow hxs).mp hz with rfl | ⟨hz', _⟩
          · exact lt_of_le_of_ne (not_lt.mp hlt) (fun e => heq e.symm)
          · exact hx z hz'

theorem length_putRow_le {key : ρ → κ} {r : ρ} : ∀ rows : List ρ,
    (putRow key r rows).length ≤ rows.length + 1
  | [] => Nat.le_refl _
  | x :: xs => by
      have ih := @length_putRow_le key r xs
      unfold putRow
      split
      · exact Nat.le_refl _
      split
      · exact Nat.le_succ _
      · exact Nat.succ_le_succ ih

end KeyedTable

/-! ## The table -/

/-- Rows strictly ascending by `key`: the primary key is unique by
construction. -/
structure KeyedTable {κ ρ : Type} [LinearOrder κ] (key : ρ → κ) where
  rows : List ρ
  ascending : KeyedTable.Ascending key rows

namespace KeyedTable

variable {κ ρ : Type} [LinearOrder κ] {key : ρ → κ}

@[ext] theorem ext_rows {t u : KeyedTable key} (h : t.rows = u.rows) : t = u := by
  cases t; cases u; cases h; rfl

instance [DecidableEq ρ] : DecidableEq (KeyedTable key) := fun t u =>
  decidable_of_iff (t.rows = u.rows) ⟨ext_rows, fun h => h ▸ rfl⟩

def empty : KeyedTable key := ⟨[], List.Pairwise.nil⟩

instance : Inhabited (KeyedTable key) := ⟨empty⟩

/-- The row stored under `k`. -/
def get (t : KeyedTable key) (k : κ) : Option ρ := t.rows.find? (fun r => decide (key r = k))

/-- Insert or replace. -/
def put (t : KeyedTable key) (r : ρ) : KeyedTable key :=
  ⟨putRow key r t.rows, putRow_ascending t.ascending⟩

/-- Keep the rows that satisfy `p`. -/
def keep (t : KeyedTable key) (p : ρ → Bool) : KeyedTable key :=
  ⟨t.rows.filter p, t.ascending.sublist List.filter_sublist⟩

/-- Remove the row stored under `k`, if any. -/
def erase (t : KeyedTable key) (k : κ) : KeyedTable key := t.keep (fun r => decide (key r ≠ k))

/-- Rewrite every row without touching its key. -/
def update (t : KeyedTable key) (f : ρ → ρ) (hf : ∀ r, key (f r) = key r) : KeyedTable key :=
  ⟨t.rows.map f, by
    refine List.pairwise_map.mpr (t.ascending.imp ?_)
    intro a b hab
    rw [hf a, hf b]
    exact hab⟩

/-! ## Lookup -/

theorem keys_nodup (t : KeyedTable key) : (t.rows.map key).Nodup :=
  List.pairwise_map.mpr (t.ascending.imp ne_of_lt)

theorem row_unique (t : KeyedTable key) {r s : ρ} (hr : r ∈ t.rows) (hs : s ∈ t.rows)
    (h : key r = key s) : r = s :=
  List.inj_on_of_nodup_map t.keys_nodup hr hs h

theorem get_eq_some_iff {t : KeyedTable key} {k : κ} {r : ρ} :
    t.get k = some r ↔ r ∈ t.rows ∧ key r = k := by
  constructor
  · intro h
    exact ⟨List.mem_of_find?_eq_some h, by simpa using List.find?_some h⟩
  · rintro ⟨hr, hk⟩
    cases hf : t.get k with
    | none =>
        have hnone := List.find?_eq_none.mp hf r hr
        simp [hk] at hnone
    | some s =>
        have hs := List.mem_of_find?_eq_some hf
        have hsk : key s = k := by simpa using List.find?_some hf
        rw [t.row_unique hs hr (hsk.trans hk.symm)]

theorem get_eq_none_iff {t : KeyedTable key} {k : κ} :
    t.get k = none ↔ ∀ r ∈ t.rows, key r ≠ k := by
  simp [get, List.find?_eq_none]

theorem key_of_get {t : KeyedTable key} {k : κ} {r : ρ} (h : t.get k = some r) : key r = k :=
  (get_eq_some_iff.mp h).2

theorem mem_of_get {t : KeyedTable key} {k : κ} {r : ρ} (h : t.get k = some r) : r ∈ t.rows :=
  (get_eq_some_iff.mp h).1

theorem get_of_mem {t : KeyedTable key} {r : ρ} (h : r ∈ t.rows) : t.get (key r) = some r :=
  get_eq_some_iff.mpr ⟨h, rfl⟩

@[simp] theorem get_empty (k : κ) : (empty : KeyedTable key).get k = none := rfl

@[simp] theorem rows_empty : (empty : KeyedTable key).rows = [] := rfl

theorem mem_put {t : KeyedTable key} {r y : ρ} :
    y ∈ (t.put r).rows ↔ y = r ∨ (y ∈ t.rows ∧ key y ≠ key r) :=
  mem_putRow t.ascending

theorem length_put_le (t : KeyedTable key) (r : ρ) :
    (t.put r).rows.length ≤ t.rows.length + 1 :=
  length_putRow_le t.rows

theorem get_put (t : KeyedTable key) (r : ρ) (k : κ) :
    (t.put r).get k = if k = key r then some r else t.get k := by
  by_cases hk : k = key r
  · rw [if_pos hk]
    exact get_eq_some_iff.mpr ⟨mem_put.mpr (Or.inl rfl), hk.symm⟩
  · rw [if_neg hk]
    cases hg : t.get k with
    | none =>
        refine get_eq_none_iff.mpr ?_
        intro y hy
        rcases mem_put.mp hy with rfl | ⟨hy', _⟩
        · exact fun e => hk e.symm
        · exact get_eq_none_iff.mp hg y hy'
    | some s =>
        obtain ⟨hs, hsk⟩ := get_eq_some_iff.mp hg
        refine get_eq_some_iff.mpr ⟨mem_put.mpr (Or.inr ⟨hs, ?_⟩), hsk⟩
        rw [hsk]
        exact hk

@[simp] theorem get_put_self (t : KeyedTable key) (r : ρ) : (t.put r).get (key r) = some r := by
  rw [get_put, if_pos rfl]

theorem get_put_ne {t : KeyedTable key} {r : ρ} {k : κ} (h : k ≠ key r) :
    (t.put r).get k = t.get k := by
  rw [get_put, if_neg h]

theorem mem_keep {t : KeyedTable key} {p : ρ → Bool} {r : ρ} :
    r ∈ (t.keep p).rows ↔ r ∈ t.rows ∧ p r = true := by
  simp [keep, List.mem_filter]

theorem get_keep (t : KeyedTable key) (p : ρ → Bool) (k : κ) :
    (t.keep p).get k = (t.get k).filter p := by
  apply Option.ext
  intro r
  rw [get_eq_some_iff, mem_keep, Option.filter_eq_some_iff, get_eq_some_iff]
  tauto

theorem get_erase (t : KeyedTable key) (j k : κ) :
    (t.erase j).get k = if k = j then none else t.get k := by
  unfold erase
  rw [get_keep]
  cases hg : t.get k with
  | none => simp
  | some r =>
      have hr := key_of_get hg
      by_cases hk : k = j
      · simp [Option.filter, hr, hk]
      · simp [Option.filter, hr, hk]

theorem get_update (t : KeyedTable key) (f : ρ → ρ) (hf : ∀ r, key (f r) = key r) (k : κ) :
    (t.update f hf).get k = (t.get k).map f := by
  apply Option.ext
  intro r
  rw [get_eq_some_iff, Option.map_eq_some_iff]
  constructor
  · rintro ⟨hr, hk⟩
    obtain ⟨s, hs, rfl⟩ := List.mem_map.mp hr
    exact ⟨s, get_eq_some_iff.mpr ⟨hs, (hf s).symm.trans hk⟩, rfl⟩
  · rintro ⟨s, hs, rfl⟩
    obtain ⟨hs', hsk⟩ := get_eq_some_iff.mp hs
    exact ⟨List.mem_map.mpr ⟨s, hs', rfl⟩, (hf s).trans hsk⟩

/-! ## Tables are their lookups -/

theorem mem_iff_get {t : KeyedTable key} {r : ρ} : r ∈ t.rows ↔ t.get (key r) = some r := by
  rw [get_eq_some_iff]
  simp

theorem rows_nodup (t : KeyedTable key) : t.rows.Nodup :=
  t.ascending.imp (fun hab e => absurd (e ▸ hab) (lt_irrefl _))

/-- Two tables with the same lookups are the same table. -/
theorem ext_get {t u : KeyedTable key} (h : ∀ k, t.get k = u.get k) : t = u := by
  have hmem : ∀ r, r ∈ t.rows ↔ r ∈ u.rows := by
    intro r
    rw [mem_iff_get, mem_iff_get, h]
  have hperm : t.rows.Perm u.rows :=
    (List.perm_ext_iff_of_nodup t.rows_nodup u.rows_nodup).mpr hmem
  refine ext_rows (hperm.eq_of_pairwise ?_ t.ascending u.ascending)
  intro a b _ _ hab hba
  exact absurd hab (lt_asymm hba)

/-- Two tables with the same rows, order aside, are the same table. -/
theorem ext_mem {t u : KeyedTable key} (h : ∀ r, r ∈ t.rows ↔ r ∈ u.rows) : t = u := by
  apply ext_get
  intro k
  apply Option.ext
  intro r
  rw [get_eq_some_iff, get_eq_some_iff, h]

/-- Putting back the row a table already holds changes nothing. -/
theorem put_of_get {t : KeyedTable key} {r : ρ} (h : t.get (key r) = some r) : t.put r = t := by
  apply ext_get
  intro k
  rw [get_put]
  by_cases hk : k = key r
  · rw [if_pos hk, hk, h]
  · rw [if_neg hk]

/-! ## Collecting rows -/

/-- Put the rows one by one. -/
def putAll (t : KeyedTable key) (rows : List ρ) : KeyedTable key := rows.foldl put t

@[simp] theorem putAll_nil (t : KeyedTable key) : t.putAll [] = t := rfl

@[simp] theorem putAll_cons (t : KeyedTable key) (r : ρ) (rows : List ρ) :
    t.putAll (r :: rows) = (t.put r).putAll rows := rfl

/-- Rows that meet at a key, in the table or among those put, are the same row:
nothing is replaced, so every row is found afterwards. -/
theorem mem_putAll : ∀ {rows : List ρ} {t : KeyedTable key} {x : ρ},
    (∀ a ∈ rows, ∀ b, b ∈ t.rows ∨ b ∈ rows → key b = key a → b = a) →
      (x ∈ (t.putAll rows).rows ↔ x ∈ t.rows ∨ x ∈ rows)
  | [], _, _, _ => by simp
  | r :: rows, t, x, hsame => by
      have hr : ∀ b, b ∈ t.rows ∨ b ∈ r :: rows → key b = key r → b = r :=
        hsame r List.mem_cons_self
      have hput : ∀ b, b ∈ (t.put r).rows ↔ b = r ∨ b ∈ t.rows := by
        intro b
        rw [mem_put]
        constructor
        · rintro (rfl | ⟨hb, _⟩)
          · exact Or.inl rfl
          · exact Or.inr hb
        · rintro (rfl | hb)
          · exact Or.inl rfl
          · by_cases hk : key b = key r
            · exact Or.inl (hr b (Or.inl hb) hk)
            · exact Or.inr ⟨hb, hk⟩
      rw [putAll_cons, mem_putAll, hput, List.mem_cons]
      · tauto
      · intro a ha b hb hk
        apply hsame a (List.mem_cons_of_mem _ ha) b _ hk
        rw [hput] at hb
        rw [List.mem_cons]
        tauto

/-- Collecting the rows of a table gives the table. -/
theorem putAll_rows (t : KeyedTable key) : (empty : KeyedTable key).putAll t.rows = t := by
  apply ext_mem
  intro x
  rw [mem_putAll]
  · simp
  · intro a ha b hb hk
    rcases hb with hb | hb
    · cases hb
    · exact t.row_unique hb ha hk

end KeyedTable

/-! ## Ordered sets -/

/-- An ordered set: a keyed table whose rows are the keys. -/
abbrev OrderedSet (κ : Type) [LinearOrder κ] := KeyedTable (id : κ → κ)

namespace OrderedSet

variable {κ : Type} [LinearOrder κ]

/-- The elements of a list, ascending and once each. -/
def sorted (ks : List κ) : List κ := ((KeyedTable.empty : OrderedSet κ).putAll ks).rows

theorem mem_putAll {s : OrderedSet κ} {ks : List κ} {k : κ} :
    k ∈ (s.putAll ks).rows ↔ k ∈ s.rows ∨ k ∈ ks :=
  KeyedTable.mem_putAll fun _ _ _ _ hk => hk

theorem mem_sorted {ks : List κ} {k : κ} : k ∈ sorted ks ↔ k ∈ ks := by
  unfold sorted
  rw [mem_putAll]
  simp

/-- Lists with the same elements sort to the same list. -/
theorem sorted_congr {ks js : List κ} (h : ∀ k, k ∈ ks ↔ k ∈ js) : sorted ks = sorted js := by
  unfold sorted
  refine congrArg KeyedTable.rows (KeyedTable.ext_mem ?_)
  intro k
  rw [mem_putAll, mem_putAll, h]

end OrderedSet

/-! ## Ordered maps -/

/-- An ordered map: a keyed table of pairs. -/
abbrev OrderedMap (κ α : Type) [LinearOrder κ] := KeyedTable (Prod.fst : κ × α → κ)

namespace OrderedMap

variable {κ α : Type} [LinearOrder κ]

def lookup (m : OrderedMap κ α) (k : κ) : Option α := (m.get k).map Prod.snd

def insert (m : OrderedMap κ α) (k : κ) (a : α) : OrderedMap κ α := m.put (k, a)

def remove (m : OrderedMap κ α) (k : κ) : OrderedMap κ α := m.erase k

def values (m : OrderedMap κ α) : List α := m.rows.map Prod.snd

theorem lookup_eq_some_iff {m : OrderedMap κ α} {k : κ} {a : α} :
    lookup m k = some a ↔ (k, a) ∈ m.rows := by
  unfold lookup
  rw [Option.map_eq_some_iff]
  constructor
  · rintro ⟨⟨k', a'⟩, h, rfl⟩
    obtain ⟨hm, hk⟩ := KeyedTable.get_eq_some_iff.mp h
    cases hk
    exact hm
  · intro h
    exact ⟨(k, a), KeyedTable.get_of_mem h, rfl⟩

@[simp] theorem lookup_empty (k : κ) : lookup (KeyedTable.empty : OrderedMap κ α) k = none := rfl

theorem lookup_insert (m : OrderedMap κ α) (j : κ) (a : α) (k : κ) :
    lookup (insert m j a) k = if k = j then some a else lookup m k := by
  unfold lookup insert
  rw [KeyedTable.get_put]
  by_cases hk : k = j
  · simp [hk]
  · simp [hk]

theorem lookup_remove (m : OrderedMap κ α) (j k : κ) :
    lookup (remove m j) k = if k = j then none else lookup m k := by
  unfold lookup remove
  rw [KeyedTable.get_erase]
  by_cases hk : k = j
  · simp [hk]
  · simp [hk]

theorem mem_values {m : OrderedMap κ α} {a : α} :
    a ∈ values m ↔ ∃ k, lookup m k = some a := by
  unfold values
  rw [List.mem_map]
  constructor
  · rintro ⟨⟨k, a'⟩, h, rfl⟩
    exact ⟨k, lookup_eq_some_iff.mpr h⟩
  · rintro ⟨k, h⟩
    exact ⟨(k, a), lookup_eq_some_iff.mp h, rfl⟩

/-- Two maps with the same lookups are the same map. -/
theorem ext_lookup {m n : OrderedMap κ α} (h : ∀ k, lookup m k = lookup n k) : m = n := by
  have hsub : ∀ {m n : OrderedMap κ α}, (∀ k, lookup m k = lookup n k) →
      ∀ p ∈ m.rows, p ∈ n.rows := by
    intro m n hmn p hp
    have hl : lookup m p.1 = some p.2 := lookup_eq_some_iff.mpr hp
    rw [hmn] at hl
    exact lookup_eq_some_iff.mp hl
  apply KeyedTable.ext_get
  intro k
  apply Option.ext
  intro p
  rw [KeyedTable.get_eq_some_iff, KeyedTable.get_eq_some_iff]
  constructor
  · rintro ⟨hp, hk⟩
    exact ⟨hsub h p hp, hk⟩
  · rintro ⟨hp, hk⟩
    exact ⟨hsub (fun k => (h k).symm) p hp, hk⟩

end OrderedMap
