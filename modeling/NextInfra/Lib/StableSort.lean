import Mathlib.Data.List.Sort

/-!
# Sorting by a key

A stable sort leaves the elements of one key in the order they came in, so the sorted
list is known from what the list holds under each key (`insertionSort_eq_iff`). Blocks
laid end to end in any order make one list where any two of them commute
(`flatMap_eq_of_commute`).
-/

namespace StableSort

variable {α β κ : Type} [LinearOrder κ] {key : α → κ}

/-- What a list holds under a key, in order. -/
def under (key : α → κ) (k : κ) (l : List α) : List α := l.filter fun a => key a = k

theorem mem_under {k : κ} {l : List α} {a : α} : a ∈ under key k l ↔ a ∈ l ∧ key a = k := by
  unfold under
  rw [List.mem_filter, decide_eq_true_iff]

@[simp] theorem under_nil (k : κ) : under key k [] = [] := rfl

@[simp] theorem under_append (k : κ) (l l' : List α) :
    under key k (l ++ l') = under key k l ++ under key k l' :=
  List.filter_append l l'

theorem under_cons_self (a : α) (l : List α) :
    under key (key a) (a :: l) = a :: under key (key a) l :=
  List.filter_cons_of_pos (decide_eq_true rfl)

theorem under_cons_of_ne {a : α} {k : κ} (h : key a ≠ k) (l : List α) :
    under key k (a :: l) = under key k l :=
  List.filter_cons_of_neg (fun heq => h (of_decide_eq_true heq))

theorem under_flatMap (k : κ) (f : β → List α) (l : List β) :
    under key k (l.flatMap f) = l.flatMap fun b => under key k (f b) := by
  induction l with
  | nil => rfl
  | cons b l ih => rw [List.flatMap_cons, under_append, ih, List.flatMap_cons]

theorem under_eq_nil_iff {k : κ} {l : List α} : under key k l = [] ↔ k ∉ l.map key := by
  rw [List.eq_nil_iff_forall_not_mem]
  constructor
  · intro h hk
    obtain ⟨a, ha, hak⟩ := List.mem_map.mp hk
    exact h a (mem_under.mpr ⟨ha, hak⟩)
  · intro h a ha
    obtain ⟨ha, hak⟩ := mem_under.mp ha
    exact h (hak ▸ List.mem_map_of_mem ha)

/-- Where no key is there twice, an element stands alone under its own. -/
theorem under_of_nodup {l : List α} (hkeys : (l.map key).Nodup) {a : α} (ha : a ∈ l) :
    under key (key a) l = [a] := by
  obtain ⟨before, after, rfl⟩ := List.append_of_mem ha
  rw [List.map_append, List.map_cons] at hkeys
  have hnotin : key a ∉ before.map key ++ after.map key := (List.nodup_middle.mp hkeys).notMem
  rw [List.mem_append, not_or] at hnotin
  rw [under_append, under_cons_self, under_eq_nil_iff.mpr hnotin.1, under_eq_nil_iff.mpr hnotin.2,
    List.nil_append]

/-- The sort is stable. -/
theorem under_insertionSort (k : κ) (l : List α) :
    under key k (l.insertionSort fun a b => key a ≤ key b) = under key k l := by
  have hpair : (under key k l).Pairwise fun a b => key a ≤ key b := by
    apply List.pairwise_of_forall_mem_list
    intro a ha b hb
    exact le_of_eq ((mem_under.mp ha).2.trans (mem_under.mp hb).2.symm)
  -- what shares a key is ordered already, so it is left as it stands
  have hsub : (under key k l).Sublist (l.insertionSort fun a b => key a ≤ key b) :=
    List.sublist_insertionSort hpair List.filter_sublist
  have hunder : (under key k l).Sublist
      (under key k (l.insertionSort fun a b => key a ≤ key b)) := by
    have hfilter := hsub.filter fun a => decide (key a = k)
    unfold under at hfilter ⊢
    rwa [List.filter_filter, show (fun a => decide (key a = k) && decide (key a = k)) =
      fun a => decide (key a = k) from funext fun a => Bool.and_self _] at hfilter
  apply (hunder.eq_of_length _).symm
  exact ((List.perm_insertionSort _ l).filter _).length_eq.symm

/-- Lists in the order of their keys are equal where they hold the same under each key. -/
theorem eq_of_under {l l' : List α} (hl : l.Pairwise fun a b => key a ≤ key b)
    (hl' : l'.Pairwise fun a b => key a ≤ key b) (h : ∀ k, under key k l = under key k l') :
    l = l' := by
  have hmem : ∀ {l l' : List α}, (∀ k, under key k l = under key k l') → ∀ {a}, a ∈ l → a ∈ l' := by
    intro l l' h a ha
    have hin : a ∈ under key (key a) l := mem_under.mpr ⟨ha, rfl⟩
    rw [h] at hin
    exact (mem_under.mp hin).1
  induction l generalizing l' with
  | nil =>
      apply Eq.symm
      apply List.eq_nil_iff_forall_not_mem.mpr
      intro a ha
      cases hmem (fun k => (h k).symm) ha
  | cons a l ih =>
      cases l' with
      | nil => cases hmem h List.mem_cons_self
      | cons b l' =>
          have hsmall : ∀ {a b : α} {l : List α},
              ((a :: l).Pairwise fun a b => key a ≤ key b) → b ∈ a :: l → key a ≤ key b := by
            intro a b l hpair hb
            rcases List.mem_cons.mp hb with rfl | hb
            · exact le_refl _
            · exact List.rel_of_pairwise_cons hpair hb
          have hkey : key a = key b :=
            le_antisymm (hsmall hl (hmem (fun k => (h k).symm) List.mem_cons_self))
              (hsmall hl' (hmem h List.mem_cons_self))
          have hhead := h (key a)
          rw [under_cons_self, hkey, under_cons_self] at hhead
          obtain ⟨rfl, _⟩ := List.cons.inj hhead
          congr 1
          apply ih hl.of_cons hl'.of_cons
          intro k
          by_cases hk : key a = k
          · have htail := h k
            rw [← hk, under_cons_self, under_cons_self] at htail
            rw [← hk]
            exact (List.cons.inj htail).2
          · have htail := h k
            rwa [under_cons_of_ne hk, under_cons_of_ne hk] at htail

theorem pairwise_insertionSort (l : List α) :
    (l.insertionSort fun a b => key a ≤ key b).Pairwise fun a b => key a ≤ key b := by
  have : Std.Total fun a b : α => key a ≤ key b := ⟨fun a b => le_total (key a) (key b)⟩
  have : IsTrans α fun a b => key a ≤ key b := ⟨fun a b c hab hbc => le_trans hab hbc⟩
  exact List.pairwise_insertionSort _ l

theorem insertionSort_eq_iff {l l' : List α} :
    (l.insertionSort fun a b => key a ≤ key b) = (l'.insertionSort fun a b => key a ≤ key b) ↔
      ∀ k, under key k l = under key k l' := by
  constructor
  · intro h k
    rw [← under_insertionSort, h, under_insertionSort]
  · intro h
    apply eq_of_under (pairwise_insertionSort l) (pairwise_insertionSort l')
    intro k
    rw [under_insertionSort, under_insertionSort, h]

/-- Lists of the same elements are sorted alike where the key tells elements apart. -/
theorem insertionSort_eq_of_perm {l l' : List α} (hperm : l.Perm l')
    (hkey : ∀ a ∈ l, ∀ b ∈ l, key a = key b → a = b) :
    (l.insertionSort fun a b => key a ≤ key b) = l'.insertionSort fun a b => key a ≤ key b := by
  apply List.Perm.eq_of_pairwise _ (pairwise_insertionSort l) (pairwise_insertionSort l')
  · exact ((List.perm_insertionSort _ l).trans hperm).trans (List.perm_insertionSort _ l').symm
  · intro a b ha hb hab hba
    rw [List.mem_insertionSort] at ha hb
    exact hkey a ha b (hperm.mem_iff.mpr hb) (le_antisymm hab hba)

/-- Blocks laid end to end in two orders. -/
theorem flatMap_eq_of_commute {f : β → List α} {blocks blocks' : List β}
    (hperm : blocks.Perm blocks')
    (hcomm : ∀ x ∈ blocks, ∀ y ∈ blocks, f x ++ f y = f y ++ f x) :
    blocks.flatMap f = blocks'.flatMap f := by
  induction hperm with
  | nil => rfl
  | cons x _ ih =>
      rw [List.flatMap_cons, List.flatMap_cons, ih]
      exact fun a ha b hb => hcomm a (List.mem_cons_of_mem _ ha) b (List.mem_cons_of_mem _ hb)
  | swap x y l =>
      simp only [List.flatMap_cons]
      rw [← List.append_assoc, ← List.append_assoc, hcomm y (by simp) x (by simp)]
  | trans h1 _ ih1 ih2 =>
      rw [ih1 hcomm, ih2 fun a ha b hb => hcomm a (h1.mem_iff.mpr ha) b (h1.mem_iff.mpr hb)]

end StableSort
