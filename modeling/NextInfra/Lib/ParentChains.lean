import Mathlib.Logic.ExistsUnique
import Mathlib.Logic.Function.Basic
import Mathlib.Logic.Relation

/-!
# Parent chains

A partial function that gives an element its parent. Going up from an element either ends
at one without a parent or runs into a cycle, and a cycle is left by no way up.

Taking the parent of one element of a cycle away cuts this cycle and no other, and every
chain that ended still ends. So elements taken in turn, each relieved of the cycle its
chain runs into (`Detached`), leave chains that all end (`Detached.ends`), and of each
cycle exactly one element has lost its parent (`Detached.exists_unique`).
-/

namespace ParentChains

open Relation

variable {α : Type}

/-! ## §1  Chains -/

/-- One step up. -/
def Step (parent : α → Option α) (a b : α) : Prop := parent a = some b

def Reaches (parent : α → Option α) : α → α → Prop := ReflTransGen (Step parent)

/-- The chain of the element comes back to it. -/
def OnCycle (parent : α → Option α) (a : α) : Prop := TransGen (Step parent) a a

/-- The chain of the element ends. -/
def Ends (parent : α → Option α) (a : α) : Prop := ∃ b, Reaches parent a b ∧ parent b = none

section

variable {parent : α → Option α}

theorem step_unique : Relator.RightUnique (Step parent) := by
  intro a b c hb hc
  exact Option.some.inj (hb.symm.trans hc)

/-- Two elements of a chain stand one above the other. -/
theorem Reaches.total {a b c : α} (hb : Reaches parent a b) (hc : Reaches parent a c) :
    Reaches parent b c ∨ Reaches parent c b :=
  ReflTransGen.total_of_right_unique step_unique hb hc

theorem OnCycle.isSome {a : α} (h : OnCycle parent a) : ∃ b, parent a = some b := by
  obtain ⟨b, hb, _⟩ := TransGen.head'_iff.mp h
  exact ⟨b, hb⟩

/-- What stands above an element of a cycle is on the cycle. -/
theorem OnCycle.of_reaches {a b : α} (h : OnCycle parent a) (hab : Reaches parent a b) :
    OnCycle parent b ∧ Reaches parent b a := by
  induction hab with
  | refl => exact ⟨h, ReflTransGen.refl⟩
  | tail _ hstep ih =>
      rename_i b c _
      obtain ⟨c', hc', hback⟩ := TransGen.head'_iff.mp ih.1
      cases step_unique hstep hc'
      exact ⟨TransGen.tail' hback hstep, hback.trans ih.2⟩

theorem Ends.not_onCycle {a : α} (h : Ends parent a) : ¬ OnCycle parent a := by
  obtain ⟨b, hb, hnone⟩ := h
  intro hcycle
  obtain ⟨c, hc⟩ := (hcycle.of_reaches hb).1.isSome
  rw [hnone] at hc
  cases hc

/-- Two elements with one parent, one above the other, are one or on a cycle. -/
theorem eq_or_onCycle_of_siblings {a b c : α} (ha : parent a = some c) (hb : parent b = some c)
    (h : Reaches parent a b) : a = b ∨ OnCycle parent c := by
  rcases ReflTransGen.cases_head h with rfl | ⟨c', hc', hup⟩
  · exact Or.inl rfl
  · cases step_unique ha hc'
    exact Or.inr (TransGen.tail' hup hb)

end

/-! ## §2  Parents taken away -/

/-- Some elements have lost their parents. -/
def Fewer (parent' parent : α → Option α) : Prop := ∀ a b, parent' a = some b → parent a = some b

/-- The element has lost its parent. -/
def Lost (parent parent' : α → Option α) (a : α) : Prop := parent a ≠ none ∧ parent' a = none

section

variable {parent parent' : α → Option α}

theorem Reaches.of_fewer (hfewer : Fewer parent' parent) {a b : α} (h : Reaches parent' a b) :
    Reaches parent a b :=
  ReflTransGen.mono (fun a b => hfewer a b) _ _ h

theorem OnCycle.of_fewer (hfewer : Fewer parent' parent) {a : α} (h : OnCycle parent' a) :
    OnCycle parent a :=
  TransGen.mono (fun a b => hfewer a b) _ _ h

/-- The chain of an element of a cycle that is left is the old one. -/
theorem OnCycle.reaches (hfewer : Fewer parent' parent) {a b : α} (h : OnCycle parent' a)
    (hab : Reaches parent a b) : Reaches parent' a b := by
  induction hab with
  | refl => exact ReflTransGen.refl
  | tail _ hstep ih =>
      rename_i b c _
      obtain ⟨c', hc'⟩ := (h.of_reaches ih).1.isSome
      cases step_unique hstep (hfewer b c' hc')
      exact ih.tail hc'

/-- A cycle that is left has lost nothing. -/
theorem OnCycle.not_lost (hfewer : Fewer parent' parent) {a b : α} (h : OnCycle parent' a)
    (hab : Reaches parent a b) : ¬ Lost parent parent' b := by
  intro hlost
  obtain ⟨c, hc⟩ := (h.of_reaches (h.reaches hfewer hab)).1.isSome
  rw [hlost.2] at hc
  cases hc

end

/-- Parents are lost on cycles only, and at most one on each. -/
structure OnePerCycle (parent parent' : α → Option α) : Prop where
  fewer : Fewer parent' parent
  onCycle : ∀ a, Lost parent parent' a → OnCycle parent a
  unique : ∀ a b, Lost parent parent' a → Lost parent parent' b → Reaches parent a b → a = b

theorem onePerCycle_refl (parent : α → Option α) : OnePerCycle parent parent where
  fewer _ _ h := h
  onCycle _ h := absurd h.2 h.1
  unique _ _ h := absurd h.2 h.1

/-! ## §3  One parent taken away -/

variable [DecidableEq α]

/-- The parents without the one of `a`. -/
def without (parent : α → Option α) (a : α) : α → Option α := Function.update parent a none

section

variable {parent : α → Option α}

@[simp] theorem without_self (a : α) : without parent a a = none := by
  simp [without]

theorem without_of_ne {a b : α} (h : b ≠ a) : without parent a b = parent b := by
  simp [without, h]

theorem fewer_without (a : α) : Fewer (without parent a) parent := by
  intro b c h
  by_cases hb : b = a
  · rw [hb, without_self] at h
    cases h
  · rwa [without_of_ne hb] at h

/-- The way up to an element does not use its parent. -/
theorem Reaches.without {a b : α} (h : Reaches parent a b) : Reaches (without parent b) a b := by
  induction h using ReflTransGen.head_induction_on with
  | refl => exact ReflTransGen.refl
  | head hstep _ ih =>
      rename_i x y _
      by_cases ha : x = b
      · rw [ha]
        exact ReflTransGen.refl
      · exact ReflTransGen.head ((without_of_ne ha).trans hstep) ih

theorem ends_without_of_reaches {a b : α} (h : Reaches parent a b) : Ends (without parent b) a :=
  ⟨b, h.without, without_self b⟩

/-- A chain that ends still ends. -/
theorem Ends.without {a : α} (h : Ends parent a) (d : α) : Ends (without parent d) a := by
  obtain ⟨b, hab, hnone⟩ := h
  induction hab using ReflTransGen.head_induction_on with
  | refl =>
      refine ⟨b, ReflTransGen.refl, ?_⟩
      by_cases hb : b = d
      · rw [hb, without_self]
      · rw [without_of_ne hb, hnone]
  | head hstep _ ih =>
      rename_i x y _
      by_cases ha : x = d
      · rw [ha]
        exact ⟨d, ReflTransGen.refl, without_self d⟩
      · obtain ⟨e, hce, hend⟩ := ih
        exact ⟨e, ReflTransGen.head ((without_of_ne ha).trans hstep) hce, hend⟩

end

/-! ## §4  Elements relieved in turn -/

/-- One element relieved: its chain ends already, or an element of the cycle that the chain
runs into loses its parent. -/
inductive Relieved (parent : α → Option α) (start : α) : (α → Option α) → Prop
  | ended (h : Ends parent start) : Relieved parent start parent
  | cut (c : α) (hup : Reaches parent start c) (hcycle : OnCycle parent c) :
      Relieved parent start (without parent c)

/-- The elements of a list relieved one after the other. -/
inductive Detached : (α → Option α) → List α → (α → Option α) → Prop
  | nil (parent : α → Option α) : Detached parent [] parent
  | cons {parent parent' parent'' : α → Option α} {start : α} {starts : List α}
      (head : Relieved parent start parent') (tail : Detached parent' starts parent'') :
      Detached parent (start :: starts) parent''

section

variable {parent parent' parent'' : α → Option α} {start : α} {starts : List α}

theorem Relieved.ends (h : Relieved parent start parent') : Ends parent' start := by
  cases h with
  | ended h => exact h
  | cut c hup _ => exact ends_without_of_reaches hup

theorem Relieved.ends_of_ends (h : Relieved parent start parent') {a : α} (ha : Ends parent a) :
    Ends parent' a := by
  cases h with
  | ended _ => exact ha
  | cut c _ _ => exact ha.without c

theorem Detached.ends_of_ends (h : Detached parent starts parent') {a : α} (ha : Ends parent a) :
    Ends parent' a := by
  induction h with
  | nil _ => exact ha
  | cons head _ ih => exact ih (head.ends_of_ends ha)

/-- The chains of the elements that were relieved end. -/
theorem Detached.ends (h : Detached parent starts parent') {a : α} (ha : a ∈ starts) :
    Ends parent' a := by
  induction h with
  | nil _ => cases ha
  | cons head tail ih =>
      rcases List.mem_cons.mp ha with rfl | ha
      · exact tail.ends_of_ends head.ends
      · exact ih ha

/-- Cutting one more cycle. -/
theorem OnePerCycle.relieved (h : OnePerCycle parent parent')
    (hrelieved : Relieved parent' start parent'') : OnePerCycle parent parent'' := by
  cases hrelieved with
  | ended _ => exact h
  | cut c _ hcycle =>
      have hlost : ∀ a, Lost parent (without parent' c) a → a = c ∨ Lost parent parent' a := by
        intro a ha
        by_cases hac : a = c
        · exact Or.inl hac
        · exact Or.inr ⟨ha.1, (without_of_ne hac).symm.trans ha.2⟩
      have hold := hcycle.of_fewer h.fewer
      refine ⟨?_, ?_, ?_⟩
      · intro a b hab
        exact h.fewer a b (fewer_without c a b hab)
      · intro a ha
        rcases hlost a ha with rfl | ha'
        · exact hold
        · exact h.onCycle a ha'
      · intro a b ha hb hab
        -- the cycle of `c` was whole until now
        rcases hlost a ha with rfl | ha'
        · rcases hlost b hb with rfl | hb'
          · rfl
          · exact absurd hb' (hcycle.not_lost h.fewer hab)
        · rcases hlost b hb with rfl | hb'
          · exact absurd ha' (hcycle.not_lost h.fewer ((h.onCycle a ha').of_reaches hab).2)
          · exact h.unique a b ha' hb' hab

theorem Detached.onePerCycle_of (h : Detached parent' starts parent'')
    (hfirst : OnePerCycle parent parent') : OnePerCycle parent parent'' := by
  induction h with
  | nil _ => exact hfirst
  | cons head _ ih => exact ih (hfirst.relieved head)

theorem Detached.onePerCycle (h : Detached parent starts parent') : OnePerCycle parent parent' :=
  h.onePerCycle_of (onePerCycle_refl parent)

/-- Where every element with a parent was relieved, every chain ends. -/
theorem Detached.all_end (h : Detached parent starts parent')
    (hall : ∀ a, parent a ≠ none → a ∈ starts) (a : α) : Ends parent' a := by
  by_cases ha : parent a = none
  · apply h.ends_of_ends
    exact ⟨a, ReflTransGen.refl, ha⟩
  · exact h.ends (hall a ha)

/-- Then of each cycle exactly one element has lost its parent. -/
theorem Detached.exists_unique (h : Detached parent starts parent')
    (hall : ∀ a, parent a ≠ none → a ∈ starts) {a : α} (ha : OnCycle parent a) :
    ∃! d, Reaches parent a d ∧ Lost parent parent' d := by
  have hone := h.onePerCycle
  obtain ⟨d, had, hnone⟩ := h.all_end hall a
  have hup := had.of_fewer hone.fewer
  obtain ⟨c, hc⟩ := (ha.of_reaches hup).1.isSome
  refine ⟨d, ⟨hup, by simp [hc], hnone⟩, ?_⟩
  rintro e ⟨hae, he⟩
  have hed : Reaches parent e d := (ha.of_reaches hae).2.trans hup
  exact hone.unique e d he ⟨by simp [hc], hnone⟩ hed

end

end ParentChains
