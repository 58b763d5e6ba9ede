import Mathlib.Data.List.Basic
import Mathlib.Tactic.Common

/-!
# Fields joined by a separator

A tuple of texts written as one text with a separator between the fields, the
fields themselves free to contain the separator. Such a join is not injective;
what it determines is the list of *segments*, the fields cut at every separator
and laid end to end.

Two tuples join to the same text iff they have the same segments
(`join_eq_iff`). A join of separator-free fields therefore determines the
tuple (`join_injective_of_free`), and a join of two fields fails to exactly when one
tuple moves a piece of text across the boundary (`join_pair_eq_iff`).
-/

namespace Separated

variable {α : Type} {sep : α}

/-- The fields with the separator between them. -/
def join (sep : α) (fields : List (List α)) : List α := [sep].intercalate fields

/-- The fields cut at every separator, laid end to end. -/
def segments [DecidableEq α] (sep : α) (fields : List (List α)) : List (List α) :=
  fields.flatMap (fun f => f.splitOn sep)

/-! ## §1  Segments decide the join -/

@[simp] theorem join_singleton (f : List α) : join sep [f] = f := by
  simp [join, List.intercalate]

theorem join_cons_cons (f g : List α) (fs : List (List α)) :
    join sep (f :: g :: fs) = f ++ sep :: join sep (g :: fs) := by
  unfold join
  rw [List.intercalate_cons_cons, List.append_assoc]
  rfl

section

variable [DecidableEq α]

/-- Cutting a join gives its segments. -/
theorem splitOn_join {fields : List (List α)} (h : fields ≠ []) :
    (join sep fields).splitOn sep = segments sep fields := by
  induction fields with
  | nil => exact absurd rfl h
  | cons f fs ih =>
      cases fs with
      | nil => simp [segments]
      | cons g gs =>
          rw [join_cons_cons, List.splitOn_append_cons_self, ih (List.cons_ne_nil g gs)]
          rfl

theorem join_segments {fields : List (List α)} (h : fields ≠ []) :
    join sep (segments sep fields) = join sep fields := by
  rw [← splitOn_join h]
  exact List.intercalate_splitOn sep

/-- Two nonempty tuples join alike iff they have the same segments. -/
theorem join_eq_iff {fs gs : List (List α)} (hf : fs ≠ []) (hg : gs ≠ []) :
    join sep fs = join sep gs ↔ segments sep fs = segments sep gs := by
  constructor
  · intro h
    rw [← splitOn_join hf, h, splitOn_join hg]
  · intro h
    rw [← join_segments hf, h, join_segments hg]

/-! ## §2  Separator-free fields -/

theorem segments_free {fields : List (List α)} (h : ∀ f ∈ fields, sep ∉ f) :
    segments sep fields = fields := by
  induction fields with
  | nil => rfl
  | cons f fs ih =>
      have hf : f.splitOn sep = [f] := List.splitOn_eq_singleton (h f List.mem_cons_self)
      have hrest := ih (fun g hg => h g (List.mem_cons_of_mem _ hg))
      unfold segments at hrest ⊢
      rw [List.flatMap_cons, hf, hrest]
      rfl

/-- A text is cut into fields without the separator. -/
theorem free_of_mem_splitOn : ∀ {text f : List α}, f ∈ text.splitOn sep → sep ∉ f
  | [], f, h => by
      rw [List.splitOn_nil, List.mem_singleton] at h
      subst h
      exact List.not_mem_nil
  | c :: text, f, h => by
      rw [List.splitOn_cons_eq_if_modifyHead] at h
      split at h
      · rcases List.mem_cons.mp h with rfl | h
        · exact List.not_mem_nil
        · exact free_of_mem_splitOn h
      · rename_i hc
        obtain ⟨first, rest, hfields⟩ := List.exists_cons_of_ne_nil (List.splitOn_ne_nil sep text)
        rw [hfields, List.modifyHead_cons] at h
        have hfree : ∀ g ∈ first :: rest, sep ∉ g := fun g hg =>
          free_of_mem_splitOn (hfields ▸ hg)
        rcases List.mem_cons.mp h with rfl | h
        · rw [List.mem_cons, not_or]
          exact ⟨fun heq => hc (by simp [heq]), hfree first List.mem_cons_self⟩
        · exact hfree f (List.mem_cons_of_mem _ h)

theorem sublist_of_mem_splitOn {text f : List α} (h : f ∈ text.splitOn sep) : f.Sublist text := by
  have hjoin : join sep (text.splitOn sep) = text := List.intercalate_splitOn sep
  rw [← hjoin]
  clear hjoin
  generalize text.splitOn sep = fields at h
  induction fields with
  | nil => cases h
  | cons g fields ih =>
      cases fields with
      | nil =>
          rw [List.mem_singleton.mp h, join_singleton]
      | cons g' fields =>
          rw [join_cons_cons]
          rcases List.mem_cons.mp h with rfl | h
          · exact List.sublist_append_left _ _
          · exact ((ih h).trans (List.sublist_cons_self _ _)).trans (List.sublist_append_right _ _)

/-- Two texts laid end to end share a field: the last one of the first text goes on as the first
one of the second. -/
theorem splitOn_append {front back last first : List α} {before after : List (List α)}
    (hfront : front.splitOn sep = before ++ [last]) (hback : back.splitOn sep = first :: after) :
    (front ++ back).splitOn sep = before ++ (last ++ first) :: after := by
  induction front generalizing before last with
  | nil =>
      rw [List.splitOn_nil] at hfront
      cases before with
      | nil =>
          obtain rfl : [] = last := (List.cons.inj hfront).1
          exact hback
      | cons field before => simp at hfront
  | cons c front ih =>
      rw [List.splitOn_cons_eq_if_modifyHead] at hfront
      rw [List.cons_append, List.splitOn_cons_eq_if_modifyHead]
      split at hfront
      · rename_i hc
        rw [if_pos hc]
        cases before with
        | nil => exact absurd (List.cons.inj hfront).2 (List.splitOn_ne_nil sep front)
        | cons field before =>
            obtain ⟨rfl, hrest⟩ := List.cons.inj hfront
            rw [ih hrest]
            rfl
      · rename_i hc
        rw [if_neg hc]
        obtain ⟨field, fields, hfields⟩ := List.exists_cons_of_ne_nil (List.splitOn_ne_nil sep front)
        rw [hfields, List.modifyHead_cons] at hfront
        cases before with
        | nil =>
            obtain ⟨rfl, rfl⟩ := List.cons.inj hfront
            rw [@ih field [] hfields]
            rfl
        | cons field' before =>
            obtain ⟨rfl, rfl⟩ := List.cons.inj hfront
            rw [@ih last (field :: before) hfields]
            rfl

/-- The last element with a property. -/
theorem exists_last {β : Type} {P : β → Prop} : ∀ {items : List β}, (∃ item ∈ items, P item) →
    ∃ front last back, items = front ++ last :: back ∧ P last ∧ ∀ item ∈ back, ¬ P item
  | [], h => by
      obtain ⟨_, hmem, _⟩ := h
      cases hmem
  | first :: items, h => by
      by_cases hrest : ∃ item ∈ items, P item
      · obtain ⟨front, last, back, rfl, hlast, hback⟩ := exists_last hrest
        exact ⟨first :: front, last, back, rfl, hlast, hback⟩
      · obtain ⟨item, hmem, hitem⟩ := h
        rcases List.mem_cons.mp hmem with rfl | hmem
        · exact ⟨[], item, items, rfl, hitem, fun other hother hP => hrest ⟨other, hother, hP⟩⟩
        · exact absurd ⟨item, hmem, hitem⟩ hrest

/-- The last field starts behind the last separator. -/
theorem splitOn_last {front back : List α} (h : sep ∉ back) :
    (front ++ sep :: back).splitOn sep = front.splitOn sep ++ [back] := by
  rw [List.splitOn_append_cons_self, List.splitOn_eq_singleton h]

/-- Separator-free fields are determined by their join. -/
theorem join_injective_of_free {fs gs : List (List α)} (hf : fs ≠ []) (hg : gs ≠ [])
    (hff : ∀ f ∈ fs, sep ∉ f) (hgf : ∀ g ∈ gs, sep ∉ g) (h : join sep fs = join sep gs) :
    fs = gs := by
  have hs := (join_eq_iff hf hg).mp h
  rwa [segments_free hff, segments_free hgf] at hs

/-! ### Pieces -/

theorem length_splitOn_of_free {f : List α} (h : sep ∉ f) : (f.splitOn sep).length = 1 := by
  rw [List.splitOn_eq_singleton h]
  rfl

/-- Fields cut into as many pieces, one by one, are told apart by the pieces. -/
theorem eq_of_segments {fs gs : List (List α)}
    (hcounts : List.Forall₂ (fun f g => (f.splitOn sep).length = (g.splitOn sep).length) fs gs)
    (h : segments sep fs = segments sep gs) : fs = gs := by
  induction hcounts with
  | nil => rfl
  | cons hcount _ ih =>
      unfold segments at h ih
      rw [List.flatMap_cons, List.flatMap_cons] at h
      obtain ⟨hfirst, hrest⟩ := List.append_inj h hcount
      have hsame := congrArg ([sep].intercalate) hfirst
      rw [List.intercalate_splitOn, List.intercalate_splitOn] at hsame
      rw [hsame, ih hrest]

end

/-! ## §3  Two fields -/

/-- Text moves across the boundary: the second tuple's first field is longer by
`mid`, which the first tuple has at the front of its second field. -/
def Shifted (sep : α) (a b a' b' : List α) : Prop :=
  ∃ mid, a' = a ++ sep :: mid ∧ b = mid ++ sep :: b'

/-- A prefix of two splittings at separators, the longer one first. -/
theorem split_shifted {a b a' b' : List α} (h : a ++ sep :: b = a' ++ sep :: b') :
    a = a' ∧ b = b' ∨ Shifted sep a b a' b' ∨ Shifted sep a' b' a b := by
  induction a generalizing a' with
  | nil =>
      cases a' with
      | nil =>
          left
          simpa using h
      | cons x a' =>
          right; left
          rw [List.nil_append, List.cons_append, List.cons.injEq] at h
          obtain ⟨rfl, hb⟩ := h
          exact ⟨a', rfl, hb⟩
  | cons x a ih =>
      cases a' with
      | nil =>
          right; right
          rw [List.nil_append, List.cons_append, List.cons.injEq] at h
          obtain ⟨rfl, hb⟩ := h
          exact ⟨a, rfl, hb.symm⟩
      | cons y a' =>
          rw [List.cons_append, List.cons_append, List.cons.injEq] at h
          obtain ⟨rfl, htail⟩ := h
          rcases ih htail with ⟨rfl, rfl⟩ | ⟨mid, h₁, h₂⟩ | ⟨mid, h₁, h₂⟩
          · exact Or.inl ⟨rfl, rfl⟩
          · exact Or.inr (Or.inl ⟨mid, by rw [h₁]; rfl, h₂⟩)
          · exact Or.inr (Or.inr ⟨mid, by rw [h₁]; rfl, h₂⟩)

theorem Shifted.join_eq {a b a' b' : List α} (h : Shifted sep a b a' b') :
    a ++ sep :: b = a' ++ sep :: b' := by
  obtain ⟨mid, rfl, rfl⟩ := h
  simp

theorem Shifted.ne {a b a' b' : List α} (h : Shifted sep a b a' b') : a ≠ a' := by
  obtain ⟨mid, rfl, rfl⟩ := h
  simp

/-- Two distinct pairs join alike iff one shifts into the other. -/
theorem join_pair_eq_iff {a b a' b' : List α} (hne : (a, b) ≠ (a', b')) :
    a ++ sep :: b = a' ++ sep :: b' ↔ Shifted sep a b a' b' ∨ Shifted sep a' b' a b := by
  constructor
  · intro h
    rcases split_shifted h with ⟨rfl, rfl⟩ | hs
    · exact absurd rfl hne
    · exact hs
  · rintro (h | h)
    · exact h.join_eq
    · exact h.join_eq.symm

/-! ## §4  Words -/

theorem join_sublist {fs gs : List (List α)} (h : fs.Sublist gs) :
    (join sep fs).Sublist (join sep gs) := by
  induction h with
  | slnil => exact List.Sublist.refl _
  | @cons fs gs g hsub ih =>
      cases gs with
      | nil =>
          rw [List.sublist_nil.mp hsub]
          exact List.nil_sublist _
      | cons g' gs =>
          rw [join_cons_cons]
          exact (ih.trans (List.sublist_cons_self _ _)).trans (List.sublist_append_right _ _)
  | @cons_cons fs gs f hsub ih =>
      cases gs with
      | nil =>
          rw [List.sublist_nil.mp hsub]
      | cons g gs =>
          rw [join_cons_cons f g]
          cases fs with
          | nil =>
              rw [join_singleton]
              exact List.sublist_append_left _ _
          | cons f' fs =>
              rw [join_cons_cons f f']
              exact (ih.cons_cons sep).append_left f

/-- Two separators in a row, seen from the first element. -/
theorem pair_infix_cons {c : α} {text : List α} :
    [sep, sep] <:+: c :: text ↔ (c = sep ∧ text.head? = some sep) ∨ [sep, sep] <:+: text := by
  rw [List.infix_cons_iff]
  cases text with
  | nil => simp
  | cons d text => simp [eq_comm]

section

variable [DecidableEq α]

/-- The pieces between separators that are not empty. -/
def words (sep : α) (text : List α) : List (List α) :=
  (text.splitOn sep).filter fun word => decide (word ≠ [])

theorem words_append (a b : List α) : words sep (a ++ sep :: b) = words sep a ++ words sep b := by
  unfold words
  rw [List.splitOn_append_cons_self, List.filter_append]

theorem words_of_free {text : List α} (hne : text ≠ []) (h : sep ∉ text) :
    words sep text = [text] := by
  unfold words
  rw [List.splitOn_eq_singleton h]
  exact List.filter_cons_of_pos (decide_eq_true hne)

theorem ne_nil_of_mem_words {text word : List α} (h : word ∈ words sep text) : word ≠ [] :=
  of_decide_eq_true (List.mem_filter.mp h).2

theorem words_ne_nil {text : List α} {c : α} (hmem : c ∈ text) (hc : c ≠ sep) :
    words sep text ≠ [] := by
  induction text with
  | nil => cases hmem
  | cons d text ih =>
      by_cases hd : d = sep
      · subst hd
        rcases List.mem_cons.mp hmem with rfl | hmem
        · exact absurd rfl hc
        · have hrest := ih hmem
          rw [← List.nil_append (d :: text), words_append]
          exact List.append_ne_nil_of_right_ne_nil _ hrest
      · unfold words
        obtain ⟨first, rest, hpieces⟩ := List.exists_cons_of_ne_nil (List.splitOn_ne_nil sep text)
        rw [List.splitOn_cons_eq_if_modifyHead, if_neg (by simp [hd]), hpieces]
        simp

theorem join_words_ne_nil {text : List α} (h : words sep text ≠ []) :
    join sep (words sep text) ≠ [] := by
  obtain ⟨word, rest, hwords⟩ := List.exists_cons_of_ne_nil h
  have hword : word ≠ [] := @ne_nil_of_mem_words _ sep _ text word
    (by rw [hwords]; exact List.mem_cons_self)
  rw [hwords]
  cases rest with
  | nil => rwa [join_singleton]
  | cons next rest =>
      rw [join_cons_cons]
      exact List.append_ne_nil_of_left_ne_nil hword _

/-- Joining the words leaves out separators only. -/
theorem join_words_sublist (text : List α) : (join sep (words sep text)).Sublist text := by
  have hjoin : join sep (text.splitOn sep) = text := List.intercalate_splitOn sep
  have hsub : (join sep (words sep text)).Sublist (join sep (text.splitOn sep)) :=
    join_sublist List.filter_sublist
  rw [hjoin] at hsub
  exact hsub

/-- The words give the text back unless a piece between separators is empty. -/
theorem join_words_eq_iff {text : List α} (hne : text ≠ []) :
    join sep (words sep text) = text ↔ [] ∉ text.splitOn sep := by
  constructor
  · intro h hnil
    have hwords : words sep text ≠ [] := by
      intro hnone
      rw [hnone] at h
      exact hne h.symm
    have hfree : ∀ word ∈ words sep text, sep ∉ word := fun word hword =>
      free_of_mem_splitOn (List.mem_of_mem_filter hword)
    have hsplit := @splitOn_join _ sep _ _ hwords
    rw [h, segments_free hfree] at hsplit
    rw [hsplit] at hnil
    exact of_decide_eq_true (List.mem_filter.mp hnil).2 rfl
  · intro hnil
    unfold words
    rw [List.filter_eq_self.mpr]
    · exact List.intercalate_splitOn sep
    · intro word hword
      apply decide_eq_true
      rintro rfl
      exact hnil hword

/-- A piece behind the first one is empty at a last separator, or between two. -/
theorem nil_mem_tail_splitOn_iff {text : List α} :
    [] ∈ (text.splitOn sep).tail ↔ text.getLast? = some sep ∨ [sep, sep] <:+: text := by
  induction text with
  | nil => simp
  | cons c text ih =>
      rw [pair_infix_cons, List.splitOn_cons_eq_if_modifyHead]
      obtain ⟨first, rest, hpieces⟩ := List.exists_cons_of_ne_nil (List.splitOn_ne_nil sep text)
      rw [hpieces] at ih ⊢
      by_cases hc : c = sep
      · subst hc
        have hfirst : first = [] ↔ text = [] ∨ text.head? = some c := by
          cases text with
          | nil =>
              rw [List.splitOn_nil] at hpieces
              cases hpieces
              simp
          | cons d text =>
              rw [List.splitOn_cons_eq_if_modifyHead] at hpieces
              by_cases hd : d = c
              · rw [if_pos (by simp [hd])] at hpieces
                cases hpieces
                simp [hd]
              · rw [if_neg (by simp [hd])] at hpieces
                obtain ⟨_, _, htail⟩ :=
                  List.exists_cons_of_ne_nil (List.splitOn_ne_nil c text)
                rw [htail, List.modifyHead_cons] at hpieces
                cases hpieces
                simp [hd]
        rw [if_pos (by simp), List.tail_cons, List.mem_cons, eq_comm, hfirst]
        rw [List.tail_cons] at ih
        rw [ih]
        cases text with
        | nil => simp
        | cons d text => simp [or_left_comm]
      · rw [if_neg (by simp [hc]), List.modifyHead_cons, List.tail_cons]
        rw [List.tail_cons] at ih
        rw [ih]
        cases text with
        | nil => simp [hc]
        | cons d text => simp [hc]

theorem nil_mem_splitOn_iff {text : List α} (hfirst : text.head? ≠ some sep)
    (hlast : text.getLast? ≠ some sep) (hne : text ≠ []) :
    [] ∈ text.splitOn sep ↔ [sep, sep] <:+: text := by
  cases text with
  | nil => exact absurd rfl hne
  | cons c text =>
      have htail := @nil_mem_tail_splitOn_iff _ sep _ (c :: text)
      have hc : c ≠ sep := fun h => hfirst (congrArg some h)
      rw [or_iff_right hlast] at htail
      rw [← htail, List.splitOn_cons_eq_if_modifyHead, if_neg (by simp [hc])]
      obtain ⟨first, rest, hpieces⟩ := List.exists_cons_of_ne_nil (List.splitOn_ne_nil sep text)
      rw [hpieces, List.modifyHead_cons, List.tail_cons, List.mem_cons]
      simp

end

end Separated
