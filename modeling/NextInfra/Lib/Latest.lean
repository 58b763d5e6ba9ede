import NextInfra.Lib.KeyedTable

/-!
# The latest row of each key

A table takes rows one after the other. Of the rows with one key it keeps the latest,
and it refuses two of them that differ in content. Whether a list of rows is taken, and
what is kept of it, depends on the rows and not on their order: two rows of a key may
differ in their instant only, so the row kept is the one with the greatest instant
(`keepAll_perm`).
-/

namespace Latest

variable {ρ κ φ τ : Type} {content : ρ → φ} {time : ρ → τ} {key : ρ → κ} {rows seen : List ρ}
  {r : ρ}

/-! ## §1  Rows and tables -/

/-- Rows of one key have one content. -/
def Consistent (content : ρ → φ) (key : ρ → κ) (rows : List ρ) : Prop :=
  ∀ a ∈ rows, ∀ b ∈ rows, key a = key b → content a = content b

/-- Key, content and instant tell the rows apart. -/
def Determined (content : ρ → φ) (time : ρ → τ) (key : ρ → κ) (rows : List ρ) : Prop :=
  ∀ a ∈ rows, ∀ b ∈ rows, key a = key b → content a = content b → time a = time b → a = b

theorem consistent_nil (content : ρ → φ) (key : ρ → κ) : Consistent content key [] :=
  fun a ha => by cases ha

theorem Consistent.of_subset (h : Consistent content key rows) (hsub : ∀ x ∈ seen, x ∈ rows) :
    Consistent content key seen :=
  fun a ha b hb hkey => h a (hsub a ha) b (hsub b hb) hkey

variable [LinearOrder κ] [LinearOrder τ] {t t' : KeyedTable key}

/-- The table holds, for each key of the rows, one of them that no other is later than. -/
structure Holds (time : ρ → τ) (t : KeyedTable key) (rows : List ρ) : Prop where
  taken : ∀ x ∈ t.rows, x ∈ rows
  covers : ∀ y ∈ rows, ∃ x ∈ t.rows, key x = key y ∧ time y ≤ time x

theorem holds_empty (time : ρ → τ) : Holds time (KeyedTable.empty : KeyedTable key) [] where
  taken := fun x hx => by cases hx
  covers := fun y hy => by cases hy

/-- No row of the key is later than the one the table holds. -/
theorem Holds.latest (h : Holds time t rows) {x y : ρ} (hx : x ∈ t.rows) (hy : y ∈ rows)
    (hkey : key y = key x) : time y ≤ time x := by
  obtain ⟨x', hx', hkey', hle⟩ := h.covers y hy
  obtain rfl := t.row_unique hx' hx (hkey'.trans hkey)
  exact hle

/-- Two tables that hold the same rows are one table. -/
theorem Holds.unique (hdet : Determined content time key rows)
    (hcons : Consistent content key rows) (h : Holds time t rows) (h' : Holds time t' rows) :
    t = t' := by
  have hsub : ∀ {t t' : KeyedTable key}, Holds time t rows → Holds time t' rows →
      ∀ x ∈ t.rows, x ∈ t'.rows := by
    intro t t' h h' x hx
    obtain ⟨x', hx', hkey, hle⟩ := h'.covers x (h.taken x hx)
    have hge : time x' ≤ time x := h.latest hx (h'.taken x' hx') hkey
    have hsame : x' = x :=
      hdet x' (h'.taken x' hx') x (h.taken x hx) hkey
        (hcons x' (h'.taken x' hx') x (h.taken x hx) hkey) (le_antisymm hge hle)
    rw [← hsame]
    exact hx'
  exact KeyedTable.ext_mem fun x => ⟨hsub h h' x, hsub h' h x⟩

/-- A row that joins consistent rows agrees with the one held for its key. -/
theorem consistent_concat_iff (hcons : Consistent content key seen) (h : Holds time t seen) :
    Consistent content key (seen ++ [r]) ↔
      ∀ existing, t.get (key r) = some existing → content existing = content r := by
  constructor
  · intro hall existing hget
    obtain ⟨hmem, hkey⟩ := KeyedTable.get_eq_some_iff.mp hget
    exact hall existing (List.mem_append_left _ (h.taken existing hmem)) r (by simp) hkey
  · intro hagree
    have hnew : ∀ a ∈ seen, key a = key r → content a = content r := by
      intro a ha hkey
      obtain ⟨x, hx, hxa, _⟩ := h.covers a ha
      rw [hcons a ha x (h.taken x hx) hxa.symm]
      exact hagree x (KeyedTable.get_eq_some_iff.mpr ⟨hx, hxa.trans hkey⟩)
    intro a ha b hb hkey
    rcases List.mem_append.mp ha with ha | ha
    · rcases List.mem_append.mp hb with hb | hb
      · exact hcons a ha b hb hkey
      · rw [List.mem_singleton.mp hb] at hkey ⊢
        exact hnew a ha hkey
    · rw [List.mem_singleton.mp ha] at hkey ⊢
      rcases List.mem_append.mp hb with hb | hb
      · exact (hnew b hb hkey.symm).symm
      · rw [List.mem_singleton.mp hb]

/-- Putting a row that is later than what the table holds for its key. -/
theorem Holds.put (h : Holds time t seen)
    (hlater : ∀ existing, t.get (key r) = some existing → time existing ≤ time r) :
    Holds time (t.put r) (seen ++ [r]) where
  taken := by
    intro x hx
    rcases KeyedTable.mem_put.mp hx with rfl | ⟨hx, _⟩
    · simp
    · exact List.mem_append_left _ (h.taken x hx)
  covers := by
    intro y hy
    rcases List.mem_append.mp hy with hy | hy
    · obtain ⟨x, hx, hkey, hle⟩ := h.covers y hy
      by_cases hr : key x = key r
      · have hget := KeyedTable.get_eq_some_iff.mpr ⟨hx, hr⟩
        exact ⟨r, KeyedTable.mem_put.mpr (Or.inl rfl), hr.symm.trans hkey,
          hle.trans (hlater x hget)⟩
      · exact ⟨x, KeyedTable.mem_put.mpr (Or.inr ⟨hx, hr⟩), hkey, hle⟩
    · rw [List.mem_singleton.mp hy]
      exact ⟨r, KeyedTable.mem_put.mpr (Or.inl rfl), rfl, le_rfl⟩

/-- Leaving out a row that is not later than what the table holds for its key. -/
theorem Holds.leave (h : Holds time t seen) {existing : ρ}
    (hget : t.get (key r) = some existing) (hle : time r ≤ time existing) :
    Holds time t (seen ++ [r]) where
  taken := fun x hx => List.mem_append_left _ (h.taken x hx)
  covers := by
    intro y hy
    rcases List.mem_append.mp hy with hy | hy
    · exact h.covers y hy
    · rw [List.mem_singleton.mp hy]
      obtain ⟨hmem, hkey⟩ := KeyedTable.get_eq_some_iff.mp hget
      exact ⟨existing, hmem, hkey, hle⟩

/-! ## §2  Taking rows -/

section

variable [DecidableEq φ] (content : ρ → φ) (time : ρ → τ)

def keep (t : KeyedTable key) (r : ρ) : Option (KeyedTable key) :=
  match t.get (key r) with
  | none => some (t.put r)
  | some existing =>
      if content existing ≠ content r then none
      else if time r ≤ time existing then some t
      else some (t.put r)

def keepAll (t : KeyedTable key) : List ρ → Option (KeyedTable key)
  | [] => some t
  | r :: rs => (keep content time t r).bind fun t' => keepAll t' rs

end

variable [DecidableEq φ]

/-- A row is taken iff the rows stay consistent, and the table then holds them all. -/
theorem keep_spec (r : ρ) (hcons : Consistent content key seen) (h : Holds time t seen) :
    match keep content time t r with
    | none => ¬ Consistent content key (seen ++ [r])
    | some t' => Consistent content key (seen ++ [r]) ∧ Holds time t' (seen ++ [r]) := by
  unfold keep
  cases hget : t.get (key r) with
  | none =>
      refine ⟨(consistent_concat_iff hcons h).mpr ?_, h.put ?_⟩
      · intro existing he
        rw [hget] at he
        cases he
      · intro existing he
        rw [hget] at he
        cases he
  | some existing =>
      have hall : (∀ e, t.get (key r) = some e → content e = content r) ↔
          content existing = content r := by
        rw [hget]
        simp
      by_cases hsame : content existing = content r
      · have hcons' := (consistent_concat_iff hcons h).mpr (hall.mpr hsame)
        by_cases hle : time r ≤ time existing
        · simp only [hsame, ne_eq, not_true_eq_false, if_false, if_pos hle]
          exact ⟨hcons', h.leave hget hle⟩
        · simp only [hsame, ne_eq, not_true_eq_false, if_false, if_neg hle]
          refine ⟨hcons', h.put fun e he => ?_⟩
          rw [hget] at he
          obtain rfl := Option.some.inj he
          exact le_of_not_ge hle
      · simp only [ne_eq, hsame, not_false_eq_true, if_true]
        intro hcons'
        exact hsame (hall.mp ((consistent_concat_iff hcons h).mp hcons'))

/-- By induction on the rows still to come, with those already seen beside them. -/
theorem keepAll_spec (rows : List ρ) (hcons : Consistent content key seen)
    (h : Holds time t seen) :
    match keepAll content time t rows with
    | none => ¬ Consistent content key (seen ++ rows)
    | some t' => Consistent content key (seen ++ rows) ∧ Holds time t' (seen ++ rows) := by
  induction rows generalizing t seen with
  | nil =>
      rw [List.append_nil]
      exact ⟨hcons, h⟩
  | cons r rows ih =>
      have hstep := keep_spec r hcons h
      have happend : seen ++ r :: rows = seen ++ [r] ++ rows := by simp
      unfold keepAll
      cases hkeep : keep content time t r with
      | none =>
          rw [hkeep] at hstep
          intro hall
          refine hstep (hall.of_subset fun x hx => ?_)
          rw [happend]
          exact List.mem_append_left _ hx
      | some t' =>
          rw [hkeep] at hstep
          rw [happend]
          exact ih hstep.1 hstep.2

/-- Rows are taken exactly where they are consistent. -/
theorem keepAll_isSome_iff :
    (∃ t, keepAll content time (KeyedTable.empty : KeyedTable key) rows = some t) ↔
      Consistent content key rows := by
  have hspec := keepAll_spec rows (consistent_nil content key) (holds_empty time)
  rw [List.nil_append] at hspec
  cases hkeep : keepAll content time (KeyedTable.empty : KeyedTable key) rows with
  | none =>
      rw [hkeep] at hspec
      exact iff_of_false (fun ⟨_, h⟩ => by cases h) hspec
  | some t =>
      rw [hkeep] at hspec
      exact iff_of_true ⟨t, rfl⟩ hspec.1

theorem keepAll_some_iff (hdet : Determined content time key rows) :
    keepAll content time KeyedTable.empty rows = some t ↔
      Consistent content key rows ∧ Holds time t rows := by
  have hspec := keepAll_spec rows (consistent_nil content key) (holds_empty time)
  rw [List.nil_append] at hspec
  cases hkeep : keepAll content time (KeyedTable.empty : KeyedTable key) rows with
  | none =>
      rw [hkeep] at hspec
      constructor
      · intro h
        cases h
      · intro h
        exact absurd h.1 hspec
  | some t' =>
      rw [hkeep] at hspec
      constructor
      · intro h
        obtain rfl := Option.some.inj h
        exact hspec
      · rintro ⟨hcons, hholds⟩
        rw [hspec.2.unique hdet hcons hholds]

/-- What is kept does not depend on the order of the rows. -/
theorem keepAll_perm {rows' : List ρ} (hperm : rows.Perm rows')
    (hdet : Determined content time key rows) :
    keepAll content time (KeyedTable.empty : KeyedTable key) rows' =
      keepAll content time KeyedTable.empty rows := by
  have hmem : ∀ x, x ∈ rows' ↔ x ∈ rows := fun x => hperm.symm.mem_iff
  have hdet' : Determined content time key rows' := by
    intro a ha b hb
    exact hdet a ((hmem a).mp ha) b ((hmem b).mp hb)
  apply Option.ext
  intro t
  rw [keepAll_some_iff hdet, keepAll_some_iff hdet']
  constructor
  · rintro ⟨hcons, hholds⟩
    exact ⟨hcons.of_subset fun x hx => (hmem x).mpr hx,
      ⟨fun x hx => (hmem x).mp (hholds.taken x hx),
        fun y hy => hholds.covers y ((hmem y).mpr hy)⟩⟩
  · rintro ⟨hcons, hholds⟩
    exact ⟨hcons.of_subset fun x hx => (hmem x).mp hx,
      ⟨fun x hx => (hmem x).mpr (hholds.taken x hx),
        fun y hy => hholds.covers y ((hmem y).mp hy)⟩⟩

end Latest
