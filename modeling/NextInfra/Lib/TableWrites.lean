import NextInfra.Lib.KeyedTable

/-!
# Upserts and guarded inserts on keyed tables

Two ways a database table takes a batch of rows.

- *Upsert with identity columns* (`UpsertRule`): a row replaces the row of its
  key, but only if the two agree on the identity columns; some columns of the
  old row may be carried over.
- *Insert or ignore* (`insertNew`): a row whose key is taken is dropped.

For each, the lookups after a batch and the exact condition under which no row
of the batch is refused (`fitsAll_iff`) or dropped (`freshAll_iff`).
-/

/-- How a table takes an upsert: `ident` are the columns an existing row must
share, `carry old new` is the row left behind. -/
structure UpsertRule {κ ρ : Type} [LinearOrder κ] (key : ρ → κ) (ι : Type) where
  ident : ρ → ι
  carry : ρ → ρ → ρ
  key_carry : ∀ old new, key (carry old new) = key new
  ident_carry : ∀ old new, ident (carry old new) = ident new

namespace UpsertRule

variable {κ ρ ι : Type} [LinearOrder κ] {key : ρ → κ} (u : UpsertRule key ι)

/-! ## §1  One upsert -/

/-- The row an upsert of `r` leaves. -/
def row (t : KeyedTable key) (r : ρ) : ρ :=
  match t.get (key r) with
  | some old => u.carry old r
  | none => r

def apply (t : KeyedTable key) (r : ρ) : KeyedTable key := t.put (u.row t r)

/-- `r` may be upserted: the row of its key, if any, has its identity. -/
def Fits (t : KeyedTable key) (r : ρ) : Prop :=
  ∀ old, t.get (key r) = some old → u.ident old = u.ident r

/-- The row of `r`'s key after its upsert, up to carried columns. -/
def Lands (r x : ρ) : Prop := x = r ∨ ∃ old, x = u.carry old r

theorem row_lands (t : KeyedTable key) (r : ρ) : u.Lands r (u.row t r) := by
  unfold row
  cases t.get (key r) with
  | some old => exact Or.inr ⟨old, rfl⟩
  | none => exact Or.inl rfl

theorem Lands.key_eq {r x : ρ} (h : u.Lands r x) : key x = key r := by
  rcases h with rfl | ⟨old, rfl⟩
  · rfl
  · exact u.key_carry old r

theorem Lands.ident_eq {r x : ρ} (h : u.Lands r x) : u.ident x = u.ident r := by
  rcases h with rfl | ⟨old, rfl⟩
  · rfl
  · exact u.ident_carry old r

theorem get_apply (t : KeyedTable key) (r : ρ) (k : κ) :
    (u.apply t r).get k = if k = key r then some (u.row t r) else t.get k := by
  unfold apply
  rw [KeyedTable.get_put, (u.row_lands t r).key_eq]

/-! ## §2  A batch of upserts -/

def applyAll (t : KeyedTable key) (rows : List ρ) : KeyedTable key := rows.foldl u.apply t

/-- Every row fits the table as the rows before it left it. -/
def FitsAll : KeyedTable key → List ρ → Prop
  | _, [] => True
  | t, r :: rows => u.Fits t r ∧ FitsAll (u.apply t r) rows

@[simp] theorem applyAll_nil (t : KeyedTable key) : u.applyAll t [] = t := rfl

@[simp] theorem applyAll_cons (t : KeyedTable key) (r : ρ) (rows : List ρ) :
    u.applyAll t (r :: rows) = u.applyAll (u.apply t r) rows := rfl

theorem get_applyAll_of_not_mem {k : κ} : ∀ {rows : List ρ} {t : KeyedTable key},
    (∀ r ∈ rows, key r ≠ k) → (u.applyAll t rows).get k = t.get k
  | [], _, _ => rfl
  | r :: rows, t, h => by
      rw [applyAll_cons, get_applyAll_of_not_mem (fun x hx => h x (List.mem_cons_of_mem _ hx)),
        get_apply, if_neg (fun e => h r List.mem_cons_self e.symm)]

/-- A touched key holds some row of the batch, up to carried columns. -/
theorem get_applyAll_of_mem : ∀ {rows : List ρ} {t : KeyedTable key} {r : ρ}, r ∈ rows →
    ∃ r' ∈ rows, key r' = key r ∧ ∃ x, (u.applyAll t rows).get (key r) = some x ∧ u.Lands r' x
  | r₀ :: rows, t, r, h => by
      rw [applyAll_cons]
      by_cases hlater : ∃ r' ∈ rows, key r' = key r
      · obtain ⟨r', hr', hk⟩ := hlater
        obtain ⟨r'', hr'', hk'', x, hx, hl⟩ :=
          get_applyAll_of_mem (t := u.apply t r₀) (r := r') hr'
        rw [hk] at hx hk''
        exact ⟨r'', List.mem_cons_of_mem _ hr'', hk'', x, hx, hl⟩
      · have hnot : ∀ x ∈ rows, key x ≠ key r := fun x hx e => hlater ⟨x, hx, e⟩
        have hr : r = r₀ := by
          rcases List.mem_cons.mp h with hr | hr
          · exact hr
          · exact absurd rfl (hnot r hr)
        subst hr
        refine ⟨r, List.mem_cons_self, rfl, u.row t r, ?_, u.row_lands t r⟩
        rw [u.get_applyAll_of_not_mem hnot, get_apply, if_pos rfl]

/-- A row found after the batch was stored before or is the upsert of a row of the
batch. -/
theorem mem_applyAll {rows : List ρ} {t : KeyedTable key} {x : ρ}
    (hx : x ∈ (u.applyAll t rows).rows) : x ∈ t.rows ∨ ∃ r ∈ rows, u.Lands r x := by
  by_cases htouched : ∃ r ∈ rows, key r = key x
  · right
    obtain ⟨r, hr, hid⟩ := htouched
    obtain ⟨r', hr', _, y, hy, hlands⟩ := u.get_applyAll_of_mem (t := t) hr
    rw [hid, KeyedTable.get_of_mem hx] at hy
    cases hy
    exact ⟨r', hr', hlands⟩
  · left
    rw [KeyedTable.mem_iff_get] at hx ⊢
    rw [u.get_applyAll_of_not_mem fun r hr hid => htouched ⟨r, hr, hid⟩] at hx
    exact hx

/-- A batch of distinct keys leaves under each the row its upsert leaves. -/
theorem get_applyAll_of_nodup : ∀ {rows : List ρ} {t : KeyedTable key}, (rows.map key).Nodup →
    ∀ {r : ρ}, r ∈ rows → (u.applyAll t rows).get (key r) = some (u.row t r)
  | r₀ :: rows, t, hnd, r, h => by
      rw [List.map_cons, List.nodup_cons] at hnd
      rw [applyAll_cons]
      rcases List.mem_cons.mp h with rfl | h'
      · have hnot : ∀ x ∈ rows, key x ≠ key r :=
          fun x hx e => hnd.1 (List.mem_map.mpr ⟨x, hx, e⟩)
        rw [u.get_applyAll_of_not_mem hnot, get_apply, if_pos rfl]
      · have hne : key r ≠ key r₀ := fun e => hnd.1 (List.mem_map.mpr ⟨r, h', e⟩)
        rw [get_applyAll_of_nodup hnd.2 h']
        unfold row
        rw [get_apply, if_neg hne]

/-- One upsert keeps the identity of every stored row. -/
theorem apply_keeps_ident {t : KeyedTable key} {r : ρ} (hfit : u.Fits t r) {k : κ} {x : ρ}
    (hx : t.get k = some x) : ∃ x', (u.apply t r).get k = some x' ∧ u.ident x' = u.ident x := by
  rw [get_apply]
  by_cases hk : k = key r
  · rw [if_pos hk]
    refine ⟨u.row t r, rfl, ?_⟩
    rw [(u.row_lands t r).ident_eq]
    exact (hfit x (hk ▸ hx)).symm
  · rw [if_neg hk]
    exact ⟨x, hx, rfl⟩

/-- A batch that fits keeps the identity of every stored row. -/
theorem applyAll_keeps_ident : ∀ {rows : List ρ} {t : KeyedTable key}, u.FitsAll t rows →
    ∀ {k : κ} {x : ρ}, t.get k = some x →
      ∃ x', (u.applyAll t rows).get k = some x' ∧ u.ident x' = u.ident x
  | [], _, _, _, x, hx => ⟨x, hx, rfl⟩
  | r :: rows, t, hfit, k, x, hx => by
      obtain ⟨x₁, hx₁, hi₁⟩ := u.apply_keeps_ident hfit.1 hx
      obtain ⟨x₂, hx₂, hi₂⟩ := applyAll_keeps_ident hfit.2 hx₁
      exact ⟨x₂, hx₂, hi₂.trans hi₁⟩

/-- After a batch that fits, the row under each of its keys has its identity. -/
theorem applyAll_ident : ∀ {rows : List ρ} {t : KeyedTable key}, u.FitsAll t rows →
    ∀ {r : ρ}, r ∈ rows → ∃ x, (u.applyAll t rows).get (key r) = some x ∧ u.ident x = u.ident r
  | r₀ :: rows, t, hfit, r, h => by
      rcases List.mem_cons.mp h with rfl | h'
      · have hrow : (u.apply t r).get (key r) = some (u.row t r) := by
          rw [get_apply, if_pos rfl]
        obtain ⟨x, hx, hi⟩ := u.applyAll_keeps_ident hfit.2 hrow
        exact ⟨x, hx, hi.trans (u.row_lands t r).ident_eq⟩
      · exact applyAll_ident hfit.2 h'

/-- The rows agree with the table and with each other on identity. -/
def Agrees (t : KeyedTable key) (rows : List ρ) : Prop :=
  (∀ r ∈ rows, u.Fits t r) ∧
    ∀ r ∈ rows, ∀ r' ∈ rows, key r = key r' → u.ident r = u.ident r'

/-- A batch is taken without refusal iff no two rows that meet at a key, stored
or in the batch, differ in identity. -/
theorem fitsAll_iff : ∀ {rows : List ρ} {t : KeyedTable key},
    u.FitsAll t rows ↔ u.Agrees t rows
  | [], _ => by simp [FitsAll, Agrees]
  | r :: rows, t => by
      constructor
      · intro hfit
        have hag := fitsAll_iff.mp hfit.2
        constructor
        · intro x hx
          rcases List.mem_cons.mp hx with rfl | hx'
          · exact hfit.1
          · intro old hold
            obtain ⟨old', hold', hi⟩ := u.apply_keeps_ident hfit.1 hold
            rw [← hi]
            exact hag.1 x hx' old' hold'
        · intro a ha b hb hk
          obtain ⟨x, hx, hxi⟩ := u.applyAll_ident hfit ha
          obtain ⟨y, hy, hyi⟩ := u.applyAll_ident hfit hb
          rw [hk, hy] at hx
          cases hx
          exact hxi.symm.trans hyi
      · rintro ⟨hfits, hpair⟩
        refine ⟨hfits r List.mem_cons_self, fitsAll_iff.mpr ⟨?_, ?_⟩⟩
        · intro x hx old hold
          rw [get_apply] at hold
          by_cases hk : key x = key r
          · rw [if_pos hk] at hold
            cases hold
            rw [(u.row_lands t r).ident_eq]
            exact hpair r List.mem_cons_self x (List.mem_cons_of_mem _ hx) hk.symm
          · rw [if_neg hk] at hold
            exact hfits x (List.mem_cons_of_mem _ hx) old hold
        · intro a ha b hb hk
          exact hpair a (List.mem_cons_of_mem _ ha) b (List.mem_cons_of_mem _ hb) hk

/-- Disagreement is permanent: it survives any change of the table that keeps
the identities of its rows. -/
theorem not_agrees_mono {t t' : KeyedTable key} {rows : List ρ}
    (hkeep : ∀ k x, t.get k = some x → ∃ x', t'.get k = some x' ∧ u.ident x' = u.ident x)
    (h : ¬ u.Agrees t rows) : ¬ u.Agrees t' rows := by
  rintro ⟨hfits, hpair⟩
  refine h ⟨?_, hpair⟩
  intro r hr old hold
  obtain ⟨old', hold', hi⟩ := hkeep _ _ hold
  rw [← hi]
  exact hfits r hr old' hold'

end UpsertRule

/-! ## §3  Insert or ignore -/

namespace KeyedTable

variable {κ ρ : Type} [LinearOrder κ] {key : ρ → κ}

/-- `INSERT OR IGNORE`. -/
def insertNew (t : KeyedTable key) (r : ρ) : KeyedTable key :=
  if (t.get (key r)).isSome then t else t.put r

def insertNewAll (t : KeyedTable key) (rows : List ρ) : KeyedTable key := rows.foldl insertNew t

@[simp] theorem insertNewAll_nil (t : KeyedTable key) : t.insertNewAll [] = t := rfl

@[simp] theorem insertNewAll_cons (t : KeyedTable key) (r : ρ) (rows : List ρ) :
    t.insertNewAll (r :: rows) = (t.insertNew r).insertNewAll rows := rfl

theorem get_insertNew (t : KeyedTable key) (r : ρ) (k : κ) :
    (t.insertNew r).get k = (t.get k).or (if k = key r then some r else none) := by
  unfold insertNew
  cases hg : t.get (key r) with
  | some old =>
      rw [if_pos (by simp)]
      by_cases hk : k = key r
      · rw [hk, hg]
        rfl
      · simp [hk]
  | none =>
      rw [if_neg (by simp), get_put]
      by_cases hk : k = key r
      · rw [if_pos hk, hk, hg]
        simp
      · simp [hk]

/-- A stored row stays. -/
theorem get_insertNew_of_some {t : KeyedTable key} {r : ρ} {k : κ} {x : ρ}
    (h : t.get k = some x) : (t.insertNew r).get k = some x := by
  rw [get_insertNew, h]
  rfl

theorem get_insertNewAll_of_some : ∀ {rows : List ρ} {t : KeyedTable key} {k : κ} {x : ρ},
    t.get k = some x → (t.insertNewAll rows).get k = some x
  | [], _, _, _, h => h
  | r :: rows, t, k, x, h => by
      have hstep : (t.insertNew r).get k = some x := get_insertNew_of_some h
      rw [insertNewAll_cons]
      exact get_insertNewAll_of_some hstep

/-- A key no row of the batch carries keeps its lookup. -/
theorem get_insertNewAll_of_not_mem : ∀ {rows : List ρ} {t : KeyedTable key} {k : κ},
    (∀ r ∈ rows, key r ≠ k) → (t.insertNewAll rows).get k = t.get k
  | [], _, _, _ => rfl
  | r :: rows, t, k, h => by
      rw [insertNewAll_cons,
        get_insertNewAll_of_not_mem (fun x hx => h x (List.mem_cons_of_mem _ hx)), get_insertNew, if_neg (fun e => h r List.mem_cons_self e.symm)]
      simp

/-- A free key that one row of the batch carries, and no other row, takes it. -/
theorem get_insertNewAll_of_unique {rows : List ρ} {t : KeyedTable key} {x : ρ}
    (hfree : t.get (key x) = none) (hmem : x ∈ rows) (honly : ∀ r ∈ rows, key r = key x → r = x) :
    (t.insertNewAll rows).get (key x) = some x := by
  induction rows generalizing t with
  | nil => cases hmem
  | cons r rows ih =>
      rw [insertNewAll_cons]
      by_cases hr : key r = key x
      · have hrx : r = x := honly r List.mem_cons_self hr
        apply get_insertNewAll_of_some
        rw [get_insertNew, hfree, hr, if_pos rfl, hrx]
        rfl
      · have hmem' : x ∈ rows := by
          rcases List.mem_cons.mp hmem with rfl | h
          · exact absurd rfl hr
          · exact h
        refine ih ?_ hmem' (fun y hy => honly y (List.mem_cons_of_mem _ hy))
        rw [get_insertNew, hfree, if_neg (fun e => hr e.symm)]
        rfl

/-- A batch of keys all stored is ignored. -/
theorem insertNewAll_of_stored {rows : List ρ} {t : KeyedTable key}
    (h : ∀ r ∈ rows, (t.get (key r)).isSome) : t.insertNewAll rows = t := by
  induction rows with
  | nil => rfl
  | cons r rows ih =>
      have hr : t.insertNew r = t := by
        unfold insertNew
        rw [if_pos (h r List.mem_cons_self)]
      rw [insertNewAll_cons, hr]
      exact ih fun x hx => h x (List.mem_cons_of_mem _ hx)

/-- A row found after the batch was stored before or is a row of the batch. -/
theorem mem_insertNewAll : ∀ {rows : List ρ} {t : KeyedTable key} {x : ρ},
    x ∈ (t.insertNewAll rows).rows → x ∈ t.rows ∨ x ∈ rows
  | [], _, _, h => Or.inl h
  | r :: rows, t, x, h => by
      rw [insertNewAll_cons] at h
      rcases mem_insertNewAll h with h | h
      · unfold insertNew at h
        split at h
        · exact Or.inl h
        · rcases mem_put.mp h with rfl | ⟨h', _⟩
          · exact Or.inr List.mem_cons_self
          · exact Or.inl h'
      · exact Or.inr (List.mem_cons_of_mem _ h)

/-- The rows of the batch the table takes. -/
def insertedRows : KeyedTable key → List ρ → List ρ
  | _, [] => []
  | t, r :: rows => if (t.get (key r)).isSome then insertedRows t rows
      else r :: insertedRows (t.put r) rows

theorem insertedRows_cons (t : KeyedTable key) (r : ρ) (rows : List ρ) :
    t.insertedRows (r :: rows) = if (t.get (key r)).isSome then t.insertedRows rows
      else r :: (t.put r).insertedRows rows := rfl

theorem mem_insertNewAll_iff {rows : List ρ} {t : KeyedTable key} {x : ρ} :
    x ∈ (t.insertNewAll rows).rows ↔ x ∈ t.rows ∨ x ∈ t.insertedRows rows := by
  induction rows generalizing t with
  | nil => simp [insertedRows]
  | cons r rows ih =>
      rw [insertNewAll_cons, ih, insertedRows_cons]
      unfold insertNew
      by_cases hstored : (t.get (key r)).isSome
      · rw [if_pos hstored, if_pos hstored]
      · rw [if_neg hstored, if_neg hstored, mem_put]
        have hfree : ∀ y ∈ t.rows, key y ≠ key r := by
          simpa [get_eq_none_iff] using hstored
        constructor
        · rintro ((rfl | ⟨hold, _⟩) | hnew)
          · exact .inr List.mem_cons_self
          · exact .inl hold
          · exact .inr (List.mem_cons_of_mem _ hnew)
        · rintro (hold | hnew)
          · exact .inl (.inr ⟨hold, hfree x hold⟩)
          · rcases List.mem_cons.mp hnew with rfl | hnew
            · exact .inl (.inl rfl)
            · exact .inr hnew

/-- How many rows of the batch the table takes. -/
def insertedCount : KeyedTable key → List ρ → Nat
  | _, [] => 0
  | t, r :: rows => (if (t.get (key r)).isSome then 0 else 1) + insertedCount (t.insertNew r) rows

/-- Fresh keys, pairwise distinct. -/
def FreshAll (t : KeyedTable key) (rows : List ρ) : Prop :=
  (∀ r ∈ rows, t.get (key r) = none) ∧ (rows.map key).Nodup

theorem insertedCount_le : ∀ (rows : List ρ) (t : KeyedTable key),
    t.insertedCount rows ≤ rows.length
  | [], _ => le_refl 0
  | r :: rows, t => by
      have ih := insertedCount_le rows (t.insertNew r)
      unfold insertedCount
      rw [List.length_cons]
      split <;> omega

/-- No row of a batch is dropped iff its keys are fresh and distinct. -/
theorem freshAll_iff : ∀ {rows : List ρ} {t : KeyedTable key},
    t.insertedCount rows = rows.length ↔ t.FreshAll rows
  | [], _ => by simp [insertedCount, FreshAll]
  | r :: rows, t => by
      unfold insertedCount
      rw [List.length_cons]
      have hle := insertedCount_le rows (t.insertNew r)
      cases hg : t.get (key r) with
      | some old =>
          rw [if_pos (by simp)]
          constructor
          · intro h
            omega
          · rintro ⟨hfresh, _⟩
            rw [hfresh r List.mem_cons_self] at hg
            cases hg
      | none =>
          rw [if_neg (by simp)]
          have hstep : 1 + (t.insertNew r).insertedCount rows = rows.length + 1 ↔
              (t.insertNew r).insertedCount rows = rows.length := by omega
          rw [hstep, freshAll_iff]
          unfold FreshAll
          rw [List.map_cons, List.nodup_cons]
          constructor
          · rintro ⟨hfresh, hnd⟩
            refine ⟨?_, ?_, hnd⟩
            · intro x hx
              rcases List.mem_cons.mp hx with rfl | hx'
              · exact hg
              · have hx'' := hfresh x hx'
                rw [get_insertNew] at hx''
                exact (Option.or_eq_none_iff.mp hx'').1
            · rintro hmem
              obtain ⟨x, hx, hk⟩ := List.mem_map.mp hmem
              have hx'' := hfresh x hx
              rw [get_insertNew, if_pos hk] at hx''
              simp at hx''
          · rintro ⟨hfresh, hnot, hnd⟩
            refine ⟨?_, hnd⟩
            intro x hx
            rw [get_insertNew, hfresh x (List.mem_cons_of_mem _ hx)]
            have hne : key x ≠ key r := fun e => hnot (List.mem_map.mpr ⟨x, hx, e⟩)
            simp [hne]

/-- A batch of fresh distinct keys is stored whole. -/
theorem get_insertNewAll_of_fresh : ∀ {rows : List ρ} {t : KeyedTable key}, t.FreshAll rows →
    ∀ {r : ρ}, r ∈ rows → (t.insertNewAll rows).get (key r) = some r
  | r₀ :: rows, t, hf, r, h => by
      rw [insertNewAll_cons]
      have hfresh := hf.1 r₀ List.mem_cons_self
      rcases List.mem_cons.mp h with rfl | h'
      · apply get_insertNewAll_of_some
        rw [get_insertNew, hfresh, if_pos rfl]
        rfl
      · have hstep := (@freshAll_iff _ _ _ _ (r₀ :: rows) t).mpr hf
        unfold insertedCount at hstep
        rw [hfresh, if_neg (by simp), List.length_cons] at hstep
        exact get_insertNewAll_of_fresh (freshAll_iff.mp (by omega)) h'

end KeyedTable
