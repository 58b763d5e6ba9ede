import Mathlib.Algebra.BigOperators.Group.List.Lemmas
import Mathlib.Algebra.Order.BigOperators.Group.List
import Mathlib.Algebra.Order.Ring.Cast
import Mathlib.Data.Set.Prod
import Mathlib.Order.Interval.Set.Defs
import Mathlib.Tactic.Linarith
import Mathlib.Tactic.Ring

/-!
# Rectangles on shelves

Rectangles in a plane whose second axis points down, and the layout that sets equal columns
on shelves of different heights: shelf after shelf with a gap, column after column with a
gap, each shelf with a left end of its own. Cells that are no higher than their shelf stand
apart from one another (`Shelves.cell_apart`) and between the first shelf and the end of
the last one (`Shelves.cell_top`, `Shelves.cell_bottom`).
-/

/-! ## §1  Rectangles -/

structure Rect (K : Type) where
  x : K
  y : K
  width : K
  height : K
deriving DecidableEq

namespace Rect

variable {K : Type} [Add K] [LinearOrder K]

def right (r : Rect K) : K := r.x + r.width

def bottom (r : Rect K) : K := r.y + r.height

/-- The rectangle with its border. -/
def points (r : Rect K) : Set (K × K) := Set.Icc r.x r.right ×ˢ Set.Icc r.y r.bottom

/-- One rectangle stands beside the other or above it, with room between them. -/
def Apart (r s : Rect K) : Prop :=
  r.right < s.x ∨ s.right < r.x ∨ r.bottom < s.y ∨ s.bottom < r.y

structure Inside (r s : Rect K) : Prop where
  left : s.x ≤ r.x
  right : r.right ≤ s.right
  top : s.y ≤ r.y
  bottom : r.bottom ≤ s.bottom

variable {r s r' s' : Rect K}

theorem Apart.symm (h : r.Apart s) : s.Apart r := by
  unfold Apart at h ⊢
  tauto

/-- Rectangles apart share no point. -/
theorem Apart.disjoint (h : r.Apart s) : ∀ p ∈ r.points, p ∉ s.points := by
  rintro ⟨x, y⟩ ⟨⟨hrx, hrx'⟩, hry, hry'⟩ ⟨⟨hsx, hsx'⟩, hsy, hsy'⟩
  rcases h with h | h | h | h
  · exact absurd (hsx.trans hrx') (not_le.mpr h)
  · exact absurd (hrx.trans hsx') (not_le.mpr h)
  · exact absurd (hsy.trans hry') (not_le.mpr h)
  · exact absurd (hry.trans hsy') (not_le.mpr h)

/-- What is inside of rectangles apart is apart. -/
theorem Apart.inside (h : r.Apart s) (hr : r'.Inside r) (hs : s'.Inside s) : r'.Apart s' := by
  rcases h with h | h | h | h
  · exact Or.inl (hr.right.trans_lt (h.trans_le hs.left))
  · exact Or.inr (Or.inl (hs.right.trans_lt (h.trans_le hr.left)))
  · exact Or.inr (Or.inr (Or.inl (hr.bottom.trans_lt (h.trans_le hs.top))))
  · exact Or.inr (Or.inr (Or.inr (hs.bottom.trans_lt (h.trans_le hr.top))))

end Rect

/-! ## §2  Shelves -/

/-- The left end of a shelf is given by its number. -/
structure Shelves (K : Type) where
  left : Nat → K
  top : K
  columns : Nat
  columnWidth : K
  columnGap : K
  heights : List K
  rowGap : K

namespace Shelves

section

variable {K : Type} [CommRing K]

/-- Where a shelf begins, from the first one. -/
def offset (heights : List K) (gap : K) (row : Nat) : K := (heights.take row).sum + row * gap

@[simp] theorem offset_zero (heights : List K) (gap : K) : offset heights gap 0 = 0 := by
  simp [offset]

theorem offset_succ (heights : List K) (gap : K) (row : Nat) :
    offset heights gap (row + 1) = offset heights gap row + heights.getD row 0 + gap := by
  have hsum : (heights.take (row + 1)).sum = (heights.take row).sum + heights.getD row 0 := by
    rw [List.take_add_one, List.sum_append, List.getD_eq_getElem?_getD]
    cases heights[row]? with
    | none => simp
    | some height => simp
  unfold offset
  rw [hsum]
  push_cast
  ring

end

variable {K : Type} [CommRing K] [LinearOrder K]

/-- The height of all shelves, with the gaps between them. -/
def total (heights : List K) (gap : K) : K :=
  heights.sum + max 0 ((heights.length : K) - 1) * gap

section

variable {heights : List K} {gap : K} (hheights : ∀ height ∈ heights, 0 ≤ height)

include hheights

theorem getD_nonneg (row : Nat) : 0 ≤ heights.getD row 0 := by
  rw [List.getD_eq_getElem?_getD]
  cases h : heights[row]? with
  | none => exact le_refl 0
  | some height => exact hheights height (List.mem_of_getElem? h)

variable [IsStrictOrderedRing K] (hgap : 0 ≤ gap)

include hgap

theorem offset_mono {row row' : Nat} (h : row ≤ row') :
    offset heights gap row ≤ offset heights gap row' := by
  induction row', h using Nat.le_induction with
  | base => exact le_refl _
  | succ row' _ ih =>
      have hrow := getD_nonneg hheights row'
      rw [offset_succ]
      linarith

theorem offset_nonneg (row : Nat) : 0 ≤ offset heights gap row := by
  have h := offset_mono hheights hgap (Nat.zero_le row)
  rwa [offset_zero] at h

/-- A shelf ends a gap above each later one. -/
theorem offset_end {row row' : Nat} (h : row < row') :
    offset heights gap row + heights.getD row 0 + gap ≤ offset heights gap row' := by
  rw [← offset_succ]
  exact offset_mono hheights hgap h

/-- A shelf ends where all of them do, or above. -/
theorem offset_le_total {row : Nat} (h : row < heights.length) :
    offset heights gap row + heights.getD row 0 ≤ total heights gap := by
  have hend := offset_end hheights hgap h
  have hlength : (1 : K) ≤ (heights.length : K) := by
    exact_mod_cast Nat.succ_le_of_lt (Nat.lt_of_le_of_lt (Nat.zero_le row) h)
  have hlast : offset heights gap heights.length = heights.sum + heights.length * gap := by
    unfold offset
    rw [List.take_length]
  rw [hlast] at hend
  unfold total
  rw [max_eq_right (by linarith)]
  linarith

theorem total_nonneg : 0 ≤ total heights gap := by
  have hsum : 0 ≤ heights.sum := List.sum_nonneg hheights
  have hmax : 0 ≤ max 0 ((heights.length : K) - 1) * gap := mul_nonneg (le_max_left _ _) hgap
  unfold total
  linarith

end

/-! ## §3  Cells -/

/-- The cell of a number, filled up to a height. -/
def cell (s : Shelves K) (index : Nat) (height : K) : Rect K where
  x := s.left (index / s.columns) + ((index % s.columns : Nat) : K) * (s.columnWidth + s.columnGap)
  y := s.top + offset s.heights s.rowGap (index / s.columns)
  width := s.columnWidth
  height := height

/-- Shelves with room between them and between their columns. -/
structure Spaced (s : Shelves K) : Prop where
  columnWidth : 0 ≤ s.columnWidth
  columnGap : 0 < s.columnGap
  heights : ∀ height ∈ s.heights, 0 ≤ height
  rowGap : 0 < s.rowGap

section

variable [IsStrictOrderedRing K] {s : Shelves K} (hs : s.Spaced)

include hs

theorem column_apart {column column' : Nat} (h : column < column') :
    (column : K) * (s.columnWidth + s.columnGap) + s.columnWidth <
      (column' : K) * (s.columnWidth + s.columnGap) := by
  have hcast : ((column : K) + 1) ≤ (column' : K) := by exact_mod_cast h
  have hstep : 0 ≤ s.columnWidth + s.columnGap := by
    linarith [hs.columnWidth, hs.columnGap]
  have hmul := mul_le_mul_of_nonneg_right hcast hstep
  linarith [hs.columnGap]

/-- Some columns take no more room than their widths and the gaps between them. -/
theorem column_end {column columns : Nat} (h : column < columns) :
    (column : K) * (s.columnWidth + s.columnGap) + s.columnWidth ≤
      columns * s.columnWidth + (columns - 1) * s.columnGap := by
  have hcast : ((column : K) + 1) ≤ (columns : K) := by exact_mod_cast h
  have hstep : 0 ≤ s.columnWidth + s.columnGap := by
    linarith [hs.columnWidth, hs.columnGap]
  have hmul := mul_le_mul_of_nonneg_right hcast hstep
  linarith

theorem cell_apart_of_lt {index index' : Nat} {height height' : K} (h : index < index')
    (hheight : height ≤ s.heights.getD (index / s.columns) 0) :
    (s.cell index height).Apart (s.cell index' height') := by
  rcases Nat.lt_or_eq_of_le (Nat.div_le_div_right (c := s.columns) h.le) with hrow | hrow
  · have hend := offset_end hs.heights hs.rowGap.le hrow
    right
    right
    left
    show s.top + _ + height < s.top + _
    linarith [hs.rowGap]
  · -- on one shelf the columns differ
    have hcolumn : index % s.columns < index' % s.columns := by
      have hindex := Nat.div_add_mod index s.columns
      have hindex' := Nat.div_add_mod index' s.columns
      rw [← hrow] at hindex'
      omega
    have hapart := column_apart hs hcolumn
    left
    show s.left _ + _ + s.columnWidth < s.left _ + _
    rw [hrow]
    linarith

/-- Cells of two numbers stand apart. -/
theorem cell_apart {index index' : Nat} {height height' : K} (h : index ≠ index')
    (hheight : height ≤ s.heights.getD (index / s.columns) 0)
    (hheight' : height' ≤ s.heights.getD (index' / s.columns) 0) :
    (s.cell index height).Apart (s.cell index' height') := by
  rcases Nat.lt_or_gt_of_ne h with h | h
  · exact cell_apart_of_lt hs h hheight
  · exact (cell_apart_of_lt hs h hheight').symm

theorem cell_top (index : Nat) (height : K) : s.top ≤ (s.cell index height).y := by
  have hoffset := offset_nonneg hs.heights hs.rowGap.le (index / s.columns)
  show s.top ≤ s.top + _
  linarith

theorem cell_bottom {index : Nat} {height : K} (hrow : index / s.columns < s.heights.length)
    (hheight : height ≤ s.heights.getD (index / s.columns) 0) :
    (s.cell index height).bottom ≤ s.top + total s.heights s.rowGap := by
  have hend := offset_le_total hs.heights hs.rowGap.le hrow
  show s.top + _ + height ≤ _
  linarith

/-- Where the columns of a shelf stand. -/
theorem cell_left (index : Nat) (height : K) :
    s.left (index / s.columns) ≤ (s.cell index height).x := by
  have hstep : 0 ≤ s.columnWidth + s.columnGap := by
    linarith [hs.columnWidth, hs.columnGap]
  have hcolumn := mul_nonneg (Nat.cast_nonneg (α := K) (index % s.columns)) hstep
  show _ ≤ s.left _ + _
  linarith

theorem cell_right {index columns : Nat} (height : K) (h : index % s.columns < columns) :
    (s.cell index height).right ≤
      s.left (index / s.columns) + (columns * s.columnWidth + (columns - 1) * s.columnGap) := by
  have hend := column_end hs h
  show s.left _ + _ + s.columnWidth ≤ _
  linarith

end

end Shelves
