import Mathlib.Data.Prod.Lex
import Mathlib.Data.Rat.Floor
import Mathlib.Tactic.NormNum
import Mathlib.Order.Lattice
import NextInfra.Lib.Shelves
import NextInfra.Lib.StableSort

/-!
# The layout of the topology page

Parents, the focus and groups in three regions, one under the other. Parents stand in rows
of five, the last row centred; groups stand in up to three columns, on rows as high as
their highest group, and an expanded group lists its items.

The arithmetic is that of the rationals. Whatever the counts are, nothing overlaps and
everything lies in its region, and the order of the groups changes nothing
(`layoutTopologyHierarchy_never_overlaps`).
-/

namespace NextInfra

namespace TopologyHierarchy

/-! ## §1  Constants -/

def canvasWidth : ℚ := 840

def minHeight : ℚ := 480

def canvasPadding : ℚ := 24

def regionGap : ℚ := 24

def regionWidth : ℚ := canvasWidth - canvasPadding * 2

def nodeWidth : ℚ := 136

def nodeHeight : ℚ := 64

def nodeGap : ℚ := 16

def parentColumns : Nat := 5

def groupColumns : Nat := 3

def groupGap : ℚ := 16

def groupHeaderHeight : ℚ := 40

def groupVerticalPadding : ℚ := 16

def itemHeight : ℚ := 48

def itemGap : ℚ := 8

/-! ## §2  Inputs and outputs -/

/-- The order of the ids is that of the texts, by code units. -/
structure GroupInput (ι : Type) where
  id : ι
  visibleItemCount : ℚ
  totalLoadedCount : ℚ
  expanded : Bool

structure LayoutInput (ι : Type) where
  parentCount : ℚ
  groups : List (GroupInput ι)

structure ParentPosition where
  index : Nat
  rect : Rect ℚ

structure VisibleItemPosition (ι : Type) where
  groupId : ι
  index : Nat
  x : ℚ
  y : ℚ

structure GroupRectangle (ι : Type) extends Rect ℚ where
  id : ι
  expanded : Bool
  visibleItemCount : Nat
  totalLoadedCount : Nat

structure GroupLayout (ι : Type) extends GroupRectangle ι where
  itemPositions : List (VisibleItemPosition ι)

structure Regions where
  parent : Rect ℚ
  focus : Rect ℚ
  groups : Rect ℚ

structure Layout (ι : Type) where
  canvasWidth : ℚ
  height : ℚ
  requiredCanvasHeight : ℚ
  parentRegion : Rect ℚ
  focusRegion : Rect ℚ
  groupRegion : Rect ℚ
  regions : Regions
  parentPositions : List ParentPosition
  focusRect : Rect ℚ
  groupRectangles : List (GroupRectangle ι)
  groups : List (GroupLayout ι)
  visibleItemPositions : List (VisibleItemPosition ι)

structure NormalizedGroup (ι : Type) where
  id : ι
  visibleItemCount : Nat
  totalLoadedCount : Nat
  expanded : Bool

/-- Every rational is finite. -/
def nonNegativeCount (value : ℚ) : Nat := (max 0 ⌊value⌋).toNat

section

variable {ι : Type}

def normalizeGroup (group : GroupInput ι) : NormalizedGroup ι where
  id := group.id
  visibleItemCount := nonNegativeCount group.visibleItemCount
  totalLoadedCount := nonNegativeCount group.totalLoadedCount
  expanded := group.expanded

def compareGroups [LinearOrder ι] (left right : NormalizedGroup ι) : Int :=
  if left.id < right.id then -1
  else if right.id < left.id then 1
  else if left.visibleItemCount ≠ right.visibleItemCount then
    (left.visibleItemCount : Int) - right.visibleItemCount
  else if left.totalLoadedCount ≠ right.totalLoadedCount then
    (left.totalLoadedCount : Int) - right.totalLoadedCount
  else (left.expanded.toNat : Int) - right.expanded.toNat

/-! ## §3  Sizes -/

def rowsFor (count columns : Nat) : Nat := if count = 0 then 0 else ⌈(count : ℚ) / columns⌉₊

def parentRegionHeight (parentCount : Nat) : ℚ :=
  let rows := rowsFor parentCount parentColumns
  if rows = 0 then nodeHeight else rows * nodeHeight + max 0 ((rows : ℚ) - 1) * regionGap

def groupHeight (group : NormalizedGroup ι) : ℚ :=
  if group.expanded = false ∨ group.visibleItemCount = 0 then
    groupHeaderHeight + groupVerticalPadding * 2
  else
    let itemsHeight := group.visibleItemCount * itemHeight +
      ((group.visibleItemCount : ℚ) - 1) * itemGap
    groupHeaderHeight + groupVerticalPadding * 2 + itemsHeight

def groupColumnCount (groupCount : Nat) : Nat := min groupColumns groupCount

def groupColumnWidth (columnCount : Nat) : ℚ :=
  (regionWidth - max 0 ((columnCount : ℚ) - 1) * groupGap) / columnCount

/-- `rowHeights[row] = Math.max(rowHeights[row] ?? 0, height)`: rows come in order, so the
row is there or it is the next one. -/
def raiseRow (rowHeights : List ℚ) (row : Nat) (height : ℚ) : List ℚ :=
  if row < rowHeights.length then rowHeights.set row (max (rowHeights.getD row 0) height)
  else rowHeights ++ [max 0 height]

def rowHeightsOf (columns : Nat) (groups : List (NormalizedGroup ι)) : List ℚ :=
  groups.zipIdx.foldl (fun rowHeights entry =>
    raiseRow rowHeights (entry.2 / columns) (groupHeight entry.1)) []

/-- The offsets that the second `reduce` notes down on its way. -/
def rowOffsetsOf (rowHeights : List ℚ) : List ℚ :=
  (rowHeights.foldl (fun state rowHeight =>
    (state.1 + rowHeight + groupGap, state.2 ++ [state.1])) ((0 : ℚ), [])).2

/-! ## §4  The layout -/

def parentPosition (parentRegion : Rect ℚ) (parentCount index : Nat) : ParentPosition :=
  let row := index / parentColumns
  let column := index % parentColumns
  let columnsInRow := min (parentColumns : ℚ) ((parentCount : ℚ) - row * parentColumns)
  let rowWidth := columnsInRow * nodeWidth + (columnsInRow - 1) * nodeGap
  { index := index
    rect :=
      { x := canvasPadding + (regionWidth - rowWidth) / 2 + column * (nodeWidth + nodeGap)
        y := parentRegion.y + row * (nodeHeight + regionGap)
        width := nodeWidth
        height := nodeHeight } }

def itemPosition (rect : Rect ℚ) (groupId : ι) (itemIndex : Nat) : VisibleItemPosition ι where
  groupId := groupId
  index := itemIndex
  x := rect.x + groupVerticalPadding
  y := rect.y + groupHeaderHeight + groupVerticalPadding + itemIndex * (itemHeight + itemGap)

def groupLayout (groupRegion : Rect ℚ) (columns : Nat) (columnWidth : ℚ) (rowOffsets : List ℚ)
    (group : NormalizedGroup ι) (index : Nat) : GroupLayout ι :=
  let row := index / columns
  let column := index % columns
  let rect : GroupRectangle ι :=
    { x := groupRegion.x + column * (columnWidth + groupGap)
      y := groupRegion.y + rowOffsets.getD row 0
      width := columnWidth
      height := groupHeight group
      id := group.id
      expanded := group.expanded
      visibleItemCount := group.visibleItemCount
      totalLoadedCount := group.totalLoadedCount }
  let itemPositions :=
    if group.expanded = true then
      (List.range group.visibleItemCount).map (itemPosition rect.toRect group.id)
    else []
  { toGroupRectangle := rect, itemPositions := itemPositions }

def layoutTopologyHierarchy [LinearOrder ι] (input : LayoutInput ι) : Layout ι :=
  let parentCount := nonNegativeCount input.parentCount
  let parentRegion : Rect ℚ :=
    ⟨canvasPadding, canvasPadding, regionWidth, parentRegionHeight parentCount⟩
  let focusRegion : Rect ℚ :=
    ⟨canvasPadding, parentRegion.y + parentRegion.height + regionGap, regionWidth, nodeHeight⟩
  let focusRect : Rect ℚ :=
    ⟨(canvasWidth - nodeWidth) / 2, focusRegion.y, nodeWidth, nodeHeight⟩
  let normalizedGroups := (input.groups.map normalizeGroup).insertionSort
    fun left right => compareGroups left right ≤ 0
  let columns := groupColumnCount normalizedGroups.length
  let columnWidth := if columns = 0 then regionWidth else groupColumnWidth columns
  let rowHeights := rowHeightsOf columns normalizedGroups
  let groupRegionHeight := rowHeights.foldl (fun height rowHeight => height + rowHeight) 0 +
    max 0 ((rowHeights.length : ℚ) - 1) * groupGap
  let groupRegion : Rect ℚ :=
    ⟨canvasPadding, focusRegion.y + focusRegion.height + regionGap, regionWidth, groupRegionHeight⟩
  let rowOffsets := rowOffsetsOf rowHeights
  let parentPositions := (List.range parentCount).map (parentPosition parentRegion parentCount)
  let groups := normalizedGroups.zipIdx.map fun entry =>
    groupLayout groupRegion columns columnWidth rowOffsets entry.1 entry.2
  let contentBottom := groupRegion.y + groupRegion.height + canvasPadding
  let requiredCanvasHeight := max minHeight contentBottom
  { canvasWidth := canvasWidth
    height := requiredCanvasHeight
    requiredCanvasHeight := requiredCanvasHeight
    parentRegion := parentRegion
    focusRegion := focusRegion
    groupRegion := groupRegion
    regions := ⟨parentRegion, focusRegion, groupRegion⟩
    parentPositions := parentPositions
    focusRect := focusRect
    groupRectangles := groups.map GroupLayout.toGroupRectangle
    groups := groups
    visibleItemPositions := groups.flatMap GroupLayout.itemPositions }

end

/-! ## §5  The order of the groups -/

/-- What the comparison compares, in its order. -/
def groupKey {ι : Type} (group : NormalizedGroup ι) : ι ×ₗ Nat ×ₗ Nat ×ₗ Bool :=
  toLex (group.id, toLex (group.visibleItemCount, toLex (group.totalLoadedCount, group.expanded)))

theorem eq_of_groupKey {ι : Type} {left right : NormalizedGroup ι}
    (h : groupKey left = groupKey right) : left = right := by
  cases left
  cases right
  simpa [groupKey] using h

section

variable {ι : Type} [LinearOrder ι]

theorem compareGroups_le_iff (left right : NormalizedGroup ι) :
    compareGroups left right ≤ 0 ↔ groupKey left ≤ groupKey right := by
  unfold compareGroups groupKey
  rw [Prod.Lex.toLex_le_toLex, Prod.Lex.toLex_le_toLex, Prod.Lex.toLex_le_toLex]
  dsimp only
  split
  · rename_i hlt
    exact iff_of_true (by decide) (Or.inl hlt)
  split
  · rename_i hle hgt
    refine iff_of_false (by decide) ?_
    rintro (hlt | ⟨heq, _⟩)
    · exact hle hlt
    · exact absurd heq (ne_of_gt hgt)
  rename_i hle hge
  have hid : left.id = right.id := le_antisymm (not_lt.mp hge) (not_lt.mp hle)
  rw [hid, or_iff_right (lt_irrefl _), and_iff_right rfl]
  split
  · rename_i hvisible
    omega
  rename_i hvisible
  rw [not_not.mp hvisible, or_iff_right (lt_irrefl _), and_iff_right rfl]
  split
  · rename_i hloaded
    omega
  rename_i hloaded
  rw [not_not.mp hloaded, or_iff_right (lt_irrefl _), and_iff_right rfl]
  cases left.expanded <;> cases right.expanded <;> decide

/-- Sorting forgets the order the groups came in. -/
theorem sort_groups_perm {groups groups' : List (NormalizedGroup ι)} (h : groups.Perm groups') :
    (groups.insertionSort fun left right => compareGroups left right ≤ 0) =
      groups'.insertionSort fun left right => compareGroups left right ≤ 0 := by
  simp only [compareGroups_le_iff]
  apply StableSort.insertionSort_eq_of_perm h
  intro left _ right _ hkey
  exact eq_of_groupKey hkey

theorem layoutTopologyHierarchy_perm (parentCount : ℚ) {groups groups' : List (GroupInput ι)}
    (h : groups.Perm groups') :
    layoutTopologyHierarchy ⟨parentCount, groups⟩ = layoutTopologyHierarchy ⟨parentCount, groups'⟩ := by
  unfold layoutTopologyHierarchy
  dsimp only
  rw [sort_groups_perm (h.map normalizeGroup)]

end

/-! ## §6  Rows -/

/-- A number below the count is in a row below the number of rows. -/
theorem div_lt_rowsFor {index count columns : Nat} (hcolumns : 0 < columns) (h : index < count) :
    index / columns < rowsFor count columns := by
  unfold rowsFor
  rw [if_neg (by omega), Nat.lt_ceil, lt_div_iff₀ (by exact_mod_cast hcolumns)]
  have hmul : index / columns * columns ≤ index := Nat.div_mul_le_self index columns
  exact_mod_cast Nat.lt_of_le_of_lt hmul h

section

variable {ι : Type}

theorem groupHeight_pos (group : NormalizedGroup ι) : 0 < groupHeight group := by
  unfold groupHeight
  split
  · norm_num [groupHeaderHeight, groupVerticalPadding]
  · rename_i hgroup
    have hone : (1 : ℚ) ≤ group.visibleItemCount := by
      exact_mod_cast Nat.one_le_iff_ne_zero.mpr (not_or.mp hgroup).2
    norm_num [groupHeaderHeight, groupVerticalPadding, itemHeight, itemGap]
    linarith

/-- The heights of the rows of some groups: there is a row for each group, as high as it. -/
structure RowsOf (columns : Nat) (groups : List (NormalizedGroup ι)) (rowHeights : List ℚ) :
    Prop where
  enough : groups.length ≤ rowHeights.length * columns
  nonneg : ∀ height ∈ rowHeights, 0 ≤ height
  high : ∀ entry ∈ groups.zipIdx, groupHeight entry.1 ≤ rowHeights.getD (entry.2 / columns) 0

theorem getD_raiseRow {rowHeights : List ℚ} {row : Nat} (h : row ≤ rowHeights.length) (height : ℚ)
    (row' : Nat) :
    (raiseRow rowHeights row height).getD row' 0 =
      if row' = row then max (rowHeights.getD row 0) height else rowHeights.getD row' 0 := by
  simp only [List.getD_eq_getElem?_getD]
  unfold raiseRow
  split
  · rename_i hlt
    rw [List.getElem?_set]
    by_cases hrow : row' = row
    · simp [hrow, hlt]
    · rw [if_neg (Ne.symm hrow), if_neg hrow]
  · rename_i hlt
    have hlast : row = rowHeights.length := Nat.le_antisymm h (not_lt.mp hlt)
    subst hlast
    by_cases hrow : row' = rowHeights.length
    · simp [hrow]
    · rw [if_neg hrow]
      rcases Nat.lt_or_gt_of_ne hrow with hlt' | hgt
      · rw [List.getElem?_append_left hlt']
      · rw [List.getElem?_eq_none (by simp; omega), List.getElem?_eq_none (by omega)]

theorem raiseRow_rows {columns : Nat} (hcolumns : 0 < columns)
    {groups : List (NormalizedGroup ι)} {rowHeights : List ℚ} (h : RowsOf columns groups rowHeights)
    (group : NormalizedGroup ι) :
    RowsOf columns (groups ++ [group])
      (raiseRow rowHeights (groups.length / columns) (groupHeight group)) := by
  have hrow : groups.length / columns ≤ rowHeights.length :=
    Nat.div_le_of_le_mul (by rw [Nat.mul_comm]; exact h.enough)
  refine ⟨?_, ?_, ?_⟩
  · rw [List.length_append, List.length_singleton]
    unfold raiseRow
    split
    · rename_i hlt
      rw [List.length_set]
      exact (Nat.div_lt_iff_lt_mul hcolumns).mp hlt
    · rw [List.length_append, List.length_singleton, Nat.add_mul]
      have henough := h.enough
      omega
  · intro height hheight
    unfold raiseRow at hheight
    split at hheight
    · rcases List.mem_or_eq_of_mem_set hheight with hmem | rfl
      · exact h.nonneg height hmem
      · exact le_max_of_le_right (groupHeight_pos group).le
    · rcases List.mem_append.mp hheight with hmem | hmem
      · exact h.nonneg height hmem
      · rw [List.mem_singleton.mp hmem]
        exact le_max_left _ _
  · intro entry hentry
    rw [getD_raiseRow hrow]
    rw [List.zipIdx_append, List.mem_append] at hentry
    rcases hentry with hentry | hentry
    · have hhigh := h.high entry hentry
      split
      · rename_i heq
        rw [heq] at hhigh
        exact le_max_of_le_left hhigh
      · exact hhigh
    · have hlast : entry = (group, groups.length) := by simpa using hentry
      subst hlast
      rw [if_pos rfl]
      exact le_max_right _ _

theorem rowHeightsOf_rows {columns : Nat} (hcolumns : 0 < columns)
    (groups : List (NormalizedGroup ι)) : RowsOf columns groups (rowHeightsOf columns groups) := by
  induction groups using List.reverseRecOn with
  | nil => exact ⟨Nat.zero_le _, by simp [rowHeightsOf], by simp⟩
  | append_singleton groups group ih =>
      have hstep := raiseRow_rows hcolumns ih group
      unfold rowHeightsOf at hstep ⊢
      rw [List.zipIdx_append, List.foldl_append]
      simpa using hstep

end

/-- The offsets are those of shelves with the gap of the groups. -/
theorem getD_rowOffsetsOf {rowHeights : List ℚ} {row : Nat} (h : row < rowHeights.length) :
    (rowOffsetsOf rowHeights).getD row 0 = Shelves.offset rowHeights groupGap row := by
  have hfold : ∀ rowHeights : List ℚ,
      rowHeights.foldl (fun state rowHeight =>
          (state.1 + rowHeight + groupGap, state.2 ++ [state.1])) ((0 : ℚ), []) =
        (Shelves.offset rowHeights groupGap rowHeights.length,
          (List.range rowHeights.length).map (Shelves.offset rowHeights groupGap)) := by
    intro rowHeights
    induction rowHeights using List.reverseRecOn with
    | nil => simp
    | append_singleton rowHeights rowHeight ih =>
        have hsame : ∀ row ≤ rowHeights.length,
            Shelves.offset (rowHeights ++ [rowHeight]) groupGap row =
              Shelves.offset rowHeights groupGap row := by
          intro row hrow
          unfold Shelves.offset
          rw [List.take_append_of_le_length hrow]
        rw [List.foldl_append, ih, List.length_append, List.length_singleton, List.range_succ,
          List.map_append, Shelves.offset_succ, hsame _ (le_refl _)]
        simp only [List.foldl_cons, List.foldl_nil, Prod.mk.injEq]
        refine ⟨by simp, ?_⟩
        refine congrArg₂ _ (List.map_congr_left ?_) (by simp [hsame])
        intro row hrow
        exact (hsame row (List.mem_range.mp hrow).le).symm
  unfold rowOffsetsOf
  rw [hfold]
  simp [List.getD_eq_getElem?_getD, h]

/-! ## §7  Parents and groups on shelves -/

/-- The room that some parents take. -/
def parentRowWidth (parentCount row : Nat) : ℚ :=
  min (parentColumns : ℚ) ((parentCount : ℚ) - row * parentColumns) * nodeWidth +
    (min (parentColumns : ℚ) ((parentCount : ℚ) - row * parentColumns) - 1) * nodeGap

def parentShelves (parentRegion : Rect ℚ) (parentCount : Nat) : Shelves ℚ where
  left row := canvasPadding + (regionWidth - parentRowWidth parentCount row) / 2
  top := parentRegion.y
  columns := parentColumns
  columnWidth := nodeWidth
  columnGap := nodeGap
  heights := List.replicate (rowsFor parentCount parentColumns) nodeHeight
  rowGap := regionGap

theorem parentShelves_spaced (parentRegion : Rect ℚ) (parentCount : Nat) :
    (parentShelves parentRegion parentCount).Spaced where
  columnWidth := show (0 : ℚ) ≤ 136 by norm_num
  columnGap := show (0 : ℚ) < 16 by norm_num
  heights := by
    intro height hheight
    rw [List.eq_of_mem_replicate hheight]
    exact show (0 : ℚ) ≤ 64 by norm_num
  rowGap := show (0 : ℚ) < 24 by norm_num

theorem parentRow_lt {parentCount index : Nat} (h : index < parentCount) :
    index / parentColumns < rowsFor parentCount parentColumns :=
  div_lt_rowsFor (by decide) h

theorem parentHeight_getD {parentCount index : Nat} (h : index < parentCount) :
    (List.replicate (rowsFor parentCount parentColumns) nodeHeight).getD (index / parentColumns) 0 =
      nodeHeight := by
  simp [List.getD_eq_getElem?_getD, parentRow_lt h]

/-- A parent is a cell of its shelves. -/
theorem parentPosition_rect (parentRegion : Rect ℚ) {parentCount index : Nat}
    (h : index < parentCount) :
    (parentPosition parentRegion parentCount index).rect =
      (parentShelves parentRegion parentCount).cell index nodeHeight := by
  have hoffset : Shelves.offset (List.replicate (rowsFor parentCount parentColumns) nodeHeight)
      regionGap (index / parentColumns) =
        (index / parentColumns : Nat) * (nodeHeight + regionGap) := by
    unfold Shelves.offset
    rw [List.take_replicate, min_eq_left (parentRow_lt h).le, List.sum_replicate, nsmul_eq_mul]
    ring
  unfold parentPosition Shelves.cell parentShelves parentRowWidth
  dsimp only
  rw [hoffset]

/-- The columns of the row that a parent stands in. -/
theorem parentColumns_in_row {parentCount index : Nat} (h : index < parentCount) :
    ∃ columns : Nat, index % parentColumns < columns ∧ columns ≤ parentColumns ∧
      min (parentColumns : ℚ) ((parentCount : ℚ) - (index / parentColumns : Nat) * parentColumns) =
        columns := by
  have hindex := Nat.div_add_mod' index parentColumns
  have hmod := Nat.mod_lt index (show 0 < parentColumns by decide)
  refine ⟨min parentColumns (parentCount - index / parentColumns * parentColumns), ?_, ?_, ?_⟩
  · have hrest : index % parentColumns = index - index / parentColumns * parentColumns :=
      Nat.eq_sub_of_add_eq' hindex
    rw [hrest] at hmod ⊢
    have hbefore := Nat.div_mul_le_self index parentColumns
    exact Nat.lt_min.mpr ⟨hmod, Nat.sub_lt_sub_right hbefore h⟩
  · exact Nat.min_le_left _ _
  · have hle : index / parentColumns * parentColumns ≤ parentCount :=
      (Nat.div_mul_le_self index parentColumns).trans h.le
    rw [Nat.cast_min, Nat.cast_sub hle, Nat.cast_mul]

theorem parentRegionHeight_eq {parentCount index : Nat} (h : index < parentCount) :
    Shelves.total (List.replicate (rowsFor parentCount parentColumns) nodeHeight) regionGap =
      parentRegionHeight parentCount := by
  have hrows := parentRow_lt h
  unfold Shelves.total parentRegionHeight
  dsimp only
  rw [if_neg (Nat.ne_zero_of_lt hrows), List.sum_replicate, List.length_replicate, nsmul_eq_mul]

theorem parentPosition_inside {parentRegion : Rect ℚ} {parentCount index : Nat}
    (hx : parentRegion.x = canvasPadding) (hwidth : parentRegion.width = regionWidth)
    (hheight : parentRegion.height = parentRegionHeight parentCount) (h : index < parentCount) :
    (parentPosition parentRegion parentCount index).rect.Inside parentRegion := by
  have hspaced := parentShelves_spaced parentRegion parentCount
  obtain ⟨columns, hcolumn, hle, hcolumns⟩ := parentColumns_in_row h
  have hwidest : (columns : ℚ) ≤ 5 := by exact_mod_cast hle
  have hroom : parentRowWidth parentCount (index / parentColumns) =
      columns * 136 + (columns - 1) * 16 := by
    unfold parentRowWidth
    rw [hcolumns]
    rfl
  have hleft : (parentShelves parentRegion parentCount).left (index / parentColumns) =
      24 + (792 - (columns * 136 + ((columns : ℚ) - 1) * 16)) / 2 := by
    show canvasPadding + (regionWidth - parentRowWidth parentCount (index / parentColumns)) / 2 = _
    rw [hroom]
    norm_num [canvasPadding, regionWidth, canvasWidth]
  rw [parentPosition_rect parentRegion h]
  refine ⟨?_, ?_, Shelves.cell_top hspaced index nodeHeight, ?_⟩
  · refine le_trans ?_ (Shelves.cell_left hspaced index nodeHeight)
    show parentRegion.x ≤ (parentShelves parentRegion parentCount).left (index / parentColumns)
    rw [hx, hleft]
    norm_num [canvasPadding]
    linarith
  · refine le_trans (Shelves.cell_right hspaced nodeHeight hcolumn) ?_
    show (parentShelves parentRegion parentCount).left (index / parentColumns) +
      (columns * (136 : ℚ) + (columns - 1) * 16) ≤ parentRegion.x + parentRegion.width
    rw [hx, hwidth, hleft]
    norm_num [canvasPadding, regionWidth, canvasWidth]
    linarith
  · refine le_trans (Shelves.cell_bottom hspaced ?_ ?_) ?_
    · rw [show (parentShelves parentRegion parentCount).heights.length =
        rowsFor parentCount parentColumns from List.length_replicate]
      exact parentRow_lt h
    · exact (parentHeight_getD h).ge
    · show parentRegion.y + Shelves.total (List.replicate (rowsFor parentCount parentColumns)
        nodeHeight) regionGap ≤ parentRegion.y + parentRegion.height
      rw [parentRegionHeight_eq h, hheight]

theorem parentPosition_apart (parentRegion : Rect ℚ) {parentCount index index' : Nat}
    (h : index < parentCount) (h' : index' < parentCount) (hne : index ≠ index') :
    (parentPosition parentRegion parentCount index).rect.Apart
      (parentPosition parentRegion parentCount index').rect := by
  rw [parentPosition_rect parentRegion h, parentPosition_rect parentRegion h']
  exact Shelves.cell_apart (parentShelves_spaced parentRegion parentCount) hne
    (parentHeight_getD h).ge (parentHeight_getD h').ge

def groupShelves (groupRegion : Rect ℚ) (columns : Nat) (columnWidth : ℚ) (rowHeights : List ℚ) :
    Shelves ℚ where
  left _ := groupRegion.x
  top := groupRegion.y
  columns := columns
  columnWidth := columnWidth
  columnGap := groupGap
  heights := rowHeights
  rowGap := groupGap

/-- The columns of groups fill the region. -/
theorem groupColumnWidth_fills {columns : Nat} (h : 0 < columns) :
    columns * groupColumnWidth columns + (columns - 1) * groupGap = regionWidth := by
  have hone : (1 : ℚ) ≤ columns := by exact_mod_cast h
  unfold groupColumnWidth
  rw [max_eq_right (by linarith), mul_div_cancel₀ _ (by linarith)]
  ring

theorem groupColumnWidth_wide {columns : Nat} (h : 0 < columns) (hmax : columns ≤ groupColumns) :
    groupVerticalPadding ≤ groupColumnWidth columns := by
  have hone : (1 : ℚ) ≤ columns := by exact_mod_cast h
  have hthree : (columns : ℚ) ≤ 3 := by exact_mod_cast hmax
  unfold groupColumnWidth
  rw [max_eq_right (by linarith), le_div_iff₀ (by linarith)]
  norm_num [regionWidth, canvasWidth, canvasPadding, groupGap, groupVerticalPadding]
  linarith

theorem groupColumnWidth_pos {columns : Nat} (h : 0 < columns) (hmax : columns ≤ groupColumns) :
    0 < groupColumnWidth columns :=
  lt_of_lt_of_le (show (0 : ℚ) < 16 by norm_num) (groupColumnWidth_wide h hmax)

section

variable {ι : Type} {groups : List (NormalizedGroup ι)} {columns : Nat} {rowHeights : List ℚ}

/-- What is known of the groups when they are placed. -/
structure Placed (groups : List (NormalizedGroup ι)) (columns : Nat) (rowHeights : List ℚ) :
    Prop where
  columns_pos : 0 < columns
  columns_le : columns ≤ groupColumns
  rows : RowsOf columns groups rowHeights

theorem Placed.spaced (h : Placed groups columns rowHeights) (groupRegion : Rect ℚ) :
    (groupShelves groupRegion columns (groupColumnWidth columns) rowHeights).Spaced where
  columnWidth := (groupColumnWidth_pos h.columns_pos h.columns_le).le
  columnGap := show (0 : ℚ) < 16 by norm_num
  heights := h.rows.nonneg
  rowGap := show (0 : ℚ) < 16 by norm_num

theorem Placed.row_lt (h : Placed groups columns rowHeights) {entry : NormalizedGroup ι × Nat}
    (hentry : entry ∈ groups.zipIdx) : entry.2 / columns < rowHeights.length := by
  have hindex : entry.2 < groups.length := by
    have hmem := List.mem_zipIdx hentry
    omega
  exact (Nat.div_lt_iff_lt_mul h.columns_pos).mpr (Nat.lt_of_lt_of_le hindex h.rows.enough)

/-- A group is a cell of its shelves. -/
theorem Placed.groupLayout_rect (h : Placed groups columns rowHeights) (groupRegion : Rect ℚ)
    {entry : NormalizedGroup ι × Nat} (hentry : entry ∈ groups.zipIdx) :
    (groupLayout groupRegion columns (groupColumnWidth columns) (rowOffsetsOf rowHeights) entry.1
        entry.2).toRect =
      (groupShelves groupRegion columns (groupColumnWidth columns) rowHeights).cell entry.2
        (groupHeight entry.1) := by
  unfold groupLayout Shelves.cell groupShelves
  dsimp only
  rw [getD_rowOffsetsOf (h.row_lt hentry)]

theorem Placed.inside (h : Placed groups columns rowHeights) {groupRegion : Rect ℚ}
    (hwidth : groupRegion.width = regionWidth)
    (hheight : groupRegion.height = Shelves.total rowHeights groupGap)
    {entry : NormalizedGroup ι × Nat} (hentry : entry ∈ groups.zipIdx) :
    (groupLayout groupRegion columns (groupColumnWidth columns) (rowOffsetsOf rowHeights) entry.1
        entry.2).toRect.Inside groupRegion := by
  have hspaced := h.spaced groupRegion
  rw [h.groupLayout_rect groupRegion hentry]
  refine ⟨Shelves.cell_left hspaced _ _, ?_, Shelves.cell_top hspaced _ _, ?_⟩
  · refine le_trans (Shelves.cell_right hspaced _ (Nat.mod_lt _ h.columns_pos)) ?_
    show groupRegion.x + (columns * groupColumnWidth columns + (columns - 1) * groupGap) ≤
      groupRegion.x + groupRegion.width
    rw [groupColumnWidth_fills h.columns_pos, hwidth]
  · refine le_trans (Shelves.cell_bottom hspaced (h.row_lt hentry) (h.rows.high entry hentry)) ?_
    show groupRegion.y + Shelves.total rowHeights groupGap ≤ groupRegion.y + groupRegion.height
    rw [hheight]

theorem Placed.apart (h : Placed groups columns rowHeights) (groupRegion : Rect ℚ)
    {entry entry' : NormalizedGroup ι × Nat} (hentry : entry ∈ groups.zipIdx)
    (hentry' : entry' ∈ groups.zipIdx) (hne : entry.2 ≠ entry'.2) :
    (groupLayout groupRegion columns (groupColumnWidth columns) (rowOffsetsOf rowHeights) entry.1
        entry.2).toRect.Apart
      (groupLayout groupRegion columns (groupColumnWidth columns) (rowOffsetsOf rowHeights) entry'.1
        entry'.2).toRect := by
  rw [h.groupLayout_rect groupRegion hentry, h.groupLayout_rect groupRegion hentry']
  exact Shelves.cell_apart (h.spaced groupRegion) hne (h.rows.high entry hentry)
    (h.rows.high entry' hentry')

end

/-! ## §8  Items -/

section

variable {ι : Type} {groupRegion : Rect ℚ} {columns : Nat} {columnWidth : ℚ} {rowOffsets : List ℚ}

/-- The items of a group lie in it, one row under the other. -/
structure ItemsFit (group : GroupLayout ι) : Prop where
  count : group.itemPositions.length = if group.expanded = true then group.visibleItemCount else 0
  labels : group.itemPositions.map (fun item => (item.groupId, item.index)) =
    (List.range group.itemPositions.length).map fun index => (group.id, index)
  inside : ∀ item ∈ group.itemPositions, group.x ≤ item.x ∧ item.x ≤ group.toRect.right ∧
    group.y ≤ item.y ∧ item.y + itemHeight ≤ group.toRect.bottom
  rows : group.itemPositions.Pairwise fun item item' => item.y + itemHeight < item'.y

theorem mem_itemPositions {group : NormalizedGroup ι} {index : Nat} {item : VisibleItemPosition ι}
    (h : item ∈ (groupLayout groupRegion columns columnWidth rowOffsets group index).itemPositions) :
    group.expanded = true ∧ ∃ itemIndex < group.visibleItemCount,
      item = itemPosition (groupLayout groupRegion columns columnWidth rowOffsets group index).toRect
        group.id itemIndex := by
  unfold groupLayout at h
  dsimp only at h
  split at h
  · rename_i hexpanded
    obtain ⟨itemIndex, hindex, rfl⟩ := List.mem_map.mp h
    exact ⟨hexpanded, itemIndex, List.mem_range.mp hindex, rfl⟩
  · cases h

/-- The row of an item ends a padding above the end of the group. -/
theorem itemRow_bottom {group : NormalizedGroup ι} {itemIndex : Nat}
    (hexpanded : group.expanded = true) (h : itemIndex < group.visibleItemCount) :
    groupHeaderHeight + groupVerticalPadding + itemIndex * (itemHeight + itemGap) + itemHeight +
      groupVerticalPadding ≤ groupHeight group := by
  have hcast : (itemIndex : ℚ) + 1 ≤ group.visibleItemCount := by exact_mod_cast h
  unfold groupHeight
  rw [if_neg (by simp [hexpanded]; omega)]
  norm_num [groupVerticalPadding, groupHeaderHeight, itemHeight, itemGap]
  linarith

theorem groupLayout_items (hwidth : groupVerticalPadding ≤ columnWidth) (group : NormalizedGroup ι)
    (index : Nat) :
    ItemsFit (groupLayout groupRegion columns columnWidth rowOffsets group index) := by
  refine ⟨?_, ?_, ?_, ?_⟩
  · unfold groupLayout
    dsimp only
    split
    · simp
    · rfl
  · unfold groupLayout
    dsimp only
    split
    · rw [List.map_map, List.length_map, List.length_range]
      rfl
    · rfl
  · intro item hitem
    obtain ⟨hexpanded, itemIndex, hindex, rfl⟩ := mem_itemPositions hitem
    have hbottom := itemRow_bottom hexpanded hindex
    have hrow : (0 : ℚ) ≤ itemIndex := Nat.cast_nonneg itemIndex
    have hpadding : 0 ≤ groupVerticalPadding := show (0 : ℚ) ≤ 16 by norm_num
    unfold groupLayout itemPosition Rect.right Rect.bottom
    dsimp only
    refine ⟨?_, ?_, ?_, ?_⟩
    · norm_num [groupVerticalPadding]
    · linarith
    · norm_num [groupVerticalPadding, groupHeaderHeight, itemHeight, itemGap]
      linarith
    · linarith
  · unfold groupLayout
    dsimp only
    split
    · rw [List.pairwise_map]
      refine List.pairwise_lt_range.imp ?_
      intro itemIndex itemIndex' hlt
      have hcast : (itemIndex : ℚ) + 1 ≤ itemIndex' := by exact_mod_cast hlt
      unfold itemPosition
      norm_num [groupVerticalPadding, groupHeaderHeight, itemHeight, itemGap]
      linarith
    · exact List.Pairwise.nil

end

/-! ## §9  Nothing overlaps -/

/-- The group a rectangle is for. -/
def GroupRectangle.group {ι : Type} (rect : GroupRectangle ι) : NormalizedGroup ι where
  id := rect.id
  visibleItemCount := rect.visibleItemCount
  totalLoadedCount := rect.totalLoadedCount
  expanded := rect.expanded

structure NeverOverlaps {ι : Type} (input : LayoutInput ι) (layout : Layout ι) : Prop where
  parents_given : layout.parentPositions.map ParentPosition.index =
    List.range (nonNegativeCount input.parentCount)
  groups_given : (layout.groupRectangles.map GroupRectangle.group).Perm
    (input.groups.map normalizeGroup)
  positive : ∀ rect ∈ layout.parentPositions.map ParentPosition.rect ++ layout.focusRect ::
    layout.groupRectangles.map GroupRectangle.toRect, 0 < rect.width ∧ 0 < rect.height
  apart : (layout.parentPositions.map ParentPosition.rect ++ layout.focusRect ::
    layout.groupRectangles.map GroupRectangle.toRect).Pairwise Rect.Apart
  disjoint : (layout.parentPositions.map ParentPosition.rect ++ layout.focusRect ::
    layout.groupRectangles.map GroupRectangle.toRect).Pairwise fun r s => ∀ p ∈ r.points, p ∉ s.points
  parents_inside : ∀ parent ∈ layout.parentPositions, parent.rect.Inside layout.parentRegion
  focus_inside : layout.focusRect.Inside layout.focusRegion
  groups_inside : ∀ group ∈ layout.groupRectangles, group.toRect.Inside layout.groupRegion
  regions_apart : [layout.parentRegion, layout.focusRegion, layout.groupRegion].Pairwise Rect.Apart
  regions_inside : ∀ region ∈ [layout.parentRegion, layout.focusRegion, layout.groupRegion],
    region.Inside ⟨0, 0, layout.canvasWidth, layout.requiredCanvasHeight⟩
  groups_same : layout.groups.map GroupLayout.toGroupRectangle = layout.groupRectangles
  items : ∀ group ∈ layout.groups, ItemsFit group
  collapsed : ∀ group ∈ layout.groups, group.expanded = false → group.itemPositions = []

section

variable {ι : Type} [LinearOrder ι] (input : LayoutInput ι)

/-- The groups in the order they are placed in. -/
def sortedGroups : List (NormalizedGroup ι) :=
  (input.groups.map normalizeGroup).insertionSort fun left right => compareGroups left right ≤ 0

def placedColumns : Nat := groupColumnCount (sortedGroups input).length

def placedHeights : List ℚ := rowHeightsOf (placedColumns input) (sortedGroups input)

/-- Where there is a group there is a column. -/
theorem placed_of_ne_nil (h : sortedGroups input ≠ []) :
    Placed (sortedGroups input) (placedColumns input) (placedHeights input) := by
  have hcolumns : 0 < placedColumns input := by
    apply Nat.lt_min.mpr
    exact ⟨by decide, List.length_pos_iff.mpr h⟩
  exact ⟨hcolumns, Nat.min_le_left _ _, rowHeightsOf_rows hcolumns _⟩

theorem placed_of_mem {entry : NormalizedGroup ι × Nat}
    (h : entry ∈ (sortedGroups input).zipIdx) :
    Placed (sortedGroups input) (placedColumns input) (placedHeights input) :=
  placed_of_ne_nil input (List.ne_nil_of_mem (List.fst_mem_of_mem_zipIdx h))

theorem placedHeights_nonneg : ∀ height ∈ placedHeights input, 0 ≤ height := by
  by_cases h : sortedGroups input = []
  · unfold placedHeights
    rw [h]
    intro height hheight
    cases hheight
  · exact (placed_of_ne_nil input h).rows.nonneg

theorem parentRegionHeight_nonneg (parentCount : Nat) : 0 ≤ parentRegionHeight parentCount := by
  unfold parentRegionHeight
  dsimp only
  split
  · exact show (0 : ℚ) ≤ 64 by norm_num
  · have hrows := mul_nonneg (Nat.cast_nonneg (rowsFor parentCount parentColumns))
      (show (0 : ℚ) ≤ nodeHeight from show (0 : ℚ) ≤ 64 by norm_num)
    have hgaps := mul_nonneg (le_max_left 0 ((rowsFor parentCount parentColumns : ℚ) - 1))
      (show (0 : ℚ) ≤ regionGap from show (0 : ℚ) ≤ 24 by norm_num)
    exact add_nonneg hrows hgaps

theorem groupRegion_height : (layoutTopologyHierarchy input).groupRegion.height =
    Shelves.total (placedHeights input) groupGap := by
  unfold Shelves.total
  rw [List.sum_eq_foldl]
  rfl

theorem parentPositions_eq : (layoutTopologyHierarchy input).parentPositions =
    (List.range (nonNegativeCount input.parentCount)).map
      (parentPosition (layoutTopologyHierarchy input).parentRegion
        (nonNegativeCount input.parentCount)) := rfl

theorem groups_eq : (layoutTopologyHierarchy input).groups = (sortedGroups input).zipIdx.map
    fun entry => groupLayout (layoutTopologyHierarchy input).groupRegion (placedColumns input)
      (groupColumnWidth (placedColumns input)) (rowOffsetsOf (placedHeights input)) entry.1
        entry.2 := by
  have hwidth : ∀ entry ∈ (sortedGroups input).zipIdx,
      (if placedColumns input = 0 then regionWidth else groupColumnWidth (placedColumns input)) =
        groupColumnWidth (placedColumns input) := by
    intro entry hentry
    exact if_neg (Nat.ne_of_gt (placed_of_mem input hentry).columns_pos)
  apply List.map_congr_left
  intro entry hentry
  rw [← hwidth entry hentry]
  rfl

theorem mem_groups {group : GroupLayout ι} (h : group ∈ (layoutTopologyHierarchy input).groups) :
    ∃ entry ∈ (sortedGroups input).zipIdx,
      group = groupLayout (layoutTopologyHierarchy input).groupRegion (placedColumns input)
        (groupColumnWidth (placedColumns input)) (rowOffsetsOf (placedHeights input)) entry.1
          entry.2 := by
  rw [groups_eq] at h
  obtain ⟨entry, hentry, rfl⟩ := List.mem_map.mp h
  exact ⟨entry, hentry, rfl⟩

/-- One region ends above the next one, all of them at the padding from the sides. -/
theorem regions_in_turn :
    (layoutTopologyHierarchy input).parentRegion.bottom <
        (layoutTopologyHierarchy input).focusRegion.y ∧
      (layoutTopologyHierarchy input).focusRegion.bottom <
        (layoutTopologyHierarchy input).groupRegion.y ∧
      (layoutTopologyHierarchy input).groupRegion.bottom <
        (layoutTopologyHierarchy input).requiredCanvasHeight := by
  have hgap : (0 : ℚ) < regionGap := show (0 : ℚ) < 24 by norm_num
  refine ⟨lt_add_of_pos_right _ hgap, lt_add_of_pos_right _ hgap, ?_⟩
  refine lt_of_lt_of_le ?_ (le_max_right _ _)
  exact lt_add_of_pos_right _ (show (0 : ℚ) < 24 by norm_num)

theorem groupRegion_nonneg : 0 ≤ (layoutTopologyHierarchy input).groupRegion.height := by
  rw [groupRegion_height]
  exact Shelves.total_nonneg (placedHeights_nonneg input) (show (0 : ℚ) ≤ 16 by norm_num)

theorem focusRect_inside : (layoutTopologyHierarchy input).focusRect.Inside
    (layoutTopologyHierarchy input).focusRegion := by
  refine ⟨?_, ?_, le_refl _, le_refl _⟩
  · exact show canvasPadding ≤ (canvasWidth - nodeWidth) / 2 by
      norm_num [canvasPadding, canvasWidth, nodeWidth]
  · exact show (canvasWidth - nodeWidth) / 2 + nodeWidth ≤ canvasPadding + regionWidth by
      norm_num [canvasPadding, regionWidth, canvasWidth, nodeWidth]

theorem parents_inside : ∀ parent ∈ (layoutTopologyHierarchy input).parentPositions,
    parent.rect.Inside (layoutTopologyHierarchy input).parentRegion := by
  rw [parentPositions_eq]
  intro parent hparent
  obtain ⟨index, hindex, rfl⟩ := List.mem_map.mp hparent
  exact parentPosition_inside rfl rfl rfl (List.mem_range.mp hindex)

theorem groups_inside : ∀ group ∈ (layoutTopologyHierarchy input).groups,
    group.toRect.Inside (layoutTopologyHierarchy input).groupRegion := by
  intro group hgroup
  obtain ⟨entry, hentry, rfl⟩ := mem_groups input hgroup
  exact (placed_of_mem input hentry).inside rfl (groupRegion_height input) hentry

theorem regions_apart : [(layoutTopologyHierarchy input).parentRegion,
    (layoutTopologyHierarchy input).focusRegion,
    (layoutTopologyHierarchy input).groupRegion].Pairwise Rect.Apart := by
  obtain ⟨hparent, hfocus, _⟩ := regions_in_turn input
  have hheight : (layoutTopologyHierarchy input).focusRegion.y ≤
      (layoutTopologyHierarchy input).focusRegion.bottom :=
    le_add_of_nonneg_right (show (0 : ℚ) ≤ 64 by norm_num)
  simp only [List.pairwise_cons, List.mem_cons, List.not_mem_nil, or_false, forall_eq_or_imp,
    forall_eq, List.Pairwise.nil, and_true, IsEmpty.forall_iff, implies_true]
  refine ⟨⟨?_, ?_⟩, ?_⟩
  · exact Or.inr (Or.inr (Or.inl hparent))
  · exact Or.inr (Or.inr (Or.inl (hparent.trans (hheight.trans_lt hfocus))))
  · exact Or.inr (Or.inr (Or.inl hfocus))

theorem regions_inside : ∀ region ∈ [(layoutTopologyHierarchy input).parentRegion,
    (layoutTopologyHierarchy input).focusRegion, (layoutTopologyHierarchy input).groupRegion],
    region.Inside ⟨0, 0, (layoutTopologyHierarchy input).canvasWidth,
      (layoutTopologyHierarchy input).requiredCanvasHeight⟩ := by
  obtain ⟨hparent, hfocus, hgroup⟩ := regions_in_turn input
  have hleft : (0 : ℚ) ≤ canvasPadding := show (0 : ℚ) ≤ 24 by norm_num
  have hright : canvasPadding + regionWidth ≤ 0 + canvasWidth := by
    norm_num [canvasPadding, regionWidth, canvasWidth]
  have hheight : (layoutTopologyHierarchy input).parentRegion.y ≤
      (layoutTopologyHierarchy input).parentRegion.bottom :=
    le_add_of_nonneg_right (parentRegionHeight_nonneg _)
  have hheight' : (layoutTopologyHierarchy input).focusRegion.y ≤
      (layoutTopologyHierarchy input).focusRegion.bottom :=
    le_add_of_nonneg_right (show (0 : ℚ) ≤ 64 by norm_num)
  have hheight'' : (layoutTopologyHierarchy input).groupRegion.y ≤
      (layoutTopologyHierarchy input).groupRegion.bottom :=
    le_add_of_nonneg_right (groupRegion_nonneg input)
  have htop : (0 : ℚ) ≤ (layoutTopologyHierarchy input).parentRegion.y := hleft
  have hend : (⟨0, 0, (layoutTopologyHierarchy input).canvasWidth,
      (layoutTopologyHierarchy input).requiredCanvasHeight⟩ : Rect ℚ).bottom =
        (layoutTopologyHierarchy input).requiredCanvasHeight := zero_add _
  intro region hregion
  rcases List.mem_cons.mp hregion with rfl | hregion
  · refine ⟨hleft, hright, htop, ?_⟩
    rw [hend]
    linarith
  rcases List.mem_cons.mp hregion with rfl | hregion
  · refine ⟨hleft, hright, ?_, ?_⟩
    · show 0 ≤ (layoutTopologyHierarchy input).focusRegion.y
      linarith
    · rw [hend]
      linarith
  rw [List.mem_singleton.mp hregion]
  refine ⟨hleft, hright, ?_, ?_⟩
  · show 0 ≤ (layoutTopologyHierarchy input).groupRegion.y
    linarith
  · rw [hend]
    exact hgroup.le

theorem parents_apart : ((layoutTopologyHierarchy input).parentPositions.map
    ParentPosition.rect).Pairwise Rect.Apart := by
  rw [parentPositions_eq, List.map_map, List.pairwise_map]
  refine List.pairwise_lt_range.imp_of_mem ?_
  intro index index' hindex hindex' hlt
  exact parentPosition_apart _ (List.mem_range.mp hindex) (List.mem_range.mp hindex') (ne_of_lt hlt)

theorem groups_apart : ((layoutTopologyHierarchy input).groups.map fun group =>
    group.toRect).Pairwise Rect.Apart := by
  have hindices : (sortedGroups input).zipIdx.Pairwise fun entry entry' => entry.2 < entry'.2 := by
    rw [← List.pairwise_map, List.zipIdx_map_snd]
    exact List.pairwise_lt_range'
  rw [groups_eq, List.map_map, List.pairwise_map]
  refine hindices.imp_of_mem ?_
  intro entry entry' hentry hentry' hlt
  exact (placed_of_mem input hentry).apart _ hentry hentry' (ne_of_lt hlt)

/-- Parents, the focus and groups stand apart, those of one kind and those of different kinds. -/
theorem rectangles_apart : ((layoutTopologyHierarchy input).parentPositions.map
    ParentPosition.rect ++ (layoutTopologyHierarchy input).focusRect ::
      (layoutTopologyHierarchy input).groups.map fun group => group.toRect).Pairwise
        Rect.Apart := by
  have hregions := regions_apart input
  simp only [List.pairwise_cons, List.mem_cons, List.not_mem_nil, or_false, forall_eq_or_imp,
    forall_eq, List.Pairwise.nil, and_true, IsEmpty.forall_iff, implies_true] at hregions
  obtain ⟨⟨hfocus, hgroups⟩, hfocusGroups⟩ := hregions
  rw [List.pairwise_append, List.pairwise_cons]
  refine ⟨parents_apart input, ⟨?_, groups_apart input⟩, ?_⟩
  · intro rect hrect
    obtain ⟨group, hgroup, rfl⟩ := List.mem_map.mp hrect
    exact hfocusGroups.inside (focusRect_inside input) (groups_inside input group hgroup)
  · intro rect hrect rect' hrect'
    obtain ⟨parent, hparent, rfl⟩ := List.mem_map.mp hrect
    have hinside := parents_inside input parent hparent
    rcases List.mem_cons.mp hrect' with rfl | hrect'
    · exact hfocus.inside hinside (focusRect_inside input)
    · obtain ⟨group, hgroup, rfl⟩ := List.mem_map.mp hrect'
      exact hgroups.inside hinside (groups_inside input group hgroup)

theorem rectangles_positive : ∀ rect ∈ (layoutTopologyHierarchy input).parentPositions.map
    ParentPosition.rect ++ (layoutTopologyHierarchy input).focusRect ::
      (layoutTopologyHierarchy input).groups.map fun group => group.toRect,
    0 < rect.width ∧ 0 < rect.height := by
  have hnode : (0 : ℚ) < nodeWidth ∧ (0 : ℚ) < nodeHeight :=
    ⟨show (0 : ℚ) < 136 by norm_num, show (0 : ℚ) < 64 by norm_num⟩
  intro rect hrect
  rcases List.mem_append.mp hrect with hrect | hrect
  · rw [parentPositions_eq, List.map_map] at hrect
    obtain ⟨index, _, rfl⟩ := List.mem_map.mp hrect
    exact hnode
  rcases List.mem_cons.mp hrect with rfl | hrect
  · exact hnode
  · obtain ⟨group, hgroup, rfl⟩ := List.mem_map.mp hrect
    obtain ⟨entry, hentry, rfl⟩ := mem_groups input hgroup
    have hplaced := placed_of_mem input hentry
    exact ⟨groupColumnWidth_pos hplaced.columns_pos hplaced.columns_le, groupHeight_pos entry.1⟩

theorem items_fit : ∀ group ∈ (layoutTopologyHierarchy input).groups, ItemsFit group := by
  intro group hgroup
  obtain ⟨entry, hentry, rfl⟩ := mem_groups input hgroup
  have hplaced := placed_of_mem input hentry
  exact groupLayout_items (groupColumnWidth_wide hplaced.columns_pos hplaced.columns_le) _ _

theorem groupRectangles_rects : (layoutTopologyHierarchy input).groupRectangles.map
    GroupRectangle.toRect = (layoutTopologyHierarchy input).groups.map fun group => group.toRect := by
  show ((layoutTopologyHierarchy input).groups.map GroupLayout.toGroupRectangle).map _ = _
  rw [List.map_map]
  rfl

/-- Each group of the input has its rectangle, with its counts and whether it is expanded. -/
theorem groups_given : ((layoutTopologyHierarchy input).groupRectangles.map
    GroupRectangle.group).Perm (input.groups.map normalizeGroup) := by
  have hgroup : ∀ entry : NormalizedGroup ι × Nat,
      (groupLayout (layoutTopologyHierarchy input).groupRegion (placedColumns input)
        (groupColumnWidth (placedColumns input)) (rowOffsetsOf (placedHeights input)) entry.1
          entry.2).toGroupRectangle.group = entry.1 := fun _ => rfl
  have hsorted : (layoutTopologyHierarchy input).groupRectangles.map GroupRectangle.group =
      sortedGroups input := by
    show ((layoutTopologyHierarchy input).groups.map GroupLayout.toGroupRectangle).map _ = _
    rw [groups_eq, List.map_map, List.map_map]
    refine Eq.trans (List.map_congr_left fun entry _ => hgroup entry) ?_
    exact List.zipIdx_map_fst 0 _
  rw [hsorted]
  exact List.perm_insertionSort _ _

theorem neverOverlaps : NeverOverlaps input (layoutTopologyHierarchy input) where
  parents_given := by
    rw [parentPositions_eq, List.map_map]
    exact List.map_id _
  groups_given := groups_given input
  positive := by
    rw [groupRectangles_rects]
    exact rectangles_positive input
  apart := by
    rw [groupRectangles_rects]
    exact rectangles_apart input
  disjoint := by
    rw [groupRectangles_rects]
    exact (rectangles_apart input).imp Rect.Apart.disjoint
  parents_inside := parents_inside input
  focus_inside := focusRect_inside input
  groups_inside := by
    intro group hgroup
    obtain ⟨groupLayout, hlayout, rfl⟩ := List.mem_map.mp hgroup
    exact groups_inside input groupLayout hlayout
  regions_apart := regions_apart input
  regions_inside := regions_inside input
  groups_same := rfl
  items := items_fit input
  collapsed := by
    intro group hgroup hexpanded
    have hcount := (items_fit input group hgroup).count
    rw [hexpanded, if_neg Bool.false_ne_true] at hcount
    exact List.length_eq_zero_iff.mp hcount

end

/-- Nothing overlaps, whatever the counts are, and the order of the groups changes nothing. -/
theorem layoutTopologyHierarchy_never_overlaps {ι : Type} [LinearOrder ι] :
    (∀ input : LayoutInput ι, NeverOverlaps input (layoutTopologyHierarchy input)) ∧
      ∀ (parentCount : ℚ) (groups groups' : List (GroupInput ι)), groups.Perm groups' →
        layoutTopologyHierarchy ⟨parentCount, groups⟩ =
          layoutTopologyHierarchy ⟨parentCount, groups'⟩ :=
  ⟨neverOverlaps, fun parentCount _ _ h => layoutTopologyHierarchy_perm parentCount h⟩

end TopologyHierarchy

end NextInfra
