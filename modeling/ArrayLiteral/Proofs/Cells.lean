import Mathlib
import ArrayLiteral.Draft

/-!
# Cells and costs as natural numbers

Values are counted and fills are priced in 64-bit words that saturate.  This
file gives the exact numbers behind these words.  `Value.cells` is the exact
count, and `totalCells` adds it up over a list.  Every saturating result is the
exact one, or the largest word if the exact one is no less:
`toNat_saturatedCells` for the count and `toNat_fillCost` for the price.
-/

namespace ArrayLiteral

/-! ## The cells of a list of values -/

/-- The number of cells of all values in a list. -/
def totalCells (values : List Value) : Nat :=
  (values.map Value.cells).sum

@[simp] theorem totalCells_nil : totalCells [] = 0 := rfl

@[simp] theorem totalCells_cons (value : Value) (values : List Value) :
    totalCells (value :: values) = value.cells + totalCells values := by
  simp [totalCells]

@[simp] theorem totalCells_append (front back : List Value) :
    totalCells (front ++ back) = totalCells front + totalCells back := by
  simp [totalCells]

@[simp] theorem totalCells_replicate (count : Nat) (value : Value) :
    totalCells (List.replicate count value) = count * value.cells := by
  simp [totalCells]

theorem cells_array_eq (elements : List Value) :
    (Value.array elements).cells = 1 + totalCells elements :=
  Value.cells_array elements

/-- Every value takes a cell at least. -/
theorem length_le_totalCells (values : List Value) : values.length ≤ totalCells values := by
  induction values with
  | nil => simp
  | cons value values ih =>
    have := value.cells_pos
    rw [List.length_cons, totalCells_cons]
    omega

theorem cells_le_totalCells {value : Value} {values : List Value} (h : value ∈ values) :
    value.cells ≤ totalCells values := by
  induction values with
  | nil => simp at h
  | cons head values ih =>
    rw [totalCells_cons]
    rcases List.mem_cons.1 h with rfl | hmem
    · omega
    · have := ih hmem
      omega

/-! ## Saturation -/

private theorem toNat_foldl_saturatedCells {elements : List Value}
    (ih : ∀ element ∈ elements,
      element.saturatedCells.toNat = min maxWord.toNat element.cells) (start : UInt64) :
    ((elements.map Value.saturatedCells).foldl satAdd start).toNat =
      min maxWord.toNat (start.toNat + totalCells elements) := by
  induction elements generalizing start with
  | nil =>
    have := toNat_le_maxWord start
    simp only [List.map_nil, List.foldl_nil, totalCells_nil]
    omega
  | cons element elements ihlist =>
    have hhead := ih element (List.mem_cons_self ..)
    rw [List.map_cons, List.foldl_cons,
      ihlist fun other hmem => ih other (List.mem_cons_of_mem _ hmem),
      toNat_satAdd, hhead, totalCells_cons]
    omega

/-- The word is the exact number of cells, unless that lies beyond the words. -/
theorem toNat_saturatedCells (value : Value) :
    value.saturatedCells.toNat = min maxWord.toNat value.cells := by
  induction value using Value.induction with
  | integer => rw [Value.saturatedCells_integer, Value.cells_integer]; rfl
  | array elements ih =>
    rw [Value.saturatedCells_array, toNat_foldl_saturatedCells ih, cells_array_eq]
    rfl

/-- Saturating the factors first does not change a saturating product, as long
as neither factor is zero. -/
theorem min_mul_min (bound : Nat) {width count : Nat} (hwidth : 0 < width) (hcount : 0 < count) :
    min bound (min bound width * min bound count) = min bound (width * count) := by
  have hwidthLe : width ≤ width * count := Nat.le_mul_of_pos_right width hcount
  have hcountLe : count ≤ width * count := Nat.le_mul_of_pos_left count hwidth
  by_cases hw : width ≤ bound
  · rw [Nat.min_eq_right hw]
    by_cases hc : count ≤ bound
    · rw [Nat.min_eq_right hc]
    · have hprod : bound ≤ width * bound := Nat.le_mul_of_pos_left bound hwidth
      rw [Nat.min_eq_left (by omega : bound ≤ count)]
      omega
  · rw [Nat.min_eq_left (by omega : bound ≤ width)]
    by_cases hzero : bound = 0
    · subst hzero
      simp
    · have hprod : bound ≤ bound * min bound count :=
        Nat.le_mul_of_pos_right bound (by omega)
      omega

/-- The price of a fill is the zeros below its range and the cells of the value
for every index in the range, unless that lies beyond the words. -/
theorem toNat_fillCost (draft : Draft) (start stop : UInt64) (value : Value)
    (hsize : draft.elements.size ≤ maxWord.toNat) :
    (draft.fillCost start stop value).toNat =
      min maxWord.toNat ((min start.toNat stop.toNat - draft.elements.size) +
        (max start.toNat stop.toNat - min start.toNat stop.toNat + 1) * value.cells) := by
  have hsizeWord : (UInt64.ofNat draft.elements.size).toNat = draft.elements.size :=
    UInt64.toNat_ofNat_of_lt (Nat.lt_succ_of_le hsize)
  have horder : min start stop ≤ max start stop := by
    rw [UInt64.le_iff_toNat_le, toNat_min, toNat_max]
    omega
  have hone : (1 : UInt64).toNat = 1 := rfl
  have hprod := min_mul_min maxWord.toNat
    (Nat.succ_pos (max start.toNat stop.toNat - min start.toNat stop.toNat)) value.cells_pos
  rw [Nat.succ_eq_add_one] at hprod
  rw [Draft.fillCost, toNat_satAdd, toNat_satMul, toNat_satSub, toNat_satAdd,
    toNat_saturatedCells, UInt64.toNat_sub_of_le _ _ horder, hsizeWord, hone, toNat_min,
    toNat_max, hprod]
  omega

/-- What saturates is the exact number, clamped to the words. This is so for the cells of every
value, and for the price of every fill: the zeros between the end of the draft and the range,
and the cells of the value for every index in the range, whose bounds may come in either order.
Nothing wraps around on the way. The size as a word and the difference of the bounds are exact,
and all other steps saturate. -/
theorem saturation_clamps_exact_counts :
    (∀ value : Value, value.saturatedCells.toNat = min (2 ^ 64 - 1) value.cells) ∧
    ∀ (draft : Draft) (start stop : UInt64) (value : Value), draft.elements.size < 2 ^ 64 →
      let size : Int := draft.elements.size
      let lowest : Int := min start.toNat stop.toNat
      let distance : Int := |(start.toNat : Int) - stop.toNat|
      ((UInt64.ofNat draft.elements.size).toNat : Int) = size ∧
      ((max start stop - min start stop).toNat : Int) = distance ∧
      ((draft.fillCost start stop value).toNat : Int) =
        min (2 ^ 64 - 1) (max 0 (lowest - size) + (distance + 1) * value.cells) := by
  refine ⟨fun value => ?_, fun draft start stop value hsize => ?_⟩
  · rw [toNat_saturatedCells, toNat_maxWord]
    rfl
  · intro size lowest distance
    have hdistance : distance =
        ((max start.toNat stop.toNat - min start.toNat stop.toNat : Nat) : Int) := by
      show |(start.toNat : Int) - stop.toNat| = _
      rw [Int.abs_eq_natAbs]
      omega
    have horder : min start stop ≤ max start stop := by
      rw [UInt64.le_iff_toNat_le, toNat_min, toNat_max]
      omega
    refine ⟨?_, ?_, ?_⟩
    · exact congrArg Nat.cast (UInt64.toNat_ofNat_of_lt hsize)
    · rw [UInt64.toNat_sub_of_le _ _ horder, toNat_min, toNat_max, hdistance]
    · have hprice := toNat_fillCost draft start stop value (Nat.le_of_lt_succ hsize)
      rw [toNat_maxWord] at hprice
      -- The product is a number like any other from here on.
      have hproduct : (distance + 1) * value.cells =
          (((max start.toNat stop.toNat - min start.toNat stop.toNat + 1) * value.cells : Nat) :
            Int) := by
        rw [hdistance]
        push_cast
        rfl
      rw [hprice, hproduct]
      omega

/-- Over all indices there are, counted down, even the width is beyond the words. -/
theorem saturation_clamps_exact_counts_widest :
    Draft.empty.elements.size < 2 ^ 64 ∧
    (Draft.empty.fillCost maxWord 0 (.array [.integer 7, .integer 8])).toNat = 2 ^ 64 - 1 := by
  have hsize : Draft.empty.elements.size < 2 ^ 64 := by decide
  obtain ⟨-, -, hprice⟩ :=
    saturation_clamps_exact_counts.2 Draft.empty maxWord 0 (.array [.integer 7, .integer 8]) hsize
  have hcells : (Value.array [.integer 7, .integer 8]).cells = 3 := by simp
  have hend : (0 : UInt64).toNat = 0 := rfl
  rw [hcells, toNat_maxWord, hend] at hprice
  refine ⟨hsize, ?_⟩
  norm_num at hprice
  omega

end ArrayLiteral
