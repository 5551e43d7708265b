import ArrayLiteral.Designator
import ArrayLiteral.Value

/-!
# Arrays under construction

A draft is an array to which values are still being written, in any order.
`append` writes behind the last cell.  `fill` writes one value to every index
between two bounds, and first fills what lies below them with zeros.  Where two
writes meet, the later one wins.  `size_fill` and `getElem?_fill` say this of
the elements.

`fillCost` is the number of cells that a fill writes, zeros below the range
included, as a saturating 64-bit word.  `write` and `writeCost` are the same for
an initializer, which appends without a designator and fills with one.
-/

namespace ArrayLiteral

structure Draft where
  elements : Array Value

namespace Draft

def empty : Draft :=
  { elements := #[] }

/-- The finished array. -/
def toValue (draft : Draft) : Value :=
  .array draft.elements.toList

/-- Writes a value behind the last cell. -/
def append (draft : Draft) (value : Value) : Draft :=
  { elements := draft.elements.push value }

/-- Appends zeros up to a size. There is no limit to what a draft holds, as there would be
for an array in memory. -/
def padTo (draft : Draft) (size : Nat) : Draft :=
  { elements := draft.elements ++ Array.replicate (size - draft.elements.size) Value.zero }

/-- Writes a value to the `count` indices from `first` on that exist. -/
def overwrite (draft : Draft) (first : Nat) (value : Value) : (count : Nat) → Draft
  | 0 => draft
  | count + 1 =>
    overwrite { elements := draft.elements.setIfInBounds first value } (first + 1) value count

/-- Writes a value to every index from the lower to the higher of two bounds. The bounds
are words, but `last + 1` is no word: it is one more than the highest index at 2^64 - 1
too. -/
def fill (draft : Draft) (start stop : UInt64) (value : Value) : Draft :=
  let first := (min start stop).toNat
  let last := (max start stop).toNat
  (draft.padTo (last + 1)).overwrite first value (last + 1 - first)

/-- The cells that `fill` writes: zeros below the range, and the cells of the
value for every index in it. -/
def fillCost (draft : Draft) (start stop : UInt64) (value : Value) : UInt64 :=
  let first := min start stop
  let last := max start stop
  let gap := satSub first (.ofNat draft.elements.size)
  let width := satAdd (last - first) 1
  satAdd (satMul width value.saturatedCells) gap

/-- Appends the value of an initializer, or fills the indices of its designator. -/
def write (draft : Draft) (item : Initializer Value) : Draft :=
  match item.designator? with
  | none => draft.append item.value
  | some designator => draft.fill designator.first designator.last item.value

/-- What it costs to write an initializer. Appending costs 1 whatever the value
is, for the cells in it were paid for when they were written. -/
def writeCost (draft : Draft) (item : Initializer Value) : UInt64 :=
  match item.designator? with
  | none => 1
  | some designator => draft.fillCost designator.first designator.last item.value

/-! ## The elements after a write -/

@[simp] theorem toList_append (draft : Draft) (value : Value) :
    (draft.append value).elements.toList = draft.elements.toList ++ [value] := by
  simp [append]

@[simp] theorem size_append (draft : Draft) (value : Value) :
    (draft.append value).elements.size = draft.elements.size + 1 := by
  simp [append]

@[simp] theorem size_padTo (draft : Draft) (size : Nat) :
    (draft.padTo size).elements.size = max draft.elements.size size := by
  simp only [padTo, Array.size_append, Array.size_replicate]
  omega

@[simp] theorem size_overwrite (draft : Draft) (first count : Nat) (value : Value) :
    (draft.overwrite first value count).elements.size = draft.elements.size := by
  induction count generalizing draft first with
  | zero => rfl
  | succ count ih =>
    rw [overwrite, ih]
    exact Array.size_setIfInBounds

/-- Padding adds zeros and changes no cell. -/
theorem getElem?_padTo (draft : Draft) (size index : Nat) :
    (draft.padTo size).elements[index]? =
      if draft.elements.size ≤ index ∧ index < size then some .zero
      else draft.elements[index]? := by
  rw [padTo, Array.getElem?_append, Array.getElem?_replicate]
  by_cases hold : index < draft.elements.size
  · rw [if_pos hold, if_neg (by omega)]
  · rw [if_neg hold]
    by_cases hsize : index < size
    · rw [if_pos (by omega), if_pos (by omega)]
    · rw [if_neg (by omega), if_neg (by omega), Array.getElem?_eq_none (by omega)]

/-- Overwriting changes the cells it names that exist, and no other. -/
theorem getElem?_overwrite (draft : Draft) (first count index : Nat) (value : Value) :
    (draft.overwrite first value count).elements[index]? =
      if first ≤ index ∧ index < first + count ∧ index < draft.elements.size then some value
      else draft.elements[index]? := by
  induction count generalizing draft first with
  | zero =>
    rw [if_neg (by omega)]
    rfl
  | succ count ih =>
    rw [overwrite, ih, Array.getElem?_setIfInBounds]
    dsimp only
    rw [Array.size_setIfInBounds]
    by_cases hfirst : first = index
    · subst hfirst
      rw [if_neg (by omega), if_pos rfl]
      by_cases hsize : first < draft.elements.size
      · rw [if_pos hsize, if_pos (by omega)]
      · rw [if_neg hsize, if_neg (by omega), Array.getElem?_eq_none (by omega)]
    · rw [if_neg hfirst]
      by_cases hin : first + 1 ≤ index ∧ index < first + 1 + count ∧ index < draft.elements.size
      · rw [if_pos hin, if_pos (by omega)]
      · rw [if_neg hin, if_neg (by omega)]

/-- A fill reaches up to the higher bound. -/
@[simp] theorem size_fill (draft : Draft) (start stop : UInt64) (value : Value) :
    (draft.fill start stop value).elements.size =
      max draft.elements.size ((max start stop).toNat + 1) := by
  rw [fill, size_overwrite, size_padTo]

/-- A fill changes the cells between its bounds, and adds zeros where it has to
grow to reach them. -/
theorem getElem?_fill (draft : Draft) (start stop : UInt64) (value : Value) (index : Nat) :
    (draft.fill start stop value).elements[index]? =
      if (min start stop).toNat ≤ index ∧ index ≤ (max start stop).toNat then some value
      else if draft.elements.size ≤ index ∧ index ≤ (max start stop).toNat then some .zero
      else draft.elements[index]? := by
  rw [fill, getElem?_overwrite, getElem?_padTo, size_padTo]
  by_cases hin : (min start stop).toNat ≤ index ∧ index ≤ (max start stop).toNat
  · rw [if_pos hin, if_pos (by omega)]
  · rw [if_neg hin, if_neg (by omega)]
    simp only [Nat.lt_succ_iff]

end Draft

end ArrayLiteral
