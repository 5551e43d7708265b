import Mathlib
import ArrayLiteral.Proofs.Materialize

/-!
# Edits of a draft

An edit appends a value to a draft, or fills all indices between two bounds.  After
any number of edits each cell holds the value of the last edit that covers its index,
or zero if there is none.

The index that an appended value goes to is the size that the edits in front led to.
So `Edit.Covers` is told a size, and `Untouched` and `LastWrites` find it in the edits
in front.  One edit is `getElem?_edit_of_covers` and `getElem?_edit_of_not_covers`, and
edits in a row are followed by taking the last one off.

A fill is priced before it is made, and by another function.  The two agree: the price
is exactly what the fill adds, apart from what it overwrites.  `sum_map_fill` says this
of any way to count.
-/

namespace ArrayLiteral

/-- One write to a draft. -/
inductive Edit
  | append (value : Value)
  /-- The bounds may be in either order. -/
  | fill (start stop : UInt64) (value : Value)

namespace Edit

def value : Edit → Value
  | append value => value
  | fill _ _ value => value

/-- The size after the edit, from the size before it. -/
def grow (size : Nat) : Edit → Nat
  | append _ => size + 1
  | fill start stop _ => max size (max start.toNat stop.toNat + 1)

/-- The edit writes its value to the index, where the draft has that size before. -/
def Covers (size index : Nat) : Edit → Prop
  | append _ => index = size
  | fill start stop _ =>
    min start.toNat stop.toNat ≤ index ∧ index ≤ max start.toNat stop.toNat

theorem lt_grow_of_covers {edit : Edit} {size index : Nat} (h : edit.Covers size index) :
    index < edit.grow size := by
  cases edit with
  | append value =>
    have hindex : index = size := h
    simp only [grow]
    omega
  | fill start stop value =>
    have hbounds : min start.toNat stop.toNat ≤ index ∧ index ≤ max start.toNat stop.toNat := h
    simp only [grow]
    omega

theorem le_grow (edit : Edit) (size : Nat) : size ≤ edit.grow size := by
  cases edit with
  | append value => exact Nat.le_succ size
  | fill start stop value => exact Nat.le_max_left _ _

end Edit

/-- The size that edits lead to, where nothing was written before them. -/
def sizeAfter (edits : List Edit) : Nat :=
  edits.foldl Edit.grow 0

/-- None of the edits in `back` covers the index, where those in `front` come before. -/
def Untouched (front back : List Edit) (index : Nat) : Prop :=
  ∀ between edit rest, back = between ++ edit :: rest →
    ¬ edit.Covers (sizeAfter (front ++ between)) index

/-- The value that is to be at an index after the edits. -/
inductive LastWrites (edits : List Edit) (index : Nat) : Value → Prop
  /-- An edit covers the index, and none behind it does. -/
  | written (front : List Edit) (edit : Edit) (back : List Edit)
      (hsplit : edits = front ++ edit :: back) (hcovers : edit.Covers (sizeAfter front) index)
      (hlast : Untouched (front ++ [edit]) back index) : LastWrites edits index edit.value
  /-- No edit covers the index. -/
  | never (h : Untouched [] edits index) : LastWrites edits index (.integer 0)

namespace Draft

def edit (draft : Draft) : Edit → Draft
  | .append value => draft.append value
  | .fill start stop value => draft.fill start stop value

/-- Makes edits one after the other. -/
def editAll (draft : Draft) (edits : List Edit) : Draft :=
  edits.foldl edit draft

end Draft

/-! ## One edit -/

section Edit

variable (draft : Draft) (edit : Edit) {index : Nat}

theorem size_edit : (draft.edit edit).elements.size = edit.grow draft.elements.size := by
  cases edit with
  | append value => exact draft.size_append value
  | fill start stop value =>
    show (draft.fill start stop value).elements.size = _
    rw [Draft.size_fill, toNat_max]
    rfl

theorem getElem?_edit_of_covers (h : edit.Covers draft.elements.size index) :
    (draft.edit edit).elements[index]? = some edit.value := by
  cases edit with
  | append value =>
    have hindex : index = draft.elements.size := h
    show (draft.elements.push value)[index]? = some value
    rw [hindex, Array.getElem?_push_size]
  | fill start stop value =>
    have hbounds : min start.toNat stop.toNat ≤ index ∧ index ≤ max start.toNat stop.toNat := h
    show (draft.fill start stop value).elements[index]? = some value
    rw [Draft.getElem?_fill, toNat_min, toNat_max, if_pos hbounds]

/-- What an edit does not cover stays as it was, or is a new zero. -/
theorem getElem?_edit_of_not_covers (h : ¬ edit.Covers draft.elements.size index) :
    (draft.edit edit).elements[index]? =
      if draft.elements.size ≤ index ∧ index < edit.grow draft.elements.size then some (.integer 0)
      else draft.elements[index]? := by
  cases edit with
  | append value =>
    have hindex : index ≠ draft.elements.size := h
    show (draft.elements.push value)[index]? = _
    rw [Array.getElem?_push, if_neg hindex, if_neg]
    simp only [Edit.grow]
    omega
  | fill start stop value =>
    have hbounds : ¬ (min start.toNat stop.toNat ≤ index ∧ index ≤ max start.toNat stop.toNat) := h
    have hgap : (draft.elements.size ≤ index ∧ index ≤ max start.toNat stop.toNat) ↔
        (draft.elements.size ≤ index ∧
          index < (Edit.fill start stop value).grow draft.elements.size) := by
      simp only [Edit.grow]
      omega
    show (draft.fill start stop value).elements[index]? = _
    rw [Draft.getElem?_fill, toNat_min, toNat_max, if_neg hbounds]
    simp only [hgap, Value.zero]

end Edit

/-! ## Edits in a row -/

section Edits

variable {front back edits : List Edit} {edit : Edit} {index : Nat}

theorem sizeAfter_snoc (edits : List Edit) (edit : Edit) :
    sizeAfter (edits ++ [edit]) = edit.grow (sizeAfter edits) := by
  rw [sizeAfter, List.foldl_append]
  rfl

theorem editAll_snoc (draft : Draft) (edits : List Edit) (edit : Edit) :
    draft.editAll (edits ++ [edit]) = (draft.editAll edits).edit edit := by
  rw [Draft.editAll, List.foldl_append]
  rfl

theorem size_editAll (edits : List Edit) :
    (Draft.empty.editAll edits).elements.size = sizeAfter edits := by
  induction edits using List.reverseRecOn with
  | nil => rfl
  | append_singleton edits edit ih => rw [editAll_snoc, size_edit, ih, sizeAfter_snoc]

theorem sizeAfter_le_append (front back : List Edit) :
    sizeAfter front ≤ sizeAfter (front ++ back) := by
  induction back using List.reverseRecOn with
  | nil => rw [List.append_nil]
  | append_singleton back edit ih =>
    rw [← List.append_assoc, sizeAfter_snoc]
    exact Nat.le_trans ih (edit.le_grow _)

theorem untouched_nil (front : List Edit) (index : Nat) : Untouched front [] index := by
  intro between edit rest hsplit
  simp at hsplit

theorem untouched_snoc_iff :
    Untouched front (back ++ [edit]) index ↔
      Untouched front back index ∧ ¬ edit.Covers (sizeAfter (front ++ back)) index := by
  constructor
  · intro h
    refine ⟨fun between other rest hsplit => ?_, h back edit [] rfl⟩
    exact h between other (rest ++ [edit]) (by rw [hsplit]; simp)
  · rintro ⟨hback, hedit⟩ between other rest hsplit
    rcases List.eq_nil_or_concat' rest with rfl | ⟨rest, last, rfl⟩
    · obtain ⟨rfl, rfl⟩ := List.append_singleton_inj.1 hsplit
      exact hedit
    · rw [← List.cons_append, ← List.append_assoc] at hsplit
      exact hback between other rest (List.append_singleton_inj.1 hsplit).1

/-- What was written stays as long as no edit covers it. -/
theorem getElem?_editAll_of_untouched (h : Untouched front back index)
    (hindex : index < sizeAfter front) :
    (Draft.empty.editAll (front ++ back)).elements[index]? =
      (Draft.empty.editAll front).elements[index]? := by
  induction back using List.reverseRecOn with
  | nil => rw [List.append_nil]
  | append_singleton back edit ih =>
    obtain ⟨hback, hedit⟩ := untouched_snoc_iff.1 h
    have hold := sizeAfter_le_append front back
    rw [← List.append_assoc, editAll_snoc, getElem?_edit_of_not_covers _ _ (by rwa [size_editAll]),
      size_editAll, if_neg (by omega), ih hback]

/-- What no edit covers is zero. -/
theorem getElem?_editAll_of_never (h : Untouched [] edits index)
    (hindex : index < sizeAfter edits) :
    (Draft.empty.editAll edits).elements[index]? = some (.integer 0) := by
  induction edits using List.reverseRecOn with
  | nil => cases hindex
  | append_singleton edits edit ih =>
    obtain ⟨hedits, hedit⟩ := untouched_snoc_iff.1 h
    rw [sizeAfter_snoc] at hindex
    rw [List.nil_append] at hedit
    rw [editAll_snoc, getElem?_edit_of_not_covers _ _ (by rwa [size_editAll]), size_editAll]
    by_cases hold : index < sizeAfter edits
    · rw [if_neg (by omega), ih hedits hold]
    · rw [if_pos (by omega)]

theorem getElem?_editAll_of_lastWrites {value : Value} (h : LastWrites edits index value)
    (hindex : index < sizeAfter edits) :
    (Draft.empty.editAll edits).elements[index]? = some value := by
  cases h with
  | written front edit back hsplit hcovers hlast =>
    have hwritten : index < sizeAfter (front ++ [edit]) := by
      rw [sizeAfter_snoc]
      exact Edit.lt_grow_of_covers hcovers
    rw [hsplit, ← List.singleton_append, ← List.append_assoc,
      getElem?_editAll_of_untouched hlast hwritten, editAll_snoc,
      getElem?_edit_of_covers _ _ (by rwa [size_editAll])]
  | never h => exact getElem?_editAll_of_never h hindex

/-- There is always a last edit that covers an index, or none. -/
theorem exists_lastWrites (edits : List Edit) (index : Nat) :
    ∃ value, LastWrites edits index value := by
  induction edits using List.reverseRecOn with
  | nil => exact ⟨_, .never (untouched_nil [] index)⟩
  | append_singleton edits edit ih =>
    by_cases hcovers : edit.Covers (sizeAfter edits) index
    · exact ⟨_, .written edits edit [] rfl hcovers (untouched_nil _ _)⟩
    · obtain ⟨value, hvalue⟩ := ih
      cases hvalue with
      | written front other back hsplit hother hlast =>
        have hedits : front ++ [other] ++ back = edits := by
          rw [hsplit, List.append_assoc, List.singleton_append]
        refine ⟨_, .written front other (back ++ [edit]) ?_ hother ?_⟩
        · rw [hsplit, List.append_assoc, List.cons_append]
        · exact untouched_snoc_iff.2 ⟨hlast, by rwa [hedits]⟩
      | never h => exact ⟨_, .never (untouched_snoc_iff.2 ⟨h, hcovers⟩)⟩

/-- After any edits of an empty draft the finished array is as long as the edits make
it, and has at each index the value of the last edit that covers it, or zero if no
edit does. -/
theorem toValue_editAll (edits : List Edit) :
    ∃ elements, (Draft.empty.editAll edits).toValue = .array elements ∧
      elements.length = sizeAfter edits ∧
      ∀ index value, elements[index]? = some value ↔
        index < sizeAfter edits ∧ LastWrites edits index value := by
  refine ⟨(Draft.empty.editAll edits).elements.toList, rfl, ?_, fun index value => ?_⟩
  · rw [Array.length_toList, size_editAll]
  · rw [Array.getElem?_toList]
    constructor
    · intro hvalue
      have hindex : index < sizeAfter edits := by
        rw [← size_editAll]
        exact (Array.getElem?_eq_some_iff.1 hvalue).1
      obtain ⟨last, hlast⟩ := exists_lastWrites edits index
      rw [getElem?_editAll_of_lastWrites hlast hindex, Option.some.injEq] at hvalue
      exact ⟨hindex, hvalue ▸ hlast⟩
    · rintro ⟨hindex, hlast⟩
      exact getElem?_editAll_of_lastWrites hlast hindex

-- The second fill has reversed bounds and overlaps the first, which left a gap.
example :
    (Draft.empty.editAll [.append (.integer 1), .fill 2 3 (.integer 7), .fill 4 3 (.integer 9),
      .append (.integer 5)]).toValue =
      .array [.integer 1, .integer 0, .integer 7, .integer 9, .integer 9, .integer 5] := by
  rfl

end Edits

/-! ## The price of a fill -/

/-- The number of cells of all values in a list, each as the word that it is counted in. -/
def totalSaturatedCells (values : List Value) : Nat :=
  (values.map fun value => value.saturatedCells.toNat).sum

section Fill

variable (draft : Draft) (start stop : UInt64) (value : Value)

/-- A fill does not care about the order of its bounds. -/
theorem fill_first_last :
    draft.fill (Designator.range start stop).first (Designator.range start stop).last value =
      draft.fill start stop value := by
  have hmin : min (min start.toNat stop.toNat) (max start.toNat stop.toNat) =
      min start.toNat stop.toNat := by omega
  have hmax : max (min start.toNat stop.toNat) (max start.toNat stop.toNat) =
      max start.toNat stop.toNat := by omega
  simp only [Draft.fill, toNat_min, toNat_max, Designator.toNat_first_range,
    Designator.toNat_last_range, hmin, hmax]

/-- A fill adds zeros below the range and a value for every index in it, and takes
away what it overwrites. -/
theorem sum_map_fill (count : Value → Nat) :
    ((draft.fill start stop value).elements.toList.map count).sum +
        ((overwritten draft.elements.toList (.range start stop)).map count).sum =
      (draft.elements.toList.map count).sum +
        (min start.toNat stop.toNat - draft.elements.size) * count (.integer 0) +
        (max start.toNat stop.toNat - min start.toNat stop.toNat + 1) * count value := by
  have hwidth : max start.toNat stop.toNat + 1 - min start.toNat stop.toNat =
      max start.toNat stop.toNat - min start.toNat stop.toNat + 1 := by omega
  have hdesignator : (Initializer.mk (some (.range start stop)) value).designator? =
      some (.range start stop) := rfl
  have hplaced := sum_map_place count hdesignator draft.elements.toList
  rwa [← Draft.toList_fill, fill_first_last, Designator.toNat_first_range,
    Designator.toNat_last_range, Array.length_toList, hwidth] at hplaced

variable {draft start stop value}

/-- A fill costs what it adds. The cells behind it and those of the elements that it
overwrites are together the cells in front of it and its price, whether cells are
counted exactly or in words, as long as the size and the price are words at all. -/
theorem totalCells_fill_add_overwritten (hsize : draft.elements.size ≤ maxWord.toNat)
    (hcost : (min start.toNat stop.toNat - draft.elements.size) +
      (max start.toNat stop.toNat - min start.toNat stop.toNat + 1) * value.cells ≤
        maxWord.toNat) :
    let elements := draft.elements.toList
    let filled := (draft.fill start stop value).elements.toList
    let lost := overwritten elements (.range start stop)
    totalCells filled + totalCells lost =
        totalCells elements + (draft.fillCost start stop value).toNat ∧
      totalSaturatedCells filled + totalSaturatedCells lost =
        totalSaturatedCells elements + (draft.fillCost start stop value).toNat := by
  intro elements filled lost
  have hprice := toNat_fillCost draft start stop value hsize
  rw [Nat.min_eq_right hcost] at hprice
  constructor
  · have hcells := sum_map_fill draft start stop value Value.cells
    rw [Value.cells_integer, Nat.mul_one, Nat.add_assoc, ← hprice] at hcells
    exact hcells
  · -- The value is no larger than the price, so its own count does not saturate.
    have hvalue : value.saturatedCells.toNat = value.cells := by
      have hcopy : value.cells ≤
          (max start.toNat stop.toNat - min start.toNat stop.toNat + 1) * value.cells :=
        Nat.le_mul_of_pos_left _ (Nat.succ_pos _)
      rw [toNat_saturatedCells, Nat.min_eq_right (by omega)]
    have hcells := sum_map_fill draft start stop value fun value => value.saturatedCells.toNat
    have hzero : (Value.integer 0).saturatedCells.toNat = 1 := by
      rw [Value.saturatedCells_integer]
      rfl
    rw [hzero, hvalue, Nat.mul_one, Nat.add_assoc, ← hprice] at hcells
    exact hcells

/-- The bounds are reversed, and the range goes on behind the last element. -/
theorem totalCells_fill_add_overwritten_reversed :
    let draft : Draft := { elements := #[.integer 1, .array [.integer 2]] }
    let value : Value := .array [.integer 7]
    (draft.elements.size ≤ maxWord.toNat ∧
      (min (3 : UInt64).toNat (1 : UInt64).toNat - draft.elements.size) +
          (max (3 : UInt64).toNat (1 : UInt64).toNat -
            min (3 : UInt64).toNat (1 : UInt64).toNat + 1) * value.cells ≤ maxWord.toNat) ∧
    totalCells (draft.fill 3 1 value).elements.toList + totalCells [.array [.integer 2]] =
      totalCells draft.elements.toList + (draft.fillCost 3 1 value).toNat := by
  intro draft value
  have hsize : draft.elements.size ≤ maxWord.toNat := by decide
  have hcells : value.cells = 2 := by simp [value]
  have hcost : (min (3 : UInt64).toNat (1 : UInt64).toNat - draft.elements.size) +
        (max (3 : UInt64).toNat (1 : UInt64).toNat -
          min (3 : UInt64).toNat (1 : UInt64).toNat + 1) * value.cells ≤ maxWord.toNat := by
    rw [hcells]
    decide
  exact ⟨⟨hsize, hcost⟩, (totalCells_fill_add_overwritten hsize hcost).1⟩

end Fill

end ArrayLiteral
