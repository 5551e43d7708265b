import Mathlib
import ArrayLiteral.Literal
import ArrayLiteral.Proofs.Cells

/-!
# What a literal stands for and what it costs

`Literal.materialize` is the value of a literal, and `Literal.cost` the number
of cells that are written for it, as a natural number.  Both walk over the
initializers of an aggregate from left to right, and know nothing of budgets,
drafts or 64-bit costs.

`place` is one initializer: without a designator its value goes behind the last
element, and with one the list grows with zeros until the highest index exists,
and then the value takes the place of everything between the bounds.
`placeCost` counts what `place` writes, and `sum_map_place` says what there is
behind it.  `toList_write` and `toNat_writeCost` say that drafts write and price
initializers like this.
-/

namespace ArrayLiteral

/-! ## One initializer -/

/-- Appends zeros until there are `size` elements. -/
def growTo (size : Nat) (elements : List Value) : List Value :=
  elements ++ List.replicate (size - elements.length) (.integer 0)

/-- The elements after an initializer. -/
def place (elements : List Value) (item : Initializer Value) : List Value :=
  match item.designator? with
  | none => elements ++ [item.value]
  | some designator =>
    let first := designator.first.toNat
    let behind := designator.last.toNat + 1
    let grown := growTo behind elements
    grown.take first ++ List.replicate (behind - first) item.value ++ grown.drop behind

/-- The number of cells that `place` writes: 1 to append, and otherwise the zeros
below the range and the cells of the value for every index in the range. -/
def placeCost (elements : List Value) (item : Initializer Value) : Nat :=
  match item.designator? with
  | none => 1
  | some designator =>
    let first := designator.first.toNat
    let behind := designator.last.toNat + 1
    (first - elements.length) + (behind - first) * item.value.cells

/-- What it costs to place initializers one after the other. -/
def placingCost (elements : List Value) : List (Initializer Value) → Nat
  | [] => 0
  | item :: items => placeCost elements item + placingCost (place elements item) items

theorem placingCost_append (elements : List Value) (front back : List (Initializer Value)) :
    placingCost elements (front ++ back) =
      placingCost elements front + placingCost (front.foldl place elements) back := by
  induction front generalizing elements with
  | nil => simp [placingCost]
  | cons item front ih =>
    rw [List.cons_append, placingCost, placingCost, ih, List.foldl_cons]
    omega

/-! ## Literals -/

namespace Literal

/-- The value of a literal. -/
def materialize : Literal → Value :=
  fold .integer fun items => .array (items.foldl place [])

/-- The number of cells that are written for a literal, over all aggregates in it. -/
def cost : Literal → Nat
  | number _ => 0
  | aggregate items =>
    (items.map fun item => item.value.cost).sum +
      placingCost [] (items.map (Initializer.map materialize))
decreasing_by
  rename_i hmem
  have := List.sizeOf_lt_of_mem hmem
  rcases item with ⟨designator?, value⟩
  simp only [Initializer.mk.sizeOf_spec, Literal.aggregate.sizeOf_spec] at *
  omega

@[simp] theorem materialize_number (value : UInt64) :
    (number value).materialize = .integer value :=
  fold_number _ _ _

@[simp] theorem materialize_aggregate (items : List (Initializer Literal)) :
    (aggregate items).materialize =
      .array ((items.map (Initializer.map materialize)).foldl place []) :=
  fold_aggregate _ _ _

@[simp] theorem cost_number (value : UInt64) : (number value).cost = 0 := by
  rw [cost]

@[simp] theorem cost_aggregate (items : List (Initializer Literal)) :
    (aggregate items).cost =
      (items.map fun item => item.value.cost).sum +
        placingCost [] (items.map (Initializer.map materialize)) := by
  rw [cost]

-- A nested aggregate is paid for when it is written, and again with every copy.
example :
    (aggregate [{
      designator? := some (.range 2 1)
      value := .aggregate [{ designator? := none, value := .number 7 }] }]).cost =
        1 + (1 + 2 * 2) := by cbv

end Literal

/-! ## Drafts write and price initializers like this -/

theorem place_of_designator {item : Initializer Value} {designator : Designator}
    (h : item.designator? = some designator) (elements : List Value) :
    place elements item =
      elements.take designator.first.toNat ++
        List.replicate (designator.first.toNat - elements.length) (.integer 0) ++
        List.replicate (designator.last.toNat + 1 - designator.first.toNat) item.value ++
        elements.drop (designator.last.toNat + 1) := by
  have horder := designator.first_le_last
  have hbelow : (growTo (designator.last.toNat + 1) elements).take designator.first.toNat =
      elements.take designator.first.toNat ++
        List.replicate (designator.first.toNat - elements.length) (.integer 0) := by
    rw [growTo, List.take_append, List.take_replicate]
    congr 2
    omega
  have habove : (growTo (designator.last.toNat + 1) elements).drop (designator.last.toNat + 1) =
      elements.drop (designator.last.toNat + 1) := by
    rw [growTo, List.drop_append, List.drop_replicate]
    simp
  unfold place
  rw [h]
  dsimp only
  rw [hbelow, habove]

/-- The elements that an initializer with this designator takes the place of. -/
def overwritten (elements : List Value) (designator : Designator) : List Value :=
  (elements.drop designator.first.toNat).take
    (designator.last.toNat + 1 - designator.first.toNat)

/-- An initializer with a designator adds zeros below the range and a value for every
index in it, and takes away what it overwrites. This holds of any way to count. -/
theorem sum_map_place (count : Value → Nat) {item : Initializer Value}
    {designator : Designator} (h : item.designator? = some designator) (elements : List Value) :
    ((place elements item).map count).sum + ((overwritten elements designator).map count).sum =
      (elements.map count).sum + (designator.first.toNat - elements.length) * count (.integer 0) +
        (designator.last.toNat + 1 - designator.first.toNat) * count item.value := by
  have horder := designator.first_le_last
  have hsplit : (elements.map count).sum =
      ((elements.take designator.first.toNat).map count).sum +
        (((overwritten elements designator).map count).sum +
          ((elements.drop (designator.last.toNat + 1)).map count).sum) := by
    have hbehind : elements.drop (designator.last.toNat + 1) =
        (elements.drop designator.first.toNat).drop
          (designator.last.toNat + 1 - designator.first.toNat) := by
      rw [List.drop_drop, Nat.add_sub_cancel' (by omega)]
    rw [overwritten, hbehind, ← List.sum_append, ← List.map_append, List.take_append_drop,
      ← List.sum_append, ← List.map_append, List.take_append_drop]
  rw [place_of_designator h]
  simp only [List.map_append, List.sum_append, List.map_replicate, List.sum_replicate,
    smul_eq_mul]
  omega

namespace Draft

theorem eq_of_toList_eq {draft draft' : Draft}
    (h : draft.elements.toList = draft'.elements.toList) : draft = draft' := by
  rcases draft with ⟨elements⟩
  rcases draft' with ⟨elements'⟩
  exact congrArg Draft.mk (Array.toList_inj.1 h)

theorem toList_fill (draft : Draft) (designator : Designator) (value : Value) :
    (draft.fill designator.first designator.last value).elements.toList =
      place draft.elements.toList { designator? := some designator, value } := by
  have horder := designator.first_le_last
  apply List.ext_getElem?
  intro index
  rw [place_of_designator rfl, Array.getElem?_toList, getElem?_fill, toNat_min, toNat_max,
    Nat.min_eq_left horder, Nat.max_eq_right horder]
  simp only [List.getElem?_append, List.getElem?_take, List.getElem?_replicate,
    List.getElem?_drop, List.length_append, List.length_take, List.length_replicate,
    Array.getElem?_toList, Array.length_toList, Value.zero]
  by_cases hbelow : index < designator.first.toNat
  · by_cases hold : index < draft.elements.size
    · grind
    · grind
  · by_cases hin : index ≤ designator.last.toNat
    · grind
    · grind

/-- A draft takes an initializer as `place` says. -/
theorem toList_write (draft : Draft) (item : Initializer Value) :
    (draft.write item).elements.toList = place draft.elements.toList item := by
  rcases item with ⟨designator?, value⟩
  cases designator? with
  | none => exact draft.toList_append value
  | some designator => exact draft.toList_fill designator value

/-- The price of an initializer is what `placeCost` says, unless that lies beyond
the words. -/
theorem toNat_writeCost (draft : Draft) (item : Initializer Value)
    (hsize : draft.elements.size ≤ maxWord.toNat) :
    (draft.writeCost item).toNat = min maxWord.toNat (placeCost draft.elements.toList item) := by
  rcases item with ⟨designator?, value⟩
  cases designator? with
  | none => rfl
  | some designator =>
    have horder := designator.first_le_last
    have hwidth : designator.last.toNat + 1 - designator.first.toNat =
        designator.last.toNat - designator.first.toNat + 1 := by omega
    show (draft.fillCost designator.first designator.last value).toNat = _
    rw [toNat_fillCost _ _ _ _ hsize, Nat.min_eq_left horder, Nat.max_eq_right horder]
    show _ = min maxWord.toNat ((designator.first.toNat - draft.elements.toList.length) +
      (designator.last.toNat + 1 - designator.first.toNat) * value.cells)
    rw [hwidth, Array.length_toList]

end Draft

end ArrayLiteral
