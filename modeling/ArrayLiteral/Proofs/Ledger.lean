import Mathlib
import ArrayLiteral.Builder
import ArrayLiteral.Proofs.Materialize

/-!
# The ledger of the array builder

`heldCells` is what exists while arrays are built: the cells of all elements of
the open aggregates, and the cells of the finished values without their roots.
The ledger is the invariant `heldCells values drafts ≤ budget.written`.  A root
is left out because a value is paid for when it is placed.

Appending costs 1 whatever the value is, so it is the ledger that keeps appended
cells from being counted for free.  It also makes the 64-bit arithmetic exact.
A price that saturates would have to be refused, and `lt_written_add_maxWord`
says that it is: a value that is large enough to saturate it was written before,
so the budget is not fresh.  `add_eq_ok_iff` and `add_eq_error_iff` then decide
an initializer by its exact cost.
-/

namespace ArrayLiteral

/-- The cells of the elements of the open aggregates, and of the finished values
without their roots. -/
def heldCells (values : List Value) (drafts : List Draft) : Nat :=
  (values.map fun value => value.cells - 1).sum +
    (drafts.map fun draft => totalCells draft.elements.toList).sum

section HeldCells

variable (values : List Value) (drafts : List Draft)

@[simp] theorem heldCells_value_cons (value : Value) :
    heldCells (value :: values) drafts = value.cells - 1 + heldCells values drafts := by
  simp only [heldCells, List.map_cons, List.sum_cons]
  omega

@[simp] theorem heldCells_draft_cons (draft : Draft) :
    heldCells values (draft :: drafts) =
      totalCells draft.elements.toList + heldCells values drafts := by
  simp only [heldCells, List.map_cons, List.sum_cons]
  omega

theorem heldCells_number (value : UInt64) :
    heldCells (arrayBuilder.number value :: values) drafts = heldCells values drafts := by
  show heldCells (.integer value :: values) drafts = _
  rw [heldCells_value_cons, Value.cells_integer]
  omega

theorem heldCells_opened :
    heldCells values (arrayBuilder.opened :: drafts) = heldCells values drafts := by
  show heldCells values (Draft.empty :: drafts) = _
  rw [heldCells_draft_cons, Draft.empty]
  simp

/-- Closing an aggregate makes it a value, and its elements stay. -/
theorem heldCells_closed (draft : Draft) :
    heldCells (arrayBuilder.closed draft :: values) drafts =
      heldCells values (draft :: drafts) := by
  show heldCells (draft.toValue :: values) drafts = _
  rw [heldCells_value_cons, heldCells_draft_cons, Draft.toValue, cells_array_eq]
  omega

end HeldCells

/-! ## What placing an initializer leaves -/

/-- The cells behind an initializer were there, were paid for, or are those of
the value when it came. -/
theorem totalCells_place_le (elements : List Value) (item : Initializer Value) :
    totalCells (place elements item) ≤
      totalCells elements + placeCost elements item + (item.value.cells - 1) := by
  have hpos := item.value.cells_pos
  cases hdesignator : item.designator? with
  | none =>
    simp only [place, placeCost, hdesignator, totalCells_append, totalCells_cons,
      totalCells_nil]
    omega
  | some designator =>
    have hplaced := sum_map_place Value.cells hdesignator elements
    rw [Value.cells_integer, Nat.mul_one] at hplaced
    simp only [placeCost, hdesignator, totalCells]
    omega

/-- An initializer that is placed reaches no further than what is held then. -/
theorem last_lt_length_add_placeCost {item : Initializer Value} {designator : Designator}
    (h : item.designator? = some designator) (elements : List Value) :
    designator.last.toNat < elements.length + placeCost elements item := by
  have horder := designator.first_le_last
  have hwidth : designator.last.toNat + 1 - designator.first.toNat ≤
      (designator.last.toNat + 1 - designator.first.toNat) * item.value.cells :=
    Nat.le_mul_of_pos_right _ item.value.cells_pos
  simp only [placeCost, h]
  omega

/-! ## The builder charges the exact cost -/

/-- There is a 64-bit word behind the last index, or the limit forbids to reach
that far. -/
def Priceable (limit : UInt64) (item : Initializer Value) : Prop :=
  limit.toNat < maxWord.toNat ∨
    ∀ designator, item.designator? = some designator → designator.last.toNat < maxWord.toNat

section Add

variable {budget after : Budget} {draft draft' : Draft} {item : Initializer Value}

/-- A cost beyond the words is beyond the limit too, even if it is taken for the
largest word. -/
theorem lt_written_add_maxWord
    (hheld : totalCells draft.elements.toList + (item.value.cells - 1) ≤ budget.written.toNat)
    (hprice : Priceable budget.limit item)
    (hcost : maxWord.toNat < placeCost draft.elements.toList item) :
    budget.limit.toNat < budget.written.toNat + maxWord.toNat := by
  have hlimit := toNat_le_maxWord budget.limit
  rcases hprice with hroom | hlast
  · omega
  · -- With a fresh budget there is nothing yet, and the cost is the highest index and one.
    by_contra hfresh
    have hwritten : budget.written.toNat = 0 := by omega
    have hlength := length_le_totalCells draft.elements.toList
    have hcells : item.value.cells = 1 := by
      have := item.value.cells_pos
      omega
    cases hdesignator : item.designator? with
    | none =>
      simp only [placeCost, hdesignator, toNat_maxWord] at hcost
      omega
    | some designator =>
      have := hlast designator hdesignator
      have := designator.first_le_last
      simp only [placeCost, hdesignator, hcells, Nat.mul_one] at hcost
      omega

theorem size_le_maxWord
    (hheld : totalCells draft.elements.toList + (item.value.cells - 1) ≤ budget.written.toNat) :
    draft.elements.size ≤ maxWord.toNat := by
  have hlength := length_le_totalCells draft.elements.toList
  have hword := toNat_le_maxWord budget.written
  rw [Array.length_toList] at hlength
  omega

/-- The builder adds an initializer if it can charge its cost. -/
theorem arrayBuilder_add_eq_ok_iff :
    arrayBuilder.add item (budget, draft) = .ok () (after, draft') ↔
      Budget.charge (draft.writeCost item) budget = .ok () after ∧ draft' = draft.write item := by
  unfold arrayBuilder
  dsimp only
  cases Budget.charge (draft.writeCost item) budget with
  | ok charged charged' =>
    simp only [EStateM.Result.ok.injEq, Prod.mk.injEq, true_and]
    exact and_congr_right fun _ => eq_comm
  | error refusal charged => simp

theorem arrayBuilder_add_eq_error_iff {refusal : Refusal} :
    arrayBuilder.add item (budget, draft) = .error refusal (after, draft') ↔
      Budget.charge (draft.writeCost item) budget = .error refusal after ∧ draft' = draft := by
  unfold arrayBuilder
  dsimp only
  cases Budget.charge (draft.writeCost item) budget with
  | ok charged charged' => simp
  | error refusal charged =>
    simp only [EStateM.Result.error.injEq, Prod.mk.injEq, and_assoc]
    exact and_congr_right fun _ => and_congr_right fun _ => eq_comm

/-- The builder accepts an initializer exactly if the limit covers its cost. -/
theorem add_eq_ok_iff
    (hheld : totalCells draft.elements.toList + (item.value.cells - 1) ≤ budget.written.toNat)
    (hprice : Priceable budget.limit item) :
    arrayBuilder.add item (budget, draft) = .ok () (after, draft') ↔
      draft' = draft.write item ∧ after.limit = budget.limit ∧
        after.written.toNat = budget.written.toNat + placeCost draft.elements.toList item ∧
        after.written.toNat ≤ budget.limit.toNat := by
  have hcost := draft.toNat_writeCost item (size_le_maxWord hheld)
  have hbeyond := lt_written_add_maxWord hheld hprice
  have hword := toNat_le_maxWord after.written
  rw [arrayBuilder_add_eq_ok_iff, Budget.charge_eq_ok_iff, hcost]
  constructor
  · rintro ⟨⟨hlimit, hwritten, hle⟩, hdraft⟩
    rw [hlimit] at hle
    exact ⟨hdraft, hlimit, by omega, hle⟩
  · rintro ⟨hdraft, hlimit, hwritten, hle⟩
    rw [hlimit]
    exact ⟨⟨rfl, by omega, hle⟩, hdraft⟩

/-- It refuses all others, and keeps what it has. -/
theorem add_eq_error_iff
    (hheld : totalCells draft.elements.toList + (item.value.cells - 1) ≤ budget.written.toNat)
    (hprice : Priceable budget.limit item) {refusal : Refusal} :
    arrayBuilder.add item (budget, draft) = .error refusal (after, draft') ↔
      after = budget ∧ draft' = draft ∧ refusal.limit = budget.limit ∧
        budget.limit.toNat < budget.written.toNat + placeCost draft.elements.toList item := by
  have hcost := draft.toNat_writeCost item (size_le_maxWord hheld)
  have hbeyond := lt_written_add_maxWord hheld hprice
  rw [arrayBuilder_add_eq_error_iff, Budget.charge_eq_error_iff, hcost]
  constructor
  · rintro ⟨⟨hafter, hlimit, hlt⟩, hdraft⟩
    exact ⟨hafter, hdraft, hlimit, by omega⟩
  · rintro ⟨hafter, hdraft, hlimit, hlt⟩
    exact ⟨⟨hafter, hlimit, by omega⟩, hdraft⟩

/-- An accepted initializer keeps the ledger: its value leaves the finished
values, and the aggregate grows by no more than was paid. -/
theorem heldCells_add_le {values : List Value} {drafts : List Draft}
    (hledger : heldCells (item.value :: values) (draft :: drafts) ≤ budget.written.toNat)
    (hprice : Priceable budget.limit item)
    (h : arrayBuilder.add item (budget, draft) = .ok () (after, draft')) :
    heldCells values (draft' :: drafts) ≤ after.written.toNat := by
  rw [heldCells_value_cons, heldCells_draft_cons] at hledger
  obtain ⟨rfl, -, hwritten, -⟩ := (add_eq_ok_iff (by omega) hprice).1 h
  have hplace := totalCells_place_le draft.elements.toList item
  rw [heldCells_draft_cons, Draft.toList_write]
  omega

end Add

end ArrayLiteral
