import Mathlib
import ArrayLiteral.Proofs.Grammar
import ArrayLiteral.Proofs.Materialize

/-!
# How deeply values nest

`add_depth_array_le_iff` compares the depth of an array with a limit, element by
element.  Initializers put nothing into an array but their values and zeros
(`mem_place`), so a value nests no more deeply than the braces of the literal that
it was written as (`depth_materialize_le`).
-/

namespace ArrayLiteral

theorem foldl_max_le_iff {depths : List Nat} {start limit : Nat} :
    depths.foldl max start ≤ limit ↔ start ≤ limit ∧ ∀ depth ∈ depths, depth ≤ limit := by
  induction depths generalizing start with
  | nil => simp
  | cons depth depths ih =>
    rw [List.foldl_cons, ih, max_le_iff, List.forall_mem_cons, and_assoc]

/-- An array nests within the limit if there is room for it, and for its elements inside. -/
theorem add_depth_array_le_iff {elements : List Value} {outer limit : Nat} :
    outer + (Value.array elements).depth ≤ limit ↔
      outer < limit ∧ ∀ element ∈ elements, outer + 1 + element.depth ≤ limit := by
  have hsplit : outer + (Value.array elements).depth ≤ limit ↔
      outer < limit ∧ (elements.map Value.depth).foldl max 0 ≤ limit - (outer + 1) := by
    rw [Value.depth_array]
    omega
  rw [hsplit, foldl_max_le_iff, List.forall_mem_map]
  constructor
  · rintro ⟨hroom, -, helements⟩
    exact ⟨hroom, fun element hmem => by have := helements element hmem; omega⟩
  · rintro ⟨hroom, helements⟩
    exact ⟨hroom, Nat.zero_le _, fun element hmem => by have := helements element hmem; omega⟩

/-- What is in a list after an initializer was there before, or fills a gap, or is its value. -/
theorem mem_place {elements : List Value} {item : Initializer Value} {element : Value}
    (h : element ∈ place elements item) :
    element ∈ elements ∨ element = .integer 0 ∨ element = item.value := by
  cases hdesignator : item.designator? with
  | none =>
    rw [place, hdesignator] at h
    rcases List.mem_append.1 h with hold | hnew
    · exact .inl hold
    · exact .inr (.inr (List.mem_singleton.1 hnew))
  | some designator =>
    rw [place_of_designator hdesignator] at h
    simp only [List.mem_append] at h
    rcases h with ((hbelow | hgap) | hcopy) | habove
    · exact .inl (List.mem_of_mem_take hbelow)
    · exact .inr (.inl (List.eq_of_mem_replicate hgap))
    · exact .inr (.inr (List.eq_of_mem_replicate hcopy))
    · exact .inl (List.mem_of_mem_drop habove)

theorem mem_foldl_place {elements : List Value} {items : List (Initializer Value)}
    {element : Value} (h : element ∈ items.foldl place elements) :
    element ∈ elements ∨ element = .integer 0 ∨ ∃ item ∈ items, element = item.value := by
  induction items generalizing elements with
  | nil => exact .inl h
  | cons item items ih =>
    rcases ih h with hplaced | hzero | ⟨later, hmem, hvalue⟩
    · rcases mem_place hplaced with hold | hzero | hvalue
      · exact .inl hold
      · exact .inr (.inl hzero)
      · exact .inr (.inr ⟨item, List.mem_cons_self .., hvalue⟩)
    · exact .inr (.inl hzero)
    · exact .inr (.inr ⟨later, List.mem_cons_of_mem _ hmem, hvalue⟩)

/-- A value does not nest more deeply than the literal that it was written as. -/
theorem depth_materialize_le (derivation : Derivation) :
    derivation.literal.materialize.depth ≤ derivation.depth := by
  induction derivation using Derivation.induction with
  | number value =>
    rw [Derivation.literal_number, Literal.materialize_number, Value.depth_integer]
    exact Nat.zero_le _
  | empty =>
    rw [Derivation.literal_empty, Literal.materialize_aggregate, ← Nat.zero_add (Value.depth _),
      add_depth_array_le_iff, Derivation.depth_empty]
    exact ⟨Nat.one_pos, nofun⟩
  | list first others trailing ihfirst ihothers =>
    have hroom := Derivation.add_depth_list_le_iff.1 (Nat.zero_add
      (Derivation.list first others trailing).depth).le
    obtain ⟨hpos, hitems⟩ := hroom
    rw [Derivation.literal_list, Literal.materialize_aggregate, ← Nat.zero_add (Value.depth _),
      add_depth_array_le_iff]
    refine ⟨hpos, fun element hmem => ?_⟩
    rcases mem_foldl_place hmem with hnone | rfl | ⟨placed, hplaced, rfl⟩
    · cases hnone
    · -- What fills a gap does not nest at all.
      rw [Value.depth_integer]
      exact hpos
    · rw [List.map_map, List.mem_map] at hplaced
      obtain ⟨item, hitem, rfl⟩ := hplaced
      have hvalue : item.value.literal.materialize.depth ≤ item.value.depth := by
        rcases List.mem_cons.1 hitem with rfl | hmem
        · exact ihfirst
        · exact ihothers item hmem
      exact Nat.le_trans (Nat.add_le_add_left hvalue _) (hitems item hitem)

end ArrayLiteral
