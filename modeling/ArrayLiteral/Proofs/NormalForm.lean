import Mathlib
import ArrayLiteral.Proofs.Modes
import ArrayLiteral.Proofs.Nesting
import ArrayLiteral.Proofs.Soundness
import ArrayLiteral.Proofs.Spelling
import ArrayLiteral.Proofs.TooDeep

/-!
# Values written as literals

The text of a value, with braces in place of its square brackets, is a literal of
that value.  `Value.derivation` is the derivation of this literal.  It has only
positional initializers, so it stands for the value (`materialize_derivation`),
costs its cells but for the root (`cost_derivation`), and nests as deeply as the
value does (`fits_derivation_iff`).

The text spells the word of this derivation (`spells_normalForm`).  So parsing it
gives the value back if the limits cover the value, and fails for one of the limits
otherwise.  They cover every value that was parsed under them: a literal may write
more cells than its value has, and nest more deeply, but never less.
-/

namespace ArrayLiteral

open Parsing

/-- An initializer without a designator. -/
def Initializer.positional {α : Type} (value : α) : Initializer α :=
  { designator? := none, value }

/-! ## Positional initializers -/

theorem foldl_place_positional (elements values : List Value) :
    (values.map Initializer.positional).foldl place elements = elements ++ values := by
  induction values generalizing elements with
  | nil => simp
  | cons value values ih =>
    rw [List.map_cons, List.foldl_cons, ih]
    simp [place, Initializer.positional]

theorem placingCost_positional (elements values : List Value) :
    placingCost elements (values.map Initializer.positional) = values.length := by
  induction values generalizing elements with
  | nil => rfl
  | cons value values ih =>
    rw [List.map_cons, placingCost, ih, List.length_cons, Nat.add_comm]
    rfl

/-! ## The derivation of a value -/

namespace Value

/-- The derivation whose initializers are the elements, in their order. -/
def derivation : Value → Derivation :=
  fold .number fun
    | [] => .empty
    | first :: others => .list (.positional first) (others.map .positional) false

@[simp] theorem derivation_integer (value : UInt64) :
    (integer value).derivation = .number value :=
  fold_integer _ _ _

@[simp] theorem derivation_nil : (array []).derivation = .empty :=
  fold_array _ _ _

@[simp] theorem derivation_cons (first : Value) (others : List Value) :
    (array (first :: others)).derivation = .list (.positional first.derivation)
      (others.map fun other => .positional other.derivation) false := by
  rw [derivation, fold_array, List.map_cons]
  show Derivation.list _ (List.map _ (List.map _ others)) _ = _
  rw [List.map_map]
  rfl

/-- The initializers in the derivation of an array that is not empty. -/
theorem map_positional_derivation (first : Value) (others : List Value) :
    (Initializer.positional first.derivation ::
      others.map fun other => Initializer.positional other.derivation) =
        (first :: others).map fun element => .positional element.derivation :=
  rfl

theorem literal_derivation_array (elements : List Value) :
    (array elements).derivation.literal =
      .aggregate (elements.map fun element => .positional element.derivation.literal) := by
  cases elements with
  | nil => rw [derivation_nil, Derivation.literal_empty, List.map_nil]
  | cons first others =>
    rw [derivation_cons, Derivation.literal_list, List.map_cons, List.map_cons, List.map_map]
    rfl

theorem map_materialize_positional (elements : List Value)
    (ih : ∀ element ∈ elements, element.derivation.literal.materialize = element) :
    (elements.map fun element => Initializer.positional element.derivation.literal).map
      (Initializer.map Literal.materialize) = elements.map Initializer.positional := by
  rw [List.map_map]
  refine List.map_congr_left fun element hmem => ?_
  exact congrArg Initializer.positional (ih element hmem)

/-- The derivation stands for the value. -/
theorem materialize_derivation (value : Value) : value.derivation.literal.materialize = value := by
  induction value using Value.induction with
  | integer value =>
    rw [derivation_integer, Derivation.literal_number, Literal.materialize_number]
  | array elements ih =>
    rw [literal_derivation_array, Literal.materialize_aggregate, map_materialize_positional _ ih,
      foldl_place_positional, List.nil_append]

theorem totalCells_eq_add_length {elements : List Value} {cost : Value → Nat}
    (h : ∀ element ∈ elements, cost element + 1 = element.cells) :
    totalCells elements = (elements.map cost).sum + elements.length := by
  induction elements with
  | nil => rfl
  | cons element elements ih =>
    have hhead := h element (List.mem_cons_self ..)
    have htail := ih fun other hmem => h other (List.mem_cons_of_mem _ hmem)
    rw [totalCells_cons, List.map_cons, List.sum_cons, List.length_cons]
    omega

/-- All cells are paid for, but for the root. -/
theorem cost_derivation (value : Value) : value.derivation.literal.cost + 1 = value.cells := by
  induction value using Value.induction with
  | integer value =>
    rw [derivation_integer, Derivation.literal_number, Literal.cost_number, cells_integer]
  | array elements ih =>
    have hvalues := map_materialize_positional elements fun element _ =>
      materialize_derivation element
    rw [literal_derivation_array, Literal.cost_aggregate, hvalues, placingCost_positional,
      cells_array_eq, totalCells_eq_add_length ih, List.map_map, Nat.add_comm]
    rfl

/-- The derivation keeps to the limits if the value does not nest too deeply. -/
theorem fits_derivation_iff {limits : Limits} {outer : Nat} {value : Value} :
    value.derivation.Fits limits outer ↔ outer + value.depth ≤ limits.maxDepth.toNat := by
  induction value using Value.induction generalizing outer with
  | integer value => rw [derivation_integer, Derivation.fits_number, depth_integer, Nat.add_zero]
  | array elements ih =>
    rw [add_depth_array_le_iff]
    cases elements with
    | nil =>
      rw [derivation_nil, Derivation.fits_empty]
      exact ⟨fun hroom => ⟨hroom, nofun⟩, fun h => h.1⟩
    | cons first others =>
      rw [derivation_cons, Derivation.fits_list, map_positional_derivation, List.forall_mem_map]
      constructor
      · rintro ⟨hroom, helements⟩
        exact ⟨hroom, fun element hmem => (ih element hmem).1 (helements element hmem).2⟩
      · rintro ⟨hroom, helements⟩
        exact ⟨hroom, fun element hmem => ⟨nofun, (ih element hmem).2 (helements element hmem)⟩⟩

/-- There are no designators in the derivation. -/
theorem bounds_derivation (value : Value) : value.derivation.bounds = [] := by
  induction value using Value.induction with
  | integer value =>
    rw [derivation_integer]
    exact Derivation.fold_number _ _ _ _
  | array elements ih =>
    cases elements with
    | nil =>
      rw [derivation_nil]
      exact Derivation.fold_empty _ _ _
    | cons first others =>
      rw [derivation_cons, List.eq_nil_iff_forall_not_mem]
      refine Derivation.forall_bounds_list.2 ?_
      rw [map_positional_derivation, List.forall_mem_map]
      intro element hmem
      refine ⟨nofun, ?_⟩
      show ∀ bound ∈ element.derivation.bounds, _
      rw [ih element hmem]
      nofun

end Value

/-! ## The text of a value -/

/-- The brace in place of a square bracket. -/
def braceFor (c : Char) : Char :=
  if c = '[' then '{' else if c = ']' then '}' else c

/-- The text of a value, with braces in place of its square brackets. -/
def Value.normalForm (value : Value) : String :=
  value.display.map braceFor

theorem intercalate_cons_eq {α : Type} (separator first : List α) (others : List (List α)) :
    separator.intercalate (first :: others) = first ++ others.flatMap (separator ++ ·) := by
  induction others generalizing first with
  | nil => simp
  | cons other others ih =>
    rw [List.intercalate_cons_cons, ih, List.flatMap_cons]
    simp

namespace Value

theorem toList_display_integer (value : UInt64) :
    (integer value).display.toList = Nat.toDigits 10 value.toNat := by
  rw [display_integer]
  simp [toString]

theorem toList_display_cons (first : Value) (others : List Value) :
    (array (first :: others)).display.toList =
      '[' :: (first.display.toList ++
        others.flatMap (fun other => ',' :: ' ' :: other.display.toList) ++ [']']) := by
  rw [display_array, String.toList_append, String.toList_append, String.toList_intercalate,
    List.map_cons, List.map_cons, intercalate_cons_eq, List.map_map, List.flatMap_map]
  rfl

/-- There are no square brackets in a number. -/
theorem map_braceFor_toDigits (number : Nat) :
    (Nat.toDigits 10 number).map braceFor = Nat.toDigits 10 number := by
  have hsame : ∀ c ∈ Nat.toDigits 10 number, braceFor c = c := by
    intro c hmem
    have hdigit := Nat.isDigit_of_mem_toDigits (by decide) (by decide) hmem
    unfold braceFor
    rw [if_neg, if_neg]
    · rintro rfl
      cases hdigit
    · rintro rfl
      cases hdigit
  rw [List.map_congr_left hsame, List.map_id']

/-- In front of a text that does not start with a digit, the normal form spells the
word of the derivation. -/
def Spelled (value : Value) : Prop :=
  ∀ {symbols : List Symbol} {text : List Char}, (∀ c ∈ text.head?, c.isDigit = false) →
    Spells symbols text →
    Spells (value.derivation.word .comma ++ symbols) (value.display.toList.map braceFor ++ text)

/-- The elements behind the first one are spelled with a comma and a space before each. -/
theorem spells_others {others : List Value} {symbols : List Symbol} {text : List Char}
    (ih : ∀ other ∈ others, other.Spelled) (hend : ∀ c ∈ text.head?, c.isDigit = false)
    (h : Spells symbols text) :
    (∀ c ∈ ((others.flatMap fun other => ',' :: ' ' :: other.display.toList).map braceFor ++
        text).head?, c.isDigit = false) ∧
      Spells
        ((others.flatMap fun other => .mark .comma :: other.derivation.word .comma) ++ symbols)
        ((others.flatMap fun other => ',' :: ' ' :: other.display.toList).map braceFor ++
          text) := by
  induction others with
  | nil => exact ⟨hend, h⟩
  | cons other others ihothers =>
    obtain ⟨hhead, hothers⟩ := ihothers fun later hmem => ih later (List.mem_cons_of_mem _ hmem)
    have hother := ih other (List.mem_cons_self ..) hhead hothers
    have hcomma := Spells.mark .comma nofun nofun (.blank ' ' (by decide) hother)
    constructor
    · rintro c ⟨⟩
      rfl
    · rw [List.flatMap_cons, List.flatMap_cons, List.map_append, List.append_assoc,
        List.append_assoc]
      exact hcomma

theorem spelled (value : Value) : value.Spelled := by
  induction value using Value.induction with
  | integer value =>
    intro symbols text hend h
    rw [derivation_integer, Derivation.word_number, toList_display_integer, map_braceFor_toDigits]
    exact .number value hend h
  | array elements ih =>
    intro symbols text hend h
    cases elements with
    | nil =>
      rw [derivation_nil, Derivation.word_empty]
      have htext : (array []).display.toList.map braceFor = ['{', '}'] := by
        simp [braceFor]
      rw [htext]
      exact .mark .leftCurly nofun nofun (.mark .rightCurly nofun nofun h)
    | cons first others =>
      have hword : (array (first :: others)).derivation.word .comma ++ symbols =
          .mark .leftCurly :: (first.derivation.word .comma ++
            ((others.flatMap fun other => .mark .comma :: other.derivation.word .comma) ++
              .mark .rightCurly :: symbols)) := by
        rw [derivation_cons, Derivation.word_list, List.map_map, Derivation.othersWord,
          List.flatMap_map]
        simp [Derivation.initializerWord, Initializer.positional, Initializer.map, targetSymbols,
          Derivation.closingWord]
      have htext : (array (first :: others)).display.toList.map braceFor ++ text =
          '{' :: (first.display.toList.map braceFor ++
            ((others.flatMap fun other => ',' :: ' ' :: other.display.toList).map braceFor ++
              '}' :: text)) := by
        rw [toList_display_cons]
        simp [braceFor]
      have hclosing := Spells.mark .rightCurly nofun nofun h
      obtain ⟨hhead, hothers⟩ := spells_others
        (fun other hmem => ih other (List.mem_cons_of_mem _ hmem)) (by rintro c ⟨⟩; rfl) hclosing
      have hfirst := ih first (List.mem_cons_self ..) hhead hothers
      rw [hword, htext]
      exact .mark .leftCurly nofun nofun hfirst

/-- The normal form spells the word of the derivation. -/
theorem spells_normalForm (value : Value) :
    Spells (value.derivation.word .comma) value.normalForm.toList := by
  have hspells := value.spelled (by simp) .nil
  rw [List.append_nil, List.append_nil] at hspells
  rw [normalForm, String.toList_map]
  exact hspells

example :
    (array [.integer 0, .array [.integer 7], .array []]).normalForm =
      "\x7b0, \x7b7\x7d, \x7b\x7d\x7d" := by cbv

end Value

/-! ## Parsing the text of a value -/

section Parse

variable {limits : Limits} {value : Value}

/-- The tokens of a normal form are the word of the derivation. -/
theorem tokenize_normalForm (value : Value) :
    ∃ tokens, tokenize value.normalForm = .ok tokens ∧
      tokens.map Token.symbol = value.derivation.word .endComma := by
  obtain ⟨tokens, htokens, hplain⟩ := tokenize_of_spells value.spells_normalForm
  exact ⟨tokens, htokens, (map_symbol_eq_word_iff htokens value.derivation).2 hplain⟩

/-- Where the limits cover a value, its normal form stands for it. -/
theorem parse_normalForm_of_le (hdepth : value.depth ≤ limits.maxDepth.toNat)
    (hcells : value.cells - 1 ≤ limits.maxArrayLen.toNat) :
    parse .array limits value.normalForm = .ok (.array value) := by
  obtain ⟨tokens, htokens, hword⟩ := tokenize_normalForm value
  have hfits : value.derivation.Fits limits 0 :=
    Value.fits_derivation_iff.2 (by rw [Nat.zero_add]; exact hdepth)
  have hcost := value.cost_derivation
  have hparse := parse_array_of_literal (parseWhole_of_word htokens hword hfits) (by omega)
  rwa [value.materialize_derivation] at hparse

/-- Where the limits do not cover a value, its normal form crosses one of them. -/
theorem parse_normalForm_of_not_le
    (h : ¬ (value.depth ≤ limits.maxDepth.toNat ∧
      value.cells - 1 ≤ limits.maxArrayLen.toNat)) :
    ∃ found fault, parse .array limits value.normalForm = .error (.grammar { found, fault }) ∧
      (fault = .nestingTooDeep limits.maxDepth ∨ fault = .arrayTooLarge limits.maxArrayLen) := by
  obtain ⟨tokens, htokens, hword⟩ := tokenize_normalForm value
  -- If all initializers handed over can be paid for, it must be the depth that is too much.
  by_cases hcovered : totalCost (literalHandovers limits value.normalForm) ≤
      limits.maxArrayLen.toNat
  · have hdeep : ¬ value.derivation.Fits limits 0 := by
      intro hfits
      have hwhole := parseWhole_of_word htokens hword hfits
      have hcost := value.cost_derivation
      rw [totalCost_literalHandovers hwhole] at hcovered
      rw [Value.fits_derivation_iff, Nat.zero_add] at hfits
      exact h ⟨hfits, by omega⟩
    have hbounds : ∀ bound ∈ value.derivation.bounds,
        bound.toNat < limits.maxArrayLen.toNat := by
      rw [value.bounds_derivation]
      nofun
    obtain ⟨found, hwhole⟩ := parseWhole_tooDeep htokens hword hbounds hdeep
    obtain ⟨written, harray, -⟩ := parseWhole_within hcovered
    rw [hwhole] at harray
    exact ⟨found, _, parse_array_of_parseWhole harray, .inl rfl⟩
  · obtain ⟨handover, hover⟩ := exists_overrunsAt (Nat.lt_of_not_le hcovered)
    exact ⟨handover.first, _, parse_array_of_parseWhole (parseWhole_overrun hover), .inr rfl⟩

/-- The limits that a value was parsed under cover it. -/
theorem le_of_parse_array {source : String}
    (h : parse .array limits source = .ok (.array value)) :
    value.depth ≤ limits.maxDepth.toNat ∧ value.cells - 1 ≤ limits.maxArrayLen.toNat := by
  obtain ⟨budget, hwhole⟩ := parse_array_eq_ok_iff_parseWhole.1 h
  obtain ⟨literal, hliteral, hcost, rfl, -⟩ := parseWhole_array_eq_ok_iff.1 hwhole
  obtain ⟨tokens, derivation, -, -, hfits, rfl⟩ := exists_derivation hliteral
  have hdepth := depth_materialize_le derivation
  have hroom := hfits.1
  have hcells := cells_materialize_le derivation.literal
  omega

/-- Every value is read back from its text with braces in place of the square
brackets, if its depth is within the limit, and so are its cells without the root.
Otherwise one of the two limits is crossed. So whatever was parsed, its text is
parsed to the same value under the same limits. -/
theorem parse_normalForm (limits : Limits) (value : Value) :
    (if value.depth ≤ limits.maxDepth.toNat ∧ value.cells - 1 ≤ limits.maxArrayLen.toNat then
      parse .array limits value.normalForm = .ok (.array value)
    else
      ∃ found fault, parse .array limits value.normalForm = .error (.grammar { found, fault }) ∧
        (fault = .nestingTooDeep limits.maxDepth ∨
          fault = .arrayTooLarge limits.maxArrayLen)) ∧
    ∀ source, parse .array limits source = .ok (.array value) →
      parse .array limits value.normalForm = .ok (.array value) := by
  constructor
  · split
    · rename_i hcovered
      exact parse_normalForm_of_le hcovered.1 hcovered.2
    · rename_i hcovered
      exact parse_normalForm_of_not_le hcovered
  · intro source h
    have hcovered := le_of_parse_array h
    exact parse_normalForm_of_le hcovered.1 hcovered.2

end Parse

end ArrayLiteral
