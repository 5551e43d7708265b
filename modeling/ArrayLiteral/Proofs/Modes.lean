import Mathlib
import ArrayLiteral.Proofs.Lockstep
import ArrayLiteral.Proofs.Trails

/-!
# Array mode and ast mode

Both modes parse the same grammar, with different builders.  `literalHandovers`
lists what ast mode hands to its builder for a source, and the costs in it decide
what array mode does.  If the limit covers them all, array mode writes what the
literal stands for, or fails with the error of ast mode.  Otherwise it fails at
the initializer where the running total passes the limit, and points at the token
that was pulled right behind the brace or the comma before it
(`pull_of_mem_literalHandovers`).  The same holds of one value on a budget that
earlier values have written on, with what is left of it.
-/

namespace ArrayLiteral

open Parsing

/-- The initializers that ast mode hands to its builder, in this order. -/
def literalHandovers (limits : Limits) (source : String) : List LiteralHandover :=
  match Reader.ofString source limits with
  | .ok reader => handovers literalBuilder () ⟨.value, []⟩ reader
  | .error _ => []

/-- The initializers that the literal builder gets from one value. -/
def valueHandovers (reader : Reader) : List LiteralHandover :=
  handovers literalBuilder () ⟨.value, []⟩ reader

theorem literalHandovers_eq {limits : Limits} {source : String} {reader : Reader}
    (hreader : Reader.ofString source limits = .ok reader) :
    literalHandovers limits source = valueHandovers reader := by
  simp only [literalHandovers, hreader, valueHandovers]

/-- The first token of an initializer is the one that was pulled right behind an opening brace or
a comma. -/
theorem pull_of_mem_literalHandovers {limits : Limits} {source : String}
    {handover : LiteralHandover} (h : handover ∈ literalHandovers limits source) :
    ∃ earlier mark, (Cursor.ofString source).pull earlier = .ok mark ∧
      (mark.symbol = .mark .leftCurly ∨ mark.symbol = .mark .comma) ∧
      (Cursor.ofString source).pull (earlier + 1) = .ok handover.first := by
  cases hreader : Reader.ofString source limits with
  | error error =>
    rw [literalHandovers, hreader] at h
    cases h
  | ok reader =>
    rw [literalHandovers_eq hreader] at h
    exact pull_of_mem_handovers () ⟨.value, []⟩ reader (Reader.yields_of_ofString hreader) nofun h

/-- The running total of the costs passes the limit at this initializer, and not before. -/
def OverrunsAt (limit : Nat) (trace : List LiteralHandover) (handover : LiteralHandover) : Prop :=
  ∃ front back, trace = front ++ handover :: back ∧ totalCost front ≤ limit ∧
    limit < totalCost front + handover.cost

/-- A trace that is not covered has an initializer where it is not. -/
theorem exists_overrunsAt {limit : Nat} {trace : List LiteralHandover}
    (h : limit < totalCost trace) : ∃ handover, OverrunsAt limit trace handover := by
  induction trace generalizing limit with
  | nil => simp at h
  | cons handover trace ih =>
    rw [totalCost_cons] at h
    by_cases hfirst : limit < handover.cost
    · exact ⟨handover, [], trace, rfl, Nat.zero_le _, by simpa using hfirst⟩
    · have hrest : limit - handover.cost < totalCost trace := by omega
      obtain ⟨later, front, back, rfl, hfront, hover⟩ := ih hrest
      refine ⟨later, handover :: front, back, rfl, ?_, ?_⟩
      · rw [totalCost_cons]
        omega
      · rw [totalCost_cons]
        omega

/-! ## One value -/

section Value

variable {budget : Budget} {reader : Reader}

/-- Where the budget covers all costs, the array builder makes the value of what the literal
builder makes, or fails with its error. -/
theorem parseValue_within
    (hfits : budget.written.toNat + totalCost (valueHandovers reader) ≤ budget.limit.toNat) :
    ∃ written, parseValue arrayBuilder budget reader = {
        result := (parseValue literalBuilder () reader).result.map Literal.materialize
        state := { budget with written }
        reader := (parseValue literalBuilder () reader).reader } ∧
      written.toNat = budget.written.toNat + totalCost (valueHandovers reader) :=
  run_within (.start budget) hfits

/-- Otherwise it fails where the budget falls short. -/
theorem parseValue_overrun {handover : LiteralHandover}
    (hwritten : budget.written.toNat ≤ budget.limit.toNat)
    (h : OverrunsAt (budget.limit.toNat - budget.written.toNat) (valueHandovers reader) handover) :
    (parseValue arrayBuilder budget reader).result =
      .error (.grammar {
        found := handover.first, fault := .arrayTooLarge budget.limit }) := by
  obtain ⟨front, back, htrace, hfits, hover⟩ := h
  have hspent : Config.spent ⟨.value, []⟩ = 0 := rfl
  apply run_overrun (.start budget) htrace
  · rw [hspent]
    omega
  · rw [hspent]
    omega

/-- What is handed over for a literal costs what the literal costs. -/
theorem totalCost_valueHandovers {literal : Literal}
    (h : (parseValue literalBuilder () reader).result = .ok literal) :
    totalCost (valueHandovers reader) = literal.cost := by
  have hspent : Config.spent ⟨.value, []⟩ +
      totalCost (handovers literalBuilder () ⟨.value, []⟩ reader) = literal.cost :=
    spent_add_handovers h
  rwa [show Config.spent ⟨.value, []⟩ = 0 from rfl, Nat.zero_add] at hspent

/-- A literal that the budget covers is written, for exactly its cost. -/
theorem parseValue_array_of_literal {literal : Literal}
    (h : (parseValue literalBuilder () reader).result = .ok literal)
    (hfits : budget.written.toNat + literal.cost ≤ budget.limit.toNat) :
    ∃ written, parseValue arrayBuilder budget reader = {
        result := .ok literal.materialize
        state := { budget with written }
        reader := (parseValue literalBuilder () reader).reader } ∧
      written.toNat = budget.written.toNat + literal.cost := by
  rw [← totalCost_valueHandovers h] at hfits ⊢
  obtain ⟨written, hvalue, hwritten⟩ := parseValue_within hfits
  rw [h] at hvalue
  exact ⟨written, hvalue, hwritten⟩

/-- A literal that the budget does not cover is refused at one of its initializers. -/
theorem exists_parseValue_arrayTooLarge {literal : Literal}
    (h : (parseValue literalBuilder () reader).result = .ok literal)
    (hwritten : budget.written.toNat ≤ budget.limit.toNat)
    (hover : budget.limit.toNat < budget.written.toNat + literal.cost) :
    ∃ found, (parseValue arrayBuilder budget reader).result =
      .error (.grammar { found, fault := .arrayTooLarge budget.limit }) := by
  rw [← totalCost_valueHandovers h] at hover
  obtain ⟨handover, hoverruns⟩ :=
    exists_overrunsAt (Nat.sub_lt_left_of_lt_add hwritten hover)
  exact ⟨handover.first, parseValue_overrun hwritten hoverruns⟩

end Value

/-! ## A source that is one value -/

variable {limits : Limits} {source : String}

/-- Where the limit covers all costs, array mode does what ast mode does, and
writes as much as they are. -/
theorem parseWhole_within
    (hfits : totalCost (literalHandovers limits source) ≤ limits.maxArrayLen.toNat) :
    ∃ written : UInt64,
      parseWhole arrayBuilder (.ofLimit limits.maxArrayLen) limits source =
        (parseWhole literalBuilder () limits source).map (fun made =>
          (made.1.materialize, { written, limit := limits.maxArrayLen })) ∧
      written.toNat = totalCost (literalHandovers limits source) := by
  cases hreader : Reader.ofString source limits with
  | error error =>
    rw [parseWhole_of_error _ _ hreader, parseWhole_of_error _ _ hreader]
    refine ⟨0, rfl, ?_⟩
    simp [literalHandovers, hreader]
  | ok reader =>
    have hnothing : (Budget.ofLimit limits.maxArrayLen).written.toNat = 0 := rfl
    rw [literalHandovers_eq hreader] at hfits ⊢
    obtain ⟨written, hvalue, hwritten⟩ :=
      parseValue_within (by rw [hnothing, Nat.zero_add]; exact hfits)
    refine ⟨written, ?_, by omega⟩
    rw [parseWhole_eq _ _ hreader, parseWhole_eq _ _ hreader]
    have hthere : run arrayBuilder (.ofLimit limits.maxArrayLen) ⟨.value, []⟩ reader = {
        result := (run literalBuilder () ⟨.value, []⟩ reader).result.map Literal.materialize
        state := { written, limit := limits.maxArrayLen }
        reader := (run literalBuilder () ⟨.value, []⟩ reader).reader } := hvalue
    rw [hthere]
    cases hresult : (run literalBuilder () ⟨.value, []⟩ reader).result with
    | error error => rfl
    | ok literal =>
      simp only [Except.map, Except.bind]
      split <;> rfl

theorem parseWhole_overrun {handover : LiteralHandover}
    (h : OverrunsAt limits.maxArrayLen.toNat (literalHandovers limits source) handover) :
    parseWhole arrayBuilder (.ofLimit limits.maxArrayLen) limits source =
      .error (.grammar {
        found := handover.first, fault := .arrayTooLarge limits.maxArrayLen }) := by
  cases hreader : Reader.ofString source limits with
  | error error =>
    obtain ⟨front, back, htrace, -⟩ := h
    simp [literalHandovers, hreader] at htrace
  | ok reader =>
    rw [literalHandovers_eq hreader] at h
    have hvalue : (run arrayBuilder (.ofLimit limits.maxArrayLen) ⟨.value, []⟩ reader).result =
        .error (.grammar {
          found := handover.first, fault := .arrayTooLarge limits.maxArrayLen }) :=
      parseValue_overrun (Nat.zero_le _) h
    rw [parseWhole_eq _ _ hreader, hvalue]
    rfl

/-- What ast mode hands over for a literal costs what the literal costs. -/
theorem totalCost_literalHandovers {literal : Literal}
    (h : parseWhole literalBuilder () limits source = .ok (literal, ())) :
    totalCost (literalHandovers limits source) = literal.cost := by
  obtain ⟨reader, hreader, hresult, -⟩ := exists_run_of_parseWhole literalBuilder h
  rw [literalHandovers_eq hreader]
  exact totalCost_valueHandovers hresult

/-! ## The two modes -/

/-- The value that is written, and what is written for it, are those of the
literal. -/
theorem parseWhole_array_eq_ok_iff {value : Value} {budget : Budget} :
    parseWhole arrayBuilder (.ofLimit limits.maxArrayLen) limits source = .ok (value, budget) ↔
      ∃ literal, parseWhole literalBuilder () limits source = .ok (literal, ()) ∧
        literal.cost ≤ limits.maxArrayLen.toNat ∧ value = literal.materialize ∧
        budget.limit = limits.maxArrayLen ∧ budget.written.toNat = literal.cost := by
  by_cases hfits : totalCost (literalHandovers limits source) ≤ limits.maxArrayLen.toNat
  · obtain ⟨written, harray, hwritten⟩ := parseWhole_within hfits
    rw [harray]
    cases hwhole : parseWhole literalBuilder () limits source with
    | error error => simp [Except.map]
    | ok made =>
      have hcost := totalCost_literalHandovers hwhole
      constructor
      · intro h
        cases h
        exact ⟨made.1, rfl, hcost ▸ hfits, rfl, rfl, hwritten.trans hcost⟩
      · intro h
        obtain ⟨literal, h, -, rfl, hlimit, hbudget⟩ := h
        cases h
        rcases budget with ⟨written', limit⟩
        have hsame : written' = written :=
          UInt64.toNat_inj.1 (hbudget.trans (hwritten.trans hcost).symm)
        rw [hsame, show limit = limits.maxArrayLen from hlimit]
        rfl
  · obtain ⟨handover, hover⟩ := exists_overrunsAt (Nat.lt_of_not_le hfits)
    rw [parseWhole_overrun hover]
    constructor
    · intro h
      cases h
    · intro h
      obtain ⟨literal, hwhole, hcost, -⟩ := h
      rw [← totalCost_literalHandovers hwhole] at hcost
      exact absurd hcost hfits

/-- A literal that the limit covers is written, for exactly its cost. -/
theorem parseWhole_array_of_literal {literal : Literal}
    (h : parseWhole literalBuilder () limits source = .ok (literal, ()))
    (hcost : literal.cost ≤ limits.maxArrayLen.toNat) :
    parseWhole arrayBuilder (.ofLimit limits.maxArrayLen) limits source =
      .ok (literal.materialize,
        { written := .ofNat literal.cost, limit := limits.maxArrayLen }) := by
  have hword : literal.cost < UInt64.size :=
    Nat.lt_of_le_of_lt hcost limits.maxArrayLen.toNat_lt
  have hwritten : (UInt64.ofNat literal.cost).toNat = literal.cost :=
    UInt64.toNat_ofNat_of_lt hword
  exact parseWhole_array_eq_ok_iff.2 ⟨literal, h, hcost, rfl, rfl, hwritten⟩

theorem parse_array_of_literal {literal : Literal}
    (h : parseWhole literalBuilder () limits source = .ok (literal, ()))
    (hcost : literal.cost ≤ limits.maxArrayLen.toNat) :
    parse .array limits source = .ok (.array literal.materialize) :=
  parse_array_of_parseWhole (parseWhole_array_of_literal h hcost)

/-- A literal that the limit does not cover is refused at one of its initializers. -/
theorem exists_parseWhole_arrayTooLarge {literal : Literal}
    (h : parseWhole literalBuilder () limits source = .ok (literal, ()))
    (hcost : limits.maxArrayLen.toNat < literal.cost) :
    ∃ found, parseWhole arrayBuilder (.ofLimit limits.maxArrayLen) limits source =
      .error (.grammar { found, fault := .arrayTooLarge limits.maxArrayLen }) := by
  rw [← totalCost_literalHandovers h] at hcost
  obtain ⟨handover, hover⟩ := exists_overrunsAt hcost
  exact ⟨handover.first, parseWhole_overrun hover⟩

/-- Array mode writes the value of the literal that ast mode reads, if the limit
covers the exact cost of the literal, and then it has written exactly this cost.
Otherwise it fails. -/
theorem parse_array_eq_ok_iff (limits : Limits) (source : String) (value : Value) :
    (parse .array limits source = .ok (.array value) ↔
      ∃ literal, parse .ast limits source = .ok (.ast literal) ∧
        literal.cost ≤ limits.maxArrayLen.toNat ∧ value = literal.materialize) ∧
    (parse .array limits source = .ok (.array value) →
      ∃ literal budget, parse .ast limits source = .ok (.ast literal) ∧
        parseWhole arrayBuilder (.ofLimit limits.maxArrayLen) limits source =
          .ok (value, budget) ∧
        budget.written.toNat = literal.cost) := by
  simp only [parse_array_eq_ok_iff_parseWhole, parse_ast_eq_ok_iff_parseWhole]
  constructor
  · constructor
    · intro h
      obtain ⟨budget, h⟩ := h
      obtain ⟨literal, hwhole, hcost, hvalue, -⟩ := parseWhole_array_eq_ok_iff.1 h
      exact ⟨literal, hwhole, hcost, hvalue⟩
    · intro h
      obtain ⟨literal, hwhole, hcost, hvalue⟩ := h
      have hwritten : (UInt64.ofNat literal.cost).toNat = literal.cost :=
        UInt64.toNat_ofNat_of_lt
          (Nat.lt_succ_of_le (Nat.le_trans hcost (toNat_le_maxWord limits.maxArrayLen)))
      exact ⟨{ written := .ofNat literal.cost, limit := limits.maxArrayLen },
        parseWhole_array_eq_ok_iff.2 ⟨literal, hwhole, hcost, hvalue, rfl, hwritten⟩⟩
  · intro h
    obtain ⟨budget, h⟩ := h
    obtain ⟨literal, hwhole, -, -, -, hwritten⟩ := parseWhole_array_eq_ok_iff.1 h
    exact ⟨literal, budget, hwhole, h, hwritten⟩

/-- The errors of array mode. Where the running total of the costs passes the
limit, array mode fails at the first token of that initializer, whatever ast mode
does. Where it never does, array mode fails exactly with the errors of ast mode. -/
theorem parse_array_error_cases (limits : Limits) (source : String) :
    (∀ handover,
      OverrunsAt limits.maxArrayLen.toNat (literalHandovers limits source) handover →
        parse .array limits source = .error (.grammar {
          found := handover.first, fault := .arrayTooLarge limits.maxArrayLen })) ∧
    ((∀ handover,
        ¬ OverrunsAt limits.maxArrayLen.toNat (literalHandovers limits source) handover) →
      ∀ error, parse .array limits source = .error error ↔
        parse .ast limits source = .error error) := by
  constructor
  · intro handover hover
    rw [parse_array_of_parseWhole (parseWhole_overrun hover)]
    rfl
  · intro hnone error
    have hfits : totalCost (literalHandovers limits source) ≤ limits.maxArrayLen.toNat := by
      by_contra hlt
      obtain ⟨handover, hover⟩ := exists_overrunsAt (Nat.lt_of_not_le hlt)
      exact hnone handover hover
    obtain ⟨written, harray, -⟩ := parseWhole_within hfits
    rw [parse_array_of_parseWhole harray]
    cases hwhole : parseWhole literalBuilder () limits source with
    | error error' =>
      rw [parse_ast_of_parseWhole hwhole]
      simp [Except.map]
    | ok made =>
      rw [parse_ast_of_parseWhole hwhole]
      simp [Except.map]

end ArrayLiteral
