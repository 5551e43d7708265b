import ArrayLiteral.Proofs.Completeness
import ArrayLiteral.Proofs.Images

/-!
# Words that nest too deeply

A derivation whose bounds are all below the limit is read, or it nests too deeply.
In the second case there is an opening brace in its word for which there is no room,
and all that is before this brace is read.  So a run comes to the brace and fails
there (`run_tooDeep`), and so does a parse (`parseWhole_tooDeep`).
-/

namespace ArrayLiteral

namespace Parsing

open Reading

variable {limits : Limits} {depth : Nat} {symbols : List Symbol} {reader : Reader}

/-- The run fails at a brace for which there is no room. -/
def FailsTooDeep (limits : Limits) (outcome : Outcome Unit Literal) : Prop :=
  ∃ found, outcome.result =
    .error (.grammar { found, fault := .nestingTooDeep limits.maxDepth })

theorem failsTooDeep_of_brace {enclosing : List (Frame (Array (Initializer Literal)))}
    (hfull : limits.maxDepth.toNat ≤ depth)
    (h : Ahead limits depth (.mark .leftCurly :: symbols) reader) :
    FailsTooDeep limits (run literalBuilder () ⟨.value, enclosing⟩ reader) := by
  have hdeep : reader.limits.maxDepth.toNat ≤ reader.depth := by
    rw [h.limits_eq, h.depth_eq]
    exact hfull
  have hstart : startValue literalBuilder enclosing reader = .error (.grammar {
      found := reader.lookahead
      fault := .nestingTooDeep reader.limits.maxDepth }) reader := by
    unfold startValue
    rw [lookahead_bind]
    simp only [h.symbol_lookahead]
    exact bind_of_error (enterAggregate_of_full hdeep)
  rw [run_of_error (step_error_of_reading rfl hstart), h.limits_eq]
  exact ⟨reader.lookahead, rfl⟩

/-- Where a derivation starts that only nests too deeply, a run fails for that. -/
def TooDeep (derivation : Derivation) : Prop :=
  ∀ {limits : Limits} {depth : Nat} {symbols : List Symbol} {reader : Reader}
    {enclosing : List (Frame (Array (Initializer Literal)))},
    depth ≤ limits.maxDepth.toNat →
    (∀ bound ∈ derivation.bounds, bound.toNat < limits.maxArrayLen.toNat) →
    ¬ derivation.Fits limits depth →
    Ahead limits depth (derivation.word .endComma ++ symbols) reader →
    FailsTooDeep limits (run literalBuilder () ⟨.value, enclosing⟩ reader)

/-- If an initializer nests too deeply, a run fails at the first one that does. -/
theorem run_others_tooDeep {aggregate : Array (Initializer Literal)}
    {enclosing : List (Frame (Array (Initializer Literal)))}
    {others : List (Initializer Derivation)}
    (ih : ∀ item ∈ others, TooDeep item.value) (hroom : depth < limits.maxDepth.toNat)
    (hwithin : ∀ item ∈ others, TargetWithin limits item.designator? ∧
      ∀ bound ∈ item.value.bounds, bound.toNat < limits.maxArrayLen.toNat)
    (hdeep : ∃ item ∈ others, ¬ item.value.Fits limits (depth + 1))
    (h : Ahead limits (depth + 1)
      (Derivation.othersWord (others.map (Initializer.map (Derivation.word .endComma))) ++ symbols)
      reader) :
    FailsTooDeep limits (run literalBuilder () ⟨.between aggregate, enclosing⟩ reader) := by
  induction others generalizing aggregate reader with
  | nil =>
    obtain ⟨item, hmem, -⟩ := hdeep
    cases hmem
  | cons item others ihothers =>
    obtain ⟨htarget, hbounds⟩ := hwithin item (List.mem_cons_self ..)
    have hitem : Derivation.initializerWord (item.map (Derivation.word .endComma)) =
        targetSymbols item.designator? ++ item.value.word .endComma := rfl
    simp only [List.map_cons, Derivation.othersWord_cons, hitem, List.cons_append,
      List.append_assoc] at h
    obtain ⟨first, valued, hcomma, hvalued⟩ := run_comma htarget h
    rw [hcomma]
    -- An initializer that fits is passed as in any run, and then one behind it does not fit.
    by_cases hfits : item.value.Fits limits (depth + 1)
    · have hothers : ∃ item ∈ others, ¬ item.value.Fits limits (depth + 1) := by
        obtain ⟨later, hmem, hlater⟩ := hdeep
        rcases List.mem_cons.1 hmem with rfl | hmem
        · exact absurd hfits hlater
        · exact ⟨later, hmem, hlater⟩
      obtain ⟨completed, hvalue, hcompleted⟩ := run_word item.value hfits hvalued
      rw [hvalue, run_added]
      exact ihothers (fun other hmem => ih other (List.mem_cons_of_mem _ hmem))
        (fun other hmem => hwithin other (List.mem_cons_of_mem _ hmem)) hothers hcompleted
    · exact ih item (List.mem_cons_self ..) hroom hbounds hfits hvalued

theorem run_tooDeep (derivation : Derivation) : TooDeep derivation := by
  induction derivation using Derivation.induction with
  | number value =>
    intro limits depth symbols reader enclosing hle _ hdeep _
    exact absurd (Derivation.fits_number.2 hle) hdeep
  | empty =>
    intro limits depth symbols reader enclosing _ _ hdeep h
    rw [Derivation.word_empty] at h
    refine failsTooDeep_of_brace (Nat.le_of_not_lt fun hroom => ?_) h
    exact hdeep (Derivation.fits_empty.2 hroom)
  | list first others trailing ihfirst ihothers =>
    intro limits depth symbols reader enclosing _ hbounds hdeep h
    have hwithin := Derivation.forall_bounds_list.1 hbounds
    obtain ⟨htarget, hfirstBounds⟩ := hwithin first (List.mem_cons_self ..)
    have hitem : Derivation.initializerWord (first.map (Derivation.word .endComma)) =
        targetSymbols first.designator? ++ first.value.word .endComma := rfl
    simp only [Derivation.word_list, hitem, List.cons_append, List.append_assoc] at h
    by_cases hroom : depth < limits.maxDepth.toNat
    · obtain ⟨token, valued, hopening, hvalued⟩ := run_opening hroom htarget h
      rw [hopening]
      by_cases hfits : first.value.Fits limits (depth + 1)
      · have hothers : ∃ item ∈ others, ¬ item.value.Fits limits (depth + 1) := by
          by_cases hothers : ∃ item ∈ others, ¬ item.value.Fits limits (depth + 1)
          · exact hothers
          · refine absurd (Derivation.fits_list.2 ⟨hroom, fun item hmem => ?_⟩) hdeep
            refine ⟨(hwithin item hmem).1, ?_⟩
            rcases List.mem_cons.1 hmem with rfl | hmem
            · exact hfits
            · exact Classical.not_not.1 fun hlater => hothers ⟨item, hmem, hlater⟩
        obtain ⟨completed, hvalue, hcompleted⟩ := run_word first.value hfits hvalued
        rw [hvalue, run_added]
        exact run_others_tooDeep ihothers hroom
          (fun item hmem => hwithin item (List.mem_cons_of_mem _ hmem)) hothers hcompleted
      · exact ihfirst hroom hfirstBounds hfits hvalued
    · exact failsTooDeep_of_brace (Nat.le_of_not_lt hroom) h

/-- A source fails to be parsed if its tokens derive and only nest too deeply. -/
theorem parseWhole_tooDeep {source : String} {tokens : List Token} {derivation : Derivation}
    (htokens : tokenize source = .ok tokens)
    (hword : tokens.map Token.symbol = derivation.word .endComma)
    (hbounds : ∀ bound ∈ derivation.bounds, bound.toNat < limits.maxArrayLen.toNat)
    (hdeep : ¬ derivation.Fits limits 0) :
    ∃ found, parseWhole literalBuilder () limits source =
      .error (.grammar { found, fault := .nestingTooDeep limits.maxDepth }) := by
  obtain ⟨reader, hreader, hahead⟩ := exists_ahead_of_tokenize limits htokens hword
  rw [← List.append_nil (derivation.word .endComma)] at hahead
  obtain ⟨found, hresult⟩ := run_tooDeep derivation (Nat.zero_le _) hbounds hdeep hahead
  refine ⟨found, ?_⟩
  rw [parseWhole_eq _ _ hreader, hresult]
  rfl

end Parsing

end ArrayLiteral
