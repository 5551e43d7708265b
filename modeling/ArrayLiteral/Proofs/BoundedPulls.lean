import Mathlib
import ArrayLiteral.Proofs.Paced

/-!
# Parsing makes progress and stops

A parser of a source with so many pieces makes one pull for each of them at most, and one for
the end of the input.  The account of the pieces and the record of the pulls meet here: what
was pulled and what is still pending are one more than the pieces of the source
(`length_pulls_add`), and what was pulled are the first pulls from the source
(`recorded_pulls`).
-/

namespace ArrayLiteral.Parsing

variable {σ α γ : Type}

/-- The result of the pull that stopped a run, if one did. -/
def Outcome.failed (outcome : Outcome σ α) : List (Except LexicalError Token) :=
  match outcome.result with
  | .ok _ => []
  | .error error => error.results

/-- The results of all pulls of a reader up to the end of a run, the first one first. -/
def Outcome.pulls (outcome : Outcome σ α) : List (Except LexicalError Token) :=
  outcome.reader.pulled.map .ok ++ outcome.failed

/-- The results of the pulls that parsing a source makes, the first one first. -/
def pulls (builder : Builder σ α γ) (state : σ) (limits : Limits) (source : String) :
    List (Except LexicalError Token) :=
  match Reader.ofString source limits with
  | .error error => error.results
  | .ok reader => (parseValue builder state reader).pulls

section Pulls

theorem tokensOf_failed (outcome : Outcome σ α) : tokensOf outcome.failed = [] := by
  rcases outcome with ⟨error | value, state, after⟩
  · cases error <;> rfl
  · rfl

variable (builder : Builder σ α γ) (state : σ)

theorem exists_follows_parseValue (reader : Reader) :
    ∃ tokens : List Token,
      Follows (tokens.map .ok ++ (parseValue builder state reader).failed) reader
        (parseValue builder state reader).reader := by
  have haccounted : Accounted _ reader (parseValue builder state reader).toResult :=
    accounted_parseValue builder state reader
  generalize parseValue builder state reader = outcome at haccounted ⊢
  rcases outcome with ⟨error | value, state', after⟩
  · cases haccounted with
    | error _ _ tokens hfollows => exact ⟨tokens, hfollows⟩
  · cases haccounted with
    | ok _ _ tokens hfollows =>
      refine ⟨tokens, ?_⟩
      show Follows (tokens.map .ok ++ []) reader after
      rw [List.append_nil]
      exact hfollows

theorem exists_uses_parseValue (reader : Reader) :
    ∃ tokens, Uses tokens (parseValue builder state reader).failed.length reader
      (parseValue builder state reader).reader := by
  have hmetered : Metered 1 reader (parseValue builder state reader).toResult :=
    metered_parseValue builder state reader
  generalize parseValue builder state reader = outcome at hmetered ⊢
  rcases outcome with ⟨error | value, state', after⟩
  · cases hmetered with
    | error _ _ tokens huses => exact ⟨tokens, huses⟩
  · cases hmetered with
    | ok _ _ h =>
      obtain ⟨tokens, huses, -⟩ := h
      exact ⟨tokens, huses⟩

/-- A parse that succeeds has consumed a token, from whatever reader on. -/
theorem consumes_of_parseValue {reader : Reader} {value : α}
    (h : (parseValue builder state reader).result = .ok value) :
    Consumes 1 reader (parseValue builder state reader).reader := by
  have hmetered : Metered 1 reader (parseValue builder state reader).toResult :=
    metered_parseValue builder state reader
  unfold Outcome.toResult at hmetered
  rw [h] at hmetered
  exact hmetered.consumes

variable {limits : Limits} {source : String} {reader : Reader}

/-- The pulls of a parse that has got a reader are the first ones from the source. -/
theorem recorded_pulls (h : Reader.ofString source limits = .ok reader) :
    Recorded (Cursor.ofString source) (parseValue builder state reader).pulls
      (parseValue builder state reader).reader := by
  obtain ⟨tokens, hfollows⟩ := exists_follows_parseValue builder state reader
  have hall := (Recorded.ofString h).follows hfollows
  have hpulled : (parseValue builder state reader).reader.pulled = reader.lookahead :: tokens := by
    rw [hall.pulled_eq, ← List.append_assoc, tokensOf_append, tokensOf_failed, List.append_nil]
    exact tokensOf_map_ok (reader.lookahead :: tokens)
  unfold Outcome.pulls
  rw [hpulled]
  exact hall

/-- What was pulled and what is still pending are one more than the pieces of the source. -/
theorem length_pulls_add (h : Reader.ofString source limits = .ok reader) :
    (parseValue builder state reader).pulls.length +
      (parseValue builder state reader).reader.pending = (Cursor.ofString source).pieces + 1 := by
  obtain ⟨tokens, huses⟩ := exists_uses_parseValue builder state reader
  have hpending := huses.pending_eq
  have hconsumed := huses.consumed_eq
  rw [(Reader.scan_of_ofString h).2.1, List.append_nil] at hconsumed
  rw [Reader.pending_of_ofString h] at hpending
  rw [Outcome.pulls, List.length_append, List.length_map, Reader.pulled, List.length_append,
    hconsumed, List.reverse_reverse, List.length_singleton]
  omega

/-- The end of the input is never consumed. -/
theorem isEof_of_mem_consumed (h : Reader.ofString source limits = .ok reader) {token : Token}
    (hmem : token ∈ (parseValue builder state reader).reader.consumed) : token.isEof = false := by
  obtain ⟨tokens, huses⟩ := exists_uses_parseValue builder state reader
  rw [huses.consumed_eq, (Reader.scan_of_ofString h).2.1, List.append_nil] at hmem
  exact huses.isEof_eq token (List.mem_reverse.1 hmem)

/-- All pulls are from the source, and there is one for every piece at most, and one for the
end of the input. -/
theorem pulls_eq_and_length_le (limits : Limits) (source : String) :
    pulls builder state limits source =
        (Cursor.ofString source).results (pulls builder state limits source).length ∧
      (pulls builder state limits source).length ≤ (Cursor.ofString source).pieces + 1 := by
  unfold pulls
  cases hreader : Reader.ofString source limits with
  | ok reader =>
    have hlength := length_pulls_add builder state hreader
    exact ⟨(recorded_pulls builder state hreader).results_eq.symm, Nat.le.intro hlength⟩
  | error error =>
    unfold Reader.ofString at hreader
    split at hreader
    · cases hreader
    · rename_i fault cursor hnext
      cases hreader
      refine ⟨?_, Nat.succ_le_succ (Nat.zero_le _)⟩
      show [.error fault] = (Cursor.ofString source).results 1
      rw [Cursor.results_one, hnext]

theorem pulls_of_ofString (h : Reader.ofString source limits = .ok reader) :
    pulls builder state limits source = (parseValue builder state reader).pulls := by
  rw [pulls, h]

/-- A parse of the whole source ends at the end of the input, which is the last pull. -/
theorem length_pulls_of_ok {made : α × σ}
    (h : parseWhole builder state limits source = .ok made) :
    (pulls builder state limits source).length = (Cursor.ofString source).pieces + 1 := by
  obtain ⟨reader, hreader, hresult, heof⟩ := exists_run_of_parseWhole builder h
  change (parseValue builder state reader).result = _ at hresult
  change (parseValue builder state reader).reader.lookahead.isEof = true at heof
  rw [pulls_of_ofString builder state hreader]
  have hlength := length_pulls_add builder state hreader
  have hresults := (recorded_pulls builder state hreader).results_eq
  generalize parseValue builder state reader = outcome at hresult heof hlength hresults ⊢
  have hpulls : outcome.pulls =
      outcome.reader.consumed.reverse.map .ok ++ [.ok outcome.reader.lookahead] := by
    rw [Outcome.pulls, Outcome.failed, hresult, List.append_nil, Reader.pulled, List.map_append]
    rfl
  have hcount : outcome.pulls.length = outcome.reader.consumed.length + 1 := by
    rw [hpulls, List.length_append, List.length_map, List.length_reverse]
    rfl
  rw [hcount, Cursor.results_add, hpulls] at hresults
  have hlast : (Cursor.ofString source).pull outcome.reader.consumed.length =
      .ok outcome.reader.lookahead :=
    List.head_eq_of_cons_eq (List.append_inj_right' hresults rfl)
  have hpieces := ((Cursor.ofString source).pull_isEof_iff _).1 ⟨_, hlast, heof⟩
  omega

/-- The pieces of a source are the pulls in front of the end of the input. Parsing it makes the
first pulls of these, one for every piece at most and one for the end of the input, and it makes
all of them if it succeeds. The end of the input is never consumed: where the parse stops, the
pulls and the pieces that are still pending are one more than the pieces. Loop and recursion
that are cut off after as many pieces are no other parser. For a value that is complete a token
was consumed at least, by a call as by the whole run, and for a round of the loop that goes on
too. -/
theorem parsing_makes_progress (limits : Limits) (source : String) :
    let start := Cursor.ofString source
    let pulled := pulls builder state limits source
    (∀ earlier, (∃ token, start.pull earlier = .ok token ∧ token.isEof = true) ↔
      start.pieces ≤ earlier) ∧
    pulled = start.results pulled.length ∧
    pulled.length ≤ start.pieces + 1 ∧
    (∀ made, parseWhole builder state limits source = .ok made →
      pulled.length = start.pieces + 1) ∧
    (∀ reader, Reader.ofString source limits = .ok reader →
      let outcome := parseValue builder state reader
      outcome.reader.cursor = start.after pulled.length ∧
      pulled.length + outcome.reader.pending = start.pieces + 1 ∧
      (∀ token ∈ outcome.reader.consumed, token.isEof = false) ∧
      ∀ pieces, start.pieces ≤ pieces →
        Descent.paced builder pieces (state, reader) = outcome.toDescent) ∧
    (∀ state reader value, (parseValue builder state reader).result = .ok value →
      Consumes 1 reader (parseValue builder state reader).reader) ∧
    ∀ pieces state reader,
      let value := Descent.paced builder pieces
      (∀ built state' after, value (state, reader) = .ok built (state', after) →
        Consumes 1 reader after) ∧
      (∀ rounds, Descent.initializers builder value (rounds + 1) =
        Descent.round builder value (Descent.initializers builder value rounds)) ∧
      ∀ aggregate,
        (∃ aggregate' state' after,
          Consumes 1 reader after ∧ after.cursor.pieces < reader.cursor.pieces ∧
          ∀ again, Descent.round builder value again aggregate (state, reader) =
            again aggregate' (state', after)) ∨
        ∃ result, ∀ again,
          Descent.round builder value again aggregate (state, reader) = result := by
  intro start pulled
  obtain ⟨hresults, hlength⟩ := pulls_eq_and_length_le builder state limits source
  refine ⟨start.pull_isEof_iff, hresults, hlength,
    fun made h => length_pulls_of_ok builder state h, ?_, ?_, ?_⟩
  · intro reader hreader outcome
    have hpulled : pulled = outcome.pulls := pulls_of_ofString builder state hreader
    rw [hpulled]
    refine ⟨(recorded_pulls builder state hreader).cursor_eq,
      length_pulls_add builder state hreader,
      fun token hmem => isEof_of_mem_consumed builder state hreader hmem, ?_⟩
    intro pieces hpieces
    have hdepth : reader.depth = 0 := (Reader.scan_of_ofString hreader).2.2.2
    rw [← Reader.pending_of_ofString hreader] at hpieces
    exact paced_eq builder state hdepth hpieces
  · intro state reader value h
    exact consumes_of_parseValue builder state h
  · intro pieces state reader value
    refine ⟨fun built state' after h => ?_, Descent.initializers_succ value, fun aggregate => ?_⟩
    · have hspends : Spends 1 reader (value (state, reader)) :=
        Descent.spends_paced pieces state reader
      rw [h] at hspends
      exact hspends.consumes
    · obtain ⟨aggregate', state', after, hround, hagain⟩ | ⟨result, -, hend⟩ :=
        Descent.round_cases (Descent.spends_paced pieces) aggregate state reader
      · exact .inl ⟨aggregate', state', after, hround.weaken (by omega), hround.pieces_lt, hagain⟩
      · exact .inr ⟨result, hend⟩

end Pulls

/-- A source that ends behind an initializer is read to the end of the input, and not
further. -/
theorem parsing_makes_progress_truncated :
    let source := "\x7b1, 2"
    ∃ reader, Reader.ofString source {} = .ok reader ∧
      (Cursor.ofString source).pieces = 4 ∧ (pulls literalBuilder () {} source).length = 5 ∧
      (parseValue literalBuilder () reader).reader.consumed.length = 4 ∧
      (∀ token ∈ (parseValue literalBuilder () reader).reader.consumed, token.isEof = false) ∧
      Descent.paced literalBuilder 4 ((), reader) =
        (parseValue literalBuilder () reader).toDescent := by
  intro source
  let brace : Token :=
    { symbol := .mark .leftCurly, lexeme := "\x7b", start := 0, stop := 1, line := 1 }
  let reader : Reader :=
    { cursor := { rest := ['1', ',', ' ', '2'], offset := 1, line := 1 }, lookahead := brace,
      consumed := [], limits := {}, depth := 0 }
  have hopened : Reader.ofString source {} = .ok reader := by cbv
  have hlength : (pulls literalBuilder () {} source).length = 5 := by cbv
  have hconsumed : (parseValue literalBuilder () reader).reader.consumed.length = 4 := by cbv
  obtain ⟨hend, -, -, -, hreader, -⟩ := parsing_makes_progress literalBuilder () {} source
  obtain ⟨-, -, hmore, hpaced⟩ := hreader reader hopened
  -- The fifth pull comes to the end of the input, and the fourth one does not.
  have hle : (Cursor.ofString source).pieces ≤ 4 :=
    (hend 4).1 ⟨{ symbol := .eof, lexeme := "", start := 5, stop := 5, line := 1 }, by cbv, by cbv⟩
  have hlt : ¬ (Cursor.ofString source).pieces ≤ 3 := by
    intro hthree
    obtain ⟨token, htoken, heof⟩ := (hend 3).2 hthree
    have hnumber : (Cursor.ofString source).pull 3 =
        .ok { symbol := .number 2, lexeme := "2", start := 4, stop := 5, line := 1 } := by cbv
    rw [hnumber] at htoken
    cases htoken
    exact absurd heof (by decide)
  exact ⟨reader, hopened, Nat.le_antisymm hle (Nat.lt_of_not_le hlt), hlength, hconsumed, hmore,
    hpaced 4 hle⟩

end ArrayLiteral.Parsing
