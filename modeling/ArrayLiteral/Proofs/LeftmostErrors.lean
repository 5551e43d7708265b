import ArrayLiteral.Proofs.JustifiedErrors
import ArrayLiteral.Proofs.Spelling

/-!
# Errors point at the leftmost token that is wrong

Some symbols are accepted if a source with these symbols is parsed in ast mode,
and viable if more symbols can be appended so that they are accepted.  Both can be
told by walking the symbols (`accepted_iff_walk`, `viable_iff_walk`): every walk
can be written out as a source, and every place can be left for the end of the
literal.

So an error of ast mode that is not lexical is neither early nor late
(`parse_ast_error_leftmost`).  The tokens before the one it points at could have
been completed, and with that token they could not.
-/

namespace ArrayLiteral

open Parsing

/-- A source with these symbols has a literal. Commas are read alike. -/
def Accepted (limits : Limits) (symbols : List Symbol) : Prop :=
  ∃ source literal tokens, parse .ast limits source = .ok (.ast literal) ∧
    tokenize source = .ok tokens ∧ (tokens.map fun token => token.symbol.plain) = symbols

/-- Some symbols that are accepted start with these. -/
def Viable (limits : Limits) (symbols : List Symbol) : Prop :=
  ∃ rest, Accepted limits (symbols ++ rest)

section Walk

variable {limits : Limits} {symbols : List Symbol}

/-- What the grammar allows somewhere can be written. -/
theorem written_of_follow {place : Place} {symbol : Symbol} (h : place.follow symbol ≠ none) :
    symbol.Written := by
  constructor
  · rintro rfl
    exact h Place.follow_eof
  · cases symbol with
    | mark punctuation =>
      cases punctuation with
      | endComma =>
        rcases place with ⟨phase, depth⟩
        cases phase <;> cases depth <;> exact absurd rfl h
      | _ => rfl
    | _ => rfl

theorem accepted_iff_walk :
    Accepted limits symbols ↔ Place.outset.walk limits symbols = some .complete := by
  constructor
  · rintro ⟨source, literal, tokens, hparse, htokens, rfl⟩
    have hwhole := parse_ast_eq_ok_iff_parseWhole.1 hparse
    obtain ⟨tokens', htokens', hwalk⟩ := exists_parseWhole_iff_walk.1 ⟨literal, hwhole⟩
    rw [htokens] at htokens'
    cases htokens'
    exact hwalk
  · intro hwalk
    have hwritten : ∀ symbol ∈ symbols, symbol.Written := by
      intro symbol hmem
      obtain ⟨here, there, hnext⟩ := Place.exists_next_of_walk hwalk hmem
      have hfollow : here.follow symbol ≠ none := by
        rw [Place.follow_of_next hnext]
        nofun
      exact written_of_follow hfollow
    obtain ⟨text, hspells⟩ := exists_spells hwritten
    have hsource : Spells symbols (String.ofList text).toList := by
      rwa [String.toList_ofList]
    obtain ⟨tokens, htokens, hsymbols⟩ := tokenize_of_spells hsource
    rw [← hsymbols] at hwalk
    obtain ⟨literal, hwhole⟩ := exists_parseWhole_iff_walk.2 ⟨tokens, htokens, hwalk⟩
    exact ⟨_, literal, tokens, parse_ast_eq_ok_iff_parseWhole.2 hwhole, htokens, hsymbols⟩

theorem viable_iff_walk (hroom : 1 ≤ limits.maxArrayLen) :
    Viable limits symbols ↔ ∃ place, Place.outset.walk limits symbols = some place := by
  constructor
  · rintro ⟨rest, haccepted⟩
    have hwalk := accepted_iff_walk.1 haccepted
    rw [Place.walk_append, Option.bind_eq_some_iff] at hwalk
    obtain ⟨place, hplace, -⟩ := hwalk
    exact ⟨place, hplace⟩
  · rintro ⟨place, hplace⟩
    refine ⟨place.completion, accepted_iff_walk.2 ?_⟩
    rw [Place.walk_append, hplace]
    exact Place.walk_completion hroom place

end Walk

/-- If ast mode fails at a token, then the tokens before it are the beginning of
something that ast mode accepts under these limits. With the token they are not,
or if it is the end of the input, they are not accepted themselves. The token is
pulled only once, but for the end of the input. -/
theorem parse_ast_error_leftmost (limits : Limits) (source : String) (found : Token)
    (fault : GrammarFault) (hroom : 1 ≤ limits.maxArrayLen)
    (h : parse .ast limits source = .error (.grammar { found, fault })) :
    ∃ before : List Token,
      (∀ earlier token, before[earlier]? = some token →
        (Cursor.ofString source).pull earlier = .ok token) ∧
      (∀ earlier, (Cursor.ofString source).pull earlier = .ok found ↔
        if found.isEof then before.length ≤ earlier else earlier = before.length) ∧
      Viable limits (before.map fun token => token.symbol.plain) ∧
      if found.isEof then ¬ Accepted limits (before.map fun token => token.symbol.plain)
      else ¬ Viable limits ((before ++ [found]).map fun token => token.symbol.plain) := by
  have hjust : Justified (.ofString source) limits (.grammar { found, fault }) := by
    cases hwhole : parseWhole literalBuilder () limits source with
    | ok made =>
      rw [parse_ast_of_parseWhole hwhole] at h
      cases h
    | error error =>
      rw [parse_ast_of_parseWhole hwhole] at h
      cases h
      exact justified_of_parseWhole hwhole
  cases hjust with
  | grammar _ _ hstuck =>
    obtain ⟨before, last, place, hyields, hwalk, hnone, hend⟩ := hstuck.exists_before
    obtain ⟨behind, hbefore, -⟩ := hyields.exists_snoc
    refine ⟨before, hbefore.pull_eq, hyields.pull_eq_iff (isEof_of_walk hwalk),
      (viable_iff_walk hroom).2 ⟨place, hwalk⟩, ?_⟩
    cases heof : found.isEof with
    | true =>
      rw [if_pos rfl, accepted_iff_walk, hwalk]
      intro hcomplete
      exact hend (Token.isEof_iff.1 heof) (Option.some.inj hcomplete)
    | false =>
      rw [if_neg Bool.false_ne_true, viable_iff_walk hroom, List.map_append, Place.walk_append,
        hwalk]
      rintro ⟨further, hfurther⟩
      simp [hnone] at hfurther

/-- A comma without an initializer before it is wrong, and the brace before it is not. -/
theorem parse_ast_error_leftmost_comma :
    let found : Token := { symbol := .mark .comma, lexeme := ",", start := 1, stop := 2, line := 1 }
    (1 : UInt64) ≤ ({} : Limits).maxArrayLen ∧
      parse .ast {} "\x7b,1\x7d" = .error (.grammar {
        found, fault := .unexpectedToken "NUMBER or LCURLY" }) ∧
      Viable {} [.mark .leftCurly] ∧ ¬ Viable {} [.mark .leftCurly, .mark .comma] := by
  intro found
  have hroom : (1 : UInt64) ≤ ({} : Limits).maxArrayLen := by decide
  have hparse : parse .ast {} "\x7b,1\x7d" = .error (.grammar {
      found, fault := .unexpectedToken "NUMBER or LCURLY" }) := by cbv
  obtain ⟨before, hpulls, honce, hviable, hnot⟩ :=
    parse_ast_error_leftmost {} "\x7b,1\x7d" found _ hroom hparse
  -- The comma is pulled second, so there is one token before it.
  have hsecond : (Cursor.ofString "\x7b,1\x7d").pull 1 = .ok found := by cbv
  have hlength : 1 = before.length := (honce 1).1 hsecond
  obtain ⟨brace, rfl⟩ := List.length_eq_one_iff.1 hlength.symm
  have hfirst : (Cursor.ofString "\x7b,1\x7d").pull 0 = .ok {
      symbol := .mark .leftCurly, lexeme := "\x7b", start := 0, stop := 1, line := 1 } := by cbv
  rw [hpulls 0 brace rfl] at hfirst
  cases hfirst
  exact ⟨hroom, hparse, hviable, hnot⟩

end ArrayLiteral
