import ArrayLiteral.Proofs.Journal
import ArrayLiteral.Proofs.LeftmostErrors
import ArrayLiteral.Proofs.RaisedLimits

/-!
# Lexical errors are reported when they are reached

Tokens are pulled as they are needed, so a parse sees the first lexical error of its
source or none at all.  What every run does with its pulls is known from `Accounted`:
none but the last one fails, and if that fails, its error is returned.  So a parse that
succeeds has pulled up to the end of the input without an error, and a lexical error that
it reports is the one that splitting the source into tokens reports
(`firstFault_parseWhole`).  Neither depends on the builder.

A lexical error does not come early either.  In ast mode the tokens in front of it are
the beginning of a source that is parsed, if the limit on indices is as high as can be.
The last of them may be a number beyond the limit, for the token behind a number is
pulled before the number is compared (`begins_of_cutOff`).  No limit is above the largest
word, so this number is still no index, but every smaller one would be.
-/

namespace ArrayLiteral

open Parsing

/-! ## The first error -/

namespace Cursor

variable {cursor : Cursor} {tokens : List Token}

theorem results_succ (cursor : Cursor) (pulls : Nat) :
    cursor.results (pulls + 1) = cursor.next.1 :: cursor.next.2.results pulls := by
  rw [Nat.add_comm, results_add, results_one]
  rfl

/-- If only the last one of some pulls fails, its error ends the scan. -/
theorem fault?_scan_of_results {error : LexicalError}
    (h : cursor.results (tokens.length + 1) = tokens.map .ok ++ [.error error]) :
    cursor.scan.fault? = some error := by
  induction tokens generalizing cursor with
  | nil =>
    have hnext : cursor.next = (.error error, cursor.next.2) :=
      Prod.ext (List.cons.inj h).1 rfl
    rw [scan_of_error hnext]
  | cons token tokens ih =>
    rw [List.length_cons, results_succ] at h
    obtain ⟨hfirst, hothers⟩ := List.cons.inj h
    have hnext : cursor.next = (.ok token, cursor.next.2) := Prod.ext hfirst rfl
    have hrest := ih hothers
    cases hend : token.isEof with
    | false =>
      rw [scan_of_token hnext hend]
      exact hrest
    | true =>
      -- Behind the end of the input no pull fails.
      obtain ⟨-, hnil, -⟩ := eq_of_next_isEof hnext hend
      rw [scan_of_eof (next_of_rest_nil hnil) rfl] at hrest
      cases hrest

/-- If pulls lead to the end of the input and none fails, there is no error. -/
theorem fault?_scan_of_end (h : cursor.results tokens.length = tokens.map .ok)
    (hend : ∃ token ∈ tokens, token.isEof = true) : cursor.scan.fault? = none := by
  induction tokens generalizing cursor with
  | nil =>
    obtain ⟨token, hmem, -⟩ := hend
    cases hmem
  | cons token tokens ih =>
    rw [List.length_cons, results_succ] at h
    obtain ⟨hfirst, hothers⟩ := List.cons.inj h
    have hnext : cursor.next = (.ok token, cursor.next.2) := Prod.ext hfirst rfl
    cases hlast : token.isEof with
    | true => rw [scan_of_eof hnext hlast]
    | false =>
      rw [scan_of_token hnext hlast]
      obtain ⟨last, hmem, heof⟩ := hend
      rcases List.mem_cons.1 hmem with rfl | hmem
      · rw [heof] at hlast
        cases hlast
      · exact ih hothers ⟨last, hmem, heof⟩

theorem Yields.results_eq {behind : Cursor} (h : cursor.Yields tokens behind) :
    cursor.results tokens.length = tokens.map .ok := by
  apply List.ext_getElem
  · rw [length_results, List.length_map]
  · intro earlier _ hlt
    rw [List.length_map] at hlt
    simpa [results] using h.pull_eq earlier tokens[earlier] (List.getElem?_eq_getElem hlt)

end Cursor

/-- A source without a lexical error can be split into tokens. -/
theorem exists_tokenize_of_fault? {source : String}
    (h : (Cursor.ofString source).scan.fault? = none) : ∃ tokens, tokenize source = .ok tokens := by
  refine ⟨(Cursor.ofString source).scan.tokens, tokenize_eq_ok_iff.2 ?_⟩
  rw [← h]

/-- What the result of a parse says of the first lexical error of its source. An error that
is not lexical is about a token in front of it, or about the end of the input, if there
is no lexical error. -/
def FirstFault {α : Type} (source : String) : Except Error α → Prop
  | .ok _ => ∃ tokens, tokenize source = .ok tokens
  | .error (.lexical error) => tokenize source = .error error
  | .error (.grammar error) => ∃ pulled : List Token,
    (Cursor.ofString source).results pulled.length = pulled.map .ok ∧ error.found ∈ pulled ∧
      (error.found.isEof = true → ∃ tokens, tokenize source = .ok tokens)

section Parses

variable {σ α γ : Type} {source : String} {limits : Limits}

theorem firstFault_map {β : Type} {result : Except Error α} (f : α → β)
    (h : FirstFault source result) : FirstFault source (result.map f) := by
  cases result with
  | ok value => exact h
  | error error => cases error <;> exact h

/-- A reader that cannot be opened stops at the first lexical error. -/
theorem firstFault_of_ofString {error : Error} (h : Reader.ofString source limits = .error error) :
    FirstFault source (.error error : Except Error α) := by
  unfold Reader.ofString at h
  split at h
  · cases h
  · rename_i lexical after hnext
    cases h
    apply tokenize_eq_error_iff.2
    rw [Cursor.scan_of_error hnext]

section Recorded

variable {tokens : List Token} {reader : Reader}

theorem results_of_recorded {cursor : Cursor}
    (h : Recorded cursor (tokens.map .ok) reader) :
    reader.pulled = tokens ∧ cursor.results tokens.length = tokens.map .ok := by
  refine ⟨h.pulled_eq.trans (tokensOf_map_ok tokens), ?_⟩
  have hresults := h.results_eq
  rwa [List.length_map] at hresults

/-- A reader that got to the end of the input without an error has seen all tokens. -/
theorem exists_tokenize_of_recorded (h : Recorded (.ofString source) (tokens.map .ok) reader)
    {last : Token} (hmem : last ∈ reader.pulled) (hend : last.isEof = true) :
    ∃ tokens, tokenize source = .ok tokens := by
  obtain ⟨hpulled, hresults⟩ := results_of_recorded h
  rw [hpulled] at hmem
  exact exists_tokenize_of_fault? (Cursor.fault?_scan_of_end hresults ⟨last, hmem, hend⟩)

theorem firstFault_of_found (h : Recorded (.ofString source) (tokens.map .ok) reader)
    {found : Token} (hmem : found ∈ reader.pulled) (fault : GrammarFault) :
    FirstFault source (.error (.grammar { found, fault }) : Except Error α) := by
  obtain ⟨hpulled, hresults⟩ := results_of_recorded h
  exact ⟨tokens, hresults, hpulled ▸ hmem, exists_tokenize_of_recorded h hmem⟩

end Recorded

/-- A parse pulls without an error, or up to the first error and no further. -/
theorem firstFault_parseWhole (builder : Builder σ α γ) (state : σ) (limits : Limits)
    (source : String) : FirstFault source (parseWhole builder state limits source) := by
  cases hreader : Reader.ofString source limits with
  | error error =>
    rw [parseWhole_of_error builder state hreader]
    exact firstFault_of_ofString hreader
  | ok reader =>
    rw [parseWhole_eq builder state hreader]
    have hopened := Recorded.ofString hreader
    have haccounted := accounted_parseValue builder state reader
    unfold parseValue at haccounted
    generalize run builder state ⟨.value, []⟩ reader = outcome at haccounted
    rcases outcome with ⟨result, last, after⟩
    cases result with
    | error error =>
      cases haccounted with
      | error _ _ tokens hfollows hfound =>
        have hrecorded := hopened.follows hfollows
        cases error with
        | lexical error =>
          have hresults : (Cursor.ofString source).results
              ((reader.lookahead :: tokens).length + 1) =
                (reader.lookahead :: tokens).map .ok ++ [.error error] := by
            simpa [Error.results] using hrecorded.results_eq
          exact tokenize_eq_error_iff.2 (Cursor.fault?_scan_of_results hresults)
        | grammar error =>
          rw [Error.results, List.append_nil] at hrecorded
          have hall : Recorded (.ofString source) ((reader.lookahead :: tokens).map .ok) after :=
            hrecorded
          exact firstFault_of_found hall hfound _
    | ok value =>
      cases haccounted with
      | ok _ _ tokens hfollows =>
        have hrecorded : Recorded _ ((reader.lookahead :: tokens).map .ok) after :=
          hopened.follows hfollows
        have hmem := after.lookahead_mem_pulled
        show FirstFault source (if after.lookahead.isEof then _ else _)
        by_cases hend : after.lookahead.isEof = true
        · rw [if_pos hend]
          exact exists_tokenize_of_recorded hrecorded hmem hend
        · rw [if_neg hend]
          exact firstFault_of_found hrecorded hmem _

/-- No mode reports an error in place of an earlier one. -/
theorem firstFault_parse (mode : Mode) (limits : Limits) (source : String) :
    FirstFault source (parse mode limits source) := by
  cases mode with
  | array => exact firstFault_map _ (firstFault_map _ (firstFault_parseWhole _ _ _ _))
  | ast => exact firstFault_map _ (firstFault_map _ (firstFault_parseWhole _ _ _ _))
  | tokens =>
    unfold parse
    cases htokens : tokenize source with
    | ok tokens => exact ⟨tokens, htokens⟩
    | error error => exact htokens

end Parses

/-! ## What stands in front of a lexical error -/

/-- The tokens of some source that is parsed in ast mode start with these symbols. -/
def Begins (limits : Limits) (symbols : List Symbol) : Prop :=
  ∃ source literal tokens, parse .ast limits source = .ok (.ast literal) ∧
    tokenize source = .ok tokens ∧ symbols <+: tokens.map Token.symbol

/-- The symbols begin a source that is parsed, or would do so if the number at their end
were an index. It is not if it is the largest word, which is below no limit. -/
def BeginsUpToIndex (limits : Limits) (symbols : List Symbol) : Prop :=
  Begins limits symbols ∨ ∃ front, symbols = front ++ [.number maxWord] ∧
    ∀ index < limits.maxArrayLen, Begins limits (front ++ [.number index])

namespace Place

variable {limits limits' : Limits} {place place' : Place} {symbol : Symbol}

theorem within_of_raised (hraised : limits.Raised limits')
    (h : place.within limits symbol = true) : place.within limits' symbol = true := by
  rcases place with ⟨phase, depth⟩
  have hbound : ∀ bound, bound < limits.maxArrayLen → bound < limits'.maxArrayLen :=
    fun bound hlt => UInt64.lt_of_lt_of_le hlt hraised.maxArrayLen
  have hdeep : depth < limits.maxDepth.toNat → depth < limits'.maxDepth.toNat :=
    fun hlt => Nat.lt_of_lt_of_le hlt (UInt64.le_iff_toNat_le.1 hraised.maxDepth)
  cases symbol with
  | number bound => cases phase <;> simp_all [within]
  | mark punctuation => cases punctuation <;> cases phase <;> simp_all [within]
  | eof => cases phase <;> rfl

theorem next_of_raised (hraised : limits.Raised limits')
    (h : place.next limits symbol = some place') : place.next limits' symbol = some place' := by
  have hfollow := follow_of_next h
  unfold next at h ⊢
  split at h
  · rename_i hwithin
    rw [if_pos (within_of_raised hraised hwithin), hfollow]
  · cases h

/-- What is allowed one after the other stays so under higher limits. -/
theorem walk_of_raised (hraised : limits.Raised limits') {symbols : List Symbol}
    (h : place.walk limits symbols = some place') : place.walk limits' symbols = some place' := by
  induction symbols generalizing place with
  | nil => exact h
  | cons symbol symbols ih =>
    rw [walk_cons, Option.bind_eq_some_iff] at h ⊢
    obtain ⟨middle, hnext, hwalk⟩ := h
    exact ⟨middle, next_of_raised hraised hnext, ih hwalk⟩

namespace AllowsUpToIndex

/-- A number below the limit is allowed where only the limit was in its way. -/
theorem exists_next (h : place.AllowsUpToIndex limits symbol)
    (hdepth : limits'.maxDepth = limits.maxDepth)
    (hindex : ∀ bound, symbol = .number bound → bound < limits'.maxArrayLen) :
    ∃ place', place.next limits' symbol = some place' := by
  obtain ⟨place', hfollow⟩ := Option.ne_none_iff_exists'.1 h.follow_ne_none
  have hdeep := h.depth_lt
  have hwithin : place.within limits' symbol = true := by
    rcases place with ⟨phase, depth⟩
    cases symbol with
    | number bound => cases phase <;> simp_all [within]
    | mark punctuation => cases punctuation <;> cases phase <;> simp_all [within]
    | eof => cases phase <;> rfl
  exact ⟨place', by rw [next, if_pos hwithin, hfollow]⟩

/-- Where one number is due any other is. -/
theorem number {bound : UInt64} (h : place.AllowsUpToIndex limits (.number bound))
    (other : UInt64) : place.AllowsUpToIndex limits (.number other) := by
  refine ⟨?_, nofun⟩
  have hfollow := h.follow_ne_none
  rcases place with ⟨phase, depth⟩
  cases phase <;> cases depth <;> exact hfollow

end AllowsUpToIndex

/-- Behind a comma an initializer may follow, so the literal is not completed with a
closing brace. -/
theorem head?_completion_of_follow_comma (h : place.follow (.mark .comma) = some place') :
    place'.completion.head? ≠ some (.mark .rightCurly) := by
  rcases place with ⟨phase, depth⟩
  cases phase with
  | behind =>
    cases depth with
    | zero => cases h
    | succ depth =>
      cases h
      nofun
  | _ => cases h

end Place

/-- What can be walked begins a source that is parsed, with the trailing commas marked. -/
theorem begins_of_walk {limits : Limits} (hroom : 1 ≤ limits.maxArrayLen)
    {symbols : List Symbol} {place : Place}
    (hwalk : Place.outset.walk limits symbols = some place) :
    Begins limits (markCommas symbols) := by
  have hcomplete : Place.outset.walk limits (symbols ++ place.completion) = some .complete := by
    rw [Place.walk_append, hwalk]
    exact Place.walk_completion hroom place
  obtain ⟨source, literal, tokens, hparse, htokens, hplain⟩ := accepted_iff_walk.2 hcomplete
  refine ⟨source, literal, tokens, hparse, htokens, ?_⟩
  -- The kinds of commas are decided by what is behind them.
  have hmarked := (Cursor.ofString source).map_symbol_scan
  rw [tokenize_eq_ok_iff.1 htokens, hplain, markCommas_append] at hmarked
  · rw [hmarked]
    exact List.prefix_append _ _
  · intro hcomma
    obtain ⟨front, rfl⟩ := List.getLast?_eq_some_iff.1 hcomma
    rw [Place.walk_append, Option.bind_eq_some_iff] at hwalk
    obtain ⟨before, -, hlast⟩ := hwalk
    rw [Place.walk_cons, Option.bind_eq_some_iff] at hlast
    obtain ⟨behind, hnext, hsame⟩ := hlast
    cases hsame
    exact Place.head?_completion_of_follow_comma (Place.follow_of_next hnext)

/-- The same with a number at the end, which marks no comma. -/
theorem begins_of_walk_number {limits : Limits} (hroom : 1 ≤ limits.maxArrayLen)
    {symbols : List Symbol} {index : UInt64} {place : Place}
    (hwalk : Place.outset.walk limits (symbols ++ [.number index]) = some place) :
    Begins limits (markCommas symbols ++ [.number index]) := by
  have hbegins := begins_of_walk hroom hwalk
  rwa [markCommas_append (by simp)] at hbegins

/-- What stands in front of a lexical error begins a source that is parsed with the same
limit on depth, up to the limit on indices. -/
theorem beginsUpToIndex_of_walk {limits : Limits} {front : List Symbol} {last : Symbol}
    {place : Place} (hwalk : Place.outset.walk limits front = some place)
    (hlast : place.AllowsUpToIndex limits last) :
    BeginsUpToIndex { limits with maxArrayLen := maxWord } (markCommas (front ++ [last])) := by
  have hroom : (1 : UInt64) ≤ maxWord := by decide
  have hraised : limits.Raised { limits with maxArrayLen := maxWord } :=
    ⟨UInt64.le_iff_toNat_le.2 (toNat_le_maxWord _), UInt64.le_refl _⟩
  have hfront := Place.walk_of_raised hraised hwalk
  have hwhole : ∀ {symbol : Symbol}, place.AllowsUpToIndex limits symbol →
      (∀ bound, symbol = .number bound → bound < maxWord) →
      ∃ behind, Place.outset.walk { limits with maxArrayLen := maxWord }
        (front ++ [symbol]) = some behind := by
    intro symbol hallows hindex
    have hallowed : ∃ behind, place.next { limits with maxArrayLen := maxWord } symbol =
        some behind := hallows.exists_next rfl hindex
    obtain ⟨behind, hnext⟩ := hallowed
    refine ⟨behind, ?_⟩
    rw [Place.walk_append, hfront]
    show Place.walk _ place [symbol] = _
    rw [Place.walk_cons, hnext]
    rfl
  by_cases hlargest : last = .number maxWord
  · subst hlargest
    right
    refine ⟨markCommas front, markCommas_append (by simp), fun index hlt => ?_⟩
    have hindex : ∀ bound, Symbol.number index = .number bound → bound < maxWord := by
      intro bound hsame
      cases hsame
      exact hlt
    obtain ⟨behind, hbehind⟩ := hwhole (hlast.number index) hindex
    exact begins_of_walk_number hroom hbehind
  · left
    have hindex : ∀ bound, last = .number bound → bound < maxWord := by
      rintro bound rfl
      rw [UInt64.lt_iff_toNat_lt]
      refine Nat.lt_of_le_of_ne (toNat_le_maxWord bound) fun hsame => hlargest ?_
      rw [UInt64.toNat_inj.1 hsame]
    obtain ⟨behind, hbehind⟩ := hwhole hlast hindex
    exact begins_of_walk hroom hbehind

theorem cutOff_of_parse {source : String} {limits : Limits} {error : LexicalError}
    (h : parse .ast limits source = .error (.lexical error)) :
    CutOff (.ofString source) limits error := by
  cases hwhole : parseWhole literalBuilder () limits source with
  | ok made =>
    rw [parse_ast_of_parseWhole hwhole] at h
    cases h
  | error error' =>
    rw [parse_ast_of_parseWhole hwhole] at h
    cases h
    cases justified_of_parseWhole hwhole with
    | lexical _ hcut => exact hcut

/-- The tokens in front of a lexical error are all that pulling gives before it. -/
theorem begins_of_cutOff {source : String} {limits : Limits} {error : LexicalError}
    (h : CutOff (.ofString source) limits error) :
    ∃ before : List Token,
      (Cursor.ofString source).results (before.length + 1) = before.map .ok ++ [.error error] ∧
      BeginsUpToIndex { limits with maxArrayLen := maxWord } (before.map Token.symbol) := by
  obtain ⟨before, behind, after, hyields, hnext, hscan, hwalk⟩ := h.exists_scan
  refine ⟨before, ?_, ?_⟩
  · rw [Cursor.results_add, hyields.results_eq, hyields.after_eq, Cursor.results_one, hnext]
  · have hmarked := (Cursor.ofString source).map_symbol_scan
    rw [hscan] at hmarked
    rw [hmarked]
    rcases List.eq_nil_or_concat before with rfl | ⟨front, last, rfl⟩
    · exact .inl (begins_of_walk (show (1 : UInt64) ≤ maxWord by decide) Place.walk_nil)
    · rw [List.concat_eq_append] at hwalk ⊢
      obtain ⟨place, hfront, hlast⟩ := hwalk front last rfl
      rw [List.map_append]
      exact beginsUpToIndex_of_walk hfront hlast

/-- A parse that succeeds, in any mode, leaves no lexical error in its source. A lexical
error that it reports is the one that splitting the source into tokens reports. Any other
error is about a token that is pulled before a lexical error, or about the end of the
input, and then there is none.

In ast mode the tokens in front of a reported lexical error begin a source that is parsed
with the same limit on depth and some limit on indices that is no lower, but the last of
them may be a number that is no index. -/
theorem parse_reports_first_fault (mode : Mode) (limits : Limits) (source : String) :
    let results := (Cursor.ofString source).results
    (∀ output, parse mode limits source = .ok output → ∃ tokens, tokenize source = .ok tokens) ∧
    (∀ error, parse mode limits source = .error (.lexical error) →
      tokenize source = .error error) ∧
    (∀ found fault, parse mode limits source = .error (.grammar { found, fault }) →
      ∃ pulled : List Token, results pulled.length = pulled.map .ok ∧ found ∈ pulled ∧
        (found.isEof = true → ∃ tokens, tokenize source = .ok tokens)) ∧
    ∀ error, parse .ast limits source = .error (.lexical error) →
      ∃ before : List Token, results (before.length + 1) = before.map .ok ++ [.error error] ∧
        ∃ limits' : Limits, limits'.maxDepth = limits.maxDepth ∧
          limits.maxArrayLen ≤ limits'.maxArrayLen ∧
          BeginsUpToIndex limits' (before.map Token.symbol) := by
  have hfirst := firstFault_parse mode limits source
  refine ⟨?_, ?_, ?_, ?_⟩
  · intro output hparse
    rwa [hparse] at hfirst
  · intro error hparse
    rwa [hparse] at hfirst
  · intro found fault hparse
    rwa [hparse] at hfirst
  · intro error hparse
    obtain ⟨before, hresults, hbegins⟩ := begins_of_cutOff (cutOff_of_parse hparse)
    have hle : limits.maxArrayLen ≤ maxWord := UInt64.le_iff_toNat_le.2 (toNat_le_maxWord _)
    exact ⟨before, hresults, { limits with maxArrayLen := maxWord }, rfl, hle, hbegins⟩

end ArrayLiteral
