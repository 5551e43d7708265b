import ArrayLiteral.Proofs.Grammar
import ArrayLiteral.Proofs.Scan

/-!
# Trailing commas

The grammar has one kind of comma.  Whether a comma is a trailing one is decided
before any parsing, by the character behind it that is no blank.  `markCommas`
decides the same on symbols: a comma is a trailing one if the symbol behind it is
a closing brace.

`map_symbol_scan` is about tokens: what the tokens of a source are is decided by
what they are without that distinction.  `markCommas_word` is about words: of the
commas that a derivation derives, the trailing ones are marked and no other.
Together they say that the tokens of a source are the word of a derivation with
the trailing commas marked, exactly if they are its word without the distinction
(`map_symbol_eq_word_iff`).
-/

namespace ArrayLiteral

/-- The symbol, where a trailing comma is a comma like any other. -/
def Symbol.plain : Symbol → Symbol
  | .mark .endComma => .mark .comma
  | symbol => symbol

theorem Symbol.plain_eq_self {symbol : Symbol} (h : symbol.plain ≠ .mark .comma) :
    symbol.plain = symbol := by
  unfold plain at h ⊢
  split at h
  · exact absurd rfl h
  · rfl

/-- Only commas are read alike. -/
theorem Symbol.plain_eq_mark_iff {symbol : Symbol} {punctuation : Punctuation}
    (h : (Symbol.mark punctuation).plain ≠ .mark .comma) :
    symbol.plain = .mark punctuation ↔ symbol = .mark punctuation := by
  have hself : (Symbol.mark punctuation).plain = .mark punctuation := plain_eq_self h
  constructor
  · intro hplain
    have hcomma : symbol.plain ≠ .mark .comma := by
      rw [hplain, ← hself]
      exact h
    rw [← plain_eq_self hcomma, hplain]
  · intro hsymbol
    rw [hsymbol, hself]

/-- Tells apart the commas directly before a closing brace. -/
def markCommas : List Symbol → List Symbol
  | [] => []
  | symbol :: rest =>
    (if symbol = .mark .comma ∧ rest.head? = some (.mark .rightCurly) then .mark .endComma
      else symbol) :: markCommas rest

@[simp] theorem markCommas_nil : markCommas [] = [] := rfl

theorem markCommas_cons_of_ne {symbol : Symbol} (h : symbol ≠ .mark .comma)
    (rest : List Symbol) : markCommas (symbol :: rest) = symbol :: markCommas rest := by
  rw [markCommas, if_neg (fun hboth => h hboth.1)]

/-- What is behind a word only matters to a comma at its end. -/
theorem markCommas_append {front behind : List Symbol}
    (h : front.getLast? = some (.mark .comma) → behind.head? ≠ some (.mark .rightCurly)) :
    markCommas (front ++ behind) = markCommas front ++ markCommas behind := by
  induction front with
  | nil => rfl
  | cons symbol front ih =>
    cases front with
    | nil =>
      rw [markCommas_nil, List.nil_append] at ih
      show markCommas (symbol :: behind) = markCommas [symbol] ++ markCommas behind
      have hcomma : ¬ (symbol = .mark .comma ∧ behind.head? = some (.mark .rightCurly)) := by
        rintro ⟨rfl, hbrace⟩
        exact h rfl hbrace
      rw [markCommas, if_neg hcomma, markCommas, if_neg (by simp)]
      rfl
    | cons second front =>
      rw [List.getLast?_cons_cons] at h
      rw [List.cons_append, markCommas, ih h, markCommas]
      rfl

/-! ## Commas of a source -/

namespace Lexeme

variable {first : Char} {lexeme rest : List Char}

theorem exists_number_of_readNumber {digits : List Char} {symbol : Symbol}
    (h : readNumber digits = .ok symbol) : ∃ value, symbol = .number value := by
  unfold readNumber at h
  dsimp only at h
  split at h
  · cases h
    exact ⟨_, rfl⟩
  · cases h

theorem eq_range_of_readRange {dots : List Char} {symbol : Symbol}
    (h : readRange dots = .ok symbol) : symbol = .mark .range := by
  unfold readRange at h
  split at h
  · cases h
    rfl
  · cases h

theorem readSymbol_eq_rightCurly_iff :
    readSymbol first lexeme rest = .ok (.mark .rightCurly) ↔ first = '}' := by
  constructor
  · intro h
    unfold readSymbol at h
    split at h
    · obtain ⟨_, heq⟩ := exists_number_of_readNumber h
      cases heq
    · split at h
      · cases eq_range_of_readRange h
      · split at h
        · cases h
        · simp only [Except.ok.injEq, Symbol.mark.injEq] at h
          split at h <;> cases h
        · cases h
        · cases h
        · cases h
        · rfl
        · cases h
  · intro h
    subst h
    rfl

/-- What a comma is read as tells what is behind it. -/
theorem eq_of_readSymbol_comma {symbol : Symbol}
    (h : readSymbol first lexeme rest = .ok symbol) (hcomma : symbol.plain = .mark .comma) :
    symbol = .mark (if closesAggregate rest then .endComma else .comma) := by
  unfold readSymbol at h
  split at h
  · obtain ⟨_, rfl⟩ := exists_number_of_readNumber h
    cases hcomma
  · split at h
    · rw [eq_range_of_readRange h] at hcomma
      cases hcomma
    · split at h <;> cases h
      · cases hcomma
      · rfl
      all_goals cases hcomma

end Lexeme

namespace Cursor

variable {cursor after : Cursor} {token : Token}

/-- A token is read off the lexeme that starts with the first character that is no blank. -/
theorem readSymbol_of_next (h : cursor.next = (.ok token, after))
    (hmore : token.isEof = false) :
    ∃ first lexeme rest, cursor.rest.dropWhile Text.isBlank = first :: rest ∧
      Lexeme.munch first rest = (lexeme, after.rest) ∧
      Lexeme.readSymbol first lexeme after.rest = .ok token.symbol := by
  unfold next at h
  dsimp only at h
  split at h
  · cases h
    simp at hmore
  · rename_i first rest hrest
    unfold readToken at h
    dsimp only at h
    split at h
    · rename_i symbol hsymbol
      cases h
      exact ⟨first, _, rest, cursor.skipBlanks_rest.symm.trans hrest, rfl, hsymbol⟩
    · cases h

/-- A closing brace is the next character that is no blank exactly if it is the
next token. -/
theorem closesAggregate_iff (cursor : Cursor) :
    Lexeme.closesAggregate cursor.rest = true ↔
      ∃ token after, cursor.next = (.ok token, after) ∧ token.symbol = .mark .rightCurly := by
  rw [Lexeme.closesAggregate_eq, decide_eq_true_iff]
  constructor
  · intro h
    obtain ⟨rest, hrest⟩ := List.head?_eq_some_iff.1 h
    have hskip := cursor.skipBlanks_rest.trans hrest
    exact ⟨_, _, (next_of_skipBlanks_cons hskip).trans rfl, rfl⟩
  · intro h
    obtain ⟨token, after, hnext, hbrace⟩ := h
    have hmore : token.isEof = false := Token.isEof_eq_false_iff.2 (by simp [hbrace])
    obtain ⟨first, lexeme, rest, hrest, -, hsymbol⟩ := readSymbol_of_next hnext hmore
    rw [hbrace] at hsymbol
    rw [hrest, Lexeme.readSymbol_eq_rightCurly_iff.1 hsymbol]
    rfl

/-- A comma is a trailing one exactly if the next token is a closing brace. -/
theorem eq_endComma_iff_of_next (h : cursor.next = (.ok token, after))
    (hcomma : token.symbol.plain = .mark .comma) :
    token.symbol = .mark .endComma ↔
      ∃ closing last, after.next = (.ok closing, last) ∧ closing.symbol = .mark .rightCurly := by
  have hmore : token.isEof = false := by
    rw [Bool.eq_false_iff, ne_eq, Token.isEof_iff]
    intro heof
    rw [heof] at hcomma
    cases hcomma
  obtain ⟨first, lexeme, rest, -, -, hsymbol⟩ := readSymbol_of_next h hmore
  rw [← closesAggregate_iff, Lexeme.eq_of_readSymbol_comma hsymbol hcomma]
  split <;> rename_i hclose <;> simp [hclose]

theorem head?_scan_iff (cursor : Cursor) :
    (cursor.scan.tokens.map fun token => token.symbol.plain).head? = some (.mark .rightCurly) ↔
      ∃ token after, cursor.next = (.ok token, after) ∧ token.symbol = .mark .rightCurly := by
  rcases hnext : cursor.next with ⟨result, after⟩
  cases result with
  | error error =>
    rw [scan_of_error hnext]
    simp
  | ok token =>
    cases hmore : token.isEof with
    | true =>
      have heof := Token.isEof_iff.1 hmore
      rw [scan_of_eof hnext hmore]
      simp [heof]
    | false =>
      rw [scan_of_token hnext hmore]
      have hbrace : token.symbol.plain = .mark .rightCurly ↔ token.symbol = .mark .rightCurly :=
        Symbol.plain_eq_mark_iff nofun
      simp [Scan.prepend, hbrace]

/-- The tokens of a source with the trailing commas told apart, from what they are
without. -/
theorem map_symbol_scan (cursor : Cursor) :
    cursor.scan.tokens.map Token.symbol =
      markCommas (cursor.scan.tokens.map fun token => token.symbol.plain) := by
  fun_induction scan cursor with
  | case1 cursor error after hnext => rfl
  | case2 cursor token after hnext hend => rfl
  | case3 cursor token after hnext hend ih =>
    obtain ⟨first, lexeme, rest, -, -, hsymbol⟩ :=
      readSymbol_of_next hnext (Bool.eq_false_iff.2 hend)
    show token.symbol :: after.scan.tokens.map Token.symbol =
      markCommas (token.symbol.plain :: after.scan.tokens.map fun token => token.symbol.plain)
    rw [markCommas, ih]
    congr 1
    by_cases hcomma : token.symbol.plain = .mark .comma
    · rw [Lexeme.eq_of_readSymbol_comma hsymbol hcomma]
      by_cases hclose : Lexeme.closesAggregate after.rest = true
      · have hhead := after.head?_scan_iff.2 (after.closesAggregate_iff.1 hclose)
        rw [if_pos hclose, if_pos ⟨rfl, hhead⟩]
      · have hhead : _ ≠ some (Symbol.mark .rightCurly) := fun hhead =>
          hclose (after.closesAggregate_iff.2 (after.head?_scan_iff.1 hhead))
        rw [if_neg hclose, if_neg (fun hboth => hhead hboth.2)]
        rfl
    · rw [if_neg (fun hboth => hcomma hboth.1), Symbol.plain_eq_self hcomma]

end Cursor

/-! ## Commas of a word -/

namespace Derivation

theorem markCommas_targetSymbols (designator? : Option Designator) (rest : List Symbol) :
    markCommas (targetSymbols designator? ++ rest) =
      targetSymbols designator? ++ markCommas rest := by
  rcases designator? with _ | ⟨index⟩ | ⟨start, stop⟩ <;>
    simp [targetSymbols, Designator.symbols, markCommas]

theorem markCommas_closingWord (trailing : Bool) (rest : List Symbol) :
    markCommas (closingWord .comma trailing ++ rest) =
      closingWord .endComma trailing ++ markCommas rest := by
  cases trailing <;> simp [closingWord, markCommas]

theorem markCommas_initializerWord {item : Initializer Derivation}
    (ih : ∀ rest, markCommas (item.value.word .comma ++ rest) =
      item.value.word .endComma ++ markCommas rest) (rest : List Symbol) :
    markCommas (initializerWord (item.map (word .comma)) ++ rest) =
      initializerWord (item.map (word .endComma)) ++ markCommas rest := by
  show markCommas (targetSymbols item.designator? ++ item.value.word .comma ++ rest) =
    targetSymbols item.designator? ++ item.value.word .endComma ++ markCommas rest
  rw [List.append_assoc, markCommas_targetSymbols, ih, List.append_assoc]

/-- A comma between initializers is none of the trailing ones. -/
theorem markCommas_othersWord {items : List (Initializer Derivation)}
    (ih : ∀ item ∈ items, ∀ rest, markCommas (item.value.word .comma ++ rest) =
      item.value.word .endComma ++ markCommas rest) (rest : List Symbol) :
    markCommas (othersWord (items.map (Initializer.map (word .comma))) ++ rest) =
      othersWord (items.map (Initializer.map (word .endComma))) ++ markCommas rest := by
  induction items with
  | nil => rfl
  | cons item items ihitems =>
    obtain ⟨symbol, behind, hword, hbrace⟩ := exists_initializerWord_eq_cons .comma item
    have hhead : (initializerWord (item.map (word .comma)) ++
        (othersWord (items.map (Initializer.map (word .comma))) ++ rest)).head? ≠
          some (.mark .rightCurly) := by
      rw [hword]
      simpa using hbrace
    have hitem := markCommas_initializerWord (ih item (List.mem_cons_self ..))
    have hitems := ihitems fun other hmem => ih other (List.mem_cons_of_mem _ hmem)
    simp only [List.map_cons, othersWord_cons, List.cons_append, List.append_assoc]
    rw [markCommas, if_neg (fun hboth => hhead hboth.2), hitem, hitems]

theorem markCommas_word (derivation : Derivation) (rest : List Symbol) :
    markCommas (derivation.word .comma ++ rest) =
      derivation.word .endComma ++ markCommas rest := by
  induction derivation using Derivation.induction generalizing rest with
  | number value => simp [markCommas]
  | empty => simp [markCommas]
  | list first others trailing ihfirst ihothers =>
    have hbrace : Symbol.mark .leftCurly ≠ .mark .comma := nofun
    simp only [word_list, List.cons_append, List.append_assoc]
    rw [markCommas_cons_of_ne hbrace, markCommas_initializerWord ihfirst,
      markCommas_othersWord ihothers, markCommas_closingWord]

theorem map_plain_targetSymbols (designator? : Option Designator) :
    (targetSymbols designator?).map Symbol.plain = targetSymbols designator? := by
  rcases designator? with _ | ⟨index⟩ | ⟨start, stop⟩ <;> rfl

theorem map_plain_initializerWord {item : Initializer Derivation}
    (ih : (item.value.word .endComma).map Symbol.plain = item.value.word .comma) :
    (initializerWord (item.map (word .endComma))).map Symbol.plain =
      initializerWord (item.map (word .comma)) := by
  show (targetSymbols item.designator? ++ item.value.word .endComma).map Symbol.plain =
    targetSymbols item.designator? ++ item.value.word .comma
  rw [List.map_append, map_plain_targetSymbols, ih]

theorem map_plain_word (derivation : Derivation) :
    (derivation.word .endComma).map Symbol.plain = derivation.word .comma := by
  induction derivation using Derivation.induction with
  | number value => rw [word_number, word_number]; rfl
  | empty => rw [word_empty, word_empty]; rfl
  | list first others trailing ihfirst ihothers =>
    have hothers : (othersWord (others.map (Initializer.map (word .endComma)))).map Symbol.plain =
        othersWord (others.map (Initializer.map (word .comma))) := by
      rw [othersWord, othersWord, List.map_flatMap, List.flatMap_map, List.flatMap_map,
        List.flatMap_def, List.flatMap_def]
      congr 1
      apply List.map_congr_left
      intro item hmem
      rw [List.map_cons, map_plain_initializerWord (ihothers item hmem)]
      rfl
    have hclosing : (closingWord .endComma trailing).map Symbol.plain =
        closingWord .comma trailing := by
      cases trailing <;> rfl
    rw [word_list, word_list, List.map_cons, List.map_append, List.map_append,
      map_plain_initializerWord ihfirst, hothers, hclosing]
    rfl

end Derivation

/-- For the tokens of a source it does not matter whether the trailing commas of
a word are told apart. -/
theorem map_symbol_eq_word_iff {source : String} {tokens : List Token}
    (h : tokenize source = .ok tokens) (derivation : Derivation) :
    tokens.map Token.symbol = derivation.word .endComma ↔
      (tokens.map fun token => token.symbol.plain) = derivation.word .comma := by
  have hscan := tokenize_eq_ok_iff.1 h
  have hmarked := (Cursor.ofString source).map_symbol_scan
  rw [hscan] at hmarked
  constructor
  · intro hword
    rw [← derivation.map_plain_word, ← hword, List.map_map]
    rfl
  · intro hword
    have hmark := derivation.markCommas_word []
    rw [List.append_nil, markCommas_nil, List.append_nil] at hmark
    rw [← hmark, ← hword]
    exact hmarked

end ArrayLiteral
