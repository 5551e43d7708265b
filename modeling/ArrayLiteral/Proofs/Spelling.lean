import Mathlib
import ArrayLiteral.Proofs.Commas
import ArrayLiteral.Proofs.Pieces

/-!
# Spelling symbols out

Every symbol has a spelling, and a text that has the spellings of some symbols one
after the other, with blanks between them, has these symbols for its tokens
(`tokenize_of_spells`).  Where no blank is, the spelling of a number must not run
on into a digit, nor that of a range into a dot.  This is `Apart` again.

The kinds of commas are left out, for in a text they are spelled alike.
-/

namespace ArrayLiteral

open Text

/-- How a symbol is written. The end of the input is not written at all. -/
def Symbol.spelling : Symbol → List Char
  | number value => Nat.toDigits 10 value.toNat
  | mark .leftSquare => ['[']
  | mark .rightSquare => [']']
  | mark .equal => ['=']
  | mark .range => ['.', '.', '.']
  | mark .comma => [',']
  | mark .endComma => [',']
  | mark .leftCurly => ['{']
  | mark .rightCurly => ['}']
  | eof => []

/-- The symbol is written in a text, and no comma of a special kind. -/
def Symbol.Written (symbol : Symbol) : Prop :=
  symbol ≠ .eof ∧ symbol.plain = symbol

/-- The text spells the symbols, with blanks anywhere between them. -/
inductive Spells : List Symbol → List Char → Prop
  | nil : Spells [] []
  | blank {symbols : List Symbol} {text : List Char} (c : Char) (hblank : isBlank c = true)
    (h : Spells symbols text) : Spells symbols (c :: text)
  | symbol {symbols : List Symbol} {text : List Char} (symbol : Symbol) (hwritten : symbol.Written)
    (hdigits : Apart Char.isDigit symbol.spelling text)
    (hdots : Apart Lexeme.isDot symbol.spelling text)
    (h : Spells symbols text) : Spells (symbol :: symbols) (symbol.spelling ++ text)

/-- A text that has no such character at all ends no run of them. -/
theorem Apart.of_forall {p : Char → Bool} {before behind : List Char}
    (h : ∀ c ∈ before, p c = false) : Apart p before behind := by
  intro c hlast hp
  rw [h c (List.mem_of_getLast? hlast)] at hp
  cases hp

namespace Spells

variable {symbols : List Symbol} {text : List Char}

/-- A number has to be written apart from digits. -/
theorem number (value : UInt64) (hend : ∀ c ∈ text.head?, c.isDigit = false)
    (h : Spells symbols text) :
    Spells (.number value :: symbols) (Nat.toDigits 10 value.toNat ++ text) := by
  refine .symbol (.number value) ⟨nofun, rfl⟩ (fun _ _ _ => hend) (.of_forall fun c hmem => ?_) h
  exact Lexeme.isDot_of_isDigit (Nat.isDigit_of_mem_toDigits (by decide) (by decide) hmem)

/-- A mark but for the range can be written anywhere. -/
theorem mark (punctuation : Punctuation) (hrange : punctuation ≠ .range)
    (hcomma : punctuation ≠ .endComma) (h : Spells symbols text) :
    Spells (.mark punctuation :: symbols) ((Symbol.mark punctuation).spelling ++ text) := by
  have hwritten : (Symbol.mark punctuation).Written := by
    refine ⟨nofun, ?_⟩
    cases punctuation with
    | endComma => exact absurd rfl hcomma
    | _ => rfl
  have hmark : ∀ c ∈ (Symbol.mark punctuation).spelling,
      c.isDigit = false ∧ Lexeme.isDot c = false := by
    cases punctuation with
    | range => exact absurd rfl hrange
    | _ => exact List.forall_mem_singleton.2 ⟨rfl, rfl⟩
  exact .symbol _ hwritten (.of_forall fun c hmem => (hmark c hmem).1)
    (.of_forall fun c hmem => (hmark c hmem).2) h

end Spells

/-! ## One symbol -/

/-- Behind a run that ends there comes no such character. -/
theorem Apart.of_run {p : Char → Bool} {run text : List Char} (h : Apart p run text)
    (hrun : ∀ c ∈ run, p c = true) (hne : run ≠ []) : ∀ c ∈ text.head?, p c = false := by
  have hlast : run.getLast hne ∈ run.getLast? := List.getLast?_eq_some_getLast hne
  exact h _ hlast (hrun _ (List.mem_of_getLast? hlast))

theorem takeWhile_run {p : Char → Bool} {run text : List Char} (hrun : ∀ c ∈ run, p c = true)
    (htext : ∀ c ∈ text.head?, p c = false) :
    (run ++ text).takeWhile p = run ∧ (run ++ text).dropWhile p = text := by
  rw [List.takeWhile_append_of_pos hrun, List.dropWhile_append_of_pos hrun]
  cases text with
  | nil => simp
  | cons c text =>
    have hc : p c = false := htext c rfl
    simp [hc]

namespace Lexeme

theorem readNumber_toDigits (value : UInt64) :
    readNumber (Nat.toDigits 10 value.toNat) = .ok (.number value) := by
  unfold readNumber
  dsimp only
  rw [Nat.ofDigitChars_toDigits (by decide) (by decide), if_pos value.toNat_lt,
    UInt64.ofNat_toNat]

/-- Digits are one lexeme, and are read as their number. -/
theorem munch_number {value : UInt64} {text : List Char}
    (hdigits : Apart Char.isDigit (Nat.toDigits 10 value.toNat) text) :
    ∃ first others, Nat.toDigits 10 value.toNat = first :: others ∧
      isBlank first = false ∧ munch first (others ++ text) = (first :: others, text) ∧
      readSymbol first (first :: others) text = .ok (.number value) := by
  have hne : Nat.toDigits 10 value.toNat ≠ [] := Nat.toDigits_ne_nil
  have hdigit : ∀ c ∈ Nat.toDigits 10 value.toNat, c.isDigit = true := fun c hmem =>
    Nat.isDigit_of_mem_toDigits (by decide) (by decide) hmem
  have hend := hdigits.of_run hdigit hne
  have hread := readNumber_toDigits value
  obtain ⟨first, others, hspelling⟩ := List.exists_cons_of_ne_nil hne
  rw [hspelling] at hdigit hread
  have hfirst := hdigit first (List.mem_cons_self ..)
  obtain ⟨htake, hdrop⟩ :=
    takeWhile_run (fun c hmem => hdigit c (List.mem_cons_of_mem _ hmem)) hend
  refine ⟨first, others, hspelling, isBlank_of_isDigit hfirst, ?_, ?_⟩
  · rw [munch, if_pos hfirst, htake, hdrop]
  · unfold readSymbol
    rw [if_pos hfirst, hread]

/-- The spelling of a written symbol is one lexeme, and is read as that symbol. -/
theorem munch_spelling {symbol : Symbol} {text : List Char} (hwritten : symbol.Written)
    (hdigits : Apart Char.isDigit symbol.spelling text)
    (hdots : Apart isDot symbol.spelling text) :
    ∃ first others found, symbol.spelling = first :: others ∧ isBlank first = false ∧
      munch first (others ++ text) = (first :: others, text) ∧
      readSymbol first (first :: others) text = .ok found ∧ found.plain = symbol := by
  cases symbol with
  | eof => exact absurd rfl hwritten.1
  | number value =>
    obtain ⟨first, others, hspelling, hblank, hmunch, hread⟩ := munch_number hdigits
    exact ⟨first, others, _, hspelling, hblank, hmunch, hread, rfl⟩
  | mark punctuation =>
    cases punctuation with
    | range =>
      have hrun : ∀ c ∈ ['.', '.', '.'], isDot c = true := by simp [isDot]
      have hend := hdots.of_run hrun (List.cons_ne_nil _ _)
      obtain ⟨htake, hdrop⟩ :=
        takeWhile_run (fun c hmem => hrun c (List.mem_cons_of_mem _ hmem)) hend
      refine ⟨'.', ['.', '.'], _, rfl, by decide, ?_, rfl, rfl⟩
      show ('.' :: (['.', '.'] ++ text).takeWhile isDot, (['.', '.'] ++ text).dropWhile isDot) = _
      rw [htake, hdrop]
    | comma =>
      refine ⟨',', [], _, rfl, by decide, rfl, rfl, ?_⟩
      show Symbol.plain (.mark (if closesAggregate text then .endComma else .comma)) = _
      split <;> rfl
    | endComma =>
      cases hwritten.2
    | _ => exact ⟨_, [], _, rfl, by decide, rfl, rfl, rfl⟩

end Lexeme

/-! ## A whole text -/

namespace Cursor

variable {cursor : Cursor} {text : List Char}

/-- The spelling of a symbol is pulled as a token for that symbol. -/
theorem next_of_spelling {symbol : Symbol} (hwritten : symbol.Written)
    (hdigits : Apart Char.isDigit symbol.spelling text)
    (hdots : Apart Lexeme.isDot symbol.spelling text)
    (hrest : cursor.rest = symbol.spelling ++ text) :
    ∃ token after, cursor.next = (.ok token, after) ∧ token.symbol.plain = symbol ∧
      after.rest = text := by
  obtain ⟨first, others, found, hspelling, hblank, hmunch, hread, hplain⟩ :=
    Lexeme.munch_spelling hwritten hdigits hdots
  rw [hspelling] at hrest
  have hskip : cursor.skipBlanks.rest = first :: (others ++ text) :=
    skipBlanks_rest_of_cons hrest hblank
  rw [next_of_skipBlanks_cons hskip]
  unfold readToken
  simp only [hmunch, hread]
  exact ⟨_, _, rfl, hplain, rfl⟩

/-- A blank in front changes nothing about the next pull. -/
theorem next_past_blank {c : Char} (hblank : isBlank c = true) (hrest : cursor.rest = c :: text) :
    (cursor.past [c] text).next = cursor.next := by
  have hskip : (cursor.past [c] text).skipBlanks = cursor.skipBlanks := by
    rw [skipBlanks_eq, skipBlanks_eq, hrest, List.takeWhile_cons, if_pos hblank,
      List.dropWhile_cons, if_pos hblank]
    simp only [past, utf8Width_cons, utf8Width_nil, List.count_cons, List.count_nil,
      Cursor.mk.injEq, true_and]
    omega
  unfold next
  rw [hskip]

theorem scan_congr {cursor' : Cursor} (h : cursor.next = cursor'.next) :
    cursor.scan = cursor'.scan := by
  rcases hnext : cursor.next with ⟨result, after⟩
  have hnext' := h.symm.trans hnext
  cases result with
  | error error => rw [scan_of_error hnext, scan_of_error hnext']
  | ok token =>
    cases hmore : token.isEof with
    | true => rw [scan_of_eof hnext hmore, scan_of_eof hnext' hmore]
    | false => rw [scan_of_token hnext hmore, scan_of_token hnext' hmore]

/-- A text that spells symbols has these symbols for its tokens. -/
theorem scan_of_spells {symbols : List Symbol} (h : Spells symbols cursor.rest) :
    cursor.scan.fault? = none ∧
      (cursor.scan.tokens.map fun token => token.symbol.plain) = symbols := by
  -- The spelling is followed from the front, and the cursor moves along with it.
  generalize hrest : cursor.rest = text at h
  induction h generalizing cursor with
  | nil =>
    rw [scan_of_eof (next_of_rest_nil hrest) rfl]
    exact ⟨rfl, rfl⟩
  | @blank symbols text c hblank h ih =>
    rw [← scan_congr (next_past_blank hblank hrest)]
    exact ih rfl
  | symbol symbol hwritten hdigits hdots h ih =>
    obtain ⟨token, after, hnext, rfl, hafter⟩ :=
      next_of_spelling hwritten hdigits hdots hrest
    have hmore : token.isEof = false := by
      refine Token.isEof_eq_false_iff.2 fun heof => ?_
      rw [heof] at hwritten
      exact hwritten.1 rfl
    obtain ⟨hfault, hsymbols⟩ := ih hafter
    rw [scan_of_token hnext hmore]
    exact ⟨hfault, congrArg (token.symbol.plain :: ·) hsymbols⟩

end Cursor

/-- A source that spells symbols can be split into tokens for them. -/
theorem tokenize_of_spells {source : String} {symbols : List Symbol}
    (h : Spells symbols source.toList) :
    ∃ tokens, tokenize source = .ok tokens ∧
      (tokens.map fun token => token.symbol.plain) = symbols := by
  have hspells : Spells symbols (Cursor.ofString source).rest := h
  obtain ⟨hfault, hsymbols⟩ := Cursor.scan_of_spells hspells
  rcases hscan : (Cursor.ofString source).scan with ⟨tokens, fault?⟩
  rw [hscan] at hfault hsymbols
  subst hfault
  exact ⟨tokens, tokenize_eq_ok_iff.2 hscan, hsymbols⟩

/-- Some text spells any symbols that can be written. -/
theorem exists_spells {symbols : List Symbol} (h : ∀ symbol ∈ symbols, symbol.Written) :
    ∃ text, Spells symbols text := by
  induction symbols with
  | nil => exact ⟨[], .nil⟩
  | cons symbol symbols ih =>
    obtain ⟨text, htext⟩ := ih fun other hmem => h other (List.mem_cons_of_mem _ hmem)
    -- A space ends whatever the symbol may be.
    have hspace : ∀ p : Char → Bool, p ' ' = false → Apart p symbol.spelling (' ' :: text) := by
      intro p hp c _ _ d hhead
      rw [← Option.mem_some.1 hhead]
      exact hp
    exact ⟨_, .symbol symbol (h symbol (List.mem_cons_self ..)) (hspace _ rfl) (hspace _ rfl)
      (.blank ' ' (by decide) htext)⟩

end ArrayLiteral
