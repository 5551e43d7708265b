import Mathlib
import ArrayLiteral.Proofs.Completeness
import ArrayLiteral.Proofs.Modes
import ArrayLiteral.Proofs.Spelling

/-!
# What pieces are read as

Pulling cuts a source into pieces.  The first character of a piece tells how far the
piece goes and what it is read as: a whole run of digits is a number, a whole run of
dots is a range if there are three of them, and any other character is a piece of its
own.  `Classified` says this of one piece, and `classified_of_reports` of every piece
that a pull reports, behind errors too.

A comma is told apart from a trailing one by looking past the blanks in the text, while
parsing goes on with the next pull.  `eq_endComma_iff_pull` says that the two never
disagree.
-/

namespace ArrayLiteral

open Text

/-! ## Numbers -/

/-- The number that is written in base ten, the last digit standing for ones. -/
def decimalValue (digits : List Char) : Nat :=
  Nat.ofDigits 10 (digits.map fun c => c.toNat - '0'.toNat).reverse

theorem ofDigitChars_eq_decimalValue (digits : List Char) :
    Nat.ofDigitChars 10 digits 0 = decimalValue digits := by
  induction digits with
  | nil => rfl
  | cons digit digits ih =>
    rw [Nat.ofDigitChars_cons, Nat.ofDigitChars_eq_ofDigitChars_zero, ih, decimalValue,
      decimalValue, List.map_cons, List.reverse_cons, Nat.ofDigits_append, Nat.ofDigits_singleton,
      List.length_reverse, List.length_map, Nat.mul_zero, Nat.zero_add, Nat.add_comm]

theorem decimalValue_toDigits (zeros value : Nat) :
    decimalValue (List.replicate zeros '0' ++ Nat.toDigits 10 value) = value := by
  rw [← ofDigitChars_eq_decimalValue, Nat.ofDigitChars_append, Nat.ofDigitChars_replicate_zero,
    Nat.mul_zero, Nat.ofDigitChars_ten_toDigits]

/-! ## One piece -/

/-- What a pull says of a piece, apart from where the piece is. -/
def verdict (result : Except LexicalError Token) : Except LexicalFault Symbol :=
  (result.map Token.symbol).mapError LexicalError.fault

/-- A piece goes as far as its first character tells, and is read as what it is. -/
structure Classified (before : List Char) (first : Char) (others behind : List Char)
    (read : Except LexicalFault Symbol) : Prop where
  /-- A piece that starts with a digit is a whole run of digits. -/
  digits : first.isDigit = true →
    WholeRun Char.isDigit before (first :: others) behind ∧
      read = if decimalValue (first :: others) < UInt64.size then
          .ok (.number (.ofNat (decimalValue (first :: others))))
        else .error (.numberTooLarge (.ofList (first :: others)))
  /-- A piece that starts with a dot is a whole run of dots. -/
  dots : first = '.' →
    WholeRun (· = '.') before (first :: others) behind ∧
      read = if (first :: others).length = 3 then .ok (.mark .range)
        else .error (.invalidRange (.ofList (first :: others)))
  /-- Any other piece is one character, and a mark if it is spelled like one. -/
  alone : first.isDigit = false → first ≠ '.' →
    others = [] ∧
      ((∃ punctuation, (Symbol.mark punctuation).spelling = [first] ∧
          read = .ok (.mark punctuation)) ∨
        ((∀ punctuation, (Symbol.mark punctuation).spelling ≠ [first]) ∧
          read = .error (.unexpectedCharacter first)))

section Piece

variable {before : List Char} {first : Char}

theorem readNumber_eq (digits : List Char) :
    Lexeme.readNumber digits =
      if decimalValue digits < UInt64.size then .ok (.number (.ofNat (decimalValue digits)))
      else .error (.numberTooLarge (.ofList digits)) := by
  unfold Lexeme.readNumber
  dsimp only
  rw [ofDigitChars_eq_decimalValue]

/-- A character that starts no run is a mark, or is refused. -/
theorem readSymbol_of_alone (hdigit : first.isDigit = false) (hdot : Lexeme.isDot first = false)
    (lexeme rest : List Char) :
    (∃ punctuation, (Symbol.mark punctuation).spelling = [first] ∧
        Lexeme.readSymbol first lexeme rest = .ok (.mark punctuation)) ∨
      ((∀ punctuation, (Symbol.mark punctuation).spelling ≠ [first]) ∧
        Lexeme.readSymbol first lexeme rest = .error (.unexpectedCharacter first)) := by
  unfold Lexeme.readSymbol
  rw [if_neg (by simp [hdigit]), if_neg (by simp [hdot])]
  split
  · exact .inl ⟨.equal, rfl, rfl⟩
  · refine .inl ⟨_, ?_, rfl⟩
    split <;> rfl
  · exact .inl ⟨.leftSquare, rfl, rfl⟩
  · exact .inl ⟨.rightSquare, rfl, rfl⟩
  · exact .inl ⟨.leftCurly, rfl, rfl⟩
  · exact .inl ⟨.rightCurly, rfl, rfl⟩
  · refine .inr ⟨fun punctuation hspelling => ?_, rfl⟩
    cases punctuation <;> cases hspelling <;> contradiction

/-- What is cut off the front of a text is classified, if no run goes on from
further in front. -/
theorem classified_munch {rest : List Char} (hdigits : Apart Char.isDigit before (first :: rest))
    (hdots : Apart Lexeme.isDot before (first :: rest)) :
    ∃ others, (Lexeme.munch first rest).1 = first :: others ∧
      Classified before first others (Lexeme.munch first rest).2
        (Lexeme.readSymbol first (Lexeme.munch first rest).1 (Lexeme.munch first rest).2) := by
  rcases Lexeme.munch_cases first rest with ⟨hdigit, hmunch⟩ | ⟨hdigit, hdot, hmunch⟩ |
    ⟨hdigit, hdot, hmunch⟩
  · have hnodot : first ≠ '.' := by
      rintro rfl
      cases hdigit
    rw [hmunch]
    refine ⟨_, rfl, fun _ => ⟨wholeRun_munch hdigits hdigit, ?_⟩, fun h => absurd h hnodot,
      fun h => ?_⟩
    · unfold Lexeme.readSymbol
      rw [← readNumber_eq, if_pos hdigit]
    · rw [hdigit] at h
      cases h
  · rw [hmunch]
    refine ⟨_, rfl, fun h => ?_, fun _ => ⟨wholeRun_munch hdots hdot, ?_⟩, fun _ hnodot => ?_⟩
    · rw [hdigit] at h
      cases h
    · unfold Lexeme.readSymbol Lexeme.readRange
      rw [if_neg (by simp [hdigit]), if_pos hdot]
    · exact absurd (of_decide_eq_true hdot) hnodot
  · rw [hmunch]
    refine ⟨[], rfl, fun h => ?_, fun h => ?_, fun _ _ => ⟨rfl, ?_⟩⟩
    · rw [hdigit] at h
      cases h
    · exact absurd h (of_decide_eq_false hdot)
    · exact readSymbol_of_alone hdigit hdot _ _

end Piece

/-! ## All pieces of a source -/

section Reports

variable {before before' text text' behind behind' : List Char}
  {result : Except LexicalError Token}

/-- What a pull gave tells the text of the piece. -/
theorem Reports.text_eq (h : Reports before text behind result)
    (h' : Reports before' text' behind' result) : text = text' := by
  cases result with
  | ok token => exact String.ofList_inj.1 (h.2.1.symm.trans h'.2.1)
  | error error =>
    have hfault := h.1
    have hfault' := h'.1
    cases hcase : error.fault with
    | unexpectedCharacter character =>
      rw [hcase] at hfault hfault'
      exact hfault.trans hfault'.symm
    | invalidRange lexeme =>
      rw [hcase] at hfault hfault'
      exact String.ofList_inj.1 (hfault.1.symm.trans hfault'.1)
    | numberTooLarge lexeme =>
      rw [hcase] at hfault hfault'
      exact String.ofList_inj.1 (hfault.1.symm.trans hfault'.1)

/-- What a pull gave is about one piece of a source only. -/
theorem Reports.unique (h : Reports before text behind result)
    (h' : Reports before' text' behind' result)
    (hsource : before ++ text ++ behind = before' ++ text' ++ behind') :
    before = before' ∧ text = text' ∧ behind = behind' := by
  have hwidth : utf8Width before = utf8Width before' := by
    cases result with
    | ok token => exact h.2.2.1.symm.trans h'.2.2.1
    | error error => exact h.2.1.symm.trans h'.2.1
  obtain rfl := h.text_eq h'
  rw [List.append_assoc, List.append_assoc] at hsource
  obtain rfl := eq_of_utf8Width_eq hsource hwidth
  exact ⟨rfl, rfl, List.append_cancel_left (List.append_cancel_left hsource)⟩

end Reports

namespace Located

variable {before : List Char} {cursor : Cursor}

/-- Pulls pass a text, also behind errors and at the end of the input. -/
theorem exists_after (h : Located before cursor) (pulls : Nat) :
    ∃ passed, cursor.rest = passed ++ (cursor.after pulls).rest ∧
      Located (before ++ passed) (cursor.after pulls) := by
  induction pulls with
  | zero =>
    refine ⟨[], rfl, ?_⟩
    rw [List.append_nil]
    exact h
  | succ pulls ih =>
    obtain ⟨passed, hpassed, hlocated⟩ := ih
    rw [Cursor.after_succ]
    rcases hlocated.next_cases with ⟨-, behind, hnext⟩ | ⟨segment, -, hrest, -, hbehind⟩
    · obtain ⟨hskip, -, -⟩ := Cursor.eq_of_next_isEof hnext rfl
      rw [hnext, hskip]
      refine ⟨passed ++ (cursor.after pulls).rest.takeWhile isBlank, ?_, ?_⟩
      · rw [hpassed, List.append_assoc]
        rw [Cursor.skipBlanks_rest, List.takeWhile_append_dropWhile]
      · rw [← List.append_assoc]
        exact hlocated.skipBlanks
    · refine ⟨passed ++ segment.chars, ?_, ?_⟩
      · rw [hpassed, List.append_assoc, ← hrest]
      · rw [← List.append_assoc]
        exact hbehind

/-- A pull that is not at the end of the input reports a piece and classifies it. -/
theorem exists_classified (h : Located before cursor)
    (hmore : ∀ token, cursor.next.1 = .ok token → token.isEof = false) :
    ∃ blanks first others,
      cursor.rest = blanks ++ (first :: others) ++ cursor.next.2.rest ∧
      Reports (before ++ blanks) (first :: others) cursor.next.2.rest cursor.next.1 ∧
      Classified (before ++ blanks) first others cursor.next.2.rest (verdict cursor.next.1) := by
  have hskip := h.skipBlanks
  cases hrest : cursor.skipBlanks.rest with
  | nil =>
    have hend := hmore _ (congrArg Prod.fst (Cursor.next_of_skipBlanks_nil hrest))
    cases hend
  | cons first rest =>
    obtain ⟨hreports, -, hbehind⟩ := hskip.readToken hrest
    obtain ⟨others, hlexeme, hclass⟩ := classified_munch (hrest ▸ hskip.digits) (hrest ▸ hskip.dots)
    have hverdict : verdict (cursor.skipBlanks.readToken first rest).1 =
        Lexeme.readSymbol first (Lexeme.munch first rest).1 (Lexeme.munch first rest).2 := by
      unfold Cursor.readToken
      dsimp only
      split <;> rename_i hread <;> rw [hread] <;> rfl
    rw [Cursor.next_of_skipBlanks_cons hrest, hverdict, hbehind]
    rw [hbehind, hlexeme] at hreports
    refine ⟨cursor.rest.takeWhile isBlank, first, others, ?_, hreports, hclass⟩
    rw [← hlexeme, List.append_assoc, Lexeme.munch_append, ← hrest, Cursor.skipBlanks_rest,
      List.takeWhile_append_dropWhile]

end Located

/-- A pull that is about a piece of a source classifies this piece. -/
theorem classified_of_reports {source : String} {before text behind : List Char} {earlier : Nat}
    (hsource : source.toList = before ++ text ++ behind)
    (h : Reports before text behind ((Cursor.ofString source).pull earlier)) :
    ∃ first others, text = first :: others ∧
      Classified before first others behind (verdict ((Cursor.ofString source).pull earlier)) := by
  obtain ⟨passed, hpassed, hlocated⟩ := (Located.ofString source).exists_after earlier
  have hmore : ∀ token, ((Cursor.ofString source).after earlier).next.1 = .ok token →
      token.isEof = false := by
    intro token htoken
    rw [Cursor.pull, htoken] at h
    exact h.1
  obtain ⟨blanks, first, others, hrest, hreports, hclass⟩ := hlocated.exists_classified hmore
  have hsame : passed ++ blanks ++ (first :: others) ++
      ((Cursor.ofString source).after earlier).next.2.rest = before ++ text ++ behind := by
    rw [← hsource, List.append_assoc, List.append_assoc, ← List.append_assoc blanks, ← hrest]
    exact hpassed.symm
  obtain ⟨rfl, rfl, rfl⟩ := hreports.unique h hsame
  exact ⟨first, others, rfl, hclass⟩

/-! ## Numbers alone -/

section Digits

variable {digits : List Char}

/-- Digits alone are one token. -/
theorem tokenize_digits (hne : digits ≠ []) (hall : ∀ c ∈ digits, c.isDigit = true)
    (hvalue : decimalValue digits < UInt64.size) :
    ∃ token, tokenize (.ofList digits) = .ok [token] ∧
      token.symbol = .number (.ofNat (decimalValue digits)) := by
  obtain ⟨first, others, rfl⟩ := List.exists_cons_of_ne_nil hne
  have hfirst := hall first (List.mem_cons_self ..)
  have hothers : ∀ c ∈ others, c.isDigit = true := fun c hmem =>
    hall c (List.mem_cons_of_mem first hmem)
  have htake : others.takeWhile Char.isDigit = others := List.takeWhile_eq_self_iff.2 hothers
  have hdrop : others.dropWhile Char.isDigit = [] := List.dropWhile_eq_nil_iff.2 hothers
  have hmunch : Lexeme.munch first others = (first :: others, []) := by
    rw [Lexeme.munch, if_pos hfirst, htake, hdrop]
  have hread : Lexeme.readSymbol first (first :: others) [] =
      .ok (.number (.ofNat (decimalValue (first :: others)))) := by
    unfold Lexeme.readSymbol
    rw [if_pos hfirst, readNumber_eq, if_pos hvalue]
  have hskip : (Cursor.ofString (.ofList (first :: others))).skipBlanks.rest =
      first :: others :=
    Cursor.skipBlanks_rest_of_cons String.toList_ofList (isBlank_of_isDigit hfirst)
  obtain ⟨token, after, hnext, hsymbol, hafter⟩ :
      ∃ token after, (Cursor.ofString (.ofList (first :: others))).next = (.ok token, after) ∧
        token.symbol = .number (.ofNat (decimalValue (first :: others))) ∧ after.rest = [] := by
    rw [Cursor.next_of_skipBlanks_cons hskip]
    simp only [Cursor.readToken, hmunch, hread]
    exact ⟨_, _, rfl, rfl, rfl⟩
  have hmore : token.isEof = false := Token.isEof_eq_false_iff.2 (by simp [hsymbol])
  refine ⟨token, tokenize_eq_ok_iff.2 ?_, hsymbol⟩
  rw [Cursor.scan_of_token hnext hmore,
    Cursor.scan_of_eof (Cursor.next_of_rest_nil hafter) rfl]
  rfl

/-- Digits alone stand for their number, under any limits. -/
theorem parse_digits (limits : Limits) (hne : digits ≠ [])
    (hall : ∀ c ∈ digits, c.isDigit = true) (hvalue : decimalValue digits < UInt64.size) :
    parse .array limits (.ofList digits) =
      .ok (.array (.integer (.ofNat (decimalValue digits)))) := by
  obtain ⟨token, htokens, hsymbol⟩ := tokenize_digits hne hall hvalue
  have hword : [token].map Token.symbol =
      (Derivation.number (.ofNat (decimalValue digits))).word .endComma := by
    rw [List.map_singleton, hsymbol, Derivation.word_number]
  have hfits : (Derivation.number (.ofNat (decimalValue digits))).Fits limits 0 :=
    Derivation.fits_number.2 (Nat.zero_le _)
  have hwhole := Parsing.parseWhole_of_word htokens hword hfits
  rw [Derivation.literal_number] at hwhole
  have hparse := parse_array_of_literal hwhole (by rw [Literal.cost_number]; exact Nat.zero_le _)
  rwa [Literal.materialize_number] at hparse

end Digits

/-- The pieces that a source is cut into are classified, whatever errors come before
them. A piece that starts with a digit is a whole run of digits, and a number with
their decimal value if that is a word. A piece that starts with a dot is a whole run of
dots, and a range if there are three. Any other piece is one character, and the mark
that is spelled so, or refused. So a word is read from its digits, with any number of
zeros in front. -/
theorem pull_classifies_pieces (source : String) :
    (∃ segments tail, Traverses [] (.ofString source) segments tail ∧
      ∀ front segment back, segments = front ++ segment :: back →
        ∃ first others, segment.text = first :: others ∧
          Classified (front.flatMap Segment.chars ++ segment.blanks) first others
            (back.flatMap Segment.chars ++ tail)
            (verdict ((Cursor.ofString source).pull front.length))) ∧
    ∀ (limits : Limits) (zeros : Nat) (value : UInt64),
      parse .array limits
          (.ofList (List.replicate zeros '0' ++ Nat.toDigits 10 value.toNat)) =
        .ok (.array (.integer value)) := by
  constructor
  · obtain ⟨segments, tail, htraverses⟩ := (Located.ofString source).exists_segments
    refine ⟨segments, tail, htraverses, fun front segment back hsplit => ?_⟩
    have hreports := htraverses.reports front segment back hsplit
    refine classified_of_reports ?_ hreports
    have hsource : source.toList = segments.flatMap Segment.chars ++ tail := htraverses.rest_eq
    rw [hsource, hsplit]
    simp [Segment.chars]
  · intro limits zeros value
    have hvalue := decimalValue_toDigits zeros value.toNat
    have hdigits : ∀ c ∈ List.replicate zeros '0' ++ Nat.toDigits 10 value.toNat,
        c.isDigit = true := by
      intro c hmem
      rcases List.mem_append.1 hmem with hzero | hdigit
      · rw [List.eq_of_mem_replicate hzero]
        rfl
      · exact Nat.isDigit_of_mem_toDigits (by decide) (by decide) hdigit
    have hne : List.replicate zeros '0' ++ Nat.toDigits 10 value.toNat ≠ [] :=
      List.append_ne_nil_of_right_ne_nil _ Nat.toDigits_ne_nil
    have hparse := parse_digits limits hne hdigits (by rw [hvalue]; exact value.toNat_lt)
    rwa [hvalue, UInt64.ofNat_toNat] at hparse

/-! ## Commas -/

/-- A pull gave a closing brace. -/
def GivesClosing (result : Except LexicalError Token) : Prop :=
  ∃ closing, result = .ok closing ∧ closing.symbol = .mark .rightCurly

theorem Symbol.plain_eq_comma_iff {symbol : Symbol} :
    symbol.plain = .mark .comma ↔ symbol = .mark .comma ∨ symbol = .mark .endComma := by
  constructor
  · intro h
    unfold plain at h
    split at h
    · exact .inr rfl
    · exact .inl h
  · rintro (rfl | rfl) <;> rfl

namespace Cursor

variable {cursor : Cursor} {token : Token}

/-- A comma is a trailing one exactly if the next pull gives a closing brace. -/
theorem eq_endComma_iff_pull {earlier : Nat} (h : cursor.pull earlier = .ok token)
    (hcomma : token.symbol.plain = .mark .comma) :
    token.symbol = .mark .endComma ↔ GivesClosing (cursor.pull (earlier + 1)) := by
  have hnext : (cursor.after earlier).next = (.ok token, cursor.after (earlier + 1)) :=
    Prod.ext h (cursor.after_succ earlier).symm
  rw [eq_endComma_iff_of_next hnext hcomma]
  constructor
  · rintro ⟨closing, last, hclosing, hbrace⟩
    exact ⟨closing, congrArg Prod.fst hclosing, hbrace⟩
  · rintro ⟨closing, hclosing, hbrace⟩
    exact ⟨closing, _, Prod.ext hclosing rfl, hbrace⟩

/-- Any other comma is one that the next pull gives no closing brace behind. -/
theorem eq_comma_iff_pull {earlier : Nat} (h : cursor.pull earlier = .ok token)
    (hcomma : token.symbol.plain = .mark .comma) :
    token.symbol = .mark .comma ↔ ¬ GivesClosing (cursor.pull (earlier + 1)) := by
  rw [← eq_endComma_iff_pull h hcomma]
  rcases Symbol.plain_eq_comma_iff.1 hcomma with hkind | hkind <;> simp [hkind]

theorem givesClosing_next_iff :
    GivesClosing cursor.next.1 ↔
      ∃ closing rest, cursor.scan.tokens = closing :: rest ∧
        closing.symbol = .mark .rightCurly := by
  constructor
  · rintro ⟨closing, hclosing, hbrace⟩
    have hmore : closing.isEof = false := Token.isEof_eq_false_iff.2 (by simp [hbrace])
    have hnext : cursor.next = (.ok closing, cursor.next.2) := Prod.ext hclosing rfl
    exact ⟨closing, cursor.next.2.scan.tokens, by rw [scan_of_token hnext hmore]; rfl, hbrace⟩
  · rintro ⟨closing, rest, hscan, hbrace⟩
    obtain ⟨after, hnext, -⟩ := exists_next_of_scan hscan
    exact ⟨closing, congrArg Prod.fst hnext, hbrace⟩

end Cursor

/-- A comma that is pulled is a trailing one if the next pull gives a closing brace, and
none if that pull gives anything else, be it a lexical error or the end of the input. So
among the tokens of a source a closing brace comes right behind each trailing comma, and
behind no other. -/
theorem pull_endComma_iff (source : String) :
    (∀ earlier comma, (Cursor.ofString source).pull earlier = .ok comma →
      comma.symbol = .mark .comma ∨ comma.symbol = .mark .endComma →
        (comma.symbol = .mark .endComma ↔
          GivesClosing ((Cursor.ofString source).pull (earlier + 1))) ∧
        (comma.symbol = .mark .comma ↔
          ¬ GivesClosing ((Cursor.ofString source).pull (earlier + 1)))) ∧
    ∀ tokens, tokenize source = .ok tokens → ∀ front comma back, tokens = front ++ comma :: back →
      (comma.symbol = .mark .endComma →
        ∃ closing rest, back = closing :: rest ∧ closing.symbol = .mark .rightCurly) ∧
      (comma.symbol = .mark .comma →
        ¬ ∃ closing rest, back = closing :: rest ∧ closing.symbol = .mark .rightCurly) := by
  constructor
  · intro earlier comma hcomma hkind
    have hplain := Symbol.plain_eq_comma_iff.2 hkind
    exact ⟨Cursor.eq_endComma_iff_pull hcomma hplain, Cursor.eq_comma_iff_pull hcomma hplain⟩
  · intro tokens htokens front comma back hsplit
    have hscan : (Cursor.ofString source).scan.tokens = front ++ comma :: back := by
      rw [tokenize_eq_ok_iff.1 htokens, hsplit]
    obtain ⟨hcomma, hback⟩ := Cursor.pull_of_scan hscan
    have hclosing : GivesClosing ((Cursor.ofString source).pull (front.length + 1)) ↔
        ∃ closing rest, back = closing :: rest ∧ closing.symbol = .mark .rightCurly := by
      rw [← hback]
      exact Cursor.givesClosing_next_iff
    rw [← hclosing]
    refine ⟨fun hkind => ?_, fun hkind => ?_⟩
    · have hplain := Symbol.plain_eq_comma_iff.2 (.inr hkind)
      exact (Cursor.eq_endComma_iff_pull hcomma hplain).1 hkind
    · have hplain := Symbol.plain_eq_comma_iff.2 (.inl hkind)
      exact (Cursor.eq_comma_iff_pull hcomma hplain).1 hkind

end ArrayLiteral
