import ArrayLiteral.Output
import ArrayLiteral.Proofs.Spelling
import Mathlib.Data.List.TakeWhile

/-!
# Layout of a source

Blanks that are put into a source between two lexemes change no lexeme.  A `Gap` is
such blanks and the place where they are put in.  What starts in front of it stays where
it is, and what starts at it or behind it moves by the width of the blanks
(`Gap.token`, `Gap.lexical`, `Gap.error`).

Two cursors are `Abreast` if the second one is in the source with the gap, at the place
of the first one.  In front of the gap they have the same offset, and the blanks are
somewhere in the text that is left to the second one.  Behind it the texts are the same.
`Abreast.next` is one pull: the reports differ by the gap, and the cursors stay abreast.
A lexeme never reaches across the gap, for no run goes on there, and a comma looks past
all blanks for the brace behind it.
-/

namespace ArrayLiteral

open Text

/-- Blanks that are put into a source. -/
structure Gap where
  /-- Byte offset of the place where they are put in. -/
  start : Nat
  blanks : List Char
  isBlank_of_mem : ∀ c ∈ blanks, isBlank c = true

namespace Gap

variable (gap : Gap)

def width : Nat :=
  utf8Width gap.blanks

/-- The number of line breaks among the blanks. -/
def lines : Nat :=
  gap.blanks.count '\n'

/-- Where the token is once the blanks are there. -/
def token (token : Token) : Token :=
  if gap.start ≤ token.start then
    { token with
      start := token.start + gap.width
      stop := token.stop + gap.width
      line := token.line + gap.lines }
  else
    token

/-- Where the lexical error is once the blanks are there. -/
def lexical (error : LexicalError) : LexicalError :=
  if gap.start ≤ error.position then
    { error with position := error.position + gap.width, line := error.line + gap.lines }
  else
    error

/-- What the pull gives once the blanks are there. -/
def report : Except LexicalError Token → Except LexicalError Token
  | .ok token => .ok (gap.token token)
  | .error error => .error (gap.lexical error)

/-- What is wrong stays the same. -/
def error : Error → Error
  | .lexical error => .lexical (gap.lexical error)
  | .grammar error => .grammar { error with found := gap.token error.found }

/-- Values and literals know nothing of places. -/
def output : Output → Output
  | .array value => .array value
  | .ast literal => .ast literal
  | .tokens list => .tokens (list.map gap.token)

/-- What a parse gives once the blanks are there. -/
def result : Except Error Output → Except Error Output
  | .ok output => .ok (gap.output output)
  | .error error => .error (gap.error error)

section Moved

variable {gap} {token : Token} {error : LexicalError}

theorem token_of_le (h : gap.start ≤ token.start) :
    gap.token token =
      { token with
        start := token.start + gap.width
        stop := token.stop + gap.width
        line := token.line + gap.lines } :=
  if_pos h

theorem token_of_lt (h : token.start < gap.start) : gap.token token = token :=
  if_neg (Nat.not_le_of_lt h)

theorem lexical_of_le (h : gap.start ≤ error.position) :
    gap.lexical error =
      { error with position := error.position + gap.width, line := error.line + gap.lines } :=
  if_pos h

theorem lexical_of_lt (h : error.position < gap.start) : gap.lexical error = error :=
  if_neg (Nat.not_le_of_lt h)

end Moved

@[simp] theorem symbol_token (token : Token) : (gap.token token).symbol = token.symbol := by
  unfold Gap.token
  split <;> rfl

@[simp] theorem kind_token (token : Token) : (gap.token token).kind = token.kind :=
  congrArg Symbol.kind (gap.symbol_token token)

@[simp] theorem isEof_token (token : Token) : (gap.token token).isEof = token.isEof := by
  unfold Token.isEof
  rw [kind_token]

end Gap

/-! ## Texts with a gap -/

section Texts

variable {p : Char → Bool} {first : Char} {front behind rest : List Char}

theorem Apart.of_append {before : List Char} (h : Apart p (before ++ front) behind) :
    Apart p front behind := by
  intro c hlast
  have hne : front ≠ [] := by
    rintro rfl
    cases hlast
  exact h c (by rwa [getLast?_append_of_ne_nil hne])

/-- With blanks in between, texts stay apart. -/
theorem Apart.gap (h : Apart p front behind) (hp : ∀ c, isBlank c = true → p c = false)
    (gap : Gap) : Apart p front (gap.blanks ++ behind) := by
  intro c hlast hc d hhead
  cases hblanks : gap.blanks with
  | nil =>
    rw [hblanks] at hhead
    exact h c hlast hc d hhead
  | cons blank blanks =>
    have hmem : blank ∈ gap.blanks := hblanks ▸ List.mem_cons_self ..
    rw [hblanks] at hhead
    rw [← Option.mem_some.1 hhead]
    exact hp blank (gap.isBlank_of_mem blank hmem)

theorem isDigit_of_isBlank (c : Char) (h : isBlank c = true) : c.isDigit = false := by
  cases hdigit : c.isDigit with
  | false => rfl
  | true =>
    rw [isBlank_of_isDigit hdigit] at h
    cases h

theorem isDot_of_isBlank (c : Char) (h : isBlank c = true) : Lexeme.isDot c = false := by
  rw [Lexeme.isDot, decide_eq_false_iff_not]
  rintro rfl
  exact absurd h (by decide)

/-- A run that ends in a text ends there whatever is behind the text. -/
theorem takeWhile_append_of_dropWhile (h : front.dropWhile p = first :: rest)
    (behind : List Char) :
    (front ++ behind).takeWhile p = front.takeWhile p ∧
      (front ++ behind).dropWhile p = first :: (rest ++ behind) := by
  constructor
  · rw [List.takeWhile_append, if_neg]
    intro hlength
    have happend := List.takeWhile_append_dropWhile (p := p) (l := front)
    have hsame := congrArg List.length happend
    rw [List.length_append, hlength, h, List.length_cons] at hsame
    omega
  · rw [List.dropWhile_append, h]
    rfl

/-- A run does not go on into a text that is apart. -/
theorem takeWhile_append_of_apart (hfirst : p first = true)
    (h : Apart p (first :: front) behind) :
    (front ++ behind).takeWhile p = front.takeWhile p ∧
      (front ++ behind).dropWhile p = front.dropWhile p ++ behind := by
  cases hdrop : front.dropWhile p with
  | nil =>
    have hrun : ∀ c ∈ front, p c = true := List.dropWhile_eq_nil_iff.1 hdrop
    have hend := h.of_run (List.forall_mem_cons.2 ⟨hfirst, hrun⟩) (List.cons_ne_nil _ _)
    obtain ⟨htake, hbehind⟩ := takeWhile_run hrun hend
    rw [htake, hbehind, List.takeWhile_eq_self_iff.2 hrun]
    exact ⟨rfl, rfl⟩
  | cons c rest => exact takeWhile_append_of_dropWhile hdrop behind

namespace Lexeme

/-- A lexeme does not reach into a text that is apart. -/
theorem munch_append_of_apart (hdigits : Apart Char.isDigit (first :: front) behind)
    (hdots : Apart isDot (first :: front) behind) :
    munch first (front ++ behind) = ((munch first front).1, (munch first front).2 ++ behind) := by
  unfold munch
  by_cases hdigit : first.isDigit = true
  · obtain ⟨htake, hdrop⟩ := takeWhile_append_of_apart hdigit hdigits
    rw [if_pos hdigit, if_pos hdigit, htake, hdrop]
  · rw [if_neg hdigit, if_neg hdigit]
    by_cases hdot : isDot first = true
    · obtain ⟨htake, hdrop⟩ := takeWhile_append_of_apart hdot hdots
      rw [if_pos hdot, if_pos hdot, htake, hdrop]
    · rw [if_neg hdot, if_neg hdot]

/-- The brace that makes a comma a trailing one is found behind a gap too. -/
theorem closesAggregate_gap (gap : Gap) (front behind : List Char) :
    closesAggregate (front ++ (gap.blanks ++ behind)) = closesAggregate (front ++ behind) := by
  rw [closesAggregate_eq, closesAggregate_eq]
  cases hdrop : front.dropWhile isBlank with
  | nil =>
    have hblank := List.dropWhile_eq_nil_iff.1 hdrop
    rw [List.dropWhile_append_of_pos hblank, List.dropWhile_append_of_pos hblank,
      List.dropWhile_append_of_pos gap.isBlank_of_mem]
  | cons c rest =>
    rw [(takeWhile_append_of_dropWhile hdrop _).2, (takeWhile_append_of_dropWhile hdrop _).2]
    rfl

theorem readSymbol_gap (gap : Gap) (lexeme : List Char) :
    readSymbol first lexeme (front ++ (gap.blanks ++ behind)) =
      readSymbol first lexeme (front ++ behind) := by
  unfold readSymbol
  rw [closesAggregate_gap]

end Lexeme

end Texts

/-! ## Cursors -/

namespace Cursor

/-- The place behind a gap where the cursor was without it. -/
def moved (gap : Gap) (cursor : Cursor) : Cursor :=
  { cursor with offset := cursor.offset + gap.width, line := cursor.line + gap.lines }

/-- The second cursor is at the place of the first one, in the source with the gap. -/
inductive Abreast (gap : Gap) : Cursor → Cursor → Prop
  | before (front behind : List Char) (offset line : Nat)
      (hdigits : Apart Char.isDigit front behind) (hdots : Apart Lexeme.isDot front behind)
      (hstart : offset + utf8Width front = gap.start) :
    Abreast gap ⟨front ++ behind, offset, line⟩ ⟨front ++ (gap.blanks ++ behind), offset, line⟩
  | behind (cursor : Cursor) (hstart : gap.start ≤ cursor.offset) :
    Abreast gap cursor (cursor.moved gap)

section Moved

variable {gap : Gap} {cursor other : Cursor}

theorem skipBlanks_moved (gap : Gap) (cursor : Cursor) :
    (cursor.moved gap).skipBlanks = cursor.skipBlanks.moved gap := by
  simp only [moved, skipBlanks_eq, past, Cursor.mk.injEq, true_and]
  omega

theorem readToken_moved {first : Char} {rest : List Char} (hstart : gap.start ≤ cursor.offset) :
    (cursor.moved gap).readToken first rest =
      (gap.report (cursor.readToken first rest).1, (cursor.readToken first rest).2.moved gap) := by
  have hpast : ∀ text behind : List Char,
      (cursor.moved gap).past text behind = (cursor.past text behind).moved gap := by
    intro text behind
    simp only [moved, past, Cursor.mk.injEq, true_and]
    omega
  unfold readToken
  dsimp only
  rw [hpast]
  cases Lexeme.readSymbol first (Lexeme.munch first rest).1 (Lexeme.munch first rest).2 with
  | ok symbol =>
    rw [Gap.report, Gap.token_of_le hstart]
    rfl
  | error fault =>
    rw [Gap.report, Gap.lexical_of_le hstart]
    rfl

/-- From a place behind the gap on, everything is moved. -/
theorem next_moved (hskip : other.skipBlanks = cursor.skipBlanks.moved gap)
    (hstart : gap.start ≤ cursor.skipBlanks.offset) :
    other.next = (gap.report cursor.next.1, cursor.next.2.moved gap) := by
  have hrest : other.skipBlanks.rest = cursor.skipBlanks.rest := by
    rw [hskip]
    rfl
  cases hchars : cursor.skipBlanks.rest with
  | nil =>
    rw [next_of_skipBlanks_nil (hrest.trans hchars), next_of_skipBlanks_nil hchars, hskip]
    rw [Gap.report, Gap.token_of_le hstart]
    rfl
  | cons first rest =>
    rw [next_of_skipBlanks_cons (hrest.trans hchars), next_of_skipBlanks_cons hchars, hskip,
      readToken_moved hstart]

end Moved

/-- What is left to a cursor does not matter to a lexeme that was cut off already. -/
theorem readToken_congr {cursor other : Cursor} (hoffset : other.offset = cursor.offset)
    (hline : other.line = cursor.line) (first : Char) (rest : List Char) :
    other.readToken first rest = cursor.readToken first rest := by
  rcases cursor with ⟨text, offset, line⟩
  rcases other with ⟨text', offset', line'⟩
  cases hoffset
  cases hline
  rfl

/-- A lexeme in front of the gap is read alike on both sides. -/
theorem Abreast.readToken {gap : Gap} {cursor : Cursor} {first : Char} {front behind : List Char}
    (hdigits : Apart Char.isDigit (first :: front) behind)
    (hdots : Apart Lexeme.isDot (first :: front) behind)
    (hstart : cursor.offset + utf8Width (first :: front) = gap.start) :
    (cursor.readToken first (front ++ (gap.blanks ++ behind))).1 =
        gap.report (cursor.readToken first (front ++ behind)).1 ∧
      Abreast gap (cursor.readToken first (front ++ behind)).2
        (cursor.readToken first (front ++ (gap.blanks ++ behind))).2 := by
  -- The lexeme starts in front of the gap, so neither a token nor an error is moved.
  have hbefore : cursor.offset < gap.start := by
    have hfirst := first.utf8Size_pos
    rw [utf8Width_cons] at hstart
    omega
  have hsplit := Lexeme.munch_append first front
  have hmunch := Lexeme.munch_append_of_apart hdigits hdots
  have hmunch' := Lexeme.munch_append_of_apart (hdigits.gap isDigit_of_isBlank gap)
    (hdots.gap isDot_of_isBlank gap)
  rcases hlexeme : Lexeme.munch first front with ⟨lexeme, rest⟩
  rw [hlexeme] at hsplit hmunch hmunch'
  rw [← hsplit] at hdigits hdots hstart
  have habreast : Abreast gap (cursor.past lexeme (rest ++ behind))
      (cursor.past lexeme (rest ++ (gap.blanks ++ behind))) := by
    refine .before rest behind _ _ hdigits.of_append hdots.of_append ?_
    rw [← hstart, utf8Width_append]
    exact Nat.add_assoc _ _ _
  unfold Cursor.readToken
  simp only [hmunch, hmunch', Lexeme.readSymbol_gap]
  cases Lexeme.readSymbol first lexeme (rest ++ behind) with
  | ok symbol => exact ⟨congrArg Except.ok (Gap.token_of_lt hbefore).symm, habreast⟩
  | error fault => exact ⟨congrArg Except.error (Gap.lexical_of_lt hbefore).symm, habreast⟩

/-- One pull on both sides. -/
theorem Abreast.next {gap : Gap} {cursor other : Cursor} (h : Abreast gap cursor other) :
    other.next.1 = gap.report cursor.next.1 ∧ Abreast gap cursor.next.2 other.next.2 := by
  cases h with
  | behind _ hstart =>
    have hskip := skipBlanks_moved gap cursor
    have hskipped := Nat.le_trans hstart cursor.offset_le_skipBlanks
    rw [next_moved hskip hskipped]
    exact ⟨rfl, .behind _ (Nat.le_trans hskipped cursor.offset_skipBlanks_le_next)⟩
  | before front behind offset line hdigits hdots hstart =>
    cases hdrop : front.dropWhile isBlank with
    | nil =>
      -- Nothing but blanks is in front of the gap, so the next lexeme is behind it.
      have hblank : ∀ c ∈ front, isBlank c = true := List.dropWhile_eq_nil_iff.1 hdrop
      have hskip : skipBlanks ⟨front ++ (gap.blanks ++ behind), offset, line⟩ =
          (skipBlanks ⟨front ++ behind, offset, line⟩).moved gap := by
        simp only [skipBlanks_eq, past, moved, List.takeWhile_append_of_pos hblank,
          List.dropWhile_append_of_pos hblank, List.takeWhile_append_of_pos gap.isBlank_of_mem,
          List.dropWhile_append_of_pos gap.isBlank_of_mem, utf8Width_append, List.count_append,
          Gap.width, Gap.lines, Cursor.mk.injEq, true_and]
        omega
      have hskipped : gap.start ≤ (skipBlanks ⟨front ++ behind, offset, line⟩).offset := by
        simp only [skipBlanks_eq, past, List.takeWhile_append_of_pos hblank, utf8Width_append]
        omega
      rw [next_moved hskip hskipped]
      exact ⟨rfl, .behind _ (Nat.le_trans hskipped (offset_skipBlanks_le_next _))⟩
    | cons first rest =>
      obtain ⟨htake, hrest⟩ := takeWhile_append_of_dropWhile hdrop behind
      obtain ⟨htake', hrest'⟩ := takeWhile_append_of_dropWhile hdrop (gap.blanks ++ behind)
      have hfront := List.takeWhile_append_dropWhile (p := isBlank) (l := front)
      rw [hdrop] at hfront
      rw [← hfront] at hdigits hdots hstart
      have hnext : Cursor.next ⟨front ++ behind, offset, line⟩ =
          (skipBlanks ⟨front ++ behind, offset, line⟩).readToken first (rest ++ behind) :=
        next_of_skipBlanks_cons ((skipBlanks_rest _).trans hrest)
      have hnext' : Cursor.next ⟨front ++ (gap.blanks ++ behind), offset, line⟩ =
          (skipBlanks ⟨front ++ behind, offset, line⟩).readToken first
            (rest ++ (gap.blanks ++ behind)) := by
        have hskipped : (skipBlanks ⟨front ++ (gap.blanks ++ behind), offset, line⟩).rest =
            first :: (rest ++ (gap.blanks ++ behind)) := (skipBlanks_rest _).trans hrest'
        rw [next_of_skipBlanks_cons hskipped]
        apply readToken_congr
        · simp only [skipBlanks_eq, past, htake, htake']
        · simp only [skipBlanks_eq, past, htake, htake']
      rw [hnext, hnext']
      apply Abreast.readToken hdigits.of_append hdots.of_append
      rw [← hstart, utf8Width_append]
      simp only [skipBlanks_eq, past, htake]
      exact Nat.add_assoc _ _ _

/-- At the start of the two sources. -/
theorem Abreast.ofString {front blanks behind : String}
    (hdigits : Apart Char.isDigit front.toList behind.toList)
    (hdots : Apart Lexeme.isDot front.toList behind.toList)
    (hblank : ∀ c ∈ blanks.toList, isBlank c = true) :
    Abreast ⟨front.utf8ByteSize, blanks.toList, hblank⟩ (.ofString (front ++ behind))
      (.ofString (front ++ blanks ++ behind)) := by
  unfold Cursor.ofString
  rw [String.append_assoc, String.toList_append, String.toList_append, String.toList_append]
  refine .before _ _ 0 1 hdigits hdots ?_
  rw [Nat.zero_add, utf8Width_toList]

/-- Everything that pulling yields is moved if it starts behind the gap. -/
theorem scan_abreast {gap : Gap} {cursor other : Cursor} (h : Abreast gap cursor other) :
    other.scan = {
      tokens := cursor.scan.tokens.map gap.token
      fault? := cursor.scan.fault?.map gap.lexical } := by
  fun_induction scan cursor generalizing other with
  | case1 cursor error after hnext =>
    have hreport := h.next.1
    rw [hnext] at hreport
    rw [scan_of_error (Prod.ext hreport rfl)]
    rfl
  | case2 cursor token after hnext hend =>
    have hreport := h.next.1
    rw [hnext] at hreport
    rw [scan_of_eof (Prod.ext hreport rfl) (by rwa [gap.isEof_token])]
    rfl
  | case3 cursor token after hnext hend ih =>
    obtain ⟨hreport, hbehind⟩ := h.next
    rw [hnext] at hreport hbehind
    have hmore : (gap.token token).isEof = false := by
      rw [gap.isEof_token]
      exact Bool.eq_false_iff.2 hend
    rw [scan_of_token (Prod.ext hreport rfl) hmore, ih hbehind]
    rfl

end Cursor

/-- Splitting a source with a gap into tokens. -/
theorem tokenize_gap {front blanks behind : String}
    (hdigits : Apart Char.isDigit front.toList behind.toList)
    (hdots : Apart Lexeme.isDot front.toList behind.toList)
    (hblank : ∀ c ∈ blanks.toList, isBlank c = true) :
    let gap : Gap := ⟨front.utf8ByteSize, blanks.toList, hblank⟩
    tokenize (front ++ blanks ++ behind) =
      ((tokenize (front ++ behind)).map (List.map gap.token)).mapError gap.lexical := by
  intro gap
  have hscan := Cursor.scan_abreast (Cursor.Abreast.ofString hdigits hdots hblank)
  cases htokens : tokenize (front ++ behind) with
  | ok tokens =>
    rw [tokenize_eq_ok_iff.1 htokens] at hscan
    exact tokenize_eq_ok_iff.2 hscan
  | error error =>
    apply tokenize_eq_error_iff.2
    rw [hscan, tokenize_eq_error_iff.1 htokens]
    rfl

end ArrayLiteral
