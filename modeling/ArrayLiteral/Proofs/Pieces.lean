import ArrayLiteral.Proofs.Pulls

/-!
# The pieces of a source

A source is blanks and pieces in turn.  Each pull takes the next piece and
reports it, as a token or as a lexical error, with its text, its byte offset and
its line.  `Segment` is a piece with the blanks in front of it, and `Reports`
compares a report with the place of the piece in the source.

`Located` ties a cursor to the text that it has passed.  It also says that no run
of digits or dots is cut in two there, which is why an error shows a whole run.
`Located.next_cases` is one pull, and `Located.exists_segments` all of them.  The
errors on the way make no difference.
-/

namespace ArrayLiteral

open Text

/-- A piece of a source, and the blanks in front of it. -/
structure Segment where
  blanks : List Char
  text : List Char

namespace Segment

def chars (segment : Segment) : List Char :=
  segment.blanks ++ segment.text

/-- There is a piece, there is no blank in it, and blanks only in front of it. -/
structure Clean (segment : Segment) : Prop where
  blanks : ∀ c ∈ segment.blanks, isBlank c = true
  text_ne_nil : segment.text ≠ []
  text : ∀ c ∈ segment.text, isBlank c = false

end Segment

/-! ## Runs -/

/-- The text is a run of such characters, and neither side makes it longer. -/
structure WholeRun (p : Char → Bool) (before text behind : List Char) : Prop where
  all : ∀ c ∈ text, p c = true
  left : ∀ c ∈ before.getLast?, p c = false
  right : ∀ c ∈ behind.head?, p c = false

/-- No run of such characters goes on from one text to the other. -/
def Apart (p : Char → Bool) (before behind : List Char) : Prop :=
  ∀ c ∈ before.getLast?, p c = true → ∀ d ∈ behind.head?, p d = false

section Apart

variable {p : Char → Bool} {before behind : List Char}

theorem getLast?_append_of_ne_nil (h : behind ≠ []) :
    (before ++ behind).getLast? = behind.getLast? := by
  rw [List.getLast?_append, List.getLast?_eq_some_getLast h]
  rfl

theorem head?_dropWhile {c : Char} (h : c ∈ (behind.dropWhile p).head?) : p c = false := by
  have hall := List.head?_dropWhile_not p behind
  rw [Option.mem_def.1 h] at hall
  simpa using hall

/-- Blanks end every run of other characters. -/
theorem Apart.skipBlanks (h : Apart p before behind)
    (hblank : ∀ c, isBlank c = true → p c = false) :
    Apart p (before ++ behind.takeWhile isBlank) (behind.dropWhile isBlank) := by
  cases hskipped : behind.takeWhile isBlank with
  | nil =>
    have hsame : behind.dropWhile isBlank = behind := by
      have happend := List.takeWhile_append_dropWhile (p := isBlank) (l := behind)
      rwa [hskipped] at happend
    rw [List.append_nil, hsame]
    exact h
  | cons c blanks =>
    -- The last character in front is a blank now, so no run comes from there.
    intro last hlast hp
    rw [getLast?_append_of_ne_nil (List.cons_ne_nil c blanks), ← hskipped] at hlast
    have hmem := List.mem_of_getLast? hlast
    rw [hblank last (List.all_eq_true.1 List.all_takeWhile last hmem)] at hp
    cases hp

end Apart

/-! ## Lexemes -/

namespace Lexeme

variable (first : Char) (rest : List Char)

/-- A lexeme is a run of digits, a run of dots, or one character that is neither. -/
theorem munch_cases :
    (first.isDigit = true ∧
      munch first rest = (first :: rest.takeWhile Char.isDigit, rest.dropWhile Char.isDigit)) ∨
    (first.isDigit = false ∧ isDot first = true ∧
      munch first rest = (first :: rest.takeWhile isDot, rest.dropWhile isDot)) ∨
    (first.isDigit = false ∧ isDot first = false ∧ munch first rest = ([first], rest)) := by
  unfold munch
  cases first.isDigit <;> cases isDot first <;> simp

theorem munch_fst_ne_nil : (munch first rest).1 ≠ [] := by
  rcases munch_cases first rest with ⟨-, h⟩ | ⟨-, -, h⟩ | ⟨-, -, h⟩ <;> rw [h] <;> nofun

variable {first}

/-- There is no blank in a lexeme that does not start with one. -/
theorem isBlank_of_mem_munch (hfirst : isBlank first = false) {c : Char}
    (hmem : c ∈ (munch first rest).1) : isBlank c = false := by
  rcases munch_cases first rest with ⟨-, h⟩ | ⟨-, -, h⟩ | ⟨-, -, h⟩
  · rw [h] at hmem
    rcases List.mem_cons.1 hmem with rfl | hmem
    · exact hfirst
    · exact isBlank_of_isDigit (List.all_eq_true.1 List.all_takeWhile c hmem)
  · rw [h] at hmem
    rcases List.mem_cons.1 hmem with rfl | hmem
    · exact hfirst
    · have hdot : isDot c = true := List.all_eq_true.1 List.all_takeWhile c hmem
      rw [of_decide_eq_true hdot]
      exact isBlank_of_visible (by decide) (by decide)
  · rw [h] at hmem
    rw [List.mem_singleton.1 hmem]
    exact hfirst

theorem isDot_of_isDigit {c : Char} (h : c.isDigit = true) : isDot c = false := by
  rw [isDot, decide_eq_false_iff_not]
  rintro rfl
  cases h

theorem all_run {p : Char → Bool} (hfirst : p first = true) :
    ∀ c ∈ first :: rest.takeWhile p, p c = true := by
  intro c hmem
  rcases List.mem_cons.1 hmem with rfl | hmem
  · exact hfirst
  · exact List.all_eq_true.1 List.all_takeWhile c hmem

variable (first) in
/-- A lexeme ends every run that it is in. -/
theorem apart_munch :
    Apart Char.isDigit (munch first rest).1 (munch first rest).2 ∧
      Apart isDot (munch first rest).1 (munch first rest).2 := by
  rcases munch_cases first rest with ⟨hdigit, h⟩ | ⟨-, hdot, h⟩ | ⟨hdigit, hdot, h⟩
  · rw [h]
    refine ⟨fun _ _ _ _ hhead => head?_dropWhile hhead, fun c hlast hp => ?_⟩
    rw [isDot_of_isDigit (all_run rest hdigit c (List.mem_of_getLast? hlast))] at hp
    cases hp
  · rw [h]
    refine ⟨fun c hlast hp => ?_, fun _ _ _ _ hhead => head?_dropWhile hhead⟩
    have hrun := all_run rest hdot c (List.mem_of_getLast? hlast)
    rw [isDot_of_isDigit hp] at hrun
    cases hrun
  · rw [h]
    refine ⟨fun c hlast hp => ?_, fun c hlast hp => ?_⟩
    · rw [List.mem_singleton.1 (List.mem_of_getLast? hlast), hdigit] at hp
      cases hp
    · rw [List.mem_singleton.1 (List.mem_of_getLast? hlast), hdot] at hp
      cases hp

end Lexeme

/-! ## Reports -/

/-- The fault is that of the piece between two texts. -/
def LexicalFault.Offends (before text behind : List Char) : LexicalFault → Prop
  | unexpectedCharacter character => text = [character]
  | invalidRange lexeme =>
    lexeme = .ofList text ∧ WholeRun Lexeme.isDot before text behind
  | numberTooLarge lexeme =>
    lexeme = .ofList text ∧ WholeRun Char.isDigit before text behind

/-- What a pull gave is about the piece between two texts. -/
def Reports (before text behind : List Char) : Except LexicalError Token → Prop
  | .ok token =>
    token.isEof = false ∧ token.lexeme = .ofList text ∧ token.start = utf8Width before ∧
      token.stop = utf8Width (before ++ text) ∧ token.line = 1 + before.count '\n'
  | .error error =>
    error.fault.Offends before text behind ∧ error.position = utf8Width before ∧
      error.line = 1 + before.count '\n'

section Reports

variable {before : List Char} {first : Char} {rest : List Char}

theorem wholeRun_munch {p : Char → Bool} (hapart : Apart p before (first :: rest))
    (hfirst : p first = true) :
    WholeRun p before (first :: rest.takeWhile p) (rest.dropWhile p) := by
  refine ⟨Lexeme.all_run rest hfirst, fun c hlast => ?_, fun _ hhead => head?_dropWhile hhead⟩
  cases hc : p c with
  | false => rfl
  | true =>
    rw [hapart c hlast hc first rfl] at hfirst
    cases hfirst

/-- A lexeme that is no token is an overlong number, dots, or a strange character. -/
theorem offends_of_readSymbol {fault : LexicalFault}
    (hdigits : Apart Char.isDigit before (first :: rest))
    (hdots : Apart Lexeme.isDot before (first :: rest))
    (h : Lexeme.readSymbol first (Lexeme.munch first rest).1 (Lexeme.munch first rest).2 =
      .error fault) :
    fault.Offends before (Lexeme.munch first rest).1 (Lexeme.munch first rest).2 := by
  rcases Lexeme.munch_cases first rest with ⟨hdigit, hmunch⟩ | ⟨hdigit, hdot, hmunch⟩ |
    ⟨hdigit, hdot, hmunch⟩
  · rw [hmunch] at h ⊢
    simp only [Lexeme.readSymbol, hdigit, if_true, Lexeme.readNumber] at h
    split at h
    · cases h
    · cases h
      exact ⟨rfl, wholeRun_munch hdigits hdigit⟩
  · rw [hmunch] at h ⊢
    simp only [Lexeme.readSymbol, hdigit, hdot, Bool.false_eq_true, if_false, if_true,
      Lexeme.readRange] at h
    split at h
    · cases h
    · cases h
      exact ⟨rfl, wholeRun_munch hdots hdot⟩
  · rw [hmunch] at h ⊢
    simp only [Lexeme.readSymbol, hdigit, hdot, Bool.false_eq_true, if_false] at h
    split at h <;> cases h
    exact rfl

end Reports

/-! ## Pulls -/

/-- The cursor stands behind this text. -/
structure Located (before : List Char) (cursor : Cursor) : Prop where
  offset_eq : cursor.offset = utf8Width before
  line_eq : cursor.line = 1 + before.count '\n'
  digits : Apart Char.isDigit before cursor.rest
  dots : Apart Lexeme.isDot before cursor.rest

namespace Located

variable {before : List Char} {cursor : Cursor}

theorem ofString (source : String) : Located [] (Cursor.ofString source) :=
  ⟨rfl, rfl, nofun, nofun⟩

/-- Passing a text moves behind it. -/
theorem past (h : Located before cursor) (text : List Char) {rest : List Char}
    (hdigits : Apart Char.isDigit (before ++ text) rest)
    (hdots : Apart Lexeme.isDot (before ++ text) rest) :
    Located (before ++ text) (cursor.past text rest) where
  offset_eq := by rw [utf8Width_append, ← h.offset_eq]; rfl
  line_eq := by rw [List.count_append, ← Nat.add_assoc, ← h.line_eq]; rfl
  digits := hdigits
  dots := hdots

theorem skipBlanks (h : Located before cursor) :
    Located (before ++ cursor.rest.takeWhile isBlank) cursor.skipBlanks := by
  rw [Cursor.skipBlanks_eq]
  refine h.past _ (h.digits.skipBlanks fun c hblank => ?_) (h.dots.skipBlanks fun c hblank => ?_)
  · cases hdigit : c.isDigit with
    | false => rfl
    | true =>
      rw [isBlank_of_isDigit hdigit] at hblank
      cases hblank
  · cases hdot : Lexeme.isDot c with
    | false => rfl
    | true =>
      rw [of_decide_eq_true hdot, isBlank_of_visible (by decide) (by decide)] at hblank
      cases hblank

/-- What is read off the front is reported, and passed. -/
theorem readToken {first : Char} {rest : List Char} (h : Located before cursor)
    (hrest : cursor.rest = first :: rest) :
    Reports before (Lexeme.munch first rest).1 (cursor.readToken first rest).2.rest
        (cursor.readToken first rest).1 ∧
      Located (before ++ (Lexeme.munch first rest).1) (cursor.readToken first rest).2 ∧
      (cursor.readToken first rest).2.rest = (Lexeme.munch first rest).2 := by
  have hne := Lexeme.munch_fst_ne_nil first rest
  obtain ⟨hdigits, hdots⟩ := Lexeme.apart_munch first rest
  -- A lexeme is not empty, so only its own end decides which runs may go on behind it.
  have hpast : Located (before ++ (Lexeme.munch first rest).1)
      (cursor.past (Lexeme.munch first rest).1 (Lexeme.munch first rest).2) := by
    refine h.past _ ?_ ?_
    · rwa [Apart, getLast?_append_of_ne_nil hne]
    · rwa [Apart, getLast?_append_of_ne_nil hne]
  cases hread : cursor.readToken first rest with
  | mk result after =>
    have hresult := hread
    unfold Cursor.readToken at hread
    dsimp only at hread
    split at hread
    · cases hread
      exact ⟨⟨Cursor.readToken_not_isEof hresult, rfl, h.offset_eq, hpast.offset_eq, h.line_eq⟩,
        hpast, rfl⟩
    · rename_i hfault
      cases hread
      -- No run goes on from further in front, so one that is munched here is whole.
      have hwhole := offends_of_readSymbol (hrest ▸ h.digits) (hrest ▸ h.dots) hfault
      exact ⟨⟨hwhole, h.offset_eq, h.line_eq⟩, hpast, rfl⟩

/-- A pull comes to the end of the input behind nothing but blanks, or it reports
the next piece. -/
theorem next_cases (h : Located before cursor) :
    ((∀ c ∈ cursor.rest, isBlank c = true) ∧
      ∃ behind, cursor.next = (.ok (.atEnd (utf8Width (before ++ cursor.rest))
        (1 + (before ++ cursor.rest).count '\n')), behind)) ∨
    ∃ segment : Segment, segment.Clean ∧
      cursor.rest = segment.chars ++ cursor.next.2.rest ∧
      Reports (before ++ segment.blanks) segment.text cursor.next.2.rest cursor.next.1 ∧
      Located (before ++ segment.chars) cursor.next.2 := by
  have hskip := h.skipBlanks
  have hsplit : cursor.rest.takeWhile isBlank ++ cursor.skipBlanks.rest = cursor.rest := by
    rw [Cursor.skipBlanks_rest, List.takeWhile_append_dropWhile]
  have hblanks : ∀ c ∈ cursor.rest.takeWhile isBlank, isBlank c = true :=
    List.all_eq_true.1 List.all_takeWhile
  cases hrest : cursor.skipBlanks.rest with
  | nil =>
    left
    rw [hrest, List.append_nil] at hsplit
    have hnext := Cursor.next_of_skipBlanks_nil hrest
    rw [hskip.offset_eq, hskip.line_eq, hsplit] at hnext
    rw [hsplit] at hblanks
    exact ⟨hblanks, _, hnext⟩
  | cons first rest =>
    right
    have hsolid : isBlank first = false := by
      have hhead : first ∈ (cursor.rest.dropWhile isBlank).head? := by
        rw [← Cursor.skipBlanks_rest, hrest]
        rfl
      exact head?_dropWhile hhead
    obtain ⟨hreports, hlocated, hbehind⟩ := hskip.readToken hrest
    rw [Cursor.next_of_skipBlanks_cons hrest]
    refine ⟨⟨cursor.rest.takeWhile isBlank, (Lexeme.munch first rest).1⟩,
      ⟨hblanks, Lexeme.munch_fst_ne_nil first rest, fun c hmem =>
        Lexeme.isBlank_of_mem_munch rest hsolid hmem⟩, ?_, hreports, ?_⟩
    · rw [hbehind, Segment.chars, List.append_assoc, Lexeme.munch_append, ← hrest, hsplit]
    · rw [Segment.chars, ← List.append_assoc]
      exact hlocated

end Located

/-- From the place behind `before` on, pulls report these segments one after the
other, and then the end of the input forever. -/
structure Traverses (before : List Char) (cursor : Cursor) (segments : List Segment)
    (tail : List Char) : Prop where
  rest_eq : cursor.rest = segments.flatMap Segment.chars ++ tail
  clean : ∀ segment ∈ segments, segment.Clean
  tail_blank : ∀ c ∈ tail, isBlank c = true
  reports : ∀ front segment back, segments = front ++ segment :: back →
    Reports (before ++ front.flatMap Segment.chars ++ segment.blanks) segment.text
      (back.flatMap Segment.chars ++ tail) (cursor.pull front.length)
  atEnd : ∀ earlier, segments.length ≤ earlier → cursor.pull earlier =
    .ok (.atEnd (utf8Width (before ++ cursor.rest)) (1 + (before ++ cursor.rest).count '\n'))

theorem Located.exists_segments {before : List Char} {cursor : Cursor}
    (h : Located before cursor) : ∃ segments tail, Traverses before cursor segments tail := by
  rcases h.next_cases with ⟨hblank, behind, hnext⟩ |
    ⟨segment, hclean, hrest, hreports, hlocated⟩
  · refine ⟨[], cursor.rest, rfl, nofun, hblank, ?_, ?_⟩
    · intro front segment back hsplit
      cases front <;> cases hsplit
    · intro earlier _
      exact Cursor.pull_of_isEof hnext rfl earlier
  · obtain ⟨segments, tail, htraverses⟩ := hlocated.exists_segments
    refine ⟨segment :: segments, tail, ?_, ?_, htraverses.tail_blank, ?_, ?_⟩
    · rw [hrest, htraverses.rest_eq, List.flatMap_cons, List.append_assoc]
    · exact List.forall_mem_cons.2 ⟨hclean, htraverses.clean⟩
    · intro front segment' back hsplit
      cases front with
      | nil =>
        cases hsplit
        rw [htraverses.rest_eq] at hreports
        rw [List.flatMap_nil, List.append_nil]
        exact hreports
      | cons first front =>
        cases hsplit
        have hlater := htraverses.reports front segment' back rfl
        rw [List.length_cons, Cursor.pull_succ]
        simpa using hlater
    · intro earlier hmany
      cases earlier with
      | zero => cases hmany
      | succ earlier =>
        rw [Cursor.pull_succ, htraverses.atEnd earlier (Nat.le_of_succ_le_succ hmany), hrest,
          List.append_assoc]
termination_by cursor.rest.length
decreasing_by
  have htext := List.length_pos_iff.2 hclean.text_ne_nil
  rw [hrest, Segment.chars, List.length_append, List.length_append]
  omega

/-- The lexemes of a source without lexical errors are its characters that are no
blanks. -/
theorem flatMap_lexeme_scan {before : List Char} {cursor : Cursor} (h : Located before cursor)
    (hfault : cursor.scan.fault? = none) :
    cursor.scan.tokens.flatMap (fun token => token.lexeme.toList) =
      cursor.rest.filter fun c => !isBlank c := by
  fun_induction Cursor.scan cursor generalizing before with
  | case1 => cases hfault
  | case2 cursor token after hnext hend =>
    rcases h.next_cases with ⟨hblank, -⟩ | ⟨segment, -, -, hreports, -⟩
    · symm
      rw [List.flatMap_nil, List.filter_eq_nil_iff]
      intro c hmem
      simp [hblank c hmem]
    · rw [hnext] at hreports
      rw [hreports.1] at hend
      cases hend
  | case3 cursor token after hnext hend ih =>
    rcases h.next_cases with ⟨-, behind, hatEnd⟩ | ⟨segment, hclean, hrest, hreports, hlocated⟩
    · rw [hnext] at hatEnd
      cases hatEnd
      exact absurd rfl hend
    · rw [hnext] at hrest hreports hlocated
      have hblanks : segment.blanks.filter (fun c => !isBlank c) = [] := by
        rw [List.filter_eq_nil_iff]
        intro c hmem
        simp [hclean.blanks c hmem]
      have htext : segment.text.filter (fun c => !isBlank c) = segment.text := by
        rw [List.filter_eq_self]
        intro c hmem
        simp [hclean.text c hmem]
      show token.lexeme.toList ++ after.scan.tokens.flatMap _ = _
      rw [ih hlocated hfault, hrest, Segment.chars, List.filter_append, List.filter_append,
        hblanks, htext, hreports.2.1, String.toList_ofList]
      rfl

/-- Pulling splits a source into pieces with blanks between them. The pieces are
not empty and have no blanks in them. Each pull reports the next piece, as a token
or as an error, with its exact text, its byte offset and its line. Behind the last
piece all pulls give the same end of the input, which is empty, at the end of the source and
on its last line. Where there are no errors, the lexemes are the source without its blanks. -/
theorem pull_partitions_source (source : String) :
    ∃ (segments : List Segment) (tail : List Char),
      source.toList = segments.flatMap Segment.chars ++ tail ∧
      (∀ segment ∈ segments, segment.Clean) ∧
      (∀ c ∈ tail, isBlank c = true) ∧
      (∀ front segment back, segments = front ++ segment :: back →
        Reports (front.flatMap Segment.chars ++ segment.blanks) segment.text
          (back.flatMap Segment.chars ++ tail)
          ((Cursor.ofString source).pull front.length)) ∧
      (∀ earlier, segments.length ≤ earlier → (Cursor.ofString source).pull earlier = .ok {
        symbol := .eof
        lexeme := ""
        start := source.utf8ByteSize
        stop := source.utf8ByteSize
        line := 1 + source.toList.count '\n' }) ∧
      ∀ tokens, tokenize source = .ok tokens →
        String.join (tokens.map Token.lexeme) =
          .ofList (source.toList.filter fun c => !isBlank c) := by
  have hlocated := Located.ofString source
  obtain ⟨segments, tail, htraverses⟩ := hlocated.exists_segments
  refine ⟨segments, tail, htraverses.rest_eq, htraverses.clean, htraverses.tail_blank,
    htraverses.reports, ?_, ?_⟩
  · intro earlier hmany
    rw [htraverses.atEnd earlier hmany, List.nil_append]
    show Except.ok (Token.atEnd (utf8Width source.toList) _) = _
    rw [utf8Width_toList]
    rfl
  · intro tokens htokens
    have hscan := tokenize_eq_ok_iff.1 htokens
    have hlexemes := flatMap_lexeme_scan hlocated (by rw [hscan])
    rw [hscan] at hlexemes
    rw [← String.toList_inj, String.toList_join, String.toList_ofList, List.flatMap_map]
    exact hlexemes

end ArrayLiteral
