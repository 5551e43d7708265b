import ArrayLiteral.Lexeme

/-!
# Cursor over a source

A cursor is a place in a source, and `Cursor.next` pulls one token from there.
A failing pull moves behind the offending lexeme, so that pulling again goes on
after it.  At the end of the input every pull gives the same `eof` token.

`Cursor.tokens` pulls up to the end or to the first error.  The lemmas say that
a pull never goes back, and that it moves on unless the input is at its end.
-/

namespace ArrayLiteral

/-- A place in a source. -/
structure Cursor where
  /-- The text that is still to be read. -/
  rest : List Char
  /-- Byte offset of that text. -/
  offset : Nat
  /-- One more than the number of line breaks passed. -/
  line : Nat

namespace Cursor

/-- The start of a source. -/
def ofString (source : String) : Cursor :=
  { rest := source.toList, offset := 0, line := 1 }

/-- The place behind `text`, where `rest` is left. -/
def past (cursor : Cursor) (text rest : List Char) : Cursor :=
  { rest
    offset := cursor.offset + Text.utf8Width text
    line := cursor.line + text.count '\n' }

/-- The place of the next lexeme. -/
def skipBlanks (cursor : Cursor) : Cursor :=
  let skipped := Skipped.ofText cursor.rest
  { rest := skipped.behind
    offset := cursor.offset + skipped.width
    line := cursor.line + skipped.lines }

/-- The lexeme that starts with `first` as a token, and the place behind it. -/
def readToken (cursor : Cursor) (first : Char) (rest : List Char) :
    Except LexicalError Token × Cursor :=
  let (lexeme, behind) := Lexeme.munch first rest
  let after := cursor.past lexeme behind
  match Lexeme.readSymbol first lexeme behind with
  | .ok symbol =>
    (.ok
      { symbol
        lexeme := .ofList lexeme
        start := cursor.offset
        stop := after.offset
        line := cursor.line },
      after)
  | .error fault => (.error { fault, position := cursor.offset, line := cursor.line }, after)

/-- Skips blanks and reads one token. -/
def next (cursor : Cursor) : Except LexicalError Token × Cursor :=
  let here := cursor.skipBlanks
  match here.rest with
  | [] => (.ok (.atEnd here.offset here.line), here)
  | first :: rest => here.readToken first rest

/-- As `next`, with nothing in place of the end of the input. -/
def next? (cursor : Cursor) : Option (Except LexicalError Token) × Cursor :=
  match cursor.next with
  | (.ok token, after) => (if token.isEof then none else some (.ok token), after)
  | (.error error, after) => (some (.error error), after)

/-- The skipped text is the run of blanks at the cursor. -/
theorem skipBlanks_eq (cursor : Cursor) :
    cursor.skipBlanks =
      cursor.past (cursor.rest.takeWhile Text.isBlank) (cursor.rest.dropWhile Text.isBlank) := by
  rw [skipBlanks, Skipped.ofText_eq, past]

theorem skipBlanks_rest (cursor : Cursor) :
    cursor.skipBlanks.rest = cursor.rest.dropWhile Text.isBlank :=
  congrArg Cursor.rest cursor.skipBlanks_eq

/-- Nothing is skipped in front of a character that is no blank. -/
theorem skipBlanks_rest_of_cons {cursor : Cursor} {first : Char} {rest : List Char}
    (hrest : cursor.rest = first :: rest) (hfirst : Text.isBlank first = false) :
    cursor.skipBlanks.rest = first :: rest := by
  rw [skipBlanks_rest, hrest, List.dropWhile_cons, if_neg (by simp [hfirst])]

theorem offset_le_skipBlanks (cursor : Cursor) : cursor.offset ≤ cursor.skipBlanks.offset :=
  Nat.le_add_right _ _

theorem next_of_skipBlanks_nil {cursor : Cursor} (h : cursor.skipBlanks.rest = []) :
    cursor.next =
      (.ok (.atEnd cursor.skipBlanks.offset cursor.skipBlanks.line), cursor.skipBlanks) := by
  unfold next
  dsimp only
  rw [h]

theorem next_of_skipBlanks_cons {cursor : Cursor} {first : Char} {rest : List Char}
    (h : cursor.skipBlanks.rest = first :: rest) :
    cursor.next = cursor.skipBlanks.readToken first rest := by
  unfold next
  dsimp only
  rw [h]

/-! ## Progress -/

theorem skipBlanks_length (cursor : Cursor) :
    cursor.skipBlanks.rest.length ≤ cursor.rest.length := by
  rw [skipBlanks_rest]
  exact (List.dropWhile_suffix _).length_le

theorem readToken_length (cursor : Cursor) (first : Char) (rest : List Char) :
    (cursor.readToken first rest).2.rest.length ≤ rest.length := by
  unfold readToken
  dsimp only
  split <;> exact Lexeme.munch_snd_length first rest

theorem readToken_not_isEof {cursor after : Cursor} {first : Char} {rest : List Char}
    {token : Token} (h : cursor.readToken first rest = (.ok token, after)) :
    token.isEof = false := by
  rw [Bool.eq_false_iff, ne_eq, Token.isEof_iff]
  intro heof
  unfold readToken at h
  dsimp only at h
  split at h <;> rename_i hsymbol
  · injection h with h _
    injection h with h
    subst h
    simp only at heof
    exact Lexeme.readSymbol_ne_eof _ _ _ (heof ▸ hsymbol)
  · injection h with h _
    cases h

/-- A pull never goes back. -/
theorem next_length_le (cursor : Cursor) : cursor.next.2.rest.length ≤ cursor.rest.length := by
  have hskip := cursor.skipBlanks_length
  unfold next
  dsimp only
  split
  · exact hskip
  · rename_i first rest hrest
    have hread := cursor.skipBlanks.readToken_length first rest
    rw [hrest, List.length_cons] at hskip
    omega

/-- A pull that gives a token or an error moves on. -/
theorem next_length_lt {cursor after : Cursor} {result : Except LexicalError Token}
    (h : cursor.next = (result, after)) (hend : ∀ token, result = .ok token → token.isEof = false) :
    after.rest.length < cursor.rest.length := by
  have hskip := cursor.skipBlanks_length
  unfold next at h
  dsimp only at h
  split at h
  · injection h with hresult _
    have := hend _ hresult.symm
    simp at this
  · rename_i first rest hrest
    have hread := cursor.skipBlanks.readToken_length first rest
    rw [h] at hread
    rw [hrest, List.length_cons] at hskip
    dsimp only at hread
    omega

/-! ## Token lists -/

/-- The tokens up to the end of the input, behind those `found` already. -/
def tokensOnto (cursor : Cursor) (found : Array Token) : Except LexicalError (Array Token) :=
  match _ : cursor.next with
  | (.error error, _) => .error error
  | (.ok token, after) =>
    if _ : token.isEof then .ok found else after.tokensOnto (found.push token)
termination_by cursor.rest.length
decreasing_by
  rename_i hnext hend
  refine next_length_lt hnext fun _ htoken => ?_
  injection htoken with htoken
  rw [← htoken]
  simpa using hend

/-- The tokens up to the end of the input, which is left out, or the first error. -/
def tokens (cursor : Cursor) : Except LexicalError (List Token) :=
  (cursor.tokensOnto #[]).map Array.toList

end Cursor

/-- Splits a source into its tokens. -/
def tokenize (source : String) : Except LexicalError (List Token) :=
  (Cursor.ofString source).tokens

end ArrayLiteral
