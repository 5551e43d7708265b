import ArrayLiteral.LexicalError
import ArrayLiteral.Skipped
import ArrayLiteral.Token

/-!
# Lexemes

`munch` cuts the longest lexeme off the front of a text: a run of digits, a run
of dots, or any other character alone.  `readSymbol` says which symbol a lexeme
is, or why it is none.  What follows a lexeme matters for a comma only:
`closesAggregate` looks past the skipped text for the brace that makes a comma the
trailing one.
-/

namespace ArrayLiteral.Lexeme

def isDot (c : Char) : Bool :=
  c = '.'

/-- The lexeme that starts with `first`, and the text behind it. -/
def munch (first : Char) (rest : List Char) : List Char × List Char :=
  if first.isDigit then
    (first :: rest.takeWhile Char.isDigit, rest.dropWhile Char.isDigit)
  else if isDot first then
    (first :: rest.takeWhile isDot, rest.dropWhile isDot)
  else
    ([first], rest)

/-- Whether the next lexeme closes an aggregate. -/
def closesAggregate (rest : List Char) : Bool :=
  (Skipped.ofText rest).behind.head? = some '}'

/-- A run of digits as a number in base ten. -/
def readNumber (digits : List Char) : Except LexicalFault Symbol :=
  let value := Nat.ofDigitChars 10 digits 0
  if value < UInt64.size then .ok (.number (.ofNat value))
  else .error (.numberTooLarge (.ofList digits))

def readRange (dots : List Char) : Except LexicalFault Symbol :=
  if dots.length = 3 then .ok (.mark .range) else .error (.invalidRange (.ofList dots))

/-- The symbol of a lexeme that starts with `first` and stands before `rest`. -/
def readSymbol (first : Char) (lexeme rest : List Char) : Except LexicalFault Symbol :=
  if first.isDigit then readNumber lexeme
  else if isDot first then readRange lexeme
  else
    match first with
    | '=' => .ok (.mark .equal)
    | ',' => .ok (.mark (if closesAggregate rest then .endComma else .comma))
    | '[' => .ok (.mark .leftSquare)
    | ']' => .ok (.mark .rightSquare)
    | '{' => .ok (.mark .leftCurly)
    | '}' => .ok (.mark .rightCurly)
    | other => .error (.unexpectedCharacter other)

theorem closesAggregate_eq (rest : List Char) :
    closesAggregate rest = decide ((rest.dropWhile Text.isBlank).head? = some '}') := by
  rw [closesAggregate, Skipped.ofText_eq]

/-! ## Nothing is lost -/

theorem munch_append (first : Char) (rest : List Char) :
    (munch first rest).1 ++ (munch first rest).2 = first :: rest := by
  unfold munch
  split
  · simp
  · split <;> simp

theorem munch_snd_length (first : Char) (rest : List Char) :
    (munch first rest).2.length ≤ rest.length := by
  unfold munch
  split
  · exact (List.dropWhile_suffix _).length_le
  · split
    · exact (List.dropWhile_suffix _).length_le
    · exact Nat.le_refl _

/-- No character is read as the end of the input. -/
theorem readSymbol_ne_eof (first : Char) (lexeme rest : List Char) :
    readSymbol first lexeme rest ≠ .ok .eof := by
  unfold readSymbol readNumber readRange
  split
  · dsimp only
    split <;> simp
  · split
    · split <;> simp
    · split <;> simp

end ArrayLiteral.Lexeme
