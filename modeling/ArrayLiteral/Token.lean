/-!
# Tokens

A token is a symbol together with its lexeme, the text it was read from, and
the place of that text in the source.  A `Kind` is what a symbol is apart from
a number's value.  Diagnostics and token dumps name kinds in capitals.
-/

namespace ArrayLiteral

/-- The marks of the language.  A comma directly before a closing brace is the
trailing comma of an aggregate, `endComma`. -/
inductive Punctuation
  | leftSquare
  | rightSquare
  | equal
  | range
  | comma
  | endComma
  | leftCurly
  | rightCurly
  deriving DecidableEq

inductive Kind
  | number
  | mark (punctuation : Punctuation)
  | eof
  deriving DecidableEq

/-- What a token is: a kind, and for a number its value. -/
inductive Symbol
  | number (value : UInt64)
  | mark (punctuation : Punctuation)
  | eof
  deriving DecidableEq

structure Token where
  symbol : Symbol
  /-- The source text of the token, empty at the end of the input. -/
  lexeme : String
  /-- Byte offset of the first character of the lexeme. -/
  start : Nat
  /-- Byte offset behind the last character of the lexeme. -/
  stop : Nat
  /-- Line on which the token starts, counted from 1. -/
  line : Nat
  deriving DecidableEq

namespace Punctuation

def name : Punctuation → String
  | leftSquare => "LSQUARE"
  | rightSquare => "RSQUARE"
  | equal => "EQUAL"
  | range => "RANGE"
  | comma => "COMMA"
  | endComma => "ENDCOMMA"
  | leftCurly => "LCURLY"
  | rightCurly => "RCURLY"

end Punctuation

namespace Kind

def name : Kind → String
  | number => "NUMBER"
  | mark punctuation => punctuation.name
  | eof => "EOF"

def all : List Kind :=
  [number, mark .leftSquare, mark .rightSquare, mark .equal, mark .range, mark .comma,
    mark .endComma, mark .leftCurly, mark .rightCurly, eof]

theorem mem_all (kind : Kind) : kind ∈ all := by
  rcases kind with _ | punctuation | _
  · decide
  · cases punctuation <;> decide
  · decide

/-- The kind of that name. -/
def ofName? (text : String) : Option Kind :=
  all.find? fun kind => kind.name == text

end Kind

def Symbol.kind : Symbol → Kind
  | number _ => .number
  | mark punctuation => .mark punctuation
  | eof => .eof

namespace Token

/-- The end of the input, at a byte offset. -/
def atEnd (offset line : Nat) : Token :=
  { symbol := .eof, lexeme := "", start := offset, stop := offset, line }

def kind (token : Token) : Kind :=
  token.symbol.kind

def isEof (token : Token) : Bool :=
  token.kind = .eof

/-- The kind with the lexeme in parentheses. -/
def text (token : Token) : String :=
  if token.isEof then token.kind.name else token.kind.name ++ "(" ++ token.lexeme ++ ")"

@[simp] theorem isEof_atEnd (offset line : Nat) : (atEnd offset line).isEof = true := rfl

theorem isEof_iff {token : Token} : token.isEof = true ↔ token.symbol = .eof := by
  cases token with
  | mk symbol => cases symbol <;> simp [isEof, kind, Symbol.kind]

theorem isEof_eq_false_iff {token : Token} : token.isEof = false ↔ token.symbol ≠ .eof := by
  rw [Bool.eq_false_iff, ne_eq, isEof_iff]

theorem isEof_of_symbol {token : Token} {symbol : Symbol} (h : token.symbol = symbol)
    (hmore : symbol ≠ .eof) : token.isEof = false :=
  isEof_eq_false_iff.2 (h ▸ hmore)

end Token

end ArrayLiteral
