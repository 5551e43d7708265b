import ArrayLiteral.LexicalError
import ArrayLiteral.Token

/-!
# Errors

Reading a literal fails because a piece of the source is no token, or because a
token does not fit the grammar or the limits.  Errors are causes.  The wording
of all of them is in `LexicalError.message`, `GrammarError.message` and
`Error.message`.
-/

namespace ArrayLiteral

/-- Why a token does not fit. -/
inductive GrammarFault
  /-- The grammar allows only what `expected` describes. -/
  | unexpectedToken (expected : String)
  /-- An initializer follows another one without a comma between them. -/
  | missingSeparator
  /-- The token stands behind a complete value. -/
  | trailingInput
  /-- The number is not below the limit on indices. -/
  | indexTooLarge (limit : UInt64)
  /-- The brace would open more aggregates than the limit allows. -/
  | nestingTooDeep (limit : UInt64)
  /-- The initializer that starts here writes more cells than the limit allows. -/
  | arrayTooLarge (limit : UInt64)
  deriving DecidableEq

structure GrammarError where
  /-- The token that does not fit. -/
  found : Token
  fault : GrammarFault
  deriving DecidableEq

inductive Error
  | lexical (error : LexicalError)
  | grammar (error : GrammarError)
  deriving DecidableEq

def GrammarFault.describe (found : Token) : GrammarFault → String
  | unexpectedToken expected => s!"Expected {expected}, found {found.text}."
  | missingSeparator =>
    s!"Expected ',' or '\x7d' between initializers, found {found.text}."
  | trailingInput => s!"Expected EOF after the initializer, found {found.text}."
  | indexTooLarge limit =>
    s!"Index {found.lexeme} exceeds the maximum array length {limit.toNat}."
  | nestingTooDeep limit => s!"Initializers nest deeper than {limit.toNat} levels."
  | arrayTooLarge limit =>
    s!"Initializer starting at {found.text} writes more than {limit.toNat} elements."

/-- The limit that was crossed, if the fault is a crossed limit. -/
def GrammarFault.limit? : GrammarFault → Option UInt64
  | indexTooLarge limit => some limit
  | nestingTooDeep limit => some limit
  | arrayTooLarge limit => some limit
  | _ => none

def GrammarError.message (error : GrammarError) : String :=
  s!"Error on line {error.found.line}: " ++ error.fault.describe error.found

namespace Error

/-- The message without the part of the reader that raised the error. -/
def cause : Error → String
  | lexical error => error.message
  | grammar error => error.message

def message : Error → String
  | lexical error => "[lexer] " ++ error.message
  | grammar error => "[parser] " ++ error.message

end Error

end ArrayLiteral
