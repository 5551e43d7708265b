import ArrayLiteral.Text.Quoted

/-!
# Lexical errors

A lexical error says which piece of the source is no token, and where it is.
-/

namespace ArrayLiteral

/-- Why a piece of the source is no token. -/
inductive LexicalFault
  /-- The character starts no token. -/
  | unexpectedCharacter (character : Char)
  /-- A run of dots is longer or shorter than three. -/
  | invalidRange (lexeme : String)
  /-- The value of a run of digits is no 64-bit word. -/
  | numberTooLarge (lexeme : String)
  deriving DecidableEq

structure LexicalError where
  fault : LexicalFault
  /-- Byte offset at which the offending piece starts. -/
  position : Nat
  /-- Line on which it starts, counted from 1. -/
  line : Nat
  deriving DecidableEq

def LexicalFault.describe : LexicalFault → String
  | unexpectedCharacter character =>
    "Unexpected character: " ++ Text.quotedChar character ++ "."
  | invalidRange lexeme =>
    "Invalid range symbol " ++ Text.quotedString lexeme ++ ", expected '...'."
  | numberTooLarge lexeme =>
    "Number " ++ lexeme ++ " is too large."

/-- The offending piece of the source. -/
def LexicalFault.lexeme : LexicalFault → String
  | unexpectedCharacter character => String.singleton character
  | invalidRange lexeme => lexeme
  | numberTooLarge lexeme => lexeme

def LexicalError.message (error : LexicalError) : String :=
  s!"Error on line {error.line} at offset {error.position}: " ++ error.fault.describe

end ArrayLiteral
