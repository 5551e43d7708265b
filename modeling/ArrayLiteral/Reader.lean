import ArrayLiteral.Cursor
import ArrayLiteral.Error
import ArrayLiteral.Limits

/-!
# Readers

A reader is a cursor with the token in front of it, the lookahead.  It keeps
count of the aggregates that are open, and a record of the tokens consumed.  The
steps that a reader can make are in `Reading`.  `Reader.remaining` measures what
is still to be read.
-/

namespace ArrayLiteral

structure Reader where
  /-- The place behind the lookahead. -/
  cursor : Cursor
  /-- The token to be consumed next. -/
  lookahead : Token
  /-- The tokens consumed so far, the last one first. -/
  consumed : List Token
  limits : Limits
  /-- The number of aggregates that were entered and not left. -/
  depth : Nat

namespace Reader

/-- Pulls the first token of a source. -/
def ofString (source : String) (limits : Limits) : Except Error Reader :=
  match (Cursor.ofString source).next with
  | (.ok lookahead, cursor) => .ok { cursor, lookahead, consumed := [], limits, depth := 0 }
  | (.error error, _) => .error (.lexical error)

/-- The characters behind the lookahead, and one for the lookahead itself. -/
def remaining (reader : Reader) : Nat :=
  reader.cursor.rest.length + if reader.lookahead.isEof then 0 else 1

end Reader

end ArrayLiteral
