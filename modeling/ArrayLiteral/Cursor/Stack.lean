import ArrayLiteral.Cursor

/-!
# Stacks of cursors

A cursor is a value, so a copy of it reads the source independently.  A stack
of cursors keeps the copies in use: the top one reads, `fork` copies it, and
`drop?` gives it up for the one below.
-/

namespace ArrayLiteral

/-- At least one cursor. -/
structure CursorStack where
  top : Cursor
  below : List Cursor

namespace CursorStack

/-- One cursor at the start of a source. -/
def ofString (source : String) : CursorStack :=
  { top := .ofString source, below := [] }

def size (stack : CursorStack) : Nat :=
  stack.below.length + 1

def next (stack : CursorStack) : Except LexicalError Token × CursorStack :=
  let (result, top) := stack.top.next
  (result, { stack with top })

def next? (stack : CursorStack) : Option (Except LexicalError Token) × CursorStack :=
  let (result, top) := stack.top.next?
  (result, { stack with top })

/-- Puts a copy of the top cursor on the stack. -/
def fork (stack : CursorStack) : CursorStack :=
  { stack with below := stack.top :: stack.below }

/-- Takes the top cursor off, unless it is the last one. -/
def drop? (stack : CursorStack) : Option CursorStack :=
  match stack.below with
  | [] => none
  | top :: below => some { top, below }

@[simp] theorem size_fork (stack : CursorStack) : stack.fork.size = stack.size + 1 := rfl

/-- Dropping a fresh copy changes nothing. -/
theorem drop?_fork (stack : CursorStack) : stack.fork.drop? = some stack := rfl

end CursorStack

end ArrayLiteral
