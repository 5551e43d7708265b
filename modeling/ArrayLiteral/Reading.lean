import ArrayLiteral.Reader

/-!
# Steps of a reader

A `Reading` is a step of a reader.  If it fails, the place where it stopped is
kept.

Consuming the lookahead first pulls the token behind it.  So a lexical error
there wins over anything that is wrong with the token being consumed, and the
lookahead then stays where it is while the offending text is passed over.
-/

namespace ArrayLiteral

abbrev Reading := EStateM Error Reader

namespace Reading

/-- Fails because a token does not fit. -/
def reject {α : Type} (found : Token) (fault : GrammarFault) : Reading α :=
  throw (.grammar { found, fault })

/-- The token to be consumed next. -/
def lookahead : Reading Token := do
  return (← get).lookahead

/-- Whether the lookahead is of that kind. -/
def isAt (kind : Kind) : Reading Bool := do
  return (← lookahead).kind = kind

/-- Consumes the lookahead. -/
def consume : Reading Token := fun reader =>
  match reader.cursor.next with
  | (.ok lookahead, cursor) =>
    let consumed := reader.lookahead :: reader.consumed
    .ok reader.lookahead { reader with cursor, lookahead, consumed }
  | (.error error, cursor) => .error (.lexical error) { reader with cursor }

/-- Fails because the lookahead is not what was expected. -/
def expected {α : Type} (description : String) : Reading α := do
  reject (← lookahead) (.unexpectedToken description)

/-- Consumes the lookahead, which has to be of that kind. -/
def require (kind : Kind) : Reading Token := do
  if ← isAt kind then consume else expected kind.name

/-- Counts an aggregate that is about to be opened. -/
def enterAggregate : Reading Unit := do
  let reader ← get
  if reader.limits.maxDepth.toNat ≤ reader.depth then
    reject reader.lookahead (.nestingTooDeep reader.limits.maxDepth)
  else
    set { reader with depth := reader.depth + 1 }

/-- Counts an aggregate as closed. Where none is open nothing changes. -/
def leaveAggregate : Reading Unit :=
  modify fun reader => { reader with depth := reader.depth - 1 }

end Reading

end ArrayLiteral
