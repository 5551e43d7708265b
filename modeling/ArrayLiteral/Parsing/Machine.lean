import ArrayLiteral.Builder
import ArrayLiteral.Parsing.Target

/-!
# Parsing machine

    val          := NUMBER | "{" initializers "}"
    initializers := initializer ("," initializer)* ","? | ε
    initializer  := target val

The parser is a machine with a stack.  A `Frame` is an open aggregate together
with the initializer whose value is being read.  `step` does what `Control` says
comes next.  Values are handed to a builder as soon as they are complete, inner
ones first, and after the token behind the value was pulled.
-/

namespace ArrayLiteral.Parsing

open Reading

/-- An open aggregate around the value that is being read. -/
structure Frame (γ : Type) where
  /-- The aggregate without the initializer that is being read. -/
  aggregate : γ
  /-- The first token of that initializer. -/
  first : Token
  designator? : Option Designator

/-- What comes next. -/
inductive Control (α γ : Type)
  /-- A value is to be read. -/
  | value
  /-- A value is complete. -/
  | complete (value : α)
  /-- An initializer was added to this aggregate. -/
  | between (aggregate : γ)

structure Config (α γ : Type) where
  control : Control α γ
  /-- The aggregates around it, innermost first. -/
  enclosing : List (Frame γ)

/-- What a step leads to. -/
inductive Progress (σ α γ : Type)
  | next (state : σ) (config : Config α γ)
  | finished (value : α)
  /-- The builder has refused an initializer. -/
  | refused (state : σ) (error : Error)

/-- The initializer with this value. -/
def Frame.item {α γ : Type} (frame : Frame γ) (value : α) : Initializer α :=
  { designator? := frame.designator?, value }

/-- A refusal is reported with the first token of the initializer. -/
def Frame.refused {γ : Type} (frame : Frame γ) (refusal : Refusal) : Error :=
  .grammar { found := frame.first, fault := .arrayTooLarge refusal.limit }

section Steps

variable {σ α γ : Type} (builder : Builder σ α γ)

/-- Reads up to the value of the next initializer. -/
def startInitializer (aggregate : γ) (enclosing : List (Frame γ)) : Reading (Config α γ) := do
  let first ← lookahead
  let designator? ← readTarget
  return { control := .value, enclosing := { aggregate, first, designator? } :: enclosing }

/-- Reads the closing brace. -/
def closeAggregate (aggregate : γ) (enclosing : List (Frame γ)) : Reading (Config α γ) := do
  let _ ← require (.mark .rightCurly)
  leaveAggregate
  return { control := .complete (builder.closed aggregate), enclosing }

/-- Reads a number, or an opening brace with what follows it up to the first
value or to the closing brace. -/
def startValue (enclosing : List (Frame γ)) : Reading (Config α γ) := do
  match (← lookahead).symbol with
  | .number value =>
    let _ ← consume
    return { control := .complete (builder.number value), enclosing }
  | .mark .leftCurly =>
    enterAggregate
    let _ ← require (.mark .leftCurly)
    if ← isAt (.mark .rightCurly) then
      closeAggregate builder builder.opened enclosing
    else
      startInitializer builder.opened enclosing
  | _ => expected "NUMBER or LCURLY"

/-- Reads what follows an initializer: a comma and what it leads to, or the
closing brace. -/
def continueAggregate (aggregate : γ) (enclosing : List (Frame γ)) : Reading (Config α γ) := do
  let token ← lookahead
  match token.symbol with
  | .mark .comma =>
    let _ ← consume
    startInitializer aggregate enclosing
  | .mark .endComma =>
    let _ ← consume
    closeAggregate builder aggregate enclosing
  | .mark .rightCurly => closeAggregate builder aggregate enclosing
  | .number _ => reject token .missingSeparator
  | .mark .leftCurly => reject token .missingSeparator
  | .mark .leftSquare => reject token .missingSeparator
  | _ => expected "COMMA, ENDCOMMA or RCURLY"

/-- Hands a complete value to the builder. -/
def addInitializer (state : σ) (frame : Frame γ) (enclosing : List (Frame γ)) (value : α) :
    Progress σ α γ :=
  match builder.add (frame.item value) (state, frame.aggregate) with
  | .ok () (state, aggregate) => .next state ⟨.between aggregate, enclosing⟩
  | .error refusal (state, _) => .refused state (frame.refused refusal)

/-- Does what comes next. A step reads a token or hands a value over. -/
def step (state : σ) (config : Config α γ) : Reading (Progress σ α γ) :=
  match config with
  | ⟨.value, enclosing⟩ => .next state <$> startValue builder enclosing
  | ⟨.between aggregate, enclosing⟩ => .next state <$> continueAggregate builder aggregate enclosing
  | ⟨.complete value, []⟩ => pure (.finished value)
  | ⟨.complete value, frame :: enclosing⟩ =>
    pure (addInitializer builder state frame enclosing value)

end Steps

end ArrayLiteral.Parsing
