import ArrayLiteral.Designator
import ArrayLiteral.Reading

/-!
# Reading designators

    target     := designator "=" | ε
    designator := "[" NUMBER ( "..." NUMBER )? "]"

An index is checked against the limit after its token is consumed.
-/

namespace ArrayLiteral.Parsing

open Reading

/-- Reads a number as an index. -/
def readIndex : Reading UInt64 := do
  match (← lookahead).symbol with
  | .number value =>
    let limit := (← get).limits.maxArrayLen
    let token ← consume
    match index? value limit with
    | some index => return index
    | none => reject token (.indexTooLarge limit)
  | _ => expected "NUMBER"

/-- Reads the indices in square brackets. -/
def readDesignator : Reading Designator := do
  let _ ← require (.mark .leftSquare)
  let start ← readIndex
  match (← lookahead).symbol with
  | .mark .range =>
    let _ ← consume
    let stop ← readIndex
    let _ ← require (.mark .rightSquare)
    return .range start stop
  | .mark .rightSquare =>
    let _ ← require (.mark .rightSquare)
    return .single start
  | _ => expected "RANGE or RSQUARE"

/-- Reads what stands before the value of an initializer. -/
def readTarget : Reading (Option Designator) := do
  if ← isAt (.mark .leftSquare) then
    let designator ← readDesignator
    let _ ← require (.mark .equal)
    return some designator
  else
    return none

end ArrayLiteral.Parsing
