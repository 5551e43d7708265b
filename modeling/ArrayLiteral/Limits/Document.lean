import ArrayLiteral.Json.Scan
import ArrayLiteral.Limits

/-!
# Limits from a JSON document

A document gives the limits as an object with the fields `max_array_len` and
`max_depth`, or as a list of the two in this order.  What is missing keeps its
default.  Unknown fields are passed over, a known field may not be repeated, and
a limit is a 64-bit word written as a natural number.  Of several faults the
first in reading order counts.
-/

namespace ArrayLiteral.Limits

open Json Json.Scan

/-- A limit that a document may give. -/
inductive Field
  | maxArrayLen
  | maxDepth
  deriving DecidableEq

def Field.ofName? : String → Option Field
  | "max_array_len" => some maxArrayLen
  | "max_depth" => some maxDepth
  | _ => none

/-- The limits given so far. -/
structure Given where
  maxArrayLen? : Option UInt64 := none
  maxDepth? : Option UInt64 := none

namespace Given

def has (given : Given) : Field → Bool
  | .maxArrayLen => given.maxArrayLen?.isSome
  | .maxDepth => given.maxDepth?.isSome

def set (given : Given) (field : Field) (limit : UInt64) : Given :=
  match field with
  | .maxArrayLen => { given with maxArrayLen? := some limit }
  | .maxDepth => { given with maxDepth? := some limit }

/-- The limits given, and the defaults for the others. -/
def toLimits (given : Given) : Limits :=
  let defaults : Limits := {}
  { maxArrayLen := given.maxArrayLen?.getD defaults.maxArrayLen
    maxDepth := given.maxDepth?.getD defaults.maxDepth }

end Given

/-- Reads the number that starts with `first`, whatever it is. -/
def numeralInRange (first : Char) : Scan Numeral := do
  let numeral ← numeral first
  if numeral.overflows then fail .malformed else return numeral

/-- Refuses a value that starts with `first`. It is read before it is refused,
unless it is a list or an object. -/
def refuse {α : Type} (first : Char) : Scan α := do
  match first with
  | '[' => fail .mistyped
  | '{' => fail .mistyped
  | '"' =>
    let _ ← string
    fail .mistyped
  | _ =>
    if first = '-' ∨ first.isDigit then
      let _ ← numeralInRange first
    else
      skipScalar first
    fail .mistyped

/-- Reads a limit. -/
def limit : Scan UInt64 := do
  let first ← nextBehindBlanks
  if first = '-' ∨ first.isDigit then
    match (← numeralInRange first).word? with
    | some limit => return limit
    | none => fail .mistyped
  else
    refuse first

/-- Reads a comma and what follows it, or the closing bracket of a list. -/
def listContinues : Scan Bool := do
  match ← nextBehindBlanks with
  | ']' => return false
  | ',' => if (← peekBehindBlanks?) = some ']' then fail .malformed else return true
  | _ => fail .malformed

/-- Reads a list from behind its opening bracket. -/
def list : Scan Given := do
  if (← peekBehindBlanks?) = some ']' then
    let _ ← next
    return {}
  else
    let maxArrayLen ← limit
    if ← listContinues then
      let maxDepth ← limit
      if (← nextBehindBlanks) = ']' then
        return { maxArrayLen? := some maxArrayLen, maxDepth? := some maxDepth }
      else
        fail .malformed
    else
      return { maxArrayLen? := some maxArrayLen }

/-- Reads a field from behind the opening quote of its name. -/
def field (given : Given) : Scan Given := do
  match Field.ofName? (← string) with
  | some field =>
    if given.has field then
      fail .mistyped
    else
      colon
      return given.set field (← limit)
  | none =>
    colon
    skipValue
    return given

/-- Reads fields up to the closing brace of an object. At the start of the object
no field stands before them. -/
def fieldsFrom (given : Given) (start : Bool) (text : List Char) :
    Except Fault (Scanned Given text) :=
  match htext : text.dropWhile isBlank with
  | [] => .error .truncated
  | c :: behind =>
    have hlt := length_behind_lt htext
    if c = '}' then .ok { value := given, rest := behind, rest_le := Nat.le_of_lt hlt }
    else
      match separated c behind with
      | .ok read =>
        have hle := read.rest_le
        (fieldsFrom read.value false read.rest).map (·.from text (by omega))
      | .error fault => .error fault
termination_by text.length
where
  /-- Reads the field that `c` starts, or that stands behind the comma `c`. -/
  separated (c : Char) : Scan Given := do
    if start then
      if c = '"' then field given else fail .malformed
    else if c = ',' then
      if (← nextBehindBlanks) = '"' then field given else fail .malformed
    else
      fail .malformed

/-- Reads the whole document. -/
def document : Scan Limits := do
  let first ← nextBehindBlanks
  let given ←
    if first = '[' then list
    else if first = '{' then fieldsFrom {} true
    else refuse first
  if (← peekBehindBlanks?).isSome then fail .malformed else return given.toLimits

/-- The limits that a document gives. -/
def ofDocument (text : String) : Except Fault Limits :=
  (document text.toList).map (·.value)

end ArrayLiteral.Limits
