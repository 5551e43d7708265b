import ArrayLiteral.Text.Width

/-!
# Scanning JSON texts

A `Scan` reads something off the front of a text.  It fails with the first
fault in reading order, and otherwise returns what is left of the text together
with the fact that this is no more than there was, so that what scans in a loop
ends.

The scans here read the words, strings and numbers of JSON, and `skipValue`
passes over any JSON value.
-/

namespace ArrayLiteral.Json

/-- Why a text was not accepted. -/
inductive Fault
  /-- It is not JSON. -/
  | malformed
  /-- It is not what was asked for. -/
  | mistyped
  /-- It ends too early. -/
  | truncated
  deriving DecidableEq

/-- What was read off the front of a text, and what is left. -/
structure Scanned (α : Type) (text : List Char) where
  value : α
  rest : List Char
  rest_le : rest.length ≤ text.length

/-- The same seen from a longer text. -/
def Scanned.from {α : Type} {text : List Char} (scanned : Scanned α text) (longer : List Char)
    (h : text.length ≤ longer.length) : Scanned α longer :=
  { scanned with rest_le := Nat.le_trans scanned.rest_le h }

def Scan (α : Type) : Type :=
  (text : List Char) → Except Fault (Scanned α text)

instance : Monad Scan where
  pure value := fun text => .ok { value, rest := text, rest_le := Nat.le_refl _ }
  bind scan next := fun text =>
    match scan text with
    | .ok first => (next first.value first.rest).map (·.from text first.rest_le)
    | .error fault => .error fault

namespace Scan

def fail {α : Type} (fault : Fault) : Scan α :=
  fun _ => .error fault

/-- The next character, which is left in place. -/
def peek? : Scan (Option Char) :=
  fun text => .ok { value := text.head?, rest := text, rest_le := Nat.le_refl _ }

/-- Takes one character. -/
def next : Scan Char
  | [] => .error .truncated
  | c :: rest => .ok { value := c, rest, rest_le := Nat.le_succ _ }

/-- Takes the characters in front that satisfy the predicate. -/
def takeWhile (p : Char → Bool) : Scan (List Char) := fun text =>
  .ok
    { value := text.takeWhile p
      rest := text.dropWhile p
      rest_le := (List.dropWhile_suffix _).length_le }

/-- The white space of JSON. -/
def isBlank (c : Char) : Bool :=
  c = ' ' || c = '\n' || c = '\t' || c = '\r'

/-- Passes over white space and looks at the character behind it. -/
def peekBehindBlanks? : Scan (Option Char) := do
  let _ ← takeWhile isBlank
  peek?

/-- Takes one character behind white space. -/
def nextBehindBlanks : Scan Char := do
  let _ ← takeWhile isBlank
  next

/-- The character behind white space is taken off the text. -/
theorem length_behind_lt {text behind : List Char} {c : Char}
    (h : text.dropWhile isBlank = c :: behind) : behind.length < text.length := by
  have hle := (List.dropWhile_suffix (l := text) isBlank).length_le
  rw [h, List.length_cons] at hle
  omega

/-- Takes the given characters. -/
def word : List Char → Scan Unit
  | [] => pure ()
  | expected :: others => do
    if (← next) = expected then word others else fail .malformed

/-! ## Strings -/

/-- The value of a hexadecimal digit. -/
def hexDigit? (c : Char) : Option Nat :=
  if c.isDigit then some (c.toNat - 0x30)
  else if 'a' ≤ c ∧ c ≤ 'f' then some (c.toNat - 0x57)
  else if 'A' ≤ c ∧ c ≤ 'F' then some (c.toNat - 0x37)
  else none

/-- Takes four hexadecimal digits. The text ends too early if it has fewer than
four bytes left. -/
def hexUnit : Scan Nat
  | a :: b :: c :: d :: rest =>
    match [a, b, c, d].mapM hexDigit? with
    | some digits =>
      .ok
        { value := digits.foldl (fun unit digit => 16 * unit + digit) 0
          rest
          rest_le := by simp only [List.length_cons]; omega }
    | none => .error .malformed
  | short => .error (if Text.utf8Width short < 4 then .truncated else .malformed)

def isLeadingSurrogate (unit : Nat) : Bool :=
  0xd800 ≤ unit && unit ≤ 0xdbff

def isTrailingSurrogate (unit : Nat) : Bool :=
  0xdc00 ≤ unit && unit ≤ 0xdfff

/-- The character that a backslash and this character stand for. -/
def simpleEscape? : Char → Option Char
  | '"' => some '"'
  | '\\' => some '\\'
  | '/' => some '/'
  | 'b' => some '\x08'
  | 'f' => some '\x0c'
  | 'n' => some '\n'
  | 'r' => some '\r'
  | 't' => some '\t'
  | _ => none

/-- Reads a character by its code units, where surrogates come in pairs. -/
def unicodeEscape : Scan Char := do
  let unit ← hexUnit
  if isTrailingSurrogate unit then
    fail .malformed
  else if isLeadingSurrogate unit then
    word ['\\', 'u']
    let trailing ← hexUnit
    if isTrailingSurrogate trailing then
      return .ofNat (0x10000 + (unit - 0xd800) * 0x400 + (trailing - 0xdc00))
    else
      fail .malformed
  else
    return .ofNat unit

/-- Reads what follows a backslash. Where the string is not wanted, a code unit
may be any, and the character is of no account. -/
def escape (wanted : Bool) : Scan Char := do
  let c ← next
  if c = 'u' then
    if wanted then
      unicodeEscape
    else
      let _ ← hexUnit
      return c
  else
    match simpleEscape? c with
    | some meant => return meant
    | none => fail .malformed

/-- Reads a string from behind its opening quote, after the characters `found`
in reverse. -/
def stringOnto (wanted : Bool) (found : List Char) (text : List Char) :
    Except Fault (Scanned String text) :=
  match text with
  | [] => .error .truncated
  | '"' :: rest =>
    .ok { value := .ofList found.reverse, rest, rest_le := Nat.le_succ _ }
  | '\\' :: rest =>
    match escape wanted rest with
    | .ok escaped =>
      have hle := escaped.rest_le
      (stringOnto wanted (escaped.value :: found) escaped.rest).map
        (·.from _ (Nat.le_succ_of_le hle))
    | .error fault => .error fault
  | c :: rest =>
    if c < ' ' then .error .malformed
    else (stringOnto wanted (c :: found) rest).map (·.from _ (Nat.le_succ _))
termination_by text.length

/-- Reads a string from behind its opening quote. -/
def string : Scan String :=
  stringOnto true []

/-- Passes over a string from behind its opening quote. -/
def skipString : Scan Unit := do
  let _ ← stringOnto false []

end Scan

/-! ## Numbers -/

/-- The parts of a number as written. -/
structure Numeral where
  negative : Bool
  whole : List Char
  /-- The digits behind the point, if there is one. -/
  fraction : List Char
  /-- Whether the exponent is negative, and its digits. -/
  exponent? : Option (Bool × List Char)

namespace Scan

/-- Takes a run of digits that starts with `first`. -/
def digitsFrom (first : Char) : Scan (List Char) := do
  if first.isDigit then
    return first :: (← takeWhile Char.isDigit)
  else
    fail .malformed

/-- Takes one digit at least. -/
def digits : Scan (List Char) := do
  digitsFrom (← next)

/-- Takes one of the given characters, if it is there. -/
def oneOf? (choices : List Char) : Scan (Option Char) := do
  match ← peek? with
  | some c => if c ∈ choices then return some (← next) else return none
  | none => return none

/-- Reads a number that starts with `first`. Only zero itself starts with the
digit zero. -/
def numeral (first : Char) : Scan Numeral := do
  let negative := first == '-'
  let whole ← if negative then digits else digitsFrom first
  if whole.head? = some '0' ∧ whole.length ≠ 1 then
    fail .malformed
  let fraction ← if (← oneOf? ['.']).isSome then digits else pure []
  let exponent? ←
    if (← oneOf? ['e', 'E']).isSome then do
      let negative := (← oneOf? ['+', '-']) == some '-'
      pure (some (negative, ← digits))
    else pure none
  return { negative, whole, fraction, exponent? }

end Scan

namespace Numeral

/-- The value, if it is written as a natural number and is a 64-bit word. -/
def word? (numeral : Numeral) : Option UInt64 :=
  let value := Nat.ofDigitChars 10 numeral.whole 0
  if numeral.negative = false ∧ numeral.fraction = [] ∧ numeral.exponent? = none ∧
      value < UInt64.size
  then some (.ofNat value)
  else none

/-- Appends digits to a number as long as it is a 64-bit word, and returns those
that are left. -/
def absorb (significand : Nat) : List Char → Nat × List Char
  | [] => (significand, [])
  | digit :: rest =>
    let longer := 10 * significand + (digit.toNat - 0x30)
    if longer < UInt64.size then absorb longer rest else (significand, digit :: rest)

/-- The number rounded to 53 significant bits, a tie to even. -/
def roundTo53 (value : Nat) : Nat :=
  let excess := value.log2 + 1 - 53
  let quotient := value >>> excess
  let remainder := value - quotient <<< excess
  let half := (1 <<< excess) / 2
  let up := half < remainder || (half = remainder && excess ≠ 0 && quotient % 2 = 1)
  (if up then quotient + 1 else quotient) <<< excess

/-- Whether the number is beyond the range of double precision. The leading
digits that fit in 64 bits are kept, and are multiplied by a power of ten. -/
def overflows (numeral : Numeral) : Bool :=
  let (whole, wholeLeft) := absorb 0 numeral.whole
  let (significand, fractionLeft) := absorb whole numeral.fraction
  let written : Int :=
    match numeral.exponent? with
    | none => 0
    | some (true, digits) => -(Nat.ofDigitChars 10 digits 0 : Int)
    | some (false, digits) => Nat.ofDigitChars 10 digits 0
  let exponent := written + wholeLeft.length - (numeral.fraction.length - fractionLeft.length : Nat)
  if exponent < 0 then false
  else if 308 < exponent then significand ≠ 0
  else 1 <<< 1024 ≤ roundTo53 (roundTo53 significand * roundTo53 (Nat.pow 10 exponent.toNat))

end Numeral

namespace Scan

/-! ## Any value -/

/-- Passes over a number that starts with `first`. One that ends too early is
malformed here. -/
def skipNumeral (first : Char) : Scan Unit := fun text =>
  match numeral first text with
  | .ok scanned => .ok { scanned with value := () }
  | .error _ => .error .malformed

inductive Bracket
  | list
  | object

namespace Bracket

def ofOpening? : Char → Option Bracket
  | '[' => some list
  | '{' => some object
  | _ => none

def closing : Bracket → Char
  | list => ']'
  | object => '}'

end Bracket

/-- Takes the colon between a key and its value. -/
def colon : Scan Unit := do
  if (← nextBehindBlanks) = ':' then pure () else fail .malformed

/-- Passes over what stands before an element: a key and a colon in an object. -/
def skipKey : Bracket → Scan Unit
  | .list => pure ()
  | .object => do
    if (← nextBehindBlanks) = '"' then
      skipString
      colon
    else
      fail .malformed

/-- Passes over the word or number that starts with `first`. -/
def skipScalar (first : Char) : Scan Unit :=
  match first with
  | '"' => skipString
  | 'n' => word ['u', 'l', 'l']
  | 't' => word ['r', 'u', 'e']
  | 'f' => word ['a', 'l', 's', 'e']
  | _ => if first = '-' ∨ first.isDigit then skipNumeral first else fail .malformed

/-- Where one is in a value that is passed over, and the brackets around. -/
inductive Skipping
  | value (enclosing : List Bracket)
  | behindValue (enclosing : List Bracket)

/-- Passes over what the character `c` starts or ends. -/
def skipStep (skipping : Skipping) (c : Char) : Scan Skipping := do
  match skipping with
  | .value enclosing =>
    match Bracket.ofOpening? c with
    | some bracket =>
      if (← peekBehindBlanks?) = some bracket.closing then
        let _ ← next
        return .behindValue enclosing
      else
        skipKey bracket
        return .value (bracket :: enclosing)
    | none =>
      skipScalar c
      return .behindValue enclosing
  | .behindValue [] => fail .malformed
  | .behindValue (bracket :: enclosing) =>
    if c = ',' then
      skipKey bracket
      return .value (bracket :: enclosing)
    else if c = bracket.closing then
      return .behindValue enclosing
    else
      fail .malformed

/-- Passes over what is left of a value. -/
def skip (skipping : Skipping) (text : List Char) : Except Fault (Scanned Unit text) :=
  match skipping with
  | .behindValue [] => .ok { value := (), rest := text, rest_le := Nat.le_refl _ }
  | skipping =>
    match htext : text.dropWhile isBlank with
    | [] => .error .truncated
    | c :: behind =>
      have hlt := length_behind_lt htext
      match skipStep skipping c behind with
      | .ok stepped =>
        have hle := stepped.rest_le
        (skip stepped.value stepped.rest).map (·.from text (by omega))
      | .error fault => .error fault
termination_by text.length

/-- Passes over a value. -/
def skipValue : Scan Unit :=
  skip (.value [])

end Scan

end ArrayLiteral.Json
