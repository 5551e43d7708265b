import ArrayLiteral.Json
import ArrayLiteral.Saturating

/-!
# Values

What a literal stands for: an integer, or an array of values.  `Value.fold`
is the one recursion over values, and what depends on a whole value is a fold:
its text, its number of cells and its depth.

The number of cells is defined twice.  `cells` counts in natural numbers, and
`saturatedCells` counts in 64-bit words and saturates, which is how costs are
computed.
-/

namespace ArrayLiteral

inductive Value
  | integer (value : UInt64)
  /-- The elements, indexed from 0. -/
  | array (elements : List Value)

namespace Value

/-- What fills the gaps of an array. -/
def zero : Value :=
  integer 0

/-- Replaces every integer by its image under `onInteger`, and every array by
`onArray` of what its elements became. -/
def fold {β : Type} (onInteger : UInt64 → β) (onArray : List β → β) : Value → β
  | integer value => onInteger value
  | array elements => onArray (elements.map fun element => element.fold onInteger onArray)

section Fold

variable {β : Type} (onInteger : UInt64 → β) (onArray : List β → β)

@[simp] theorem fold_integer (value : UInt64) :
    (integer value).fold onInteger onArray = onInteger value := by
  rw [fold]

@[simp] theorem fold_array (elements : List Value) :
    (array elements).fold onInteger onArray =
      onArray (elements.map (fold onInteger onArray)) := by
  rw [fold]

end Fold

/-- Induction over values, with the hypothesis for every element of an array. -/
@[elab_as_elim]
theorem induction {motive : Value → Prop} (integer : ∀ value, motive (.integer value))
    (array : ∀ elements, (∀ element ∈ elements, motive element) → motive (.array elements)) :
    ∀ value, motive value
  | .integer value => integer value
  | .array elements => array elements fun element _ => induction integer array element

/-- The integer, if the value is one. -/
def integer? : Value → Option UInt64
  | integer value => some value
  | array _ => none

/-- The elements, if the value is an array. -/
def elements? : Value → Option (List Value)
  | integer _ => none
  | array elements => some elements

/-- The element at an index. An integer has none. -/
def child? (value : Value) (index : Nat) : Option Value :=
  value.elements?.bind (·[index]?)

def printer : Value → Text.Printer :=
  fold (fun value => .ofString (toString value.toNat)) fun elements =>
    .ofString "[" ++ .joined ", " elements ++ .ofString "]"

/-- The elements in square brackets, separated by a comma and a space. -/
def display (value : Value) : String :=
  value.printer.text

def toJson : Value → Json :=
  fold .number .array

/-- The number of integers and arrays in the value, itself included. -/
def cells : Value → Nat :=
  fold (fun _ => 1) fun elements => 1 + elements.foldr (· + ·) 0

/-- The number of cells as a 64-bit word, or the largest word if it is no less. -/
def saturatedCells : Value → UInt64 :=
  fold (fun _ => 1) fun elements => elements.foldl satAdd 1

/-- How deeply arrays nest. -/
def depth : Value → Nat :=
  fold (fun _ => 0) fun elements => 1 + elements.foldl max 0

@[simp] theorem display_integer (value : UInt64) :
    (integer value).display = toString value.toNat := by
  rw [display, printer, fold_integer, Text.Printer.text_ofString]

@[simp] theorem display_array (elements : List Value) :
    (array elements).display = "[" ++ String.intercalate ", " (elements.map display) ++ "]" := by
  rw [display, printer, fold_array]
  simp only [Text.Printer.text_append, Text.Printer.text_ofString, Text.Printer.text_joined,
    List.map_map]
  rfl

@[simp] theorem toJson_integer (value : UInt64) : (integer value).toJson = .number value :=
  fold_integer _ _ _

@[simp] theorem toJson_array (elements : List Value) :
    (array elements).toJson = .array (elements.map toJson) :=
  fold_array _ _ _

@[simp] theorem cells_integer (value : UInt64) : (integer value).cells = 1 := fold_integer _ _ _

@[simp] theorem cells_array (elements : List Value) :
    (array elements).cells = 1 + (elements.map cells).foldr (· + ·) 0 :=
  fold_array _ _ _

@[simp] theorem saturatedCells_integer (value : UInt64) : (integer value).saturatedCells = 1 :=
  fold_integer _ _ _

@[simp] theorem saturatedCells_array (elements : List Value) :
    (array elements).saturatedCells = (elements.map saturatedCells).foldl satAdd 1 :=
  fold_array _ _ _

@[simp] theorem depth_integer (value : UInt64) : (integer value).depth = 0 := fold_integer _ _ _

@[simp] theorem depth_array (elements : List Value) :
    (array elements).depth = 1 + (elements.map depth).foldl max 0 :=
  fold_array _ _ _

theorem cells_pos (value : Value) : 0 < value.cells := by
  cases value with
  | integer => simp
  | array elements =>
    rw [cells_array]
    omega

end Value

end ArrayLiteral
