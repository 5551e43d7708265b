import ArrayLiteral.Text.Printer

/-!
# JSON texts

The documents that the program prints: numbers, strings, arrays and objects
whose fields keep their order.  `Json.compact` prints a document without any
space between its parts.  `Json.pretty` prints one element per line, indented
by two spaces for every document around it, and leaves empty arrays and objects
on one line.
-/

namespace ArrayLiteral

open Text (Printer)

inductive Json
  | number (value : UInt64)
  | string (text : String)
  | array (elements : List Json)
  | object (fields : List (String × Json))

namespace Json

/-- Replaces every document by its image, from the inside out. -/
def fold {β : Type} (onNumber : UInt64 → β) (onString : String → β) (onArray : List β → β)
    (onObject : List (String × β) → β) : Json → β
  | number value => onNumber value
  | string text => onString text
  | array elements =>
    onArray (elements.map fun element => element.fold onNumber onString onArray onObject)
  | object fields =>
    onObject (fields.map fun field =>
      (field.1, field.2.fold onNumber onString onArray onObject))
decreasing_by
  · rename_i hmem
    have := List.sizeOf_lt_of_mem hmem
    simp only [Json.array.sizeOf_spec]
    omega
  · rename_i hmem
    have := List.sizeOf_lt_of_mem hmem
    rcases field with ⟨name, document⟩
    simp only [Prod.mk.sizeOf_spec, Json.object.sizeOf_spec] at *
    omega

section Fold

variable {β : Type} (onNumber : UInt64 → β) (onString : String → β) (onArray : List β → β)
  (onObject : List (String × β) → β)

@[simp] theorem fold_number (value : UInt64) :
    (number value).fold onNumber onString onArray onObject = onNumber value := by
  rw [fold]

@[simp] theorem fold_string (text : String) :
    (string text).fold onNumber onString onArray onObject = onString text := by
  rw [fold]

@[simp] theorem fold_array (elements : List Json) :
    (array elements).fold onNumber onString onArray onObject =
      onArray (elements.map (fold onNumber onString onArray onObject)) := by
  rw [fold]

@[simp] theorem fold_object (fields : List (String × Json)) :
    (object fields).fold onNumber onString onArray onObject =
      onObject (fields.map fun field =>
        (field.1, field.2.fold onNumber onString onArray onObject)) := by
  rw [fold]

end Fold

/-- Induction over documents, with the hypothesis for every element of an array and for
every value of an object. -/
@[elab_as_elim]
theorem induction {motive : Json → Prop} (number : ∀ value, motive (.number value))
    (string : ∀ text, motive (.string text))
    (array : ∀ elements, (∀ element ∈ elements, motive element) → motive (.array elements))
    (object : ∀ fields, (∀ field ∈ fields, motive field.2) → motive (.object fields)) :
    ∀ document, motive document
  | .number value => number value
  | .string text => string text
  | .array elements => array elements fun element _ => induction number string array object element
  | .object fields => object fields fun field _ => induction number string array object field.2
decreasing_by
  · rename_i hmem
    have := List.sizeOf_lt_of_mem hmem
    simp only [Json.array.sizeOf_spec]
    omega
  · rename_i hmem
    have := List.sizeOf_lt_of_mem hmem
    rcases field with ⟨name, document⟩
    simp only [Prod.mk.sizeOf_spec, Json.object.sizeOf_spec] at *
    omega

/-! ## Strings -/

/-- The form of a character in a string: quotes, backslashes and control
characters are escaped. -/
def escape (c : Char) : String :=
  match c with
  | '"' => "\\\""
  | '\\' => "\\\\"
  | '\x08' => "\\b"
  | '\x0c' => "\\f"
  | '\n' => "\\n"
  | '\r' => "\\r"
  | '\t' => "\\t"
  | _ =>
    if c.toNat < 0x20 then
      "\\u00" ++ (if c.toNat < 0x10 then "0" else "") ++ String.ofList (Nat.toDigits 16 c.toNat)
    else String.singleton c

def quote (text : String) : String :=
  "\"" ++ String.join (text.toList.map escape) ++ "\""

/-! ## Compact form -/

/-- Writes the parts between two brackets, separated by commas. -/
def enclosed (opening closing : String) (parts : List Printer) : Printer :=
  .ofString opening ++ .joined "," parts ++ .ofString closing

def compactPrinter : Json → Printer :=
  fold (fun value => .ofString (toString value.toNat)) (fun text => .ofString (quote text))
    (fun elements => enclosed "[" "]" elements)
    (fun fields =>
      enclosed "\x7b" "\x7d" (fields.map fun field =>
        .ofString (quote field.1 ++ ":") ++ field.2))

def compact (document : Json) : String :=
  document.compactPrinter.text

@[simp] theorem compact_number (value : UInt64) :
    (number value).compact = toString value.toNat := by
  rw [compact, compactPrinter, fold_number, Printer.text_ofString]

@[simp] theorem compact_string (text : String) : (string text).compact = quote text := by
  rw [compact, compactPrinter, fold_string, Printer.text_ofString]

@[simp] theorem compact_array (elements : List Json) :
    (array elements).compact = "[" ++ String.intercalate "," (elements.map compact) ++ "]" := by
  rw [compact, compactPrinter, fold_array, enclosed]
  simp only [Printer.text_append, Printer.text_ofString, Printer.text_joined, List.map_map]
  rfl

@[simp] theorem compact_object (fields : List (String × Json)) :
    (object fields).compact =
      "\x7b" ++ String.intercalate ","
        (fields.map fun field => quote field.1 ++ ":" ++ field.2.compact) ++ "\x7d" := by
  rw [compact, compactPrinter, fold_object, enclosed]
  simp only [Printer.text_append, Printer.text_ofString, Printer.text_joined, List.map_map,
    Function.comp_def]
  rfl

/-! ## Pretty form -/

/-- The start of a line at a depth. -/
def indent (depth : Nat) : String :=
  String.ofList (List.replicate (2 * depth) ' ')

/-- Writes each part on a line of its own, one level deeper than the brackets. -/
def block (opening closing : String) (parts : List (Nat → Printer)) (depth : Nat) : Printer :=
  if parts.isEmpty then .ofString (opening ++ closing)
  else
    .ofString (opening ++ "\n")
      ++ .joined ",\n" (parts.map fun part => .ofString (indent (depth + 1)) ++ part (depth + 1))
      ++ .ofString ("\n" ++ indent depth ++ closing)

/-- The pretty form of a document with `depth` documents around it. -/
def prettyPrinter : Json → (depth : Nat) → Printer :=
  fold (fun value _ => .ofString (toString value.toNat)) (fun text _ => .ofString (quote text))
    (fun elements => block "[" "]" elements)
    (fun fields =>
      block "\x7b" "\x7d" (fields.map fun field depth =>
        .ofString (quote field.1 ++ ": ") ++ field.2 depth))

def prettyAt (document : Json) (depth : Nat) : String :=
  (document.prettyPrinter depth).text

def pretty (document : Json) : String :=
  document.prettyAt 0

@[simp] theorem prettyAt_number (value : UInt64) (depth : Nat) :
    (number value).prettyAt depth = toString value.toNat := by
  rw [prettyAt, prettyPrinter, fold_number, Printer.text_ofString]

@[simp] theorem prettyAt_string (text : String) (depth : Nat) :
    (string text).prettyAt depth = quote text := by
  rw [prettyAt, prettyPrinter, fold_string, Printer.text_ofString]

theorem text_block (opening closing : String) (parts : List (Nat → Printer)) (depth : Nat) :
    (block opening closing parts depth).text =
      if parts.isEmpty then opening ++ closing
      else
        opening ++ "\n" ++ String.intercalate ",\n"
          (parts.map fun part => indent (depth + 1) ++ (part (depth + 1)).text)
          ++ "\n" ++ indent depth ++ closing := by
  unfold block
  split
  · exact Printer.text_ofString _
  · simp only [Printer.text_append, Printer.text_ofString, Printer.text_joined, List.map_map,
      Function.comp_def, String.append_assoc]

theorem prettyAt_array (elements : List Json) (depth : Nat) :
    (array elements).prettyAt depth =
      if elements.isEmpty then "[]"
      else
        "[\n" ++ String.intercalate ",\n"
          (elements.map fun element => indent (depth + 1) ++ element.prettyAt (depth + 1))
          ++ "\n" ++ indent depth ++ "]" := by
  rw [prettyAt, prettyPrinter, fold_array, text_block, List.isEmpty_map, List.map_map]
  rfl

theorem prettyAt_object (fields : List (String × Json)) (depth : Nat) :
    (object fields).prettyAt depth =
      if fields.isEmpty then "\x7b\x7d"
      else
        "\x7b\n" ++ String.intercalate ",\n"
          (fields.map fun field =>
            indent (depth + 1) ++ (quote field.1 ++ ": " ++ field.2.prettyAt (depth + 1)))
          ++ "\n" ++ indent depth ++ "\x7d" := by
  rw [prettyAt, prettyPrinter, fold_object, text_block, List.isEmpty_map, List.isEmpty_map,
    List.map_map, List.map_map]
  simp only [Function.comp_def, Printer.text_append, Printer.text_ofString]
  rfl

end Json

end ArrayLiteral
