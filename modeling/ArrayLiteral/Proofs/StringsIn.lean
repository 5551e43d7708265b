import Mathlib
import ArrayLiteral.Output
import ArrayLiteral.Proofs.Spacing

/-!
# Reading the strings of a JSON text

`stringsIn` reads the strings in a JSON text from left to right, by the scanner of JSON
strings, and passes over what is outside of the quotes.  From either form of a document it
reads the strings of the document, with the names of fields in their places
(`stringsIn_render`).  `Reveals` says this of a part of a text, whatever stands behind it, so
that parts can be put together.
-/

namespace ArrayLiteral.Json

/-! ## The strings of a text -/

/-- The strings in a JSON text, as its scanner reads them. What is outside of the quotes is
passed over. -/
def stringsIn (text : List Char) : List String :=
  match text with
  | [] => []
  | '"' :: behind =>
    match Scan.string behind with
    | .ok scanned => scanned.value :: stringsIn scanned.rest
    | .error _ => []
  | _ :: behind => stringsIn behind
termination_by text.length
decreasing_by
  · exact Nat.lt_succ_of_le scanned.rest_le
  · exact Nat.lt_succ_self _

theorem stringsIn_quote (text : String) (rest : List Char) :
    stringsIn ((quote text).toList ++ rest) = text :: stringsIn rest := by
  obtain ⟨hle, hscan⟩ := Scan.reads_quote text rest
  rw [toList_quote, List.cons_append, List.append_assoc, List.singleton_append, stringsIn]
  simp only [hscan]

/-- These strings are read from the text, whatever stands behind it. -/
def Reveals (text : String) (strings : List String) : Prop :=
  ∀ rest, stringsIn (text.toList ++ rest) = strings ++ stringsIn rest

namespace Reveals

variable {text text' separator : String} {strings strings' : List String}

/-- Nothing is read from a text without quotes. -/
theorem nothing (h : text.toList.all (· ≠ '"') = true) : Reveals text [] := by
  intro rest
  generalize text.toList = chars at h
  induction chars with
  | nil => rfl
  | cons c chars ih =>
    rw [List.all_cons, Bool.and_eq_true, decide_eq_true_eq] at h
    rw [List.cons_append, stringsIn]
    · exact ih h.2
    · exact h.1

theorem quote (text : String) : Reveals (quote text) [text] :=
  stringsIn_quote text

theorem append (h : Reveals text strings) (h' : Reveals text' strings') :
    Reveals (text ++ text') (strings ++ strings') := by
  intro rest
  rw [String.toList_append, List.append_assoc, h, h', List.append_assoc]

theorem intercalate {α : Type} {elements : List α} {text : α → String}
    {strings : α → List String} (hseparator : Reveals separator [])
    (h : ∀ element ∈ elements, Reveals (text element) (strings element)) :
    Reveals (separator.intercalate (elements.map text)) (elements.flatMap strings) := by
  induction elements with
  | nil => exact fun rest => rfl
  | cons element elements ih =>
    obtain ⟨helement, helements⟩ := List.forall_mem_cons.1 h
    cases elements with
    | nil =>
      rw [List.flatMap_singleton]
      simpa using helement
    | cons next elements =>
      have hothers := (helement.append hseparator).append (ih helements)
      rw [List.append_nil] at hothers
      rw [List.map_cons, List.map_cons, String.intercalate_cons_cons]
      exact hothers

/-- Brackets around the text change nothing. -/
theorem between {opening closing : String} (hopening : Reveals opening [])
    (hclosing : Reveals closing []) (h : Reveals text strings) :
    Reveals (opening ++ text ++ closing) strings := by
  have hall := (hopening.append h).append hclosing
  rwa [List.nil_append, List.append_nil] at hall

end Reveals

theorem reveals_number (value : UInt64) : Reveals (toString value.toNat) [] := by
  apply Reveals.nothing
  rw [List.all_eq_true]
  intro c hmem
  have hdigit := isDigit_of_mem_toString hmem
  rw [decide_eq_true_eq]
  rintro rfl
  cases hdigit

/-- The strings of a document are read from its compact form. -/
theorem reveals_compact (document : Json) : Reveals document.compact document.strings := by
  induction document using Json.induction with
  | number value =>
    rw [compact_number, strings_number]
    exact reveals_number value
  | string text =>
    rw [compact_string, strings_string]
    exact .quote text
  | array elements ih =>
    rw [compact_array, strings_array]
    exact .between (.nothing rfl) (.nothing rfl) (.intercalate (.nothing rfl) ih)
  | object fields ih =>
    rw [compact_object, strings_object]
    apply Reveals.between (.nothing rfl) (.nothing rfl)
    apply Reveals.intercalate (.nothing rfl)
    intro field hmem
    have hcolon : Reveals ":" [] := .nothing rfl
    exact ((Reveals.quote field.1).append hcolon).append (ih field hmem)

theorem reveals_indent (depth : Nat) : Reveals (indent depth) [] := by
  apply Reveals.nothing
  rw [indent, String.toList_ofList, List.all_eq_true]
  intro c hmem
  rw [List.eq_of_mem_replicate hmem]
  rfl

theorem reveals_lines {α : Type} {opening closing : String} {elements : List α}
    {text : α → String} {strings : α → List String} (depth : Nat)
    (hopening : Reveals opening []) (hclosing : Reveals closing [])
    (h : ∀ element ∈ elements, Reveals (text element) (strings element)) :
    Reveals
      (opening ++ ",\n".intercalate (elements.map fun element => indent (depth + 1) ++ text element)
        ++ "\n" ++ indent depth ++ closing) (elements.flatMap strings) := by
  have hbreak : Reveals "\n" [] := .nothing rfl
  have hlines : Reveals
      (",\n".intercalate (elements.map fun element => indent (depth + 1) ++ text element))
      (elements.flatMap strings) := by
    apply Reveals.intercalate (.nothing rfl)
    intro element hmem
    exact (reveals_indent (depth + 1)).append (h element hmem)
  have hend := (hbreak.append (reveals_indent depth)).append hclosing
  have hall := (hopening.append hlines).append hend
  rw [List.nil_append, List.nil_append, List.nil_append, List.append_nil] at hall
  simpa only [String.append_assoc] using hall

/-- The strings of a document are read from its pretty form. -/
theorem reveals_prettyAt (document : Json) (depth : Nat) :
    Reveals (document.prettyAt depth) document.strings := by
  induction document using Json.induction generalizing depth with
  | number value =>
    rw [prettyAt_number, strings_number]
    exact reveals_number value
  | string text =>
    rw [prettyAt_string, strings_string]
    exact .quote text
  | array elements ih =>
    rw [prettyAt_array, strings_array]
    split
    · rename_i hempty
      rw [List.isEmpty_iff.1 hempty]
      exact .nothing rfl
    · exact reveals_lines depth (.nothing rfl) (.nothing rfl) fun element hmem => ih element hmem _
  | object fields ih =>
    rw [prettyAt_object, strings_object]
    split
    · rename_i hempty
      rw [List.isEmpty_iff.1 hempty]
      exact .nothing rfl
    · apply reveals_lines depth (.nothing rfl) (.nothing rfl)
      intro field hmem
      have hcolon : Reveals ": " [] := .nothing rfl
      exact ((Reveals.quote field.1).append hcolon).append (ih field hmem _)

/-- The strings of a document are read from either form. -/
theorem stringsIn_render (document : Json) (pretty : Bool) :
    stringsIn (document.render pretty).toList = document.strings := by
  have hreveals : Reveals (document.render pretty) document.strings := by
    cases pretty with
    | true => exact reveals_prettyAt document 0
    | false => exact reveals_compact document
  have hall := hreveals []
  rwa [List.append_nil, stringsIn, List.append_nil] at hall

end ArrayLiteral.Json
