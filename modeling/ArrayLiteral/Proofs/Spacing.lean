import Mathlib
import ArrayLiteral.Proofs.QuotedText

/-!
# Spaces and line breaks in JSON texts

The pretty form of a document differs from the compact one in spaces and line breaks, and in
nothing else (`spacing_prettyAt`).  The strings of a document keep the spaces they have, so
these go too when spaces are left out.  A document is bare if its strings have no spaces and
nothing to escape (`Json.Bare`).  Then the compact form has neither spaces nor line breaks,
and is what is left of the pretty form (`spacing_pretty`).
-/

namespace ArrayLiteral

/-! ## Leaving characters out -/

/-- The text without the characters that satisfy the predicate. -/
def without (p : Char → Bool) (text : String) : String :=
  .ofList (text.toList.filter fun c => !p c)

def isSpace (c : Char) : Bool :=
  c = ' '

/-- What the pretty form is laid out with. -/
def isSpacing (c : Char) : Bool :=
  c = ' ' || c = '\n'

section Without

variable (p : Char → Bool)

@[simp] theorem without_append (text text' : String) :
    without p (text ++ text') = without p text ++ without p text' := by
  rw [without, String.toList_append, List.filter_append, String.ofList_append]
  rfl

theorem without_intercalate (separator : String) (texts : List String) :
    without p (separator.intercalate texts) =
      (without p separator).intercalate (texts.map (without p)) := by
  induction texts with
  | nil => rfl
  | cons text texts ih =>
    cases texts with
    | nil => simp
    | cons next texts =>
      rw [String.intercalate_cons_cons, without_append, without_append, ih]
      simp only [List.map_cons, String.intercalate_cons_cons]

variable {p}

/-- A text that has no such character stays as it is. -/
theorem without_eq_self {text : String} (h : ∀ c ∈ text.toList, p c = false) :
    without p text = text := by
  have hkept : (text.toList.filter fun c => !p c) = text.toList := by
    rw [List.filter_eq_self]
    intro c hmem
    rw [h c hmem]
    rfl
  rw [without, hkept, String.ofList_toList]

end Without

theorem isDigit_of_mem_toString {number : Nat} {c : Char} (h : c ∈ (toString number).toList) :
    c.isDigit = true := by
  rw [Nat.toString_eq_ofList_toDigits, String.toList_ofList] at h
  exact Nat.isDigit_of_mem_toDigits (by decide) (by decide) h

theorem isSpacing_of_isDigit {c : Char} (h : c.isDigit = true) : isSpacing c = false := by
  cases hspacing : isSpacing c with
  | false => rfl
  | true =>
    simp only [isSpacing, Bool.or_eq_true, decide_eq_true_eq] at hspacing
    rcases hspacing with rfl | rfl <;> cases h

theorem isSpace_of_isDigit {c : Char} (h : c.isDigit = true) : isSpace c = false := by
  have hspacing := isSpacing_of_isDigit h
  rw [isSpacing, Bool.or_eq_false_iff] at hspacing
  exact hspacing.1

/-! ## The pretty and the compact form -/

namespace Json

theorem spacing_indent (depth : Nat) : without isSpacing (indent depth) = "" := by
  have hnone : ((List.replicate (2 * depth) ' ').filter fun c => !isSpacing c) = [] := by
    rw [List.filter_eq_nil_iff]
    intro c hmem
    rw [List.eq_of_mem_replicate hmem]
    decide
  rw [without, indent, String.toList_ofList, hnone]

/-- Parts that are the same but for the spacing are so too when each is on its own line. -/
theorem spacing_lines {opening opening' closing : String} {lines parts : List String}
    (hopening : without isSpacing opening = without isSpacing opening') (depth : Nat)
    (h : lines.map (without isSpacing) = parts.map (without isSpacing)) :
    without isSpacing (opening ++ ",\n".intercalate lines ++ "\n" ++ indent depth ++ closing) =
      without isSpacing (opening' ++ ",".intercalate parts ++ closing) := by
  have hcomma : without isSpacing ",\n" = without isSpacing "," := rfl
  have hbreak : without isSpacing "\n" = "" := rfl
  simp only [without_append, without_intercalate, hopening, h, hcomma, hbreak, spacing_indent,
    String.append_empty]

/-- The two forms of a document differ in spaces and line breaks only. -/
theorem spacing_prettyAt (document : Json) (depth : Nat) :
    without isSpacing (document.prettyAt depth) = without isSpacing document.compact := by
  induction document using Json.induction generalizing depth with
  | number value => rw [prettyAt_number, compact_number]
  | string text => rw [prettyAt_string, compact_string]
  | array elements ih =>
    have hopening : without isSpacing "[\n" = without isSpacing "[" := rfl
    rw [prettyAt_array, compact_array]
    split
    · rename_i hempty
      rw [List.isEmpty_iff.1 hempty]
      rfl
    · apply spacing_lines hopening
      rw [List.map_map, List.map_map]
      apply List.map_congr_left
      intro element hmem
      simp only [Function.comp_apply, without_append, spacing_indent, ih element hmem,
        String.empty_append]
  | object fields ih =>
    have hopening : without isSpacing "\x7b\n" = without isSpacing "\x7b" := rfl
    have hcolon : without isSpacing ": " = without isSpacing ":" := rfl
    rw [prettyAt_object, compact_object]
    split
    · rename_i hempty
      rw [List.isEmpty_iff.1 hempty]
      rfl
    · apply spacing_lines hopening
      rw [List.map_map, List.map_map]
      apply List.map_congr_left
      intro field hmem
      simp only [Function.comp_apply, without_append, spacing_indent, ih field hmem,
        String.empty_append, hcolon]

/-! ## Bare documents -/

/-- The character stands in a string as it is, and is no space. -/
def isBare (c : Char) : Bool :=
  isPlain c && c ≠ ' '

theorem isBare_of_isDigit {c : Char} (h : c.isDigit = true) : isBare c = true := by
  have hzero : '0' ≤ c := by
    simp only [Char.isDigit, Bool.and_eq_true, decide_eq_true_eq] at h
    exact h.1
  have hcontrol : ¬ c < ' ' := not_lt.2 (le_trans (by decide) hzero)
  rw [isBare, Bool.and_eq_true, isPlain_iff]
  refine ⟨⟨?_, ?_, hcontrol⟩, ?_⟩
  · rintro rfl
    cases h
  · rintro rfl
    cases h
  · rw [decide_eq_true_eq]
    rintro rfl
    cases h

theorem isSpacing_of_isBare {c : Char} (h : isBare c = true) : isSpacing c = false := by
  cases hspacing : isSpacing c with
  | false => rfl
  | true =>
    simp only [isSpacing, Bool.or_eq_true, decide_eq_true_eq] at hspacing
    rcases hspacing with rfl | rfl <;> cases h

theorem escaped_of_isPlain {text : List Char} (h : ∀ c ∈ text, isPlain c = true) :
    escaped text = text := by
  induction text with
  | nil => rfl
  | cons c text ih =>
    obtain ⟨hc, htext⟩ := List.forall_mem_cons.1 h
    rw [escaped, List.flatMap_cons, toList_escape_of_isPlain hc]
    exact congrArg (c :: ·) (ih htext)

/-- A bare text stands between the quotes as it is. -/
theorem quote_of_isBare {text : String} (h : ∀ c ∈ text.toList, isBare c = true) :
    quote text = "\"" ++ text ++ "\"" := by
  have hplain : ∀ c ∈ text.toList, isPlain c = true := fun c hmem =>
    (Bool.and_eq_true_iff.1 (h c hmem)).1
  rw [← String.toList_inj, toList_quote, escaped_of_isPlain hplain]
  simp

/-- The strings of a document, its names of fields included, from left to right. -/
def strings : Json → List String :=
  fold (fun _ => []) (fun text => [text]) List.flatten
    (fun fields => fields.flatMap fun field => field.1 :: field.2)

@[simp] theorem strings_number (value : UInt64) : (number value).strings = [] :=
  fold_number _ _ _ _ _

@[simp] theorem strings_string (text : String) : (string text).strings = [text] :=
  fold_string _ _ _ _ _

@[simp] theorem strings_array (elements : List Json) :
    (array elements).strings = elements.flatMap strings :=
  fold_array _ _ _ _ _

@[simp] theorem strings_object (fields : List (String × Json)) :
    (object fields).strings = fields.flatMap fun field => field.1 :: field.2.strings := by
  rw [strings, fold_object, List.flatMap_map]

/-- No string of the document has a space or an escaped character in it. -/
def Bare (document : Json) : Prop :=
  ∀ text ∈ document.strings, ∀ c ∈ text.toList, isBare c = true

theorem spacing_quote {text : String} (h : ∀ c ∈ text.toList, isBare c = true) :
    without isSpacing (quote text) = quote text := by
  have hquote : without isSpacing "\"" = "\"" := rfl
  rw [quote_of_isBare h, without_append, without_append, hquote,
    without_eq_self fun c hmem => isSpacing_of_isBare (h c hmem)]

/-- The compact form of a bare document has no spaces and no line breaks. -/
theorem spacing_compact {document : Json} (h : document.Bare) :
    without isSpacing document.compact = document.compact := by
  have hcomma : without isSpacing "," = "," := rfl
  induction document using Json.induction with
  | number value =>
    rw [compact_number]
    exact without_eq_self fun c hmem => isSpacing_of_isDigit (isDigit_of_mem_toString hmem)
  | string text =>
    rw [compact_string]
    exact spacing_quote (h text (by simp))
  | array elements ih =>
    have helements : (elements.map compact).map (without isSpacing) = elements.map compact := by
      rw [List.map_map]
      apply List.map_congr_left
      intro element hmem
      refine ih element hmem fun text htext => h text ?_
      rw [strings_array]
      exact List.mem_flatMap_of_mem hmem htext
    rw [compact_array, without_append, without_append, without_intercalate, helements, hcomma]
    rfl
  | object fields ih =>
    have hfields : (fields.map fun field => quote field.1 ++ ":" ++ field.2.compact).map
        (without isSpacing) = fields.map fun field => quote field.1 ++ ":" ++ field.2.compact := by
      have hcolon : without isSpacing ":" = ":" := rfl
      rw [List.map_map]
      apply List.map_congr_left
      intro field hmem
      have hstrings : ∀ text ∈ field.1 :: field.2.strings, ∀ c ∈ text.toList, isBare c = true := by
        intro text htext
        apply h text
        rw [strings_object]
        exact List.mem_flatMap_of_mem hmem htext
      obtain ⟨hname, hvalue⟩ := List.forall_mem_cons.1 hstrings
      simp only [Function.comp_apply, without_append, spacing_quote hname, ih field hmem hvalue,
        hcolon]
    rw [compact_object, without_append, without_append, without_intercalate, hfields, hcomma]
    rfl

/-- What is left of the pretty form of a bare document is its compact form. -/
theorem spacing_pretty {document : Json} (h : document.Bare) :
    without isSpacing document.pretty = document.compact := by
  rw [pretty, spacing_prettyAt, spacing_compact h]

end Json

end ArrayLiteral
