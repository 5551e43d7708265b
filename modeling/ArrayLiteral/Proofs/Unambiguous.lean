import Mathlib
import ArrayLiteral.Tree
import ArrayLiteral.Value
import ArrayLiteral.Proofs.Decoding
import ArrayLiteral.Proofs.QuotedText

/-!
# Unambiguous texts

Values, trees and JSON documents are told apart by their texts.  The first character tells
what kind of text it is, and by induction the rest is decoded from the left, at any depth
(`Value.decodes_display`, `Tree.decodes_display`, `Json.decodes_compact`).  No two values or
trees are printed alike, not even as JSON (`display_and_compact_injective`).
-/

namespace ArrayLiteral

/-! ## Values -/

namespace Value

def opening? : Value → Option Char
  | integer _ => none
  | array _ => some '['

def enclosure : Enclosure where
  separator := ','
  space := [' ']
  closing := ']'
  separator_ne_closing := by decide
  isDigit_separator := rfl
  isDigit_closing := rfl

theorem toList_display_array (elements : List Value) (rest : List Char) :
    (array elements).display.toList ++ rest =
      '[' :: enclosure.list (fun element => element.display.toList) elements rest := by
  rw [display_array, String.toList_append, String.toList_append, String.toList_intercalate,
    List.map_map, Enclosure.list]
  simp only [List.append_assoc]
  rfl

theorem startsWith_display (value : Value) : StartsWith value.opening? value.display.toList := by
  cases value with
  | integer value =>
    rw [toList_display_integer]
    exact startsWith_number value.toNat
  | array elements =>
    rw [← List.append_nil (array elements).display.toList, toList_display_array]
    exact startsWith_cons rfl _

theorem decodes_display (value : Value) :
    Decodes (fun value : Value => value.display.toList) value := by
  induction value using Value.induction with
  | integer value =>
    intro value' rest rest' hrest hrest' htext
    have hopening := (startsWith_display _).unique (startsWith_display _) htext
    cases value' with
    | array elements' => cases hopening
    | integer value' =>
      simp only [toList_display_integer] at htext
      obtain ⟨rfl, hrest⟩ := decodes_number value value' hrest hrest' htext
      exact ⟨rfl, hrest⟩
  | array elements ih =>
    intro value' rest rest' hrest hrest' htext
    have hopening := (startsWith_display _).unique (startsWith_display _) htext
    cases value' with
    | integer value' => cases hopening
    | array elements' =>
      simp only [toList_display_array] at htext
      have hfirst : ∀ element : Value, ∃ first others, element.display.toList = first :: others ∧
          first ≠ ']' := by
        intro element
        refine (startsWith_display element).exists_ne rfl ?_
        cases element <;> nofun
      obtain ⟨rfl, hrest⟩ := Enclosure.list_inj hfirst ih (List.cons.inj htext).2
      exact ⟨rfl, hrest⟩

end Value

/-! ## Trees -/

theorem Tag.name_injective : Function.Injective Tag.name := by
  intro tag tag' h
  cases tag <;> cases tag' <;> first | rfl | exact absurd h (by decide)

/-- The name of a tag ends where no letter follows. -/
theorem Tag.name_inj {tag tag' : Tag} {rest rest' : List Char}
    (hrest : ∀ c ∈ rest.head?, c.isAlpha = false) (hrest' : ∀ c ∈ rest'.head?, c.isAlpha = false)
    (h : tag.name.toList ++ rest = tag'.name.toList ++ rest') : tag = tag' ∧ rest = rest' := by
  have hletters : ∀ tag : Tag, ∀ c ∈ tag.name.toList, c.isAlpha = true := by
    intro tag
    cases tag <;> simp [Tag.name]
  obtain ⟨htake, hdrop⟩ := takeWhile_run (hletters tag) hrest
  obtain ⟨htake', hdrop'⟩ := takeWhile_run (hletters tag') hrest'
  rw [h] at htake hdrop
  have hname : tag.name = tag'.name := String.toList_inj.1 (htake.symm.trans htake')
  exact ⟨Tag.name_injective hname, hdrop.symm.trans hdrop'⟩

namespace Tree

def opening? : Tree → Option Char
  | leaf _ => none
  | node _ _ => some '('

def enclosure : Enclosure where
  separator := ' '
  space := []
  closing := ')'
  separator_ne_closing := by decide
  isDigit_separator := rfl
  isDigit_closing := rfl

theorem toList_display_leaf (value : UInt64) :
    (leaf value).display.toList = Nat.toDigits 10 value.toNat := by
  rw [display_leaf]
  simp [toString]

theorem toList_display_node (tag : Tag) (children : List Tree) (rest : List Char) :
    (node tag children).display.toList ++ rest =
      '(' :: (tag.name.toList ++
        enclosure.behind (fun child => child.display.toList) children rest) := by
  rw [display_node, String.toList_append, String.toList_append, String.toList_intercalate,
    List.map_cons, List.map_map, intercalate_cons_eq, List.flatMap_map, Enclosure.behind]
  simp only [List.append_assoc]
  rfl

theorem isAlpha_of_behind {children : List Tree} {rest : List Char} :
    ∀ c ∈ (enclosure.behind (fun child : Tree => child.display.toList) children rest).head?,
      c.isAlpha = false := by
  cases children with
  | nil =>
    rintro c ⟨⟩
    rfl
  | cons child children =>
    rw [Enclosure.behind_cons]
    rintro c ⟨⟩
    rfl

theorem startsWith_display (tree : Tree) : StartsWith tree.opening? tree.display.toList := by
  cases tree with
  | leaf value =>
    rw [toList_display_leaf]
    exact startsWith_number value.toNat
  | node tag children =>
    rw [← List.append_nil (node tag children).display.toList, toList_display_node]
    exact startsWith_cons rfl _

theorem decodes_display (tree : Tree) : Decodes (fun tree : Tree => tree.display.toList) tree := by
  induction tree using Tree.induction with
  | leaf value =>
    intro tree' rest rest' hrest hrest' htext
    have hopening := (startsWith_display _).unique (startsWith_display _) htext
    cases tree' with
    | node tag' children' => cases hopening
    | leaf value' =>
      simp only [toList_display_leaf] at htext
      obtain ⟨rfl, hrest⟩ := decodes_number value value' hrest hrest' htext
      exact ⟨rfl, hrest⟩
  | node tag children ih =>
    intro tree' rest rest' hrest hrest' htext
    have hopening := (startsWith_display _).unique (startsWith_display _) htext
    cases tree' with
    | leaf value' => cases hopening
    | node tag' children' =>
      simp only [toList_display_node] at htext
      obtain ⟨rfl, hchildren⟩ := Tag.name_inj isAlpha_of_behind isAlpha_of_behind
        (List.cons.inj htext).2
      obtain ⟨rfl, hrest⟩ := Enclosure.behind_inj ih hchildren
      exact ⟨rfl, hrest⟩

end Tree

/-! ## JSON documents -/

namespace Json

def opening? : Json → Option Char
  | number _ => none
  | string _ => some '"'
  | array _ => some '['
  | object _ => some '{'

def elementEnclosure : Enclosure where
  separator := ','
  space := []
  closing := ']'
  separator_ne_closing := by decide
  isDigit_separator := rfl
  isDigit_closing := rfl

def fieldEnclosure : Enclosure where
  separator := ','
  space := []
  closing := '}'
  separator_ne_closing := by decide
  isDigit_separator := rfl
  isDigit_closing := rfl

/-- The name of a field in quotes, a colon, and its value. -/
def fieldChars (field : String × Json) : List Char :=
  (quote field.1).toList ++ ':' :: field.2.compact.toList

theorem toList_compact_number (value : UInt64) :
    (number value).compact.toList = Nat.toDigits 10 value.toNat := by
  rw [compact_number]
  simp [toString]

theorem toList_compact_array (elements : List Json) (rest : List Char) :
    (array elements).compact.toList ++ rest =
      '[' :: elementEnclosure.list (fun element => element.compact.toList) elements rest := by
  rw [compact_array, String.toList_append, String.toList_append, String.toList_intercalate,
    List.map_map, Enclosure.list]
  simp only [List.append_assoc]
  rfl

theorem toList_compact_object (fields : List (String × Json)) (rest : List Char) :
    (object fields).compact.toList ++ rest = '{' :: fieldEnclosure.list fieldChars fields rest := by
  rw [compact_object, String.toList_append, String.toList_append, String.toList_intercalate,
    List.map_map, Enclosure.list]
  have hfield : String.toList ∘ (fun field : String × Json =>
      quote field.1 ++ ":" ++ field.2.compact) = fieldChars := by
    funext field
    simp [fieldChars]
  rw [hfield, List.append_assoc]
  rfl

theorem startsWith_compact (document : Json) :
    StartsWith document.opening? document.compact.toList := by
  cases document with
  | number value =>
    rw [toList_compact_number]
    exact startsWith_number value.toNat
  | string text =>
    rw [compact_string, toList_quote]
    exact startsWith_cons rfl _
  | array elements =>
    rw [← List.append_nil (array elements).compact.toList, toList_compact_array]
    exact startsWith_cons rfl _
  | object fields =>
    rw [← List.append_nil (object fields).compact.toList, toList_compact_object]
    exact startsWith_cons rfl _

/-- A text in quotes ends at the closing quote. -/
theorem quote_inj {text text' : String} {rest rest' : List Char}
    (h : (quote text).toList ++ rest = (quote text').toList ++ rest') :
    text = text' ∧ rest = rest' := by
  rw [toList_quote, toList_quote] at h
  simp only [List.cons_append, List.append_assoc, List.nil_append] at h
  have hreads := Scan.reads_quote text rest
  rw [(List.cons.inj h).2] at hreads
  exact hreads.unique (Scan.reads_quote text' rest')

theorem decodes_field {field : String × Json}
    (h : Decodes (fun document : Json => document.compact.toList) field.2) :
    Decodes fieldChars field := by
  intro field' rest rest' hrest hrest' htext
  rw [fieldChars, fieldChars, List.append_assoc, List.append_assoc] at htext
  obtain ⟨hname, hvalue⟩ := quote_inj htext
  obtain ⟨hdocument, hrest⟩ := h field'.2 hrest hrest' (List.cons.inj hvalue).2
  exact ⟨Prod.ext hname hdocument, hrest⟩

/-- A document is told by its compact form. -/
theorem decodes_compact (document : Json) :
    Decodes (fun document : Json => document.compact.toList) document := by
  induction document using Json.induction with
  | number value =>
    intro document' rest rest' hrest hrest' htext
    have hopening := (startsWith_compact _).unique (startsWith_compact _) htext
    cases document' with
    | number value' =>
      simp only [toList_compact_number] at htext
      obtain ⟨rfl, hrest⟩ := decodes_number value value' hrest hrest' htext
      exact ⟨rfl, hrest⟩
    | _ => cases hopening
  | string text =>
    intro document' rest rest' hrest hrest' htext
    have hopening := (startsWith_compact _).unique (startsWith_compact _) htext
    cases document' with
    | string text' =>
      simp only [compact_string] at htext
      obtain ⟨rfl, hrest⟩ := quote_inj htext
      exact ⟨rfl, hrest⟩
    | _ => cases hopening
  | array elements ih =>
    intro document' rest rest' hrest hrest' htext
    have hopening := (startsWith_compact _).unique (startsWith_compact _) htext
    cases document' with
    | array elements' =>
      simp only [toList_compact_array] at htext
      have hfirst : ∀ element : Json, ∃ first others, element.compact.toList = first :: others ∧
          first ≠ ']' := by
        intro element
        refine (startsWith_compact element).exists_ne rfl ?_
        cases element <;> simp [opening?]
      obtain ⟨rfl, hrest⟩ := Enclosure.list_inj hfirst ih (List.cons.inj htext).2
      exact ⟨rfl, hrest⟩
    | _ => cases hopening
  | object fields ih =>
    intro document' rest rest' hrest hrest' htext
    have hopening := (startsWith_compact _).unique (startsWith_compact _) htext
    cases document' with
    | object fields' =>
      simp only [toList_compact_object] at htext
      have hfirst : ∀ field : String × Json, ∃ first others, fieldChars field = first :: others ∧
          first ≠ '}' := by
        intro field
        rw [fieldChars, toList_quote]
        exact ⟨_, _, rfl, by decide⟩
      obtain ⟨rfl, hrest⟩ := Enclosure.list_inj hfirst
        (fun field hmem => decodes_field (ih field hmem)) (List.cons.inj htext).2
      exact ⟨rfl, hrest⟩
    | _ => cases hopening

theorem compact_injective : Function.Injective compact := by
  intro document document' h
  have htext := congrArg String.toList h
  exact injective_of_decodes decodes_compact htext

end Json

/-! ## Values and trees as documents -/

/-- A list is told by the images of its elements, if each of these is told by its image. -/
theorem eq_of_map_eq {α β : Type} {f : α → β} {elements elements' : List α}
    (ih : ∀ element ∈ elements, ∀ element', f element = f element' → element = element')
    (h : elements.map f = elements'.map f) : elements = elements' := by
  induction elements generalizing elements' with
  | nil => exact (List.map_eq_nil_iff.1 h.symm).symm
  | cons element elements ihelements =>
    cases elements' with
    | nil => cases h
    | cons element' elements' =>
      obtain ⟨helement, helements⟩ := List.cons.inj h
      rw [ih element (List.mem_cons_self ..) element' helement,
        ihelements (fun other hmem => ih other (List.mem_cons_of_mem _ hmem)) helements]

theorem Value.toJson_injective : Function.Injective toJson := by
  intro value
  induction value using Value.induction with
  | integer value =>
    intro value' h
    cases value' with
    | integer value' =>
      rw [toJson_integer, toJson_integer] at h
      rw [Json.number.inj h]
    | array elements' =>
      rw [toJson_integer, toJson_array] at h
      cases h
  | array elements ih =>
    intro value' h
    cases value' with
    | integer value' =>
      rw [toJson_array, toJson_integer] at h
      cases h
    | array elements' =>
      rw [toJson_array, toJson_array] at h
      rw [eq_of_map_eq ih (Json.array.inj h)]

theorem Tree.toJson_injective : Function.Injective toJson := by
  intro tree
  induction tree using Tree.induction with
  | leaf value =>
    intro tree' h
    cases tree' with
    | leaf value' =>
      rw [toJson_leaf, toJson_leaf] at h
      rw [Json.number.inj h]
    | node tag' children' =>
      rw [toJson_leaf, toJson_node] at h
      cases h
  | node tag children ih =>
    intro tree' h
    cases tree' with
    | leaf value' =>
      rw [toJson_node, toJson_leaf] at h
      cases h
    | node tag' children' =>
      rw [toJson_node, toJson_node] at h
      simp only [Json.object.injEq, Json.string.injEq, Json.array.injEq, List.cons.injEq,
        Prod.mk.injEq, true_and, and_true] at h
      rw [Tag.name_injective h.1, eq_of_map_eq ih h.2]

/-- Values and trees are told by their texts, and by the compact JSON texts of them. -/
theorem display_and_compact_injective :
    Function.Injective Value.display ∧
      Function.Injective (fun value : Value => value.toJson.compact) ∧
      Function.Injective Tree.display ∧
      Function.Injective (fun tree : Tree => tree.toJson.compact) := by
  refine ⟨?_, Json.compact_injective.comp Value.toJson_injective, ?_,
    Json.compact_injective.comp Tree.toJson_injective⟩
  · intro value value' h
    exact injective_of_decodes Value.decodes_display (congrArg String.toList h)
  · intro tree tree' h
    exact injective_of_decodes Tree.decodes_display (congrArg String.toList h)

end ArrayLiteral
