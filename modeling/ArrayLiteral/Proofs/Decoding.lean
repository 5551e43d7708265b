import Mathlib
import ArrayLiteral.Proofs.NormalForm

/-!
# Decoding from the left

A text is decoded from the left if nothing else could have been written there, whatever
stands behind it (`Decodes`).  Only a digit must not follow, because it would make a number
longer.  The digits of a number are decoded, and so is a list if its elements are, since its
separator and its closing bracket differ and start no element (`Enclosure`).
-/

namespace ArrayLiteral

/-! ## Texts and numbers -/

/-- The text does not make a number in front of it longer. -/
def EndsNumber (text : List Char) : Prop :=
  ∀ c ∈ text.head?, c.isDigit = false

theorem endsNumber_nil : EndsNumber [] := nofun

theorem endsNumber_cons {c : Char} (h : c.isDigit = false) (text : List Char) :
    EndsNumber (c :: text) := by
  intro d hmem
  cases hmem
  exact h

/-- Whatever stands behind it, the text of `x` is not that of anything else, and not a part of
it either. -/
def Decodes {α : Type} (text : α → List Char) (x : α) : Prop :=
  ∀ (y : α) {rest rest' : List Char}, EndsNumber rest → EndsNumber rest' →
    text x ++ rest = text y ++ rest' → x = y ∧ rest = rest'

/-- With nothing behind them, equal texts are texts of the same. -/
theorem injective_of_decodes {α : Type} {text : α → List Char} (h : ∀ x, Decodes text x) :
    Function.Injective text := by
  intro x y htext
  have hsame : text x ++ [] = text y ++ [] := by rw [htext]
  exact (h x y endsNumber_nil endsNumber_nil hsame).1

/-- The digits of a number end where no digit follows. -/
theorem decodes_number (value : UInt64) :
    Decodes (fun value : UInt64 => Nat.toDigits 10 value.toNat) value := by
  intro value' rest rest' hrest hrest' htext
  have hdigits : ∀ number, ∀ c ∈ Nat.toDigits 10 number, c.isDigit = true :=
    fun number c hmem => Nat.isDigit_of_mem_toDigits (by decide) (by decide) hmem
  obtain ⟨htake, hdrop⟩ := takeWhile_run (hdigits value.toNat) hrest
  obtain ⟨htake', hdrop'⟩ := takeWhile_run (hdigits value'.toNat) hrest'
  rw [htext] at htake hdrop
  have hnumber : value.toNat = value'.toNat := by
    calc value.toNat
      _ = Nat.ofDigitChars 10 (Nat.toDigits 10 value.toNat) 0 := Nat.ofDigitChars_ten_toDigits.symm
      _ = Nat.ofDigitChars 10 (Nat.toDigits 10 value'.toNat) 0 := by rw [htake.symm.trans htake']
      _ = value'.toNat := Nat.ofDigitChars_ten_toDigits
  exact ⟨UInt64.toNat_inj.1 hnumber, hdrop.symm.trans hdrop'⟩

/-! ## The first character -/

/-- The text starts with that character, or with a digit if there is none. -/
def StartsWith (opening? : Option Char) (text : List Char) : Prop :=
  ∃ first others, text = first :: others ∧
    (if first.isDigit then none else some first) = opening?

section StartsWith

variable {opening? opening?' : Option Char} {text text' rest rest' : List Char}

theorem startsWith_number (number : Nat) : StartsWith none (Nat.toDigits 10 number) := by
  obtain ⟨first, others, hdigits⟩ :=
    List.exists_cons_of_ne_nil (Nat.toDigits_ne_nil (n := number) (b := 10))
  have hfirst : first.isDigit = true :=
    Nat.isDigit_of_mem_toDigits (by decide) (by decide) (hdigits ▸ List.mem_cons_self ..)
  exact ⟨first, others, hdigits, if_pos hfirst⟩

theorem startsWith_cons {c : Char} (h : c.isDigit = false) (text : List Char) :
    StartsWith (some c) (c :: text) :=
  ⟨c, text, rfl, by rw [h]; rfl⟩

theorem StartsWith.unique (h : StartsWith opening? text) (h' : StartsWith opening?' text')
    (htext : text ++ rest = text' ++ rest') : opening? = opening?' := by
  obtain ⟨first, others, rfl, rfl⟩ := h
  obtain ⟨first', others', rfl, rfl⟩ := h'
  rw [(List.cons.inj htext).1]

theorem StartsWith.exists_ne {c : Char} (h : StartsWith opening? text) (hc : c.isDigit = false)
    (hne : opening? ≠ some c) : ∃ first others, text = first :: others ∧ first ≠ c := by
  obtain ⟨first, others, rfl, rfl⟩ := h
  refine ⟨first, others, rfl, ?_⟩
  intro hfirst
  apply hne
  rw [hfirst, hc]
  rfl

end StartsWith

/-! ## Lists -/

/-- How the elements of a list are written: a separator and a space stand between two of
them, and a bracket closes the list. -/
structure Enclosure where
  separator : Char
  space : List Char
  closing : Char
  separator_ne_closing : separator ≠ closing
  isDigit_separator : separator.isDigit = false
  isDigit_closing : closing.isDigit = false

namespace Enclosure

variable {α : Type} (enclosure : Enclosure) (text : α → List Char)

/-- The elements behind another one up to the closing bracket, in front of a text. -/
def behind (elements : List α) (rest : List Char) : List Char :=
  elements.flatMap (fun element => enclosure.separator :: (enclosure.space ++ text element)) ++
    enclosure.closing :: rest

/-- All elements up to the closing bracket, in front of a text. -/
def list (elements : List α) (rest : List Char) : List Char :=
  (enclosure.separator :: enclosure.space).intercalate (elements.map text) ++
    enclosure.closing :: rest

variable {enclosure} {text} {element : α} {elements elements' : List α} {rest rest' : List Char}

theorem behind_cons :
    enclosure.behind text (element :: elements) rest = enclosure.separator ::
      (enclosure.space ++ (text element ++ enclosure.behind text elements rest)) := by
  rw [behind, List.flatMap_cons, behind]
  simp only [List.cons_append, List.append_assoc]

theorem list_cons :
    enclosure.list text (element :: elements) rest =
      text element ++ enclosure.behind text elements rest := by
  rw [list, List.map_cons, intercalate_cons_eq, List.flatMap_map, List.append_assoc]
  rfl

theorem endsNumber_behind : EndsNumber (enclosure.behind text elements rest) := by
  cases elements with
  | nil => exact endsNumber_cons enclosure.isDigit_closing _
  | cons element elements =>
    rw [behind_cons]
    exact endsNumber_cons enclosure.isDigit_separator _

/-- The elements behind another one are decoded one by one, and end at the bracket. -/
theorem behind_inj (ih : ∀ element ∈ elements, Decodes text element)
    (h : enclosure.behind text elements rest = enclosure.behind text elements' rest') :
    elements = elements' ∧ rest = rest' := by
  induction elements generalizing elements' with
  | nil =>
    cases elements' with
    | nil => exact ⟨rfl, (List.cons.inj h).2⟩
    | cons element' elements' =>
      rw [behind_cons] at h
      exact absurd (List.cons.inj h).1.symm enclosure.separator_ne_closing
  | cons element elements ihelements =>
    cases elements' with
    | nil =>
      rw [behind_cons] at h
      exact absurd (List.cons.inj h).1 enclosure.separator_ne_closing
    | cons element' elements' =>
      rw [behind_cons, behind_cons] at h
      have htext := List.append_cancel_left (List.cons.inj h).2
      obtain ⟨rfl, hothers⟩ :=
        ih element (List.mem_cons_self ..) element' endsNumber_behind endsNumber_behind htext
      obtain ⟨rfl, hrest⟩ :=
        ihelements (fun other hmem => ih other (List.mem_cons_of_mem _ hmem)) hothers
      exact ⟨rfl, hrest⟩

/-- So are all elements of a list, if none of them starts with the bracket. -/
theorem list_inj (hfirst : ∀ x, ∃ first others, text x = first :: others ∧
      first ≠ enclosure.closing)
    (ih : ∀ element ∈ elements, Decodes text element)
    (h : enclosure.list text elements rest = enclosure.list text elements' rest') :
    elements = elements' ∧ rest = rest' := by
  cases elements with
  | nil =>
    cases elements' with
    | nil => exact ⟨rfl, (List.cons.inj h).2⟩
    | cons element' elements' =>
      obtain ⟨first, others, htext, hne⟩ := hfirst element'
      rw [list_cons, htext] at h
      exact absurd (List.cons.inj h).1.symm hne
  | cons element elements =>
    cases elements' with
    | nil =>
      obtain ⟨first, others, htext, hne⟩ := hfirst element
      rw [list_cons, htext] at h
      exact absurd (List.cons.inj h).1 hne
    | cons element' elements' =>
      rw [list_cons, list_cons] at h
      obtain ⟨rfl, hothers⟩ :=
        ih element (List.mem_cons_self ..) element' endsNumber_behind endsNumber_behind h
      obtain ⟨rfl, hrest⟩ :=
        behind_inj (fun other hmem => ih other (List.mem_cons_of_mem _ hmem)) hothers
      exact ⟨rfl, hrest⟩

end Enclosure

end ArrayLiteral
