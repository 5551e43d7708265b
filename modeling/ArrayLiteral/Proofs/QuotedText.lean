import Mathlib
import ArrayLiteral.Json
import ArrayLiteral.Json.Scan

/-!
# Quoted texts

A JSON string is written between quotes.  Most characters stand there as they are
(`isPlain`), and the others are written as a backslash and a code.  A code is never the
beginning of another one, and no character is written so that it starts with a quote.  So
the scanner of JSON strings reads every text back from its quoted form, whatever stands
behind it (`reads_quote`).
-/

namespace ArrayLiteral.Json

/-! ## Between the quotes -/

/-- The characters of a text as they stand between the quotes. -/
def escaped (text : List Char) : List Char :=
  text.flatMap fun c => (escape c).toList

theorem toList_quote (text : String) :
    (quote text).toList = '"' :: (escaped text.toList ++ ['"']) := by
  rw [quote, String.toList_append, String.toList_append, String.toList_join, List.flatMap_map]
  rfl

/-- The character stands in a string as it is. -/
def isPlain (c : Char) : Bool :=
  c ≠ '"' && c ≠ '\\' && ' ' ≤ c

theorem isPlain_iff {c : Char} : isPlain c = true ↔ c ≠ '"' ∧ c ≠ '\\' ∧ ¬ c < ' ' := by
  simp [isPlain, and_assoc]

theorem toList_escape_of_isPlain {c : Char} (h : isPlain c = true) :
    (escape c).toList = [c] := by
  have hcontrol : ¬ c.toNat < 0x20 := (isPlain_iff.1 h).2.2
  unfold escape
  split
  all_goals first | cases h | skip
  rw [if_neg hcontrol, String.toList_singleton]

/-! ## Reading a character -/

namespace Scan

/-- The scan reads the value off the front of the text, and leaves the rest. -/
def Reads {α : Type} (scan : Scan α) (text : List Char) (value : α) (rest : List Char) : Prop :=
  ∃ h, scan text = .ok { value, rest, rest_le := h }

theorem Reads.unique {α : Type} {scan : Scan α} {text rest rest' : List Char} {value value' : α}
    (h : Reads scan text value rest) (h' : Reads scan text value' rest') :
    value = value' ∧ rest = rest' := by
  obtain ⟨hle, hscan⟩ := h
  obtain ⟨hle', hscan'⟩ := h'
  rw [hscan] at hscan'
  cases hscan'
  exact ⟨rfl, rfl⟩

/-- A control character is written as a backslash and a code, which is read back. -/
theorem exists_code_of_control {n : Nat} (h : n < 0x20) :
    ∃ code, (Json.escape (.ofNat n)).toList = '\\' :: code ∧
      ∀ more, Reads (escape true) (code ++ more) (.ofNat n) more := by
  interval_cases n <;> exact ⟨_, rfl, fun more => ⟨(List.suffix_append _ more).length_le, rfl⟩⟩

/-- So is every character that is not plain. -/
theorem exists_code {c : Char} (h : isPlain c = false) :
    ∃ code, (Json.escape c).toList = '\\' :: code ∧
      ∀ more, Reads (escape true) (code ++ more) c more := by
  by_cases hcontrol : c < ' '
  · have hcode := exists_code_of_control (n := c.toNat) hcontrol
    rwa [Char.ofNat_toNat] at hcode
  · by_cases hquote : c = '"'
    · subst hquote
      exact ⟨['"'], rfl, fun more => ⟨Nat.le_succ _, rfl⟩⟩
    · by_cases hbackslash : c = '\\'
      · subst hbackslash
        exact ⟨['\\'], rfl, fun more => ⟨Nat.le_succ _, rfl⟩⟩
      · rw [isPlain_iff.2 ⟨hquote, hbackslash, hcontrol⟩] at h
        cases h

variable {found more text rest : List Char} {c : Char} {string : String}

theorem reads_plain (hplain : isPlain c = true)
    (h : Reads (stringOnto true (c :: found)) more string rest) :
    Reads (stringOnto true found) (c :: more) string rest := by
  obtain ⟨hquote, hbackslash, hcontrol⟩ := isPlain_iff.1 hplain
  obtain ⟨hle, hmore⟩ := h
  refine ⟨Nat.le_succ_of_le hle, ?_⟩
  rw [stringOnto, if_neg hcontrol, hmore]
  · rfl
  · exact hquote
  · exact hbackslash

theorem reads_code (hcode : Reads (escape true) text c more)
    (h : Reads (stringOnto true (c :: found)) more string rest) :
    Reads (stringOnto true found) ('\\' :: text) string rest := by
  obtain ⟨hle, hcode⟩ := hcode
  obtain ⟨hle', hmore⟩ := h
  refine ⟨Nat.le_succ_of_le (Nat.le_trans hle' hle), ?_⟩
  rw [stringOnto]
  simp only [hcode, hmore]
  rfl

theorem reads_escape (h : Reads (stringOnto true (c :: found)) more string rest) :
    Reads (stringOnto true found) ((Json.escape c).toList ++ more) string rest := by
  cases hplain : isPlain c with
  | true =>
    rw [toList_escape_of_isPlain hplain]
    exact reads_plain hplain h
  | false =>
    obtain ⟨code, hescape, hcode⟩ := exists_code hplain
    rw [hescape]
    exact reads_code (hcode more) h

/-! ## Reading a string -/

theorem reads_quote_end (found rest : List Char) :
    Reads (stringOnto true found) ('"' :: rest) (.ofList found.reverse) rest := by
  refine ⟨Nat.le_succ _, ?_⟩
  rw [stringOnto]

theorem reads_escaped (found text rest : List Char) :
    Reads (stringOnto true found) (escaped text ++ '"' :: rest)
      (.ofList (found.reverse ++ text)) rest := by
  induction text generalizing found with
  | nil =>
    rw [List.append_nil]
    exact reads_quote_end found rest
  | cons c text ih =>
    have hmore := ih (c :: found)
    rw [List.reverse_cons, List.append_assoc] at hmore
    have h := reads_escape hmore
    rwa [← List.append_assoc] at h

/-- A string is read back from its quoted form, whatever stands behind it. -/
theorem reads_quote (text : String) (rest : List Char) :
    Reads Scan.string (escaped text.toList ++ '"' :: rest) text rest := by
  have h := reads_escaped [] text.toList rest
  rwa [List.reverse_nil, List.nil_append, String.ofList_toList] at h

end Scan
end ArrayLiteral.Json
