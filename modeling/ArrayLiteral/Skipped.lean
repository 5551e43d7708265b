import ArrayLiteral.Text.Blank
import ArrayLiteral.Text.Width

/-!
# Skipped text

Two rules of the scanner give no token.  One takes a line break and counts it,
the other takes a run of the blanks that are no line breaks and counts nothing.
`Skipped.ofText` applies them up to the next lexeme.  It takes a run one
character at a time; `skipFrom_run` says that this passes the run as a whole.

The rules have their own list of characters.  `isBlank_iff` says that together
they skip the characters that `Text.trim` takes off, and `ofText_eq` that what
they skip is the longest run of these blanks.
-/

namespace ArrayLiteral

open Text (isBlank utf8Width utf8Width_cons)

/-- What is skipped at the front of a text. -/
structure Skipped where
  /-- The text from the next lexeme on. -/
  behind : List Char
  /-- How many bytes are skipped. -/
  width : Nat
  /-- How many lines are counted. -/
  lines : Nat

namespace Skipped

/-- The code points of the class `[\s--\n]`. -/
def ignoredRanges : Text.CharRanges :=
  [(0x9, 0x9), (0xb, 0xd), (0x20, 0x20), (0x85, 0x85), (0xa0, 0xa0), (0x1680, 0x1680),
    (0x2000, 0x200a), (0x2028, 0x2029), (0x202f, 0x202f), (0x205f, 0x205f),
    (0x3000, 0x3000)]

def isIgnored (c : Char) : Bool :=
  ignoredRanges.contains c

/-- Skips on, behind `width` bytes and `lines` lines. -/
def skipFrom (width lines : Nat) : List Char → Skipped
  | [] => { behind := [], width, lines }
  | c :: rest =>
    if c = '\n' then skipFrom (width + 1) (lines + 1) rest
    else if isIgnored c then skipFrom (width + c.utf8Size) lines rest
    else { behind := c :: rest, width, lines }

def ofText (text : List Char) : Skipped :=
  skipFrom 0 0 text

/-! ## The blanks -/

/-- The two rules skip the blanks. -/
theorem isBlank_iff {c : Char} : isBlank c = true ↔ c = '\n' ∨ isIgnored c = true := by
  have hnewLine : c = '\n' ↔ c.toNat = 10 := by
    rw [← Char.toNat_inj]
    rfl
  simp only [isBlank, isIgnored, Text.blankRanges, ignoredRanges, Text.CharRanges.contains,
    List.any_cons, List.any_nil, Bool.or_eq_true, Bool.and_eq_true, decide_eq_true_eq, hnewLine,
    Bool.false_eq_true, or_false]
  omega

/-- No character is skipped by both rules. -/
theorem isIgnored_newLine : isIgnored '\n' = false := by decide

/-- A run of ignored characters is passed as a whole, and no line is counted. -/
theorem skipFrom_run {run : List Char} (hrun : ∀ c ∈ run, isIgnored c = true) (rest : List Char)
    (width lines : Nat) :
    skipFrom width lines (run ++ rest) = skipFrom (width + utf8Width run) lines rest := by
  induction run generalizing width with
  | nil => rfl
  | cons c run ih =>
    obtain ⟨hignored, hrun⟩ := List.forall_mem_cons.1 hrun
    have hother : c ≠ '\n' := by
      rintro rfl
      exact Bool.noConfusion (isIgnored_newLine.symm.trans hignored)
    rw [List.cons_append, skipFrom, if_neg hother, if_pos hignored, ih hrun, utf8Width_cons,
      Nat.add_assoc]

/-- What is skipped from here on is the longest run of blanks. -/
theorem skipFrom_eq (text : List Char) (width lines : Nat) :
    skipFrom width lines text =
      { behind := text.dropWhile isBlank
        width := width + utf8Width (text.takeWhile isBlank)
        lines := lines + (text.takeWhile isBlank).count '\n' } := by
  induction text generalizing width lines with
  | nil => rfl
  | cons c rest ih =>
    rw [skipFrom, List.dropWhile_cons, List.takeWhile_cons]
    split
    · rename_i hnewLine
      subst hnewLine
      have hblank := Text.isBlank_newline
      have hwidth : '\n'.utf8Size = 1 := rfl
      rw [ih, if_pos hblank, if_pos hblank, utf8Width_cons, hwidth, List.count_cons_self,
        Skipped.mk.injEq]
      exact ⟨rfl, by omega, by omega⟩
    · rename_i hother
      split
      · rename_i hignored
        have hblank : isBlank c = true := isBlank_iff.2 (.inr hignored)
        rw [ih, if_pos hblank, if_pos hblank, utf8Width_cons, List.count_cons_of_ne hother,
          Nat.add_assoc]
      · rename_i hsolid
        have hblank : ¬isBlank c = true := by
          rw [isBlank_iff, not_or]
          exact ⟨hother, hsolid⟩
        rw [if_neg hblank, if_neg hblank]
        rfl

theorem ofText_eq (text : List Char) :
    ofText text =
      { behind := text.dropWhile isBlank
        width := utf8Width (text.takeWhile isBlank)
        lines := (text.takeWhile isBlank).count '\n' } := by
  rw [ofText, skipFrom_eq, Nat.zero_add, Nat.zero_add]

end Skipped

end ArrayLiteral
