import Mathlib
import ArrayLiteral.Proofs.Companions
import ArrayLiteral.Proofs.Layout

/-!
# Parsing a source with a gap

A parser sees its source through tokens, and decides by what they are and never by where they
are.  So a reader in the source with a gap is a companion of the reader that is abreast of it
in the source without one: it has the same symbols, and its tokens and errors are moved
(`lawful_withGap`).  A builder is never shown a token, so every builder goes along.

With the tokens of the source, which are moved likewise, this settles all three modes
(`parse_gap`).
-/

namespace ArrayLiteral

open Text

/-- The second reader is at the place of the first one, in the source with the gap. -/
structure Reader.Abreast (gap : Gap) (reader other : Reader) : Prop where
  cursor : reader.cursor.Abreast gap other.cursor
  lookahead_eq : other.lookahead = gap.token reader.lookahead
  consumed_eq : other.consumed = reader.consumed.map gap.token
  limits_eq : other.limits = reader.limits
  depth_eq : other.depth = reader.depth

/-- The reader that is abreast. It never fails alone. -/
def Companion.withGap (gap : Gap) : Companion where
  readers := Reader.Abreast gap
  token := gap.token
  error := gap.error
  excused _ := False

open Parsing

section Gap

variable {gap : Gap}

/-- Pulls are abreast, whether they give a token or fail. -/
theorem matches_consume_withGap {reader other : Reader} (h : reader.Abreast gap other) :
    (Companion.withGap gap).Matches gap.token (Reading.consume reader) (Reading.consume other) := by
  obtain ⟨hreport, hbehind⟩ := h.cursor.next
  unfold Reading.consume
  rcases hnext : reader.cursor.next with ⟨result, cursor⟩
  rcases hother : other.cursor.next with ⟨result', cursor'⟩
  rw [hnext, hother] at hreport hbehind
  cases result with
  | ok lookahead =>
    cases hreport
    rw [h.lookahead_eq]
    refine .ok _ _ _ ⟨hbehind, rfl, ?_, h.limits_eq, h.depth_eq⟩
    rw [h.consumed_eq, List.map_cons]
  | error error =>
    cases hreport
    exact .error _ _ _ ⟨hbehind, h.lookahead_eq, h.consumed_eq, h.limits_eq, h.depth_eq⟩

theorem lawful_withGap (gap : Gap) : (Companion.withGap gap).Lawful where
  symbol_token := gap.symbol_token
  error_grammar _ _ := rfl
  lookahead_eq h := h.lookahead_eq
  depth_eq h := h.depth_eq
  withDepth h _ := ⟨h.cursor, h.lookahead_eq, h.consumed_eq, h.limits_eq, rfl⟩
  limits h := .inl h.limits_eq
  consume := matches_consume_withGap

/-- Opening a reader on the two sources. -/
theorem opens_withGap {source source' : String} (limits : Limits)
    (h : Cursor.Abreast gap (.ofString source) (.ofString source')) :
    Opens (.withGap gap) source limits source' limits := by
  obtain ⟨hreport, hbehind⟩ := h.next
  rcases hnext : (Cursor.ofString source).next with ⟨result, cursor⟩
  rcases hother : (Cursor.ofString source').next with ⟨result', cursor'⟩
  rw [hnext, hother] at hreport hbehind
  cases result with
  | ok lookahead =>
    cases hreport
    exact opens_of_next hnext hother (.inl ⟨_, _, rfl, rfl, hbehind, rfl, rfl, rfl, rfl⟩)
  | error error =>
    cases hreport
    exact opens_of_next hnext hother (.inr ⟨_, _, rfl, rfl, rfl⟩)

/-- In the same state a builder does the same. -/
theorem accompanied_withGap {σ α γ : Type} (builder : Builder σ α γ) :
    builder.Accompanied (.withGap gap) Eq where
  add_ok := by
    rintro state _ after item aggregate aggregate' rfl hadd
    exact ⟨after, hadd, rfl⟩
  add_error := by
    rintro state _ after item aggregate left refusal rfl hadd
    exact .inr ⟨after, left, hadd, rfl⟩

theorem parseWhole_gap {σ α γ : Type} {source source' : String} (builder : Builder σ α γ)
    (state : σ) (limits : Limits)
    (h : Cursor.Abreast gap (.ofString source) (.ofString source')) :
    (parseWhole builder state limits source').map Prod.fst =
      ((parseWhole builder state limits source).mapError gap.error).map Prod.fst := by
  rcases parseWhole_accompanied (lawful_withGap gap) (accompanied_withGap builder)
    (opens_withGap limits h) rfl with ⟨error, -, hnever⟩ | hsame
  · exact hnever.elim
  · exact hsame

end Gap

theorem map_map_mapError {α β : Type} (gap : Gap) (result : Except Error (α × β))
    (output : α → Output) (h : ∀ value, gap.output (output value) = output value) :
    ((result.mapError gap.error).map Prod.fst).map output =
      gap.result ((result.map Prod.fst).map output) := by
  cases result with
  | ok made => exact congrArg Except.ok (h made.1).symm
  | error error => rfl

/-- Blanks that are put in between two texts, where no run of digits or dots goes on, do
not matter to any mode. The value or the literal is the same, or the tokens are, or the
error is, but for the places of tokens and errors that start behind the blanks. These
are moved by their width, and by the line breaks among them. -/
theorem parse_gap (mode : Mode) (limits : Limits) (front blanks behind : String)
    (hblank : ∀ c ∈ blanks.toList, isBlank c = true)
    (hdigits : Apart Char.isDigit front.toList behind.toList)
    (hdots : Apart Lexeme.isDot front.toList behind.toList) :
    let gap : Gap := ⟨front.utf8ByteSize, blanks.toList, hblank⟩
    parse mode limits (front ++ blanks ++ behind) =
      gap.result (parse mode limits (front ++ behind)) := by
  intro gap
  have habreast : Cursor.Abreast gap _ _ := .ofString hdigits hdots hblank
  cases mode with
  | array =>
    unfold parse parseArray
    rw [parseWhole_gap _ _ _ habreast]
    exact map_map_mapError gap _ _ fun _ => rfl
  | ast =>
    unfold parse parseLiteral
    rw [parseWhole_gap _ _ _ habreast]
    exact map_map_mapError gap _ _ fun _ => rfl
  | tokens =>
    unfold parse
    have htokens := tokenize_gap hdigits hdots hblank
    dsimp only at htokens ⊢
    rw [htokens]
    cases tokenize (front ++ behind) with
    | ok tokens => rfl
    | error error => rfl

/-- A comma is the trailing one with the brace on the next line too, and the brace is then
two bytes and one line further on. -/
theorem parse_gap_newline :
    parse .tokens {} ("\x7b1," ++ "\n " ++ "\x7d") = .ok (.tokens [
      { symbol := .mark .leftCurly, lexeme := "\x7b", start := 0, stop := 1, line := 1 },
      { symbol := .number 1, lexeme := "1", start := 1, stop := 2, line := 1 },
      { symbol := .mark .endComma, lexeme := ",", start := 2, stop := 3, line := 1 },
      { symbol := .mark .rightCurly, lexeme := "\x7d", start := 5, stop := 6, line := 2 }]) := by
  have hparse : parse .tokens {} ("\x7b1," ++ "\x7d") = .ok (.tokens [
      { symbol := .mark .leftCurly, lexeme := "\x7b", start := 0, stop := 1, line := 1 },
      { symbol := .number 1, lexeme := "1", start := 1, stop := 2, line := 1 },
      { symbol := .mark .endComma, lexeme := ",", start := 2, stop := 3, line := 1 },
      { symbol := .mark .rightCurly, lexeme := "\x7d", start := 3, stop := 4, line := 1 }]) := by
    cbv
  have hblank : ∀ c ∈ "\n ".toList, isBlank c = true :=
    List.forall_mem_cons.2 ⟨isBlank_newline, List.forall_mem_singleton.2 rfl⟩
  have hapart : ∀ p : Char → Bool, p ',' = false → Apart p "\x7b1,".toList "\x7d".toList := by
    intro p hcomma c hlast hp
    have hsame : c = ',' := Option.some.inj (hlast.symm.trans (by cbv))
    rw [hsame, hcomma] at hp
    cases hp
  rw [parse_gap .tokens {} "\x7b1," "\n " "\x7d" hblank (hapart _ rfl) (hapart _ rfl), hparse]
  rfl

end ArrayLiteral
