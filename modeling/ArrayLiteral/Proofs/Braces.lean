import ArrayLiteral.Proofs.Commas
import ArrayLiteral.Proofs.Pieces

/-!
# Braces of a source

How deeply the braces of a source nest can be told from its text, without splitting it
into tokens: one counts the braces that are open.  `braceNesting` is the highest count.

The braces of a text are those of its tokens, as no other lexeme has a brace in it
(`Cursor.braces_scan`).  For the word of a derivation the count is as high as the derivation is
deep (`Derivation.nestsInside`), so for a source with a derivation it is that too
(`braceNesting_eq_depth`).
-/

namespace ArrayLiteral

open Text

inductive Brace
  | opening
  | closing

namespace Brace

def ofChar? : Char → Option Brace
  | '{' => some opening
  | '}' => some closing
  | _ => none

def ofSymbol? : Symbol → Option Brace
  | .mark .leftCurly => some opening
  | .mark .rightCurly => some closing
  | _ => none

/-- The largest number of braces that are open at once, where `outer` are open at the start. -/
def nesting (outer : Nat) : List Brace → Nat
  | [] => outer
  | opening :: braces => nesting (outer + 1) braces
  | closing :: braces => max outer (nesting (outer - 1) braces)

theorem ofChar?_eq_none {c : Char} (hopening : c ≠ '{') (hclosing : c ≠ '}') :
    ofChar? c = none := by
  unfold ofChar?
  split
  · exact absurd rfl hopening
  · exact absurd rfl hclosing
  · rfl

/-- A character of a kind that has no brace in it is none. -/
theorem filterMap_ofChar?_eq_nil {p : Char → Bool} {text : List Char}
    (hopening : p '{' = false) (hclosing : p '}' = false) (htext : ∀ c ∈ text, p c = true) :
    text.filterMap ofChar? = [] := by
  rw [List.filterMap_eq_nil_iff]
  intro c hmem
  apply ofChar?_eq_none
  · rintro rfl
    rw [htext _ hmem] at hopening
    cases hopening
  · rintro rfl
    rw [htext _ hmem] at hclosing
    cases hclosing

theorem le_nesting (outer : Nat) (braces : List Brace) : outer ≤ nesting outer braces := by
  induction braces generalizing outer with
  | nil => exact Nat.le_refl _
  | cons brace braces ih =>
    cases brace with
    | opening => exact Nat.le_trans (Nat.le_succ outer) (ih (outer + 1))
    | closing => exact Nat.le_max_left _ _

end Brace

/-- The largest number of braces that are open at once in the text of a source. -/
def braceNesting (source : String) : Nat :=
  Brace.nesting 0 (source.toList.filterMap Brace.ofChar?)

/-- The braces among some symbols. -/
def braces (symbols : List Symbol) : List Brace :=
  symbols.filterMap Brace.ofSymbol?

@[simp] theorem braces_append (front back : List Symbol) :
    braces (front ++ back) = braces front ++ braces back :=
  List.filterMap_append

/-! ## Braces of tokens -/

namespace Lexeme

variable {first : Char} {rest lexeme behind : List Char} {symbol : Symbol}

/-- A lexeme has a brace in it exactly if it is one. -/
theorem braces_of_readSymbol (hmunch : munch first rest = (lexeme, behind))
    (hread : readSymbol first lexeme behind = .ok symbol) :
    lexeme.filterMap Brace.ofChar? = braces [symbol] := by
  unfold readSymbol at hread
  rcases munch_cases first rest with ⟨hdigit, h⟩ | ⟨hdigit, hdot, h⟩ | ⟨hdigit, hdot, h⟩
  · rw [hmunch] at h
    cases h
    rw [if_pos hdigit] at hread
    obtain ⟨value, rfl⟩ := exists_number_of_readNumber hread
    exact Brace.filterMap_ofChar?_eq_nil rfl rfl (all_run rest hdigit)
  · rw [hmunch] at h
    cases h
    rw [if_neg (by rw [hdigit]; nofun), if_pos hdot] at hread
    rw [eq_range_of_readRange hread]
    exact Brace.filterMap_ofChar?_eq_nil rfl rfl (all_run rest hdot)
  · rw [hmunch] at h
    cases h
    rw [if_neg (by rw [hdigit]; nofun), if_neg (by rw [hdot]; nofun)] at hread
    split at hread <;> cases hread
    · rfl
    · -- Of the two kinds of commas neither is a brace.
      split <;> rfl
    all_goals rfl

end Lexeme

/-- The braces of a text without lexical errors are those of its tokens. -/
theorem Cursor.braces_scan (cursor : Cursor) (hfault : cursor.scan.fault? = none) :
    cursor.rest.filterMap Brace.ofChar? = braces (cursor.scan.tokens.map Token.symbol) := by
  have hskip : ∀ cursor : Cursor, cursor.rest.filterMap Brace.ofChar? =
      (cursor.rest.dropWhile isBlank).filterMap Brace.ofChar? := by
    intro cursor
    have hblanks : (cursor.rest.takeWhile isBlank).filterMap Brace.ofChar? = [] :=
      Brace.filterMap_ofChar?_eq_nil (by decide) (by decide)
        (List.all_eq_true.1 List.all_takeWhile)
    have hsplit := List.takeWhile_append_dropWhile (p := isBlank) (l := cursor.rest)
    rw [← hsplit, List.filterMap_append, hblanks, List.nil_append, hsplit]
  rw [hskip]
  fun_induction Cursor.scan cursor with
  | case1 => cases hfault
  | case2 cursor token after hnext hend =>
    obtain ⟨rfl, hnil, -⟩ := Cursor.eq_of_next_isEof hnext hend
    rw [← cursor.skipBlanks_rest, hnil]
    rfl
  | case3 cursor token after hnext hend ih =>
    obtain ⟨first, lexeme, rest, hrest, hmunch, hread⟩ :=
      Cursor.readSymbol_of_next hnext (Bool.eq_false_iff.2 hend)
    have hlexeme := Lexeme.munch_append first rest
    rw [hmunch] at hlexeme
    rw [hrest, ← hlexeme, List.filterMap_append, Lexeme.braces_of_readSymbol hmunch hread, hskip,
      ih hfault, ← braces_append]
    rfl

/-- The braces of a source that can be split into tokens. -/
theorem braces_tokenize {source : String} {tokens : List Token}
    (h : tokenize source = .ok tokens) :
    source.toList.filterMap Brace.ofChar? = braces (tokens.map Token.symbol) := by
  have hscan := tokenize_eq_ok_iff.1 h
  have hbraces := (Cursor.ofString source).braces_scan (by rw [hscan])
  rwa [hscan] at hbraces

/-! ## Braces of a word -/

namespace Derivation

/-- What is put in front of the value has no brace in it. -/
@[simp] theorem braces_targetSymbols (designator? : Option Designator) :
    braces (targetSymbols designator?) = [] := by
  rcases designator? with _ | ⟨index⟩ | ⟨start, stop⟩ <;> rfl

theorem braces_initializerWord (item : Initializer Derivation) :
    braces (initializerWord (item.map (word .endComma))) = braces (item.value.word .endComma) := by
  show braces (targetSymbols item.designator? ++ item.value.word .endComma) = _
  rw [braces_append, braces_targetSymbols, List.nil_append]

theorem braces_othersWord (items : List (Initializer Derivation)) :
    braces (othersWord (items.map (Initializer.map (word .endComma)))) =
      items.flatMap fun item => braces (item.value.word .endComma) := by
  induction items with
  | nil => rfl
  | cons item items ih =>
    rw [List.map_cons, othersWord_cons, List.flatMap_cons, ← ih, ← braces_initializerWord item,
      ← braces_append]
    rfl

/-- Apart from the braces around it, a list has the braces of its values. -/
theorem braces_word_list (first : Initializer Derivation) (others : List (Initializer Derivation))
    (trailing : Bool) :
    braces ((list first others trailing).word .endComma) =
      .opening :: ((first :: others).flatMap fun item => braces (item.value.word .endComma)) ++
        [.closing] := by
  have hclosing : braces (closingWord .endComma trailing) = [.closing] := by
    cases trailing <;> rfl
  rw [word_list, List.flatMap_cons, ← braces_othersWord, ← braces_initializerWord first, ← hclosing,
    ← braces_append]
  show Brace.opening :: braces _ = Brace.opening :: (braces _ ++ braces _)
  rw [← braces_append]

/-- The count behind a value is what it was before, and inside it is higher by the depth. -/
def NestsInside (derivation : Derivation) : Prop :=
  ∀ outer limit rest,
    Brace.nesting outer (braces (derivation.word .endComma) ++ rest) ≤ limit ↔
      outer + derivation.depth ≤ limit ∧ Brace.nesting outer rest ≤ limit

theorem nesting_items_le_iff {items : List (Initializer Derivation)}
    (h : ∀ item ∈ items, item.value.NestsInside) (outer limit : Nat) (rest : List Brace) :
    Brace.nesting outer
        ((items.flatMap fun item => braces (item.value.word .endComma)) ++ rest) ≤ limit ↔
      (∀ item ∈ items, outer + item.value.depth ≤ limit) ∧ Brace.nesting outer rest ≤ limit := by
  induction items with
  | nil => simp
  | cons item items ih =>
    obtain ⟨hitem, hitems⟩ := List.forall_mem_cons.1 h
    rw [List.flatMap_cons, List.append_assoc, hitem, ih hitems, List.forall_mem_cons, and_assoc]

theorem nestsInside (derivation : Derivation) : derivation.NestsInside := by
  induction derivation using Derivation.induction with
  | number value =>
    intro outer limit rest
    have hle := Brace.le_nesting outer rest
    rw [word_number, depth_number]
    show Brace.nesting outer rest ≤ limit ↔ _
    omega
  | empty =>
    intro outer limit rest
    rw [word_empty, depth_empty]
    show max (outer + 1) (Brace.nesting (outer + 1 - 1) rest) ≤ limit ↔ _
    rw [Nat.max_le, Nat.add_sub_cancel]
  | list first others trailing ihfirst ihothers =>
    intro outer limit rest
    have hitems : ∀ item ∈ first :: others, item.value.NestsInside :=
      List.forall_mem_cons.2 ⟨ihfirst, ihothers⟩
    rw [braces_word_list, List.append_assoc, List.cons_append, add_depth_list_le_iff]
    show Brace.nesting (outer + 1) (_ ++ ([.closing] ++ rest)) ≤ limit ↔ _
    rw [nesting_items_le_iff hitems]
    show _ ∧ max (outer + 1) (Brace.nesting (outer + 1 - 1) rest) ≤ limit ↔ _
    rw [Nat.max_le, Nat.add_sub_cancel]
    constructor
    · intro h
      exact ⟨⟨h.2.1, h.1⟩, h.2.2⟩
    · intro h
      exact ⟨h.1.2, h.1.1, h.2⟩

end Derivation

/-- The braces of a source nest as deeply as its derivation. -/
theorem braceNesting_eq_depth {source : String} {tokens : List Token} {derivation : Derivation}
    (htokens : tokenize source = .ok tokens)
    (hword : tokens.map Token.symbol = derivation.word .endComma) :
    braceNesting source = derivation.depth := by
  have hnests : ∀ limit, braceNesting source ≤ limit ↔ derivation.depth ≤ limit := by
    intro limit
    have hiff := derivation.nestsInside 0 limit []
    rw [List.append_nil, Nat.zero_add] at hiff
    rw [braceNesting, braces_tokenize htokens, hword, hiff]
    exact ⟨fun h => h.1, fun h => ⟨h, Nat.zero_le _⟩⟩
  exact Nat.le_antisymm ((hnests _).2 (Nat.le_refl _)) ((hnests _).1 (Nat.le_refl _))

end ArrayLiteral
