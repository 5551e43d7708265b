import Mathlib
import ArrayLiteral.Proofs.Commas
import ArrayLiteral.Proofs.Layout

/-!
# Sources between other texts

A source is split into the same tokens wherever it stands in a longer text, if a blank is
behind it, or nothing.  Its tokens are only displaced by the text in front of it
(`scan_between_source`).  There is one more condition: the source must not end in a comma,
because what is behind it would tell whether that is the trailing one.

A cursor in the source stands at a place in the longer text, which `Cursor.within` gives.
The pulls are followed there one by one.
-/

namespace ArrayLiteral

open Text (isBlank utf8Width utf8Width_append utf8Width_toList)

/-- The token where it is with a text in front of its source. -/
def Token.behind (before : List Char) (token : Token) : Token :=
  { token with
    start := utf8Width before + token.start
    stop := utf8Width before + token.stop
    line := before.count '\n' + token.line }

@[simp] theorem Token.symbol_behind (before : List Char) (token : Token) :
    (token.behind before).symbol = token.symbol :=
  rfl

@[simp] theorem Token.isEof_behind (before : List Char) (token : Token) :
    (token.behind before).isEof = token.isEof :=
  rfl

namespace Lexeme

variable {first : Char} {lexeme rest behind : List Char} {symbol : Symbol}

theorem closesAggregate_append (h : rest.dropWhile isBlank ≠ []) :
    closesAggregate (rest ++ behind) = closesAggregate rest := by
  obtain ⟨c, others, hdrop⟩ := List.exists_cons_of_ne_nil h
  rw [closesAggregate_eq, closesAggregate_eq, (takeWhile_append_of_dropWhile hdrop behind).2, hdrop]
  rfl

/-- What is behind the text matters to nothing but a comma at its end. -/
theorem readSymbol_append (h : readSymbol first lexeme rest = .ok symbol)
    (hcomma : symbol.plain = .mark .comma → rest.dropWhile isBlank ≠ []) :
    readSymbol first lexeme (rest ++ behind) = .ok symbol := by
  by_cases hplain : symbol.plain = .mark .comma
  · unfold readSymbol at h ⊢
    rwa [closesAggregate_append (hcomma hplain)]
  · unfold readSymbol at h ⊢
    split at h
    · rw [if_pos ‹_›]
      exact h
    · rw [if_neg ‹_›]
      split at h
      · rw [if_pos ‹_›]
        exact h
      · rw [if_neg ‹_›]
        split at h
        · exact h
        · cases h
          refine absurd ?_ hplain
          split <;> rfl
        all_goals exact h

end Lexeme

namespace Cursor

/-- The place between two texts. -/
def between (before behind : List Char) : Cursor :=
  { rest := behind, offset := utf8Width before, line := 1 + before.count '\n' }

/-- The place where the cursor is when its source stands between two texts. -/
def within (before behind : List Char) (cursor : Cursor) : Cursor :=
  { rest := cursor.rest ++ behind
    offset := utf8Width before + cursor.offset
    line := before.count '\n' + cursor.line }

/-- The place where the source ends. -/
def last (cursor : Cursor) : Cursor :=
  cursor.past cursor.rest []

variable {before behind : List Char} {cursor after : Cursor} {token : Token}

theorem last_past {text rest : List Char} (h : cursor.rest = text ++ rest) :
    (cursor.past text rest).last = cursor.last := by
  simp only [last, past, h, utf8Width_append, List.count_append, Cursor.mk.injEq, true_and]
  omega

theorem last_skipBlanks (cursor : Cursor) : cursor.skipBlanks.last = cursor.last := by
  rw [skipBlanks_eq]
  exact last_past List.takeWhile_append_dropWhile.symm

theorem last_readToken {first : Char} {rest : List Char} (hrest : cursor.rest = first :: rest) :
    (cursor.readToken first rest).2.last = cursor.last := by
  have hsplit := Lexeme.munch_append first rest
  rw [← hrest] at hsplit
  unfold readToken
  dsimp only
  split <;> exact last_past hsplit.symm

/-- A pull does not change where the source ends. -/
theorem last_next (cursor : Cursor) : cursor.next.2.last = cursor.last := by
  rw [← last_skipBlanks cursor]
  cases hrest : cursor.skipBlanks.rest with
  | nil => rw [next_of_skipBlanks_nil hrest]
  | cons first rest => rw [next_of_skipBlanks_cons hrest, last_readToken hrest]

/-- Blanks in front of a place are passed. -/
theorem scan_past_blanks {blanks rest : List Char} (hblanks : ∀ c ∈ blanks, isBlank c = true)
    (h : cursor.rest = blanks ++ rest) : (cursor.past blanks rest).scan = cursor.scan := by
  have hskip : (cursor.past blanks rest).skipBlanks = cursor.skipBlanks := by
    simp only [skipBlanks_eq, past, h, List.takeWhile_append_of_pos hblanks,
      List.dropWhile_append_of_pos hblanks, utf8Width_append, List.count_append, Cursor.mk.injEq,
      true_and]
    omega
  apply scan_congr
  unfold next
  rw [hskip]

/-! ## Pulls between two texts -/

theorem past_within (text rest : List Char) :
    (cursor.within before behind).past text (rest ++ behind) =
      (cursor.past text rest).within before behind := by
  simp only [past, within, Nat.add_assoc]

theorem skipBlanks_within {first : Char} {rest : List Char}
    (hrest : cursor.skipBlanks.rest = first :: rest) :
    (cursor.within before behind).skipBlanks = cursor.skipBlanks.within before behind := by
  rw [skipBlanks_rest] at hrest
  obtain ⟨htake, hdrop⟩ := takeWhile_append_of_dropWhile hrest behind
  have hchars : first :: (rest ++ behind) = cursor.rest.dropWhile isBlank ++ behind := by
    rw [hrest]
    rfl
  rw [skipBlanks_eq, skipBlanks_eq]
  show past _ ((cursor.rest ++ behind).takeWhile isBlank)
    ((cursor.rest ++ behind).dropWhile isBlank) = _
  rw [htake, hdrop, hchars, past_within]

/-- A token is read alike if a blank comes behind the source, and nothing but the end of the
source decides about a comma. -/
theorem readToken_within {first : Char} {rest : List Char}
    (hblank : ∀ c ∈ behind.head?, isBlank c = true)
    (h : cursor.readToken first rest = (.ok token, after))
    (hcomma : token.symbol.plain = .mark .comma → after.rest.dropWhile isBlank ≠ []) :
    (cursor.within before behind).readToken first (rest ++ behind) =
      (.ok (token.behind before), after.within before behind) := by
  have hmunch := Lexeme.munch_append_of_apart
    (fun c _ _ d hd => isDigit_of_isBlank d (hblank d hd) : Apart _ (first :: rest) behind)
    (fun c _ _ d hd => isDot_of_isBlank d (hblank d hd) : Apart _ (first :: rest) behind)
  unfold readToken at h ⊢
  dsimp only at h
  split at h
  · rename_i symbol hread
    cases h
    simp only [hmunch, past_within, Lexeme.readSymbol_append hread hcomma]
    simp only [Token.behind, within, past]
  · cases h

theorem next_within (hblank : ∀ c ∈ behind.head?, isBlank c = true)
    (h : cursor.next = (.ok token, after)) (hmore : token.isEof = false)
    (hcomma : token.symbol.plain = .mark .comma → after.rest.dropWhile isBlank ≠ []) :
    (cursor.within before behind).next =
      (.ok (token.behind before), after.within before behind) := by
  cases hrest : cursor.skipBlanks.rest with
  | nil =>
    rw [next_of_skipBlanks_nil hrest] at h
    cases h
    simp at hmore
  | cons first rest =>
    have hskip : (cursor.within before behind).skipBlanks =
        cursor.skipBlanks.within before behind := skipBlanks_within hrest
    have hrest' : (cursor.within before behind).skipBlanks.rest = first :: (rest ++ behind) := by
      rw [hskip]
      show cursor.skipBlanks.rest ++ behind = _
      rw [hrest]
      rfl
    rw [next_of_skipBlanks_cons hrest] at h
    rw [next_of_skipBlanks_cons hrest', hskip]
    exact readToken_within hblank h hcomma

/-- A source without lexical errors has its own tokens between two texts, and then those of
the text behind it. -/
theorem scan_within (hblank : ∀ c ∈ behind.head?, isBlank c = true)
    (hfault : cursor.scan.fault? = none)
    (hend : ∀ token ∈ cursor.scan.tokens.getLast?, token.symbol.plain ≠ .mark .comma) :
    (cursor.within before behind).scan =
      (cursor.last.within before behind).scan.prepend
        (cursor.scan.tokens.map (Token.behind before)) := by
  fun_induction scan cursor with
  | case1 => cases hfault
  | case2 cursor token after hnext heof =>
    obtain ⟨rfl, hnil, -⟩ := eq_of_next_isEof hnext heof
    have hblanks : ∀ c ∈ cursor.rest, isBlank c = true :=
      List.dropWhile_eq_nil_iff.1 (cursor.skipBlanks_rest.symm.trans hnil)
    have hlast : (cursor.within before behind).past cursor.rest behind =
        cursor.last.within before behind := past_within cursor.rest []
    rw [← hlast]
    exact (scan_past_blanks hblanks rfl).symm
  | case3 cursor token after hnext heof ih =>
    have hmore : token.isEof = false := Bool.eq_false_iff.2 heof
    have hcomma : token.symbol.plain = .mark .comma → after.rest.dropWhile isBlank ≠ [] := by
      intro hplain hnil
      have hnone : after.scan.tokens = [] := by
        rw [scan_of_eof (next_of_skipBlanks_nil (after.skipBlanks_rest.trans hnil))
          (Token.isEof_atEnd ..)]
      refine hend token ?_ hplain
      show token ∈ (token :: after.scan.tokens).getLast?
      rw [hnone]
      rfl
    have hend' : ∀ token ∈ after.scan.tokens.getLast?, token.symbol.plain ≠ .mark .comma := by
      intro other hother
      apply hend other
      show other ∈ (token :: after.scan.tokens).getLast?
      cases htokens : after.scan.tokens with
      | nil =>
        rw [htokens] at hother
        cases hother
      | cons => rwa [List.getLast?_cons_cons, ← htokens]
    have hlast := cursor.last_next
    rw [hnext] at hlast
    rw [scan_of_token (next_within hblank hnext hmore hcomma) hmore, ih hfault hend', hlast]
    rfl

end Cursor

/-! ## Tokens of a source between two texts -/

/-- Blanks behind a text are a part of it as well. -/
theorem scan_between_blanks {before blanks behind : List Char}
    (hblanks : ∀ c ∈ blanks, isBlank c = true) :
    (Cursor.between before (blanks ++ behind)).scan =
      (Cursor.between (before ++ blanks) behind).scan := by
  rw [← Cursor.scan_past_blanks hblanks rfl]
  simp only [Cursor.past, Cursor.between, utf8Width_append, List.count_append, Nat.add_assoc]

/-- The tokens of a source between two texts are displaced by the text in front of it. -/
theorem scan_between_source {before behind : List Char} {source : String} {tokens : List Token}
    (hblank : ∀ c ∈ behind.head?, isBlank c = true) (htokens : tokenize source = .ok tokens)
    (hend : ∀ token ∈ tokens.getLast?, token.symbol.plain ≠ .mark .comma) :
    (Cursor.between before (source.toList ++ behind)).scan =
      (Cursor.between (before ++ source.toList) behind).scan.prepend
        (tokens.map (Token.behind before)) := by
  have hscan := tokenize_eq_ok_iff.1 htokens
  have hwithin : ((Cursor.ofString source).within before behind).scan =
      ((Cursor.ofString source).last.within before behind).scan.prepend
        ((Cursor.ofString source).scan.tokens.map (Token.behind before)) :=
    Cursor.scan_within hblank (by rw [hscan]) (by rw [hscan]; exact hend)
  rw [hscan] at hwithin
  have hstart : (Cursor.ofString source).within before behind =
      Cursor.between before (source.toList ++ behind) := by
    simp only [Cursor.ofString, Cursor.within, Cursor.between, Cursor.mk.injEq, true_and]
    omega
  have hlast : (Cursor.ofString source).last.within before behind =
      Cursor.between (before ++ source.toList) behind := by
    simp only [Cursor.ofString, Cursor.last, Cursor.past, Cursor.within, Cursor.between,
      utf8Width_append, List.count_append, List.nil_append, Cursor.mk.injEq, true_and]
    omega
  rw [← hstart, hwithin, hlast]

end ArrayLiteral
