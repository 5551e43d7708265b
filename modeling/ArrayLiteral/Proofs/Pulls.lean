import ArrayLiteral.Proofs.Scan

/-!
# Pulling again and again

A cursor can be pulled from any number of times, and a failing pull moves it on
like any other.  `Cursor.pull` numbers the results of these pulls, and
`Cursor.after` is the place that they lead to.  A scan ends at the first error,
but pulls go on behind it.

At the end of the input every pull gives the same token (`pull_of_isEof`), and
before it tokens come in the order in which they start (`start_lt_of_pull`).
`Yields` says that some pulls in a row gave tokens.  It tells which pulls give a
token (`Yields.pull_eq_iff`) and what the scan starts with (`Yields.scan_eq`), and
consuming with a reader adds one token to it.  The other way round, `pull_of_scan` finds
the tokens of a scan among the pulls.
-/

namespace ArrayLiteral.Cursor

/-- The place behind a number of pulls. -/
def after (cursor : Cursor) : (pulls : Nat) → Cursor
  | 0 => cursor
  | pulls + 1 => cursor.next.2.after pulls

/-- The result of a pull, where so many others were made before. -/
def pull (cursor : Cursor) (earlier : Nat) : Except LexicalError Token :=
  (cursor.after earlier).next.1

theorem after_succ (cursor : Cursor) (pulls : Nat) :
    cursor.after (pulls + 1) = (cursor.after pulls).next.2 := by
  induction pulls generalizing cursor with
  | zero => rfl
  | succ pulls ih => exact ih cursor.next.2

theorem pull_succ (cursor : Cursor) (earlier : Nat) :
    cursor.pull (earlier + 1) = cursor.next.2.pull earlier :=
  rfl

/-! ## The end of the input -/

variable {cursor behind : Cursor} {token : Token}

/-- A pull at the end of the input, with nothing but blanks before it. -/
theorem eq_of_next_isEof (h : cursor.next = (.ok token, behind)) (heof : token.isEof = true) :
    behind = cursor.skipBlanks ∧ behind.rest = [] ∧ token = .atEnd behind.offset behind.line := by
  unfold next at h
  dsimp only at h
  split at h
  · rename_i hrest
    cases h
    exact ⟨rfl, hrest, rfl⟩
  · have hmore := readToken_not_isEof h
    rw [heof] at hmore
    cases hmore

theorem next_of_rest_nil (h : cursor.rest = []) :
    cursor.next = (.ok (.atEnd cursor.offset cursor.line), cursor) := by
  rcases cursor with ⟨rest, offset, line⟩
  cases h
  have hskip : skipBlanks ⟨[], offset, line⟩ = ⟨[], offset, line⟩ := skipBlanks_eq _
  rw [next_of_skipBlanks_nil (congrArg Cursor.rest hskip), hskip]

/-- Once the input is at its end it stays there. -/
theorem pull_of_isEof (h : cursor.next = (.ok token, behind)) (heof : token.isEof = true)
    (earlier : Nat) : cursor.pull earlier = .ok token := by
  obtain ⟨-, hrest, rfl⟩ := eq_of_next_isEof h heof
  have hstays : ∀ pulls, behind.after pulls = behind := by
    intro pulls
    induction pulls with
    | zero => rfl
    | succ pulls ih => rw [after_succ, ih, next_of_rest_nil hrest]
  cases earlier with
  | zero => rw [pull, after, h]
  | succ earlier => rw [pull_succ, h, pull, hstays, next_of_rest_nil hrest]

/-! ## The order of tokens -/

theorem after_add (cursor : Cursor) (pulls more : Nat) :
    cursor.after (pulls + more) = (cursor.after pulls).after more := by
  induction more with
  | zero => rfl
  | succ more ih => rw [← Nat.add_assoc, after_succ, after_succ, ih]

/-- A lexeme takes up room. -/
theorem offset_lt_past_munch (cursor : Cursor) (first : Char) (rest behind : List Char) :
    cursor.offset < (cursor.past (Lexeme.munch first rest).1 behind).offset := by
  have hwidth : 0 < Text.utf8Width (Lexeme.munch first rest).1 := by
    have hfirst := first.utf8Size_pos
    unfold Lexeme.munch
    split
    · exact Nat.add_pos_left hfirst _
    · split <;> exact Nat.add_pos_left hfirst _
  exact Nat.lt_add_of_pos_right hwidth

theorem offset_skipBlanks_le_next (cursor : Cursor) :
    cursor.skipBlanks.offset ≤ cursor.next.2.offset := by
  unfold next
  dsimp only
  split
  · exact Nat.le_refl _
  · rename_i first rest hrest
    have hlexeme := cursor.skipBlanks.offset_lt_past_munch first rest (Lexeme.munch first rest).2
    unfold readToken
    dsimp only
    split <;> exact Nat.le_of_lt hlexeme

theorem offset_le_next (cursor : Cursor) : cursor.offset ≤ cursor.next.2.offset :=
  Nat.le_trans cursor.offset_le_skipBlanks cursor.offset_skipBlanks_le_next

theorem offset_le_after (cursor : Cursor) (pulls : Nat) :
    cursor.offset ≤ (cursor.after pulls).offset := by
  induction pulls with
  | zero => exact Nat.le_refl _
  | succ pulls ih =>
    rw [after_succ]
    exact Nat.le_trans ih (cursor.after pulls).offset_le_next

/-- A token starts behind the place it was pulled from, and in front of the place
that the pull leads to. -/
theorem start_of_next (h : cursor.next = (.ok token, behind)) :
    cursor.offset ≤ token.start ∧ (token.isEof = false → token.start < behind.offset) := by
  have hskip := cursor.offset_le_skipBlanks
  unfold next at h
  dsimp only at h
  split at h
  · cases h
    exact ⟨hskip, nofun⟩
  · rename_i first rest hrest
    have hlexeme := cursor.skipBlanks.offset_lt_past_munch first rest (Lexeme.munch first rest).2
    unfold readToken at h
    dsimp only at h
    split at h
    · cases h
      exact ⟨hskip, fun _ => hlexeme⟩
    · cases h

/-- Tokens are pulled in the order in which they start. -/
theorem start_lt_of_pull {earlier later : Nat} {token' : Token} (hlt : earlier < later)
    (h : cursor.pull earlier = .ok token) (hmore : token.isEof = false)
    (h' : cursor.pull later = .ok token') : token.start < token'.start := by
  have hnext : (cursor.after earlier).next = (.ok token, (cursor.after earlier).next.2) :=
    Prod.ext h rfl
  have hnext' : (cursor.after later).next = (.ok token', (cursor.after later).next.2) :=
    Prod.ext h' rfl
  obtain ⟨more, rfl⟩ := Nat.exists_eq_add_of_le (Nat.succ_le_of_lt hlt)
  have hbetween : (cursor.after (earlier + 1)).offset ≤
      (cursor.after (earlier + 1 + more)).offset := by
    rw [after_add cursor (earlier + 1) more]
    exact offset_le_after _ _
  rw [after_succ] at hbetween
  exact Nat.lt_of_lt_of_le ((start_of_next hnext).2 hmore)
    (Nat.le_trans hbetween (start_of_next hnext').1)

/-! ## Pulls that gave tokens -/

/-- Pulling gives these tokens, one after the other, and leads to that place. -/
structure Yields (cursor : Cursor) (tokens : List Token) (behind : Cursor) : Prop where
  pull_eq : ∀ earlier token, tokens[earlier]? = some token → cursor.pull earlier = .ok token
  after_eq : cursor.after tokens.length = behind

namespace Yields

variable {tokens : List Token}

theorem nil (cursor : Cursor) : Yields cursor [] cursor :=
  ⟨nofun, rfl⟩

theorem snoc {last : Cursor} (h : Yields cursor tokens behind)
    (hnext : behind.next = (.ok token, last)) : Yields cursor (tokens ++ [token]) last := by
  constructor
  · intro earlier found hfound
    rcases Nat.lt_or_ge earlier tokens.length with hold | hlast
    · rw [List.getElem?_append_left hold] at hfound
      exact h.pull_eq earlier found hfound
    · rw [List.getElem?_append_right hlast, List.getElem?_singleton] at hfound
      split at hfound
      · rename_i hnone
        cases hfound
        have hlast : earlier = tokens.length := by omega
        rw [hlast, pull, h.after_eq, hnext]
      · cases hfound
  · rw [List.length_append, List.length_singleton, after_succ, h.after_eq, hnext]

/-- The last token was pulled from the place behind the others. -/
theorem exists_snoc {last : Cursor} (h : Yields cursor (tokens ++ [token]) last) :
    ∃ behind, Yields cursor tokens behind ∧ behind.next = (.ok token, last) := by
  have htoken : (tokens ++ [token])[tokens.length]? = some token := by simp
  have hpull : (cursor.after tokens.length).next.1 = .ok token := h.pull_eq _ _ htoken
  have hlast := h.after_eq
  rw [List.length_append, List.length_singleton, after_succ] at hlast
  refine ⟨cursor.after tokens.length, ⟨fun earlier found hfound => ?_, rfl⟩, Prod.ext hpull hlast⟩
  obtain ⟨hold, -⟩ := List.getElem?_eq_some_iff.1 hfound
  exact h.pull_eq earlier found (by rw [List.getElem?_append_left hold]; exact hfound)

/-- A token that was not pulled earlier is pulled only once, and the end of the
input from then on. -/
theorem pull_eq_iff {last : Cursor} (h : Yields cursor (tokens ++ [token]) last)
    (hmore : ∀ earlier ∈ tokens, earlier.isEof = false) (pulls : Nat) :
    cursor.pull pulls = .ok token ↔
      if token.isEof then tokens.length ≤ pulls else pulls = tokens.length := by
  obtain ⟨behind, hbefore, hnext⟩ := h.exists_snoc
  have hpull : cursor.pull tokens.length = .ok token := h.pull_eq _ _ (by simp)
  -- Earlier pulls gave tokens that start further in front.
  have hlate : cursor.pull pulls = .ok token → tokens.length ≤ pulls := by
    intro hearly
    refine Nat.le_of_not_lt fun hlt => ?_
    have hsame := hbefore.pull_eq pulls tokens[pulls] (List.getElem?_eq_getElem hlt)
    rw [hearly] at hsame
    have htoken : tokens[pulls] = token := (Except.ok.inj hsame).symm
    have hend : token.isEof = false := htoken ▸ hmore _ (List.getElem_mem hlt)
    exact Nat.lt_irrefl _ (start_lt_of_pull hlt hearly hend hpull)
  cases heof : token.isEof with
  | true =>
    rw [if_pos rfl]
    refine ⟨hlate, fun hle => ?_⟩
    obtain ⟨more, rfl⟩ := Nat.exists_eq_add_of_le hle
    rw [pull, after_add, hbefore.after_eq]
    exact pull_of_isEof hnext heof more
  | false =>
    rw [if_neg Bool.false_ne_true]
    constructor
    · intro hagain
      rcases Nat.eq_or_lt_of_le (hlate hagain) with hsame | hlt
      · exact hsame.symm
      · exact absurd (start_lt_of_pull hlt hpull heof hagain) (Nat.lt_irrefl _)
    · rintro rfl
      exact hpull

/-- The tokens start the scan, unless the end of the input is among them. -/
theorem scan_eq (h : Yields cursor tokens behind)
    (hmore : ∀ token ∈ tokens, token.isEof = false) :
    cursor.scan = behind.scan.prepend tokens := by
  induction tokens generalizing cursor with
  | nil =>
    have hsame : cursor = behind := h.after_eq
    rw [hsame, Scan.prepend_nil]
  | cons token tokens ih =>
    have hfirst : cursor.next.1 = .ok token := h.pull_eq 0 token rfl
    have hnext : cursor.next = (.ok token, cursor.next.2) := Prod.ext hfirst rfl
    have hrest : Yields cursor.next.2 tokens behind :=
      ⟨fun earlier => h.pull_eq (earlier + 1), h.after_eq⟩
    rw [scan_of_token hnext (hmore token (List.mem_cons_self ..)),
      ih hrest fun other hmem => hmore other (List.mem_cons_of_mem _ hmem)]
    rfl

end Yields

/-! ## The tokens of a scan -/

theorem exists_next_of_scan {tokens : List Token} (h : cursor.scan.tokens = token :: tokens) :
    ∃ after, cursor.next = (.ok token, after) ∧ after.scan.tokens = tokens := by
  rcases hnext : cursor.next with ⟨result, after⟩
  cases result with
  | error error =>
    rw [scan_of_error hnext] at h
    cases h
  | ok found =>
    cases hmore : found.isEof with
    | true =>
      rw [scan_of_eof hnext hmore] at h
      cases h
    | false =>
      rw [scan_of_token hnext hmore] at h
      obtain ⟨rfl, htokens⟩ := List.cons.inj h
      exact ⟨after, rfl, htokens⟩

/-- The tokens of a scan are what pulling gives. -/
theorem pull_of_scan {front back : List Token} (h : cursor.scan.tokens = front ++ token :: back) :
    cursor.pull front.length = .ok token ∧
      (cursor.after (front.length + 1)).scan.tokens = back := by
  induction front generalizing cursor with
  | nil =>
    obtain ⟨after, hnext, htokens⟩ := exists_next_of_scan h
    refine ⟨congrArg Prod.fst hnext, ?_⟩
    show cursor.next.2.scan.tokens = back
    rw [hnext]
    exact htokens
  | cons first front ih =>
    obtain ⟨behind, hnext, htokens⟩ := exists_next_of_scan h
    rw [List.length_cons, pull_succ, after, hnext]
    exact ih htokens

end ArrayLiteral.Cursor
