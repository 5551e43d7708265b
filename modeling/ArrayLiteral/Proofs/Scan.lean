import ArrayLiteral.Reading.Results

/-!
# What is still to be pulled

A `Scan` is everything that pulling yields from some place on: the tokens up to
the end of the input or to the first lexical error, and that error.
`tokenize_eq_ok_iff` and `tokenize_eq_error_iff` read a whole source off its
scan.

For a reader the scan starts at the lookahead.  Consuming a token takes it off
the front of the scan and puts it to the record of consumed tokens, and nothing
else happens to either.  `Passes` says this of any number of tokens and is closed
under composition.  It says nothing of the depth, so entering and leaving aggregates
keep it.
-/

namespace ArrayLiteral

/-- What pulling yields: tokens, and the lexical error behind them if there is one. -/
structure Scan where
  tokens : List Token
  fault? : Option LexicalError

namespace Scan

/-- The scan from some tokens further in front. -/
def prepend (tokens : List Token) (scan : Scan) : Scan :=
  { scan with tokens := tokens ++ scan.tokens }

@[simp] theorem prepend_nil (scan : Scan) : scan.prepend [] = scan := rfl

theorem prepend_append (front back : List Token) (scan : Scan) :
    scan.prepend (front ++ back) = (scan.prepend back).prepend front := by
  simp [prepend]

end Scan

namespace Cursor

/-- What pulling yields from a cursor on. -/
def scan (cursor : Cursor) : Scan :=
  match _ : cursor.next with
  | (.error error, _) => { tokens := [], fault? := some error }
  | (.ok token, after) =>
    if _ : token.isEof then { tokens := [], fault? := none } else after.scan.prepend [token]
termination_by cursor.rest.length
decreasing_by
  rename_i hnext hend
  refine next_length_lt hnext fun _ htoken => ?_
  injection htoken with htoken
  rw [← htoken]
  simpa using hend

section Next

variable {cursor after : Cursor} {token : Token}

theorem scan_of_error {error : LexicalError} (h : cursor.next = (.error error, after)) :
    cursor.scan = { tokens := [], fault? := some error } := by
  rw [scan]
  split <;> rename_i hnext <;> rw [h] at hnext <;> cases hnext
  rfl

theorem scan_of_eof (h : cursor.next = (.ok token, after)) (heof : token.isEof = true) :
    cursor.scan = { tokens := [], fault? := none } := by
  rw [scan]
  split <;> rename_i hnext <;> rw [h] at hnext <;> cases hnext
  rw [dif_pos heof]

theorem scan_of_token (h : cursor.next = (.ok token, after)) (hmore : token.isEof = false) :
    cursor.scan = after.scan.prepend [token] := by
  rw [scan]
  split <;> rename_i hnext <;> rw [h] at hnext <;> cases hnext
  rw [dif_neg (by rw [hmore]; exact Bool.false_ne_true)]

end Next

/-- Collecting the tokens is scanning, where the error takes the place of the
tokens in front of it. -/
theorem tokensOnto_eq (cursor : Cursor) (found : Array Token) :
    cursor.tokensOnto found =
      match cursor.scan.fault? with
      | some error => .error error
      | none => .ok (found ++ cursor.scan.tokens.toArray) := by
  fun_induction tokensOnto cursor found with
  | case1 cursor found error after hnext => rw [scan_of_error hnext]
  | case2 cursor found token after hnext hend =>
    rw [scan_of_eof hnext hend]
    simp
  | case3 cursor found token after hnext hend ih =>
    rw [ih, scan_of_token hnext (Bool.eq_false_iff.2 hend)]
    simp only [Scan.prepend]
    split
    · rfl
    · simp

end Cursor

theorem tokenize_eq_ok_iff {source : String} {tokens : List Token} :
    tokenize source = .ok tokens ↔
      (Cursor.ofString source).scan = { tokens, fault? := none } := by
  unfold tokenize Cursor.tokens
  rw [Cursor.tokensOnto_eq]
  rcases hscan : (Cursor.ofString source).scan with ⟨found, fault?⟩
  cases fault? with
  | some error => simp [Except.map]
  | none => simp [Except.map]

theorem tokenize_eq_error_iff {source : String} {error : LexicalError} :
    tokenize source = .error error ↔ (Cursor.ofString source).scan.fault? = some error := by
  unfold tokenize Cursor.tokens
  rw [Cursor.tokensOnto_eq]
  cases (Cursor.ofString source).scan.fault? <;> simp [Except.map]

/-! ## Readers -/

namespace Reader

/-- What pulling yields from the lookahead on. -/
def scan (reader : Reader) : Scan :=
  if reader.lookahead.isEof then { tokens := [], fault? := none }
  else reader.cursor.scan.prepend [reader.lookahead]

theorem scan_of_more {reader : Reader} (hmore : reader.lookahead.isEof = false) :
    reader.scan = reader.cursor.scan.prepend [reader.lookahead] := by
  rw [scan, if_neg (by rw [hmore]; exact Bool.false_ne_true)]

/-- A reader whose scan has a token is at that token. -/
theorem lookahead_of_scan {reader : Reader} {token : Token} {tokens : List Token}
    {fault? : Option LexicalError}
    (h : reader.scan = { tokens := token :: tokens, fault? }) :
    reader.lookahead = token ∧ reader.lookahead.isEof = false ∧
      reader.cursor.scan = { tokens, fault? } := by
  cases hmore : reader.lookahead.isEof with
  | true =>
    rw [scan, if_pos hmore] at h
    cases h
  | false =>
    rw [scan_of_more hmore] at h
    simp only [Scan.prepend, List.singleton_append, Scan.mk.injEq, List.cons.injEq] at h
    obtain ⟨⟨htoken, htokens⟩, hfault⟩ := h
    refine ⟨htoken, rfl, ?_⟩
    rw [← htokens, ← hfault]

/-- A reader whose scan is empty and without an error is at the end of the input. -/
theorem isEof_of_scan {reader : Reader} (h : reader.scan = { tokens := [], fault? := none }) :
    reader.lookahead.isEof = true := by
  cases hmore : reader.lookahead.isEof with
  | true => rfl
  | false =>
    rw [scan_of_more hmore] at h
    cases h

/-- The lookahead behind a pull starts the scan of the place before it. -/
theorem scan_of_next (reader : Reader) {cursor : Cursor}
    (h : cursor.next = (.ok reader.lookahead, reader.cursor)) : reader.scan = cursor.scan := by
  cases hmore : reader.lookahead.isEof with
  | true => rw [scan, if_pos hmore, Cursor.scan_of_eof h hmore]
  | false => rw [scan_of_more hmore, Cursor.scan_of_token h hmore]

/-- A reader opened on a source has the whole source before it. -/
theorem scan_of_ofString {source : String} {limits : Limits} {reader : Reader}
    (h : ofString source limits = .ok reader) :
    reader.scan = (Cursor.ofString source).scan ∧ reader.consumed = [] ∧
      reader.limits = limits ∧ reader.depth = 0 := by
  unfold ofString at h
  split at h
  · rename_i hnext
    cases h
    exact ⟨scan_of_next _ hnext, rfl, rfl, rfl⟩
  · cases h

/-- A reader can be opened unless the source starts with a lexical error. -/
theorem exists_ofString {source : String} (limits : Limits)
    (h : (Cursor.ofString source).scan.fault? = none) :
    ∃ reader, ofString source limits = .ok reader := by
  unfold ofString
  split
  · exact ⟨_, rfl⟩
  · rename_i hnext
    rw [Cursor.scan_of_error hnext] at h
    cases h

end Reader

/-- From one reader to the other exactly these tokens were consumed. -/
structure Passes (tokens : List Token) (reader after : Reader) : Prop where
  consumed : after.consumed = tokens.reverse ++ reader.consumed
  scan : reader.scan = after.scan.prepend tokens
  limits : after.limits = reader.limits

namespace Passes

variable {reader middle after : Reader} {front back : List Token}

theorem refl (reader : Reader) : Passes [] reader reader :=
  ⟨rfl, rfl, rfl⟩

theorem append (hfront : Passes front reader middle) (hback : Passes back middle after) :
    Passes (front ++ back) reader after where
  consumed := by rw [hback.consumed, hfront.consumed, List.reverse_append, List.append_assoc]
  scan := by rw [hfront.scan, hback.scan, Scan.prepend_append]
  limits := hback.limits.trans hfront.limits

end Passes

namespace Reading

section Consume

variable {reader after : Reader} {token : Token}

/-- A token can be consumed if no lexical error comes right behind it. -/
theorem exists_consume {tokens : List Token} {fault? : Option LexicalError}
    (h : reader.scan = { tokens := token :: tokens, fault? })
    (hbehind : tokens ≠ [] ∨ fault? = none) :
    ∃ after, consume reader = .ok token after ∧
      after.scan = { tokens, fault? } ∧ after.limits = reader.limits ∧
      after.depth = reader.depth := by
  obtain ⟨rfl, hmore, hscan⟩ := Reader.lookahead_of_scan h
  rcases hnext : reader.cursor.next with ⟨result, cursor⟩
  cases result with
  | error error =>
    rw [Cursor.scan_of_error hnext] at hscan
    cases hscan
    simp at hbehind
  | ok lookahead =>
    refine ⟨_, consume_eq_ok_iff.2 ⟨lookahead, cursor, hnext, rfl, rfl⟩, ?_, rfl, rfl⟩
    rw [← hscan]
    exact Reader.scan_of_next _ hnext

end Consume

end Reading

end ArrayLiteral
