import ArrayLiteral.Reading

/-!
# Results of steps

What a step of a reader gives, for the steps that others are put together from.  The lemmas
say when a step succeeds, and with which reader it fails.
-/

namespace ArrayLiteral.Reading

/-! ## Compound steps -/

section Bind

variable {ε σ α β : Type} {first : EStateM ε σ α} {next : α → EStateM ε σ β} {state middle : σ}

theorem bind_of_ok {value : α} (h : first state = .ok value middle) :
    (first >>= next) state = next value middle := by
  show EStateM.bind first next state = _
  unfold EStateM.bind
  rw [h]

theorem bind_of_error {error : ε} (h : first state = .error error middle) :
    (first >>= next) state = .error error middle := by
  show EStateM.bind first next state = _
  unfold EStateM.bind
  rw [h]

/-- What comes first may be replaced by what gives the same from this state on. -/
theorem bind_congr_of_eq {other : EStateM ε σ α} (h : first state = other state) :
    (first >>= next) state = (other >>= next) state := by
  show EStateM.bind first next state = EStateM.bind other next state
  unfold EStateM.bind
  rw [h]

end Bind

section Success

variable {α β : Type} {reader after : Reader}

theorem bind_eq_ok_iff {reading : Reading α} {next : α → Reading β} {value : β} :
    (reading >>= next) reader = .ok value after ↔
      ∃ first middle, reading reader = .ok first middle ∧ next first middle = .ok value after := by
  cases hfirst : reading reader with
  | ok first middle =>
    rw [bind_of_ok hfirst]
    constructor
    · intro h
      exact ⟨first, middle, rfl, h⟩
    · rintro ⟨first', middle', h, hnext⟩
      cases h
      exact hnext
  | error error middle =>
    rw [bind_of_error hfirst]
    exact ⟨nofun, nofun⟩

theorem pure_eq_ok_iff {given value : α} :
    (pure given : Reading α) reader = .ok value after ↔ value = given ∧ after = reader := by
  show EStateM.Result.ok given reader = _ ↔ _
  rw [EStateM.Result.ok.injEq, eq_comm, @eq_comm _ reader]

theorem map_eq_ok_iff {reading : Reading α} {f : α → β} {value : β} :
    (f <$> reading) reader = .ok value after ↔
      ∃ first, reading reader = .ok first after ∧ value = f first := by
  show (reading >>= fun first => pure (f first)) reader = _ ↔ _
  rw [bind_eq_ok_iff]
  constructor
  · rintro ⟨first, middle, hfirst, hpure⟩
    rw [pure_eq_ok_iff] at hpure
    obtain ⟨rfl, rfl⟩ := hpure
    exact ⟨first, hfirst, rfl⟩
  · rintro ⟨first, hfirst, rfl⟩
    exact ⟨first, after, hfirst, pure_eq_ok_iff.2 ⟨rfl, rfl⟩⟩

theorem map_eq_error_iff {reading : Reading α} {f : α → β} {error : Error} :
    (f <$> reading) reader = .error error after ↔ reading reader = .error error after := by
  show EStateM.map f reading reader = _ ↔ _
  unfold EStateM.map
  split
  · rename_i hreading
    rw [hreading]
    exact ⟨nofun, nofun⟩
  · rename_i hreading
    rw [hreading]
    simp

end Success

/-! ## Looking at the lookahead -/

section Lookahead

variable {α β : Type} {reader after : Reader}

theorem lookahead_bind (next : Token → Reading β) (reader : Reader) :
    (lookahead >>= next) reader = next reader.lookahead reader :=
  rfl

theorem isAt_bind (kind : Kind) (next : Bool → Reading β) (reader : Reader) :
    (isAt kind >>= next) reader = next (decide (reader.lookahead.kind = kind)) reader :=
  rfl

theorem reject_ne_ok {found : Token} {fault : GrammarFault} {value : α} :
    reject found fault reader ≠ .ok value after :=
  nofun

theorem expected_ne_ok {description : String} {value : α} :
    expected description reader ≠ .ok value after :=
  nofun

theorem symbol_of_kind {token : Token} {punctuation : Punctuation}
    (h : token.kind = .mark punctuation) : token.symbol = .mark punctuation := by
  unfold Token.kind Symbol.kind at h
  split at h <;> rename_i hsymbol <;> cases h
  exact hsymbol

theorem kind_of_symbol {token : Token} {symbol : Symbol} (h : token.symbol = symbol) :
    token.kind = symbol.kind :=
  congrArg Symbol.kind h

end Lookahead

/-! ## Consuming -/

section Consume

variable {reader after : Reader} {token : Token}

theorem consume_of_token {lookahead : Token} {cursor : Cursor}
    (h : reader.cursor.next = (.ok lookahead, cursor)) :
    consume reader = .ok reader.lookahead
      { reader with cursor, lookahead, consumed := reader.lookahead :: reader.consumed } := by
  rw [consume, h]

theorem consume_of_fault {error : LexicalError} {cursor : Cursor}
    (h : reader.cursor.next = (.error error, cursor)) :
    consume reader = .error (.lexical error) { reader with cursor } := by
  rw [consume, h]

theorem consume_eq_ok_iff :
    consume reader = .ok token after ↔
      ∃ lookahead cursor, reader.cursor.next = (.ok lookahead, cursor) ∧
        token = reader.lookahead ∧
        after = { reader with
          cursor, lookahead, consumed := reader.lookahead :: reader.consumed } := by
  rcases hnext : reader.cursor.next with ⟨error | lookahead, cursor⟩
  · rw [consume_of_fault hnext]
    constructor
    · intro h
      cases h
    · rintro ⟨lookahead, cursor', h, -⟩
      cases h
  · rw [consume_of_token hnext]
    constructor
    · intro h
      cases h
      exact ⟨lookahead, cursor, rfl, rfl, rfl⟩
    · rintro ⟨lookahead', cursor', h, rfl, rfl⟩
      cases h
      rfl

theorem require_of_symbol {punctuation : Punctuation}
    (h : reader.lookahead.symbol = .mark punctuation) :
    require (.mark punctuation) reader = consume reader := by
  have hkind : reader.lookahead.kind = .mark punctuation := kind_of_symbol h
  unfold require
  rw [isAt_bind, if_pos (decide_eq_true hkind)]

theorem require_of_other {punctuation : Punctuation}
    (h : reader.lookahead.symbol ≠ .mark punctuation) :
    require (.mark punctuation) reader = .error (.grammar {
      found := reader.lookahead, fault := .unexpectedToken punctuation.name }) reader := by
  unfold require
  rw [isAt_bind, if_neg fun hkind => h (symbol_of_kind (of_decide_eq_true hkind))]
  rfl

theorem require_eq_ok_iff {kind : Kind} :
    require kind reader = .ok token after ↔
      reader.lookahead.kind = kind ∧ consume reader = .ok token after := by
  unfold require
  rw [isAt_bind]
  by_cases hkind : reader.lookahead.kind = kind
  · rw [if_pos (decide_eq_true hkind)]
    exact ⟨fun h => ⟨hkind, h⟩, fun h => h.2⟩
  · rw [if_neg (by simpa using hkind)]
    exact ⟨fun h => absurd h expected_ne_ok, fun h => absurd h.1 hkind⟩

end Consume

/-! ## Entering aggregates -/

section Enter

variable {reader after : Reader}

/-- Where there is no room, the token in front of the reader is rejected. -/
theorem enterAggregate_of_full (h : reader.limits.maxDepth.toNat ≤ reader.depth) :
    enterAggregate reader = .error (.grammar {
      found := reader.lookahead
      fault := .nestingTooDeep reader.limits.maxDepth }) reader := by
  show (if reader.limits.maxDepth.toNat ≤ reader.depth then _ else _ : Reading Unit) reader = _
  rw [if_pos h]
  rfl

theorem enterAggregate_eq_ok_iff :
    enterAggregate reader = .ok () after ↔
      reader.depth < reader.limits.maxDepth.toNat ∧
        after = { reader with depth := reader.depth + 1 } := by
  unfold enterAggregate
  rw [bind_eq_ok_iff]
  constructor
  · intro h
    obtain ⟨found, middle, hget, h⟩ := h
    cases hget
    by_cases hdeep : reader.limits.maxDepth.toNat ≤ reader.depth
    · rw [if_pos hdeep] at h
      exact absurd h reject_ne_ok
    · rw [if_neg hdeep] at h
      cases h
      exact ⟨Nat.lt_of_not_le hdeep, rfl⟩
  · intro h
    obtain ⟨hroom, rfl⟩ := h
    refine ⟨reader, reader, rfl, ?_⟩
    rw [if_neg (Nat.not_le_of_lt hroom)]
    rfl

end Enter

end ArrayLiteral.Reading
