import ArrayLiteral.Limits
import ArrayLiteral.Token

/-!
# Places in a literal

A `Place` is all that has to be known of the symbols read so far to tell which
symbols may come next: what is expected, and how many braces are open.
`Place.follow` is the grammar seen from such a place, one symbol at a time, and
`Place.next` looks at the limits too.  Commas are of one kind here, and the end of
the input is no symbol.

From every place the literal can be completed within the limits
(`walk_completion`), if they allow any index at all.  So whatever can be walked
from the outset is the beginning of a literal.
-/

namespace ArrayLiteral

/-- What may come next. -/
inductive Phase
  /-- A value. -/
  | value
  /-- An initializer or the closing brace, behind an opening brace or a comma. -/
  | item
  /-- The first bound of a designator. -/
  | start
  /-- What is between two bounds or behind the only one. -/
  | started
  /-- The second bound. -/
  | stop
  /-- The square bracket behind the second bound. -/
  | stopped
  /-- The equals sign behind a designator. -/
  | designated
  /-- What is behind a value: nothing, if no brace is open. -/
  | behind
  deriving DecidableEq

/-- What may come next inside so many braces. -/
structure Place where
  phase : Phase
  depth : Nat
  deriving DecidableEq

namespace Place

/-- Nothing was read yet. -/
def outset : Place :=
  ⟨.value, 0⟩

/-- A whole literal was read. -/
def complete : Place :=
  ⟨.behind, 0⟩

/-- The place behind a symbol, if the grammar allows the symbol here. -/
def follow : Place → Symbol → Option Place
  | ⟨.value, depth⟩, .number _ => some ⟨.behind, depth⟩
  | ⟨.value, depth⟩, .mark .leftCurly => some ⟨.item, depth + 1⟩
  | ⟨.item, depth⟩, .number _ => some ⟨.behind, depth⟩
  | ⟨.item, depth⟩, .mark .leftCurly => some ⟨.item, depth + 1⟩
  | ⟨.item, depth⟩, .mark .leftSquare => some ⟨.start, depth⟩
  | ⟨.item, depth + 1⟩, .mark .rightCurly => some ⟨.behind, depth⟩
  | ⟨.start, depth⟩, .number _ => some ⟨.started, depth⟩
  | ⟨.started, depth⟩, .mark .range => some ⟨.stop, depth⟩
  | ⟨.started, depth⟩, .mark .rightSquare => some ⟨.designated, depth⟩
  | ⟨.stop, depth⟩, .number _ => some ⟨.stopped, depth⟩
  | ⟨.stopped, depth⟩, .mark .rightSquare => some ⟨.designated, depth⟩
  | ⟨.designated, depth⟩, .mark .equal => some ⟨.value, depth⟩
  | ⟨.behind, depth + 1⟩, .mark .comma => some ⟨.item, depth + 1⟩
  | ⟨.behind, depth + 1⟩, .mark .rightCurly => some ⟨.behind, depth⟩
  | _, _ => none

/-- The limits allow the symbol here, as a bound or as one more open brace. -/
def within (limits : Limits) : Place → Symbol → Bool
  | ⟨.start, _⟩, .number bound => bound < limits.maxArrayLen
  | ⟨.stop, _⟩, .number bound => bound < limits.maxArrayLen
  | ⟨_, depth⟩, .mark .leftCurly => depth < limits.maxDepth.toNat
  | _, _ => true

/-- The place behind a symbol, if the symbol is allowed here. -/
def next (limits : Limits) (place : Place) (symbol : Symbol) : Option Place :=
  if place.within limits symbol then place.follow symbol else none

/-- The symbol is allowed here, or it would be if the limit on indices were higher. -/
structure AllowsUpToIndex (limits : Limits) (place : Place) (symbol : Symbol) : Prop where
  follow_ne_none : place.follow symbol ≠ none
  depth_lt : symbol = .mark .leftCurly → place.depth < limits.maxDepth.toNat

/-- The place behind some symbols, if each of them is allowed where it is. -/
def walk (limits : Limits) (place : Place) (symbols : List Symbol) : Option Place :=
  symbols.foldlM (next limits) place

section Walk

variable {limits : Limits} {place : Place} {symbol : Symbol}

theorem follow_of_next {place' : Place} (h : place.next limits symbol = some place') :
    place.follow symbol = some place' := by
  unfold next at h
  split at h
  · exact h
  · cases h

@[simp] theorem walk_nil : place.walk limits [] = some place := rfl

@[simp] theorem walk_cons (symbols : List Symbol) :
    place.walk limits (symbol :: symbols) =
      (place.next limits symbol).bind fun place' => place'.walk limits symbols :=
  List.foldlM_cons

theorem walk_append (front back : List Symbol) :
    place.walk limits (front ++ back) =
      (place.walk limits front).bind fun place' => place'.walk limits back :=
  List.foldlM_append

/-- The end of the input follows nothing. -/
theorem follow_eof : place.follow .eof = none := by
  rcases place with ⟨phase, depth⟩
  cases phase <;> cases depth <;> rfl

/-- What the grammar does not allow is not allowed. -/
theorem next_eq_none (h : place.follow symbol = none) : place.next limits symbol = none := by
  rw [next, h, ite_self]

/-- What the limits do not allow is not allowed. -/
theorem next_eq_none_of_within (h : place.within limits symbol = false) :
    place.next limits symbol = none := by
  rw [next, h, if_neg Bool.false_ne_true]

/-- Nothing is allowed behind a complete literal. -/
theorem next_complete : complete.next limits symbol = none := by
  refine next_eq_none ?_
  cases symbol with
  | mark punctuation => cases punctuation <;> rfl
  | _ => rfl

/-- What is walked from a place is allowed symbol by symbol. -/
theorem exists_next_of_walk {symbols : List Symbol} {last : Place}
    (h : place.walk limits symbols = some last) {symbol : Symbol} (hmem : symbol ∈ symbols) :
    ∃ here there : Place, here.next limits symbol = some there := by
  induction symbols generalizing place with
  | nil => cases hmem
  | cons first symbols ih =>
    rw [walk_cons, Option.bind_eq_some_iff] at h
    obtain ⟨second, hnext, hwalk⟩ := h
    rcases List.mem_cons.1 hmem with rfl | hmem
    · exact ⟨place, second, hnext⟩
    · exact ih hwalk hmem

end Walk

/-! ## Completing a literal -/

/-- The shortest way to the end of the value. Where a number is due it is zero. -/
def valueCompletion : Phase → List Symbol
  | .value => [.number 0]
  | .item => [.number 0]
  | .start => [.number 0, .mark .rightSquare, .mark .equal, .number 0]
  | .started => [.mark .rightSquare, .mark .equal, .number 0]
  | .stop => [.number 0, .mark .rightSquare, .mark .equal, .number 0]
  | .stopped => [.mark .rightSquare, .mark .equal, .number 0]
  | .designated => [.mark .equal, .number 0]
  | .behind => []

/-- Symbols that complete the literal: the value, and then all open braces. -/
def completion (place : Place) : List Symbol :=
  valueCompletion place.phase ++ List.replicate place.depth (.mark .rightCurly)

theorem walk_valueCompletion {limits : Limits} (hroom : 1 ≤ limits.maxArrayLen) (phase : Phase)
    (depth : Nat) :
    (⟨phase, depth⟩ : Place).walk limits (valueCompletion phase) = some ⟨.behind, depth⟩ := by
  have hzero : (0 : UInt64) < limits.maxArrayLen := by
    rw [UInt64.le_iff_toNat_le] at hroom
    rw [UInt64.lt_iff_toNat_lt]
    exact hroom
  cases phase <;> simp [valueCompletion, next, within, follow, hzero]

theorem walk_closingBraces (limits : Limits) (depth : Nat) :
    (⟨.behind, depth⟩ : Place).walk limits (List.replicate depth (.mark .rightCurly)) =
      some complete := by
  induction depth with
  | zero => rfl
  | succ depth ih =>
    rw [List.replicate_succ, walk_cons]
    exact ih

/-- From every place the literal can be completed. -/
theorem walk_completion {limits : Limits} (hroom : 1 ≤ limits.maxArrayLen) (place : Place) :
    place.walk limits place.completion = some complete := by
  rw [completion, walk_append, walk_valueCompletion hroom]
  exact walk_closingBraces limits place.depth

end Place

end ArrayLiteral
