import ArrayLiteral.Designator
import ArrayLiteral.Reading.Results

/-!
# Stages and paths

A `Stage` is what a reader is in front of, as far as the reading functions know.  At each stage
some symbols may be consumed (`Stage.next`), and they lead to another stage.  A `Path` is made
of such steps, with the tokens that were consumed, and `Halts` lists the ways in which a reader
can come to a halt at a stage.

`Course` says of a result that it comes about along a path, and then is a success or a halt.  It
is closed under composition.  A path says nothing of the functions that are called, so what is
known of all readers is proved by induction on paths.
-/

namespace ArrayLiteral.Parsing

open Reading

/-! ## Stages -/

/-- What a reader is in front of. -/
inductive Stage
  | value
  /-- What follows an opening brace. -/
  | opened
  /-- An initializer. -/
  | item
  /-- The first bound of a designator. -/
  | start
  /-- What follows the first bound. -/
  | started
  /-- The second bound of a designator. -/
  | stop
  /-- What follows the second bound. -/
  | stopped
  /-- What follows a designator. -/
  | designated
  /-- What follows an initializer. -/
  | behind
  /-- What follows a trailing comma. -/
  | closing
  /-- What follows a value. -/
  | complete
  deriving DecidableEq

namespace Stage

/-- The stage behind a symbol, if the symbol may be consumed here. -/
def next : Stage → Symbol → Option Stage
  | value, .number _ => some complete
  | value, .mark .leftCurly => some opened
  | opened, .mark .rightCurly => some complete
  | item, .mark .leftSquare => some start
  | start, .number _ => some started
  | started, .mark .range => some stop
  | started, .mark .rightSquare => some designated
  | stop, .number _ => some stopped
  | stopped, .mark .rightSquare => some designated
  | designated, .mark .equal => some value
  | behind, .mark .comma => some item
  | behind, .mark .endComma => some closing
  | behind, .mark .rightCurly => some complete
  | closing, .mark .rightCurly => some complete
  | _, _ => none

/-- In front of this symbol nothing has to be consumed, where so many aggregates are open:
there is an initializer and no closing brace, or a value and no designator, or the value that
was read completes an initializer. -/
inductive Skips (depth : Nat) : Stage → Symbol → Stage → Prop
  | brace (symbol : Symbol) (h : symbol ≠ .mark .rightCurly) : Skips depth opened symbol item
  | target (symbol : Symbol) (h : symbol ≠ .mark .leftSquare) : Skips depth item symbol value
  | added (symbol : Symbol) (h : depth ≠ 0) : Skips depth complete symbol behind

/-- The limits allow the symbol here, where so many aggregates are open. -/
def Within (limits : Limits) (depth : Nat) : Stage → Symbol → Prop
  | start, .number bound => bound.toNat < limits.maxArrayLen.toNat
  | stop, .number bound => bound.toNat < limits.maxArrayLen.toNat
  | value, .mark .leftCurly => depth < limits.maxDepth.toNat
  | _, _ => True

/-- What is wrong with a symbol that may not be consumed here, where nothing can be left
out. -/
def fault? : Stage → Symbol → Option GrammarFault
  | value, _ => some (.unexpectedToken "NUMBER or LCURLY")
  | opened, _ => none
  | item, _ => none
  | start, _ => some (.unexpectedToken "NUMBER")
  | started, _ => some (.unexpectedToken "RANGE or RSQUARE")
  | stop, _ => some (.unexpectedToken "NUMBER")
  | stopped, _ => some (.unexpectedToken "RSQUARE")
  | designated, _ => some (.unexpectedToken "EQUAL")
  | behind, .number _ => some .missingSeparator
  | behind, .mark .leftCurly => some .missingSeparator
  | behind, .mark .leftSquare => some .missingSeparator
  | behind, _ => some (.unexpectedToken "COMMA, ENDCOMMA or RCURLY")
  | closing, _ => some (.unexpectedToken "RCURLY")
  | complete, _ => none

/-- Among the marks only an opening brace is looked at with the limits in mind. -/
theorem within_mark {limits : Limits} {depth : Nat} (stage : Stage) {punctuation : Punctuation}
    (h : punctuation ≠ .leftCurly) : stage.Within limits depth (.mark punctuation) := by
  cases stage with
  | value =>
    cases punctuation with
    | leftCurly => exact absurd rfl h
    | _ => trivial
  | _ => trivial

theorem next_eof (stage : Stage) : stage.next .eof = none := by
  cases stage <;> rfl

/-- The symbols that may be consumed at a stage, one by one. -/
inductive Step : Stage → Symbol → Stage → Prop
  | value_number (number : UInt64) : Step value (.number number) complete
  | value_leftCurly : Step value (.mark .leftCurly) opened
  | opened_rightCurly : Step opened (.mark .rightCurly) complete
  | item_leftSquare : Step item (.mark .leftSquare) start
  | start_number (bound : UInt64) : Step start (.number bound) started
  | started_range : Step started (.mark .range) stop
  | started_rightSquare : Step started (.mark .rightSquare) designated
  | stop_number (bound : UInt64) : Step stop (.number bound) stopped
  | stopped_rightSquare : Step stopped (.mark .rightSquare) designated
  | designated_equal : Step designated (.mark .equal) value
  | behind_comma : Step behind (.mark .comma) item
  | behind_endComma : Step behind (.mark .endComma) closing
  | behind_rightCurly : Step behind (.mark .rightCurly) complete
  | closing_rightCurly : Step closing (.mark .rightCurly) complete

theorem step_of_next {stage stage' : Stage} {symbol : Symbol}
    (h : stage.next symbol = some stage') : Step stage symbol stage' := by
  rcases symbol with number | punctuation | _
  · cases stage <;> cases h <;> constructor
  · cases punctuation <;> cases stage <;> cases h <;> constructor
  · rw [next_eof] at h
    cases h

theorem next_eq_none {stage : Stage} {symbol : Symbol}
    (h : ∀ stage', ¬ Step stage symbol stage') : stage.next symbol = none :=
  Option.eq_none_iff_forall_ne_some.2 fun stage' hnext => h stage' (step_of_next hnext)

end Stage

/-- The number of open aggregates behind a symbol. -/
def depthBehind : Symbol → Nat → Nat
  | .mark .leftCurly, depth => depth + 1
  | .mark .rightCurly, depth => depth - 1
  | _, depth => depth

theorem depthBehind_mark {punctuation : Punctuation} (hopening : punctuation ≠ .leftCurly)
    (hclosing : punctuation ≠ .rightCurly) (depth : Nat) :
    depthBehind (.mark punctuation) depth = depth := by
  cases punctuation with
  | leftCurly => exact absurd rfl hopening
  | rightCurly => exact absurd rfl hclosing
  | _ => rfl

/-! ## Paths -/

/-- The lookahead is consumed, where it is allowed. -/
structure Takes (stage : Stage) (reader : Reader) (stage' : Stage) (after : Reader) : Prop where
  next_eq : stage.next reader.lookahead.symbol = some stage'
  within : stage.Within reader.limits reader.depth reader.lookahead.symbol
  pull_eq : reader.cursor.next = (.ok after.lookahead, after.cursor)
  consumed_eq : after.consumed = reader.lookahead :: reader.consumed
  limits_eq : after.limits = reader.limits
  depth_eq : after.depth = depthBehind reader.lookahead.symbol reader.depth

namespace Takes

variable {stage stage' : Stage} {reader after : Reader}

/-- The end of the input is never consumed. -/
theorem isEof_eq (h : Takes stage reader stage' after) : reader.lookahead.isEof = false := by
  refine Token.isEof_eq_false_iff.2 fun heof => ?_
  have hnext := h.next_eq
  rw [heof, stage.next_eof] at hnext
  cases hnext

theorem remaining_lt (h : Takes stage reader stage' after) :
    after.remaining < reader.remaining := by
  have hle := reader.cursor.next_length_le
  rw [h.pull_eq] at hle
  unfold Reader.remaining
  rw [h.isEof_eq, if_neg Bool.false_ne_true]
  cases hlast : after.lookahead.isEof with
  | true =>
    rw [if_pos rfl]
    exact Nat.lt_succ_of_le hle
  | false =>
    have hlt := Cursor.next_length_lt h.pull_eq fun _ htoken => by
      cases htoken
      exact hlast
    rw [if_neg Bool.false_ne_true]
    omega

end Takes

/-- From a reader at a stage, by consuming these tokens, to the other reader and stage. -/
inductive Path : Stage → Reader → List Token → Stage → Reader → Prop
  | refl (stage : Stage) (reader : Reader) : Path stage reader [] stage reader
  | skip {stage stage' last : Stage} {reader after : Reader} {tokens : List Token}
    (h : Stage.Skips reader.depth stage reader.lookahead.symbol stage')
    (rest : Path stage' reader tokens last after) : Path stage reader tokens last after
  | take {stage stage' last : Stage} {reader middle after : Reader} {tokens : List Token}
    (h : Takes stage reader stage' middle) (rest : Path stage' middle tokens last after) :
    Path stage reader (reader.lookahead :: tokens) last after

/-- The ways to come to a halt: the pull behind an allowed token fails, or the lookahead is
not allowed by the grammar or by a limit. An index is compared behind its token. -/
inductive Halts (stage : Stage) (reader : Reader) : Error → Reader → Prop
  | lexical (error : LexicalError) (cursor : Cursor) (depth : Nat)
    (hnext : stage.next reader.lookahead.symbol ≠ none)
    (hroom : reader.lookahead.symbol = .mark .leftCurly →
      reader.depth < reader.limits.maxDepth.toNat)
    (hpull : reader.cursor.next = (.error error, cursor))
    (hdepth : depth = reader.depth ∨
      depth = reader.depth + 1 ∧ reader.depth < reader.limits.maxDepth.toNat) :
    Halts stage reader (.lexical error) { reader with cursor, depth }
  | unexpected (fault : GrammarFault) (hnext : stage.next reader.lookahead.symbol = none)
    (hfault : stage.fault? reader.lookahead.symbol = some fault) :
    Halts stage reader (.grammar { found := reader.lookahead, fault }) reader
  | tooDeep (hstage : stage = .value) (hbrace : reader.lookahead.symbol = .mark .leftCurly)
    (hfull : reader.limits.maxDepth.toNat ≤ reader.depth) :
    Halts stage reader (.grammar {
      found := reader.lookahead, fault := .nestingTooDeep reader.limits.maxDepth }) reader
  | tooLarge (bound : UInt64) (lookahead : Token) (cursor : Cursor)
    (hstage : stage = .start ∨ stage = .stop) (hbound : reader.lookahead.symbol = .number bound)
    (hover : reader.limits.maxArrayLen.toNat ≤ bound.toNat)
    (hpull : reader.cursor.next = (.ok lookahead, cursor)) :
    Halts stage reader (.grammar {
        found := reader.lookahead, fault := .indexTooLarge reader.limits.maxArrayLen })
      { reader with cursor, lookahead, consumed := reader.lookahead :: reader.consumed }

namespace Path

variable {stage middle last : Stage} {reader between after : Reader} {front back : List Token}

theorem append (hfront : Path stage reader front middle between)
    (hback : Path middle between back last after) :
    Path stage reader (front ++ back) last after := by
  induction hfront with
  | refl => exact hback
  | skip h _ ih => exact .skip h (ih hback)
  | take h _ ih => exact .take h (ih hback)

theorem single (h : Takes stage reader last after) :
    Path stage reader [reader.lookahead] last after :=
  .take h (.refl last after)

theorem limits_eq (h : Path stage reader front last after) : after.limits = reader.limits := by
  induction h with
  | refl => rfl
  | skip _ _ ih => exact ih
  | take h _ ih => exact ih.trans h.limits_eq

/-- Entering and leaving can be told from the symbols. -/
theorem depth_eq (h : Path stage reader front last after) :
    after.depth = (front.map Token.symbol).foldl (fun depth symbol => depthBehind symbol depth)
      reader.depth := by
  induction h with
  | refl => rfl
  | skip _ _ ih => exact ih
  | take h _ ih => rw [ih, h.depth_eq, List.map_cons, List.foldl_cons]

/-- Every token that is consumed is one less to be read. -/
theorem length_add_remaining_le (h : Path stage reader front last after) :
    front.length + after.remaining ≤ reader.remaining := by
  induction h with
  | refl => exact Nat.le_of_eq (Nat.zero_add _)
  | skip _ _ ih => exact ih
  | take h _ ih =>
    have hless := h.remaining_lt
    rw [List.length_cons]
    omega

/-- What is in front of the reader is pulled before anything else. -/
theorem exists_eq_lookahead_cons (h : Path stage reader front last after) :
    ∃ rest, front ++ [after.lookahead] = reader.lookahead :: rest := by
  induction h with
  | refl => exact ⟨[], rfl⟩
  | skip _ _ ih => exact ih
  | take _ _ _ => exact ⟨_, rfl⟩

end Path

/-! ## Courses -/

/-- From this stage on, a result comes about along a path: it is a success behind the path that
has the property, or the reader comes to a halt. -/
inductive Course {α : Type} (stage : Stage) (reader : Reader)
    (post : α → List Token → Stage → Reader → Prop) : EStateM.Result Error Reader α → Prop
  | ok (value : α) (tokens : List Token) (last : Stage) (after : Reader)
    (hpath : Path stage reader tokens last after) (hpost : post value tokens last after) :
    Course stage reader post (.ok value after)
  | error (error : Error) (tokens : List Token) (last : Stage) (before after : Reader)
    (hpath : Path stage reader tokens last before) (hhalts : Halts last before error after) :
    Course stage reader post (.error error after)

namespace Course

variable {α β : Type} {stage here : Stage} {reader middle : Reader}
  {post post' : α → List Token → Stage → Reader → Prop}

/-- A course that starts at the end of a path. -/
theorem of_path {tokens : List Token} {result : EStateM.Result Error Reader α}
    (hpath : Path stage reader tokens here middle)
    (h : Course here middle (fun value more => post value (tokens ++ more)) result) :
    Course stage reader post result := by
  cases h with
  | ok value more last after hmore hpost => exact .ok value _ last after (hpath.append hmore) hpost
  | error error more last before after hmore hhalts =>
    exact .error error _ last before after (hpath.append hmore) hhalts

theorem bind {first : Reading α} {next : α → Reading β}
    {post' : β → List Token → Stage → Reader → Prop}
    (hfirst : Course stage reader post (first reader))
    (hnext : ∀ value tokens here middle, Path stage reader tokens here middle →
      post value tokens here middle →
        Course here middle (fun value more => post' value (tokens ++ more)) (next value middle)) :
    Course stage reader post' ((first >>= next) reader) := by
  generalize hresult : first reader = result at hfirst
  cases hfirst with
  | ok value tokens here middle hpath hpost =>
    rw [bind_of_ok hresult]
    exact of_path hpath (hnext value tokens here middle hpath hpost)
  | error error tokens here before after hpath hhalts =>
    rw [bind_of_error hresult]
    exact .error error tokens here before after hpath hhalts

theorem pure (value : α) (h : post value [] stage reader) :
    Course stage reader post ((Pure.pure value : Reading α) reader) :=
  .ok value [] stage reader (.refl stage reader) h

theorem imp {result : EStateM.Result Error Reader α} (h : Course stage reader post result)
    (hpost : ∀ value tokens last after, Path stage reader tokens last after →
      post value tokens last after → post' value tokens last after) :
    Course stage reader post' result := by
  cases h with
  | ok value tokens last after hpath h =>
    exact .ok value tokens last after hpath (hpost value tokens last after hpath h)
  | error error tokens last before after hpath hhalts =>
    exact .error error tokens last before after hpath hhalts

/-- Something is left out in front of the lookahead. -/
theorem skip (hskips : Stage.Skips reader.depth stage reader.lookahead.symbol here)
    {result : EStateM.Result Error Reader α} (h : Course here reader post result) :
    Course stage reader post result :=
  of_path (.skip hskips (.refl here reader)) h

theorem halt {error : Error} {after : Reader} (h : Halts stage reader error after) :
    Course stage reader post (.error error after) :=
  .error error [] stage reader after (.refl stage reader) h

/-- The lookahead does not fit. -/
theorem unexpected {fault : GrammarFault} (hnext : stage.next reader.lookahead.symbol = none)
    (hfault : stage.fault? reader.lookahead.symbol = some fault) :
    Course stage reader post (reject reader.lookahead fault reader) :=
  halt (.unexpected fault hnext hfault)

end Course

end ArrayLiteral.Parsing
