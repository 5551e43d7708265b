import ArrayLiteral.Proofs.Images
import ArrayLiteral.Proofs.Pending

/-!
# Recursive descent

The parsing machine keeps the aggregates that are open on a stack of its own.  Here is
the same parser with one function for each rule of the grammar, where an aggregate is
open while the call that reads it goes on, and the stack is that of the calls.

`Descent.value` is cut off in three ways: so many calls of it may be nested in one another, so
many calls of the rule for aggregates may be open, and so many aggregates may have been entered
and not left.  Entering an aggregate is the first thing that the rule does, and it may be
refused.  So one call more may be open than there are aggregates that were entered.

Being cut off is not an error of the source, and no parser that is cut off says anything about
its source.  `unrolls_value` ties the calls to the machine: where the descent is inside so many
open aggregates, the machine has as many frames, and the depth of the reader is the same number.
The reader refuses to enter an aggregate at the limit on depth.  So no bound is ever met if they
are chosen with the limit on depth in mind, and the two parsers agree (`program?_eq`).
-/

namespace ArrayLiteral

open Parsing

/-- A step of a parser with a builder. It fails with an error of the source, or it is cut
off and says nothing. -/
abbrev Descent (σ : Type) := EStateM (Option Error) (σ × Reader)

namespace Descent

section Rules

variable {σ α β γ : Type} (builder : Builder σ α γ)

def cutOff : Descent σ β :=
  throw none

/-- A step of the reader. -/
def read (reading : Reading β) : Descent σ β := fun (state, reader) =>
  match reading reader with
  | .ok value after => .ok value (state, after)
  | .error error after => .error (some error) (state, after)

/-- A call of a rule, if any more of its calls may be open. The rule is told how many more. -/
def within (calls : Nat) (rule : Nat → Descent σ β) : Descent σ β :=
  match calls with
  | 0 => cutOff
  | calls + 1 => rule calls

/-- Hands a complete value to the builder. -/
def add (frame : Frame γ) (value : α) : Descent σ γ := fun (state, reader) =>
  match builder.add (frame.item value) (state, frame.aggregate) with
  | .ok () (state, aggregate) => .ok aggregate (state, reader)
  | .error refusal (state, _) => .error (some (frame.refused refusal)) (state, reader)

/-- Reads an initializer, with a call that reads its value. -/
def initializer (value : Descent σ α) (aggregate : γ) : Descent σ γ := do
  let first ← read Reading.lookahead
  let designator? ← read readTarget
  let built ← value
  add builder { aggregate, first, designator? } built

/-- Reads what follows an initializer: a comma and, with `again`, what it leads to, or a
trailing comma. The closing brace is left. -/
def separator (again : γ → Descent σ γ) (aggregate : γ) : Descent σ γ := do
  let token ← read Reading.lookahead
  match token.symbol with
  | .mark .comma =>
    let _ ← read Reading.consume
    again aggregate
  | .mark .endComma =>
    let _ ← read Reading.consume
    return aggregate
  | .mark .rightCurly => return aggregate
  | .number _ => read (Reading.reject token .missingSeparator)
  | .mark .leftCurly => read (Reading.reject token .missingSeparator)
  | .mark .leftSquare => read (Reading.reject token .missingSeparator)
  | _ => read (Reading.expected "COMMA, ENDCOMMA or RCURLY")

/-- Reads initializers up to the closing brace. The loop is cut off after so many rounds. -/
def initializers (value : Descent σ α) : (rounds : Nat) → γ → Descent σ γ
  | 0, _ => cutOff
  | rounds + 1, aggregate => do
    let aggregate ← initializer builder value aggregate
    separator (initializers value rounds) aggregate

/-- Reads the initializers of an aggregate, if there are any, where the loop is cut off after so
many rounds. -/
def itemsWithin (rounds : Nat) (value : Descent σ α) : Descent σ γ := do
  let closing ← read (Reading.isAt (.mark .rightCurly))
  if closing then return builder.opened else initializers builder value rounds builder.opened

/-- Reads the initializers of an aggregate. A round of the loop consumes a token, so there are
no more rounds than characters. -/
def items (value : Descent σ α) : Descent σ γ := do
  let (_, reader) ← get
  itemsWithin builder (reader.remaining + 1) value

/-- Reads the braces of an aggregate that was entered, with what is inside. -/
def braced (inside : Descent σ γ) : Descent σ α := do
  let _ ← read (Reading.require (.mark .leftCurly))
  let aggregate ← inside
  let _ ← read (Reading.require (.mark .rightCurly))
  read Reading.leaveAggregate
  return builder.closed aggregate

/-- Enters an aggregate, and reads it. -/
def aggregate (body : Descent σ α) : Descent σ α := do
  read Reading.enterAggregate
  body

/-- Reads a number, or calls the rule for aggregates. -/
def numberOr (call : Descent σ α) : Descent σ α := do
  let token ← read Reading.lookahead
  match token.symbol with
  | .number number =>
    let _ ← read Reading.consume
    return builder.number number
  | .mark .leftCurly => call
  | _ => read (Reading.expected "NUMBER or LCURLY")

/-- Reads a value. At most `values` of these calls are nested in one another, this one
included. At most `calls` calls of the rule for aggregates are open at the same time, and at most
`entered` aggregates are entered and not left. -/
def value : (values calls entered : Nat) → Descent σ α
  | 0, _, _ => cutOff
  | values + 1, calls, entered =>
    numberOr builder <| within calls fun calls =>
      aggregate <| within entered fun entered =>
        braced builder (items builder (value values calls entered))

/-- Parses a source that is one value, with nothing behind it. There is no result if the
parser is cut off. -/
def program? (values calls entered : Nat) (state : σ) (limits : Limits) (source : String) :
    Option (Except Error (α × σ)) :=
  match Reader.ofString source limits with
  | .error error => some (.error error)
  | .ok reader =>
    match value builder values calls entered (state, reader) with
    | .ok built (state, after) =>
      let found := after.lookahead
      some (if found.isEof then .ok (built, state)
        else .error (.grammar { found, fault := .trailingInput }))
    | .error error? _ => error?.map .error

end Rules

end Descent

/-! ## Readers -/

/-- The depth and the limits are the same, and no more pieces are pending. -/
structure Kept (reader after : Reader) : Prop where
  depth_eq : after.depth = reader.depth
  limits_eq : after.limits = reader.limits
  pending_le : after.pending ≤ reader.pending

namespace Kept

variable {reader middle after : Reader}

theorem refl (reader : Reader) : Kept reader reader :=
  ⟨rfl, rfl, Nat.le_refl _⟩

theorem trans (hfirst : Kept reader middle) (hsecond : Kept middle after) : Kept reader after where
  depth_eq := hsecond.depth_eq.trans hfirst.depth_eq
  limits_eq := hsecond.limits_eq.trans hfirst.limits_eq
  pending_le := Nat.le_trans hsecond.pending_le hfirst.pending_le

/-- A consumed token is one piece less. -/
theorem of_consume {token : Token} (h : Reading.consume reader = .ok token after)
    (hmore : reader.lookahead.isEof = false) :
    Kept reader after ∧ after.pending < reader.pending := by
  have hmetered : Metered 1 reader (Reading.consume reader) := Reading.metered_consume hmore
  rw [h] at hmetered
  obtain ⟨tokens, huses, hleast⟩ := hmetered.consumes
  have hpending := huses.pending_eq
  have hless : after.pending < reader.pending := by omega
  obtain ⟨lookahead, cursor, -, -, rfl⟩ := Reading.consume_eq_ok_iff.1 h
  exact ⟨⟨rfl, rfl, Nat.le_of_lt hless⟩, hless⟩

theorem of_require {punctuation : Punctuation} {token : Token}
    (h : Reading.require (.mark punctuation) reader = .ok token after) :
    Kept reader after ∧ after.pending < reader.pending := by
  obtain ⟨hkind, hconsume⟩ := Reading.require_eq_ok_iff.1 h
  have hsymbol := Reading.symbol_of_kind hkind
  exact of_consume hconsume (Token.isEof_of_symbol hsymbol (by nofun))

theorem of_readTarget {designator? : Option Designator}
    (h : readTarget reader = .ok designator? after) : Kept reader after := by
  have hread : Course .item reader _ (readTarget reader) := course_readTarget
  rw [h] at hread
  cases hread with
  | ok _ tokens last _ hpath hpost =>
    obtain ⟨-, hsymbols, -⟩ := hpost
    have hpending := hpath.uses.pending_eq
    refine ⟨?_, hpath.limits_eq, by omega⟩
    rw [hpath.depth_eq, hsymbols, foldl_depthBehind_targetSymbols]

end Kept

/-! ## The calls and the machine -/

namespace Parsing

open Reading

section Unrolls

variable {σ α β γ : Type} {outcome : Outcome σ α}

/-- The outcome of a run is this error, or the result has the property. The descent is not
cut off. -/
inductive Unrolls (outcome : Outcome σ α) (post : β → σ → Reader → Prop) :
    EStateM.Result (Option Error) (σ × Reader) β → Prop
  | ok (value : β) (state : σ) (after : Reader) (h : post value state after) :
    Unrolls outcome post (.ok value (state, after))
  | error (error : Error) (state : σ) (after : Reader)
    (h : outcome = { result := .error error, state, reader := after }) :
    Unrolls outcome post (.error (some error) (state, after))

variable {state : σ} {reader : Reader} {post : β → σ → Reader → Prop}

theorem Unrolls.bind {β' : Type} {post' : β' → σ → Reader → Prop} {first : Descent σ β}
    {next : β → Descent σ β'} (hfirst : Unrolls outcome post (first (state, reader)))
    (hnext : ∀ value state after, post value state after →
      Unrolls outcome post' (next value (state, after))) :
    Unrolls outcome post' ((first >>= next) (state, reader)) := by
  show Unrolls outcome post' (EStateM.bind first next (state, reader))
  unfold EStateM.bind
  generalize first (state, reader) = result at hfirst ⊢
  cases hfirst with
  | ok value state after h => exact hnext value state after h
  | error error state after h => exact .error error state after h

theorem Unrolls.imp {post' : β → σ → Reader → Prop}
    {result : EStateM.Result (Option Error) (σ × Reader) β} (h : Unrolls outcome post result)
    (hpost : ∀ value state after, post value state after → post' value state after) :
    Unrolls outcome post' result := by
  cases h with
  | ok value state after h => exact .ok value state after (hpost value state after h)
  | error error state after h => exact .error error state after h

variable (builder : Builder σ α γ)

/-- How a run goes on behind a step of the reader. -/
def resume (state : σ) : EStateM.Result Error Reader (Config α γ) → Outcome σ α
  | .ok config after => run builder state config after
  | .error error after => { result := .error error, state, reader := after }

theorem run_eq_resume {config : Config α γ} {reading : Reading (Config α γ)}
    (hstep : ∀ state, step builder state config = Progress.next state <$> reading) :
    run builder state config reader = resume builder state (reading reader) := by
  cases hreading : reading reader with
  | ok config' after => exact run_of_next (step_ok_of_reading (hstep state) hreading)
  | error error after => exact run_of_error (step_error_of_reading (hstep state) hreading)

/-- A step of the reader that the machine makes too. -/
theorem unrolls_read {reading : Reading β} {next : β → Reading (Config α γ)}
    (h : outcome = resume builder state ((reading >>= next) reader)) :
    Unrolls outcome (fun value state' after => state' = state ∧
      reading reader = .ok value after ∧ outcome = resume builder state (next value after))
      (Descent.read reading (state, reader)) := by
  have hbind : (reading >>= next) reader = EStateM.bind reading next reader := rfl
  unfold EStateM.bind at hbind
  rw [hbind] at h
  unfold Descent.read
  dsimp only
  generalize reading reader = result at h ⊢
  cases result with
  | ok value after => exact .ok value state after ⟨rfl, rfl, h⟩
  | error error after => exact .error error state after h

/-- A step that always fails. -/
theorem unrolls_fail {reading : Reading β} {error : Error} {after : Reader}
    (hfail : reading reader = .error error after)
    (h : outcome = { result := .error error, state, reader := after }) :
    Unrolls outcome post (Descent.read reading (state, reader)) := by
  unfold Descent.read
  dsimp only
  rw [hfail]
  exact .error error state after h

end Unrolls

section Rules

variable {σ α γ : Type} {builder : Builder σ α γ} {limits : Limits} {enclosing : List (Frame γ)}
  {outcome : Outcome σ α} {state : σ} {reader : Reader} {aggregate : γ} {fits : Reader → Prop}

/-- The value is complete here, and so it is where the machine has come to. What was open
around it still is. -/
structure Completed (builder : Builder σ α γ) (enclosing : List (Frame γ))
    (outcome : Outcome σ α) (reader : Reader) (built : α) (state : σ) (after : Reader) :
    Prop where
  depth_eq : after.depth = enclosing.length
  limits_eq : after.limits = reader.limits
  pending_le : after.pending ≤ reader.pending
  outcome_eq : outcome = run builder state ⟨.complete built, enclosing⟩ after

/-- What a call needs of its reader is still there when no more is pending. -/
def Persists (fits : Reader → Prop) : Prop :=
  ∀ ⦃reader after⦄, Kept reader after → fits reader → fits after

/-- From readers that fit, the call reads the value that the machine reads inside these
aggregates. -/
def UnrollsValue (builder : Builder σ α γ) (fits : Reader → Prop) (enclosing : List (Frame γ))
    (value : Descent σ α) : Prop :=
  ∀ state reader, reader.depth = enclosing.length → fits reader →
    Unrolls (run builder state ⟨.value, enclosing⟩ reader)
      (Completed builder enclosing (run builder state ⟨.value, enclosing⟩ reader) reader)
      (value (state, reader))

theorem unrolls_add (frame : Frame γ) (built : α)
    (h : outcome = run builder state ⟨.complete built, frame :: enclosing⟩ reader) :
    Unrolls outcome (fun aggregate state' after => after = reader ∧
      outcome = run builder state' ⟨.between aggregate, enclosing⟩ reader)
      (Descent.add builder frame built (state, reader)) := by
  unfold Descent.add
  dsimp only
  cases hadd : builder.add (frame.item built) (state, frame.aggregate) with
  | ok _ added => exact .ok _ _ reader ⟨rfl, h.trans (run_of_next (step_of_add_ok frame hadd))⟩
  | error refusal left =>
    exact .error _ left.1 reader (h.trans (run_of_refused (step_of_add_error frame hadd)))

theorem unrolls_initializer {value : Descent σ α} (hfits : Persists fits)
    (hvalue : ∀ frame, UnrollsValue builder fits (frame :: enclosing) value)
    (hdepth : reader.depth = enclosing.length + 1) (hreader : fits reader)
    (h : outcome = resume builder state (startInitializer aggregate enclosing reader)) :
    Unrolls outcome (fun aggregate' state' after => Kept reader after ∧
      outcome = run builder state' ⟨.between aggregate', enclosing⟩ after)
      (Descent.initializer builder value aggregate (state, reader)) := by
  unfold Descent.initializer
  refine (unrolls_read builder h).bind fun first state' same hfirst => ?_
  obtain ⟨rfl, hlookahead, hrest⟩ := hfirst
  cases hlookahead
  refine (unrolls_read builder hrest).bind fun designator? state' targeted htarget => ?_
  obtain ⟨rfl, htarget, hrest⟩ := htarget
  have htargeted := Kept.of_readTarget htarget
  have hinside := htargeted.depth_eq.trans hdepth
  have hread := hvalue { aggregate, first := reader.lookahead, designator? } state' targeted
    hinside (hfits htargeted hreader)
  have hrun : outcome = run builder state' ⟨.value,
      { aggregate, first := reader.lookahead, designator? } :: enclosing⟩ targeted := hrest
  rw [← hrun] at hread
  refine hread.bind fun built state' after hbuilt => ?_
  have hkept : Kept targeted after :=
    ⟨hbuilt.depth_eq.trans hinside.symm, hbuilt.limits_eq, hbuilt.pending_le⟩
  refine (unrolls_add _ built hbuilt.outcome_eq).imp fun aggregate' state' last hadded => ?_
  obtain ⟨rfl, hbetween⟩ := hadded
  exact ⟨htargeted.trans hkept, hbetween⟩

/-- The machine is about to read the closing brace of the aggregate. -/
structure AtClosing (builder : Builder σ α γ) (enclosing : List (Frame γ))
    (outcome : Outcome σ α) (reader : Reader) (aggregate : γ) (state : σ) (after : Reader) :
    Prop where
  kept : Kept reader after
  outcome_eq : outcome = resume builder state (closeAggregate builder aggregate enclosing after)

theorem AtClosing.of_kept {middle after : Reader} (hkept : Kept reader middle)
    (h : AtClosing builder enclosing outcome middle aggregate state after) :
    AtClosing builder enclosing outcome reader aggregate state after :=
  ⟨hkept.trans h.kept, h.outcome_eq⟩

/-- Behind a comma one piece less is pending, and the descent goes on where the machine starts
an initializer. -/
theorem unrolls_separator {again : γ → Descent σ γ}
    (hagain : ∀ separated, Kept reader separated → separated.pending < reader.pending →
      outcome = resume builder state (startInitializer aggregate enclosing separated) →
      Unrolls outcome (AtClosing builder enclosing outcome separated)
        (again aggregate (state, separated)))
    (h : outcome = resume builder state (continueAggregate builder aggregate enclosing reader)) :
    Unrolls outcome (AtClosing builder enclosing outcome reader)
      (Descent.separator again aggregate (state, reader)) := by
  unfold Descent.separator
  unfold continueAggregate at h
  refine (unrolls_read builder h).bind fun token state' same hlookahead => ?_
  obtain ⟨rfl, hlookahead, hrest⟩ := hlookahead
  cases hlookahead
  cases hsymbol : reader.lookahead.symbol with
  | number number =>
    simp only [hsymbol] at hrest
    exact unrolls_fail rfl hrest
  | mark punctuation =>
    have hmore : reader.lookahead.isEof = false := Token.isEof_of_symbol hsymbol (by nofun)
    cases punctuation with
    | comma =>
      simp only [hsymbol] at hrest
      refine (unrolls_read builder hrest).bind fun _ state' separated hcomma => ?_
      obtain ⟨rfl, hconsume, hnext⟩ := hcomma
      obtain ⟨hkept, hless⟩ := Kept.of_consume hconsume hmore
      exact (hagain separated hkept hless hnext).imp fun _ _ _ hlast => hlast.of_kept hkept
    | endComma =>
      simp only [hsymbol] at hrest
      refine (unrolls_read builder hrest).bind fun _ state' ended hcomma => ?_
      obtain ⟨rfl, hconsume, hclose⟩ := hcomma
      exact .ok _ _ _ ⟨(Kept.of_consume hconsume hmore).1, hclose⟩
    | rightCurly =>
      simp only [hsymbol] at hrest
      exact .ok _ _ _ ⟨.refl reader, hrest⟩
    | _ =>
      simp only [hsymbol] at hrest
      exact unrolls_fail rfl hrest
  | eof =>
    simp only [hsymbol] at hrest
    exact unrolls_fail rfl hrest

/-- A round of the loop consumes the comma at its end, so the loop is not cut off. -/
theorem unrolls_initializers {value : Descent σ α} (hfits : Persists fits)
    (hvalue : ∀ frame, UnrollsValue builder fits (frame :: enclosing) value) (rounds : Nat)
    (hdepth : reader.depth = enclosing.length + 1) (hreader : fits reader)
    (hrounds : reader.pending < rounds)
    (h : outcome = resume builder state (startInitializer aggregate enclosing reader)) :
    Unrolls outcome (AtClosing builder enclosing outcome reader)
      (Descent.initializers builder value rounds aggregate (state, reader)) := by
  induction rounds generalizing aggregate state reader with
  | zero => exact absurd hrounds (Nat.not_lt_zero _)
  | succ rounds ih =>
    unfold Descent.initializers
    refine (unrolls_initializer hfits hvalue hdepth hreader h).bind
      fun aggregate' state' after hadded => ?_
    obtain ⟨hkept, hbetween⟩ := hadded
    rw [run_eq_resume builder fun _ => rfl] at hbetween
    refine (unrolls_separator ?_ hbetween).imp fun _ _ _ hlast => hlast.of_kept hkept
    intro separated hseparated hless hnext
    have hall := hkept.trans hseparated
    have hle := hkept.pending_le
    exact ih (hall.depth_eq.trans hdepth) (hfits hall hreader) (by omega) hnext

/-- What the machine reads behind an opening brace. -/
def readItems (builder : Builder σ α γ) (enclosing : List (Frame γ)) :
    Reading (Config α γ) := do
  if ← isAt (.mark .rightCurly) then
    closeAggregate builder builder.opened enclosing
  else
    startInitializer builder.opened enclosing

/-- What the machine reads in a step of an aggregate that it has entered. -/
def openAggregate (builder : Builder σ α γ) (enclosing : List (Frame γ)) :
    Reading (Config α γ) := do
  let _ ← require (.mark .leftCurly)
  readItems builder enclosing

theorem unrolls_itemsWithin {value : Descent σ α} (hfits : Persists fits)
    (hvalue : ∀ frame, UnrollsValue builder fits (frame :: enclosing) value) (rounds : Nat)
    (hdepth : reader.depth = enclosing.length + 1) (hreader : fits reader)
    (hrounds : reader.pending < rounds)
    (h : outcome = resume builder state (readItems builder enclosing reader)) :
    Unrolls outcome (AtClosing builder enclosing outcome reader)
      (Descent.itemsWithin builder rounds value (state, reader)) := by
  unfold Descent.itemsWithin
  refine (unrolls_read builder h).bind fun closing state' same hclosing => ?_
  obtain ⟨rfl, hclosing, hrest⟩ := hclosing
  cases hclosing
  show Unrolls outcome _ ((if decide (reader.lookahead.kind = .mark .rightCurly) then _ else _ :
    Descent σ γ) (state', reader))
  by_cases hclosing : decide (reader.lookahead.kind = .mark .rightCurly) = true
  · rw [if_pos hclosing] at hrest ⊢
    exact .ok _ _ _ ⟨.refl reader, hrest⟩
  · rw [if_neg hclosing] at hrest ⊢
    exact unrolls_initializers hfits hvalue rounds hdepth hreader hrounds hrest

/-- Behind the opening brace one piece less is pending, and behind the closing brace the
aggregate is no longer open. -/
theorem unrolls_braced {inside : Descent σ γ} (hdepth : reader.depth = enclosing.length + 1)
    (hinside : ∀ opened, Kept reader opened → opened.pending < reader.pending →
      outcome = resume builder state (readItems builder enclosing opened) →
      Unrolls outcome (AtClosing builder enclosing outcome opened) (inside (state, opened)))
    (h : outcome = resume builder state (openAggregate builder enclosing reader)) :
    Unrolls outcome (Completed builder enclosing outcome reader)
      (Descent.braced builder inside (state, reader)) := by
  unfold openAggregate at h
  unfold Descent.braced
  refine (unrolls_read builder h).bind fun _ state' opened hopened => ?_
  obtain ⟨rfl, hbrace, hrest⟩ := hopened
  obtain ⟨hkept, hless⟩ := Kept.of_require hbrace
  refine (hinside opened hkept hless hrest).bind fun aggregate state' filled hfilled => ?_
  have hread := hkept.trans hfilled.kept
  refine (unrolls_read builder hfilled.outcome_eq).bind fun _ state' closed hclosed => ?_
  obtain ⟨rfl, hbrace, hrest⟩ := hclosed
  have hall := hread.trans (Kept.of_require hbrace).1
  refine (unrolls_read builder hrest).bind fun _ state' left hleft => ?_
  obtain ⟨rfl, hleave, hcomplete⟩ := hleft
  cases hleave
  have hleft : closed.depth - 1 = enclosing.length := by
    rw [hall.depth_eq, hdepth]
    rfl
  exact .ok _ _ _ ⟨hleft, hall.limits_eq, hall.pending_le, hcomplete⟩

/-- There are no more rounds than characters, for every piece has one. -/
theorem unrolls_items {value : Descent σ α} (hfits : Persists fits)
    (hvalue : ∀ frame, UnrollsValue builder fits (frame :: enclosing) value)
    (hdepth : reader.depth = enclosing.length + 1) (hreader : fits reader)
    (h : outcome = resume builder state (readItems builder enclosing reader)) :
    Unrolls outcome (AtClosing builder enclosing outcome reader)
      (Descent.items builder value (state, reader)) :=
  unrolls_itemsWithin hfits hvalue (reader.remaining + 1) hdepth hreader
    (Nat.lt_succ_of_le reader.pending_le_remaining) h

/-- An aggregate is entered only where there is room. -/
theorem unrolls_aggregate {body : Descent σ α} (hdepth : reader.depth = enclosing.length)
    (hbody : enclosing.length < reader.limits.maxDepth.toNat →
      outcome = resume builder state
        (openAggregate builder enclosing { reader with depth := reader.depth + 1 }) →
      Unrolls outcome (Completed builder enclosing outcome reader)
        (body (state, { reader with depth := reader.depth + 1 })))
    (h : outcome = resume builder state
      ((enterAggregate >>= fun _ => openAggregate builder enclosing) reader)) :
    Unrolls outcome (Completed builder enclosing outcome reader)
      (Descent.aggregate body (state, reader)) := by
  unfold Descent.aggregate
  refine (unrolls_read builder h).bind fun _ state' entered henter => ?_
  obtain ⟨rfl, henter, hrest⟩ := henter
  obtain ⟨hroom, rfl⟩ := enterAggregate_eq_ok_iff.1 henter
  rw [hdepth] at hroom
  exact hbody hroom hrest

/-- A number is complete at once. An aggregate is read only where a brace is pending. -/
theorem unrolls_numberOr {call : Descent σ α} (hdepth : reader.depth = enclosing.length)
    (hcall : reader.lookahead.isEof = false →
      outcome = resume builder state
        ((enterAggregate >>= fun _ => openAggregate builder enclosing) reader) →
      Unrolls outcome (Completed builder enclosing outcome reader) (call (state, reader)))
    (h : outcome = run builder state ⟨.value, enclosing⟩ reader) :
    Unrolls outcome (Completed builder enclosing outcome reader)
      (Descent.numberOr builder call (state, reader)) := by
  rw [run_eq_resume builder fun _ => rfl] at h
  unfold startValue at h
  unfold Descent.numberOr
  refine (unrolls_read builder h).bind fun token state' same hlookahead => ?_
  obtain ⟨rfl, hlookahead, hrest⟩ := hlookahead
  cases hlookahead
  cases hsymbol : reader.lookahead.symbol with
  | number number =>
    simp only [hsymbol] at hrest
    refine (unrolls_read builder hrest).bind fun _ state' after hnumber => ?_
    obtain ⟨rfl, hconsume, hcomplete⟩ := hnumber
    have hmore : reader.lookahead.isEof = false := Token.isEof_of_symbol hsymbol (by nofun)
    obtain ⟨hkept, -⟩ := Kept.of_consume hconsume hmore
    exact .ok _ _ _ ⟨hkept.depth_eq.trans hdepth, hkept.limits_eq, hkept.pending_le, hcomplete⟩
  | mark punctuation =>
    cases punctuation with
    | leftCurly =>
      simp only [hsymbol] at hrest
      exact hcall (Token.isEof_of_symbol hsymbol (by nofun)) hrest
    | _ =>
      simp only [hsymbol] at hrest
      exact unrolls_fail rfl hrest
  | eof =>
    simp only [hsymbol] at hrest
    exact unrolls_fail rfl hrest

/-- Inside as many aggregates as the machine has frames, a call reads what the machine
reads, and is not cut off if the bounds allow for the rest of the limit on depth. -/
theorem unrolls_value (builder : Builder σ α γ) (values calls entered : Nat)
    (hdepth : enclosing.length ≤ limits.maxDepth.toNat)
    (hvalues : limits.maxDepth.toNat < enclosing.length + values)
    (hcalls : limits.maxDepth.toNat < enclosing.length + calls)
    (hentered : limits.maxDepth.toNat ≤ enclosing.length + entered) :
    UnrollsValue builder (fun reader => reader.limits = limits) enclosing
      (Descent.value builder values calls entered) := by
  induction values generalizing calls entered enclosing with
  | zero => omega
  | succ values ih =>
    intro state reader hopen hlimits
    refine unrolls_numberOr hopen (fun _ hrest => ?_) rfl
    -- Inside no more aggregates than the limit there is a call left.
    cases calls with
    | zero => omega
    | succ calls =>
      refine unrolls_aggregate hopen (fun hroom hrest => ?_) hrest
      rw [hlimits] at hroom
      -- The aggregate was entered, so there was room for it.
      cases entered with
      | zero => omega
      | succ entered =>
        have hvalue : ∀ frame, UnrollsValue builder (fun reader => reader.limits = limits)
            (frame :: enclosing) (Descent.value builder values calls entered) := by
          intro frame
          apply ih
          · exact hroom
          · rw [List.length_cons]
            omega
          · rw [List.length_cons]
            omega
          · rw [List.length_cons]
            omega
        have hfits : Persists fun reader => reader.limits = limits := fun _ _ hkept hsame =>
          hkept.limits_eq.trans hsame
        have hdeeper : ({ reader with depth := reader.depth + 1 } : Reader).depth =
            enclosing.length + 1 := congrArg (· + 1) hopen
        refine (unrolls_braced hdeeper (fun opened hkept _ hitems => ?_) hrest).imp
          fun built state' after hlast => ?_
        · exact unrolls_items hfits hvalue (hkept.depth_eq.trans hdeeper)
            (hfits hkept hlimits) hitems
        · exact ⟨hlast.depth_eq, hlast.limits_eq, hlast.pending_le, hlast.outcome_eq⟩

/-! ## Parses -/

/-- A parser that allows one call of either rule more than the limit on depth, and as many
aggregates that were entered as the limit, agrees with the machine on every source. -/
theorem program?_eq (builder : Builder σ α γ) (values calls entered : Nat) (state : σ)
    (limits : Limits) (source : String) (hvalues : limits.maxDepth.toNat < values)
    (hcalls : limits.maxDepth.toNat < calls) (hentered : limits.maxDepth.toNat ≤ entered) :
    Descent.program? builder values calls entered state limits source =
      some (parseWhole builder state limits source) := by
  unfold Descent.program?
  cases hreader : Reader.ofString source limits with
  | error error => rw [parseWhole_of_error builder state hreader]
  | ok reader =>
    obtain ⟨-, -, hlimits, hdepth⟩ := Reader.scan_of_ofString hreader
    have hunrolls : Unrolls (run builder state ⟨.value, []⟩ reader) _
        (Descent.value builder values calls entered (state, reader)) :=
      unrolls_value builder values calls entered (Nat.zero_le _) (by simpa using hvalues)
        (by simpa using hcalls) (by simpa using hentered) state reader hdepth hlimits
    rw [parseWhole_eq builder state hreader]
    generalize run builder state ⟨.value, []⟩ reader = outcome at hunrolls ⊢
    dsimp only
    generalize Descent.value builder values calls entered (state, reader) = result at hunrolls ⊢
    cases hunrolls with
    | ok built state' after h =>
      rw [h.outcome_eq, run_complete]
      rfl
    | error error state' after houtcome =>
      rw [houtcome]
      rfl

end Rules

/-- With one call for a value less it is cut off. -/
example : Descent.program? literalBuilder 1 2 1 () { maxDepth := 1 } "\x7b1\x7d" = none :=
  rfl

end Parsing

end ArrayLiteral
