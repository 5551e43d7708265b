import ArrayLiteral.Output
import ArrayLiteral.Proofs.Moves

/-!
# Runs of the parsing machine

`run_induction` is induction along a run, and `run_ok` the way to use an
invariant: what every step keeps holds where a successful run ends.

`handovers` is the trace of a run: every initializer that it hands to the
builder, in this order, with what is known of it then.  Nested initializers
stand before the one that they are nested in, for they are handed over first.
The trace does not depend on how the run ends.

`parseWhole` is a run and a look at the end of the input, and parsing in a mode
is `parseWhole` with the builder of that mode.
-/

namespace ArrayLiteral

namespace Parsing

open Reading

/-- An initializer as it is handed to a builder. -/
structure Handover (α γ : Type) where
  /-- The first token of the initializer. -/
  first : Token
  /-- The aggregate that it is for, without it. -/
  aggregate : γ
  item : Initializer α

/-- How a value is handed over that is complete in this frame. -/
def Frame.handover {α γ : Type} (frame : Frame γ) (value : α) : Handover α γ where
  first := frame.first
  aggregate := frame.aggregate
  item := frame.item value

/-- The initializer that the next step hands over, if it hands one over. -/
def Config.handover? {α γ : Type} : Config α γ → Option (Handover α γ)
  | ⟨.complete value, frame :: _⟩ => some (frame.handover value)
  | _ => none

/-- A configuration of the literal builder. -/
abbrev LiteralConfig := Config Literal (Array (Initializer Literal))

/-- An initializer as the literal builder receives it. -/
abbrev LiteralHandover := Handover Literal (Array (Initializer Literal))

variable {σ α γ : Type} (builder : Builder σ α γ)

/-- The initializers that a run hands to the builder. -/
def handovers (state : σ) (config : Config α γ) (reader : Reader) : List (Handover α γ) :=
  config.handover?.toList ++
    match _ : step builder state config reader with
    | .ok (.next state config) reader => handovers state config reader
    | _ => []
termination_by 2 * reader.remaining + config.control.rank
decreasing_by
  rename_i hstep
  exact step_remaining hstep

/-- Induction along a run: a property of all configurations, proved from what it
says of the next one. -/
@[elab_as_elim]
theorem run_induction {motive : σ → Config α γ → Reader → Prop}
    (next : ∀ state config reader,
      (∀ state' config' after,
        step builder state config reader = .ok (.next state' config') after →
          motive state' config' after) →
      motive state config reader)
    (state : σ) (config : Config α γ) (reader : Reader) : motive state config reader :=
  next state config reader fun state' config' after _ =>
    run_induction next state' config' after
termination_by 2 * reader.remaining + config.control.rank
decreasing_by
  rename_i hstep
  exact step_remaining hstep

section Step

variable {builder} {state state' : σ} {config config' : Config α γ} {reader after : Reader}

theorem run_of_next (h : step builder state config reader = .ok (.next state' config') after) :
    run builder state config reader = run builder state' config' after := by
  rw [run]
  split <;> rename_i hstep <;> rw [h] at hstep <;> cases hstep
  rfl

theorem run_of_finished {value : α}
    (h : step builder state config reader = .ok (.finished value) after) :
    run builder state config reader = { result := .ok value, state, reader := after } := by
  rw [run]
  split <;> rename_i hstep <;> rw [h] at hstep <;> cases hstep
  rfl

theorem run_of_error {error : Error} (h : step builder state config reader = .error error after) :
    run builder state config reader = { result := .error error, state, reader := after } := by
  rw [run]
  split <;> rename_i hstep <;> rw [h] at hstep <;> cases hstep
  rfl

theorem run_of_refused {error : Error}
    (h : step builder state config reader = .ok (.refused state' error) after) :
    run builder state config reader =
      { result := .error error, state := state', reader := after } := by
  rw [run]
  split <;> rename_i hstep <;> rw [h] at hstep <;> cases hstep
  rfl

theorem run_complete (builder : Builder σ α γ) (state : σ) (value : α) (reader : Reader) :
    run builder state ⟨.complete value, []⟩ reader = { result := .ok value, state, reader } :=
  run_of_finished rfl

/-- The literal builder takes every initializer. -/
theorem run_added (literal : Literal) (frame : Frame (Array (Initializer Literal)))
    (enclosing : List (Frame (Array (Initializer Literal)))) (reader : Reader) :
    run literalBuilder () ⟨.complete literal, frame :: enclosing⟩ reader =
      run literalBuilder ()
        ⟨.between (frame.aggregate.push (frame.handover literal).item), enclosing⟩ reader :=
  run_of_next (step_of_add_ok frame rfl)

/-- A step finishes a run exactly if a value is complete and nothing is around it. -/
theorem step_finished_iff {value : α} :
    step builder state config reader = .ok (.finished value) after ↔
      config = ⟨.complete value, []⟩ ∧ after = reader := by
  rcases config with ⟨control, enclosing⟩
  cases control with
  | value =>
    constructor
    · intro h
      obtain ⟨_, _, heq⟩ := map_eq_ok_iff.1 h
      cases heq
    · intro h
      obtain ⟨heq, -⟩ := h
      cases heq
  | between aggregate =>
    constructor
    · intro h
      obtain ⟨_, _, heq⟩ := map_eq_ok_iff.1 h
      cases heq
    · intro h
      obtain ⟨heq, -⟩ := h
      cases heq
  | complete given =>
    cases enclosing with
    | nil =>
      constructor
      · intro h
        obtain ⟨heq, rfl⟩ := pure_eq_ok_iff.1 h
        cases heq
        exact ⟨rfl, rfl⟩
      · intro h
        obtain ⟨heq, rfl⟩ := h
        cases heq
        rfl
    | cons frame enclosing =>
      constructor
      · intro h
        cases hadd : builder.add (frame.item given) (state, frame.aggregate) with
        | ok _ added =>
          rw [step_of_add_ok frame hadd] at h
          cases h
        | error refusal left =>
          rw [step_of_add_error frame hadd] at h
          cases h
      · intro h
        obtain ⟨heq, -⟩ := h
        cases heq

/-- A run is refused only where it hands a value over. -/
theorem exists_of_step_refused {error : Error}
    (h : step builder state config reader = .ok (.refused state' error) after) :
    ∃ value frame enclosing refusal left, config = ⟨.complete value, frame :: enclosing⟩ ∧
      builder.add (frame.item value) (state, frame.aggregate) = .error refusal (state', left) ∧
      error = frame.refused refusal ∧ after = reader := by
  rcases config with ⟨control, enclosing⟩
  cases control with
  | value =>
    obtain ⟨_, _, heq⟩ := map_eq_ok_iff.1 h
    cases heq
  | between aggregate =>
    obtain ⟨_, _, heq⟩ := map_eq_ok_iff.1 h
    cases heq
  | complete value =>
    cases enclosing with
    | nil => cases (pure_eq_ok_iff.1 h).1
    | cons frame enclosing =>
      cases hadd : builder.add (frame.item value) (state, frame.aggregate) with
      | ok _ added =>
        rw [step_of_add_ok frame hadd] at h
        cases h
      | error refusal left =>
        rw [step_of_add_error frame hadd] at h
        cases h
        exact ⟨value, frame, enclosing, refusal, left.2, rfl, hadd, rfl, rfl⟩

theorem handovers_of_next
    (h : step builder state config reader = .ok (.next state' config') after) :
    handovers builder state config reader =
      config.handover?.toList ++ handovers builder state' config' after := by
  rw [handovers]
  congr 1
  split
  · rename_i hstep
    rw [h] at hstep
    cases hstep
    rfl
  · rename_i hstep
    exact absurd h (hstep _ _ _)

theorem handovers_of_end
    (h : ∀ state' config' after,
      step builder state config reader ≠ .ok (.next state' config') after) :
    handovers builder state config reader = config.handover?.toList := by
  rw [handovers]
  split
  · rename_i hstep
    exact absurd hstep (h _ _ _)
  · exact List.append_nil _

end Step

/-- Where a run succeeds, everything holds that held at the start and that every
step keeps. -/
theorem run_ok {P : σ → Config α γ → Reader → Prop}
    (hstep : ∀ {state config reader state' config' after}, P state config reader →
      step builder state config reader = .ok (.next state' config') after →
        P state' config' after)
    {state : σ} {config : Config α γ} {reader : Reader} {value : α} (h : P state config reader)
    (hrun : (run builder state config reader).result = .ok value) :
    P (run builder state config reader).state ⟨.complete value, []⟩
      (run builder state config reader).reader := by
  induction state, config, reader using run_induction builder with
  | next state config reader ih =>
    cases hresult : step builder state config reader with
    | error error after =>
      rw [run_of_error hresult] at hrun
      cases hrun
    | ok progress after =>
      cases progress with
      | finished given =>
        rw [run_of_finished hresult] at hrun ⊢
        cases hrun
        obtain ⟨rfl, rfl⟩ := step_finished_iff.1 hresult
        exact h
      | refused state' error =>
        rw [run_of_refused hresult] at hrun
        cases hrun
      | next state' config' =>
        rw [run_of_next hresult] at hrun ⊢
        exact ih _ _ _ hresult (hstep h hresult) hrun

/-! ## Parses -/

section Whole

variable {limits : Limits} {source : String}

/-- A run that ends before the end of the input is no parse of the whole source. -/
theorem parseWhole_eq (state : σ) {reader : Reader}
    (hreader : Reader.ofString source limits = .ok reader) :
    parseWhole builder state limits source =
      (run builder state ⟨.value, []⟩ reader).result.bind fun value =>
        if (run builder state ⟨.value, []⟩ reader).reader.lookahead.isEof then
          .ok (value, (run builder state ⟨.value, []⟩ reader).state)
        else
          .error (.grammar {
            found := (run builder state ⟨.value, []⟩ reader).reader.lookahead
            fault := .trailingInput }) := by
  unfold parseWhole
  rw [hreader]
  rfl

/-- A parse of the whole source is a run that ends at the end of the input. -/
theorem exists_run_of_parseWhole {state : σ} {made : α × σ}
    (h : parseWhole builder state limits source = .ok made) :
    ∃ reader, Reader.ofString source limits = .ok reader ∧
      (run builder state ⟨.value, []⟩ reader).result = .ok made.1 ∧
      (run builder state ⟨.value, []⟩ reader).reader.lookahead.isEof = true := by
  cases hreader : Reader.ofString source limits with
  | error error =>
    unfold parseWhole at h
    rw [hreader] at h
    cases h
  | ok reader =>
    rw [parseWhole_eq builder state hreader] at h
    cases hresult : (run builder state ⟨.value, []⟩ reader).result with
    | error error =>
      rw [hresult] at h
      cases h
    | ok value =>
      rw [hresult] at h
      simp only [Except.bind] at h
      split at h
      · rename_i hend
        cases h
        exact ⟨reader, rfl, hresult, hend⟩
      · cases h

theorem parseWhole_of_error (state : σ) {error : Error}
    (hreader : Reader.ofString source limits = .error error) :
    parseWhole builder state limits source = .error error := by
  unfold parseWhole
  rw [hreader]
  rfl

end Whole

end Parsing

open Parsing

section Modes

variable {limits : Limits} {source : String}

theorem parse_array_of_parseWhole {result : Except Error (Value × Budget)}
    (h : parseWhole arrayBuilder (.ofLimit limits.maxArrayLen) limits source = result) :
    parse .array limits source = result.map fun made => .array made.1 := by
  show ((parseWhole arrayBuilder (.ofLimit limits.maxArrayLen) limits source).map Prod.fst).map
    Output.array = _
  rw [h]
  cases result <;> rfl

theorem parse_ast_of_parseWhole {result : Except Error (Literal × Unit)}
    (h : parseWhole literalBuilder () limits source = result) :
    parse .ast limits source = result.map fun made => .ast made.1 := by
  show ((parseWhole literalBuilder () limits source).map Prod.fst).map Output.ast = _
  rw [h]
  cases result <;> rfl

theorem parse_ast_eq_ok_iff_parseWhole {literal : Literal} :
    parse .ast limits source = .ok (.ast literal) ↔
      parseWhole literalBuilder () limits source = .ok (literal, ()) := by
  cases hwhole : parseWhole literalBuilder () limits source with
  | error error =>
    rw [parse_ast_of_parseWhole hwhole]
    simp [Except.map]
  | ok made =>
    rw [parse_ast_of_parseWhole hwhole]
    simp [Except.map, Prod.ext_iff]

theorem parse_array_eq_ok_iff_parseWhole {value : Value} :
    parse .array limits source = .ok (.array value) ↔
      ∃ budget, parseWhole arrayBuilder (.ofLimit limits.maxArrayLen) limits source =
        .ok (value, budget) := by
  cases hwhole : parseWhole arrayBuilder (.ofLimit limits.maxArrayLen) limits source with
  | error error =>
    rw [parse_array_of_parseWhole hwhole]
    simp [Except.map]
  | ok made =>
    rw [parse_array_of_parseWhole hwhole]
    simp [Except.map, Prod.ext_iff]

end Modes

end ArrayLiteral
