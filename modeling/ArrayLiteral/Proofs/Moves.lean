import ArrayLiteral.Parsing.Run
import ArrayLiteral.Proofs.Grammar
import ArrayLiteral.Proofs.Scan

/-!
# Moves of the parsing machine

A move reads the symbols that `Move` gives it, and a path passes the tokens that it is made of
(`Path.passes`).  The depth of the reader is then the number of open aggregates, for entering
and leaving can be told from the symbols (`Move.foldl_depthBehind`).

`stepped_of_step` is the inversion of a step that succeeds: it handed a value to
the builder, or it made a move.  Every invariant of the machine is proved from it and
never by opening `step`.
-/

namespace ArrayLiteral.Parsing

open Reading

/-! ## Tokens that are passed -/

theorem Takes.passes {stage last : Stage} {reader after : Reader}
    (h : Takes stage reader last after) : Passes [reader.lookahead] reader after where
  consumed := h.consumed_eq
  scan := by rw [Reader.scan_of_more h.isEof_eq, after.scan_of_next h.pull_eq]
  limits := h.limits_eq

theorem Path.passes {stage last : Stage} {reader after : Reader} {tokens : List Token}
    (h : Path stage reader tokens last after) : Passes tokens reader after := by
  induction h with
  | refl stage reader => exact .refl reader
  | skip _ _ ih => exact ih
  | take h _ ih => exact h.passes.append ih

/-! ## The number of open aggregates -/

section Depth

variable {σ α γ : Type} {builder : Builder σ α γ}

/-- The number of aggregates that are open. Between two initializers the
innermost one has no frame. -/
def Config.openCount (config : Config α γ) : Nat :=
  match config.control with
  | .between _ => config.enclosing.length + 1
  | _ => config.enclosing.length

theorem foldl_depthBehind_targetSymbols (designator? : Option Designator) (depth : Nat) :
    (targetSymbols designator?).foldl (fun depth symbol => depthBehind symbol depth) depth =
      depth := by
  rcases designator? with _ | ⟨index⟩ | ⟨start, stop⟩ <;> rfl

/-- The symbols of a move open and close as many aggregates as the machine does, whatever is
open around it. -/
theorem Move.foldl_depthBehind {limits : Limits} {depth : Nat} {config config' : Config α γ}
    {symbols : List Symbol} (h : Move builder limits depth config symbols config') (outer : Nat) :
    symbols.foldl (fun depth symbol => depthBehind symbol depth) (outer + config.openCount) =
      outer + config'.openCount := by
  cases h with
  | opening enclosing first designator? _ _ =>
    rw [List.foldl_cons, foldl_depthBehind_targetSymbols]
    rfl
  | comma aggregate enclosing first designator? _ =>
    rw [List.foldl_cons, foldl_depthBehind_targetSymbols]
    rfl
  | _ => rfl

end Depth

/-! ## Steps of the machine that succeed -/

section Steps

variable {σ α γ : Type} {builder : Builder σ α γ} {aggregate : γ} {enclosing : List (Frame γ)}
  {config config' : Config α γ} {state state' : σ} {reader after : Reader}

theorem step_of_add_ok (frame : Frame γ) {value : α}
    (h : builder.add (frame.item value) (state, frame.aggregate) = .ok () (state', aggregate)) :
    step builder state ⟨.complete value, frame :: enclosing⟩ reader =
      .ok (.next state' ⟨.between aggregate, enclosing⟩) reader := by
  simp only [step, addInitializer, h]
  rfl

/-- A refusal names the first token of the initializer. -/
theorem step_of_add_error (frame : Frame γ) {value : α} {refusal : Refusal}
    (h : builder.add (frame.item value) (state, frame.aggregate) =
      .error refusal (state', aggregate)) :
    step builder state ⟨.complete value, frame :: enclosing⟩ reader =
      .ok (.refused state' (frame.refused refusal)) reader := by
  simp only [step, addInitializer, h]
  rfl

/-- What a step did that succeeded. -/
inductive Stepped (builder : Builder σ α γ) (state : σ) (config : Config α γ) (reader : Reader)
    (state' : σ) (config' : Config α γ) (after : Reader) : Prop
  /-- It handed a value to the builder. -/
  | added (frame : Frame γ) (value : α) (aggregate : γ) (enclosing : List (Frame γ))
    (hconfig : config = ⟨.complete value, frame :: enclosing⟩)
    (hconfig' : config' = ⟨.between aggregate, enclosing⟩)
    (hadd : builder.add (frame.item value) (state, frame.aggregate) = .ok () (state', aggregate))
    (hreader : after = reader)
  /-- It consumed some tokens. -/
  | moved (tokens : List Token)
    (hstate : state' = state)
    (hmoves : Moves builder config reader config' tokens config'.stage after)
    (hpath : Path config.stage reader tokens config'.stage after)

theorem stepped_of_step
    (h : step builder state config reader = .ok (.next state' config') after) :
    Stepped builder state config reader state' config' after := by
  obtain ⟨value, hcomplete⟩ | ⟨reading, hstep, hcourse⟩ := reading_cases builder config
  · rcases config with ⟨_, enclosing⟩
    cases hcomplete
    cases enclosing with
    | nil => cases (pure_eq_ok_iff.1 h).1
    | cons frame enclosing =>
      cases hadd : builder.add (frame.item value) (state, frame.aggregate) with
      | ok _ added =>
        rw [step_of_add_ok frame hadd] at h
        cases h
        exact .added frame value added.2 enclosing rfl rfl hadd rfl
      | error refusal left =>
        rw [step_of_add_error frame hadd] at h
        cases h
  · rw [hstep] at h
    obtain ⟨next, hreading, heq⟩ := map_eq_ok_iff.1 h
    cases heq
    have hread := hcourse reader
    rw [hreading] at hread
    cases hread with
    | ok _ tokens last _ hpath hmoves =>
      obtain rfl := hmoves.last_eq
      exact .moved tokens rfl hmoves hpath

/-- Every step keeps the depth at the number of open aggregates, besides those that were open
before. -/
theorem depth_of_step {outer : Nat} (hdepth : reader.depth = outer + config.openCount)
    (h : step builder state config reader = .ok (.next state' config') after) :
    after.depth = outer + config'.openCount := by
  cases stepped_of_step h with
  | added frame value aggregate enclosing hconfig hconfig' _ hreader =>
    rw [hreader, hdepth, hconfig, hconfig']
    rfl
  | moved tokens _ hmoves hpath => rw [hpath.depth_eq, hdepth, hmoves.move.foldl_depthBehind]

/-! ## Steps that fail -/

/-- A step that fails comes to a halt, for only readers fail. -/
theorem halts_of_step_error {error : Error}
    (h : step builder state config reader = .error error after) :
    ∃ tokens last before, Path config.stage reader tokens last before ∧
      Halts last before error after := by
  obtain ⟨value, hcomplete⟩ | ⟨reading, hstep, hcourse⟩ := reading_cases builder config
  · rcases config with ⟨_, enclosing⟩
    cases hcomplete
    cases enclosing <;> cases h
  · rw [hstep] at h
    have hread := hcourse reader
    rw [map_eq_error_iff.1 h] at hread
    cases hread with
    | error _ tokens last before _ hpath hhalts => exact ⟨tokens, last, before, hpath, hhalts⟩

end Steps

end ArrayLiteral.Parsing
