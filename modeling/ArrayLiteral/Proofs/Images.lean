import ArrayLiteral.Proofs.Runs

/-!
# Builders that see images

What a run reads does not depend on the builder.  If one builder makes of every
number, opened and closed aggregate the image of what another one makes of it,
then every step that reads takes the image of a configuration to the image of
the next one (`step_image_ok`), and fails where the other one fails
(`step_image_error`).  Steps that hand over a value are left out, for builders
may differ in what they refuse.
-/

namespace ArrayLiteral

variable {σ α γ τ β δ : Type}

/-- `there` makes images of what `here` makes, as long as nothing is added. -/
structure Builder.Image (here : Builder σ α γ) (there : Builder τ β δ) (f : α → β) (g : γ → δ) :
    Prop where
  number : ∀ value, there.number value = f (here.number value)
  opened : there.opened = g here.opened
  closed : ∀ aggregate, there.closed (g aggregate) = f (here.closed aggregate)

namespace Parsing

open Reading

def Frame.map (g : γ → δ) (frame : Frame γ) : Frame δ :=
  { aggregate := g frame.aggregate, first := frame.first, designator? := frame.designator? }

def Control.map (f : α → β) (g : γ → δ) : Control α γ → Control β δ
  | .value => .value
  | .complete made => .complete (f made)
  | .between aggregate => .between (g aggregate)

def Config.map (f : α → β) (g : γ → δ) (config : Config α γ) : Config β δ :=
  { control := config.control.map f g, enclosing := config.enclosing.map (Frame.map g) }

section Step

variable {builder : Builder σ α γ} {state : σ} {config config' : Config α γ}
  {reading : Reading (Config α γ)} {reader after : Reader}

/-- A step that reads does what its reading does. -/
theorem step_ok_of_reading (hstep : step builder state config = Progress.next state <$> reading)
    (h : reading reader = .ok config' after) :
    step builder state config reader = .ok (.next state config') after := by
  rw [hstep]
  exact map_eq_ok_iff.2 ⟨config', h, rfl⟩

theorem step_error_of_reading {error : Error}
    (hstep : step builder state config = Progress.next state <$> reading)
    (h : reading reader = .error error after) :
    step builder state config reader = .error error after := by
  rw [hstep]
  exact map_eq_error_iff.2 h

end Step

section Reads

variable {here : Builder σ α γ} {there : Builder τ β δ} {f : α → β} {g : γ → δ}

theorem startInitializer_map (f : α → β) (g : γ → δ) (aggregate : γ)
    (enclosing : List (Frame γ)) :
    (startInitializer (g aggregate) (enclosing.map (Frame.map g)) : Reading (Config β δ)) =
      Config.map f g <$> startInitializer aggregate enclosing := by
  unfold startInitializer
  simp only [map_bind, map_pure]
  rfl

theorem closeAggregate_map (h : here.Image there f g) (aggregate : γ)
    (enclosing : List (Frame γ)) :
    closeAggregate there (g aggregate) (enclosing.map (Frame.map g)) =
      Config.map f g <$> closeAggregate here aggregate enclosing := by
  unfold closeAggregate
  simp only [map_bind, map_pure, h.closed]
  rfl

theorem startValue_map (h : here.Image there f g) (enclosing : List (Frame γ)) :
    startValue there (enclosing.map (Frame.map g)) =
      Config.map f g <$> startValue here enclosing := by
  unfold startValue
  rw [map_bind]
  congr 1
  funext token
  cases token.symbol with
  | number value =>
    simp only [map_bind, map_pure, h.number]
    rfl
  | mark punctuation =>
    cases punctuation with
    | leftCurly =>
      simp only [map_bind, h.opened, closeAggregate_map h, startInitializer_map f g]
      congr
      funext _
      congr
      funext _
      congr
      funext closing
      split <;> rfl
    | _ => rfl
  | eof => rfl

theorem continueAggregate_map (h : here.Image there f g) (aggregate : γ)
    (enclosing : List (Frame γ)) :
    continueAggregate there (g aggregate) (enclosing.map (Frame.map g)) =
      Config.map f g <$> continueAggregate here aggregate enclosing := by
  unfold continueAggregate
  rw [map_bind]
  congr 1
  funext token
  cases token.symbol with
  | number value => rfl
  | mark punctuation =>
    cases punctuation with
    | comma => simp only [map_bind, startInitializer_map f g]
    | endComma => simp only [map_bind, closeAggregate_map h]
    | rightCurly => exact closeAggregate_map h aggregate enclosing
    | _ => rfl
  | eof => rfl

variable {state : σ} {config : Config α γ} {reader after : Reader}

/-- A step that reads leads from the image of a configuration to the image of the
next one, and leaves the states of both builders as they are. -/
theorem step_image_ok (h : here.Image there f g) {state' : σ} {config' : Config α γ}
    (hread : config.handover? = none)
    (hstep : step here state config reader = .ok (.next state' config') after)
    (other : τ) :
    step there other (config.map f g) reader = .ok (.next other (config'.map f g)) after := by
  rcases config with ⟨control, enclosing⟩
  cases control with
  | value =>
    obtain ⟨next, hstart, heq⟩ := map_eq_ok_iff.1 hstep
    cases heq
    show (Progress.next other <$> startValue there (enclosing.map (Frame.map g))) reader = _
    rw [startValue_map h]
    exact map_eq_ok_iff.2 ⟨config'.map f g, map_eq_ok_iff.2 ⟨config', hstart, rfl⟩, rfl⟩
  | between aggregate =>
    obtain ⟨next, hcontinue, heq⟩ := map_eq_ok_iff.1 hstep
    cases heq
    show (Progress.next other <$> continueAggregate there (g aggregate)
      (enclosing.map (Frame.map g))) reader = _
    rw [continueAggregate_map h]
    exact map_eq_ok_iff.2 ⟨config'.map f g, map_eq_ok_iff.2 ⟨config', hcontinue, rfl⟩, rfl⟩
  | complete value =>
    cases enclosing with
    | nil => cases (pure_eq_ok_iff.1 hstep).1
    | cons frame enclosing => cases hread

/-- A step that reads fails for one builder as for the other. -/
theorem step_image_error (h : here.Image there f g) {error : Error}
    (hread : config.handover? = none)
    (hstep : step here state config reader = .error error after) (other : τ) :
    step there other (config.map f g) reader = .error error after := by
  rcases config with ⟨control, enclosing⟩
  cases control with
  | value =>
    have hstart := map_eq_error_iff.1 hstep
    show (Progress.next other <$> startValue there (enclosing.map (Frame.map g))) reader = _
    rw [startValue_map h]
    exact map_eq_error_iff.2 (map_eq_error_iff.2 hstart)
  | between aggregate =>
    have hcontinue := map_eq_error_iff.1 hstep
    show (Progress.next other <$> continueAggregate there (g aggregate)
      (enclosing.map (Frame.map g))) reader = _
    rw [continueAggregate_map h]
    exact map_eq_error_iff.2 (map_eq_error_iff.2 hcontinue)
  | complete value =>
    cases enclosing with
    | nil => cases hstep
    | cons frame enclosing => cases hread

end Reads

end Parsing

end ArrayLiteral
