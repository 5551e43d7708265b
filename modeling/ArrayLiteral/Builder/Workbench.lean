import ArrayLiteral.Builder

/-!
# Workbenches

A workbench drives a builder by hand.  Finished values and open aggregates are
on two stacks.  A value that is added to an aggregate is taken off its stack
first, so a refused value is lost.
-/

namespace ArrayLiteral

/-- A builder at work, with the last value and the innermost aggregate first. -/
structure Workbench (σ α γ : Type) where
  state : σ
  values : List α
  aggregates : List γ

/-- One thing to do at a workbench. -/
inductive Workbench.Action
  | number (value : UInt64)
  | openAggregate
  /-- Adds the last value to the innermost aggregate. -/
  | add (designator? : Option Designator)
  | closeAggregate

/-- Why an action was not done. -/
inductive Workbench.Fault
  | noAggregate
  | noValue
  | refused (refusal : Refusal)
  deriving DecidableEq

namespace Workbench

variable {σ α γ : Type}

/-- Nothing is on it yet. -/
def ofState (state : σ) : Workbench σ α γ :=
  { state, values := [], aggregates := [] }

/-- Does one action, or says why it was not done. -/
def act (builder : Builder σ α γ) (bench : Workbench σ α γ) :
    Action → Option Fault × Workbench σ α γ
  | .number value => (none, { bench with values := builder.number value :: bench.values })
  | .openAggregate => (none, { bench with aggregates := builder.opened :: bench.aggregates })
  | .add designator? =>
    match bench.aggregates, bench.values with
    | [], _ => (some .noAggregate, bench)
    | _, [] => (some .noValue, bench)
    | aggregate :: aggregates, value :: values =>
      match builder.add { designator?, value } (bench.state, aggregate) with
      | .ok () (state, aggregate) =>
        (none, { state, values, aggregates := aggregate :: aggregates })
      | .error refusal (state, aggregate) =>
        (some (.refused refusal), { state, values, aggregates := aggregate :: aggregates })
  | .closeAggregate =>
    match bench.aggregates with
    | [] => (some .noAggregate, bench)
    | aggregate :: aggregates =>
      (none, { bench with values := builder.closed aggregate :: bench.values, aggregates })

/-- The innermost aggregate as if it were complete. -/
def innermost? (builder : Builder σ α γ) (bench : Workbench σ α γ) : Option α :=
  bench.aggregates.head?.map builder.closed

end Workbench

end ArrayLiteral
