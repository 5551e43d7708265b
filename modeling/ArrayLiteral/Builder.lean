import ArrayLiteral.Budget
import ArrayLiteral.Draft
import ArrayLiteral.Literal

/-!
# Builders

A builder is told of the numbers and aggregates that a parser meets, and makes
something of them.  The grammar and its errors are the same for every builder.
`literalBuilder` keeps what is said as a `Literal`.  `arrayBuilder` writes the
arrays, and charges every cell that it writes to a budget that the whole source
shares.  A write that the budget does not cover is refused and changes nothing.
-/

namespace ArrayLiteral

/-- What to make of numbers and aggregates.  `σ` is the state that all
aggregates share, `α` what a value becomes, and `γ` what an open aggregate is
so far. -/
structure Builder (σ α γ : Type) where
  number : UInt64 → α
  /-- An aggregate without initializers. -/
  opened : γ
  /-- Adds an initializer to an open aggregate. What is left of the state and of the
  aggregate is returned with a refusal too. -/
  add : Initializer α → EStateM Refusal (σ × γ) Unit
  /-- What an open aggregate becomes once it is complete. -/
  closed : γ → α

/-- Keeps what was said. It has no state and refuses nothing. -/
def literalBuilder : Builder Unit Literal (Array (Initializer Literal)) where
  number := .number
  opened := #[]
  add := fun item => modify fun ((), items) => ((), items.push item)
  closed := fun items => .aggregate items.toList

/-- Writes the arrays. Each write is charged to the budget before it is made. -/
def arrayBuilder : Builder Budget Value Draft where
  number := .integer
  opened := Draft.empty
  add := fun item (budget, draft) =>
    match Budget.charge (draft.writeCost item) budget with
    | .ok () budget => .ok () (budget, draft.write item)
    | .error refusal budget => .error refusal (budget, draft)
  closed := Draft.toValue

/-! ## Refusals -/

/-- A call that is refused leaves the state and the aggregate as they were. -/
def Builder.KeepsRefused {σ α γ : Type} (builder : Builder σ α γ) : Prop :=
  ∀ ⦃item place refusal place'⦄, builder.add item place = .error refusal place' → place' = place

/-- A charge that is refused adds nothing, and nothing is written then. -/
theorem keepsRefused_arrayBuilder : arrayBuilder.KeepsRefused := by
  rintro item ⟨budget, draft⟩ refusal place' h
  cases hcharge : Budget.charge (draft.writeCost item) budget with
  | ok charged after =>
    simp only [arrayBuilder, hcharge] at h
    cases h
  | error refusal after =>
    simp only [arrayBuilder, hcharge] at h
    cases h
    obtain ⟨rfl, -⟩ := Budget.charge_eq_error_iff.1 hcharge
    rfl

end ArrayLiteral
