import ArrayLiteral.Designator
import ArrayLiteral.Tree

/-!
# Literals

What a source says, before it is written into arrays: a number, or an aggregate
of initializers in source order, with their designators as written.
`Literal.toTree` gives the syntax tree of a literal.
-/

namespace ArrayLiteral

inductive Literal
  | number (value : UInt64)
  | aggregate (items : List (Initializer Literal))

/-- Replaces the value of an initializer. -/
def Initializer.map {α β : Type} (f : α → β) (item : Initializer α) : Initializer β :=
  { designator? := item.designator?, value := f item.value }

namespace Literal

/-- Replaces every number by its image under `onNumber`, and every aggregate by
`onAggregate` of its initializers with what their literals became. -/
def fold {β : Type} (onNumber : UInt64 → β) (onAggregate : List (Initializer β) → β) :
    Literal → β
  | number value => onNumber value
  | aggregate items =>
    onAggregate (items.map fun item =>
      { designator? := item.designator?, value := item.value.fold onNumber onAggregate })
decreasing_by
  rename_i hmem
  have := List.sizeOf_lt_of_mem hmem
  rcases item with ⟨designator?, value⟩
  simp only [Initializer.mk.sizeOf_spec, Literal.aggregate.sizeOf_spec] at *
  omega

section Fold

variable {β : Type} (onNumber : UInt64 → β) (onAggregate : List (Initializer β) → β)

@[simp] theorem fold_number (value : UInt64) :
    (number value).fold onNumber onAggregate = onNumber value := by
  rw [fold]

@[simp] theorem fold_aggregate (items : List (Initializer Literal)) :
    (aggregate items).fold onNumber onAggregate =
      onAggregate (items.map (Initializer.map (fold onNumber onAggregate))) := by
  rw [fold]
  rfl

end Fold

/-- Induction over literals, with the hypothesis for every initializer of an
aggregate. -/
@[elab_as_elim]
theorem induction {motive : Literal → Prop} (number : ∀ value, motive (.number value))
    (aggregate : ∀ items, (∀ item ∈ items, motive item.value) → motive (.aggregate items)) :
    ∀ literal, motive literal
  | .number value => number value
  | .aggregate items => aggregate items fun item _ => induction number aggregate item.value
decreasing_by
  rename_i hmem
  have := List.sizeOf_lt_of_mem hmem
  rcases item with ⟨designator?, value⟩
  simp only [Initializer.mk.sizeOf_spec, Literal.aggregate.sizeOf_spec] at *
  omega

end Literal

/-- The node of a designator, with its bounds as written. -/
def Designator.toTree (designator : Designator) : Tree :=
  .node .designator (designator.bounds.map .leaf)

/-- The node of an initializer, with a designator in front of the value if there
is one. -/
def Initializer.toTree (item : Initializer Tree) : Tree :=
  .node .initializer ((item.designator?.map Designator.toTree).toList ++ [item.value])

/-- One node for every use of a grammar rule. -/
def Literal.toTree : Literal → Tree :=
  fold (fun value => .node .val [.leaf value]) fun items =>
    .node .val [.node .initializers (items.map Initializer.toTree)]

@[simp] theorem Literal.toTree_number (value : UInt64) :
    (number value).toTree = .node .val [.leaf value] :=
  fold_number _ _ _

@[simp] theorem Literal.toTree_aggregate (items : List (Initializer Literal)) :
    (aggregate items).toTree =
      .node .val [.node .initializers (items.map fun item => (item.map toTree).toTree)] := by
  rw [toTree, fold_aggregate, List.map_map]
  rfl

end ArrayLiteral
