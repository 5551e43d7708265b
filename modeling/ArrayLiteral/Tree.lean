import ArrayLiteral.Json

/-!
# Syntax trees

A tree of tagged nodes over numbers, with one node for every use of a grammar
rule.  The type allows any tag with any children.  `Literal.toTree` says which
trees stand for literals.
-/

namespace ArrayLiteral

/-- The grammar rule of a node. -/
inductive Tag
  | val
  | initializers
  | initializer
  | designator
  deriving DecidableEq

def Tag.name : Tag → String
  | val => "val"
  | initializers => "initializers"
  | initializer => "initializer"
  | designator => "designator"

inductive Tree
  | leaf (value : UInt64)
  | node (tag : Tag) (children : List Tree)

namespace Tree

/-- Replaces every leaf by its image under `onLeaf`, and every node by `onNode`
of its tag and of what its children became. -/
def fold {β : Type} (onLeaf : UInt64 → β) (onNode : Tag → List β → β) : Tree → β
  | leaf value => onLeaf value
  | node tag children => onNode tag (children.map fun child => child.fold onLeaf onNode)

section Fold

variable {β : Type} (onLeaf : UInt64 → β) (onNode : Tag → List β → β)

@[simp] theorem fold_leaf (value : UInt64) : (leaf value).fold onLeaf onNode = onLeaf value := by
  rw [fold]

@[simp] theorem fold_node (tag : Tag) (children : List Tree) :
    (node tag children).fold onLeaf onNode = onNode tag (children.map (fold onLeaf onNode)) := by
  rw [fold]

end Fold

/-- Induction over trees, with the hypothesis for every child of a node. -/
@[elab_as_elim]
theorem induction {motive : Tree → Prop} (leaf : ∀ value, motive (.leaf value))
    (node : ∀ tag children, (∀ child ∈ children, motive child) → motive (.node tag children)) :
    ∀ tree, motive tree
  | .leaf value => leaf value
  | .node tag children => node tag children fun child _ => induction leaf node child

/-- The tag of a node. -/
def tag? : Tree → Option Tag
  | leaf _ => none
  | node tag _ => some tag

/-- The children of a node. A leaf has none. -/
def children : Tree → List Tree
  | leaf _ => []
  | node _ children => children

def child? (tree : Tree) (index : Nat) : Option Tree :=
  tree.children[index]?

def printer : Tree → Text.Printer :=
  fold (fun value => .ofString (toString value.toNat)) fun tag children =>
    .ofString "(" ++ .joined " " (.ofString tag.name :: children) ++ .ofString ")"

/-- A node in parentheses: its tag and its children, separated by spaces. -/
def display (tree : Tree) : String :=
  tree.printer.text

/-- A leaf as a number, and a node as an object with its tag and its children. -/
def toJson : Tree → Json :=
  fold .number fun tag children => .object [("tag", .string tag.name), ("kids", .array children)]

/-- The number of levels, where a leaf has one. -/
def height : Tree → Nat :=
  fold (fun _ => 1) fun _ children => 1 + children.foldl max 0

@[simp] theorem display_leaf (value : UInt64) : (leaf value).display = toString value.toNat := by
  rw [display, printer, fold_leaf, Text.Printer.text_ofString]

@[simp] theorem display_node (tag : Tag) (children : List Tree) :
    (node tag children).display =
      "(" ++ String.intercalate " " (tag.name :: children.map display) ++ ")" := by
  rw [display, printer, fold_node]
  simp only [Text.Printer.text_append, Text.Printer.text_ofString, Text.Printer.text_joined,
    List.map_cons, List.map_map]
  rfl

@[simp] theorem toJson_leaf (value : UInt64) : (leaf value).toJson = .number value :=
  fold_leaf _ _ _

@[simp] theorem toJson_node (tag : Tag) (children : List Tree) :
    (node tag children).toJson =
      .object [("tag", .string tag.name), ("kids", .array (children.map toJson))] :=
  fold_node _ _ _ _

@[simp] theorem height_leaf (value : UInt64) : (leaf value).height = 1 :=
  fold_leaf _ _ _

@[simp] theorem height_node (tag : Tag) (children : List Tree) :
    (node tag children).height = 1 + (children.map height).foldl max 0 :=
  fold_node _ _ _ _

end Tree

end ArrayLiteral
