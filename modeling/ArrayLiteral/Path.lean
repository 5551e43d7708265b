/-!
# Paths into trees

A path is a list of indices, each of which leads from a node to one of its
children.
-/

namespace ArrayLiteral

/-- The nodes on a path from the root. It ends with nothing where an index leads
to no child. -/
def descend {α : Type} (child? : α → Nat → Option α) (root : α) :
    (path : List Nat) → List (Option α)
  | [] => [some root]
  | index :: path =>
    some root ::
      match child? root index with
      | some child => descend child? child path
      | none => [none]

end ArrayLiteral
