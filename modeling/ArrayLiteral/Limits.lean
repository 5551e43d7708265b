/-!
# Limits

Two limits bound the work of a single parse: how far an array may grow and how
deeply aggregates may nest.
-/

namespace ArrayLiteral

structure Limits where
  /-- Indices are below this number, and the cells written for one source are at
  most this many. -/
  maxArrayLen : UInt64 := 1048576
  /-- The number of aggregates that may be open at the same time. -/
  maxDepth : UInt64 := 128
  deriving DecidableEq

/-- The value as an index, if it is below the limit. -/
def index? (value limit : UInt64) : Option UInt64 :=
  if value < limit then some value else none

theorem index?_eq_some_iff {value limit index : UInt64} :
    index? value limit = some index ↔ index = value ∧ value.toNat < limit.toNat := by
  unfold index?
  split <;> rename_i h <;> rw [UInt64.lt_iff_toNat_lt] at h
  · simp [h, eq_comm]
  · simp [h]

end ArrayLiteral
