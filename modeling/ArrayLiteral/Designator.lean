import ArrayLiteral.Limits
import ArrayLiteral.Token

/-!
# Designators and initializers

An initializer writes a value into an array.  Without a designator it writes
behind the last cell, and with one it writes to every index that the
designator names.  The bounds of a range may be in either order.

    target     := designator "=" | ε
    designator := "[" NUMBER ( "..." NUMBER )? "]"

`targetSymbols` spells out what stands in front of the value of an initializer,
and `TargetWithin` says that its bounds are indices.
-/

namespace ArrayLiteral

inductive Designator
  | single (index : UInt64)
  /-- Both bounds as written. They belong to the range. -/
  | range (start stop : UInt64)
  deriving DecidableEq

/-- A value of type `α` and the indices it is for, if they are named. -/
structure Initializer (α : Type) where
  designator? : Option Designator
  value : α

theorem toNat_min (a b : UInt64) : (min a b).toNat = min a.toNat b.toNat := by
  show (if a ≤ b then a else b).toNat = _
  split <;> rename_i h <;> rw [UInt64.le_iff_toNat_le] at h <;> omega

theorem toNat_max (a b : UInt64) : (max a b).toNat = max a.toNat b.toNat := by
  show (if a ≤ b then b else a).toNat = _
  split <;> rename_i h <;> rw [UInt64.le_iff_toNat_le] at h <;> omega

namespace Designator

/-- The bounds as written. -/
def bounds : Designator → List UInt64
  | single index => [index]
  | range start stop => [start, stop]

/-- The lowest index. -/
def first : Designator → UInt64
  | single index => index
  | range start stop => min start stop

/-- The highest index. -/
def last : Designator → UInt64
  | single index => index
  | range start stop => max start stop

@[simp] theorem toNat_first_range (start stop : UInt64) :
    (range start stop).first.toNat = min start.toNat stop.toNat :=
  toNat_min start stop

@[simp] theorem toNat_last_range (start stop : UInt64) :
    (range start stop).last.toNat = max start.toNat stop.toNat :=
  toNat_max start stop

theorem first_le_last (designator : Designator) :
    designator.first.toNat ≤ designator.last.toNat := by
  cases designator with
  | single => exact Nat.le_refl _
  | range start stop =>
    rw [toNat_first_range, toNat_last_range]
    omega

/-- The symbols of a designator. -/
def symbols : Designator → List Symbol
  | single index => [.mark .leftSquare, .number index, .mark .rightSquare]
  | range start stop =>
    [.mark .leftSquare, .number start, .mark .range, .number stop, .mark .rightSquare]

end Designator

/-- The symbols in front of the value of an initializer. -/
def targetSymbols : Option Designator → List Symbol
  | none => []
  | some designator => designator.symbols ++ [.mark .equal]

/-- The bounds in front of the value of an initializer. -/
def targetBounds : Option Designator → List UInt64
  | none => []
  | some designator => designator.bounds

/-- All these bounds are below the limit. -/
def TargetWithin (limits : Limits) (designator? : Option Designator) : Prop :=
  ∀ bound ∈ targetBounds designator?, bound.toNat < limits.maxArrayLen.toNat

end ArrayLiteral
