/-!
# Saturating arithmetic on 64-bit words

Sizes and costs are 64-bit words.  Where an exact result may lie outside the
64-bit range, `satAdd`, `satSub` and `satMul` return the nearest word instead,
and `checkedAdd?` returns nothing.  The lemmas give each result as a natural
number, and nothing else about the operations is needed.
-/

namespace ArrayLiteral

/-- The largest 64-bit word. -/
def maxWord : UInt64 := 0xffffffffffffffff

theorem toNat_maxWord : maxWord.toNat = 18446744073709551615 := rfl

theorem toNat_le_maxWord (a : UInt64) : a.toNat ≤ maxWord.toNat :=
  Nat.le_of_lt_succ a.toNat_lt

def satAdd (a b : UInt64) : UInt64 :=
  if a + b < a then maxWord else a + b

def satSub (a b : UInt64) : UInt64 :=
  if a < b then 0 else a - b

def satMul (a b : UInt64) : UInt64 :=
  if b = 0 then 0 else if maxWord / b < a then maxWord else a * b

def checkedAdd? (a b : UInt64) : Option UInt64 :=
  if a + b < a then none else some (a + b)

/-- A sum wraps around exactly if it came out below its first summand. -/
theorem add_lt_left_iff (a b : UInt64) : a + b < a ↔ maxWord.toNat < a.toNat + b.toNat := by
  have ha := a.toNat_lt
  have hb := b.toNat_lt
  rw [UInt64.lt_iff_toNat_lt, UInt64.toNat_add, toNat_maxWord]
  omega

theorem toNat_add_of_le {a b : UInt64} (h : a.toNat + b.toNat ≤ maxWord.toNat) :
    (a + b).toNat = a.toNat + b.toNat := by
  rw [UInt64.toNat_add]
  exact Nat.mod_eq_of_lt (Nat.lt_succ_of_le h)

@[simp] theorem toNat_satAdd (a b : UInt64) :
    (satAdd a b).toNat = min maxWord.toNat (a.toNat + b.toNat) := by
  unfold satAdd
  split <;> rename_i h <;> rw [add_lt_left_iff] at h
  · omega
  · rw [toNat_add_of_le (by omega)]
    omega

@[simp] theorem toNat_satSub (a b : UInt64) : (satSub a b).toNat = a.toNat - b.toNat := by
  unfold satSub
  split <;> rename_i h <;> rw [UInt64.lt_iff_toNat_lt] at h
  · rw [UInt64.toNat_zero]
    omega
  · rw [UInt64.toNat_sub_of_le _ _ (UInt64.le_iff_toNat_le.2 (by omega))]

@[simp] theorem toNat_satMul (a b : UInt64) :
    (satMul a b).toNat = min maxWord.toNat (a.toNat * b.toNat) := by
  unfold satMul
  split
  · rename_i h
    simp [h]
  · rename_i h
    have hb : 0 < b.toNat := Nat.pos_of_ne_zero fun h0 => h (UInt64.toNat_inj.1 h0)
    have key : maxWord / b < a ↔ maxWord.toNat < a.toNat * b.toNat := by
      rw [UInt64.lt_iff_toNat_lt, UInt64.toNat_div, Nat.div_lt_iff_lt_mul hb]
    split <;> rename_i hlt <;> rw [key] at hlt
    · omega
    · have hle := Nat.le_of_not_lt hlt
      rw [UInt64.toNat_mul, Nat.min_eq_right hle]
      exact Nat.mod_eq_of_lt (Nat.lt_succ_of_le hle)

theorem checkedAdd?_eq_some_iff {a b sum : UInt64} :
    checkedAdd? a b = some sum ↔ sum.toNat = a.toNat + b.toNat := by
  have hsum := toNat_le_maxWord sum
  unfold checkedAdd?
  split <;> rename_i h <;> rw [add_lt_left_iff] at h
  · simp only [reduceCtorEq, false_iff]
    omega
  · rw [Option.some.injEq, ← UInt64.toNat_inj, toNat_add_of_le (by omega), eq_comm]

theorem checkedAdd?_eq_none_iff {a b : UInt64} :
    checkedAdd? a b = none ↔ maxWord.toNat < a.toNat + b.toNat := by
  unfold checkedAdd?
  split <;> rename_i h <;> rw [add_lt_left_iff] at h
  · simpa using h
  · simpa using h

end ArrayLiteral
