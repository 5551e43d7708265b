import ArrayLiteral.Saturating

/-!
# Budgets

A budget limits how many cells may be written for one source.  `Budget.charge`
adds a cost or refuses it.  The lemmas say which, in natural numbers: a sum that
does not fit in 64 bits is refused like any other that is beyond the limit.
-/

namespace ArrayLiteral

/-- A cost that a budget does not cover. -/
structure Refusal where
  limit : UInt64
  deriving DecidableEq

/-- How many cells were written, and how many may be. -/
structure Budget where
  written : UInt64
  limit : UInt64
  deriving DecidableEq

namespace Budget

/-- Nothing is written yet. -/
def ofLimit (limit : UInt64) : Budget :=
  { written := 0, limit }

/-- Adds a cost, if the limit allows it. -/
def charge (cost : UInt64) : EStateM Refusal Budget Unit := fun budget =>
  match checkedAdd? budget.written cost with
  | some written => if written ≤ budget.limit then .ok () { budget with written } else refuse budget
  | none => refuse budget
where
  refuse budget := .error { limit := budget.limit } budget

/-- A charge is accepted exactly if the limit covers it, in natural numbers. -/
theorem charge_eq_ok_iff {budget after : Budget} {cost : UInt64} :
    charge cost budget = .ok () after ↔
      after.limit = budget.limit ∧ after.written.toNat = budget.written.toNat + cost.toNat ∧
        after.written.toNat ≤ after.limit.toNat := by
  rcases after with ⟨afterWritten, afterLimit⟩
  unfold charge
  split
  · rename_i written hsum
    rw [checkedAdd?_eq_some_iff] at hsum
    split
    · rename_i hle
      rw [UInt64.le_iff_toNat_le] at hle
      simp only [EStateM.Result.ok.injEq, Budget.mk.injEq, true_and]
      constructor
      · rintro ⟨rfl, rfl⟩
        exact ⟨rfl, hsum, hle⟩
      · rintro ⟨rfl, hwritten, -⟩
        exact ⟨UInt64.toNat_inj.1 (hsum.trans hwritten.symm), rfl⟩
    · rename_i hle
      rw [UInt64.le_iff_toNat_le] at hle
      simp only [charge.refuse, reduceCtorEq, false_iff]
      rintro ⟨rfl, hwritten, hlimit⟩
      omega
  · rename_i hsum
    rw [checkedAdd?_eq_none_iff] at hsum
    simp only [charge.refuse, reduceCtorEq, false_iff]
    rintro ⟨rfl, hwritten, hlimit⟩
    have := toNat_le_maxWord afterWritten
    omega

/-- A charge that is refused adds nothing. -/
theorem charge_eq_error_iff {budget after : Budget} {cost : UInt64} {refusal : Refusal} :
    charge cost budget = .error refusal after ↔
      after = budget ∧ refusal.limit = budget.limit ∧
        budget.limit.toNat < budget.written.toNat + cost.toNat := by
  rcases refusal with ⟨limit⟩
  unfold charge
  split
  · rename_i written hsum
    rw [checkedAdd?_eq_some_iff] at hsum
    split <;> rename_i hle <;> rw [UInt64.le_iff_toNat_le] at hle
    · simp only [reduceCtorEq, false_iff]
      omega
    · simp only [charge.refuse, EStateM.Result.error.injEq, Refusal.mk.injEq]
      constructor
      · rintro ⟨rfl, rfl⟩
        exact ⟨rfl, rfl, by omega⟩
      · rintro ⟨rfl, rfl, -⟩
        exact ⟨rfl, rfl⟩
  · rename_i hsum
    rw [checkedAdd?_eq_none_iff] at hsum
    have := toNat_le_maxWord budget.limit
    simp only [charge.refuse, EStateM.Result.error.injEq, Refusal.mk.injEq]
    constructor
    · rintro ⟨rfl, rfl⟩
      exact ⟨rfl, rfl, by omega⟩
    · rintro ⟨rfl, rfl, -⟩
      exact ⟨rfl, rfl⟩

end Budget

end ArrayLiteral
