import Mathlib.Algebra.Order.Ring.Int

/-! # Checked signed arithmetic

A signed operation has no result where the exact one does not fit the type. Otherwise the result
is the exact one. -/

namespace Int32

variable {x y z : Int32} {n : ℤ}

/-- The integer as a word, where it fits. -/
def ofInt? (n : ℤ) : Option Int32 :=
  if (Int32.ofInt n).toInt = n then some (Int32.ofInt n) else none

theorem ofInt?_eq_some_iff : ofInt? n = some x ↔ x.toInt = n := by
  unfold ofInt?
  by_cases hfits : (Int32.ofInt n).toInt = n
  · rw [if_pos hfits, Option.some_inj, ← Int32.toInt_inj, hfits]
    exact eq_comm
  · rw [if_neg hfits]
    constructor
    · intro h
      cases h
    · intro h
      apply absurd _ hfits
      rw [← h, Int32.ofInt_toInt]

theorem exists_ofInt? (hlo : -2 ^ 31 ≤ n) (hhi : n < 2 ^ 31) : ∃ x, ofInt? n = some x :=
  ⟨Int32.ofInt n, ofInt?_eq_some_iff.mpr (Int32.toInt_ofInt_of_le hlo hhi)⟩

/-- The sum of two words, where it fits. -/
def checkedAdd (x y : Int32) : Option Int32 := ofInt? (x.toInt + y.toInt)

/-- The product of two words, where it fits. -/
def checkedMul (x y : Int32) : Option Int32 := ofInt? (x.toInt * y.toInt)

theorem checkedAdd_eq_some_iff : checkedAdd x y = some z ↔ z.toInt = x.toInt + y.toInt :=
  ofInt?_eq_some_iff

theorem checkedMul_eq_some_iff : checkedMul x y = some z ↔ z.toInt = x.toInt * y.toInt :=
  ofInt?_eq_some_iff

/-- An increment that wraps around is exact below the last word. -/
theorem toInt_add_one (h : x.toInt + 1 < 2 ^ 31) : (x + 1).toInt = x.toInt + 1 := by
  have hlo := x.le_toInt
  have hone : (1 : Int32).toInt = 1 := by decide
  rw [Int32.toInt_add, hone]
  apply Int.bmod_eq_of_le
  · change -2 ^ 31 ≤ x.toInt + 1
    omega
  · exact h

theorem toInt_min (x y : Int32) : (min x y).toInt = min x.toInt y.toInt := by
  change (if x ≤ y then x else y).toInt = _
  by_cases h : x ≤ y
  · rw [if_pos h, min_eq_left (Int32.le_iff_toInt_le.mp h)]
  · have hlt : y.toInt < x.toInt := Int32.lt_iff_toInt_lt.mp (Int32.not_le.mp h)
    rw [if_neg h, min_eq_right hlt.le]

end Int32
