import Mathlib.Algebra.Order.Ring.Defs
import Mathlib.Algebra.Order.Monoid.Unbundled.Pow
import Mathlib.Algebra.Order.Ring.Nat
import Mathlib.Data.Nat.ModEq

/-! # Exponential back-off

A delay that is multiplied in every round and never exceeds its cap, with rounds that take a
fixed number of idle cycles each. -/

section Backoff

variable {R : Type*} [CommSemiring R] [LinearOrder R] {start cap factor : R} {rounds : ℕ}

/-- The delay after some rounds. -/
def backoff (start cap factor : R) (rounds : ℕ) : R := min (start * factor ^ rounds) cap

theorem backoff_zero (hcap : start ≤ cap) : backoff start cap factor 0 = start := by
  simp [backoff, hcap]

theorem backoff_le_cap : backoff start cap factor rounds ≤ cap := min_le_right _ _

theorem backoff_lt_iff {bound : R} :
    backoff start cap factor rounds < bound ↔ start * factor ^ rounds < bound ∨ cap < bound :=
  min_lt_iff

variable [IsStrictOrderedRing R]

/-- One round of the delay: the capped product of the capped delay. -/
theorem backoff_succ (hcap : 0 ≤ cap) (hfactor : 1 ≤ factor) :
    backoff start cap factor (rounds + 1) = min (backoff start cap factor rounds * factor) cap := by
  have hgrow : cap ≤ cap * factor := le_mul_of_one_le_right hcap hfactor
  have hmul : min (start * factor ^ rounds) cap * factor =
      min (start * factor ^ rounds * factor) (cap * factor) :=
    min_mul_of_nonneg _ _ (zero_le_one.trans hfactor)
  rw [backoff, backoff, hmul, min_assoc, min_eq_right hgrow, pow_succ, mul_assoc]

theorem le_backoff (hstart : 0 ≤ start) (hcap : start ≤ cap) (hfactor : 1 ≤ factor) :
    start ≤ backoff start cap factor rounds := by
  apply le_min
  · exact le_mul_of_one_le_right hstart (one_le_pow₀ hfactor)
  · exact hcap

end Backoff

/-! ## Rounds of a fixed length -/

section Rounds

variable {idle period : ℕ}

/-- Within a round the counter of idle cycles goes up. -/
theorem succ_idle_of_lt (h : idle % period + 1 < period) :
    (idle + 1) % period = idle % period + 1 ∧ (idle + 1) / period = idle / period := by
  have hparts : idle % period + 1 + period * (idle / period) = idle + 1 := by
    have := Nat.mod_add_div idle period
    omega
  have hunique := (Nat.div_mod_unique (Nat.zero_lt_of_lt h)).mpr ⟨hparts, h⟩
  exact ⟨hunique.2, hunique.1⟩

/-- At the end of a round the counter is back at zero. -/
theorem succ_idle_of_eq (hperiod : 0 < period) (h : idle % period + 1 = period) :
    (idle + 1) % period = 0 ∧ (idle + 1) / period = idle / period + 1 := by
  have hparts : 0 + period * (idle / period + 1) = idle + 1 := by
    have := Nat.mod_add_div idle period
    rw [Nat.mul_succ]
    omega
  have hunique := (Nat.div_mod_unique hperiod).mpr ⟨hparts, hperiod⟩
  exact ⟨hunique.2, hunique.1⟩

end Rounds
