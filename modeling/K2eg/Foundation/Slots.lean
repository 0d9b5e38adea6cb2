import Mathlib.Algebra.GroupWithZero.Nat
import Mathlib.Data.List.Perm.Basic

/-! # Slots

A list whose entries are replaced one at a time: what its entries count and contain changes by the
entry that goes and the one that comes. -/

namespace Slots

variable {α β : Type*} {l : List α} {i : ℕ} {x : α}

/-- The new entry takes the place of the old one. -/
theorem set_perm (h : l[i]? = some x) (y : α) : (x :: l.set i y).Perm (y :: l) := by
  induction l generalizing i with
  | nil => cases h
  | cons first rest ih =>
      cases i with
      | zero =>
          obtain rfl := Option.some.inj h
          exact .swap y first rest
      | succ i =>
          have hrest : (first :: x :: rest.set i y).Perm (first :: y :: rest) := (ih h).cons first
          exact (List.Perm.swap first x _).trans (hrest.trans (.swap y first rest))

theorem countP_set_add (h : l[i]? = some x) (y : α) (p : α → Bool) :
    (l.set i y).countP p + (p x).toNat = l.countP p + (p y).toNat := by
  have hperm := (set_perm h y).countP_eq p
  rw [List.countP_cons, List.countP_cons] at hperm
  cases hx : p x <;> cases hy : p y <;> simp_all

theorem filterMap_set_perm (h : l[i]? = some x) (y : α) (f : α → Option β) :
    ((f x).toList ++ (l.set i y).filterMap f).Perm ((f y).toList ++ l.filterMap f) := by
  have hperm := (set_perm h y).filterMap f
  cases hx : f x <;> cases hy : f y <;> simp_all

theorem sum_map_set_add (h : l[i]? = some x) (y : α) (f : α → Nat) :
    ((l.set i y).map f).sum + f x = (l.map f).sum + f y := by
  have hsum := ((set_perm h y).map f).sum_nat
  rw [List.map_cons, List.map_cons, List.sum_cons, List.sum_cons] at hsum
  omega

/-- Of the entries with a property one is the last. -/
theorem exists_last {p : α → Prop} (h : ∃ x ∈ l, p x) :
    ∃ i x, l[i]? = some x ∧ p x ∧ ∀ y ∈ l.drop (i + 1), ¬ p y := by
  induction l with
  | nil => simp at h
  | cons first rest ih =>
      by_cases hrest : ∃ x ∈ rest, p x
      · obtain ⟨i, x, hi, hx, hlast⟩ := ih hrest
        exact ⟨i + 1, x, hi, hx, hlast⟩
      · obtain ⟨x, hmem, hx⟩ := h
        rcases List.mem_cons.mp hmem with rfl | hmem
        · exact ⟨0, x, rfl, hx, fun y hy hp => hrest ⟨y, hy, hp⟩⟩
        · exact absurd ⟨x, hmem, hx⟩ hrest

end Slots
