import Mathlib.Data.List.Basic

/-! # Tallies

The entries of a list that have a key and satisfy a predicate, counted. Lists of records that
are updated in place, one entry at a time, change a tally by what the entry contributes. -/

section Tally

variable {τ κ : Type*} [DecidableEq κ]

/-- How many entries have the key and satisfy the predicate. -/
def tally (P : τ → Bool) (key : τ → κ) (l : List τ) (k : κ) : ℕ :=
  l.countP fun t => P t && key t == k

variable {P Q : τ → Bool} {key : τ → κ} {l : List τ} {k : κ} {i : ℕ} {t t' : τ}

@[simp] theorem tally_nil : tally P key [] k = 0 := rfl

theorem tally_append_singleton :
    tally P key (l ++ [t]) k = tally P key l k + if P t = true ∧ key t = k then 1 else 0 := by
  rw [tally, List.countP_append, List.countP_singleton, tally]
  simp only [Bool.and_eq_true, beq_iff_eq]

theorem tally_pos : 0 < tally P key l k ↔ ∃ t ∈ l, P t = true ∧ key t = k := by
  simp [tally, List.countP_pos_iff]

theorem tally_pos_of_getElem? (h : l[i]? = some t) (hP : P t = true) :
    0 < tally P key l (key t) :=
  tally_pos.mpr ⟨t, List.mem_of_getElem? h, hP, rfl⟩

theorem tally_eq_zero : tally P key l k = 0 ↔ ∀ t ∈ l, key t = k → P t = false := by
  rw [tally, List.countP_eq_zero]
  refine forall₂_congr fun t _ => ?_
  cases P t <;> simp

theorem tally_mono (h : ∀ t ∈ l, P t = true → Q t = true) :
    tally P key l k ≤ tally Q key l k := by
  refine List.countP_mono_left fun t ht hP => ?_
  rw [Bool.and_eq_true] at hP ⊢
  exact ⟨h t ht hP.1, hP.2⟩

theorem tally_lt (hsub : ∀ u ∈ l, P u = true → Q u = true) (ht : t ∈ l) (hQ : Q t = true)
    (hP : P t = false) : tally P key l (key t) < tally Q key l (key t) := by
  obtain ⟨front, back, rfl⟩ := List.append_of_mem ht
  have hfront : tally P key front (key t) ≤ tally Q key front (key t) :=
    tally_mono fun u hu => hsub u (by simp [hu])
  have hback : tally P key back (key t) ≤ tally Q key back (key t) :=
    tally_mono fun u hu => hsub u (by simp [hu])
  simp only [tally] at hfront hback ⊢
  simp only [List.countP_append, List.countP_cons, hQ, hP, Bool.true_and, Bool.false_and,
    beq_self_eq_true]
  simp only [if_true, Bool.false_eq_true, if_false]
  omega

/-- Where a list has at most one entry of a kind, the entry is the only one. -/
theorem tally_eq_zero_of_le_one (hone : tally Q key l (key t) ≤ 1)
    (hsub : ∀ u ∈ l, P u = true → Q u = true) (ht : t ∈ l) (hQ : Q t = true)
    (hP : P t = false) : tally P key l (key t) = 0 := by
  have hlt : tally P key l (key t) < tally Q key l (key t) := tally_lt hsub ht hQ hP
  omega

/-! ## Updating one entry -/

/-- What the entry contributed is replaced by what the new one contributes. -/
theorem tally_set (h : l[i]? = some t) (hkey : key t' = key t) :
    tally P key (l.set i t') k + (P t && key t == k).toNat =
      tally P key l k + (P t' && key t == k).toNat := by
  obtain ⟨hi, rfl⟩ := List.getElem?_eq_some_iff.mp h
  have hpos : (P l[i] && key l[i] == k) = true →
      0 < l.countP fun t => P t && key t == k :=
    fun hP => List.countP_pos_iff.mpr ⟨l[i], List.getElem_mem hi, hP⟩
  rw [tally, tally, List.countP_set hi, hkey]
  cases hold : P l[i] && key l[i] == k <;> cases P t' && key l[i] == k <;> simp <;>
    · have := hpos hold
      omega

theorem tally_set_of_eq (h : l[i]? = some t) (hkey : key t' = key t) (hP : P t' = P t) :
    tally P key (l.set i t') k = tally P key l k := by
  have := tally_set (P := P) (k := k) h hkey
  rw [hP] at this
  omega

/-- What the entry has, it keeps. -/
theorem tally_le_set (h : l[i]? = some t) (hkey : key t' = key t) (hP : P t = true → P t' = true) :
    tally P key l k ≤ tally P key (l.set i t') k := by
  have hset := tally_set (P := P) (k := k) h hkey
  cases hold : P t with
  | false =>
      rw [hold, Bool.false_and, Bool.toNat_false] at hset
      omega
  | true =>
      rw [hold, hP hold] at hset
      omega

theorem tally_set_of_ne (h : l[i]? = some t) (hkey : key t' = key t) (hk : k ≠ key t) :
    tally P key (l.set i t') k = tally P key l k := by
  have := tally_set (P := P) (k := k) h hkey
  have hfalse : (key t == k) = false := beq_false_of_ne hk.symm
  simpa [hfalse] using this

theorem tally_set_add (h : l[i]? = some t) (hkey : key t' = key t) (hold : P t = false)
    (hnew : P t' = true) :
    tally P key (l.set i t') (key t) = tally P key l (key t) + 1 := by
  simpa [hold, hnew] using tally_set (P := P) (k := key t) h hkey

theorem tally_set_sub (h : l[i]? = some t) (hkey : key t' = key t) (hold : P t = true)
    (hnew : P t' = false) :
    tally P key (l.set i t') (key t) + 1 = tally P key l (key t) := by
  simpa [hold, hnew] using tally_set (P := P) (k := key t) h hkey

end Tally
