import Mathlib.Data.List.Basic

/-! # Queues with elements that are not ready

An element leaves the queue when it is the first one that is ready. While an element waits, those
that are taken before it were in front of it, or have joined in front. -/

namespace ReadyQueue

variable {α : Type*} [DecidableEq α] {queue rest : List α} {a b : α} {ready : α → Bool}

/-! ## Ranks -/

/-- An element in front is taken. -/
theorem idxOf_erase (hlt : queue.idxOf b < queue.idxOf a) :
    (queue.erase b).idxOf a + 1 = queue.idxOf a := by
  induction queue with
  | nil => simp at hlt
  | cons first queue ih =>
      by_cases ha : first = a
      · subst ha
        simp at hlt
      · rw [List.idxOf_cons_ne _ ha] at hlt ⊢
        by_cases hb : first = b
        · subst hb
          rw [List.erase_cons_head]
        · rw [List.idxOf_cons_ne _ hb, Nat.succ_lt_succ_iff] at hlt
          rw [List.erase_cons_tail (by simpa using hb), List.idxOf_cons_ne _ ha,
            Nat.succ_eq_add_one, ih hlt]

theorem idxOf_filter_le (hready : ready a = true) :
    (queue.filter ready).idxOf a ≤ queue.idxOf a := by
  induction queue with
  | nil => exact Nat.le_refl 0
  | cons first queue ih =>
      by_cases ha : first = a
      · subst ha
        rw [List.filter_cons_of_pos hready, List.idxOf_cons_self]
        exact Nat.zero_le _
      · rw [List.idxOf_cons_ne _ ha]
        by_cases hfirst : ready first = true
        · rw [List.filter_cons_of_pos hfirst, List.idxOf_cons_ne _ ha]
          exact Nat.succ_le_succ ih
        · rw [List.filter_cons_of_neg hfirst]
          exact Nat.le_trans ih (Nat.le_succ _)

/-- The first ready element is in front of the others that are ready. -/
theorem idxOf_find?_lt (hfind : queue.find? ready = some b) (hmem : a ∈ queue)
    (hready : ready a = true) (hne : b ≠ a) : queue.idxOf b < queue.idxOf a := by
  induction queue with
  | nil => simp at hmem
  | cons first queue ih =>
      by_cases hfirst : ready first = true
      · rw [List.find?_cons_of_pos hfirst] at hfind
        obtain rfl := Option.some.inj hfind
        rw [List.idxOf_cons_self, List.idxOf_cons_ne _ hne]
        exact Nat.succ_pos _
      · rw [List.find?_cons_of_neg hfirst] at hfind
        have ha : first ≠ a := by
          rintro rfl
          exact hfirst hready
        have hb : first ≠ b := by
          rintro rfl
          exact hfirst (List.find?_some hfind)
        rw [List.idxOf_cons_ne _ ha, List.idxOf_cons_ne _ hb]
        exact Nat.succ_lt_succ (ih hfind ((List.mem_cons.mp hmem).resolve_left (Ne.symm ha)))

theorem idxOf_erase_le (hne : b ≠ a) : (queue.erase b).idxOf a ≤ queue.idxOf a := by
  induction queue with
  | nil => exact Nat.le_refl 0
  | cons first queue ih =>
      by_cases hb : first = b
      · subst hb
        rw [List.erase_cons_head, List.idxOf_cons_ne _ hne]
        exact Nat.le_succ _
      · rw [List.erase_cons_tail (by simpa using hb)]
        by_cases ha : first = a
        · subst ha
          simp
        · rw [List.idxOf_cons_ne _ ha, List.idxOf_cons_ne _ ha]
          exact Nat.succ_le_succ ih

/-! ## Waiting -/

/-- What happens to the queue while the element waits in it: how many have joined in front, and how
many were taken when the element was ready. -/
inductive Waits (a : α) (queue : List α) : ℕ → ℕ → List α → Prop where
  | start (hmem : a ∈ queue) : Waits a queue 0 0 queue
  | join {joined taken : ℕ} {rest : List α} (h : Waits a queue joined taken rest) {b : α}
      (hne : b ≠ a) : Waits a queue (joined + 1) taken (b :: rest)
  | requeue {joined taken : ℕ} {rest : List α} (h : Waits a queue joined taken rest) (b : α) :
      Waits a queue joined taken (rest ++ [b])
  | withdraw {joined taken : ℕ} {rest : List α} (h : Waits a queue joined taken rest)
      {kept : α → Bool} (hkept : kept a = true) : Waits a queue joined taken (rest.filter kept)
  | early {joined taken : ℕ} {rest : List α} (h : Waits a queue joined taken rest) {b : α}
      (hne : b ≠ a) : Waits a queue joined taken (rest.erase b)
  | overtake {joined taken : ℕ} {rest : List α} (h : Waits a queue joined taken rest)
      {ready : α → Bool} {b : α} (hready : ready a = true) (hfind : rest.find? ready = some b)
      (hne : b ≠ a) : Waits a queue joined (taken + 1) (rest.erase b)

variable {joined taken : ℕ}

/-- The rank goes down with every element that is taken. -/
theorem Waits.rank (h : Waits a queue joined taken rest) :
    a ∈ rest ∧ rest.idxOf a + taken ≤ queue.idxOf a + joined := by
  induction h with
  | start hmem => exact ⟨hmem, Nat.le_refl _⟩
  | join h hne ih =>
      refine ⟨List.mem_cons_of_mem _ ih.1, ?_⟩
      rw [List.idxOf_cons_ne _ hne]
      omega
  | requeue h b ih =>
      refine ⟨List.mem_append_left _ ih.1, ?_⟩
      rw [List.idxOf_append_of_mem ih.1]
      exact ih.2
  | withdraw h hkept ih =>
      refine ⟨List.mem_filter.mpr ⟨ih.1, hkept⟩, ?_⟩
      rename_i rest kept
      have hle : (rest.filter kept).idxOf a ≤ rest.idxOf a := idxOf_filter_le hkept
      omega
  | early h hne ih =>
      rename_i rest b
      have hle : (rest.erase b).idxOf a ≤ rest.idxOf a := idxOf_erase_le hne
      exact ⟨(List.mem_erase_of_ne (Ne.symm hne)).mpr ih.1, by omega⟩
  | overtake h hready hfind hne ih =>
      refine ⟨(List.mem_erase_of_ne (Ne.symm hne)).mpr ih.1, ?_⟩
      have hrank := idxOf_erase (idxOf_find?_lt hfind ih.1 hready hne)
      omega

/-- An element that waits is overtaken by those in front of it and those that join in front. -/
theorem Waits.taken_le (h : Waits a queue joined taken rest) :
    taken ≤ queue.idxOf a + joined :=
  Nat.le_trans (Nat.le_add_left _ _) h.rank.2

end ReadyQueue
