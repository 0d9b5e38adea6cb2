import Mathlib.Data.List.Basic

/-! # Histories

A history is a list of events that grows at its end. Two temporal operators are enough here: that
every event was justified by what came before it, and that since some event nothing of a kind has
happened. -/

namespace History

variable {ε : Type*} {P Q : List ε → ε → Prop} {avoid : ε → Prop} {history later : List ε}
  {start event : ε}

/-- Every event of the history is justified by its past. -/
def Throughout (P : List ε → ε → Prop) (history : List ε) : Prop :=
  ∀ past event future, history = past ++ event :: future → P past event

theorem Throughout.nil : Throughout P [] := by
  intro past event future h
  simp at h

theorem Throughout.snoc (h : Throughout P history) (hevent : P history event) :
    Throughout P (history ++ [event]) := by
  intro past other future heq
  rcases List.eq_nil_or_concat future with rfl | ⟨init, last, rfl⟩
  · obtain ⟨rfl, hlast⟩ := List.append_inj' heq rfl
    rwa [← List.singleton_inj.mp hlast]
  · rw [List.concat_eq_append, ← List.cons_append, ← List.append_assoc] at heq
    exact h past other init (List.append_inj' heq rfl).1

/-- Events that need no justification. -/
theorem Throughout.append (h : Throughout P history)
    (hlater : ∀ past, ∀ event ∈ later, P past event) :
    Throughout P (history ++ later) := by
  induction later generalizing history with
  | nil => rwa [List.append_nil]
  | cons event rest ih =>
      rw [List.append_cons]
      exact ih (h.snoc (hlater history event List.mem_cons_self))
        fun past other hother => hlater past other (List.mem_cons_of_mem _ hother)

/-- The event has happened, and nothing to avoid has happened since. -/
def Since (start : ε) (avoid : ε → Prop) (history : List ε) : Prop :=
  ∃ before after, history = before ++ start :: after ∧ ∀ event ∈ after, ¬avoid event

theorem since_snoc_self (history : List ε) (start : ε) : Since start avoid (history ++ [start]) :=
  ⟨history, [], rfl, by simp⟩

theorem Since.append (h : Since start avoid history) (hlater : ∀ event ∈ later, ¬avoid event) :
    Since start avoid (history ++ later) := by
  obtain ⟨before, after, rfl, hafter⟩ := h
  refine ⟨before, after ++ later, by simp, fun event hevent => ?_⟩
  rcases List.mem_append.mp hevent with hevent | hevent
  · exact hafter event hevent
  · exact hlater event hevent

/-- What holds after every first part of a history that grows by one event. -/
theorem forall_prefix_snoc {P : List ε → Prop} :
    (∀ past, past <+: history ++ [event] → P past) ↔
      (∀ past, past <+: history → P past) ∧ P (history ++ [event]) := by
  constructor
  · intro h
    exact ⟨fun past hpast => h past (hpast.trans (List.prefix_append _ _)), h _ List.prefix_rfl⟩
  · intro h past hpast
    rcases List.prefix_concat_iff.mp hpast with rfl | hpast
    · exact h.2
    · exact h.1 past hpast

theorem getElem?_snoc (history : List ε) (event : ε) (i : ℕ) :
    (history ++ [event])[i]? = if i = history.length then some event else history[i]? := by
  rw [List.getElem?_append]
  split
  · rw [if_neg (by omega)]
  · rw [List.getElem?_singleton]
    split
    · rw [if_pos (by omega)]
    · rw [if_neg (by omega), List.getElem?_eq_none (by omega)]

/-! ## Counting since a restart -/

section Restart

variable {α : Type*} {restart P : ε → Bool} {value : ε → Option α}

/-- How many events satisfy `P`, from the last restart on. -/
def countSince (restart P : ε → Bool) (history : List ε) : ℕ :=
  (history.reverse.takeWhile fun event => !restart event).countP P

/-- The value of the last event that has one. -/
def lastValue (value : ε → Option α) (history : List ε) : Option α :=
  history.reverse.findSome? value

@[simp] theorem countSince_nil : countSince restart P [] = 0 := rfl

@[simp] theorem lastValue_nil : lastValue value ([] : List ε) = none := rfl

theorem countSince_snoc : countSince restart P (history ++ [event]) =
    if restart event then 0 else countSince restart P history + if P event then 1 else 0 := by
  cases h : restart event <;> simp [countSince, List.countP_cons, h]

theorem lastValue_snoc :
    lastValue value (history ++ [event]) = (value event).or (lastValue value history) := by
  cases h : value event <;> simp [lastValue, h]

theorem countSince_le_length : countSince restart P history ≤ history.length := by
  calc countSince restart P history
      ≤ (history.reverse.takeWhile fun event => !restart event).length := List.countP_le_length
    _ ≤ history.reverse.length := (List.takeWhile_sublist _).length_le
    _ = history.length := List.length_reverse

end Restart

end History
