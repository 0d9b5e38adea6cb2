import Mathlib.Data.List.Basic

/-! # Interleaved runs

A system is a partial step function on labels: a label that is not enabled in a state gives
`none`. A run is one interleaving of the parties of the system, as the list of its labels. -/

namespace Interleaving

variable {σ α : Type*}

/-- The runs from `start` whose steps are all allowed, with their labels in order. -/
inductive Run (next : σ → α → Option σ) (allowed : σ → α → Prop) (start : σ) :
    List α → σ → Prop where
  | nil : Run next allowed start [] start
  | snoc {labels s label t} : Run next allowed start labels s → allowed s label →
      next s label = some t → Run next allowed start (labels ++ [label]) t

/-- The runs without a restriction on their steps. -/
abbrev AnyRun (next : σ → α → Option σ) (start : σ) : List α → σ → Prop :=
  Run next (fun _ _ => True) start

/-- A property holds in every state that a run passes. -/
def Always (next : σ → α → Option σ) (start : σ) (labels : List α) (P : σ → Prop) : Prop :=
  ∀ past future s, past ++ future = labels → AnyRun next start past s → P s

namespace Run

variable {next : σ → α → Option σ} {allowed allowed' : σ → α → Prop} {start s t : σ}
  {labels : List α}

/-! ## Rules -/

/-- What holds at the start and is kept by every allowed step holds after every run. -/
theorem invariant {I : List α → σ → Prop} (hstart : I [] start)
    (hstep : ∀ {labels s label t}, I labels s → allowed s label → next s label = some t →
      I (labels ++ [label]) t)
    (h : Run next allowed start labels s) : I labels s := by
  induction h with
  | nil => exact hstart
  | snoc _ hallowed hnext ih => exact hstep ih hallowed hnext

/-- A run whose steps all lower a measure is no longer than the measure was. -/
theorem length_add_le {I : σ → Prop} (measure : σ → ℕ) (hstart : I start)
    (hstep : ∀ {s label t}, I s → allowed s label → next s label = some t →
      I t ∧ measure t < measure s)
    (h : Run next allowed start labels s) :
    I s ∧ labels.length + measure s ≤ measure start := by
  induction h with
  | nil => exact ⟨hstart, by simp⟩
  | snoc _ hallowed hnext ih =>
      obtain ⟨hkept, hlower⟩ := hstep ih.1 hallowed hnext
      refine ⟨hkept, ?_⟩
      have hbefore := ih.2
      rw [List.length_append, List.length_singleton]
      omega

theorem mono (hle : ∀ s label, allowed s label → allowed' s label)
    (h : Run next allowed start labels s) : Run next allowed' start labels s := by
  induction h with
  | nil => exact .nil
  | snoc _ hallowed hnext ih => exact .snoc ih (hle _ _ hallowed) hnext

theorem any (h : Run next allowed start labels s) : AnyRun next start labels s :=
  h.mono fun _ _ _ => trivial

/-- A step before a run. -/
theorem cons {label : α} (hallowed : allowed start label) (hnext : next start label = some s)
    (h : Run next allowed s labels t) : Run next allowed start (label :: labels) t := by
  induction h with
  | nil => exact Run.nil.snoc hallowed hnext
  | snoc _ hlast hnext' ih => exact ih.snoc hlast hnext'

/-- The last step of a run. -/
theorem of_snoc {label : α} (h : Run next allowed start (labels ++ [label]) t) :
    ∃ s, Run next allowed start labels s ∧ allowed s label ∧ next s label = some t := by
  generalize hall : labels ++ [label] = all at h
  cases h with
  | nil => simp at hall
  | snoc hrun hallowed hnext =>
      obtain ⟨rfl, hlabel⟩ := List.append_inj' hall rfl
      obtain rfl := List.singleton_inj.mp hlabel
      exact ⟨_, hrun, hallowed, hnext⟩

/-- The first steps of a run are a run. -/
theorem of_append {past future : List α} (h : Run next allowed start (past ++ future) t) :
    ∃ s, Run next allowed start past s := by
  generalize hall : past ++ future = all at h
  induction h generalizing future with
  | nil =>
      obtain ⟨rfl, -⟩ := List.append_eq_nil_iff.mp hall
      exact ⟨start, .nil⟩
  | snoc hrun hallowed hnext ih =>
      rcases List.eq_nil_or_concat future with rfl | ⟨init, last, rfl⟩
      · rw [List.append_nil] at hall
        exact ⟨_, hall ▸ hrun.snoc hallowed hnext⟩
      · rw [List.concat_eq_append, ← List.append_assoc] at hall
        exact ih (List.append_inj' hall rfl).1

theorem eq_of_nil (h : Run next allowed start [] s) : s = start := by
  generalize hall : ([] : List α) = all at h
  cases h with
  | nil => rfl
  | snoc => simp at hall

/-- A run is determined by its labels. -/
theorem deterministic (h : Run next allowed start labels s) :
    ∀ {t}, Run next allowed' start labels t → s = t := by
  induction h with
  | nil => exact fun h => h.eq_of_nil.symm
  | snoc _ _ hnext ih =>
      intro t h
      obtain ⟨s', hrun, -, hnext'⟩ := h.of_snoc
      rw [ih hrun, hnext'] at hnext
      exact (Option.some.inj hnext).symm

/-! ## The states along a run

Where the allowed steps are exactly those that keep a property, a run keeps the property all
along if and only if all of its steps are allowed. -/

theorem always_snoc {P : σ → Prop} {label : α} (hrun : AnyRun next start (labels ++ [label]) t) :
    Always next start (labels ++ [label]) P ↔ Always next start labels P ∧ P t := by
  constructor
  · intro h
    refine ⟨fun past future s heq => h past (future ++ [label]) s ?_, h _ [] t (by simp) hrun⟩
    rw [← List.append_assoc, heq]
  · rintro ⟨hpast, hlast⟩ past future s heq hs
    rcases List.eq_nil_or_concat future with rfl | ⟨init, last, rfl⟩
    · rw [List.append_nil] at heq
      subst heq
      rwa [hs.deterministic hrun]
    · rw [List.concat_eq_append, ← List.append_assoc] at heq
      exact hpast past init s (List.append_inj' heq rfl).1 hs

theorem always_iff {I P : σ → Prop} (hstart : I start) (hP : ∀ s, I s → P s)
    (hstep : ∀ {s label t}, I s → next s label = some t →
      (allowed s label → I t) ∧ (¬ allowed s label → ¬ P t))
    (h : AnyRun next start labels s) :
    Always next start labels P ↔ Run next allowed start labels s := by
  have hinv : ∀ {labels s}, Run next allowed start labels s → I s := by
    intro labels s hrun
    induction hrun with
    | nil => exact hstart
    | snoc _ hallowed hnext ih => exact (hstep ih hnext).1 hallowed
  induction h with
  | nil =>
      refine ⟨fun _ => .nil, fun _ past future s heq hs => ?_⟩
      obtain ⟨rfl, -⟩ := List.append_eq_nil_iff.mp heq
      rw [hs.eq_of_nil]
      exact hP _ hstart
  | snoc hrun _ hnext ih =>
      refine (always_snoc (hrun.snoc trivial hnext)).trans ⟨?_, fun hall => ?_⟩
      · rintro ⟨hbefore, hlast⟩
        have hpast := ih.mp hbefore
        by_contra hnot
        exact (hstep (hinv hpast) hnext).2 (fun hallowed => hnot (hpast.snoc hallowed hnext))
          hlast
      · obtain ⟨s', hpast, hallowed, hnext'⟩ := hall.of_snoc
        obtain rfl := hrun.deterministic hpast
        exact ⟨ih.mpr hpast, hP _ ((hstep (hinv hpast) hnext).1 hallowed)⟩

end Run

/-! ## Executing a list of labels -/

/-- Follow the labels as long as every step is enabled and allowed. -/
def execute (next : σ → α → Option σ) (allowed : σ → α → Prop)
    [∀ s label, Decidable (allowed s label)] : σ → List α → Option σ
  | s, [] => some s
  | s, label :: rest =>
    if allowed s label then
      (next s label).bind fun t => execute next allowed t rest
    else none

variable {next : σ → α → Option σ} {allowed : σ → α → Prop}
  [∀ s label, Decidable (allowed s label)]

private theorem Run.execute_from {start s : σ} {past : List α}
    (h : Run next allowed start past s) :
    ∀ {labels t}, execute next allowed s labels = some t →
      Run next allowed start (past ++ labels) t := by
  intro labels
  induction labels generalizing s past with
  | nil =>
      intro t hexec
      obtain rfl := Option.some.inj hexec
      rwa [List.append_nil]
  | cons label rest ih =>
      intro t hexec
      rw [execute] at hexec
      split at hexec
      · rename_i hallowed
        obtain ⟨u, hnext, hrest⟩ := Option.bind_eq_some_iff.mp hexec
        have hrun := ih (h.snoc hallowed hnext) hrest
        rwa [List.append_assoc, List.singleton_append] at hrun
      · cases hexec

theorem run_of_execute {start t : σ} {labels : List α}
    (h : execute next allowed start labels = some t) : Run next allowed start labels t :=
  Run.nil.execute_from h

/-- An execution that goes through is a run; what `check` finds of its last state holds. -/
theorem exists_run (next : σ → α → Option σ) (allowed : σ → α → Prop)
    [∀ s label, Decidable (allowed s label)] (start : σ) (labels : List α) (check : σ → Bool)
    (h : ((execute next allowed start labels).any check) = true) :
    ∃ t, Run next allowed start labels t ∧ check t = true := by
  cases hexec : execute next allowed start labels with
  | none => simp [hexec] at h
  | some t => exact ⟨t, run_of_execute hexec, by simpa [hexec] using h⟩

/-! ## Executing a long list

The kernel evaluates a run by need: what a state says of a key is an expression over all steps
before it. Between two steps the values and the functions that the next steps read are fixed. -/

/-- `k` at `x`, which is one of `values` where it can be. -/
def pin {β γ : Type*} [DecidableEq β] (x : β) (k : β → γ) : List β → γ
  | [] => k x
  | value :: values => if x = value then k value else pin x k values

@[simp] theorem pin_eq {β γ : Type*} [DecidableEq β] (x : β) (k : β → γ) (values : List β) :
    pin x k values = k x := by
  induction values with
  | nil => rfl
  | cons value values ih =>
      rw [pin, ih, ite_eq_right_iff]
      exact fun h => by rw [h]

/-- `f`, asked at the keys first. -/
def tabulate {β γ : Type*} [DecidableEq β] (f : β → γ) : List β → β → γ
  | [] => f
  | key :: keys => fun x => if x = key then f key else tabulate f keys x

@[simp] theorem tabulate_eq {β γ : Type*} [DecidableEq β] (f : β → γ) (keys : List β) :
    tabulate f keys = f := by
  induction keys with
  | nil => rfl
  | cons key keys ih =>
      funext x
      rw [tabulate, ih, ite_eq_right_iff]
      exact fun h => by rw [h]

/-- Follow the labels as long as every step is allowed and enabled, settling the state after
each. -/
def passes (next : σ → α → Option σ) (allowed : σ → α → Prop)
    [∀ s label, Decidable (allowed s label)] (settle : σ → (σ → Bool) → Bool)
    (check : σ → Bool) : σ → List α → Bool
  | s, [] => check s
  | s, label :: rest => decide (allowed s label) &&
    (next s label).any fun t => settle t fun t => passes next allowed settle check t rest

theorem exists_run_of_passes {next : σ → α → Option σ} {allowed : σ → α → Prop}
    [∀ s label, Decidable (allowed s label)] {settle : σ → (σ → Bool) → Bool}
    (hsettle : ∀ s k, settle s k = k s) {check : σ → Bool} {start : σ} {labels : List α}
    (h : passes next allowed settle check start labels = true) :
    ∃ t, Run next allowed start labels t ∧ check t = true := by
  induction labels generalizing start with
  | nil => exact ⟨start, .nil, h⟩
  | cons label rest ih =>
      obtain ⟨hallowed, hpasses⟩ := Bool.and_eq_true_iff.mp h
      obtain ⟨s, hnext, hrest⟩ := (Option.any_eq_true ..).mp hpasses
      rw [hsettle] at hrest
      obtain ⟨t, hrun, hcheck⟩ := ih hrest
      exact ⟨t, hrun.cons (of_decide_eq_true hallowed) hnext, hcheck⟩

end Interleaving
