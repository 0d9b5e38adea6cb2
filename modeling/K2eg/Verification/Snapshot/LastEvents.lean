import K2eg.Foundation.History
import K2eg.Foundation.Interleaving
import K2eg.Model.RepeatingSnapshot
import Mathlib.Data.List.Dedup

/-! # Normal snapshots submit the last events

`taking_data` is unset only in the loop of `getData`, where the checker holds the lock exclusively,
so no delivery ever finds it unset. The cells hold the last event of each PV all along. -/

namespace K2eg

open Interleaving History

variable {V : Type*} {pvs : List String} {history : List (RepeatingRecord V)}
  {run run' : RepeatingRun V}

/-- The last event of the PV that `addData` has stored. -/
def lastEvent (history : List (RepeatingRecord V)) (pv : String) : Option (MonitorEvent V) :=
  history.foldl (fun last record =>
    match record with
    | .delivered event => if pv = event.channelData.pvName then some event else last
    | .dropped _ | .submitted _ => last) none

/-- A submission has, for each PV with an event, the last one and no other, and no event is turned
away. -/
def HasLast (pvs : List String) (past : List (RepeatingRecord V)) : RepeatingRecord V → Prop
  | .delivered _ => True
  | .dropped _ => False
  | .submitted submission =>
    submission.snapshotEvents.Perm (pvs.dedup.filterMap (lastEvent past))

/-! ## Cells -/

@[simp] theorem lastEvent_nil (pv : String) : lastEvent ([] : List (RepeatingRecord V)) pv = none :=
  rfl

@[simp] theorem lastEvent_delivered (history : List (RepeatingRecord V)) (event : MonitorEvent V)
    (pv : String) : lastEvent (history ++ [.delivered event]) pv =
      if pv = event.channelData.pvName then some event else lastEvent history pv := by
  simp [lastEvent]

@[simp] theorem lastEvent_submitted (history : List (RepeatingRecord V))
    (submission : SnapshotSubmission V) (pv : String) :
    lastEvent (history ++ [.submitted submission]) pv = lastEvent history pv := by
  simp [lastEvent]

/-- What is in a cell. -/
theorem lookup_cells {β : Type*} (names : List String) (cell : String → β) {name : String}
    (h : name ∈ names) : (names.map fun name => (name, cell name)).lookup name =
      some (cell name) := by
  induction names with
  | nil => cases h
  | cons first rest ih =>
      rw [List.map_cons]
      by_cases heq : name = first
      · subst heq
        exact List.lookup_cons_self
      · rw [List.lookup_cons, beq_eq_false_iff_ne.2 heq]
        exact ih (List.mem_of_ne_of_mem heq h)

/-! ## The lock -/

/-- The checker excludes the deliveries, the flag is unset only in the loop of `getData`, and the
cells hold the last events. -/
structure Guarded (pvs : List String) (run : RepeatingRun V) : Prop where
  cells : run.op.elementData = pvs.dedup.map fun pv => (pv, lastEvent run.history pv)
  taking : run.op.takingData = true ∨ ∃ names result, run.round = .loading names result
  excludes : run.round.isUnlocked = false → ∀ delivery ∈ run.deliveries, delivery.isUnlocked = true
  loaded : ∀ names result, run.round = .loading names result →
    ∃ done, done ++ names = pvs.dedup ∧ result = done.filterMap (lastEvent run.history)
  submitted : Throughout (HasLast pvs) run.history

namespace Guarded

theorem start (cmd : RepeatingSnapshotCommand) (pvs : List String) (now : Int) (threads : ℕ) :
    Guarded pvs (RepeatingRun.start cmd pvs now threads : RepeatingRun V) where
  cells := rfl
  taking := .inl rfl
  excludes := by simp [RepeatingRun.start, RoundPhase.isUnlocked]
  loaded := by simp [RepeatingRun.start]
  submitted := .nil

/-- A thread that delivers keeps the checker out, so it finds the flag set. -/
theorem of_delivery (h : Guarded pvs run) {thread : ℕ} {phase : DeliveryPhase V}
    (hthread : run.deliveries[thread]? = some phase) (hlocked : phase.isUnlocked = false) :
    run.round.isUnlocked = true ∧ run.op.takingData = true := by
  have hround : run.round.isUnlocked = true := by
    by_contra hnot
    have := h.excludes (Bool.eq_false_of_not_eq_true hnot) phase (List.mem_of_getElem? hthread)
    rw [hlocked] at this
    cases this
  refine ⟨hround, h.taking.resolve_right ?_⟩
  rintro ⟨names, result, hloading⟩
  rw [hloading] at hround
  cases hround

/-- Nobody holds a free lock. -/
theorem of_isFree (hfree : run.isFree = true) :
    run.round = .unlocked ∧ ∀ delivery ∈ run.deliveries, delivery.isUnlocked = true := by
  obtain ⟨hround, hidle⟩ := Bool.and_eq_true_iff.1 hfree
  refine ⟨?_, List.all_eq_true.1 hidle⟩
  cases hphase : run.round with
  | unlocked => rfl
  | locked | expired | loading | submitted => simp [hphase, RoundPhase.isUnlocked] at hround

/-- A thread goes on with its deliveries. -/
theorem setDelivery (h : Guarded pvs run) (thread : ℕ) (phase : DeliveryPhase V)
    (hround : run.round.isUnlocked = true) : Guarded pvs (run.setDelivery thread phase) where
  cells := h.cells
  taking := h.taking
  excludes := by
    intro hlocked
    change run.round.isUnlocked = false at hlocked
    rw [hround] at hlocked
    cases hlocked
  loaded := h.loaded
  submitted := h.submitted

/-- The cell of the PV takes the event. -/
theorem store (h : Guarded pvs run) (event : MonitorEvent V)
    (hround : run.round.isUnlocked = true) : Guarded pvs { run with
      op := run.op.store event
      history := run.history ++ [.delivered event] } where
  cells := by
    simp only [SnapshotRepeatingOpInfo.store, h.cells, List.map_map, lastEvent_delivered]
    refine List.map_congr_left fun pv _ => ?_
    simp only [Function.comp_apply]
    split <;> rfl
  taking := h.taking
  excludes := h.excludes
  loaded := by
    intro names result hloading
    change run.round = _ at hloading
    rw [hloading] at hround
    cases hround
  submitted := h.submitted.snoc trivial

/-- The checker goes on, outside of the loop of `getData`. -/
theorem setRound (h : Guarded pvs run) {info : SnapshotOpInfo} {phase : RoundPhase V}
    (hround : phase.isUnlocked = true ∨ ∀ delivery ∈ run.deliveries, delivery.isUnlocked = true)
    (htaking : run.op.takingData = true) (hphase : ∀ names result, phase ≠ .loading names result) :
    Guarded pvs { run with
      op := { run.op with toSnapshotOpInfo := info }
      round := phase } where
  cells := h.cells
  taking := .inl htaking
  excludes := by
    intro hlocked
    change phase.isUnlocked = false at hlocked
    rw [hlocked] at hround
    exact hround.resolve_left nofun
  loaded := fun names result hloading => absurd hloading (hphase names result)
  submitted := h.submitted

/-- `getData` returns what it has loaded. -/
theorem resumeTaking (h : Guarded pvs run) {result : List (MonitorEvent V)}
    (hloading : run.round = .loading [] result) : Guarded pvs (run.resumeTaking result) where
  cells := by
    simp only [RepeatingRun.resumeTaking, lastEvent_submitted]
    exact h.cells
  taking := .inl rfl
  excludes := fun _ => h.excludes (by rw [hloading]; rfl)
  loaded := by simp [RepeatingRun.resumeTaking]
  submitted := by
    obtain ⟨done, hdone, hresult⟩ := h.loaded [] result hloading
    rw [List.append_nil] at hdone
    refine h.submitted.snoc ?_
    change result.Perm _
    rw [hresult, hdone]

/-- The loop of `getData` loads one more cell. -/
theorem load (h : Guarded pvs run) {name : String} {names : List String}
    {result : List (MonitorEvent V)} (hloading : run.round = .loading (name :: names) result) :
    Guarded pvs { run with
      round := .loading names (result ++ ((run.op.elementData.lookup name).join).toList) } where
  cells := h.cells
  taking := .inr ⟨_, _, rfl⟩
  excludes := fun _ => h.excludes (by rw [hloading]; rfl)
  loaded := by
    rintro others loaded ⟨⟩
    obtain ⟨done, hdone, rfl⟩ := h.loaded _ _ hloading
    have hmem : name ∈ pvs.dedup := by simp [← hdone]
    refine ⟨done ++ [name], by simp [hdone], ?_⟩
    rw [h.cells, lookup_cells _ _ hmem, List.filterMap_append]
    cases hlast : lastEvent run.history name <;> simp [hlast]
  submitted := h.submitted

theorem next {step : RepeatingStep V} (h : Guarded pvs run) (hnext : run.next step = some run') :
    Guarded pvs run' := by
  have htaking (hround : ∀ names result, run.round ≠ .loading names result) :
      run.op.takingData = true :=
    h.taking.resolve_right fun ⟨names, result, hloading⟩ => hround names result hloading
  cases step with
  | deliverLock thread events =>
      simp only [RepeatingRun.next] at hnext
      split at hnext <;> cases hnext
      rename_i hthread hround
      exact h.setDelivery thread _ (by rw [hround]; rfl)
  | deliverLoad thread =>
      simp only [RepeatingRun.next] at hnext
      split at hnext
      · rename_i event events hthread
        obtain ⟨hround, hset⟩ := h.of_delivery hthread rfl
        rw [if_pos hset] at hnext
        obtain rfl := Option.some.inj hnext
        exact h.setDelivery thread _ hround
      · cases hnext
  | deliverStore thread =>
      simp only [RepeatingRun.next] at hnext
      split at hnext <;> cases hnext
      rename_i event events hthread
      obtain ⟨hround, -⟩ := h.of_delivery hthread rfl
      exact (h.setDelivery thread _ hround).store event hround
  | deliverUnlock thread =>
      simp only [RepeatingRun.next] at hnext
      split at hnext <;> cases hnext
      rename_i hthread
      exact h.setDelivery thread _ (h.of_delivery hthread rfl).1
  | roundLock now =>
      obtain ⟨hfree, heq⟩ := Option.ite_none_right_eq_some.1 hnext
      obtain rfl := Option.some.inj heq
      obtain ⟨hround, hidle⟩ := of_isFree hfree
      exact h.setRound (.inr hidle) (htaking (by simp [hround])) (by simp)
  | roundTimeout =>
      simp only [RepeatingRun.next] at hnext
      split at hnext <;> cases hnext
      rename_i now hround
      have hidle := h.excludes (by rw [hround]; rfl)
      refine h.setRound (.inr hidle) (htaking (by simp [hround])) ?_
      intro names result
      split <;> simp
  | roundStop =>
      simp only [RepeatingRun.next] at hnext
      split at hnext <;> cases hnext
      rename_i hround
      exact {
        cells := h.cells
        taking := .inr ⟨_, _, rfl⟩
        excludes := fun _ => h.excludes (by rw [hround]; rfl)
        loaded := by
          rintro names result ⟨⟩
          refine ⟨[], ?_, rfl⟩
          rw [h.cells, List.map_map]
          exact List.map_id _
        submitted := h.submitted }
  | roundLoad =>
      simp only [RepeatingRun.next] at hnext
      split at hnext <;> cases hnext
      exact h.load ‹_›
  | roundResume =>
      simp only [RepeatingRun.next] at hnext
      split at hnext <;> cases hnext
      exact h.resumeTaking ‹_›
  | roundUnlock =>
      simp only [RepeatingRun.next] at hnext
      split at hnext <;> cases hnext
      rename_i hround
      exact h.setRound (.inl rfl) (htaking (by simp [hround])) (by simp)
  | trigger =>
      obtain ⟨hfree, heq⟩ := Option.ite_none_right_eq_some.1 hnext
      obtain rfl := Option.some.inj heq
      obtain ⟨hround, -⟩ := of_isFree hfree
      exact h.setRound (.inl (by rw [hround]; rfl)) (htaking (by simp [hround])) (by simp [hround])
  | stop =>
      simp only [RepeatingRun.next] at hnext
      split at hnext <;> cases hnext
      rename_i hround
      exact h.setRound (.inl (by rw [hround]; rfl)) (htaking (by simp [hround])) (by simp [hround])

end Guarded

/-- Whatever the interleaving, each submission of a normal snapshot has the last event of each PV
that has had one, and nothing is turned away. -/
theorem RepeatingRun.hasLast_of_run (cmd : RepeatingSnapshotCommand) (pvs : List String)
    (created : Int) (threads : ℕ) {steps : List (RepeatingStep V)} {run : RepeatingRun V}
    (h : AnyRun RepeatingRun.next (.start cmd pvs created threads) steps run) :
    Throughout (HasLast pvs) run.history := by
  have hkept : Guarded pvs run :=
    h.invariant (I := fun _ run => Guarded pvs run) (Guarded.start cmd pvs created threads)
      fun hbefore _ hnext => hbefore.next hnext
  exact hkept.submitted

/-- An event of the first PV. -/
private def eventOf (value : ℕ) : MonitorEvent ℕ := ⟨.data, "", ⟨"x", some value⟩⟩

/-- Two deliveries of one PV, and the round that ends the window. -/
private def deliveriesAndRound : List (RepeatingStep ℕ) :=
  [.deliverLock 0 [eventOf 1, eventOf 2], .deliverLoad 0, .deliverStore 0, .deliverLoad 0,
    .deliverStore 0, .deliverUnlock 0, .roundLock 1000000001, .roundTimeout, .roundStop, .roundLoad,
    .roundLoad, .roundResume, .roundUnlock]

/-- A normal snapshot of two PVs every second. -/
private def ofTwoPvs : RepeatingSnapshotCommand where
  replyTopic := "replies"
  replyId := "1"
  snapshotName := "orbit"
  pvNameList := ["pva://x", "pva://y"]
  timeWindowMsec := 1000

/-- The second event of the one PV is submitted, and nothing of the other. -/
theorem RepeatingRun.hasLast_of_run_twice : ∃ run : RepeatingRun ℕ,
    AnyRun RepeatingRun.next (.start ofTwoPvs ["x", "y"] 0 1) deliveriesAndRound run ∧
      run.history = [.delivered (eventOf 1), .delivered (eventOf 2),
        .submitted ⟨⟨true, true, true⟩, [eventOf 2], 0⟩] ∧
      Throughout (HasLast ["x", "y"]) run.history := by
  obtain ⟨run, hrun, hhistory⟩ := exists_run RepeatingRun.next (fun _ _ => True)
    (.start ofTwoPvs ["x", "y"] 0 1) deliveriesAndRound
    (fun run => decide (run.history = [.delivered (eventOf 1), .delivered (eventOf 2),
      .submitted ⟨⟨true, true, true⟩, [eventOf 2], 0⟩])) (by decide +kernel)
  exact ⟨run, hrun, of_decide_eq_true hhistory,
    RepeatingRun.hasLast_of_run ofTwoPvs ["x", "y"] 0 1 hrun⟩

end K2eg
