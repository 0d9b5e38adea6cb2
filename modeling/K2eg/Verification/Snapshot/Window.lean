import K2eg.Verification.Snapshot.Lossless

/-! # How old the events of a submission are

Only `push` prunes, by the time of the pushed event, and nothing does at a swap. So the events of a
submission are not older than the window just where a later event has pushed the old ones out. -/

namespace K2eg

open Interleaving
open TimeWindowEventBuffer (isOld)

variable {cmd : RepeatingSnapshotCommand} {history : List BackTimedRecord}
  {run run' : BackTimedRun} {now : Int} {batches : List (List Arrival)} {batch held : List Arrival}

/-- The submissions hold the batches, and the events of a batch arrived since the swap before it,
at most the window before its own. -/
structure Recent (cmd : RepeatingSnapshotCommand) (history : List BackTimedRecord)
    (batches : List (List Arrival)) : Prop where
  submitted : List.Forall₂ (Submits cmd.pvFieldFilterList) (swaps history) batches
  young : AtSwaps (fun past now batch => ∀ arrival ∈ batch, arrival ∈ sinceSwap past ∧
    now - arrival.time ≤ cmd.timeWindowMsec * SnapshotOpInfo.nanosecondsPerMsec) history batches

namespace BackTimedRun

/-- A round that swaps the buffers comes when each event since the last swap that is older than the
window was so when a later event arrived. -/
def PrunedInTime (run : BackTimedRun) : BackTimedStep → Prop
  | .checkerRound now => run.op.due now = true → ∀ arrival ∈ sinceSwap run.history,
      now - arrival.time > run.op.cmd.timeWindowMsec * SnapshotOpInfo.nanosecondsPerMsec →
        ∃ later ∈ sinceSwap run.history, later.time - arrival.time >
          run.op.cmd.timeWindowMsec * SnapshotOpInfo.nanosecondsPerMsec
  | _ => True

instance (run : BackTimedRun) : (step : BackTimedStep) → Decidable (run.PrunedInTime step)
  | .checkerRound now => by
    dsimp only [PrunedInTime]
    infer_instance
  | .addData .. | .trigger | .stop => inferInstanceAs (Decidable True)

end BackTimedRun

namespace Recent

theorem start (cmd : RepeatingSnapshotCommand) : Recent cmd [] [] where
  submitted := .nil
  young := by simp [AtSwaps]

theorem arrival (h : Recent cmd history batches) (arrival : Arrival) :
    Recent cmd (history ++ [.arrival arrival]) batches where
  submitted := by simpa using h.submitted
  young := h.young.arrival arrival

theorem swap (h : Recent cmd history batches)
    {result : Except Failure (SnapshotSubmission PVStructure)} {pvs : List String}
    (hsubmits : Submits cmd.pvFieldFilterList result batch)
    (hyoung : ∀ arrival ∈ batch, arrival ∈ sinceSwap history ∧
      now - arrival.time ≤ cmd.timeWindowMsec * SnapshotOpInfo.nanosecondsPerMsec) :
    Recent cmd (history ++ [.swap now result pvs]) (batches ++ [batch]) where
  submitted := by
    rw [swaps_swap]
    exact List.rel_append h.submitted (.cons hsubmits .nil)
  young := h.young.swap h.submitted.length_eq.symm hyoung

end Recent

/-! ## What is held is not pruned by what came later -/

/-- The held arrivals are in the order of their times, and none was old when a later one came. -/
structure Unpruned (cmd : RepeatingSnapshotCommand) (run : BackTimedRun) (held : List Arrival) :
    Prop where
  sorted : held.Pairwise fun first second => first.time ≤ second.time
  past : ∀ arrival ∈ sinceSwap run.history, arrival.time ≤ run.clock
  fresh : ∀ arrival ∈ held, ∀ later ∈ sinceSwap run.history,
    later.time - arrival.time ≤ cmd.timeWindowMsec * SnapshotOpInfo.nanosecondsPerMsec

namespace Unpruned

theorem congr (h : Unpruned cmd run held) (hhistory : run'.history = run.history)
    (hclock : run.clock ≤ run'.clock) : Unpruned cmd run' held where
  sorted := h.sorted
  past := by
    rw [hhistory]
    exact fun arrival harrival => (h.past arrival harrival).trans hclock
  fresh := hhistory ▸ h.fresh

/-- In order of time, none of what is left after the old front is old. -/
theorem young_of_dropWhile {windowMs : Int}
    (hsorted : held.Pairwise fun first second => first.time ≤ second.time) :
    ∀ arrival ∈ held.dropWhile (fun arrival => isOld windowMs now arrival.entry),
      now - arrival.time ≤ windowMs * SnapshotOpInfo.nanosecondsPerMsec := by
  induction held with
  | nil => simp
  | cons first rest ih =>
      obtain ⟨hfirst, hrest⟩ := List.pairwise_cons.1 hsorted
      by_cases hold : isOld windowMs now first.entry = true
      · rw [List.dropWhile_cons, if_pos hold]
        exact ih hrest
      · rw [List.dropWhile_cons, if_neg hold]
        have hyoung : now - first.time ≤ windowMs * SnapshotOpInfo.nanosecondsPerMsec :=
          not_lt.1 fun hlt => hold (decide_eq_true hlt)
        rintro arrival (_ | ⟨_, harrival⟩)
        · exact hyoung
        · have := hfirst arrival harrival
          omega

theorem push (h : Unpruned cmd run held) (hheld : ∀ arrival ∈ held, arrival ∈ sinceSwap run.history)
    (event : MonitorEvent PVStructure) (hclock : run.clock ≤ now)
    (hwindow : 0 ≤ cmd.timeWindowMsec) :
    Unpruned cmd { run with
      op := run.op.addData event now
      clock := now
      history := run.history ++ [.arrival ⟨(arrivals run.history).length, event, now⟩] }
      (held.dropWhile (fun arrival => isOld cmd.timeWindowMsec now arrival.entry) ++
        [⟨(arrivals run.history).length, event, now⟩]) where
  sorted := by
    have hdrop := h.sorted.sublist (List.dropWhile_sublist
      (fun arrival => isOld cmd.timeWindowMsec now arrival.entry))
    refine List.pairwise_append.2 ⟨hdrop, List.pairwise_singleton _ _, ?_⟩
    rintro first hfirst second (_ | ⟨_, hnone⟩)
    · exact (h.past first (hheld first ((List.dropWhile_sublist _).subset hfirst))).trans hclock
    · cases hnone
  past := by
    rw [sinceSwap_arrival]
    intro arrival harrival
    rcases List.mem_append.1 harrival with hold | hnew
    · exact (h.past arrival hold).trans hclock
    · obtain rfl := List.mem_singleton.1 hnew
      exact le_rfl
  fresh := by
    rw [sinceSwap_arrival]
    intro arrival harrival later hlater
    have hnonneg : 0 ≤ cmd.timeWindowMsec * SnapshotOpInfo.nanosecondsPerMsec :=
      Int.mul_nonneg hwindow (by decide)
    rcases List.mem_append.1 harrival with hkept | hnew
    · rcases List.mem_append.1 hlater with hbefore | hlast
      · exact h.fresh arrival ((List.dropWhile_sublist _).subset hkept) later hbefore
      · obtain rfl := List.mem_singleton.1 hlast
        exact young_of_dropWhile h.sorted arrival hkept
    · obtain rfl := List.mem_singleton.1 hnew
      rcases List.mem_append.1 hlater with hbefore | hlast
      · have := (h.past later hbefore).trans hclock
        simp only
        omega
      · obtain rfl := List.mem_singleton.1 hlast
        simpa using hnonneg

end Unpruned

/-! ## Runs -/

/-- What every run keeps whose swaps find the old events pruned. -/
def RecentSoFar (cmd : RepeatingSnapshotCommand) (run : BackTimedRun) : Prop :=
  ∃ batches, Recent cmd run.history batches ∧ (run.terminated = false →
    Lossless cmd run.history batches ∧
      ∃ held, Holds cmd run batches held ∧ Unpruned cmd run held)

namespace RecentSoFar

theorem start (cmd : RepeatingSnapshotCommand) (pvs : List String) (now : Int) :
    RecentSoFar cmd (.start cmd pvs now) := by
  refine ⟨[], Recent.start cmd, fun _ => ⟨Lossless.start cmd, [], Holds.start cmd pvs now, ?_⟩⟩
  exact {
    sorted := .nil
    past := by simp [BackTimedRun.start, sinceSwap]
    fresh := by simp }

/-- What is held at a swap is in the window where the old events have been pruned. -/
theorem young_of_prunedInTime (h : Holds cmd run batches held) (hunpruned : Unpruned cmd run held)
    (hdue : run.op.due now = true) (hpruned : run.PrunedInTime (.checkerRound now)) :
    ∀ arrival ∈ held, arrival ∈ sinceSwap run.history ∧
      now - arrival.time ≤ cmd.timeWindowMsec * SnapshotOpInfo.nanosecondsPerMsec := by
  intro arrival harrival
  refine ⟨h.recent arrival harrival, not_lt.1 fun hold => ?_⟩
  have hmem := h.recent arrival harrival
  obtain ⟨later, hlater, hpush⟩ := hpruned hdue arrival hmem (by rwa [h.cmd_eq])
  have hfresh := hunpruned.fresh arrival harrival later hlater
  rw [h.cmd_eq] at hpush
  omega

theorem round (hrecent : Recent cmd run.history batches)
    (hlossless : Lossless cmd run.history batches)
    (h : Holds cmd run batches held) (hunpruned : Unpruned cmd run held)
    (hclock : run.clock ≤ now) (hpruned : run.PrunedInTime (.checkerRound now)) :
    RecentSoFar cmd (run.checkerRound now) := by
  cases hdue : run.op.due now with
  | false =>
      obtain ⟨hhistory, -, hnow, hcmd, hacquiring, hprocessing⟩ := checkerRound_idle hdue
      have hclock' : run.clock ≤ (run.checkerRound now).clock := hclock.trans hnow.ge
      exact ⟨batches, hhistory ▸ hrecent, fun _ => ⟨hhistory ▸ hlossless, held,
        h.congr hcmd hacquiring hprocessing hhistory hclock', hunpruned.congr hhistory hclock'⟩⟩
  | true =>
      have hyoung := young_of_prunedInTime h hunpruned hdue hpruned
      by_cases hfields : ∀ entry ∈ run.op.acquiringBuffer.entries,
          hasFields run.op.cmd.pvFieldFilterList entry.event = true
      · obtain ⟨hnew, hholds⟩ := h.round_ok hlossless hdue hclock hfields
        obtain ⟨submission, pvs, hsubmits, hhistory, -⟩ := h.round_submits hdue hfields
        refine ⟨batches ++ [held], ?_, fun _ => ⟨hnew, [], hholds, ?_⟩⟩
        · rw [hhistory]
          exact hrecent.swap hsubmits hyoung
        · exact {
            sorted := .nil
            past := by rw [hhistory]; simp
            fresh := by simp }
      · obtain ⟨hterminated, failure, hhistory⟩ := h.round_error hdue hfields
        refine ⟨batches ++ [[]], ?_, fun hrunning => ?_⟩
        · have hsubmits : Submits cmd.pvFieldFilterList (.error failure) [] := rfl
          rw [hhistory]
          exact hrecent.swap hsubmits (by simp)
        · rw [hterminated] at hrunning
          cases hrunning

/-- A step keeps the property. -/
theorem step {step : BackTimedStep} (hwindow : 0 ≤ cmd.timeWindowMsec) (h : RecentSoFar cmd run)
    (hpruned : run.PrunedInTime step) (hnext : run.next step = some run') :
    RecentSoFar cmd run' := by
  obtain ⟨batches, hrecent, hholds⟩ := h
  obtain ⟨hrunning, htransition⟩ := BackTimedRun.transition_of_next hnext
  obtain ⟨hlossless, held, hheld, hunpruned⟩ := hholds hrunning
  cases htransition with
  | addData event _ later =>
      exact ⟨batches, hrecent.arrival _, fun _ => ⟨hlossless.arrival _, _,
        hheld.push event later, hunpruned.push hheld.recent event later hwindow⟩⟩
  | checkerRound _ later => exact round hrecent hlossless hheld hunpruned later hpruned
  | trigger | stop =>
      exact ⟨batches, hrecent, fun _ => ⟨hlossless, held,
        hheld.congr rfl rfl rfl rfl le_rfl, hunpruned.congr rfl le_rfl⟩⟩

end RecentSoFar

/-- Along a run whose swaps find the old events pruned, each event of a submission arrived at most
the window before its swap. -/
theorem BackTimedRun.recent_of_run (cmd : RepeatingSnapshotCommand) (pvs : List String)
    (begin : Int) (hwindow : 0 ≤ cmd.timeWindowMsec) {steps : List BackTimedStep}
    {run : BackTimedRun}
    (h : Run BackTimedRun.next BackTimedRun.PrunedInTime (.start cmd pvs begin) steps run) :
    ∃ batches, Recent cmd run.history batches := by
  have hkept : RecentSoFar cmd run :=
    h.invariant (I := fun _ run => RecentSoFar cmd run) (RecentSoFar.start cmd pvs begin)
      fun hbefore hpruned hnext => hbefore.step hwindow hpruned hnext
  obtain ⟨batches, hrecent, -⟩ := hkept
  exact ⟨batches, hrecent⟩

/-- A triggered snapshot with a window of one second. -/
private def onTrigger : RepeatingSnapshotCommand where
  replyTopic := "replies"
  replyId := "1"
  snapshotName := "orbit"
  pvNameList := ["pva://orbit:x"]
  timeWindowMsec := 1000
  triggered := true
  type := .timedBuffered

/-- An event of the PV. -/
private def orbitEvent : MonitorEvent PVStructure := ⟨.data, "", ⟨"orbit:x", none⟩⟩

/-- Two events with a silence between them, and a trigger just behind the second. -/
theorem BackTimedRun.recent_of_run_busy : ∃ run : BackTimedRun, run.history.length = 3 ∧
    ∃ batches, Recent onTrigger run.history batches := by
  obtain ⟨run, hrun, hlength⟩ := exists_run BackTimedRun.next BackTimedRun.PrunedInTime
    (.start onTrigger ["orbit:x"] 0)
    [.addData orbitEvent 0, .addData orbitEvent 2000000000, .trigger, .checkerRound 2000000001]
    (fun run => run.history.length == 3) (by decide +kernel)
  exact ⟨run, beq_iff_eq.1 hlength,
    BackTimedRun.recent_of_run onTrigger ["orbit:x"] 0 (by decide) hrun⟩

/-- The last swap submitted one event, and the one that had arrived was older than the window. -/
private def staleEvent (run : BackTimedRun) : Bool :=
  match run.history with
  | [.arrival arrival, .swap now (.ok submission) _] =>
    submission.snapshotEvents.length == 1 &&
      decide (1000 * SnapshotOpInfo.nanosecondsPerMsec < now - arrival.time)
  | _ => false

/-- After a silence a trigger brings the event from before it. -/
theorem BackTimedRun.not_recent_silent :
    ¬ ∀ (cmd : RepeatingSnapshotCommand) (pvs : List String) (begin : Int)
      (steps : List BackTimedStep) (run : BackTimedRun), 0 ≤ cmd.timeWindowMsec →
        cmd.triggered = true → AnyRun BackTimedRun.next (.start cmd pvs begin) steps run →
          ∃ batches, Recent cmd run.history batches := by
  intro hall
  obtain ⟨run, hrun, hcheck⟩ := exists_run BackTimedRun.next (fun _ _ => True)
    (.start onTrigger ["orbit:x"] 0)
    [.addData orbitEvent 0, .trigger, .checkerRound 5000000000] staleEvent (by decide +kernel)
  obtain ⟨batches, hbatches⟩ := hall _ _ _ _ run (by decide) rfl hrun
  rw [staleEvent] at hcheck
  split at hcheck
  · rename_i arrival now submission pvs hhistory
    obtain ⟨hlength, hage⟩ := Bool.and_eq_true_iff.1 hcheck
    have hsplit : run.history = [.arrival arrival] ++ [.swap now (.ok submission) pvs] := hhistory
    have hyoung := hbatches.young _ _ _ _ _ hsplit
    have hsubmitted := hbatches.submitted
    rw [hhistory] at hsubmitted
    obtain ⟨batch, rest, hbatch, -, rfl⟩ := List.forall₂_cons_left_iff.1 hsubmitted
    have hone : batch.length = 1 := by
      have hsame : batch.length = submission.snapshotEvents.length := List.Forall₂.length_eq hbatch
      rw [hsame]
      exact beq_iff_eq.1 hlength
    obtain ⟨only, rfl⟩ := List.length_eq_one_iff.1 hone
    obtain ⟨hmem, hrecent⟩ := hyoung only (by simp [swaps])
    obtain rfl : only = arrival := by simpa [sinceSwap] using hmem
    exact absurd hrecent (not_le.2 (of_decide_eq_true hage))
  · cases hcheck

end K2eg
