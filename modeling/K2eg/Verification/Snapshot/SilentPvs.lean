import K2eg.Foundation.History
import K2eg.Verification.Snapshot.Closing
import Mathlib.Data.List.Dedup

/-! # The silent PVs of a window

In timed mode the set of silent PVs starts anew whenever a window closes. In triggered mode it does
not: a PV that has had an event is never silent again. -/

namespace K2eg

open Interleaving History

variable {cmd : RepeatingSnapshotCommand} {pvs : List String} {history : List BackTimedRecord}
  {run run' : BackTimedRun} {now : Int}

/-- The record is of a round that closed the window: its submission has the Tail. -/
def BackTimedRecord.closing : BackTimedRecord → Bool
  | .swap _ (.ok submission) _ => submission.submissionType.tail
  | _ => false

/-- The events that arrived since the last window was closed. -/
def sinceClosing (history : List BackTimedRecord) : List Arrival :=
  history.foldl (fun since record =>
    match record with
    | .arrival arrival => since ++ [arrival]
    | .swap .. => if record.closing then [] else since) []

/-- None of the events is of the PV. -/
def isSilent (events : List Arrival) (pv : String) : Bool :=
  events.all fun arrival => arrival.event.channelData.pvName != pv

/-- A round that closes a window names just the PVs without an event since the window was opened,
each once. -/
def NamesSilent (pvs : List String) (past : List BackTimedRecord) : BackTimedRecord → Prop
  | .swap _ (.ok submission) nonUpdatedPvs => submission.submissionType.tail = true →
      nonUpdatedPvs.Nodup ∧
        ∀ pv, pv ∈ nonUpdatedPvs ↔ pv ∈ pvs ∧ isSilent (sinceClosing past) pv = true
  | _ => True

namespace BackTimedRun

/-- `getData` of the round returns. -/
def roundReturns (run : BackTimedRun) (now : Int) : Bool :=
  match (run.op.isTimeout now).2.getData.1 with
  | .ok _ => true
  | .error _ => false

/-- A round that closes a window in triggered mode finds no PV that has had events, but none since
the window was opened. -/
def NoneFellSilent (pvs : List String) (run : BackTimedRun) : BackTimedStep → Prop
  | .checkerRound now => run.op.cmd.triggered = true → run.op.closes now = true →
      run.roundReturns now = true →
        ∀ pv ∈ pvs, isSilent (sinceClosing run.history) pv = true →
          isSilent (arrivals run.history) pv = true
  | _ => True

instance (pvs : List String) (run : BackTimedRun) :
    (step : BackTimedStep) → Decidable (run.NoneFellSilent pvs step)
  | .checkerRound now => by
    dsimp only [NoneFellSilent]
    infer_instance
  | .addData .. | .trigger | .stop => inferInstanceAs (Decidable True)

end BackTimedRun

/-! ## The history -/

@[simp] theorem isSilent_nil (pv : String) : isSilent [] pv = true := rfl

theorem isSilent_snoc (events : List Arrival) (arrival : Arrival) (pv : String) :
    isSilent (events ++ [arrival]) pv =
      (isSilent events pv && arrival.event.channelData.pvName != pv) := by
  simp [isSilent]

@[simp] theorem sinceClosing_arrival (history : List BackTimedRecord) (arrival : Arrival) :
    sinceClosing (history ++ [.arrival arrival]) = sinceClosing history ++ [arrival] := by
  simp [sinceClosing]

@[simp] theorem sinceClosing_swap (history : List BackTimedRecord) (now : Int)
    (result : Except Failure (SnapshotSubmission PVStructure)) (nonUpdatedPvs : List String) :
    sinceClosing (history ++ [.swap now result nonUpdatedPvs]) =
      if (BackTimedRecord.swap now result nonUpdatedPvs).closing then []
      else sinceClosing history := by
  simp [sinceClosing]

/-- What arrived since the window was opened has arrived. -/
theorem isSilent_sinceClosing {pv : String} (h : isSilent (arrivals history) pv = true) :
    isSilent (sinceClosing history) pv = true := by
  induction history using List.reverseRecOn with
  | nil => rfl
  | append_singleton past record ih =>
      cases record with
      | arrival arrival =>
          rw [arrivals_arrival, isSilent_snoc, Bool.and_eq_true] at h
          rw [sinceClosing_arrival, isSilent_snoc, ih h.1, h.2]
          rfl
      | swap now result nonUpdatedPvs =>
          rw [arrivals_swap] at h
          rw [sinceClosing_swap]
          split
          · rfl
          · exact ih h

/-! ## The set of silent PVs along a run -/

/-- The events after which the set of silent PVs was last filled. -/
def sinceFilled (cmd : RepeatingSnapshotCommand) (history : List BackTimedRecord) : List Arrival :=
  if cmd.triggered then arrivals history else sinceClosing history

/-- Between two rounds no copy of the set waits, and the set has the PVs without an event since it
was last filled. -/
structure Tracks (cmd : RepeatingSnapshotCommand) (pvs : List String) (run : BackTimedRun) :
    Prop where
  cmd_eq : run.op.cmd = cmd
  all : run.op.allPvs = pvs.dedup
  none_pending : run.op.pendingPvsWithoutEventsReady = false
  silent : run.op.pvsNoEvents =
    run.op.allPvs.filter (isSilent (sinceFilled cmd run.history))

/-- What every run keeps. -/
def SilentSoFar (cmd : RepeatingSnapshotCommand) (pvs : List String) (run : BackTimedRun) : Prop :=
  Throughout (NamesSilent pvs) run.history ∧ (run.terminated = false → Tracks cmd pvs run)

namespace Tracks

theorem start (cmd : RepeatingSnapshotCommand) (pvs : List String) (now : Int) :
    Tracks cmd pvs (.start cmd pvs now) where
  cmd_eq := rfl
  all := rfl
  none_pending := rfl
  silent := by
    have hnone : sinceFilled cmd (BackTimedRun.start cmd pvs now).history = [] := by
      rw [sinceFilled]
      split <;> rfl
    rw [hnone]
    exact (List.filter_eq_self.2 fun pv _ => isSilent_nil pv).symm

theorem addData (h : Tracks cmd pvs run) (arrival : Arrival) :
    Tracks cmd pvs { run with
      op := run.op.addData arrival.event arrival.time
      clock := arrival.time
      history := run.history ++ [.arrival arrival] } where
  cmd_eq := h.cmd_eq
  all := h.all
  none_pending := h.none_pending
  silent := by
    have hsince : sinceFilled cmd (run.history ++ [.arrival arrival]) =
        sinceFilled cmd run.history ++ [arrival] := by
      rw [sinceFilled, sinceFilled]
      split <;> simp
    change run.op.pvsNoEvents.filter _ = run.op.allPvs.filter _
    rw [hsince, h.silent, List.filter_filter]
    refine List.filter_congr fun pv _ => ?_
    rw [isSilent_snoc, Bool.and_comm, bne_comm]

/-- A round that does not swap. -/
theorem idle (h : Tracks cmd pvs run) (hdue : run.op.due now = false) :
    Tracks cmd pvs (run.checkerRound now) := by
  obtain ⟨htimeout, hcmd, -⟩ := run.op.isTimeout_spec now
  obtain ⟨-, -, hall, hnone, -, hready⟩ := run.op.isTimeout_pvs now
  have hopen : run.op.closes now = false := by
    by_contra hcloses
    rw [run.op.due_of_closes now (Bool.eq_true_of_not_eq_false hcloses)] at hdue
    cases hdue
  have hround : run.checkerRound now =
      { run with op := (run.op.isTimeout now).2, clock := now } := by
    simp [BackTimedRun.checkerRound, htimeout, hdue]
  rw [hround]
  refine ⟨hcmd.trans h.cmd_eq, hall.trans h.all, ?_, ?_⟩
  · simpa [hdue, h.none_pending] using hready
  · simpa [hopen, hall, h.silent] using hnone

/-- A round whose `getData` returns names the PVs without an event since the set was filled. -/
theorem round_returns (h : Tracks cmd pvs run) (hdue : run.op.due now = true)
    (hreturns : run.roundReturns now = true) :
    ∃ submission, (run.checkerRound now).history = run.history ++ [.swap now (.ok submission)
        (run.op.allPvs.filter (isSilent (sinceFilled cmd run.history)))] ∧
      submission.submissionType.tail = run.op.closes now ∧
      Tracks cmd pvs (run.checkerRound now) := by
  obtain ⟨htimeout, -⟩ := run.op.isTimeout_spec now
  obtain ⟨hexpired, hrunning, -⟩ := run.op.isTimeout_pvs now
  obtain ⟨-, -, -, -, -, htail⟩ := (run.op.isTimeout now).2.getData_pvs
  obtain ⟨hnames, hkept, hsame, hunready, hfilled⟩ :=
    run.op.getPVsWithoutEvents_of_round now h.none_pending hdue
  cases hdata : (run.op.isTimeout now).2.getData with
  | mk result op =>
      rw [hdata] at htail hnames hkept hsame hunready hfilled
      cases result with
      | error failure => simp [BackTimedRun.roundReturns, hdata] at hreturns
      | ok submission =>
          have htail' : submission.submissionType.tail = run.op.closes now := by
            rw [htail submission rfl, hexpired, hrunning]
            cases hrun : run.op.isRunning with
            | true => simp
            | false => simp [SnapshotOpInfo.closes_of_stopped hrun]
          have hround : run.checkerRound now = { run with
              op := op.getPVsWithoutEvents.2
              clock := now
              history :=
                run.history ++ [.swap now (.ok submission) op.getPVsWithoutEvents.1] } := by
            simp [BackTimedRun.checkerRound, htimeout, hdue, hdata]
          refine ⟨submission, ?_, htail', ?_⟩
          · rw [hround, hnames, h.silent]
          · rw [hround]
            refine ⟨hkept.trans h.cmd_eq, hsame.trans h.all, hunready, hfilled.trans ?_⟩
            change _ = op.getPVsWithoutEvents.2.allPvs.filter _
            rw [hsame, h.silent, h.cmd_eq, sinceFilled, sinceFilled, arrivals_swap,
              sinceClosing_swap]
            simp only [BackTimedRecord.closing, htail']
            cases cmd.triggered with
            | true => rfl
            | false =>
                cases run.op.closes now with
                | true => exact (List.filter_eq_self.2 fun pv _ => isSilent_nil pv).symm
                | false => rfl

end Tracks

/-- A round whose `getData` throws names no PV. -/
theorem checkerRound_throws (hdue : run.op.due now = true)
    (hthrows : run.roundReturns now = false) :
    (run.checkerRound now).terminated = true ∧
      ∃ failure, (run.checkerRound now).history =
        run.history ++ [.swap now (.error failure) []] := by
  have htimeout := (run.op.isTimeout_spec now).1
  cases hdata : (run.op.isTimeout now).2.getData with
  | mk result op =>
      cases result with
      | ok submission => simp [BackTimedRun.roundReturns, hdata] at hthrows
      | error failure => simp [BackTimedRun.checkerRound, htimeout, hdue, hdata]

namespace SilentSoFar

theorem start (cmd : RepeatingSnapshotCommand) (pvs : List String) (now : Int) :
    SilentSoFar cmd pvs (.start cmd pvs now) :=
  ⟨.nil, fun _ => Tracks.start cmd pvs now⟩

/-- The PVs without an event since the set was filled are the silent ones just if none fell silent
in triggered mode. -/
theorem named_iff {submission : SnapshotSubmission PVStructure} (h : Tracks cmd pvs run)
    (hreturns : run.roundReturns now = true)
    (htail : submission.submissionType.tail = run.op.closes now) :
    NamesSilent pvs run.history (.swap now (.ok submission)
        (run.op.allPvs.filter (isSilent (sinceFilled cmd run.history)))) ↔
      run.NoneFellSilent pvs (.checkerRound now) := by
  have hnodup : (run.op.allPvs.filter (isSilent (sinceFilled cmd run.history))).Nodup := by
    rw [h.all]
    exact (List.nodup_dedup pvs).filter _
  have hmem (pv : String) : pv ∈ run.op.allPvs.filter (isSilent (sinceFilled cmd run.history)) ↔
      pv ∈ pvs ∧ isSilent (sinceFilled cmd run.history) pv = true := by
    rw [List.mem_filter, h.all, List.mem_dedup]
  simp only [NamesSilent, htail, hnodup, true_and, hmem]
  simp only [BackTimedRun.NoneFellSilent, h.cmd_eq, hreturns, forall_const, sinceFilled]
  cases htriggered : cmd.triggered with
  | false => simp
  | true =>
      simp only [if_true, forall_const]
      refine forall_congr' fun hcloses => forall_congr' fun pv => ?_
      constructor
      · exact fun hiff hpv hsilent => (hiff.2 ⟨hpv, hsilent⟩).2
      · exact fun hnone => ⟨fun hpv => ⟨hpv.1, isSilent_sinceClosing hpv.2⟩,
          fun hpv => ⟨hpv.1, hnone hpv.1 hpv.2⟩⟩

/-- The round of the checker keeps the property just if no PV fell silent in triggered mode. -/
theorem round (hthroughout : Throughout (NamesSilent pvs) run.history) (h : Tracks cmd pvs run) :
    (run.NoneFellSilent pvs (.checkerRound now) → SilentSoFar cmd pvs (run.checkerRound now)) ∧
      (¬ run.NoneFellSilent pvs (.checkerRound now) →
        ¬ Throughout (NamesSilent pvs) (run.checkerRound now).history) := by
  cases hdue : run.op.due now with
  | false =>
      refine ⟨fun _ => ⟨?_, fun _ => h.idle hdue⟩, fun hnot => absurd (fun _ hcloses => ?_) hnot⟩
      · rwa [(checkerRound_idle hdue).1]
      · rw [run.op.due_of_closes now hcloses] at hdue
        cases hdue
  | true =>
      cases hreturns : run.roundReturns now with
      | false =>
          obtain ⟨hterminated, failure, hhistory⟩ := checkerRound_throws hdue hreturns
          refine ⟨fun _ => ⟨?_, fun hrunning => ?_⟩, fun hnot => absurd (fun _ _ hok => ?_) hnot⟩
          · rw [hhistory]
            exact hthroughout.snoc trivial
          · rw [hterminated] at hrunning
            cases hrunning
          · rw [hreturns] at hok
            cases hok
      | true =>
          obtain ⟨submission, hhistory, htail, htracks⟩ := h.round_returns hdue hreturns
          have hiff := named_iff h hreturns htail
          rw [SilentSoFar, hhistory]
          exact ⟨fun hnone => ⟨hthroughout.snoc (hiff.2 hnone), fun _ => htracks⟩,
            fun hnot hall => hnot (hiff.1 (hall run.history _ [] rfl))⟩

/-- A step keeps the property just if no PV falls silent in triggered mode. -/
theorem step {step : BackTimedStep} (h : SilentSoFar cmd pvs run)
    (hnext : run.next step = some run') :
    (run.NoneFellSilent pvs step → SilentSoFar cmd pvs run') ∧
      (¬ run.NoneFellSilent pvs step → ¬ Throughout (NamesSilent pvs) run'.history) := by
  obtain ⟨hthroughout, htracks⟩ := h
  obtain ⟨hrunning, htransition⟩ := BackTimedRun.transition_of_next hnext
  have htracked := htracks hrunning
  cases htransition with
  | addData event now =>
      refine ⟨fun _ => ?_, fun hnot => absurd trivial hnot⟩
      exact ⟨hthroughout.snoc trivial,
        fun _ => htracked.addData ⟨(arrivals run.history).length, event, now⟩⟩
  | checkerRound => exact round hthroughout htracked
  | trigger | stop =>
      exact ⟨fun _ => ⟨hthroughout, fun _ => ⟨htracked.cmd_eq, htracked.all,
        htracked.none_pending, htracked.silent⟩⟩, fun hnot => absurd trivial hnot⟩

end SilentSoFar

/-- Each round of a run that closes a window names just the PVs that were silent in it, if and only
if no PV falls silent in triggered mode. -/
theorem BackTimedRun.namesSilent_iff (cmd : RepeatingSnapshotCommand) (pvs : List String)
    (begin : Int) {steps : List BackTimedStep} {run : BackTimedRun}
    (h : AnyRun BackTimedRun.next (.start cmd pvs begin) steps run) :
    Always BackTimedRun.next (.start cmd pvs begin) steps
        (fun run => Throughout (NamesSilent pvs) run.history) ↔
      Run BackTimedRun.next (BackTimedRun.NoneFellSilent pvs) (.start cmd pvs begin) steps run := by
  apply Run.always_iff (I := SilentSoFar cmd pvs) (SilentSoFar.start cmd pvs begin) _ _ h
  · exact fun run hkept => hkept.1
  · exact fun hkept hnext => hkept.step hnext

/-- A snapshot of one PV with a window of one second. -/
private def windowed (triggered : Bool) : RepeatingSnapshotCommand where
  replyTopic := "replies"
  replyId := "1"
  snapshotName := "orbit"
  pvNameList := ["pva://orbit:x"]
  timeWindowMsec := 1000
  triggered
  type := .timedBuffered

/-- An event of the PV in the first window, none in the second. -/
private def eventThenSilence : List BackTimedStep :=
  [.addData ⟨.data, "", ⟨"orbit:x", none⟩⟩ 500000000, .trigger, .checkerRound 1000000001,
    .trigger, .checkerRound 2000000002]

theorem BackTimedRun.namesSilent_iff_timed :
    Always BackTimedRun.next (.start (windowed false) ["orbit:x"] 0) eventThenSilence
      (fun run => Throughout (NamesSilent ["orbit:x"]) run.history) := by
  obtain ⟨run, hrun, -⟩ := exists_run BackTimedRun.next (BackTimedRun.NoneFellSilent ["orbit:x"])
    (.start (windowed false) ["orbit:x"] 0) eventThenSilence (fun _ => true) (by decide +kernel)
  exact (BackTimedRun.namesSilent_iff (windowed false) ["orbit:x"] 0 hrun.any).2 hrun

/-- The last of two rounds closed its window without naming a PV. -/
private def namesNone (run : BackTimedRun) : Bool :=
  match run.history with
  | [.arrival _, .swap _ (.ok first) _, .swap _ (.ok second) []] =>
    first.submissionType.tail && second.submissionType.tail
  | _ => false

/-- In triggered mode the PV is not named in the second window. -/
theorem BackTimedRun.not_namesSilent_triggered :
    ¬ ∀ (cmd : RepeatingSnapshotCommand) (pvs : List String) (begin : Int)
      (steps : List BackTimedStep) (run : BackTimedRun),
      AnyRun BackTimedRun.next (.start cmd pvs begin) steps run →
        Throughout (NamesSilent pvs) run.history := by
  intro hall
  obtain ⟨run, hrun, hcheck⟩ := exists_run BackTimedRun.next (fun _ _ => True)
    (.start (windowed true) ["orbit:x"] 0) eventThenSilence namesNone (by decide +kernel)
  have hnamed := hall (windowed true) ["orbit:x"] 0 eventThenSilence run hrun
  rw [namesNone] at hcheck
  split at hcheck
  · rename_i arrival now first firstPvs later second hhistory
    obtain ⟨hfirst, hsecond⟩ := Bool.and_eq_true_iff.1 hcheck
    have hlast := hnamed [.arrival arrival, .swap now (.ok first) firstPvs] _ [] hhistory hsecond
    have hsilent : isSilent (sinceClosing
        [.arrival arrival, .swap now (.ok first) firstPvs]) "orbit:x" = true := by
      simp [sinceClosing, BackTimedRecord.closing, hfirst]
    exact absurd ((hlast.2 "orbit:x").2 ⟨by simp, hsilent⟩) (by simp)
  · cases hcheck

end K2eg
