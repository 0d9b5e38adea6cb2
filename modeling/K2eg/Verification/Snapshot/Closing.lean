import K2eg.Model.SnapshotPipeline
import K2eg.Verification.Snapshot.Lossless

/-! # The rounds that close a window

A round closes the window of an operation where the operation is stopped or triggered or, in timed
mode, where the time of the window is over. Just these rounds submit a Tail. A round of a buffered
operation is a visit of the pipeline. -/

namespace K2eg

namespace SnapshotOpInfo

/-- A round at this time closes the window. -/
def closes (op : SnapshotOpInfo) (now : Int) : Bool :=
  !op.isRunning ||
    if op.cmd.triggered then op.requestToTrigger
    else decide (now - op.begin > op.cmd.timeWindowMsec * nanosecondsPerMsec)

theorem baseTimeout_closes (op : SnapshotOpInfo) (now : Int) :
    (op.baseTimeout now).1 = op.closes now :=
  (BackTimedBufferedSnapshotOpInfo.baseTimeout_spec op now).1

theorem isRunning_baseTimeout (op : SnapshotOpInfo) (now : Int) :
    (op.baseTimeout now).2.isRunning = op.isRunning := by
  rw [baseTimeout, windowTimeout]
  split_ifs <;> rfl

/-- A stopped operation closes its window. -/
theorem closes_of_stopped {op : SnapshotOpInfo} (h : op.isRunning = false) (now : Int) :
    op.closes now = true := by
  simp [closes, h]

/-- A submission has a Tail where its round closes the window. -/
theorem tail_of_isTimeout {V : Type*} (op : SnapshotOpInfo) (now : Int)
    (events : List (MonitorEvent V)) (hdue : (op.isTimeout now).1 = true) :
    ((op.isTimeout now).2.getData events).1.submissionType.tail = op.closes now := by
  have hclosed := op.baseTimeout_closes now
  have hrunning := op.isRunning_baseTimeout now
  have hcmd := (BackTimedBufferedSnapshotOpInfo.baseTimeout_spec op now).2.1
  cases htype : op.cmd.type with
  | unknown | normal =>
      have htimeout : op.isTimeout now = op.baseTimeout now := by simp only [isTimeout, htype]
      rw [htimeout] at hdue ⊢
      rw [← hclosed, hdue]
      simp only [getData, hcmd, htype]
  | timedBuffered =>
      have hwindow : (op.isTimeout now).2.winTimeExpired = op.closes now ∧
          (op.isTimeout now).2.isRunning = op.isRunning ∧ (op.isTimeout now).2.cmd = op.cmd := by
        simp only [isTimeout, htype]
        split_ifs <;> exact ⟨hclosed, hrunning, hcmd⟩
      obtain ⟨hexpired, hsame, hkept⟩ := hwindow
      simp only [getData, hkept, htype, hexpired, hsame]
      cases hrun : op.isRunning with
      | true => simp
      | false => simp [closes_of_stopped hrun]

end SnapshotOpInfo

namespace BackTimedBufferedSnapshotOpInfo

variable (op : BackTimedBufferedSnapshotOpInfo) (now : Int)

theorem due_of_closes (h : op.closes now = true) : op.due now = true := by
  simp only [SnapshotOpInfo.closes, due, Bool.or_eq_true] at h ⊢
  rcases h with hstopped | hwindow
  · exact .inl hstopped
  · right
    split at hwindow
    case isTrue htriggered => rwa [if_pos htriggered]
    case isFalse htimed =>
      rw [if_neg htimed]
      exact Bool.or_eq_true_iff.2 (.inl hwindow)

/-- What a round does to the sets of silent PVs, and what it remembers for `getData`. -/
theorem isTimeout_pvs :
    (op.isTimeout now).2.winTimeExpired = op.closes now ∧
      (op.isTimeout now).2.isRunning = op.isRunning ∧
      (op.isTimeout now).2.allPvs = op.allPvs ∧
      (op.isTimeout now).2.pvsNoEvents =
        (if !op.cmd.triggered && op.closes now then op.allPvs else op.pvsNoEvents) ∧
      (op.isTimeout now).2.pendingPvsWithoutEvents =
        (if !op.cmd.triggered && op.due now then
          if op.closes now then op.pvsNoEvents else []
        else op.pendingPvsWithoutEvents) ∧
      (op.isTimeout now).2.pendingPvsWithoutEventsReady =
        if !op.cmd.triggered && op.due now then op.closes now
        else op.pendingPvsWithoutEventsReady := by
  have hclosed := op.toSnapshotOpInfo.baseTimeout_closes now
  have hrunning := op.toSnapshotOpInfo.isRunning_baseTimeout now
  have hdue := (op.isTimeout_spec now).1
  obtain ⟨-, hcmd, -⟩ := baseTimeout_spec op.toSnapshotOpInfo now
  rw [isTimeout] at hdue ⊢
  generalize op.toSnapshotOpInfo.baseTimeout now = base at hclosed hrunning hcmd hdue
  obtain ⟨expired, info⟩ := base
  simp only at hclosed hrunning hcmd
  subst hclosed
  simp only [hcmd] at hdue ⊢
  cases htriggered : op.cmd.triggered with
  | true =>
      simp only [if_true]
      split <;> simp_all [swapBuffers]
  | false =>
      simp only [htriggered, Bool.false_eq_true, if_false] at hdue ⊢
      split at hdue
      case isTrue hround =>
        rw [if_pos hround]
        cases hcloses : op.closes now with
        | true => simp_all [swapBuffers, collectSilentPvs, onWindowTimeout]
        | false => simp_all [swapBuffers, collectSilentPvs]
      case isFalse hround =>
        rw [if_neg hround]
        have hopen : op.closes now = false := by
          simpa using (Bool.or_eq_false_iff.1 (Bool.eq_false_of_not_eq_true hround)).1
        simp_all

/-- `getData` leaves the sets of silent PVs alone; its submission has a Tail where the window is
closed. -/
theorem getData_pvs :
    op.getData.2.cmd = op.cmd ∧ op.getData.2.allPvs = op.allPvs ∧
      op.getData.2.pvsNoEvents = op.pvsNoEvents ∧
      op.getData.2.pendingPvsWithoutEvents = op.pendingPvsWithoutEvents ∧
      op.getData.2.pendingPvsWithoutEventsReady = op.pendingPvsWithoutEventsReady ∧
      ∀ submission, op.getData.1 = .ok submission →
        submission.submissionType.tail = (op.winTimeExpired || !op.isRunning) := by
  rw [getData]
  cases op.fetchEvents with
  | error failure => exact ⟨rfl, rfl, rfl, rfl, rfl, by simp⟩
  | ok events =>
      refine ⟨rfl, rfl, rfl, rfl, rfl, fun submission hsubmission => ?_⟩
      obtain rfl := Except.ok.inj hsubmission
      rfl

/-- The PVs that a round names are those of the set as the round finds it. In timed mode the set is
filled again where the window closes. -/
theorem getPVsWithoutEvents_of_round (hready : op.pendingPvsWithoutEventsReady = false)
    (hdue : op.due now = true) :
    let named := (op.isTimeout now).2.getData.2.getPVsWithoutEvents
    named.1 = op.pvsNoEvents ∧ named.2.cmd = op.cmd ∧ named.2.allPvs = op.allPvs ∧
      named.2.pendingPvsWithoutEventsReady = false ∧
      named.2.pvsNoEvents =
        if !op.cmd.triggered && op.closes now then op.allPvs else op.pvsNoEvents := by
  obtain ⟨-, hcmd, -⟩ := op.isTimeout_spec now
  obtain ⟨-, -, hall, hnone, hpending, hready'⟩ := op.isTimeout_pvs now
  obtain ⟨hcmd', hall', hnone', hpending', hready'', -⟩ := (op.isTimeout now).2.getData_pvs
  rw [hcmd] at hcmd'
  rw [hall] at hall'
  rw [hnone] at hnone'
  rw [hpending, hdue, Bool.and_true] at hpending'
  rw [hready', hdue, Bool.and_true, hready] at hready''
  simp only [getPVsWithoutEvents]
  cases htriggered : op.cmd.triggered with
  | true =>
      simp only [htriggered, Bool.not_true, Bool.false_eq_true, if_false, Bool.false_and]
        at hnone' hready'' ⊢
      rw [if_neg (by simp [hready''])]
      exact ⟨hnone', hcmd', hall', hready'', hnone'⟩
  | false =>
      simp only [htriggered, Bool.not_false, if_true, Bool.true_and] at hnone' hpending' hready'' ⊢
      cases hcloses : op.closes now with
      | true =>
          rw [hcloses, if_pos rfl] at hnone' hpending'
          rw [if_pos (hready''.trans hcloses)]
          exact ⟨hpending', hcmd', hall', rfl, hnone'⟩
      | false =>
          rw [hcloses, if_neg Bool.false_ne_true] at hnone'
          rw [if_neg (by simp [hready'', hcloses])]
          exact ⟨hnone', hcmd', hall', hready''.trans hcloses, hnone'⟩

end BackTimedBufferedSnapshotOpInfo

/-! ## The visits of the pipeline -/

/-- The submission that the checker has taken from an operation. -/
def CheckerPhase.submission? {V : Type*} : CheckerPhase V → Option (SnapshotSubmission V)
  | .removing _ _ _ submission _ | .scheduling _ _ _ submission _
  | .acquiring _ _ _ submission _ => some submission
  | .sleeping | .scanning _ _ => none

namespace BackTimedRun

/-- A round of a buffered snapshot is a visit of the checker with the events that the buffer
yields: it leaves the operation as the visit does, and `getData` returns the submission that the
visit takes. -/
theorem visit_of_checkerRound {run : BackTimedRun} {p : SnapshotPipeline PVStructure} {o : ℕ}
    (hop : p.ops o = run.op.toSnapshotOpInfo) (htype : run.op.cmd.type = .timedBuffered)
    (now : Int) (todo : List String) {events : List (MonitorEvent PVStructure)}
    (hevents : (run.op.isTimeout now).2.fetchEvents = .ok events) :
    (p.visit now todo o events).ops o = (run.checkerRound now).op.toSnapshotOpInfo ∧
      swaps (run.checkerRound now).history = swaps run.history ++
        ((p.visit now todo o events).checker.submission?.map .ok).toList := by
  have htimeout := run.op.isTimeout_toSnapshotOpInfo now htype
  have hdue : (run.op.isTimeout now).1 = (run.op.toSnapshotOpInfo.isTimeout now).1 :=
    congrArg Prod.fst htimeout
  have hinfo : (run.op.isTimeout now).2.toSnapshotOpInfo =
      (run.op.toSnapshotOpInfo.isTimeout now).2 := congrArg Prod.snd htimeout
  have hcmd : (run.op.isTimeout now).2.cmd = run.op.cmd := (run.op.isTimeout_spec now).2.1
  obtain ⟨hsubmission, hafter⟩ := (run.op.isTimeout now).2.getData_toSnapshotOpInfo
    (hcmd ▸ htype) hevents
  rw [hinfo] at hsubmission hafter
  rw [SnapshotPipeline.visit, checkerRound, hop]
  dsimp only
  rw [← hdue, ← hinfo]
  rw [← hinfo] at hsubmission hafter
  cases hround : (run.op.isTimeout now).1 with
  | false =>
      simp [SnapshotPipeline.setChecker, SnapshotPipeline.setOp, CheckerPhase.submission?]
  | true =>
      generalize (run.op.isTimeout now).2.getData = taken at hsubmission hafter
      obtain ⟨result, op⟩ := taken
      obtain rfl := hsubmission
      rw [if_pos rfl, if_pos rfl]
      constructor
      · simp only [SnapshotPipeline.setChecker, SnapshotPipeline.setOp, Function.update_self,
          ← hafter, BackTimedBufferedSnapshotOpInfo.getPVsWithoutEvents]
        split <;> rfl
      · rw [swaps_swap]
        split <;> rfl

end BackTimedRun

end K2eg
