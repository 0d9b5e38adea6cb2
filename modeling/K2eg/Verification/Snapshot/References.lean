import K2eg.Verification.Snapshot.Registry
import Mathlib.Algebra.BigOperators.Intervals
import Mathlib.Algebra.Order.BigOperators.Group.Finset

/-! # Links and references

The links of `pv_snapshot_map_` and the references to the channels follow the URIs of the
operations in `snapshot_running_`, but for those that a start has still to activate and those that
the checker has already taken out. -/

namespace K2eg

variable {V : Type*}

open Interleaving

namespace SnapshotPipeline

variable {p p' : SnapshotPipeline V} {o : ℕ}

instance (p : SnapshotPipeline V) (o : ℕ) : Decidable (Running p o) := by
  unfold Running
  infer_instance

/-- The URIs of an operation in `snapshot_running_`. -/
def listed (p : SnapshotPipeline V) (o : ℕ) : List String :=
  if Running p o then (p.ops o).cmd.pvNameList else []

/-- The URIs of an operation that the checker has not taken out. -/
def remaining (p : SnapshotPipeline V) (o : ℕ) : List String :=
  match p.checker with
  | .removing _ _ removed _ uris => if removed = o then uris else p.listed o
  | _ => p.listed o

/-- The checker takes out stopped operations only. -/
def Stopping (p : SnapshotPipeline V) : Prop :=
  ∀ now todo o submission uris, p.checker = .removing now todo o submission uris →
    (p.ops o).isRunning = false

def CheckerRemoves : CheckerPhase V → Prop
  | .removing .. => True
  | _ => False

/-- The running operations, their commands and their queues stay. -/
structure Frame (p p' : SnapshotPipeline V) : Prop where
  opCount : p'.opCount = p.opCount
  running : p'.snapshotRunning = p.snapshotRunning
  cmd : ∀ o, (p'.ops o).cmd = (p.ops o).cmd
  queueName : ∀ o, (p'.ops o).queueName = (p.ops o).queueName

theorem Frame.refl (p : SnapshotPipeline V) : Frame p p := ⟨rfl, rfl, fun _ => rfl, fun _ => rfl⟩

theorem Frame.listed (h : Frame p p') (o : ℕ) : p'.listed o = p.listed o := by
  simp only [SnapshotPipeline.listed, Running, h.running, h.cmd, h.queueName]

theorem remaining_of_idle (h : ¬CheckerRemoves p.checker) (o : ℕ) :
    p.remaining o = p.listed o := by
  rw [remaining]
  split
  · rename_i hchecker
    rw [hchecker] at h
    exact absurd trivial h
  · rfl

theorem Frame.remaining (h : Frame p p')
    (hchecker : p'.checker = p.checker ∨
      ¬CheckerRemoves p.checker ∧ ¬CheckerRemoves p'.checker) (o : ℕ) :
    p'.remaining o = p.remaining o := by
  rcases hchecker with hsame | ⟨hidle, hidle'⟩
  · simp only [SnapshotPipeline.remaining, hsame, h.listed]
  · rw [remaining_of_idle hidle, remaining_of_idle hidle', h.listed]

theorem setChecker_frame (p : SnapshotPipeline V) (checker : CheckerPhase V) :
    Frame p (p.setChecker checker) := ⟨rfl, rfl, fun _ => rfl, fun _ => rfl⟩

/-- One operation changes, but for its command and its queue. -/
theorem frame_of_update {op : SnapshotOpInfo} (hops : p'.ops = Function.update p.ops o op)
    (hcount : p'.opCount = p.opCount) (hrunning : p'.snapshotRunning = p.snapshotRunning)
    (hcmd : op.cmd = (p.ops o).cmd) (hqueue : op.queueName = (p.ops o).queueName) : Frame p p' := by
  refine ⟨hcount, hrunning, fun other => ?_, fun other => ?_⟩
  · rw [hops]
    exact (SnapshotOpInfo.names_update hcmd hqueue other).1
  · rw [hops]
    exact (SnapshotOpInfo.names_update hcmd hqueue other).2

theorem submit_frame (p : SnapshotPipeline V) (now : Int) (todo : List String) (o : ℕ)
    (submission : SnapshotSubmission V) (last : Bool) (k : ℕ) :
    Frame p (p.submit now todo o submission last k) := by
  obtain ⟨gates, hops⟩ := p.submit_ops now todo o k submission last
  exact frame_of_update hops rfl rfl rfl rfl

theorem reserveAndSubmit_frame (p : SnapshotPipeline V) (now : Int) (todo : List String) (o : ℕ)
    (submission : SnapshotSubmission V) (last : Bool) :
    Frame p (p.reserveAndSubmit now todo o submission last) := by
  have hsubmit := submit_frame { p with
    iterationSync := Function.update p.iterationSync (p.nameOf o)
      (p.iterationSync (p.nameOf o)).reserve.2 } now todo o submission last
        (p.iterationSync (p.nameOf o)).reserve.1
  exact ⟨hsubmit.opCount, hsubmit.running, hsubmit.cmd, hsubmit.queueName⟩

theorem schedule_frame (p : SnapshotPipeline V) (now : Int) (todo : List String) (o : ℕ)
    (submission : SnapshotSubmission V) (last : Bool) :
    Frame p (p.schedule now todo o submission last) ∧
      ¬CheckerRemoves (p.schedule now todo o submission last).checker := by
  rw [schedule]
  dsimp only
  split
  · split
    · exact ⟨⟨rfl, rfl, fun _ => rfl, fun _ => rfl⟩, id⟩
    · have hreserve := reserveAndSubmit_frame { p with
        iterationSync := Function.update p.iterationSync (p.nameOf o)
          (p.iterationSync (p.nameOf o)).ensureCv } now todo o submission last
      exact ⟨⟨hreserve.opCount, hreserve.running, hreserve.cmd, hreserve.queueName⟩, id⟩
  · exact ⟨submit_frame p now todo o submission last _, id⟩

theorem dequeue_frame {threads : ℕ} (h : p.dequeue threads = some p') :
    Frame p p' ∧ p'.checker = p.checker := by
  obtain ⟨o, i, task, pool, -, -, rfl⟩ := dequeue_eq_some h
  exact ⟨⟨rfl, rfl, fun _ => rfl, fun _ => rfl⟩, rfl⟩

theorem stepTask_frame {i : ℕ} (h : p.stepTask o i = some p') :
    Frame p p' ∧ p'.checker = p.checker := by
  obtain ⟨task, out, -, hout, rfl⟩ := stepTask_eq_some h
  obtain ⟨gates, removalSet, hop⟩ := SubmissionTask.step_op hout
  refine ⟨frame_of_update rfl rfl rfl ?_ ?_, rfl⟩
  · rw [hop]
  · rw [hop]

theorem visit_frame (h : Registry p) (now : Int) (todo : List String) {queueName : String}
    (hfound : p.findRunning queueName = some o) (hidle : ¬CheckerRemoves p.checker)
    (events : List (MonitorEvent V)) :
    Frame p (p.visit now todo o events) ∧
      ∀ other, (p.visit now todo o events).remaining other = p.remaining other := by
  have hconsistent := h.consistent o (h.registered_of_found hfound)
  have hsame := ((p.ops o).isTimeout_same now).1
  have htaken := SnapshotOpInfo.taken_same now events hconsistent
  rw [visit]
  dsimp only
  split
  · have hframe : Frame p (p.setOp o (((p.ops o).isTimeout now).2.getData events).2) :=
      frame_of_update rfl rfl rfl htaken.cmd htaken.queueName
    refine ⟨⟨hframe.opCount, hframe.running, hframe.cmd, hframe.queueName⟩, fun other => ?_⟩
    rw [remaining_of_idle hidle, ← hframe.listed other]
    split
    · exact remaining_of_idle id other
    · -- the URIs of the operation, none of which has been taken out
      simp only [remaining, setChecker]
      split
      · rename_i heq
        subst heq
        have hrunning : Running (p.setOp o (((p.ops o).isTimeout now).2.getData events).2) o := by
          rw [Running, hframe.queueName, hframe.running]
          exact (h.running_of_found hfound).1
        rw [listed, if_pos hrunning, hframe.cmd, htaken.cmd]
      · rfl
  · have hframe : Frame p (p.setOp o ((p.ops o).isTimeout now).2) :=
      frame_of_update rfl rfl rfl hsame.cmd hsame.queueName
    refine ⟨⟨hframe.opCount, hframe.running, hframe.cmd, hframe.queueName⟩, fun other => ?_⟩
    rw [remaining_of_idle hidle, ← hframe.listed other]
    exact remaining_of_idle id other

/-! ## Operations that come and go -/

/-- The other operations stay where they are. -/
theorem register_running_of_ne (cmd : RepeatingSnapshotCommand) (created : Int) {other : ℕ}
    (hother : other ≠ p.opCount) :
    Running (p.register (.ofCommand cmd created)) other ↔ Running p other := by
  have hops : (p.register (.ofCommand cmd created)).ops other = p.ops other := by
    rw [register_ops, Function.update_of_ne hother]
  rw [Running, Running, hops, register]
  dsimp only
  split
  · exact .rfl
  · rw [List.mem_append, List.mem_singleton]
    constructor
    · rintro (hmem | hnew)
      · exact hmem
      · exact absurd (congrArg Prod.snd hnew) hother
    · exact .inl

theorem register_listed_of_ne (cmd : RepeatingSnapshotCommand) (created : Int) {other : ℕ}
    (hother : other ≠ p.opCount) :
    (p.register (.ofCommand cmd created)).listed other = p.listed other := by
  have hops : (p.register (.ofCommand cmd created)).ops other = p.ops other := by
    rw [register_ops, Function.update_of_ne hother]
  rw [listed, listed, hops, if_congr (register_running_of_ne cmd created hother) rfl rfl]

/-- A new operation is listed where its queue is free. -/
theorem register_listed (cmd : RepeatingSnapshotCommand) (created : Int)
    (hfree : p.findRunning (getQueueFromSnapshotName cmd.snapshotName) = none) (other : ℕ) :
    (p.register (.ofCommand cmd created)).listed other =
      if other = p.opCount then cmd.pvNameList else p.listed other := by
  have hself : (p.register (.ofCommand cmd created)).ops p.opCount = .ofCommand cmd created := by
    rw [register_ops, Function.update_self]
  by_cases hother : other = p.opCount
  · subst hother
    have hlisted : Running (p.register (.ofCommand cmd created)) p.opCount := by
      have hqueue : (SnapshotOpInfo.ofCommand cmd created).queueName =
          getQueueFromSnapshotName cmd.snapshotName := rfl
      rw [Running, hself, register, hqueue]
      simp [hfree]
    rw [if_pos rfl, listed, if_pos hlisted, hself]
    rfl
  · rw [if_neg hother, register_listed_of_ne cmd created hother]

/-- The last URI of an operation has been taken out. -/
theorem leave_remaining {now : Int} {todo : List String} {submission : SnapshotSubmission V}
    (hremoving : p.checker = .removing now todo o submission []) (other : ℕ) :
    ((p.eraseRunning o).setChecker (.scheduling now todo o submission true)).remaining other =
      p.remaining other := by
  have hiff : Running (p.eraseRunning o) other ↔ Running p other ∧ other ≠ o := by
    simp [Running, eraseRunning]
  rw [remaining_of_idle id]
  simp only [remaining, hremoving]
  by_cases hother : o = other
  · subst hother
    rw [if_pos rfl]
    have hnot : ¬Running (p.eraseRunning o) o := fun hrunning => (hiff.1 hrunning).2 rfl
    exact if_neg hnot
  · rw [if_neg hother]
    have hsame : Running (p.eraseRunning o) other ↔ Running p other := by
      rw [hiff]
      exact and_iff_left (Ne.symm hother)
    exact if_congr hsame rfl rfl

/-! ## Stopped operations -/

variable {threads : ℕ} {registers : SnapshotPipeline V → RepeatingSnapshotCommand → Prop}
  {schedules : SnapshotPipeline V → Prop}

theorem stopping_of_idle (h : ¬CheckerRemoves p.checker) : Stopping p := by
  intro now todo o submission uris hchecker
  rw [hchecker] at h
  exact absurd trivial h

theorem Stopping.moves (h : Stopping p) (hmoves : Moves threads registers schedules p p') :
    Stopping p' := by
  cases hmoves with
  | trigger sleeping | stop sleeping | register sleeping allowed =>
      apply stopping_of_idle
      change ¬CheckerRemoves p.checker
      rw [sleeping]
      exact id
  | scan sleeping | submit | await | acquire | sleep => exact stopping_of_idle id
  | leave removing => exact stopping_of_idle id
  | @visit now queueName todo o events scanning found =>
      intro now todo other submission uris hchecker
      rw [visit] at hchecker ⊢
      dsimp only at hchecker ⊢
      split at hchecker
      · rename_i hdue
        simp only [setChecker] at hchecker
        split at hchecker
        · cases hchecker
        · rename_i hstopped
          cases hchecker
          rw [if_pos hdue]
          change (Function.update p.ops o _ o).isRunning = false
          rw [Function.update_self]
          simpa using hstopped
      · cases hchecker
  | @remove now todo o submission uri uris removing =>
      intro now todo other submission uris hchecker
      cases hchecker
      exact h _ _ _ _ _ removing
  | dequeue dequeues =>
      obtain ⟨o, i, task, pool, -, -, rfl⟩ := dequeue_eq_some dequeues
      exact h
  | @task o _ _ steps =>
      obtain ⟨task, out, -, hout, rfl⟩ := stepTask_eq_some steps
      obtain ⟨gates, removalSet, hop⟩ := SubmissionTask.step_op hout
      intro now todo other submission uris hchecker
      have hrunning := h _ _ _ _ _ hchecker
      change (Function.update p.ops o out.op other).isRunning = false
      by_cases hother : other = o
      · subst hother
        rw [Function.update_self, hop]
        exact hrunning
      · rwa [Function.update_of_ne hother]

end SnapshotPipeline

namespace ContinuousSnapshotManager

open SnapshotPipeline

variable {threads : ℕ} {m t : ContinuousSnapshotManager V} {command o : ℕ}

/-- The URIs whose monitors the start of an operation has still to enable. -/
def pending (m : ContinuousSnapshotManager V) (o : ℕ) : List String :=
  match m.commands (m.startedBy o) with
  | .startActivating started uris => if started = o then uris else []
  | _ => []

/-- A start that enables monitors has registered its operation. -/
def Starts (m : ContinuousSnapshotManager V) : Prop :=
  ∀ command o uris, m.commands command = .startActivating o uris →
    m.startedBy o = command ∧ o < m.opCount

/-- The links and the references are those of the URIs that have not been taken out, and no URI is
taken out whose monitor is still to be enabled. -/
structure Ledger (m : ContinuousSnapshotManager V) : Prop where
  ahead : ∀ o, m.pending o <:+ m.remaining o
  links : ∀ pvName o,
    m.pvSnapshotMap.count (pvName, o) = (sanitizedNames (m.remaining o)).count pvName
  refs : ∀ pvName, m.channelRefs pvName +
      ∑ o ∈ Finset.range m.opCount, (sanitizedNames (m.pending o)).count pvName =
    ∑ o ∈ Finset.range m.opCount, (sanitizedNames (m.remaining o)).count pvName

/-- What a step does to the books: nothing, or it registers an operation, enables a monitor or
takes a URI out. -/
inductive Booked (m : ContinuousSnapshotManager V) :
    SnapshotStep V → ContinuousSnapshotManager V → Prop where
  | same {label t}
      (starts : ∀ command o uris, t.commands command = .startActivating o uris →
        m.commands command = .startActivating o uris)
      (pending : ∀ o, t.pending o = m.pending o) (startedBy : t.startedBy = m.startedBy)
      (links : t.pvSnapshotMap = m.pvSnapshotMap) (refs : t.channelRefs = m.channelRefs)
      (count : t.opCount = m.opCount) (remaining : ∀ o, t.remaining o = m.remaining o) :
      Booked m label t
  | register {command cmd created} (described : m.commands command = .startDescribed cmd created)
      (sleeping : m.checker = .sleeping) :
      Booked m (.startRegister command) (m.startRegister command cmd created)
  | activate {command o uri uris}
      (activating : m.commands command = .startActivating o (uri :: uris)) :
      Booked m (.startActivate command)
        ((m.monitorChannel uri true).setCommand command (.startActivating o uris))
  | remove {now todo o submission uri uris}
      (removing : m.checker = .removing now todo o submission (uri :: uris)) :
      Booked m .checkerRemove ((m.removeUri o uri).setPipeline
        (m.setChecker (.removing now todo o submission uris)))

/-- A step of the pipeline. -/
theorem booked_pipeline {label : SnapshotStep V} {p : SnapshotPipeline V}
    (hcount : p.opCount = m.opCount) (hremaining : ∀ o, p.remaining o = m.remaining o) :
    Booked m label (m.setPipeline p) :=
  .same (fun _ _ _ hcommand => hcommand) (fun _ => rfl) rfl rfl rfl hcount hremaining

/-! ## Commands -/

/-- A command goes on, without enabling or having to enable a monitor. -/
structure CommandOnly (command : ℕ) (m t : ContinuousSnapshotManager V) : Prop where
  commands : ∃ phase, t.commands = Function.update m.commands command phase ∧
    ∀ o uris, phase ≠ .startActivating o uris
  replies : ∃ added, t.replies = m.replies ++ added ∧ ∀ entry ∈ added, entry.1 = command
  startedBy : t.startedBy = m.startedBy
  links : t.pvSnapshotMap = m.pvSnapshotMap
  refs : t.channelRefs = m.channelRefs
  frame : Frame m.toSnapshotPipeline t.toSnapshotPipeline
  checker : t.checker = m.checker

theorem CommandOnly.booked {label : SnapshotStep V} (honly : CommandOnly command m t)
    (hidle : ∀ o uri uris, m.commands command ≠ .startActivating o (uri :: uris)) :
    Booked m label t := by
  obtain ⟨phase, hcommands, hphase⟩ := honly.commands
  refine .same ?_ ?_ honly.startedBy honly.links honly.refs honly.frame.opCount
    (honly.frame.remaining (.inl honly.checker))
  · intro other o uris hother
    rw [hcommands] at hother
    by_cases heq : other = command
    · subst heq
      rw [Function.update_self] at hother
      exact absurd hother (hphase o uris)
    · rwa [Function.update_of_ne heq] at hother
  · intro o
    rw [pending, pending, hcommands, honly.startedBy]
    by_cases heq : m.startedBy o = command
    · rw [heq, Function.update_self]
      have hnil : (match phase with
          | .startActivating started uris => if started = o then uris else []
          | _ => []) = [] := by
        cases phase with
        | startActivating o uris => exact absurd rfl (hphase o uris)
        | _ => rfl
      rw [hnil]
      cases hcommand : m.commands command with
      | startActivating started uris =>
          cases uris with
          | nil => simp
          | cons uri rest => exact absurd hcommand (hidle started uri rest)
      | _ => rfl
    · rw [Function.update_of_ne heq]

theorem setCommand_only (phase : CommandPhase)
    (hphase : ∀ o uris, phase ≠ .startActivating o uris) :
    CommandOnly command m (m.setCommand command phase) :=
  ⟨⟨phase, rfl, hphase⟩, ⟨[], (List.append_nil _).symm, nofun⟩, rfl, rfl, rfl, .refl _, rfl⟩

theorem replyAndEnd_only (reply : PublishMessage ContinuousSnapshotCommandReply)
    (started : Option ℕ) : CommandOnly command m (m.replyAndEnd command reply started) :=
  ⟨⟨.ended started, rfl, nofun⟩, ⟨[(command, reply)], rfl, by simp⟩, rfl, rfl, rfl, .refl _,
    rfl⟩

theorem startCheck_only (cmd : RepeatingSnapshotCommand) (created : Int) :
    CommandOnly command m (m.startCheck command cmd created) := by
  rw [startCheck]
  split_ifs
  · exact replyAndEnd_only _ _
  · exact replyAndEnd_only _ _
  · exact setCommand_only _ (by simp)

theorem startPrepare_only (cmd : RepeatingSnapshotCommand) (created : Int) :
    CommandOnly command m (m.startPrepare command cmd created) := by
  rw [startPrepare]
  split
  · exact replyAndEnd_only _ _
  · exact setCommand_only _ (by simp)

/-- A flag of an operation is set with the command. -/
theorem CommandOnly.setOp {op : SnapshotOpInfo}
    (h : CommandOnly command (m.setPipeline (m.setOp o op)) t) (hcmd : op.cmd = (m.ops o).cmd)
    (hqueue : op.queueName = (m.ops o).queueName) : CommandOnly command m t := by
  have hframe : Frame m.toSnapshotPipeline (m.setOp o op) :=
    frame_of_update rfl rfl rfl hcmd hqueue
  exact ⟨h.commands, h.replies, h.startedBy, h.links, h.refs,
    ⟨h.frame.opCount.trans hframe.opCount, h.frame.running.trans hframe.running,
      fun other => (h.frame.cmd other).trans (hframe.cmd other),
      fun other => (h.frame.queueName other).trans (hframe.queueName other)⟩, h.checker⟩

theorem stopMark_only (cmd : RepeatingSnapshotStopCommand) :
    CommandOnly command m (m.stopMark command cmd) := by
  rw [stopMark]
  split
  · exact replyAndEnd_only _ _
  · split
    · exact replyAndEnd_only _ _
    · dsimp only
      split
      · exact setCommand_only _ (by simp)
      · exact (setCommand_only (.stopWaiting cmd _) (by simp)).setOp rfl rfl

theorem triggerSnapshot_only (cmd : RepeatingSnapshotTriggerCommand) :
    CommandOnly command m (m.triggerSnapshot command cmd) := by
  rw [triggerSnapshot]
  split
  · exact replyAndEnd_only _ _
  · split
    · exact (replyAndEnd_only _ _).setOp rfl rfl
    · exact replyAndEnd_only _ _

theorem next_booked (hregistry : Registry m.toSnapshotPipeline) {label : SnapshotStep V}
    (hnext : next threads m label = some t) : Booked m label t := by
  cases transition_of_next hnext with
  | receiveStart absent | receiveStop absent | receiveTrigger absent =>
      exact CommandOnly.booked (setCommand_only _ (by simp)) (by simp [absent])
  | startCheck received => exact CommandOnly.booked (startCheck_only _ _) (by simp [received])
  | startPrepare checked => exact CommandOnly.booked (startPrepare_only _ _) (by simp [checked])
  | startCreateQueue hcommand returns | startGetQueueMetadata hcommand returns =>
      refine CommandOnly.booked (setCommand_only _ ?_) (by simp [hcommand])
      cases returns <;> simp
  | startRegister described sleeping => exact .register described sleeping
  | startActivate activating => exact .activate activating
  | startReply activated => exact CommandOnly.booked (replyAndEnd_only _ _) (by simp [activated])
  | stopMark received => exact CommandOnly.booked (stopMark_only _) (by simp [received])
  | stopReply waiting => exact CommandOnly.booked (replyAndEnd_only _ _) (by simp [waiting])
  | trigger received => exact CommandOnly.booked (triggerSnapshot_only _) (by simp [received])
  | checkerScan _ sleeping =>
      have hidle : ¬CheckerRemoves m.checker := by rw [sleeping]; exact id
      exact booked_pipeline rfl ((setChecker_frame _ _).remaining (.inr ⟨hidle, id⟩))
  | @checkerVisit now _ todo _ scanning found events =>
      have hidle : ¬CheckerRemoves m.checker := by rw [scanning]; exact id
      have hvisit := visit_frame hregistry now todo found hidle events
      exact booked_pipeline hvisit.1.opCount hvisit.2
  | removeUri removing => exact .remove removing
  | leave removing => exact booked_pipeline rfl (leave_remaining removing)
  | @checkerSchedule now todo o submission last scheduling =>
      have hidle : ¬CheckerRemoves m.checker := by rw [scheduling]; exact id
      have hschedule := schedule_frame m.toSnapshotPipeline now todo o submission last
      exact booked_pipeline hschedule.1.opCount
        (hschedule.1.remaining (.inr ⟨hidle, hschedule.2⟩))
  | @checkerAcquire now todo o submission last acquiring =>
      have hidle : ¬CheckerRemoves m.checker := by rw [acquiring]; exact id
      have hframe := reserveAndSubmit_frame m.toSnapshotPipeline now todo o submission last
      exact booked_pipeline hframe.opCount (hframe.remaining (.inr ⟨hidle, id⟩))
  | checkerSleep scanning =>
      have hidle : ¬CheckerRemoves m.checker := by rw [scanning]; exact id
      exact booked_pipeline rfl ((setChecker_frame _ _).remaining (.inr ⟨hidle, id⟩))
  | dequeue dequeues =>
      have hdequeue := dequeue_frame dequeues
      exact booked_pipeline hdequeue.1.opCount (hdequeue.1.remaining (.inl hdequeue.2))
  | task steps =>
      have htask := stepTask_frame steps
      exact booked_pipeline htask.1.opCount (htask.1.remaining (.inl htask.2))

/-! ## Registration, activation and removal -/

/-- No other operation is in the way of a registration, and no URI is taken out whose monitor is
still to be enabled. -/
def InTurn (m : ContinuousSnapshotManager V) : SnapshotStep V → Prop
  | .startRegister command =>
    match m.commands command with
    | .startDescribed cmd _ =>
      m.findRunning (getQueueFromSnapshotName cmd.snapshotName) = none
    | _ => True
  | .checkerRemove =>
    match m.checker with
    | .removing _ _ o _ (uri :: _) => uri ∉ m.pending o
    | _ => True
  | _ => True

instance (m : ContinuousSnapshotManager V) (label : SnapshotStep V) :
    Decidable (m.InTurn label) := by
  unfold InTurn
  split
  · split <;> infer_instance
  · split <;> infer_instance
  · infer_instance

theorem remaining_eq_nil (h : Registry m.toSnapshotPipeline) (hidle : ¬CheckerRemoves m.checker)
    (hge : m.opCount ≤ o) : m.remaining o = [] := by
  rw [remaining_of_idle hidle, listed, if_neg]
  intro hrunning
  exact absurd (h.entries _ hrunning).1 (not_lt.2 hge)

/-- A registration that nothing is in the way of adds the URIs of its operation. -/
theorem remaining_register {cmd : RepeatingSnapshotCommand} {created : Int}
    (hsleeping : m.checker = .sleeping)
    (hfree : m.findRunning (getQueueFromSnapshotName cmd.snapshotName) = none) (o : ℕ) :
    (m.startRegister command cmd created).remaining o =
      if o = m.opCount then cmd.pvNameList else m.remaining o := by
  have hidle : ¬CheckerRemoves m.checker := by
    rw [hsleeping]
    exact id
  have hidle' : ¬CheckerRemoves (m.startRegister command cmd created).checker := hidle
  rw [remaining_of_idle hidle, remaining_of_idle hidle']
  exact register_listed cmd created hfree o

/-- A registration adds the links of its operation. -/
theorem count_register (cmd : RepeatingSnapshotCommand) (created : Int)
    (pvName : String) (o : ℕ) :
    (m.startRegister command cmd created).pvSnapshotMap.count (pvName, o) =
      m.pvSnapshotMap.count (pvName, o) +
        if o = m.opCount then (sanitizedNames cmd.pvNameList).count pvName else 0 := by
  have hlinks : (m.startRegister command cmd created).pvSnapshotMap = m.pvSnapshotMap ++
      (sanitizedNames cmd.pvNameList).map fun pvName => (pvName, m.opCount) := rfl
  rw [hlinks, List.count_append]
  congr 1
  split
  · rename_i heq
    rw [heq]
    have hinjective : Function.Injective fun pvName : String => (pvName, m.opCount) :=
      fun _ _ heq => congrArg Prod.fst heq
    exact List.count_map_of_injective _ _ hinjective _
  · rename_i hne
    refine List.count_eq_zero.2 fun hmem => hne ?_
    obtain ⟨_, -, heq⟩ := List.mem_map.1 hmem
    exact (congrArg Prod.snd heq).symm

theorem Ledger.register (h : Ledger m) (hregistry : Registry m.toSnapshotPipeline)
    {cmd : RepeatingSnapshotCommand} {created : Int}
    (hcommand : m.commands command = .startDescribed cmd created)
    (hsleeping : m.checker = .sleeping)
    (hfree : m.findRunning (getQueueFromSnapshotName cmd.snapshotName) = none) :
    Ledger (m.startRegister command cmd created) := by
  have hidle : ¬CheckerRemoves m.checker := by
    rw [hsleeping]
    exact id
  have hremaining : ∀ o, (m.startRegister command cmd created).remaining o =
      if o = m.opCount then cmd.pvNameList else m.remaining o :=
    remaining_register hsleeping hfree
  have hpending : ∀ other, (m.startRegister command cmd created).pending other =
      if other = m.opCount then cmd.pvNameList else m.pending other := by
    intro other
    simp only [pending, startRegister]
    by_cases hother : other = m.opCount
    · subst hother
      simp
    · rw [Function.update_of_ne hother, if_neg hother]
      by_cases heq : m.startedBy other = command
      · rw [heq, Function.update_self, hcommand]
        exact if_neg (Ne.symm hother)
      · rw [Function.update_of_ne heq]
  have hnew {other : ℕ} (hmem : other ∈ Finset.range m.opCount) : other ≠ m.opCount :=
    (Finset.mem_range.1 hmem).ne
  constructor
  case ahead =>
    intro other
    rw [hpending, hremaining]
    split
    · exact List.suffix_refl _
    · exact h.ahead other
  case links =>
    intro pvName other
    rw [count_register, h.links, hremaining]
    split
    · rename_i heq
      rw [heq, remaining_eq_nil hregistry hidle le_rfl]
      simp [sanitizedNames]
    · rw [Nat.add_zero]
  case refs =>
    intro pvName
    have hrefs := h.refs pvName
    have hcount : (m.startRegister command cmd created).opCount = m.opCount + 1 := rfl
    have hsame : (m.startRegister command cmd created).channelRefs = m.channelRefs := rfl
    rw [hcount, hsame, Finset.sum_range_succ, Finset.sum_range_succ, hpending, hremaining,
      if_pos rfl, if_pos rfl]
    have hold : ∑ o ∈ Finset.range m.opCount, (sanitizedNames
        ((m.startRegister command cmd created).pending o)).count pvName =
          ∑ o ∈ Finset.range m.opCount, (sanitizedNames (m.pending o)).count pvName :=
      Finset.sum_congr rfl fun o hmem => by rw [hpending, if_neg (hnew hmem)]
    have hold' : ∑ o ∈ Finset.range m.opCount, (sanitizedNames
        ((m.startRegister command cmd created).remaining o)).count pvName =
          ∑ o ∈ Finset.range m.opCount, (sanitizedNames (m.remaining o)).count pvName :=
      Finset.sum_congr rfl fun o hmem => by rw [hremaining, if_neg (hnew hmem)]
    rw [hold, hold']
    omega

/-- The names of a list with one more URI. -/
theorem count_sanitizedNames_cons (pvName uri : String) (uris : List String) :
    (sanitizedNames (uri :: uris)).count pvName = (sanitizedNames uris).count pvName +
      if (sanitizePVName uri).map PV.name = some pvName then 1 else 0 := by
  cases huri : (sanitizePVName uri).map PV.name with
  | none => simp [sanitizedNames, huri]
  | some name => simp [sanitizedNames, huri, List.count_cons]

/-- The references after a call of `monitorChannel`. -/
theorem monitorChannel_refs (m : ContinuousSnapshotManager V) (uri pvName : String)
    (activate : Bool) :
    (m.monitorChannel uri activate).channelRefs pvName =
      if (sanitizePVName uri).map PV.name = some pvName then
        if activate then m.channelRefs pvName + 1 else m.channelRefs pvName - 1
      else m.channelRefs pvName := by
  rw [monitorChannel]
  cases sanitizePVName uri with
  | none => rfl
  | some pv =>
      by_cases hname : pv.name = pvName
      · subst hname
        simp
      · simp [hname, Function.update_of_ne (Ne.symm hname)]

/-- The references after a call of `monitorChannel` that takes one. -/
theorem monitorChannel_taken (m : ContinuousSnapshotManager V) (uri pvName : String) :
    (m.monitorChannel uri true).channelRefs pvName = m.channelRefs pvName +
      if (sanitizePVName uri).map PV.name = some pvName then 1 else 0 := by
  rw [monitorChannel_refs]
  by_cases hname : (sanitizePVName uri).map PV.name = some pvName
  · rw [if_pos hname, if_pos hname, if_pos rfl]
  · rw [if_neg hname, if_neg hname, Nat.add_zero]

/-- The references after a call of `monitorChannel` that gives one back. -/
theorem monitorChannel_given (m : ContinuousSnapshotManager V) (uri pvName : String) :
    (m.monitorChannel uri false).channelRefs pvName = m.channelRefs pvName -
      if (sanitizePVName uri).map PV.name = some pvName then 1 else 0 := by
  rw [monitorChannel_refs]
  by_cases hname : (sanitizePVName uri).map PV.name = some pvName
  · rw [if_pos hname, if_pos hname, if_neg Bool.false_ne_true]
  · rw [if_neg hname, if_neg hname, Nat.sub_zero]

/-- One term of a sum changes. -/
theorem sum_update {f g : ℕ → ℕ} {n : ℕ} (ho : o < n) {d : ℕ} (hself : g o = f o + d)
    (hother : ∀ other ≠ o, g other = f other) :
    ∑ i ∈ Finset.range n, g i = ∑ i ∈ Finset.range n, f i + d := by
  have hmem : o ∈ Finset.range n := Finset.mem_range.2 ho
  have hrest : ∑ i ∈ (Finset.range n).erase o, g i = ∑ i ∈ (Finset.range n).erase o, f i :=
    Finset.sum_congr rfl fun other hin => hother other (Finset.ne_of_mem_erase hin)
  rw [← Finset.add_sum_erase _ g hmem, ← Finset.add_sum_erase _ f hmem, hrest, hself]
  omega

/-- `monitorChannel` changes the references only. -/
theorem monitorChannel_same (m : ContinuousSnapshotManager V) (uri : String) (activate : Bool) :
    (m.monitorChannel uri activate).commands = m.commands ∧
      (m.monitorChannel uri activate).startedBy = m.startedBy ∧
        (m.monitorChannel uri activate).pvSnapshotMap = m.pvSnapshotMap ∧
          (m.monitorChannel uri activate).replies = m.replies := by
  rw [monitorChannel]
  split
  · exact ⟨rfl, rfl, rfl, rfl⟩
  · exact ⟨rfl, rfl, rfl, rfl⟩

theorem Ledger.activate (h : Ledger m) (hstarts : m.Starts) {uri : String} {uris : List String}
    (hcommand : m.commands command = .startActivating o (uri :: uris)) :
    Ledger ((m.monitorChannel uri true).setCommand command (.startActivating o uris)) := by
  obtain ⟨hby, hlt⟩ := hstarts command o _ hcommand
  obtain ⟨hcommands, hstartedBy, hlinks, -⟩ := m.monitorChannel_same uri true
  have hpipeline := m.monitorChannel_pipeline uri true
  have hself : m.pending o = uri :: uris := by
    rw [pending, hby, hcommand]
    exact if_pos rfl
  have hpending : ∀ other, ((m.monitorChannel uri true).setCommand command
      (.startActivating o uris)).pending other = if other = o then uris else m.pending other := by
    intro other
    simp only [pending, setCommand, hcommands, hstartedBy]
    by_cases hother : other = o
    · subst hother
      rw [hby, Function.update_self]
      simp
    · rw [if_neg hother]
      by_cases heq : m.startedBy other = command
      · rw [heq, Function.update_self, hcommand]
        simp [Ne.symm hother]
      · rw [Function.update_of_ne heq]
  have hremaining : ∀ other, ((m.monitorChannel uri true).setCommand command
      (.startActivating o uris)).remaining other = m.remaining other := by
    intro other
    rw [setCommand_pipeline, hpipeline]
  constructor
  case ahead =>
    intro other
    rw [hpending, hremaining]
    split
    · rename_i heq
      subst heq
      have hahead := h.ahead other
      rw [hself] at hahead
      exact (List.suffix_cons uri uris).trans hahead
    · exact h.ahead other
  case links =>
    intro pvName other
    rw [hremaining]
    exact (congrArg _ hlinks).trans (h.links pvName other)
  case refs =>
    intro pvName
    have hrefs := h.refs pvName
    have htaken := m.monitorChannel_taken uri pvName
    have hcount : (m.monitorChannel uri true).opCount = m.opCount := by rw [hpipeline]
    have hsum := sum_update (f := fun other => (sanitizedNames (((m.monitorChannel uri
        true).setCommand command (.startActivating o uris)).pending other)).count pvName)
      (g := fun other => (sanitizedNames (m.pending other)).count pvName) hlt
      (d := if (sanitizePVName uri).map PV.name = some pvName then 1 else 0)
      (by simp only [hpending, if_true, hself, count_sanitizedNames_cons])
      (fun other hother => by simp only [hpending, if_neg hother])
    simp only [hremaining]
    change (m.monitorChannel uri true).channelRefs pvName +
      ∑ other ∈ Finset.range (m.monitorChannel uri true).opCount, _ =
        ∑ other ∈ Finset.range (m.monitorChannel uri true).opCount, _
    rw [hcount, htaken]
    omega

theorem removeUri_same (m : ContinuousSnapshotManager V) (o : ℕ) (uri : String) :
    (m.removeUri o uri).commands = m.commands ∧ (m.removeUri o uri).startedBy = m.startedBy ∧
      (m.removeUri o uri).replies = m.replies ∧
        (m.removeUri o uri).pvSnapshotMap = match sanitizePVName uri with
          | none => m.pvSnapshotMap
          | some pv => m.pvSnapshotMap.erase (pv.name, o) := by
  rw [ContinuousSnapshotManager.removeUri]
  obtain ⟨hcommands, hstartedBy, hlinks, hreplies⟩ := monitorChannel_same { m with
    pvSnapshotMap := match sanitizePVName uri with
      | none => m.pvSnapshotMap
      | some pv => m.pvSnapshotMap.erase (pv.name, o) } uri false
  exact ⟨hcommands, hstartedBy, hreplies, hlinks⟩

/-- One URI fewer is left of the operation that is taken out. -/
theorem remaining_removing {now : Int} {todo : List String} {submission : SnapshotSubmission V}
    {uri : String} {uris : List String}
    (hchecker : m.checker = .removing now todo o submission (uri :: uris)) (other : ℕ) :
    (m.setChecker (.removing now todo o submission uris)).remaining other =
      if other = o then uris else m.remaining other := by
  by_cases hother : other = o
  · subst hother
    rw [if_pos rfl]
    exact if_pos rfl
  · rw [if_neg hother, remaining, remaining, hchecker]
    simp only [setChecker, if_neg (Ne.symm hother)]
    rfl

/-- The links of an operation follow its URIs when one is taken out. -/
theorem links_removeUri {now : Int} {todo : List String} {submission : SnapshotSubmission V}
    {uri : String} {uris : List String}
    (hchecker : m.checker = .removing now todo o submission (uri :: uris)) {other : ℕ}
    {pvName : String} (hlinks : m.pvSnapshotMap.count (pvName, other) =
      (sanitizedNames (m.remaining other)).count pvName) :
    (m.removeUri o uri).pvSnapshotMap.count (pvName, other) = (sanitizedNames
      ((m.setChecker (.removing now todo o submission uris)).remaining other)).count pvName := by
  have hself : m.remaining o = uri :: uris := by
    rw [remaining, hchecker]
    exact if_pos rfl
  have herased := (m.removeUri_same o uri).2.2.2
  rw [remaining_removing hchecker, herased]
  by_cases hother : other = o
  · subst hother
    rw [hself, count_sanitizedNames_cons] at hlinks
    rw [if_pos rfl]
    cases hpv : sanitizePVName uri with
    | none =>
        rw [hpv] at hlinks
        exact hlinks
    | some pv =>
        rw [hpv] at hlinks
        rw [List.count_erase, hlinks]
        by_cases hname : pv.name = pvName
        · simp [hname]
        · simp [hname]
  · rw [if_neg hother, ← hlinks]
    cases sanitizePVName uri with
    | none => rfl
    | some pv =>
        have hne : ((pv.name, o) == (pvName, other)) = false := by
          simp [Ne.symm hother]
        rw [List.count_erase, hne]
        rfl

theorem Ledger.removeUri (h : Ledger m) {now : Int} {todo : List String}
    {submission : SnapshotSubmission V} {uri : String} {uris : List String}
    (hchecker : m.checker = .removing now todo o submission (uri :: uris))
    (hlt : o < m.opCount) (hturn : uri ∉ m.pending o) :
    Ledger ((m.removeUri o uri).setPipeline
      (m.setChecker (.removing now todo o submission uris))) := by
  obtain ⟨hcommands, hstartedBy, -⟩ := m.removeUri_same o uri
  have hself : m.remaining o = uri :: uris := by
    rw [remaining, hchecker]
    exact if_pos rfl
  have hremaining := remaining_removing hchecker
  have hpending : ∀ other, ((m.removeUri o uri).setPipeline
      (m.setChecker (.removing now todo o submission uris))).pending other = m.pending other := by
    intro other
    simp only [pending, setPipeline, hcommands, hstartedBy]
  have hahead : ∀ other, m.pending other <:+
      (m.setChecker (.removing now todo o submission uris)).remaining other := by
    intro other
    rw [hremaining]
    split
    · rename_i heq
      subst heq
      have hbefore := h.ahead other
      rw [hself] at hbefore
      rcases List.suffix_cons_iff.1 hbefore with heq | hsuffix
      · rw [heq] at hturn
        exact absurd List.mem_cons_self hturn
      · exact hsuffix
    · exact h.ahead other
  constructor
  case ahead =>
    intro other
    rw [hpending]
    exact hahead other
  case links =>
    intro pvName other
    exact links_removeUri hchecker (h.links pvName other)
  case refs =>
    intro pvName
    have hrefs := h.refs pvName
    have hsum := sum_update (f := fun other => (sanitizedNames ((m.setChecker (.removing now todo
        o submission uris)).remaining other)).count pvName)
      (g := fun other => (sanitizedNames (m.remaining other)).count pvName) hlt
      (d := if (sanitizePVName uri).map PV.name = some pvName then 1 else 0)
      (by simp only [hremaining, if_true, hself, count_sanitizedNames_cons])
      (fun other hother => by simp only [hremaining, if_neg hother])
    -- the reference of the URI has been taken
    have hle : ∑ other ∈ Finset.range m.opCount, (sanitizedNames (m.pending other)).count pvName ≤
        ∑ other ∈ Finset.range m.opCount, (sanitizedNames ((m.setChecker (.removing now todo
          o submission uris)).remaining other)).count pvName := by
      apply Finset.sum_le_sum
      intro other _
      exact ((hahead other).sublist.filterMap _).count_le pvName
    have hgiven : (m.removeUri o uri).channelRefs pvName = m.channelRefs pvName -
        if (sanitizePVName uri).map PV.name = some pvName then 1 else 0 :=
      monitorChannel_given _ uri pvName
    simp only [hpending]
    change (m.removeUri o uri).channelRefs pvName +
        ∑ other ∈ Finset.range m.opCount, (sanitizedNames (m.pending other)).count pvName =
      ∑ other ∈ Finset.range m.opCount, (sanitizedNames ((m.setChecker (.removing now todo
        o submission uris)).remaining other)).count pvName
    rw [hgiven]
    omega

/-! ## Runs -/

theorem Ledger.next (h : Ledger m) (hstarts : m.Starts) (hregistry : Registry m.toSnapshotPipeline)
    {label : SnapshotStep V} (hturn : m.InTurn label) (hnext : next threads m label = some t) :
    Ledger t := by
  cases next_booked hregistry hnext with
  | same starts pending startedBy links refs count remaining =>
      constructor
      · intro o
        rw [pending, remaining]
        exact h.ahead o
      · intro pvName o
        rw [links, remaining]
        exact h.links pvName o
      · intro pvName
        simp only [refs, count, pending, remaining]
        exact h.refs pvName
  | register described sleeping =>
      rw [InTurn, described] at hturn
      exact h.register hregistry described sleeping hturn
  | activate activating => exact h.activate hstarts activating
  | remove removing =>
      have hheld := hregistry.held
      rw [removing] at hheld
      rw [InTurn, removing] at hturn
      exact h.removeUri removing hheld.1.registered hturn

theorem Starts.next (h : m.Starts) (hregistry : Registry m.toSnapshotPipeline)
    {label : SnapshotStep V} (hnext : next threads m label = some t) : t.Starts := by
  intro other started uris hother
  cases next_booked hregistry hnext with
  | same starts pending startedBy links refs count remaining =>
      rw [startedBy, count]
      exact h other started uris (starts other started uris hother)
  | @register command cmd created described sleeping =>
      simp only [startRegister] at hother ⊢
      by_cases heq : other = command
      · subst heq
        rw [Function.update_self] at hother
        obtain ⟨rfl, rfl⟩ := CommandPhase.startActivating.inj hother
        exact ⟨Function.update_self .., Nat.lt_succ_self _⟩
      · rw [Function.update_of_ne heq] at hother
        obtain ⟨hby, hlt⟩ := h other started uris hother
        exact ⟨(Function.update_of_ne hlt.ne ..).trans hby, hlt.trans (Nat.lt_succ_self _)⟩
  | @activate command o uri rest activating =>
      obtain ⟨hcommands, hstartedBy, -⟩ := m.monitorChannel_same uri true
      simp only [setCommand, hcommands, hstartedBy, m.monitorChannel_pipeline uri true]
        at hother ⊢
      by_cases heq : other = command
      · subst heq
        rw [Function.update_self] at hother
        obtain ⟨rfl, -⟩ := CommandPhase.startActivating.inj hother
        exact h other o _ activating
      · rw [Function.update_of_ne heq] at hother
        exact h other started uris hother
  | @remove now todo o submission uri rest removing =>
      obtain ⟨hcommands, hstartedBy, -⟩ := m.removeUri_same o uri
      simp only [setPipeline, hcommands, hstartedBy] at hother ⊢
      exact h other started uris hother

theorem Ledger.initial : Ledger ({} : ContinuousSnapshotManager V) where
  ahead := fun _ => List.nil_suffix
  links := fun _ _ => by simp [remaining, listed, Running, sanitizedNames]
  refs := fun _ => by simp

/-- No command is in progress, and no stopped operation is registered. -/
structure Quiescent (m : ContinuousSnapshotManager V) : Prop where
  commands : ∀ command, m.commands command = .absent ∨
    ∃ started, m.commands command = .ended started
  running : ∀ entry ∈ m.snapshotRunning, (m.ops entry.2).isRunning = true

/-- The PVs are linked with the running operations only, with all of them, and each URI of a
running operation has its reference. -/
structure Linked (m : ContinuousSnapshotManager V) : Prop where
  running : ∀ pvName o, (pvName, o) ∈ m.pvSnapshotMap →
    m.findRunning (m.ops o).queueName = some o
  linked : ∀ entry ∈ m.snapshotRunning, ∀ pvName ∈ sanitizedNames (m.ops entry.2).cmd.pvNameList,
    (pvName, entry.2) ∈ m.pvSnapshotMap
  referenced : ∀ pvName, m.channelRefs pvName = (m.snapshotRunning.map fun entry =>
    (sanitizedNames (m.ops entry.2).cmd.pvNameList).count pvName).sum

theorem findRunning_of_running (h : Registry m.toSnapshotPipeline)
    (hrunning : Running m.toSnapshotPipeline o) :
    m.findRunning (m.ops o).queueName = some o := by
  cases hfind : m.findRunning (m.ops o).queueName with
  | none =>
      have hnone := List.lookup_eq_none_iff.1 hfind _ hrunning
      simp at hnone
  | some found =>
      obtain ⟨hfound, hkey⟩ := h.running_of_found hfind
      rw [Running, ← hkey] at hfound
      have hentry := List.inj_on_of_nodup_map h.keys hfound hrunning rfl
      have hsame : found = o := congrArg Prod.snd hentry
      rw [hsame]

/-- The operations in `snapshot_running_`, in the order of their numbers. -/
theorem sum_listed (h : Registry m.toSnapshotPipeline) (pvName : String) :
    ∑ o ∈ Finset.range m.opCount, (sanitizedNames (m.listed o)).count pvName =
      (m.snapshotRunning.map fun entry =>
        (sanitizedNames (m.ops entry.2).cmd.pvNameList).count pvName).sum := by
  have hentry : ∀ entry ∈ m.snapshotRunning, entry = ((m.ops entry.2).queueName, entry.2) :=
    fun entry hmem => Prod.ext (h.entries entry hmem).2.1 rfl
  have hnodup : (m.snapshotRunning.map Prod.snd).Nodup := by
    refine List.Nodup.map_on ?_ (List.Nodup.of_map _ h.keys)
    intro first hfirst second hsecond heq
    rw [hentry first hfirst, hentry second hsecond, heq]
  have hmap : (m.snapshotRunning.map fun entry =>
      (sanitizedNames (m.ops entry.2).cmd.pvNameList).count pvName) =
        (m.snapshotRunning.map Prod.snd).map fun o =>
          (sanitizedNames (m.ops o).cmd.pvNameList).count pvName := by
    rw [List.map_map]
    rfl
  rw [hmap, ← List.sum_toFinset _ hnodup]
  have hsubset : (m.snapshotRunning.map Prod.snd).toFinset ⊆ Finset.range m.opCount := by
    intro o hmem
    obtain ⟨entry, hin, rfl⟩ := List.mem_map.1 (List.mem_toFinset.1 hmem)
    exact Finset.mem_range.2 (h.entries entry hin).1
  have hiff : ∀ o, o ∈ (m.snapshotRunning.map Prod.snd).toFinset ↔
      Running m.toSnapshotPipeline o := by
    intro o
    rw [List.mem_toFinset, List.mem_map]
    constructor
    · rintro ⟨entry, hin, rfl⟩
      rw [Running, ← hentry entry hin]
      exact hin
    · exact fun hrunning => ⟨_, hrunning, rfl⟩
  symm
  refine (Finset.sum_congr rfl ?_).trans (Finset.sum_subset hsubset ?_)
  · intro o hmem
    rw [listed, if_pos ((hiff o).1 hmem)]
  · intro o _ hnot
    rw [listed, if_neg fun hrunning => hnot ((hiff o).2 hrunning)]
    rfl

/-- In a quiescent state no URI has been taken out, and none is still to be activated. -/
theorem Ledger.linked (h : Ledger m) (hregistry : Registry m.toSnapshotPipeline)
    (hstopping : Stopping m.toSnapshotPipeline) (hquiescent : m.Quiescent) : Linked m := by
  have hremaining : ∀ o, m.remaining o = m.listed o := by
    apply remaining_of_idle
    intro hremoves
    cases hchecker : m.checker with
    | removing now todo o submission uris =>
        have hheld := hregistry.held
        rw [hchecker] at hheld
        have hrunning := hquiescent.running _ hheld.2.1
        rw [hstopping _ _ _ _ _ hchecker] at hrunning
        cases hrunning
    | sleeping | scanning | scheduling | acquiring =>
        rw [hchecker] at hremoves
        exact hremoves
  have hpending : ∀ o, m.pending o = [] := by
    intro o
    rw [pending]
    rcases hquiescent.commands (m.startedBy o) with habsent | ⟨started, hended⟩
    · rw [habsent]
    · rw [hended]
  constructor
  · intro pvName o hmem
    have hcount := List.count_pos_iff.2 hmem
    rw [h.links, hremaining] at hcount
    have hrunning : Running m.toSnapshotPipeline o := by
      by_contra hnot
      rw [listed, if_neg hnot] at hcount
      simp [sanitizedNames] at hcount
    exact findRunning_of_running hregistry hrunning
  · intro entry hentry pvName hmem
    have hrunning : Running m.toSnapshotPipeline entry.2 := by
      rw [Running, ← (hregistry.entries entry hentry).2.1]
      exact hentry
    rw [← List.count_pos_iff, h.links, hremaining, listed, if_pos hrunning]
    exact List.count_pos_iff.2 hmem
  · intro pvName
    have hrefs := h.refs pvName
    simp only [hremaining, hpending] at hrefs
    rw [sum_listed hregistry] at hrefs
    simpa [sanitizedNames] using hrefs

/-- In every run in which registrations and removals come in turn, the links and the references
are those of the running operations whenever nothing is under way. -/
theorem linked_of_run {labels : List (SnapshotStep V)} {m : ContinuousSnapshotManager V}
    (hrun : Run (next threads) InTurn {} labels m) (hquiescent : m.Quiescent) : Linked m := by
  have hinv : (Registry m.toSnapshotPipeline ∧ Stopping m.toSnapshotPipeline) ∧ m.Starts ∧
      Ledger m := by
    refine hrun.invariant (I := fun _ m => (Registry m.toSnapshotPipeline ∧
      Stopping m.toSnapshotPipeline) ∧ m.Starts ∧ Ledger m)
        ⟨⟨.init, stopping_of_idle id⟩, nofun, .initial⟩ ?_
    intro _ m label t hinv hturn hnext
    refine ⟨?_, hinv.2.1.next hinv.1.1 hnext, hinv.2.2.next hinv.2.1 hinv.1.1 hturn hnext⟩
    exact next_keeps (I := fun p => Registry p ∧ Stopping p) hnext
      (fun hkept hmove => ⟨hkept.1.moves hmove, hkept.2.moves hmove⟩) hinv.1
  exact hinv.2.2.linked hinv.1.1 hinv.1.2 hquiescent

/-- The command that a step is about. -/
def commandOf : SnapshotStep V → Option ℕ
  | .receiveStart command _ _ | .receiveStop command _ | .receiveTrigger command _
  | .startCheck command | .startPrepare command | .startCreateQueue command _
  | .startGetQueueMetadata command _ | .startRegister command | .startActivate command
  | .startReply command | .stopMark command | .stopReply command | .trigger command =>
    some command
  | _ => none

/-- The replies that a command has pushed. -/
def repliesTo (m : ContinuousSnapshotManager V) (command : ℕ) :
    List (PublishMessage ContinuousSnapshotCommandReply) :=
  (m.replies.filter fun entry => entry.1 == command).map Prod.snd

theorem repliesTo_congr (h : t.replies = m.replies) (command : ℕ) :
    t.repliesTo command = m.repliesTo command := by
  rw [repliesTo, repliesTo, h]

/-- A command stays where it is. -/
def SameCommand (m t : ContinuousSnapshotManager V) (command : ℕ) : Prop :=
  t.commands command = m.commands command ∧ t.repliesTo command = m.repliesTo command

theorem CommandOnly.others (h : CommandOnly command m t) {other : ℕ} (hne : other ≠ command) :
    SameCommand m t other := by
  obtain ⟨phase, hcommands, -⟩ := h.commands
  obtain ⟨added, hreplies, hadded⟩ := h.replies
  constructor
  · rw [hcommands, Function.update_of_ne hne]
  · have hnone : added.filter (fun entry => entry.1 == other) = [] := by
      refine List.filter_eq_nil_iff.2 fun entry hmem => ?_
      rw [hadded entry hmem]
      simpa using Ne.symm hne
    rw [repliesTo, repliesTo, hreplies, List.filter_append, hnone, List.append_nil]

/-- The other commands stay where they are. -/
theorem next_others {label : SnapshotStep V} (hnext : next threads m label = some t) {other : ℕ}
    (hne : commandOf label ≠ some other) : SameCommand m t other := by
  have hne' : ∀ command, commandOf label = some command → other ≠ command := by
    rintro command hcommand rfl
    exact hne hcommand
  cases transition_of_next hnext with
  | receiveStart | receiveStop | receiveTrigger | startCreateQueue | startGetQueueMetadata
  | startRegister => exact ⟨Function.update_of_ne (hne' _ rfl) .., rfl⟩
  | startCheck => exact (startCheck_only _ _).others (hne' _ rfl)
  | startPrepare => exact (startPrepare_only _ _).others (hne' _ rfl)
  | @startActivate _ _ uri =>
      obtain ⟨hcommands, -, -, hreplies⟩ := m.monitorChannel_same uri true
      constructor
      · rw [setCommand, hcommands]
        exact Function.update_of_ne (hne' _ rfl) ..
      · exact repliesTo_congr hreplies other
  | startReply | stopReply => exact (replyAndEnd_only _ _).others (hne' _ rfl)
  | stopMark => exact (stopMark_only _).others (hne' _ rfl)
  | trigger => exact (triggerSnapshot_only _).others (hne' _ rfl)
  | @removeUri _ _ o _ uri =>
      obtain ⟨hcommands, -, hreplies, -⟩ := m.removeUri_same o uri
      exact ⟨congrFun hcommands other, repliesTo_congr hreplies other⟩
  | checkerScan | checkerVisit | leave | checkerSchedule | checkerAcquire | checkerSleep | dequeue
  | task => exact ⟨rfl, rfl⟩

/-- A command that no step is about has not arrived. -/
theorem absent_of_run {allowed : ContinuousSnapshotManager V → SnapshotStep V → Prop}
    {labels : List (SnapshotStep V)} {m : ContinuousSnapshotManager V}
    (hrun : Run (next threads) allowed {} labels m) {other : ℕ}
    (hnone : ∀ label ∈ labels, commandOf label ≠ some other) : m.commands other = .absent := by
  have hinv : (∀ label ∈ labels, commandOf label ≠ some other) → m.commands other = .absent := by
    refine hrun.invariant (I := fun labels m =>
      (∀ label ∈ labels, commandOf label ≠ some other) → m.commands other = .absent)
        (fun _ => rfl) ?_
    intro labels m label t hinv _ hnext hnone
    rw [(next_others hnext (hnone label (by simp))).1]
    exact hinv fun earlier hmem => hnone earlier (List.mem_append_left _ hmem)
  exact hinv hnone

/-- The commands of a run have all ended, and no operation is stopped. -/
def isQuiescent (m : ContinuousSnapshotManager V) (commands : List ℕ) : Bool :=
  (commands.all fun command =>
    match m.commands command with
    | .ended _ => true
    | _ => false) &&
  m.snapshotRunning.all fun entry => (m.ops entry.2).isRunning

theorem ended_of_isQuiescent {m : ContinuousSnapshotManager V} {commands : List ℕ}
    (h : m.isQuiescent commands = true) (hmem : command ∈ commands) :
    ∃ started, m.commands command = .ended started := by
  rw [isQuiescent, Bool.and_eq_true, List.all_eq_true] at h
  have hended := h.1 command hmem
  split at hended
  · exact ⟨_, ‹_›⟩
  · cases hended

theorem quiescent_of_run {allowed : ContinuousSnapshotManager V → SnapshotStep V → Prop}
    {labels : List (SnapshotStep V)} {m : ContinuousSnapshotManager V}
    (hrun : Run (next threads) allowed {} labels m) (commands : List ℕ)
    (hcommands : ∀ label ∈ labels, ∀ command, commandOf label = some command →
      command ∈ commands) (h : m.isQuiescent commands = true) : m.Quiescent := by
  constructor
  · intro command
    by_cases hmem : command ∈ commands
    · exact .inr (ended_of_isQuiescent h hmem)
    · exact .inl (absent_of_run hrun fun label hlabel heq => hmem (hcommands label hlabel _ heq))
  · rw [isQuiescent, Bool.and_eq_true, List.all_eq_true, List.all_eq_true] at h
    exact h.2

/-- A snapshot is started. -/
theorem linked_of_run_started : ∃ labels m, Run (next (V := ℕ) 1) InTurn {} labels m ∧
    m.channelRefs "x" = 1 ∧ m.Linked := by
  obtain ⟨m, hrun, hcheck⟩ := exists_run (next 1) InTurn {}
    (SnapshotTrace.start 0 SnapshotTrace.normal)
    (fun m => m.isQuiescent [0] && m.channelRefs "x" == 1) (by decide +kernel)
  rw [Bool.and_eq_true, beq_iff_eq] at hcheck
  have hquiescent := quiescent_of_run hrun [0] (by simp [SnapshotTrace.start, commandOf]) hcheck.1
  exact ⟨_, m, hrun, hcheck.2, linked_of_run hrun hquiescent⟩

/-- Two starts of one name: both find it free, and the second is registered behind the first. -/
theorem not_linked_twoStarts : ¬∀ (threads : ℕ) (labels : List (SnapshotStep ℕ))
    (m : ContinuousSnapshotManager ℕ), AnyRun (next threads) {} labels m → m.Quiescent →
      m.Linked := by
  intro hall
  obtain ⟨m, hrun, hcheck⟩ := exists_run (next 1) (fun _ _ => True)
    ({} : ContinuousSnapshotManager ℕ)
    ([.receiveStart 0 SnapshotTrace.normal 0, .receiveStart 1 SnapshotTrace.normal 0] ++
      ([.startCheck 0, .startCheck 1, .startPrepare 0, .startPrepare 1, .startCreateQueue 0 true,
        .startCreateQueue 1 true, .startGetQueueMetadata 0 true, .startGetQueueMetadata 1 true,
        .startRegister 0, .startRegister 1, .startActivate 0, .startActivate 1, .startReply 0,
        .startReply 1]))
    (fun m => m.isQuiescent [0, 1] && (m.pvSnapshotMap.contains ("x", 1) &&
      m.findRunning (m.ops 1).queueName == some 0)) (by decide +kernel)
  simp only [Bool.and_eq_true, beq_iff_eq, List.contains_iff_mem] at hcheck
  have hquiescent := quiescent_of_run hrun [0, 1] (by simp [commandOf]) hcheck.1
  have hrunning := (hall 1 _ m hrun hquiescent).running "x" 1 hcheck.2.1
  rw [hcheck.2.2] at hrunning
  cases hrunning

end ContinuousSnapshotManager

end K2eg
