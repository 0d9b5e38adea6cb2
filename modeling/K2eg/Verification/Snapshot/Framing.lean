import K2eg.Verification.Snapshot.Closing
import K2eg.Verification.Snapshot.Registry

/-! # Headers and Tails of the submissions

The submissions of an operation open and close one iteration after the other, and the checker
attaches one id from a Header to its Tail. This needs no order of the commands and the tasks. -/

namespace K2eg

variable {V : Type*}

open Interleaving

/-- Lists of submissions `(Header ... Tail)*`: a submission has a Header where no iteration is open,
and else the id of the one before it. -/
inductive Framed : List (SubmissionTask V) → Prop where
  | nil : Framed []
  | snoc {tasks task} (earlier : Framed tasks) (opens : task.header = !isOpen tasks)
      (identified : task.iterationId ≠ 0)
      (continues : task.header = false →
        tasks.getLast?.map SubmissionTask.iterationId = some task.iterationId)
      (closes : task.lastSubmission = true → task.tail = true) : Framed (tasks ++ [task])

/-! ## Steps of the tasks -/

section Advance

variable {tasks : List (SubmissionTask V)} {task : SubmissionTask V} {i : ℕ}
  (h : tasks[i]? = some task) (phase : TaskPhase V)
include h

theorem lastIteration_advance :
    (tasks.set i (task.advance phase)).getLast?.map SubmissionTask.iterationId =
      tasks.getLast?.map SubmissionTask.iterationId := by
  rw [List.getLast?_eq_getElem?, List.getLast?_eq_getElem?, List.length_set, List.getElem?_set]
  obtain ⟨hi, rfl⟩ := List.getElem?_eq_some_iff.mp h
  split
  · rename_i hlast
    rw [← hlast, h]
    rfl
  · rfl

theorem Framed.advance (hframed : Framed tasks) : Framed (tasks.set i (task.advance phase)) := by
  induction hframed with
  | nil => simp at h
  | @snoc tasks last earlier opens identified continues closes ih =>
      rcases advance_snoc h phase with ⟨h, hset⟩ | ⟨rfl, hset⟩ <;> rw [hset]
      · refine .snoc (ih h) ?_ identified (fun hheader => ?_) closes
        · rw [isOpen_advance h, opens]
        · rw [lastIteration_advance h]
          exact continues hheader
      · exact .snoc earlier opens identified continues closes

end Advance

/-- An open iteration has a last submission, and its id is not zero. -/
theorem Framed.last_of_isOpen {tasks : List (SubmissionTask V)} (h : Framed tasks)
    (hopen : isOpen tasks = true) :
    ∃ k, k ≠ 0 ∧ tasks.getLast?.map SubmissionTask.iterationId = some k := by
  cases h with
  | nil => cases hopen
  | @snoc tasks task earlier opens identified continues closes =>
      exact ⟨task.iterationId, identified, by simp⟩

/-- No submission has the id zero. -/
theorem Framed.identified_mem {tasks : List (SubmissionTask V)} (h : Framed tasks) :
    ∀ task ∈ tasks, task.iterationId ≠ 0 := by
  induction h with
  | nil => simp
  | snoc earlier opens identified continues closes ih =>
      intro task hmem
      rcases List.mem_append.mp hmem with hmem | hmem
      · exact ih task hmem
      · obtain rfl := List.mem_singleton.mp hmem
        exact identified

/-! ## The active iteration -/

/-- The operation may still submit. -/
def MaySubmit (p : SnapshotPipeline V) (o : ℕ) : Prop := Running p o ∨ p.checker.held = some o

/-- The checker knows the iteration that an operation has open. -/
structure Numbered (p : SnapshotPipeline V) : Prop where
  framed : ∀ o, Framed (p.tasks o)
  active : ∀ o, isOpen (p.tasks o) = true → MaySubmit p o →
    p.activeIterationId (p.nameOf o) = (p.tasks o).getLast?.map SubmissionTask.iterationId

namespace Numbered

variable {threads : ℕ} {registers : SnapshotPipeline V → RepeatingSnapshotCommand → Prop}
  {schedules : SnapshotPipeline V → Prop} {p p' : SnapshotPipeline V}

theorem init : Numbered ({} : SnapshotPipeline V) where
  framed _ := .nil
  active _ hopen := by cases hopen

/-- Nothing is submitted, and no operation comes back. -/
theorem frame (h : Numbered p) (hactive : p'.activeIterationId = p.activeIterationId)
    (hframed : ∀ o, Framed (p'.tasks o))
    (htasks : ∀ o, isOpen (p'.tasks o) = true → isOpen (p.tasks o) = true ∧
      (p'.tasks o).getLast?.map SubmissionTask.iterationId =
        (p.tasks o).getLast?.map SubmissionTask.iterationId ∧ p'.nameOf o = p.nameOf o)
    (hsubmits : ∀ o, isOpen (p.tasks o) = true → MaySubmit p' o → MaySubmit p o) : Numbered p' := by
  refine ⟨hframed, fun o hopen hsubmitting => ?_⟩
  obtain ⟨hopen', hlast, hname⟩ := htasks o hopen
  rw [hactive, hlast, hname]
  exact h.active o hopen' (hsubmits o hopen' hsubmitting)

/-- An operation changes, but for its command and its queue. -/
theorem frame_op (h : Numbered p) {o : ℕ} {op : SnapshotOpInfo} (checker : CheckerPhase V)
    (hcmd : op.cmd = (p.ops o).cmd) (hqueue : op.queueName = (p.ops o).queueName)
    (hholds : ∀ other, checker.held = some other → MaySubmit p other) :
    Numbered ((p.setOp o op).setChecker checker) := by
  have hops := SnapshotOpInfo.names_update hcmd hqueue
  refine h.frame rfl h.framed (fun other hopen => ⟨hopen, rfl, ?_⟩) fun other _ hsubmits => ?_
  · change (Function.update p.ops o op other).cmd.snapshotName = p.nameOf other
    rw [(hops other).1]
    rfl
  · rcases hsubmits with hrunning | hheld
    · change ((Function.update p.ops o op other).queueName, other) ∈ p.snapshotRunning at hrunning
      rw [(hops other).2] at hrunning
      exact .inl hrunning
    · exact hholds other hheld

theorem frame_checker (h : Numbered p) (checker : CheckerPhase V)
    (hholds : ∀ other, checker.held = some other → MaySubmit p other) :
    Numbered (p.setChecker checker) := by
  refine h.frame rfl h.framed (fun _ hopen => ⟨hopen, rfl, rfl⟩) fun other _ hsubmits => ?_
  rcases hsubmits with hrunning | hheld
  · exact .inl hrunning
  · exact hholds other hheld

/-- Only the operation that a submission is from may still submit under its name. -/
theorem submits_of_name (hregistry : Registry p) {o other : ℕ} (hregistered : o < p.opCount)
    (hheld : Running p o ∨ Vacated p o) (hrunning : Running p other)
    (hname : p.nameOf other = p.nameOf o) : other = o := by
  have hother : other < p.opCount := (hregistry.entries _ hrunning).1
  have hqueue : (p.ops other).queueName = (p.ops o).queueName := by
    rw [hregistry.names other hother, hregistry.names o hregistered, hname]
  rcases hheld with hself | hvacated
  · have heq := List.inj_on_of_nodup_map hregistry.keys hrunning hself hqueue
    exact congrArg Prod.snd heq
  · exact absurd hqueue (hvacated _ hrunning)

/-- A submission that the checker schedules. -/
theorem submit (h : Numbered p) (hregistry : Registry p) {now : Int} {todo : List String}
    {o k : ℕ} {submission : SnapshotSubmission V} {last : Bool} (hpending : Pending p o submission)
    (hrunning : last = false → Running p o)
    (hlast : last = true → submission.submissionType.tail = true ∧ Vacated p o) (hk : k ≠ 0)
    (hcontinues : submission.submissionType.header = false →
      p.activeIterationId (p.nameOf o) = some k ∧
        (p.tasks o).getLast?.map SubmissionTask.iterationId = some k) :
    Numbered (p.submit now todo o submission last k) := by
  have hheld : Running p o ∨ Vacated p o := by
    cases last with
    | false => exact .inl (hrunning rfl)
    | true => exact .inr (hlast rfl).2
  obtain ⟨gates, hops⟩ := p.submit_ops now todo o k submission last
  have hsubmits {other : ℕ} (hsubmits : MaySubmit (p.submit now todo o submission last k) other) :
      Running p other := by
    rcases hsubmits with hrun | hholds
    · have hqueue : ((p.submit now todo o submission last k).ops other).queueName =
          (p.ops other).queueName := by
        rw [hops]
        exact (SnapshotOpInfo.names_gates p.ops o gates other).2
      rw [Running, hqueue] at hrun
      exact hrun
    · cases hholds
  refine ⟨fun other => ?_, fun other hopen hsubmitting => ?_⟩
  · rw [SnapshotPipeline.submit_tasks]
    by_cases hother : other = o
    · subst hother
      rw [Function.update_self]
      exact .snoc (h.framed other) hpending.opens hk (fun hheader => (hcontinues hheader).2)
        fun htrue => (hlast htrue).1
    · rw [Function.update_of_ne hother]
      exact h.framed other
  · rw [SnapshotPipeline.submit_tasks] at hopen ⊢
    rw [SnapshotPipeline.submit_active, SnapshotPipeline.submit_nameOf]
    by_cases hother : other = o
    · subst hother
      rw [Function.update_self, isOpen_snoc] at hopen
      have hnot : last = false := by
        by_contra htrue
        have htail : submission.submissionType.tail = true := (hlast (by simpa using htrue)).1
        simp [SnapshotPipeline.detached, SubmissionTask.tail, htail] at hopen
      rw [Function.update_self, Function.update_self, hnot, List.getLast?_concat]
      change _ = some k
      cases hheader : submission.submissionType.header with
      | true => rfl
      | false => exact (hcontinues hheader).1
    · rw [Function.update_of_ne hother] at hopen ⊢
      have hrun := hsubmits hsubmitting
      have hname : p.nameOf other ≠ p.nameOf o := fun hname =>
        hother (submits_of_name hregistry hpending.registered hheld hrun hname)
      rw [Function.update_of_ne hname]
      exact h.active other hopen (.inl hrun)

/-- An operation that is registered has nothing open. -/
theorem register (h : Numbered p) (hregistry : Registry p) (op : SnapshotOpInfo) :
    Numbered (p.register op) := by
  have hnew {o : ℕ} (hopen : isOpen (p.tasks o) = true) : o < p.opCount := by
    by_contra hge
    rw [hregistry.unregistered o (Nat.le_of_not_lt hge)] at hopen
    cases hopen
  have hops {o : ℕ} (hopen : isOpen (p.tasks o) = true) : (p.register op).ops o = p.ops o := by
    rw [SnapshotPipeline.register_ops, Function.update_of_ne (Nat.ne_of_lt (hnew hopen))]
  refine h.frame rfl h.framed (fun o hopen => ⟨hopen, rfl, ?_⟩) fun o hopen hsubmits => ?_
  · rw [SnapshotPipeline.nameOf, hops hopen]
    rfl
  · rcases hsubmits with hrunning | hheld
    · rw [Running, hops hopen, SnapshotPipeline.register] at hrunning
      dsimp only at hrunning
      split at hrunning
      · exact .inl hrunning
      · rcases List.mem_append.mp hrunning with hold | hadded
        · exact .inl hold
        · have heq := congrArg Prod.snd (List.mem_singleton.mp hadded)
          exact absurd heq (Nat.ne_of_lt (hnew hopen))
    · exact .inr hheld

theorem frame_task (h : Numbered p) {o i : ℕ} {task : SubmissionTask V} {phase : TaskPhase V}
    (htask : (p.tasks o)[i]? = some task) (hactive : p'.activeIterationId = p.activeIterationId)
    (hops : ∀ other, Registry.SameEntry (p.ops other) (p'.ops other))
    (hrunning : p'.snapshotRunning = p.snapshotRunning)
    (htasks : p'.tasks = Function.update p.tasks o ((p.tasks o).set i (task.advance phase)))
    (hchecker : p'.checker = p.checker) : Numbered p' := by
  have htask' (other : ℕ) : Framed (p'.tasks other) ∧
      isOpen (p'.tasks other) = isOpen (p.tasks other) ∧
        (p'.tasks other).getLast?.map SubmissionTask.iterationId =
          (p.tasks other).getLast?.map SubmissionTask.iterationId := by
    rw [htasks]
    exact rel_update (r := fun before after : List (SubmissionTask V) =>
        Framed after ∧ isOpen after = isOpen before ∧
          after.getLast?.map SubmissionTask.iterationId =
            before.getLast?.map SubmissionTask.iterationId)
      (fun other => ⟨h.framed other, rfl, rfl⟩)
      ⟨(h.framed o).advance htask phase, isOpen_advance htask phase,
        lastIteration_advance htask phase⟩ other
  refine h.frame hactive (fun other => (htask' other).1) (fun other hopen => ?_)
    fun other _ hsubmits => ?_
  · obtain ⟨-, hsame, hlast⟩ := htask' other
    refine ⟨hsame ▸ hopen, hlast, ?_⟩
    rw [SnapshotPipeline.nameOf, (hops other).1]
    rfl
  · rwa [MaySubmit, Running, (hops other).2.1, hrunning, hchecker] at hsubmits

/-- One move, whatever the parties are doing. -/
theorem moves (h : Numbered p) (hregistry : Registry p)
    (hmoves : SnapshotPipeline.Moves threads registers schedules p p') : Numbered p' := by
  have hheld := hregistry.held
  cases hmoves with
  | trigger sleeping | stop sleeping =>
      exact h.frame_op p.checker rfl rfl fun _ => .inr
  | register sleeping allowed => exact h.register hregistry _
  | scan sleeping => exact h.frame_checker _ fun _ hholds => by cases hholds
  | @visit now queueName todo o events scanning found =>
      obtain ⟨hrunning, -⟩ := hregistry.running_of_found found
      have hconsistent := hregistry.consistent o (hregistry.registered_of_found found)
      obtain ⟨hsame, -⟩ := (p.ops o).isTimeout_same now
      have htaken := SnapshotOpInfo.taken_same now events hconsistent
      rw [SnapshotPipeline.visit]
      dsimp only
      split
      · refine h.frame_op _ htaken.cmd htaken.queueName fun other hholds => ?_
        have hother : other = o := by
          split at hholds <;> exact (Option.some.inj hholds).symm
        exact .inl (hother ▸ hrunning)
      · exact h.frame_op _ hsame.cmd hsame.queueName fun _ hholds => by cases hholds
  | remove removing =>
      refine h.frame_checker _ fun other hholds => .inr ?_
      rw [removing]
      exact hholds
  | @leave now todo o submission removing =>
      refine h.frame rfl h.framed (fun _ hopen => ⟨hopen, rfl, rfl⟩) fun other _ hsubmits => ?_
      rcases hsubmits with hrunning | hholds
      · exact .inl (List.mem_of_mem_filter hrunning)
      · rw [MaySubmit, removing]
        exact .inr hholds
  | @submit now todo o submission last scheduling continues allowed =>
      rw [scheduling] at hheld
      obtain ⟨hpending, hrunning, hlast⟩ := hheld
      have hopen : isOpen (p.tasks o) = true := by simpa [continues] using hpending.opens
      obtain ⟨k, hk, hid⟩ := (h.framed o).last_of_isOpen hopen
      have hactive : p.activeIterationId (p.nameOf o) = some k := by
        rw [h.active o hopen (.inr (by rw [scheduling]; rfl)), hid]
      rw [hactive]
      exact h.submit hregistry hpending hrunning hlast hk fun _ => ⟨hactive, hid⟩
  | await scheduling opens allowed =>
      refine h.frame rfl h.framed (fun _ hopen => ⟨hopen, rfl, rfl⟩) fun other _ hsubmits => ?_
      rw [MaySubmit, scheduling]
      exact hsubmits
  | @acquire now todo o submission last acquiring idle =>
      rw [acquiring] at hheld
      obtain ⟨hpending, hopens, hrunning, hlast⟩ := hheld
      have hreserved : Registry { p with
          iterationSync := Function.update p.iterationSync (p.nameOf o)
            (p.iterationSync (p.nameOf o)).reserve.2 } :=
        hregistry.frame rfl rfl (fun _ => ⟨rfl, rfl, rfl⟩) (fun _ => ⟨rfl, rfl, .rfl⟩)
          hregistry.valid rfl hregistry.held
      have hnumbered : Numbered { p with
          iterationSync := Function.update p.iterationSync (p.nameOf o)
            (p.iterationSync (p.nameOf o)).reserve.2 } :=
        h.frame rfl h.framed (fun _ hopen => ⟨hopen, rfl, rfl⟩) fun _ _ hsubmits => hsubmits
      exact hnumbered.submit hreserved ⟨hpending.1, hpending.2, hpending.3, hpending.4⟩ hrunning
        hlast (Nat.succ_ne_zero _) fun hheader => by rw [hopens] at hheader; cases hheader
  | sleep scanning => exact h.frame_checker _ fun _ hholds => by cases hholds
  | dequeue dequeues =>
      obtain ⟨o, i, task, pool, -, htask, rfl⟩ := SnapshotPipeline.dequeue_eq_some dequeues
      exact h.frame_task htask rfl (fun _ => ⟨rfl, rfl, rfl⟩) rfl rfl rfl
  | task steps =>
      obtain ⟨task, out, htask, hout, rfl⟩ := SnapshotPipeline.stepTask_eq_some steps
      obtain ⟨gates, removalSet, hop⟩ := SubmissionTask.step_op hout
      exact h.frame_task htask rfl
        (Registry.SameEntry.update ⟨by rw [hop], by rw [hop], by rw [hop]⟩) rfl rfl rfl

end Numbered

/-! ## Runs -/

/-- The time of a scan and the snapshots that it has not reached. -/
def CheckerPhase.scanned? : CheckerPhase V → Option (Int × List String)
  | .scanning now todo => some (now, todo)
  | _ => none

theorem CheckerPhase.scanned?_eq_some {checker : CheckerPhase V} {now : Int} {todo : List String} :
    checker.scanned? = some (now, todo) ↔ checker = .scanning now todo := by
  cases checker <;> simp [scanned?]

namespace ContinuousSnapshotManager

variable {threads : ℕ} {m : ContinuousSnapshotManager V} {labels : List (SnapshotStep V)}

theorem numbered_of_run (h : AnyRun (next threads) {} labels m) :
    Registry m.toSnapshotPipeline ∧ Numbered m.toSnapshotPipeline := by
  have hinit : Registry ({} : SnapshotPipeline V) ∧ Numbered ({} : SnapshotPipeline V) :=
    ⟨.init, .init⟩
  have hmoves : ∀ {p p' : SnapshotPipeline V}, Registry p ∧ Numbered p →
      SnapshotPipeline.Moves threads (fun _ _ => True) (fun _ => True) p p' →
        Registry p' ∧ Numbered p' := fun hinv hmoves =>
    ⟨hinv.1.moves hmoves, hinv.2.moves hinv.1 hmoves⟩
  exact run_invariant (fun _ _ _ _ _ => trivial) (fun _ _ _ _ => trivial) hinit hmoves h

/-- What a visit that is due takes from an operation: a Header where no iteration is open, a Tail
where the window closes. An operation that is removed has its window closed. -/
structure TakesFrame (m : ContinuousSnapshotManager V) (now : Int) (todo : List String) (o : ℕ)
    (checker : CheckerPhase V) (submission : SnapshotSubmission V) : Prop where
  opens : submission.submissionType.header = !isOpen (m.tasks o)
  closes : submission.submissionType.tail = (m.ops o).closes now
  goesOn : (m.ops o).isRunning = true → checker = .scheduling now todo o submission false
  removes : (m.ops o).isRunning = false → submission.submissionType.tail = true ∧
    checker = .removing now todo o submission (m.ops o).cmd.pvNameList

/-- In every run the scheduled submissions are framed, and so is the next one that a visit takes. -/
theorem framed_of_run (h : AnyRun (next threads) {} labels m) :
    (∀ o, Framed (m.tasks o)) ∧
      ∀ {now queueName todo o events t}, m.checker = .scanning now (queueName :: todo) →
        m.findRunning queueName = some o → next threads m (.checkerVisit events) = some t →
        ((m.ops o).isTimeout now).1 = true →
          ∃ submission, TakesFrame m now todo o t.checker submission := by
  obtain ⟨hregistry, hnumbered⟩ := numbered_of_run h
  refine ⟨hnumbered.framed, fun {now queueName todo o events t} hscanning hfound hnext hdue => ?_⟩
  have hregistered := hregistry.registered_of_found hfound
  obtain ⟨hsame, hsent⟩ := (m.ops o).isTimeout_same now
  have hconsistent := SnapshotOpInfo.isTimeout_consistent now
    (hregistry.consistent o hregistered)
  obtain ⟨htaken, -, hopens, -, -⟩ :=
    ((m.ops o).isTimeout now).2.getData_spec events hconsistent
  have hcloses := (m.ops o).tail_of_isTimeout now events hdue
  have hrunning : (((m.ops o).isTimeout now).2.getData events).2.isRunning =
      (m.ops o).isRunning := htaken.isRunning.trans hsame.isRunning
  have hcmd : (((m.ops o).isTimeout now).2.getData events).2.cmd = (m.ops o).cmd :=
    htaken.cmd.trans hsame.cmd
  simp only [next, hscanning, hfound, Option.map_some, Option.some.injEq] at hnext
  subst hnext
  refine ⟨(((m.ops o).isTimeout now).2.getData events).1, ?_, hcloses, fun hrun => ?_,
    fun hstopped => ⟨?_, ?_⟩⟩
  · rw [hopens, hsent, hregistry.sent o hregistered (by simp [hscanning, CheckerPhase.held])]
  · simp [setPipeline, SnapshotPipeline.visit, SnapshotPipeline.setChecker, hdue, hrunning, hrun]
  · rw [hcloses, SnapshotOpInfo.closes_of_stopped hstopped]
  · simp [setPipeline, SnapshotPipeline.visit, SnapshotPipeline.setChecker, hdue, hrunning,
      hstopped, hcmd]

open SnapshotTrace in
/-- An iteration of two submissions, and a stop that finds the next one open: the submission that
removes the operation closes it. -/
theorem framed_of_run_stopped :
    ∃ labels m, AnyRun (next (V := ℕ) 2) {} labels m ∧ (∀ o, Framed (m.tasks o)) ∧
      (m.tasks 0).map (fun task => (task.header, task.tail, task.iterationId)) =
        [(true, false, 1), (false, true, 1), (true, false, 2)] ∧
      ∃ now todo t submission, next 2 m (.checkerVisit []) = some t ∧
        (m.ops 0).isRunning = false ∧ TakesFrame m now todo 0 t.checker submission := by
  have hpasses : passes (next (V := ℕ) 2) (fun _ _ => True) settle
      (fun m => decide ((m.tasks 0).map (fun task => (task.header, task.tail, task.iterationId)) =
          [(true, false, 1), (false, true, 1), (true, false, 2)]) &&
        (!(m.ops 0).isRunning && m.checker.scanned?.any fun scan =>
          scan.2.head?.any fun queueName => decide (m.findRunning queueName = some 0) &&
            ((m.ops 0).isTimeout scan.1).1))
      {} (start 0 buffered ++ visit 1000000000 [event] ++ visit 2500000000 [] ++
        [.dequeue, .dequeue] ++ [.task 0 1] ++ List.replicate 8 (.task 0 0) ++
        List.replicate 5 (.task 0 1) ++ visit 4000000000 [] ++
        [.receiveStop 1 stop, .stopMark 1, .checkerScan 4200000000 ["a"]]) = true := by
    decide +kernel
  obtain ⟨m, hrun, hcheck⟩ := exists_run_of_passes settle_eq hpasses
  obtain ⟨hframed, htakes⟩ := framed_of_run hrun
  simp only [Bool.and_eq_true, Bool.not_eq_true', decide_eq_true_eq, Option.any_eq_true] at hcheck
  obtain ⟨htasks, hstopped, ⟨now, names⟩, hscanned, queueName, hhead, hfound, htimeout⟩ := hcheck
  obtain ⟨todo, rfl⟩ := List.head?_eq_some_iff.mp hhead
  have hscanning := CheckerPhase.scanned?_eq_some.mp hscanned
  have hnext : next 2 m (.checkerVisit []) = some (m.setPipeline (m.visit now todo 0 [])) := by
    simp [next, hscanning, hfound]
  obtain ⟨submission, hframe⟩ := htakes hscanning hfound hnext htimeout
  exact ⟨_, m, hrun, hframed, htasks, now, todo, _, submission, hnext, hstopped, hframe⟩

end ContinuousSnapshotManager

end K2eg
