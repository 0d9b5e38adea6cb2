import K2eg.Model.CommandService
import K2eg.Verification.Commands.Dispatch
import K2eg.Verification.Commands.Replies

/-! # Commands that are served side by side

However the threads of the pool and EPICS interleave, a put or a get leads to what it leads to on
its own: what its task has found of its operation decides. Until then a task of it is in the
pool. -/

namespace K2eg

open Interleaving

/-! ## One operation -/

section Completion

variable {Op Notice Result : Type} {notify : Op → Notice → Op} {isDone : Op → Bool}
  {onTimeout : Result} {onDone : Op → Result}

/-- The first poll does not need to know the others. -/
theorem checkCompletion_cons (info : WorkerAsyncOperation) (op : Op) (poll : Poll Notice)
    (rest : List (Poll Notice)) :
    checkCompletion notify isDone onTimeout onDone info op (poll :: rest) =
      (checkCompletion notify isDone onTimeout onDone info (poll.notices.foldl notify op)
        [⟨poll.now, []⟩]).or
        (checkCompletion notify isDone onTimeout onDone info (poll.notices.foldl notify op)
          rest) := by
  simp only [checkCompletion, List.foldl_nil]
  cases htimeout : (info.isTimeout poll.now).1 with
  | true => simp
  | false =>
      by_cases hdone : isDone (poll.notices.foldl notify op) = true
      · simp [hdone]
      · simp [hdone, isTimeout_of_not htimeout]

end Completion

namespace CommandService

variable {library : WorkerLibrary} {cmd : ConstCommand} {start : CommandStart}

/-- The task of an operation, for its polls. -/
def checkPolls (library : WorkerLibrary) (cmd : ConstCommand) (start : CommandStart)
    (op : CommandOperation) (polls : List (Poll GetNotice)) : Option Replies :=
  match cmd, op with
  | .get cmd, .get op =>
    GetCommandWorker.checkGetCompletion library.merge cmd { begin := start.begin } op polls
  | .put cmd, .put op =>
    PutCommandWorker.checkPutCompletion cmd { begin := start.begin } op
      (polls.map fun poll => ⟨poll.now, poll.notices.map GetNotice.notice⟩)
  | _, _ => none

theorem checkPolls_nil (op : CommandOperation) : checkPolls library cmd start op [] = none := by
  cases cmd <;> cases op <;> rfl

theorem foldl_get (op : GetOperation) (notices : List GetNotice) :
    notices.foldl CommandOperation.notify (.get op) =
      .get (notices.foldl GetOperation.notify op) := by
  induction notices generalizing op with
  | nil => rfl
  | cons notice rest ih => exact ih _

theorem foldl_put (op : SingleOperation) (notices : List GetNotice) :
    notices.foldl CommandOperation.notify (.put op) =
      .put ((notices.map GetNotice.notice).foldl SingleOperation.notify op) := by
  induction notices generalizing op with
  | nil => rfl
  | cons notice rest ih => exact ih _

/-- A poll looks at the operation as EPICS has left it. -/
theorem checkPolls_cons (op : CommandOperation) (poll : Poll GetNotice)
    (rest : List (Poll GetNotice)) :
    checkPolls library cmd start op (poll :: rest) =
      (checkOperation library cmd start (poll.notices.foldl CommandOperation.notify op)
        poll.now).or
        (checkPolls library cmd start (poll.notices.foldl CommandOperation.notify op) rest) := by
  cases op with
  | get op =>
      rw [foldl_get]
      cases cmd with
      | get cmd => exact checkCompletion_cons ..
      | _ => rfl
  | put op =>
      rw [foldl_put]
      cases cmd with
      | put cmd => exact checkCompletion_cons ..
      | _ => rfl

/-- `processCommand` replies at once, or leaves the operation to the task. -/
theorem processCommand_start (hawaits : cmd.awaits = true)
    (hnone : processCommand library cmd start [] = none) :
    ∃ op, startOperation cmd start = some op ∧ ∀ polls,
      processCommand library cmd start polls = checkPolls library cmd start op polls := by
  cases cmd with
  | get cmd =>
      rw [processCommand, GetCommandWorker.processCommand] at hnone
      cases hop : getChannelData start.channelMap cmd.pvName with
      | none =>
          rw [hop] at hnone
          cases hnone
      | some op =>
          refine ⟨.get op, by rw [startOperation, hop]; rfl, fun polls => ?_⟩
          rw [processCommand, GetCommandWorker.processCommand, hop]
          rfl
  | put cmd =>
      rw [processCommand, PutCommandWorker.processCommand] at hnone
      split at hnone
      case h_1 | h_2 => cases hnone
      case h_3 data hempty hdecode =>
        split at hnone
        case h_1 | h_2 | h_4 => cases hnone
        case h_3 entries hunpack =>
          cases hop : putChannelData cmd.pvName with
          | none =>
              rw [hop] at hnone
              cases hnone
          | some op =>
              refine ⟨.put op, by rw [startOperation, hop]; rfl, fun polls => ?_⟩
              rw [processCommand, PutCommandWorker.processCommand, hdecode]
              cases data with
              | nil => exact absurd rfl hempty
              | cons byte bytes =>
                  simp only [hunpack, hop]
                  rfl
  | _ => cases hawaits

/-! ## The invariant -/

open NodeController (Detaches Dispatched tasksOf)

variable {threads : ℕ} {s t : CommandService} {number : ℕ} {task : WorkerTask} {now : Int}

/-- What a command has led to. -/
def repliesOf (s : CommandService) (number : ℕ) : List Replies :=
  (s.replied.filter fun reply => reply.1 == number).map Prod.snd

/-- The record of a command: the replies are those of the polls so far, and while there is none the
operation goes on from there. -/
structure RecordSound (library : WorkerLibrary) (cmd : ConstCommand) (record : CommandRecord)
    (replies : List Replies) (ran : ℕ) : Prop where
  unstarted : record.start = none →
    ran = 0 ∧ replies = [] ∧ record.op = none ∧ record.notices = [] ∧ record.polls = []
  started : ∀ start, record.start = some start → 0 < ran ∧
    replies = (processCommand library cmd start record.polls).toList
  goesOn : ∀ start, record.start = some start → replies = [] → ∃ op,
    record.op = some (record.notices.foldl CommandOperation.notify op) ∧ ∀ rest,
      processCommand library cmd start (record.polls ++ rest) =
        checkPolls library cmd start op rest

/-- A command has as many tasks as have run, and another one while there is no reply. -/
structure CommandSound (library : WorkerLibrary) (s : CommandService) (number : ℕ)
    (cmd : ConstCommand) : Prop where
  ran : (tasksOf s.ran number).map WorkerTask.call = List.range (tasksOf s.ran number).length
  calls : s.node.calls number =
    (tasksOf s.ran number).length + if s.repliesOf number = [] then 1 else 0
  record : RecordSound library cmd (s.records number) (s.repliesOf number)
    (tasksOf s.ran number).length

/-- The service of the commands that `submitCommand` has gone through. -/
structure Serves (library : WorkerLibrary) (threads : ℕ) (s : CommandService) : Prop where
  node : Detaches threads s.node
  begun : ∀ task ∈ s.ran, task ∈ s.node.begun
  live : ∀ task ∈ s.node.begun, s.awaited task = true →
    task ∈ s.ran ∨ task ∈ s.node.processingPool.running
  fresh : ∀ number, s.node.passed ≤ number →
    tasksOf s.ran number = [] ∧ s.repliesOf number = [] ∧ s.records number = {}
  command : ∀ number cmd, number < s.node.passed → s.node.commands[number]? = some cmd →
    cmd.awaits = true → CommandSound library s number cmd

theorem recordSound_empty (cmd : ConstCommand) : RecordSound library cmd {} [] 0 :=
  ⟨fun _ => ⟨rfl, rfl, rfl, rfl, rfl⟩, nofun, nofun⟩

/-- The first task of a command. -/
theorem RecordSound.begin {record : CommandRecord} (h : RecordSound library cmd record [] 0)
    (hawaits : cmd.awaits = true) (start : CommandStart) :
    RecordSound library cmd
      { record with
        start := some start
        op := if (processCommand library cmd start []).isSome then none
          else startOperation cmd start }
      (processCommand library cmd start []).toList 1 := by
  have hnone : record.start = none := by
    cases hstart : record.start with
    | none => rfl
    | some other => exact absurd (h.started other hstart).1 (lt_irrefl 0)
  obtain ⟨-, -, -, hnotices, hpolls⟩ := h.unstarted hnone
  refine ⟨nofun, ?_, ?_⟩
  · intro other hother
    obtain rfl := Option.some.inj hother
    exact ⟨Nat.one_pos, by rw [hpolls]⟩
  · intro other hother hempty
    obtain rfl := Option.some.inj hother
    have hopen : processCommand library cmd start [] = none := Option.toList_eq_nil_iff.mp hempty
    obtain ⟨op, hop, hpolls'⟩ := processCommand_start hawaits hopen
    refine ⟨op, ?_, fun rest => ?_⟩
    · rw [hopen, hop, hnotices]
      rfl
    · rw [hpolls]
      exact hpolls' rest

/-- A later task of a command: a poll. -/
theorem RecordSound.poll {record : CommandRecord} {ran : ℕ}
    (h : RecordSound library cmd record [] ran) {op : CommandOperation}
    (hstart : record.start = some start) (hop : record.op = some op) (now : Int) :
    RecordSound library cmd
      { record with
        op := if (checkOperation library cmd start op now).isSome then none else some op
        notices := []
        polls := record.polls ++ [⟨now, record.notices⟩] }
      (checkOperation library cmd start op now).toList (ran + 1) := by
  obtain ⟨first, hfirst, hrest⟩ := h.goesOn start hstart rfl
  obtain rfl := Option.some.inj (hop.symm.trans hfirst)
  refine ⟨?_, ?_, ?_⟩
  · intro hnone
    rw [hstart] at hnone
    cases hnone
  · intro other hother
    obtain rfl := Option.some.inj (hstart.symm.trans hother)
    refine ⟨Nat.succ_pos ran, ?_⟩
    rw [hrest, checkPolls_cons, checkPolls_nil, Option.or_none]
  · intro other hother hempty
    obtain rfl := Option.some.inj (hstart.symm.trans hother)
    have hopen := Option.toList_eq_nil_iff.mp hempty
    refine ⟨record.notices.foldl CommandOperation.notify first, ?_, fun rest => ?_⟩
    · rw [hopen]
      rfl
    · rw [List.append_assoc, List.singleton_append, hrest, checkPolls_cons, hopen, Option.none_or]

/-- EPICS tells the operation something. -/
theorem RecordSound.notify {record : CommandRecord} {replies : List Replies} {ran : ℕ}
    (h : RecordSound library cmd record replies ran) {op : CommandOperation}
    (hop : record.op = some op) (notice : GetNotice) :
    RecordSound library cmd
      { record with op := some (op.notify notice), notices := record.notices ++ [notice] }
      replies ran := by
  refine ⟨fun hnone => ?_, h.started, fun start hstart hempty => ?_⟩
  · obtain ⟨-, -, hnoop, -, -⟩ := h.unstarted hnone
    rw [hop] at hnoop
    cases hnoop
  · obtain ⟨first, hfirst, hrest⟩ := h.goesOn start hstart hempty
    obtain rfl := Option.some.inj (hop.symm.trans hfirst)
    refine ⟨first, ?_, hrest⟩
    rw [List.foldl_append]
    rfl

theorem serves_start (threads : ℕ) : Serves library threads {} where
  node := .start
  begun := nofun
  live := nofun
  fresh := fun _ _ => ⟨rfl, rfl, rfl⟩
  command := nofun

/-! ## Steps of the controller -/

/-- A step of the controller that no body of a task takes. -/
theorem Serves.node_step (h : Serves library threads s) {node : NodeController}
    (hnode : Detaches threads node) (hpassed : s.node.passed ≤ node.passed)
    (hcommands : ∀ number < s.node.passed, node.commands[number]? = s.node.commands[number]?)
    (hcalls : ∀ number cmd, number < s.node.passed → s.node.commands[number]? = some cmd →
      cmd.awaits = true → node.calls number = s.node.calls number)
    (hnew : ∀ number cmd, s.node.passed ≤ number → number < node.passed →
      node.commands[number]? = some cmd → cmd.awaits = true → node.calls number = 1)
    (hbegun : ∀ task ∈ s.node.begun, task ∈ node.begun)
    (hlive : ∀ task ∈ node.begun, (node.commands[task.number]?).any ConstCommand.awaits = true →
      task ∈ s.ran ∨ task ∈ node.processingPool.running) :
    Serves library threads { s with node } where
  node := hnode
  begun := fun task hmem => hbegun task (h.begun task hmem)
  live := hlive
  fresh := fun number hle => h.fresh number (hpassed.trans hle)
  command := by
    intro number cmd hlt hcmd hawaits
    by_cases hold : number < s.node.passed
    · have hcmd' := (hcommands number hold).symm.trans hcmd
      obtain ⟨hran, hsame, hrecord⟩ := h.command number cmd hold hcmd' hawaits
      exact ⟨hran, (hcalls number cmd hold hcmd' hawaits).trans hsame, hrecord⟩
    · obtain ⟨hran, hreplies, hrecord⟩ := h.fresh number (Nat.not_lt.mp hold)
      have hone := hnew number cmd (Nat.not_lt.mp hold) hlt hcmd hawaits
      refine ⟨?_, ?_, ?_⟩
      · change (tasksOf s.ran number).map _ = _
        rw [hran]
        rfl
      · change node.calls number = (tasksOf s.ran number).length +
          if s.repliesOf number = [] then 1 else 0
        rw [hone, hran, hreplies]
        rfl
      · change RecordSound library cmd (s.records number) (s.repliesOf number)
          (tasksOf s.ran number).length
        rw [hran, hreplies, hrecord]
        exact recordSound_empty cmd

/-- A step of the controller with the same tasks and the same passed commands. -/
theorem Serves.same_tasks (h : Serves library threads s) {node : NodeController}
    (hnode : Detaches threads node) (hpassed : node.passed = s.node.passed)
    (hcommands : ∀ number < s.node.passed, node.commands[number]? = s.node.commands[number]?)
    (hdetached : node.detached = s.node.detached) (hbegun : node.begun = s.node.begun)
    (hpool : node.processingPool = s.node.processingPool) :
    Serves library threads { s with node } := by
  refine h.node_step hnode hpassed.ge hcommands (fun number _ _ _ _ => ?_) ?_ ?_ ?_
  · rw [NodeController.calls, hdetached, NodeController.calls]
  · intro number _ hle hlt
    omega
  · rw [hbegun]
    exact fun _ hmem => hmem
  · rw [hbegun, hpool]
    intro task hmem hawaited
    have hlt := h.node.number_lt_passed (h.node.pool.prefix_submitted.subset hmem)
    rw [hcommands _ hlt] at hawaited
    exact h.live task hmem hawaited

theorem calls_detachTask (node : NodeController) (task : WorkerTask) (number : ℕ) :
    (node.detachTask task).calls number =
      node.calls number + if task.number = number then 1 else 0 := by
  change (node.detached ++ [task]).countP _ = _
  by_cases hnumber : task.number = number <;>
    simp [List.countP_append, NodeController.calls, hnumber]

theorem workerFor_of_awaits (hawaits : cmd.awaits = true) :
    (NodeController.workerFor cmd.type).isSome = true := by
  cases cmd <;> first | rfl | cases hawaits

theorem Serves.submitNext (h : Serves library threads s) {cmd : ConstCommand}
    (hcmd : s.node.commands[s.node.passed]? = some cmd) :
    Serves library threads { s with node := s.node.submitNext cmd } := by
  have hnode := h.node.submitNext hcmd
  have hzero := h.node.calls_passed
  rw [NodeController.submitNext] at hnode ⊢
  simp only [h.node.resolver] at hnode ⊢
  cases hworker : NodeController.workerFor cmd.type with
  | none =>
      rw [hworker] at hnode
      refine h.node_step hnode (Nat.le_succ _) (fun _ _ => rfl) (fun _ _ _ _ _ => rfl) ?_
        (fun _ hmem => hmem) h.live
      intro number other hle hlt hother hawaits
      obtain rfl : number = s.node.passed := Nat.le_antisymm (Nat.lt_succ_iff.mp hlt) hle
      obtain rfl := Option.some.inj (hcmd.symm.trans hother)
      have hsome := workerFor_of_awaits hawaits
      rw [hworker] at hsome
      cases hsome
  | some worker =>
      rw [hworker] at hnode
      refine h.node_step hnode (Nat.le_succ _) (fun _ _ => rfl) ?_ ?_ (fun _ hmem => hmem) h.live
      · intro number other hlt _ _
        rw [calls_detachTask]
        exact congrArg (s.node.calls number + ·) (if_neg (Nat.ne_of_gt hlt))
      · intro number other hle hlt _ _
        obtain rfl : number = s.node.passed := Nat.le_antisymm (Nat.lt_succ_iff.mp hlt) hle
        rw [calls_detachTask]
        simp only [Nat.add_sub_cancel, if_true]
        exact congrArg (· + 1) hzero

theorem Serves.dequeue (h : Serves library threads s) {pool : TaskPool WorkerTask}
    (hdequeue : s.node.processingPool.dequeue threads = some (task, pool)) :
    Serves library threads { s with
      node := { s.node with processingPool := pool, begun := s.node.begun ++ [task] } } := by
  have hrunning := (TaskPool.dequeue_eq_some hdequeue).2.1
  refine h.node_step (h.node.dequeue hdequeue) le_rfl (fun _ _ => rfl) (fun _ _ _ _ _ => rfl)
    (fun _ _ hle hlt => absurd hle (Nat.not_le.mpr hlt))
    (fun _ hmem => List.mem_append_left _ hmem) ?_
  intro other hmem hawaited
  rw [hrunning]
  rcases List.mem_append.mp hmem with hmem | hmem
  · exact (h.live other hmem hawaited).imp_right (List.mem_cons_of_mem _)
  · obtain rfl := List.mem_singleton.mp hmem
    exact .inr List.mem_cons_self

/-- The next task of a command of another worker. -/
theorem Serves.detach (h : Serves library threads s) (hother : s.awaited task ≠ true)
    (hrunning : task ∈ s.node.processingPool.running)
    (hcall : task.call + 1 = s.node.calls task.number) :
    Serves library threads
      { s with node := s.node.detachTask { task with call := task.call + 1 } } := by
  refine h.node_step (h.node.detach hrunning hcall) le_rfl (fun _ _ => rfl) ?_
    (fun _ _ hle hlt => absurd hle (Nat.not_le.mpr hlt)) (fun _ hmem => hmem) h.live
  intro number cmd _ hcmd hawaits
  rw [calls_detachTask]
  refine congrArg (s.node.calls number + ·) (if_neg fun hnumber => hother ?_)
  dsimp only at hnumber
  rw [awaited, hnumber, hcmd]
  exact hawaits

theorem Serves.finish (h : Serves library threads s)
    (hran : ¬(s.awaited task = true ∧ task ∉ s.ran)) :
    Serves library threads { s with
      node := { s.node with processingPool := s.node.processingPool.finish task } } := by
  refine h.node_step (h.node.finish task) le_rfl (fun _ _ => rfl) (fun _ _ _ _ _ => rfl)
    (fun _ _ hle hlt => absurd hle (Nat.not_le.mpr hlt)) (fun _ hmem => hmem) ?_
  intro other hmem hawaited
  by_cases heq : other = task
  · subst heq
    exact .inl (by_contra fun hnot => hran ⟨hawaited, hnot⟩)
  · exact (h.live other hmem hawaited).imp_right (List.mem_erase_of_ne heq).mpr

theorem Serves.nodeStep (h : Serves library threads s) {step : NodeStep}
    (hnext : s.next library threads (.node step) = some t) : Serves library threads t := by
  cases step with
  | submitCommand commands =>
      obtain ⟨node, hnode, rfl⟩ := Option.map_eq_some_iff.mp hnext
      obtain ⟨hpassed, heq⟩ := Option.ite_none_right_eq_some.mp hnode
      obtain rfl := Option.some.inj heq
      apply h.same_tasks (h.node.submitCommand commands _ _) rfl _ rfl rfl rfl
      intro number hlt
      exact List.getElem?_append_left (hlt.trans_le h.node.passed)
  | submitNext =>
      obtain ⟨node, hnode, rfl⟩ := Option.map_eq_some_iff.mp hnext
      obtain ⟨cmd, hcmd, rfl⟩ := Option.map_eq_some_iff.mp hnode
      exact h.submitNext hcmd
  | throwNext =>
      obtain ⟨node, hnode, rfl⟩ := Option.map_eq_some_iff.mp hnext
      obtain ⟨-, heq⟩ := Option.ite_none_right_eq_some.mp hnode
      obtain rfl := Option.some.inj heq
      exact h.same_tasks h.node.throwNext rfl (fun _ => List.getElem?_take_of_lt) rfl rfl rfl
  | query type =>
      have hmap : (s.node.next threads (.query type)).map (fun node => { s with node }) = some t :=
        hnext
      obtain ⟨node, hnode, rfl⟩ := Option.map_eq_some_iff.mp hmap
      obtain rfl := Option.some.inj hnode
      exact h.same_tasks (h.node.query type) rfl (fun _ _ => rfl) rfl rfl rfl
  | dequeue =>
      obtain ⟨node, hnode, rfl⟩ := Option.map_eq_some_iff.mp hnext
      obtain ⟨⟨task, pool⟩, hdequeue, rfl⟩ := Option.map_eq_some_iff.mp hnode
      exact h.dequeue hdequeue
  | detach task =>
      obtain ⟨hother, hmap⟩ := Option.ite_none_left_eq_some.mp hnext
      obtain ⟨node, hnode, rfl⟩ := Option.map_eq_some_iff.mp hmap
      obtain ⟨⟨hrunning, hcall, -⟩, heq⟩ := Option.ite_none_right_eq_some.mp hnode
      obtain rfl := Option.some.inj heq
      exact h.detach hother hrunning hcall
  | finish task =>
      obtain ⟨hran, hmap⟩ := Option.ite_none_left_eq_some.mp hnext
      obtain ⟨node, hnode, rfl⟩ := Option.map_eq_some_iff.mp hmap
      obtain ⟨-, heq⟩ := Option.ite_none_right_eq_some.mp hnode
      obtain rfl := Option.some.inj heq
      exact h.finish hran

/-! ## Tasks -/

/-- A task whose body has not run is the next one of a command without a reply. -/
theorem Serves.next_call (h : Serves library threads s)
    (hcmd : s.node.commands[task.number]? = some cmd) (hawaits : cmd.awaits = true)
    (hbegun : task ∈ s.node.begun) (hran : task ∉ s.ran) :
    s.repliesOf task.number = [] ∧ task.call = (tasksOf s.ran task.number).length := by
  have hdetached := h.node.pool.prefix_submitted.subset hbegun
  have hsound := h.command _ cmd (h.node.number_lt_passed hdetached) hcmd hawaits
  have hlt := h.node.call_lt hdetached
  rw [hsound.calls] at hlt
  have hnew : ¬ task.call < (tasksOf s.ran task.number).length := by
    intro hlt
    have hmem : task.call ∈ (tasksOf s.ran task.number).map WorkerTask.call := by
      rw [hsound.ran]
      exact List.mem_range.mpr hlt
    obtain ⟨other, hother, hcall⟩ := List.mem_map.mp hmem
    obtain ⟨hother, hnumber⟩ := List.mem_filter.mp hother
    rw [beq_iff_eq] at hnumber
    -- the command gives both tasks their worker
    obtain ⟨cmd', hcmd', hworker⟩ := h.node.worker task hdetached
    obtain ⟨cmd'', hcmd'', hworker'⟩ :=
      h.node.worker other (h.node.pool.prefix_submitted.subset (h.begun other hother))
    rw [hnumber, hcmd'] at hcmd''
    obtain rfl := Option.some.inj hcmd''
    have heq : other = task := by
      obtain ⟨number, call, worker⟩ := other
      obtain ⟨number', call', worker'⟩ := task
      obtain rfl := Option.some.inj (hworker.symm.trans hworker')
      simp_all
    exact hran (heq ▸ hother)
  by_cases hreplies : s.repliesOf task.number = []
  · rw [if_pos hreplies] at hlt
    exact ⟨hreplies, by omega⟩
  · rw [if_neg hreplies] at hlt
    exact absurd hlt hnew

theorem tasksOf_ended (s : CommandService) (task : WorkerTask) (outcome : Option Replies)
    (number : ℕ) : tasksOf (s.ended task outcome).ran number =
      tasksOf s.ran number ++ if task.number = number then [task] else [] := by
  have hran : (s.ended task outcome).ran = s.ran ++ [task] := by cases outcome <;> rfl
  rw [hran, NodeController.tasksOf_snoc]
  by_cases hnumber : task.number = number <;> simp [hnumber]

theorem repliesOf_ended (s : CommandService) (task : WorkerTask) (outcome : Option Replies)
    (number : ℕ) : (s.ended task outcome).repliesOf number =
      s.repliesOf number ++ if task.number = number then outcome.toList else [] := by
  cases outcome with
  | none => by_cases hnumber : task.number = number <;> simp [ended, repliesOf, hnumber]
  | some replies =>
      by_cases hnumber : task.number = number <;>
        simp [ended, repliesOf, List.filter_append, hnumber]

theorem calls_ended (s : CommandService) (task : WorkerTask) (outcome : Option Replies)
    (number : ℕ) : (s.ended task outcome).node.calls number = s.node.calls number +
      if task.number = number ∧ outcome = none then 1 else 0 := by
  cases outcome with
  | none => simpa [ended] using calls_detachTask s.node { task with call := task.call + 1 } number
  | some replies => simp [ended]

theorem node_ended (h : Detaches threads s.node) (hrunning : task ∈ s.node.processingPool.running)
    (hcall : task.call + 1 = s.node.calls task.number) (outcome : Option Replies) :
    Detaches threads (s.ended task outcome).node ∧
      (s.ended task outcome).node.begun = s.node.begun ∧
      (s.ended task outcome).node.passed = s.node.passed ∧
      (s.ended task outcome).node.commands = s.node.commands ∧
      (s.ended task outcome).node.processingPool.running = s.node.processingPool.running := by
  cases outcome with
  | none => exact ⟨h.detach hrunning hcall, rfl, rfl, rfl, rfl⟩
  | some replies => exact ⟨h, rfl, rfl, rfl, rfl⟩

/-- The body of the next task of a command, whose record it leaves sound. -/
theorem Serves.ended (h : Serves library threads s)
    (hcmd : s.node.commands[task.number]? = some cmd) (hawaits : cmd.awaits = true)
    (hrunning : task ∈ s.node.processingPool.running) (hran : task ∉ s.ran)
    {record : CommandRecord} {outcome : Option Replies}
    (hrecord : RecordSound library cmd record outcome.toList
      ((tasksOf s.ran task.number).length + 1)) :
    Serves library threads ((s.setRecord task.number record).ended task outcome) := by
  have hbegun := h.node.pool.taken task hrunning
  obtain ⟨hreplies, hcall⟩ := h.next_call hcmd hawaits hbegun hran
  have hlt := h.node.number_lt_passed (h.node.pool.prefix_submitted.subset hbegun)
  have hsound := h.command _ cmd hlt hcmd hawaits
  have hcalls : task.call + 1 = s.node.calls task.number := by
    rw [hsound.calls, if_pos hreplies, hcall]
  obtain ⟨hnode, hsame, hpassed, hcommands, hpool⟩ :=
    node_ended (s := s.setRecord task.number record) h.node hrunning hcalls outcome
  have hranEnded : ((s.setRecord task.number record).ended task outcome).ran = s.ran ++ [task] := by
    cases outcome <;> rfl
  have hrecords : ((s.setRecord task.number record).ended task outcome).records =
      Function.update s.records task.number record := by
    cases outcome <;> rfl
  have htasks (number : ℕ) : tasksOf ((s.setRecord task.number record).ended task outcome).ran
      number = tasksOf s.ran number ++ if task.number = number then [task] else [] :=
    tasksOf_ended ..
  have hreplied (number : ℕ) : ((s.setRecord task.number record).ended task outcome).repliesOf
      number = s.repliesOf number ++ if task.number = number then outcome.toList else [] :=
    repliesOf_ended ..
  refine ⟨hnode, ?_, ?_, ?_, ?_⟩
  · intro other hmem
    rw [hranEnded] at hmem
    rw [hsame]
    rcases List.mem_append.mp hmem with hmem | hmem
    · exact h.begun other hmem
    · obtain rfl := List.mem_singleton.mp hmem
      exact hbegun
  · intro other hmem hawaited
    rw [hsame] at hmem
    rw [awaited, hcommands] at hawaited
    rw [hranEnded, hpool]
    exact (h.live other hmem hawaited).imp_left (List.mem_append_left _)
  · intro number hle
    rw [hpassed] at hle
    have hne : task.number ≠ number := by
      rintro rfl
      exact absurd hle (Nat.not_le.mpr hlt)
    rw [htasks, hreplied, hrecords, if_neg hne, if_neg hne, Function.update_of_ne (Ne.symm hne),
      List.append_nil, List.append_nil]
    exact h.fresh number hle
  · intro number other hnumber hother hawaits'
    rw [hpassed] at hnumber
    rw [hcommands] at hother
    have hcallsEnded : ((s.setRecord task.number record).ended task outcome).node.calls number =
        s.node.calls number + if task.number = number ∧ outcome = none then 1 else 0 :=
      calls_ended ..
    by_cases hnumber' : task.number = number
    · subst hnumber'
      obtain rfl := Option.some.inj (hcmd.symm.trans hother)
      refine ⟨?_, ?_, ?_⟩
      · rw [htasks, if_pos rfl, List.map_append, hsound.ran, List.length_append,
          List.length_singleton, List.range_succ, ← hcall]
        rfl
      · rw [hcallsEnded, htasks, hreplied, hsound.calls, hreplies]
        cases outcome <;> simp
      · rw [htasks, hreplied, hrecords, hreplies, if_pos rfl, if_pos rfl, Function.update_self,
          List.length_append]
        exact hrecord
    · obtain ⟨hranOther, hcallsOther, hrecordOther⟩ :=
        h.command number other hnumber hother hawaits'
      refine ⟨?_, ?_, ?_⟩
      · rw [htasks, if_neg hnumber', List.append_nil]
        exact hranOther
      · rw [hcallsEnded, htasks, hreplied, if_neg hnumber', if_neg hnumber',
          if_neg (fun h => hnumber' h.1), List.append_nil, List.append_nil]
        exact hcallsOther
      · rw [htasks, hreplied, hrecords, if_neg hnumber', if_neg hnumber',
          Function.update_of_ne (Ne.symm hnumber'), List.append_nil, List.append_nil]
        exact hrecordOther

/-- The body of a task. -/
theorem Serves.runTask (h : Serves library threads s)
    (hcmd : s.node.commands[task.number]? = some cmd) (hawaits : cmd.awaits = true)
    (hrunning : task ∈ s.node.processingPool.running) (hran : task ∉ s.ran)
    {channelMap : String → Option String}
    (hrun : runTask library s cmd task now channelMap = some t) : Serves library threads t := by
  have hbegun := h.node.pool.taken task hrunning
  obtain ⟨hreplies, hcall⟩ := h.next_call hcmd hawaits hbegun hran
  have hlt := h.node.number_lt_passed (h.node.pool.prefix_submitted.subset hbegun)
  have hrecord := (h.command _ cmd hlt hcmd hawaits).record
  rw [hreplies, ← hcall] at hrecord
  rw [CommandService.runTask] at hrun
  split at hrun
  case h_1 hzero =>
    obtain rfl := Option.some.inj hrun
    apply h.ended hcmd hawaits hrunning hran
    rw [hzero] at hrecord
    rw [← hcall, hzero]
    exact hrecord.begin hawaits ⟨now, channelMap⟩
  case h_2 =>
    split at hrun
    case h_1 start op hstart hop =>
      obtain rfl := Option.some.inj hrun
      apply h.ended hcmd hawaits hrunning hran
      rw [← hcall]
      exact hrecord.poll hstart hop now
    case h_2 => cases hrun

theorem Serves.notify (h : Serves library threads s) {op : CommandOperation}
    (hop : (s.records number).op = some op) (notice : GetNotice) :
    Serves library threads (s.setRecord number { s.records number with
      op := some (op.notify notice), notices := (s.records number).notices ++ [notice] }) := by
  refine ⟨h.node, h.begun, h.live, ?_, ?_⟩
  · intro other hle
    obtain ⟨hran, hreplies, hrecord⟩ := h.fresh other hle
    have hne : other ≠ number := by
      rintro rfl
      rw [hrecord] at hop
      cases hop
    exact ⟨hran, hreplies, (Function.update_of_ne hne ..).trans hrecord⟩
  · intro other cmd hlt hcmd hawaits
    obtain ⟨hran, hcalls, hrecord⟩ := h.command other cmd hlt hcmd hawaits
    refine ⟨hran, hcalls, ?_⟩
    change RecordSound library cmd (Function.update s.records number _ other) (s.repliesOf other) _
    by_cases hother : other = number
    · subst hother
      rw [Function.update_self]
      exact hrecord.notify hop notice
    · rw [Function.update_of_ne hother]
      exact hrecord

theorem Serves.next (h : Serves library threads s) {step : CommandStep}
    (hnext : s.next library threads step = some t) : Serves library threads t := by
  cases step with
  | node step => exact h.nodeStep hnext
  | run task now channelMap =>
      rw [CommandService.next] at hnext
      split at hnext
      · cases hnext
      · obtain ⟨⟨hawaits, hrunning, hran⟩, hrun⟩ := Option.ite_none_right_eq_some.mp hnext
        apply h.runTask _ hawaits hrunning hran hrun
        assumption
  | notify number notice =>
      rw [CommandService.next] at hnext
      split at hnext
      · cases hnext
      · obtain rfl := Option.some.inj hnext
        apply h.notify
        assumption

/-! ## Runs -/

/-- A put or a get that has begun has led to what `processCommand` leads to for its own polls, and
while that is nothing a task of it is in the pool and has not run. -/
structure Answers (library : WorkerLibrary) (threads : ℕ) (s : CommandService) : Prop where
  dispatched : Dispatched threads s.node
  alone : ∀ number cmd start, number < s.node.passed → s.node.commands[number]? = some cmd →
    cmd.awaits = true → (s.records number).start = some start →
      s.repliesOf number = (processCommand library cmd start (s.records number).polls).toList
  silent : ∀ number cmd, number < s.node.passed → s.node.commands[number]? = some cmd →
    cmd.awaits = true → (s.records number).start = none → s.repliesOf number = []
  carried : ∀ number cmd, number < s.node.passed → s.node.commands[number]? = some cmd →
    cmd.awaits = true → s.repliesOf number = [] → ∃ task, task.number = number ∧
      task ∈ s.node.processingPool.queue ++ s.node.processingPool.running ∧ task ∉ s.ran

theorem Serves.answers (h : Serves library threads s) : Answers library threads s where
  dispatched := h.node.dispatched
  alone := fun number cmd start hlt hcmd hawaits hstart =>
    ((h.command number cmd hlt hcmd hawaits).record.started start hstart).2
  silent := fun number cmd hlt hcmd hawaits hstart =>
    ((h.command number cmd hlt hcmd hawaits).record.unstarted hstart).2.1
  carried := by
    intro number cmd hlt hcmd hawaits hreplies
    have hsound := h.command number cmd hlt hcmd hawaits
    have hcalls := hsound.calls
    rw [if_pos hreplies] at hcalls
    have hmem : (tasksOf s.ran number).length ∈
        (tasksOf s.node.detached number).map WorkerTask.call := by
      rw [h.node.calls, hcalls]
      exact List.mem_range.mpr (Nat.lt_succ_self _)
    obtain ⟨task, htask, hcall⟩ := List.mem_map.mp hmem
    obtain ⟨hdetached, hnumber⟩ := List.mem_filter.mp htask
    rw [beq_iff_eq] at hnumber
    have hran : task ∉ s.ran := by
      intro hran
      have hin : task.call ∈ (tasksOf s.ran number).map WorkerTask.call :=
        List.mem_map_of_mem (List.mem_filter.mpr ⟨hran, beq_iff_eq.mpr hnumber⟩)
      rw [hsound.ran, List.mem_range, hcall] at hin
      exact lt_irrefl _ hin
    refine ⟨task, hnumber, ?_, hran⟩
    rw [← h.node.pool.fifo] at hdetached
    rcases List.mem_append.mp hdetached with hbegun | hqueue
    · have hawaited : s.awaited task = true := by
        rw [awaited, hnumber, hcmd]
        exact hawaits
      exact List.mem_append_right _ ((h.live task hbegun hawaited).resolve_left hran)
    · exact List.mem_append_left _ hqueue

/-- Whatever the order in which the consumer, the threads of the pool and EPICS take their steps: a
put or a get comes to an end (a message, none, or an exception) as if it were the only command, at
most once, and is not forgotten before. -/
theorem answers_of_run {steps : List CommandStep}
    (h : AnyRun (next library threads) {} steps s) : Answers library threads s :=
  (h.invariant (I := fun _ s => Serves library threads s) (serves_start threads)
    fun hs _ hnext => hs.next hnext).answers

/-- A get that EPICS does not answer is replied to behind a later one whose channel has no name. -/
theorem answers_of_run_malformed : ∃ steps s,
    AnyRun (next ⟨mapCodec, mapUnpack, fun _ _ => .error .thrown⟩ 1) {} steps s ∧
    s.replied.map Prod.fst = [1, 0] ∧ s.ran = [⟨0, 0, .get⟩, ⟨1, 0, .get⟩, ⟨0, 1, .get⟩] ∧
      Answers ⟨mapCodec, mapUnpack, fun _ _ => .error .thrown⟩ 1 s := by
  let library : WorkerLibrary := ⟨mapCodec, mapUnpack, fun _ _ => .error .thrown⟩
  let command := MapToCommand.command []
  obtain ⟨s, hrun, hcheck⟩ := exists_run (next library 1) (fun _ _ => True) {}
    [.node (.submitCommand [.get ⟨command, "pva://x"⟩, .get ⟨command, "x"⟩]),
      .node .submitNext, .node .submitNext,
      .node .dequeue, .run ⟨0, 0, .get⟩ 0 (fun _ => none), .node (.finish ⟨0, 0, .get⟩),
      .node .dequeue, .run ⟨1, 0, .get⟩ 5 (fun _ => none), .node (.finish ⟨1, 0, .get⟩),
      .notify 0 ⟨false, .connect true⟩,
      .node .dequeue, .run ⟨0, 1, .get⟩ 10000000001 (fun _ => none)]
    (fun s => s.replied.map Prod.fst == [1, 0] &&
      s.ran == [⟨0, 0, .get⟩, ⟨1, 0, .get⟩, ⟨0, 1, .get⟩])
    (by decide +kernel)
  simp only [Bool.and_eq_true, beq_iff_eq] at hcheck
  exact ⟨_, s, hrun, hcheck.1, hcheck.2, answers_of_run hrun⟩

end CommandService

end K2eg
