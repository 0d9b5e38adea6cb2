import K2eg.Verification.Commands.Answers

/-! # Replies in time

The pool takes its tasks in their order, and a task that finds its time over ends its command. So a
put or a get that has begun comes to its end when the tasks that were in front of it have been
taken, once its own task runs behind the timeout. -/

namespace K2eg

open Interleaving NodeController

/-- `isTimeout` of an operation that was begun then. -/
def CommandStart.Expired (start : CommandStart) (now : Int) : Prop :=
  now - start.begin > 10000 * 1000000

namespace CommandService

variable {library : WorkerLibrary} {threads number : ℕ} {cmd : ConstCommand} {start : CommandStart}
  {s t u : CommandService}

/-- A poll behind the timeout ends the command. -/
theorem processCommand_isSome (hawaits : cmd.awaits = true) {polls : List (Poll GetNotice)}
    (h : ∃ poll ∈ polls, start.Expired poll.now) :
    (processCommand library cmd start polls).isSome = true := by
  cases cmd with
  | get cmd =>
      rw [processCommand, GetCommandWorker.processCommand]
      split
      · rfl
      · exact checkCompletion_isSome h
  | put cmd =>
      have hpolls : ∃ poll ∈ polls.map fun poll =>
          (⟨poll.now, poll.notices.map GetNotice.notice⟩ : Poll OperationNotice),
          poll.now - start.begin > 10000 * 1000000 := by
        obtain ⟨poll, hmem, hexpired⟩ := h
        exact ⟨_, List.mem_map_of_mem hmem, hexpired⟩
      rw [processCommand, PutCommandWorker.processCommand]
      split
      · rfl
      · rfl
      · split
        · rfl
        · rfl
        · split
          · rfl
          · exact checkCompletion_isSome hpolls
        · rfl
  | _ => cases hawaits

/-! ## What a step leaves -/

/-- The commands that have been passed stay, and the pool keeps the order of its tasks. -/
structure Grown (before after : NodeController) : Prop where
  detached : before.detached <+: after.detached
  passed : before.passed ≤ after.passed
  commands : ∀ number < before.passed, after.commands[number]? = before.commands[number]?

theorem Grown.refl (node : NodeController) : Grown node node :=
  ⟨List.prefix_refl _, le_rfl, fun _ _ => rfl⟩

theorem Grown.trans {first second third : NodeController} (h : Grown first second)
    (h' : Grown second third) : Grown first third :=
  ⟨h.detached.trans h'.detached, h.passed.trans h'.passed, fun number hlt =>
    (h'.commands number (hlt.trans_le h.passed)).trans (h.commands number hlt)⟩

theorem grown_detachTask (node : NodeController) (task : WorkerTask) :
    Grown node (node.detachTask task) :=
  ⟨List.prefix_append _ _, le_rfl, fun _ _ => rfl⟩

theorem grown_submitNext (node : NodeController) (cmd : ConstCommand) :
    Grown node (node.submitNext cmd) := by
  rw [submitNext]
  rcases node.workerResolver.resolve cmd.type with ⟨_ | worker, workerResolver⟩
  · exact ⟨List.prefix_refl _, Nat.le_succ _, fun _ _ => rfl⟩
  · exact ⟨List.prefix_append _ _, Nat.le_succ _, fun _ _ => rfl⟩

theorem grown_of_next {node after : NodeController} (hpassed : node.passed ≤ node.commands.length)
    {step : NodeStep} (hnext : node.next threads step = some after) : Grown node after := by
  cases step with
  | submitCommand commands =>
      obtain ⟨-, heq⟩ := Option.ite_none_right_eq_some.mp hnext
      obtain rfl := Option.some.inj heq
      exact ⟨List.prefix_refl _, le_rfl, fun number hlt =>
        List.getElem?_append_left (hlt.trans_le hpassed)⟩
  | submitNext =>
      obtain ⟨cmd, -, rfl⟩ := Option.map_eq_some_iff.mp hnext
      exact grown_submitNext node cmd
  | throwNext =>
      obtain ⟨-, heq⟩ := Option.ite_none_right_eq_some.mp hnext
      obtain rfl := Option.some.inj heq
      exact ⟨List.prefix_refl _, le_rfl, fun _ => List.getElem?_take_of_lt⟩
  | query type =>
      obtain rfl := Option.some.inj hnext
      exact ⟨List.prefix_refl _, le_rfl, fun _ _ => rfl⟩
  | dequeue =>
      obtain ⟨taken, -, rfl⟩ := Option.map_eq_some_iff.mp hnext
      exact ⟨List.prefix_refl _, le_rfl, fun _ _ => rfl⟩
  | detach task =>
      obtain ⟨-, heq⟩ := Option.ite_none_right_eq_some.mp hnext
      obtain rfl := Option.some.inj heq
      exact grown_detachTask node _
  | finish task =>
      obtain ⟨-, heq⟩ := Option.ite_none_right_eq_some.mp hnext
      obtain rfl := Option.some.inj heq
      exact ⟨List.prefix_refl _, le_rfl, fun _ _ => rfl⟩

/-- A step of the controller leaves the records alone. -/
theorem nodeStep_eq {step : NodeStep} (hnext : s.next library threads (.node step) = some t) :
    ∃ node, s.node.next threads step = some node ∧ t = { s with node } := by
  cases step with
  | detach task =>
      obtain ⟨-, hmap⟩ := Option.ite_none_left_eq_some.mp hnext
      obtain ⟨node, hnode, rfl⟩ := Option.map_eq_some_iff.mp hmap
      exact ⟨node, hnode, rfl⟩
  | finish task =>
      obtain ⟨-, hmap⟩ := Option.ite_none_left_eq_some.mp hnext
      obtain ⟨node, hnode, rfl⟩ := Option.map_eq_some_iff.mp hmap
      exact ⟨node, hnode, rfl⟩
  | query type =>
      have hmap : (s.node.next threads (.query type)).map (fun node => { s with node }) = some t :=
        hnext
      obtain ⟨node, hnode, rfl⟩ := Option.map_eq_some_iff.mp hmap
      exact ⟨node, hnode, rfl⟩
  | _ =>
      obtain ⟨node, hnode, rfl⟩ := Option.map_eq_some_iff.mp hnext
      exact ⟨node, hnode, rfl⟩

/-- The body of a task of a command that has begun is a poll. -/
theorem Serves.run_spec (h : Serves library threads s) {task : WorkerTask} {now : Int}
    {channelMap : String → Option String}
    (hnext : s.next library threads (.run task now channelMap) = some t) :
    ∃ record outcome, t = (s.setRecord task.number record).ended task outcome ∧
      ∀ start, (s.records task.number).start = some start → record.start = some start ∧
        record.polls = (s.records task.number).polls ++
          [⟨now, (s.records task.number).notices⟩] := by
  rw [CommandService.next] at hnext
  split at hnext
  case h_1 => cases hnext
  case h_2 cmd hcmd =>
    obtain ⟨⟨hawaits, hrunning, hran⟩, hrun⟩ := Option.ite_none_right_eq_some.mp hnext
    have hbegun := h.node.pool.taken task hrunning
    obtain ⟨-, hcall⟩ := h.next_call hcmd hawaits hbegun hran
    have hlt := h.node.number_lt_passed (h.node.pool.prefix_submitted.subset hbegun)
    have hrecord := (h.command _ cmd hlt hcmd hawaits).record
    rw [CommandService.runTask] at hrun
    split at hrun
    case h_1 hzero =>
      obtain rfl := Option.some.inj hrun
      refine ⟨_, _, rfl, fun start hstart => ?_⟩
      have hpos := (hrecord.started start hstart).1
      rw [← hcall, hzero] at hpos
      exact absurd hpos (lt_irrefl 0)
    case h_2 =>
      split at hrun
      case h_1 =>
        obtain rfl := Option.some.inj hrun
        exact ⟨_, _, rfl, fun start hstart => ⟨hstart, rfl⟩⟩
      case h_2 => cases hrun

theorem records_ended (s : CommandService) (task : WorkerTask) (outcome : Option Replies) :
    (s.ended task outcome).records = s.records := by
  cases outcome <;> rfl

theorem grown_ended (s : CommandService) (task : WorkerTask) (outcome : Option Replies) :
    Grown s.node (s.ended task outcome).node := by
  cases outcome with
  | none => exact grown_detachTask s.node _
  | some replies => exact .refl s.node

theorem replied_ended (s : CommandService) (task : WorkerTask) (outcome : Option Replies) :
    s.replied <+: (s.ended task outcome).replied := by
  cases outcome with
  | none => exact List.prefix_refl _
  | some replies => exact List.prefix_append _ _

/-- What the new record of a command has in common with the old one has not changed. -/
theorem setRecord_same {α : Type*} (s : CommandService) (number : ℕ) (f : CommandRecord → α)
    {record : CommandRecord} (hsame : f record = f (s.records number)) (other : ℕ) :
    f ((s.setRecord number record).records other) = f (s.records other) := by
  change f (Function.update s.records number record other) = _
  by_cases hother : other = number
  · subst hother
    rw [Function.update_self, hsame]
  · rw [Function.update_of_ne hother]

/-! ## A command that has begun -/

/-- The tasks of the command run when its time is over. -/
def Late (number : ℕ) (start : CommandStart) (_ : CommandService) : CommandStep → Prop
  | .run task now _ => task.number = number → start.Expired now
  | _ => True

/-- Since the first state no task of the command has run, or one that has found its time over. -/
structure Follows (library : WorkerLibrary) (threads number : ℕ) (start : CommandStart)
    (s u : CommandService) : Prop where
  serves : Serves library threads u
  grown : Grown s.node u.node
  replied : s.replied <+: u.replied
  started : (u.records number).start = some start
  looked : tasksOf u.ran number = tasksOf s.ran number ∨
    ∃ poll ∈ (u.records number).polls, start.Expired poll.now

theorem Follows.run (h : Follows library threads number start s u) {task : WorkerTask} {now : Int}
    {channelMap : String → Option String} (hlate : task.number = number → start.Expired now)
    (hnext : u.next library threads (.run task now channelMap) = some t) :
    Follows library threads number start s t := by
  have hserves := h.serves.next hnext
  obtain ⟨record, outcome, rfl, hrecord⟩ := h.serves.run_spec hnext
  refine ⟨hserves, ?_, ?_, ?_, ?_⟩
  · exact h.grown.trans (grown_ended (u.setRecord task.number record) task outcome)
  · exact h.replied.trans (replied_ended (u.setRecord task.number record) task outcome)
  · rw [records_ended]
    change (Function.update u.records task.number record number).start = some start
    by_cases hnumber : number = task.number
    · subst hnumber
      rw [Function.update_self]
      exact (hrecord start h.started).1
    · rw [Function.update_of_ne hnumber]
      exact h.started
  · rw [records_ended, tasksOf_ended]
    change tasksOf u.ran number ++ _ = tasksOf s.ran number ∨
      ∃ poll ∈ (Function.update u.records task.number record number).polls, start.Expired poll.now
    by_cases hnumber : number = task.number
    · subst hnumber
      rw [Function.update_self, (hrecord start h.started).2]
      exact .inr ⟨_, List.mem_append_right _ List.mem_cons_self, hlate rfl⟩
    · rw [Function.update_of_ne hnumber, if_neg (Ne.symm hnumber), List.append_nil]
      exact h.looked

theorem Follows.notify (h : Follows library threads number start s u) {other : ℕ}
    {notice : GetNotice} (hnext : u.next library threads (.notify other notice) = some t) :
    Follows library threads number start s t := by
  have hserves := h.serves.next hnext
  rw [CommandService.next] at hnext
  split at hnext
  · cases hnext
  · obtain rfl := Option.some.inj hnext
    refine ⟨hserves, h.grown, h.replied, ?_, ?_⟩
    · rw [setRecord_same u other CommandRecord.start ?_ number]
      · exact h.started
      · rfl
    · rw [setRecord_same u other CommandRecord.polls ?_ number]
      · exact h.looked
      · rfl

theorem Follows.next (h : Follows library threads number start s u) {step : CommandStep}
    (hlate : Late number start u step) (hnext : u.next library threads step = some t) :
    Follows library threads number start s t := by
  cases step with
  | node step =>
      have hserves := h.serves.next hnext
      obtain ⟨node, hnode, rfl⟩ := nodeStep_eq hnext
      exact ⟨hserves, h.grown.trans (grown_of_next h.serves.node.passed hnode), h.replied,
        h.started, h.looked⟩
  | run task now channelMap => exact h.run hlate hnext
  | notify other notice => exact h.notify hnext

/-- The tasks that were in the pool have been begun, once as many have been begun as waited. -/
theorem Follows.begun (h : Follows library threads number start s u)
    (hs : Serves library threads s)
    (hlength : s.node.begun.length + s.node.processingPool.queue.length ≤ u.node.begun.length)
    {task : WorkerTask}
    (hmem : task ∈ s.node.processingPool.queue ++ s.node.processingPool.running) :
    task ∈ u.node.begun := by
  have hdetached : s.node.begun ++ s.node.processingPool.queue <+: u.node.detached := by
    rw [hs.node.pool.fifo]
    exact h.grown.detached
  have hprefix : s.node.begun ++ s.node.processingPool.queue <+: u.node.begun := by
    apply List.prefix_of_prefix_length_le hdetached h.serves.node.pool.prefix_submitted
    rw [List.length_append]
    exact hlength
  rcases List.mem_append.mp hmem with hmem | hmem
  · exact hprefix.subset (List.mem_append_right _ hmem)
  · exact hprefix.subset (List.mem_append_left _ (hs.node.pool.taken task hmem))

/-- A put or a get that has begun: when as many tasks have been taken from the pool as waited in it,
and the tasks of the command that were taken have run behind the timeout, the command has come to
its end, once: the message, none, or the exception that `processCommand` leads to. -/
theorem replied_of_run {steps future : List CommandStep}
    (hrun : AnyRun (next library threads) {} steps s) (hlt : number < s.node.passed)
    (hcmd : s.node.commands[number]? = some cmd) (hawaits : cmd.awaits = true)
    (hstart : (s.records number).start = some start)
    (hfuture : Run (next library threads) (Late number start) s future t)
    (hlength : s.node.begun.length + s.node.processingPool.queue.length ≤ t.node.begun.length)
    (hidle : ∀ task ∈ t.node.processingPool.running, task.number = number → task ∈ t.ran) :
    ∃ replies, processCommand library cmd start (t.records number).polls = some replies ∧
      t.repliesOf number = [replies] := by
  have hs : Serves library threads s :=
    hrun.invariant (I := fun _ s => Serves library threads s) (serves_start threads)
      fun h _ hnext => h.next hnext
  have ht : Follows library threads number start s t :=
    hfuture.invariant (I := fun _ u => Follows library threads number start s u)
      ⟨hs, .refl s.node, List.prefix_refl _, hstart, .inl rfl⟩
      fun h hlate hnext => h.next hlate hnext
  have hcmd' : t.node.commands[number]? = some cmd := (ht.grown.commands number hlt).trans hcmd
  have hlt' : number < t.node.passed := hlt.trans_le ht.grown.passed
  have halone := ht.serves.answers.alone number cmd start hlt' hcmd' hawaits ht.started
  suffices hsome : (processCommand library cmd start (t.records number).polls).isSome = true by
    obtain ⟨replies, hreplies⟩ := Option.isSome_iff_exists.mp hsome
    exact ⟨replies, hreplies, by rw [halone, hreplies]; rfl⟩
  rcases ht.looked with hsame | hexpired
  · -- no task of the command has run, so there was none in the pool any more
    by_contra hnone
    have hempty : t.repliesOf number = [] := by
      rw [halone, Option.not_isSome_iff_eq_none.mp hnone]
      rfl
    have hreplies : s.repliesOf number = [] := by
      apply List.prefix_nil.mp
      rw [← hempty]
      exact (ht.replied.filter _).map _
    obtain ⟨task, hnumber, hmem, hran⟩ :=
      hs.answers.carried number cmd hlt hcmd hawaits hreplies
    have hbegun := ht.begun hs hlength hmem
    have hawaited : t.awaited task = true := by
      rw [awaited, hnumber, hcmd']
      exact hawaits
    have hranLater : task ∈ t.ran := by
      rcases ht.serves.live task hbegun hawaited with hmem | hmem
      · exact hmem
      · exact hidle task hmem hnumber
    have hin : task ∈ tasksOf t.ran number :=
      List.mem_filter.mpr ⟨hranLater, beq_iff_eq.mpr hnumber⟩
    rw [hsame] at hin
    exact hran (List.mem_filter.mp hin).1
  · exact processCommand_isSome hawaits hexpired

/-- A get that EPICS does not answer. -/
theorem replied_of_run_unanswered :
    let library : WorkerLibrary := ⟨mapCodec, mapUnpack, fun _ _ => .error .thrown⟩
    ∃ past s start future t, AnyRun (next library 1) {} past s ∧
      Run (next library 1) (Late 0 start) s future t ∧
      t.ran = [⟨0, 0, .get⟩, ⟨0, 1, .get⟩] ∧ ∃ replies, t.repliesOf 0 = [replies] := by
  intro library
  let past : List CommandStep :=
    [.node (.submitCommand [.get ⟨MapToCommand.command [], "pva://x"⟩]), .node .submitNext,
      .node .dequeue, .run ⟨0, 0, .get⟩ 0 (fun _ => none), .node (.finish ⟨0, 0, .get⟩)]
  let look : CommandStep := .run ⟨0, 1, .get⟩ 10000000001 fun _ => none
  obtain ⟨s, hs, hcheckS⟩ := exists_run (next library 1) (fun _ _ => True) {} past
    (fun s => s.node.passed == 1 && (s.node.commands[0]?).any ConstCommand.awaits &&
      ((s.records 0).start.map CommandStart.begin == some 0) &&
      s.node.begun.length + s.node.processingPool.queue.length == 2) (by decide +kernel)
  obtain ⟨t, ht, hcheckT⟩ := exists_run (next library 1) (fun _ _ => True) {}
    (past ++ [.node .dequeue] ++ [look])
    (fun t => t.ran == [⟨0, 0, .get⟩, ⟨0, 1, .get⟩] && t.node.begun.length == 2 &&
      t.node.processingPool.running.all t.ran.contains) (by decide +kernel)
  simp only [Bool.and_eq_true, beq_iff_eq, Option.any_eq_true, Option.map_eq_some_iff] at hcheckS
  obtain ⟨⟨⟨hpassed, cmd, hcmd, hawaits⟩, start, hstart, hbegin⟩, hlength⟩ := hcheckS
  simp only [Bool.and_eq_true, beq_iff_eq, List.all_eq_true, List.contains_iff_mem] at hcheckT
  obtain ⟨⟨hran, hbegun⟩, hidle⟩ := hcheckT
  obtain ⟨u, hu, -, hlook⟩ := ht.of_snoc
  obtain ⟨s', hs', -, hdequeue⟩ := hu.of_snoc
  obtain rfl := hs.deterministic hs'
  have hfuture : Run (next library 1) (Late 0 start) s [.node .dequeue, look] t := by
    refine (Run.nil.snoc trivial hdequeue).snoc (fun _ => ?_) hlook
    rw [CommandStart.Expired, hbegin]
    decide
  obtain ⟨replies, -, hreplies⟩ := replied_of_run hs (hpassed ▸ Nat.one_pos) hcmd hawaits hstart
    hfuture (by rw [hlength, hbegun]) fun task hmem _ => hidle task hmem
  exact ⟨past, s, start, _, t, hs, hfuture, hran, replies, hreplies⟩

end CommandService

end K2eg
