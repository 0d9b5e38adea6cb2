import K2eg.Foundation.Interleaving
import K2eg.Model.NodeController
import Mathlib.Data.List.Nodup
import Mathlib.Data.List.Range

/-! # The dispatch of the commands

The threads of the pool begin the commands in the order in which they were submitted, each once and
in the worker of its type; the tasks that a worker submits itself follow one after the other. -/

namespace K2eg

open Interleaving

/-! ## The registry -/

namespace ObjectByTypeFactory

variable {T C : Type*} [DecidableEq T] {factory : ObjectByTypeFactory T C} {type other : T}

/-- A lookup does not change what any lookup yields, only what a later registration does. -/
theorem resolve_resolve (factory : ObjectByTypeFactory T C) (type other : T) :
    ((factory.resolve type).2.resolve other).1 = (factory.resolve other).1 := by
  cases htype : factory.typedInstances type with
  | some object => simp [resolve, htype]
  | none =>
      by_cases hother : other = type
      · simp [resolve, htype, hother]
      · cases hinstance : factory.typedInstances other <;>
          simp [resolve, htype, hother, hinstance]

end ObjectByTypeFactory

namespace NodeController

/-- The worker of a type, where there is one. -/
def workerFor : CommandType → Option NodeWorker
  | .monitor | .multiMonitor => some .monitor
  | .get => some .get
  | .put => some .put
  | .snapshot | .repeatingSnapshot | .repeatingSnapshotStop | .repeatingSnapshotTrigger =>
    some .snapshot
  | .info | .unknown => none

theorem start_resolve (type : CommandType) :
    (start.workerResolver.resolve type).1 = workerFor type := by
  cases type <;> rfl

variable {threads : ℕ} {s t : NodeController} {step : NodeStep} {steps : List NodeStep}
  {cmd : ConstCommand} {task : WorkerTask}

/-- The task is that of `processCommand`. -/
def first (task : WorkerTask) : Bool := task.call == 0

/-- There is a worker for the submitted command. -/
def served (commands : List ConstCommand) (number : ℕ) : Bool :=
  (commands[number]?).any fun cmd => (workerFor cmd.type).isSome

/-- The tasks of one command. -/
def tasksOf (tasks : List WorkerTask) (number : ℕ) : List WorkerTask :=
  tasks.filter fun task => task.number == number

/-- The threads begin the served commands in the order of their submission, each once and in the
worker of its type, and the further calls of a command one after the other. -/
structure Dispatched (threads : ℕ) (s : NodeController) : Prop where
  ordered : (s.begun.filter first).map WorkerTask.number ++
    (s.processingPool.queue.filter first).map WorkerTask.number =
      (List.range s.passed).filter (served s.commands)
  worker : ∀ task ∈ s.begun, ∃ cmd, s.commands[task.number]? = some cmd ∧
    workerFor cmd.type = some task.worker
  chained : ∀ number, (tasksOf s.begun number).map WorkerTask.call <+: List.range (s.calls number)
  once : s.begun.Nodup
  bounded : s.processingPool.running.length ≤ threads

/-! ## The invariant -/

/-- What the pool has been given: the served commands that `submitCommand` has gone through, with
the calls of each one numbered. -/
structure Detaches (threads : ℕ) (s : NodeController) : Prop where
  resolver : ∀ type, (s.workerResolver.resolve type).1 = workerFor type
  pool : TaskPool.Serves threads s.detached s.begun s.processingPool
  passed : s.passed ≤ s.commands.length
  firsts : (s.detached.filter first).map WorkerTask.number =
    (List.range s.passed).filter (served s.commands)
  calls : ∀ number, (tasksOf s.detached number).map WorkerTask.call = List.range (s.calls number)
  worker : ∀ task ∈ s.detached, ∃ cmd, s.commands[task.number]? = some cmd ∧
    workerFor cmd.type = some task.worker

theorem tasksOf_snoc (tasks : List WorkerTask) (task : WorkerTask) (number : ℕ) :
    tasksOf (tasks ++ [task]) number =
      if task.number = number then tasksOf tasks number ++ [task] else tasksOf tasks number := by
  by_cases hnumber : task.number = number <;> simp [tasksOf, hnumber]

theorem submitNext_commands (s : NodeController) (cmd : ConstCommand) :
    (s.submitNext cmd).commands = s.commands := by
  rw [submitNext]
  rcases s.workerResolver.resolve cmd.type with ⟨worker, workerResolver⟩
  cases worker <;> rfl

/-- Commands that are submitted later do not matter for those that have been passed. -/
theorem filter_served_append {commands later : List ConstCommand} {passed : ℕ}
    (h : passed ≤ commands.length) :
    (List.range passed).filter (served (commands ++ later)) =
      (List.range passed).filter (served commands) := by
  refine List.filter_congr fun number hmem => ?_
  rw [served, served, List.getElem?_append_left ((List.mem_range.mp hmem).trans_le h)]

namespace Detaches

theorem start : Detaches threads start where
  resolver := start_resolve
  pool := .empty threads
  passed := Nat.zero_le _
  firsts := rfl
  calls := fun _ => rfl
  worker := nofun

/-- A first task has the number of a command that has been passed. -/
theorem number_lt (h : Detaches threads s) (hmem : task ∈ s.detached) (hfirst : first task = true) :
    task.number < s.passed := by
  have hnumber : task.number ∈ (s.detached.filter first).map WorkerTask.number :=
    List.mem_map_of_mem (List.mem_filter.mpr ⟨hmem, hfirst⟩)
  rw [h.firsts] at hnumber
  exact List.mem_range.mp (List.mem_filter.mp hnumber).1

/-- The calls of a command are below their number. -/
theorem call_lt (h : Detaches threads s) (hmem : task ∈ s.detached) :
    task.call < s.calls task.number := by
  have hcall : task.call ∈ (tasksOf s.detached task.number).map WorkerTask.call :=
    List.mem_map_of_mem (List.mem_filter.mpr ⟨hmem, beq_self_eq_true _⟩)
  rwa [h.calls, List.mem_range] at hcall

/-- There are no tasks of a command that has not been passed. -/
theorem calls_passed (h : Detaches threads s) : s.calls s.passed = 0 := by
  by_contra hne
  have hzero : 0 ∈ (tasksOf s.detached s.passed).map WorkerTask.call := by
    rw [h.calls]
    exact List.mem_range.mpr (Nat.pos_of_ne_zero hne)
  obtain ⟨task, hmem, hcall⟩ := List.mem_map.mp hzero
  obtain ⟨hdetached, hnumber⟩ := List.mem_filter.mp hmem
  have hlt := h.number_lt hdetached (by simp [first, hcall])
  rw [beq_iff_eq] at hnumber
  omega

theorem submitCommand (h : Detaches threads s) (commands : List ConstCommand) (batch count : ℕ) :
    Detaches threads { s with
      commands := s.commands ++ commands, batch, submittedCommand := count } where
  resolver := h.resolver
  pool := h.pool
  passed := h.passed.trans (by simp)
  firsts := h.firsts.trans (filter_served_append h.passed).symm
  calls := h.calls
  worker := by
    intro task hmem
    obtain ⟨cmd, hcmd, hworker⟩ := h.worker task hmem
    have hlt := (List.getElem?_eq_some_iff.mp hcmd).1
    exact ⟨cmd, (List.getElem?_append_left hlt).trans hcmd, hworker⟩

theorem query (h : Detaches threads s) (type : CommandType) :
    Detaches threads { s with workerResolver := (s.workerResolver.resolve type).2 } :=
  { h with resolver := fun other =>
      (ObjectByTypeFactory.resolve_resolve _ type other).trans (h.resolver other) }

/-- A task is detached, as the next one of its command. -/
theorem detachTask (h : Detaches threads s) {passed : ℕ} (hpassed : passed ≤ s.commands.length)
    (hcall : task.call = s.calls task.number)
    (hworker : ∃ cmd, s.commands[task.number]? = some cmd ∧ workerFor cmd.type = some task.worker)
    (hfirsts : (List.range passed).filter (served s.commands) =
      (List.range s.passed).filter (served s.commands) ++
        if first task then [task.number] else []) :
    Detaches threads ({ s with passed }.detachTask task) where
  resolver := h.resolver
  pool := by
    apply h.pool.submit
    intro hmem
    have hlt := h.call_lt hmem
    omega
  passed := hpassed
  firsts := by
    change ((s.detached ++ [task]).filter first).map WorkerTask.number = _
    rw [List.filter_append, List.map_append, h.firsts]
    refine Eq.trans ?_ hfirsts.symm
    cases hfirst : first task <;> simp [hfirst]
  calls := by
    intro number
    have hcount : ({ s with passed }.detachTask task).calls number =
        s.calls number + if task.number = number then 1 else 0 := by
      change (s.detached ++ [task]).countP _ = _
      by_cases hnumber : task.number = number <;>
        simp [List.countP_append, NodeController.calls, hnumber]
    change (tasksOf (s.detached ++ [task]) number).map WorkerTask.call = _
    rw [hcount, tasksOf_snoc]
    by_cases hnumber : task.number = number
    · subst hnumber
      rw [if_pos rfl, if_pos rfl, List.map_append, h.calls, List.range_succ, ← hcall]
      rfl
    · rw [if_neg hnumber, if_neg hnumber, h.calls, Nat.add_zero]
  worker := by
    intro other hmem
    rcases List.mem_append.mp hmem with hmem | hmem
    · exact h.worker other hmem
    · obtain rfl := List.mem_singleton.mp hmem
      exact hworker

theorem filter_range_succ (passed : ℕ) (P : ℕ → Bool) :
    (List.range (passed + 1)).filter P =
      (List.range passed).filter P ++ if P passed then [passed] else [] := by
  cases hP : P passed <;> simp [List.range_succ, hP]

theorem submitNext (h : Detaches threads s) (hcmd : s.commands[s.passed]? = some cmd) :
    Detaches threads (s.submitNext cmd) := by
  have hpassed : s.passed + 1 ≤ s.commands.length := (List.getElem?_eq_some_iff.mp hcmd).1
  have hserved : served s.commands s.passed = (workerFor cmd.type).isSome := by
    rw [served, hcmd, Option.any_some]
  have hquery := h.query cmd.type
  rw [NodeController.submitNext]
  simp only [h.resolver]
  cases hworker : workerFor cmd.type with
  | some worker =>
      refine hquery.detachTask hpassed h.calls_passed.symm ⟨cmd, hcmd, hworker⟩ ?_
      rw [filter_range_succ, hserved, hworker]
      rfl
  | none =>
      refine { hquery with passed := hpassed, firsts := h.firsts.trans ?_ }
      rw [filter_range_succ, hserved, hworker]
      simp

/-- Every task is one of a command that has been passed. -/
theorem number_lt_passed (h : Detaches threads s) (hmem : task ∈ s.detached) :
    task.number < s.passed := by
  have hzero : 0 ∈ (tasksOf s.detached task.number).map WorkerTask.call := by
    rw [h.calls]
    exact List.mem_range.mpr (Nat.zero_lt_of_lt (h.call_lt hmem))
  obtain ⟨firstTask, hfirst, hcall⟩ := List.mem_map.mp hzero
  obtain ⟨hdetached, hnumber⟩ := List.mem_filter.mp hfirst
  rw [beq_iff_eq] at hnumber
  rw [← hnumber]
  exact h.number_lt hdetached (by simp [first, hcall])

/-- The commands that have not been passed are dropped. -/
theorem throwNext (h : Detaches threads s) :
    Detaches threads { s with commands := s.commands.take s.passed } where
  resolver := h.resolver
  pool := h.pool
  passed := by
    rw [List.length_take]
    exact le_min le_rfl h.passed
  firsts := by
    refine h.firsts.trans (List.filter_congr fun number hmem => ?_)
    rw [served, served, List.getElem?_take_of_lt (List.mem_range.mp hmem)]
  calls := h.calls
  worker := by
    intro task hmem
    rw [List.getElem?_take_of_lt (h.number_lt_passed hmem)]
    exact h.worker task hmem

theorem dequeue (h : Detaches threads s) {pool : TaskPool WorkerTask}
    (hdequeue : s.processingPool.dequeue threads = some (task, pool)) :
    Detaches threads { s with processingPool := pool, begun := s.begun ++ [task] } :=
  { h with pool := h.pool.dequeue hdequeue }

/-- A running task submits the next one of its command. -/
theorem detach (h : Detaches threads s) (hrunning : task ∈ s.processingPool.running)
    (hcall : task.call + 1 = s.calls task.number) :
    Detaches threads (s.detachTask { task with call := task.call + 1 }) := by
  have hmem := h.pool.prefix_submitted.subset (h.pool.taken task hrunning)
  refine h.detachTask h.passed hcall (h.worker task hmem) ?_
  simp [first]

theorem finish (h : Detaches threads s) (task : WorkerTask) :
    Detaches threads { s with processingPool := s.processingPool.finish task } :=
  { h with pool := h.pool.finish task }

theorem next (h : Detaches threads s) (hnext : s.next threads step = some t) :
    Detaches threads t := by
  cases step with
  | submitCommand commands =>
      obtain ⟨-, heq⟩ := Option.ite_none_right_eq_some.mp hnext
      obtain rfl := Option.some.inj heq
      exact h.submitCommand commands _ _
  | submitNext =>
      obtain ⟨cmd, hcmd, rfl⟩ := Option.map_eq_some_iff.mp hnext
      exact h.submitNext hcmd
  | throwNext =>
      obtain ⟨-, heq⟩ := Option.ite_none_right_eq_some.mp hnext
      obtain rfl := Option.some.inj heq
      exact h.throwNext
  | query type =>
      obtain rfl := Option.some.inj hnext
      exact h.query type
  | dequeue =>
      obtain ⟨⟨task, pool⟩, hdequeue, rfl⟩ := Option.map_eq_some_iff.mp hnext
      exact h.dequeue hdequeue
  | detach task =>
      obtain ⟨⟨hrunning, hcall, -⟩, heq⟩ := Option.ite_none_right_eq_some.mp hnext
      obtain rfl := Option.some.inj heq
      exact h.detach hrunning hcall
  | finish task =>
      obtain ⟨-, heq⟩ := Option.ite_none_right_eq_some.mp hnext
      obtain rfl := Option.some.inj heq
      exact h.finish task

theorem dispatched (h : Detaches threads s) : Dispatched threads s where
  ordered := by rw [← List.map_append, ← List.filter_append, h.pool.fifo, h.firsts]
  worker := fun task hmem => h.worker task (h.pool.prefix_submitted.subset hmem)
  chained := by
    intro number
    rw [← h.calls]
    exact (h.pool.prefix_submitted.filter _).map _
  once := h.pool.once.sublist h.pool.prefix_submitted.sublist
  bounded := h.pool.bounded

end Detaches

/-! ## Runs -/

theorem detaches_of_run (h : AnyRun (next threads) start steps s) : Detaches threads s :=
  h.invariant (I := fun _ s => Detaches threads s) .start fun hs _ hnext => hs.next hnext

/-- Whatever the order of the consumer, the other callers and the threads of the pool: no command is
lost, begun twice, begun before one that was submitted earlier, or begun in another worker than that
of its type. -/
theorem dispatched_of_run (h : AnyRun (next threads) start steps s) : Dispatched threads s :=
  (detaches_of_run h).dispatched

/-- An info command finds no worker; a get behind it begins and submits its next task. -/
theorem dispatched_of_run_get : ∃ steps s, AnyRun (next 2) start steps s ∧
    s.begun = [⟨1, 0, .get⟩] ∧ s.processingPool.queue = [⟨1, 1, .get⟩] ∧ Dispatched 2 s := by
  let command := MapToCommand.command []
  obtain ⟨s, hrun, hcheck⟩ := exists_run (next 2) (fun _ _ => True) start
    [.submitCommand [.info ⟨command, "a"⟩, .get ⟨command, "a"⟩], .submitNext, .submitNext, .dequeue,
      .detach ⟨1, 0, .get⟩, .finish ⟨1, 0, .get⟩]
    (fun s => s.begun == [⟨1, 0, .get⟩] && s.processingPool.queue == [⟨1, 1, .get⟩])
    (by decide +kernel)
  simp only [Bool.and_eq_true, beq_iff_eq] at hcheck
  exact ⟨_, s, hrun, hcheck.1, hcheck.2, dispatched_of_run hrun⟩

end NodeController

end K2eg
