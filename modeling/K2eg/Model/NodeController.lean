import K2eg.Foundation.TaskPool
import K2eg.Model.MapToCommand
import Mathlib.Logic.Function.Basic

/-! # The node controller

`NodeController::submitCommand` resolves the worker of each command and gives it a task of the
processing pool. A worker that has to wait for EPICS submits the next task of its command itself. -/

namespace K2eg

/-- `ObjectByTypeFactory`: `typed_instances`, where `resolve` may have put a null pointer. -/
structure ObjectByTypeFactory (T C : Type*) where
  typedInstances : T → Option (Option C) := fun _ => none

namespace ObjectByTypeFactory

variable {T C : Type*} [DecidableEq T]

/-- `registerObjectInstance`: `insert` leaves what is there. -/
def registerObjectInstance (factory : ObjectByTypeFactory T C) (type : T) (object : C) :
    ObjectByTypeFactory T C :=
  match factory.typedInstances type with
  | some _ => factory
  | none => ⟨Function.update factory.typedInstances type (some (some object))⟩

/-- `resolve`: `operator[]` puts a null pointer where there is nothing. -/
def resolve (factory : ObjectByTypeFactory T C) (type : T) :
    Option C × ObjectByTypeFactory T C :=
  match factory.typedInstances type with
  | some object => (object, factory)
  | none => (none, ⟨Function.update factory.typedInstances type (some none)⟩)

end ObjectByTypeFactory

/-- The workers that the constructor makes. -/
inductive NodeWorker where
  | monitor | get | put | snapshot
  deriving DecidableEq, Repr

/-- The type that `parse` gives to a command. -/
def ConstCommand.type : ConstCommand → CommandType
  | .monitor _ => .monitor
  | .multiMonitor _ => .multiMonitor
  | .get _ => .get
  | .put _ => .put
  | .info _ => .info
  | .snapshot _ => .snapshot
  | .repeatingSnapshot _ => .repeatingSnapshot
  | .repeatingSnapshotStop _ => .repeatingSnapshotStop
  | .repeatingSnapshotTrigger _ _ => .repeatingSnapshotTrigger

/-- A task of the processing pool: the place of its command among the submitted ones, and which
call for the command it is. The first one is `processCommand`. -/
structure WorkerTask where
  number : ℕ
  call : ℕ
  worker : NodeWorker
  deriving DecidableEq, Repr

/-- The controller with its pool. Of the submitted commands `submitCommand` has gone through the
first `passed`; `batch` is the size of the vector it was called with. `detached` and `begun` are the
tasks that the pool was given and that its threads have taken. -/
structure NodeController where
  workerResolver : ObjectByTypeFactory CommandType NodeWorker
  processingPool : TaskPool WorkerTask := {}
  commands : List ConstCommand := []
  passed : ℕ := 0
  batch : ℕ := 0
  submittedCommand : ℕ := 0
  noWorkerFound : ℕ := 0
  detached : List WorkerTask := []
  begun : List WorkerTask := []

inductive NodeStep where
  | submitCommand (commands : List ConstCommand)
  /-- the body of the loop of `submitCommand` -/
  | submitNext
  /-- an exception leaves the loop before the next command has been given to the pool -/
  | throwNext
  /-- `isWorkerReady` or `getTaskRunning` -/
  | query (type : CommandType)
  | dequeue
  | detach (task : WorkerTask)
  | finish (task : WorkerTask)

namespace NodeController

/-- The controller behind its constructor. -/
def start : NodeController where
  workerResolver :=
    (((((((({} : ObjectByTypeFactory CommandType NodeWorker).registerObjectInstance
      .monitor .monitor).registerObjectInstance
      .multiMonitor .monitor).registerObjectInstance
      .get .get).registerObjectInstance
      .put .put).registerObjectInstance
      .snapshot .snapshot).registerObjectInstance
      .repeatingSnapshot .snapshot).registerObjectInstance
      .repeatingSnapshotTrigger .snapshot).registerObjectInstance
      .repeatingSnapshotStop .snapshot

/-- `detach_task`. -/
def detachTask (node : NodeController) (task : WorkerTask) : NodeController :=
  { node with
    processingPool := node.processingPool.submit task
    detached := node.detached ++ [task] }

/-- The tasks that there have been for a command. -/
def calls (node : NodeController) (number : ℕ) : ℕ :=
  node.detached.countP fun task => task.number == number

/-- The loop of `submitCommand` for the next command. Where no worker is found, the metric grows by
the size of the whole vector. -/
def submitNext (node : NodeController) (cmd : ConstCommand) : NodeController :=
  let (worker, workerResolver) := node.workerResolver.resolve cmd.type
  let node := { node with workerResolver, passed := node.passed + 1 }
  match worker with
  | some worker => node.detachTask ⟨node.passed - 1, 0, worker⟩
  | none => { node with noWorkerFound := node.noWorkerFound + node.batch }

/-- The commands whose workers submit themselves again. -/
def resubmits : ConstCommand → Bool
  | .get _ | .put _ | .snapshot _ => true
  | _ => false

/-- The step of the consumer, of another caller or of a thread of the pool. -/
def next (threads : ℕ) (node : NodeController) : NodeStep → Option NodeController
  | .submitCommand commands =>
    if node.passed = node.commands.length then
      some { node with
        commands := node.commands ++ commands
        batch := commands.length
        submittedCommand := node.submittedCommand + commands.length }
    else none
  | .submitNext => node.commands[node.passed]?.map node.submitNext
  | .throwNext =>
    if node.passed < node.commands.length then
      some { node with commands := node.commands.take node.passed }
    else none
  | .query type => some { node with workerResolver := (node.workerResolver.resolve type).2 }
  | .dequeue =>
    (node.processingPool.dequeue threads).map fun taken =>
      { node with processingPool := taken.2, begun := node.begun ++ [taken.1] }
  | .detach task =>
    if task ∈ node.processingPool.running ∧ task.call + 1 = node.calls task.number ∧
        (node.commands[task.number]?).any resubmits = true then
      some (node.detachTask { task with call := task.call + 1 })
    else none
  | .finish task =>
    if task ∈ node.processingPool.running then
      some { node with processingPool := node.processingPool.finish task }
    else none

end NodeController

end K2eg
