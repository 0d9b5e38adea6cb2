import K2eg.Model.PVName
import Mathlib.Logic.Function.Basic

/-! # The monitored channels

`EpicsServiceManager` counts the references to a channel in the `keep_alive` field of its
task. A monitored channel is served by a task that submits itself again after each poll; the
task that reads a count of zero erases the channel. -/

namespace K2eg

/-- `ChannelTask` with its `ChannelMapElement`, as far as the task and the map use them. -/
structure ChannelTask where
  pvName : String
  keepAlive : Int
  toForce : Bool := false
  active : Bool := false
  deriving DecidableEq, Repr, Inhabited

/-- Where a chain of `task` calls stands. -/
inductive ChainPhase where
  /-- in the queue of the pool -/
  | queued
  /-- taken by a thread, before `keep_alive` is read -/
  | started
  /-- has read zero, before the lock of `cleanupAndErase` -/
  | erasing
  /-- has read a positive count, before `poll` and the broadcast -/
  | polling
  /-- before `detach_task` submits the next call -/
  | resubmitting
  | ended
  deriving DecidableEq, Repr, Inhabited

/-- A chain of calls of `task` with one entry; every call submits the next one. -/
structure TaskChain where
  entry : ℕ
  phase : ChainPhase
  deriving DecidableEq, Repr, Inhabited

/-- The manager and its pool. Tasks and chains are numbered in the order of their creation;
`unsubmitted` are the tasks that `addChannel` has put in the map and not yet detached. -/
structure EpicsServiceManager where
  channelMap : String → Option ℕ := fun _ => none
  tasks : ℕ → ChannelTask := fun _ => default
  taskCount : ℕ := 0
  unsubmitted : List ℕ := []
  chains : ℕ → TaskChain := fun _ => default
  chainCount : ℕ := 0

/-- One atomic step of a caller or of a chain. -/
inductive ManagerStep where
  | addChannel (uri : String)
  | detachTask (task : ℕ)
  | removeChannel (uri : String)
  | dequeue (chain : ℕ)
  | readKeepAlive (chain : ℕ)
  | cleanupAndErase (chain : ℕ)
  | poll (chain : ℕ) (received : Option Bool)
  | resubmit (chain : ℕ)
  deriving DecidableEq, Repr

namespace EpicsServiceManager

def setTask (manager : EpicsServiceManager) (id : ℕ) (task : ChannelTask) :
    EpicsServiceManager :=
  { manager with tasks := Function.update manager.tasks id task }

def setPhase (manager : EpicsServiceManager) (chain : ℕ) (phase : ChainPhase) :
    EpicsServiceManager :=
  { manager with
    chains := Function.update manager.chains chain { manager.chains chain with phase } }

section Fields

variable (manager : EpicsServiceManager) (id : ℕ) (task : ChannelTask) (phase : ChainPhase)

@[simp] theorem setTask_channelMap :
    (manager.setTask id task).channelMap = manager.channelMap := rfl

@[simp] theorem setTask_tasks :
    (manager.setTask id task).tasks = Function.update manager.tasks id task := rfl

@[simp] theorem setTask_taskCount : (manager.setTask id task).taskCount = manager.taskCount := rfl

@[simp] theorem setTask_unsubmitted :
    (manager.setTask id task).unsubmitted = manager.unsubmitted := rfl

@[simp] theorem setTask_chains : (manager.setTask id task).chains = manager.chains := rfl

@[simp] theorem setTask_chainCount :
    (manager.setTask id task).chainCount = manager.chainCount := rfl

@[simp] theorem setPhase_channelMap :
    (manager.setPhase id phase).channelMap = manager.channelMap := rfl

@[simp] theorem setPhase_tasks : (manager.setPhase id phase).tasks = manager.tasks := rfl

@[simp] theorem setPhase_taskCount :
    (manager.setPhase id phase).taskCount = manager.taskCount := rfl

@[simp] theorem setPhase_unsubmitted :
    (manager.setPhase id phase).unsubmitted = manager.unsubmitted := rfl

@[simp] theorem setPhase_chains : (manager.setPhase id phase).chains =
    Function.update manager.chains id { manager.chains id with phase } := rfl

@[simp] theorem setPhase_chainCount :
    (manager.setPhase id phase).chainCount = manager.chainCount := rfl

end Fields

/-- The locked part of `EpicsServiceManager::addChannel`. -/
def addChannel (manager : EpicsServiceManager) (uri : String) : EpicsServiceManager :=
  match sanitizePVName uri with
  | none => manager
  | some pv =>
    match manager.channelMap pv.name with
    | some id =>
      let task := manager.tasks id
      manager.setTask id { task with keepAlive := task.keepAlive + 1, toForce := true }
    | none =>
      { manager with
        channelMap := Function.update manager.channelMap pv.name (some manager.taskCount)
        tasks := Function.update manager.tasks manager.taskCount
          { pvName := pv.name, keepAlive := 1 }
        taskCount := manager.taskCount + 1
        unsubmitted := manager.unsubmitted ++ [manager.taskCount] }

/-- `processing_pool->detach_task` at the end of `addChannel`. -/
def detachTask (manager : EpicsServiceManager) (id : ℕ) : EpicsServiceManager :=
  { manager with
    unsubmitted := manager.unsubmitted.erase id
    chains := Function.update manager.chains manager.chainCount ⟨id, .queued⟩
    chainCount := manager.chainCount + 1 }

/-- `EpicsServiceManager::removeChannel`. -/
def removeChannel (manager : EpicsServiceManager) (uri : String) : EpicsServiceManager :=
  match sanitizePVName uri with
  | none => manager
  | some pv =>
    match manager.channelMap pv.name with
    | none => manager
    | some id =>
      let task := manager.tasks id
      manager.setTask id { task with
        keepAlive := if task.keepAlive ≤ 1 then 0 else task.keepAlive - 1 }

/-- `EpicsServiceManager::cleanupAndErase`: only the own entry is erased. -/
def cleanupAndErase (manager : EpicsServiceManager) (chain : ℕ) : EpicsServiceManager :=
  let id := (manager.chains chain).entry
  let task := manager.tasks id
  { (manager.setTask id { task with active := false }).setPhase chain .ended with
    channelMap :=
      if manager.channelMap task.pvName = some id then
        Function.update manager.channelMap task.pvName none
      else manager.channelMap }

/-- The middle part of `EpicsServiceManager::task`: the forced update, the poll and the
broadcast; `received` is the activity of the events that were taken, if any. -/
def poll (manager : EpicsServiceManager) (chain : ℕ) (received : Option Bool) :
    EpicsServiceManager :=
  let id := (manager.chains chain).entry
  let task := manager.tasks id
  (manager.setTask id { task with toForce := false, active := received.getD task.active }).setPhase
    chain .resubmitting

/-- The steps of the callers and of the calls of `task`. -/
def next (manager : EpicsServiceManager) : ManagerStep → Option EpicsServiceManager
  | .addChannel uri => some (manager.addChannel uri)
  | .detachTask id => if id ∈ manager.unsubmitted then some (manager.detachTask id) else none
  | .removeChannel uri => some (manager.removeChannel uri)
  | .dequeue chain =>
    if chain < manager.chainCount ∧ (manager.chains chain).phase = .queued then
      some (manager.setPhase chain .started)
    else none
  | .readKeepAlive chain =>
    if chain < manager.chainCount ∧ (manager.chains chain).phase = .started then
      if (manager.tasks (manager.chains chain).entry).keepAlive = 0 then
        some (manager.setPhase chain .erasing)
      else some (manager.setPhase chain .polling)
    else none
  | .cleanupAndErase chain =>
    if chain < manager.chainCount ∧ (manager.chains chain).phase = .erasing then
      some (manager.cleanupAndErase chain)
    else none
  | .poll chain received =>
    if chain < manager.chainCount ∧ (manager.chains chain).phase = .polling then
      some (manager.poll chain received)
    else none
  | .resubmit chain =>
    if chain < manager.chainCount ∧ (manager.chains chain).phase = .resubmitting then
      some (manager.setPhase chain .queued)
    else none

end EpicsServiceManager

end K2eg
