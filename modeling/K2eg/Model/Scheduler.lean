import K2eg.Foundation.Interleaving
import Mathlib.Data.List.Dedup
import Mathlib.Logic.Function.Basic

/-! # The scheduler

`Scheduler` with its tasks: threads take tasks from a queue, execute them outside of the lock, and
put them back; `removeTaskByName` takes tasks out of the queue and waits for those that run. A task
is the number of its object, in the order of `addTask`. Times are seconds. -/

namespace K2eg

/-- `Task`. The handler's properties are part of it; `cronNext` is `cron::cron_next` of its
expression, which may throw. -/
structure SchedulerTask where
  name : String
  cronNext : Int → Option Int
  nextSchedule : Int
  runAsap : Bool := false
  completed : Bool := false
  toBeDeleted : Bool := false

/-- What a handler does: it leaves the properties of its task, and returns or throws. -/
structure HandlerOutcome where
  runAsap : Bool
  completed : Bool
  throws : Bool

namespace SchedulerTask

/-- `RESCHEDULE_TIMEOUT`. -/
def rescheduleTimeout : Int := 60

def canBeExecuted (task : SchedulerTask) (currentTime : Int) : Bool :=
  decide (task.nextSchedule ≤ currentTime) && !task.toBeDeleted

def execute (task : SchedulerTask) (outcome : HandlerOutcome) (now : Int) : SchedulerTask :=
  { task with
    runAsap := outcome.runAsap
    completed := outcome.completed
    nextSchedule :=
      if outcome.throws then now + rescheduleTimeout
      else if outcome.runAsap then 0
      else (task.cronNext now).getD (now + rescheduleTimeout) }

end SchedulerTask

/-- Where a thread of `scheduleTask` is. -/
inductive SchedulerPhase where
  | top
  | looking
  | executing (task : ℕ)
  | settling (task : ℕ)
  | sleeping
  | exited
  deriving DecidableEq, Repr

/-- A call of `removeTaskByName`: where it is, and how many tasks had been added when it began. When
it has returned, how many had been added then. -/
inductive RemovalPhase where
  | checking
  | waiting
  | returned (added : ℕ)
  deriving DecidableEq, Repr

structure Removal where
  taskName : String
  began : ℕ
  phase : RemovalPhase := .checking

instance : Inhabited SchedulerTask := ⟨⟨"", fun _ => none, 0, false, false, false⟩⟩

instance : Inhabited Removal := ⟨⟨"", 0, .returned 0⟩⟩

/-- `Scheduler`. The names in `taskNameToRemove` are a set. `removed` are the tasks that removals
have erased. -/
structure Scheduler where
  threadNumber : ℕ
  tasks : ℕ → SchedulerTask := fun _ => default
  added : ℕ := 0
  tasksQueue : List ℕ := []
  runningTaskVector : ℕ → Option ℕ := fun _ => none
  taskNameToRemove : List String := []
  processing : Bool := true
  threads : ℕ → SchedulerPhase := fun _ => .top
  removals : ℕ → Removal := fun _ => default
  removalCount : ℕ := 0
  removed : List ℕ := []

inductive SchedulerStep where
  | addTask (name : String) (cronNext : Int → Option Int) (nextSchedule : Int)
  | removeTaskByName (taskName : String)
  | check (removal : ℕ)
  | thread (index : ℕ) (now : Int) (outcome : HandlerOutcome)
  | stop

namespace Scheduler

/-- The scheduler after `start`, with nothing added. -/
def start (threadNumber : ℕ) : Scheduler := { threadNumber }

def setThread (s : Scheduler) (index : ℕ) (phase : SchedulerPhase) : Scheduler :=
  { s with threads := Function.update s.threads index phase }

def setRemoval (s : Scheduler) (removal : ℕ) (phase : RemovalPhase) : Scheduler :=
  { s with
    removals := Function.update s.removals removal { s.removals removal with phase } }

def setTask (s : Scheduler) (task : ℕ) (value : SchedulerTask) : Scheduler :=
  { s with tasks := Function.update s.tasks task value }

/-- `addTask` of a new task: it goes to the front of the queue. -/
def addTask (s : Scheduler) (name : String) (cronNext : Int → Option Int) (nextSchedule : Int) :
    Scheduler :=
  { s with
    tasks := Function.update s.tasks s.added { name, cronNext, nextSchedule }
    added := s.added + 1
    tasksQueue := s.added :: s.tasksQueue }

/-- The task has the name. -/
def named (s : Scheduler) (taskName : String) (task : ℕ) : Bool := (s.tasks task).name == taskName

/-- A slot holds a task with the name. -/
def isRunning (s : Scheduler) (taskName : String) : Bool :=
  (List.range s.threadNumber).any fun index =>
    (s.runningTaskVector index).any (s.named taskName)

/-- A call of `removeTaskByName` begins. -/
def beginRemoval (s : Scheduler) (taskName : String) : Scheduler :=
  { s with
    removals := Function.update s.removals s.removalCount { taskName, began := s.added }
    removalCount := s.removalCount + 1 }

/-- One pass of the loop of `removeTaskByName`, under the lock of the queue. The wait may end at any
time. -/
def check (s : Scheduler) (removal : ℕ) : Scheduler :=
  let taskName := (s.removals removal).taskName
  if s.tasksQueue.any (s.named taskName) then
    { s with
      tasksQueue := s.tasksQueue.filter fun task => !s.named taskName task
      taskNameToRemove := s.taskNameToRemove.filter (· ≠ taskName)
      removed := s.removed ++ s.tasksQueue.filter (s.named taskName)
      removals := Function.update s.removals removal
        { s.removals removal with phase := .returned s.added } }
  else if s.isRunning taskName then
    { s with
      taskNameToRemove := s.taskNameToRemove.insert taskName
      removals := Function.update s.removals removal
        { s.removals removal with phase := .waiting } }
  else s.setRemoval removal (.returned s.added)

/-- The first task of the queue that is due goes to the slot of the thread. -/
def look (s : Scheduler) (index : ℕ) (now : Int) : Scheduler :=
  match s.tasksQueue.find? fun task => (s.tasks task).canBeExecuted now with
  | none => s.setThread index .sleeping
  | some task =>
    { s with
      tasksQueue := s.tasksQueue.erase task
      runningTaskVector := Function.update s.runningTaskVector index (some task)
      threads := Function.update s.threads index (.executing task) }

/-- What a thread does with its task after the execution, under the lock of the queue. -/
def settle (s : Scheduler) (index task : ℕ) : Scheduler :=
  if (s.tasks task).completed then
    { s with
      runningTaskVector := Function.update s.runningTaskVector index none
      threads := Function.update s.threads index .top }
  else
    let value := s.tasks task
    let marked := if s.taskNameToRemove.contains value.name then
      { value with toBeDeleted := true } else value
    { s with
      tasks := Function.update s.tasks task marked
      tasksQueue := s.tasksQueue ++ [task]
      runningTaskVector := Function.update s.runningTaskVector index none
      threads := Function.update s.threads index .top }

/-- The next thing that a thread does. -/
def threadStep (s : Scheduler) (index : ℕ) (now : Int) (outcome : HandlerOutcome) :
    Option Scheduler :=
  match s.threads index with
  | .top => some (s.setThread index (if s.processing then .looking else .exited))
  | .looking => some (s.look index now)
  | .executing task =>
    some ((s.setTask task ((s.tasks task).execute outcome now)).setThread index (.settling task))
  | .settling task => some (s.settle index task)
  | .sleeping => some (s.setThread index (if s.processing then .top else .exited))
  | .exited => none

def next (s : Scheduler) : SchedulerStep → Option Scheduler
  | .addTask name cronNext nextSchedule => some (s.addTask name cronNext nextSchedule)
  | .removeTaskByName taskName => some (s.beginRemoval taskName)
  | .check removal =>
    if removal < s.removalCount then
      match (s.removals removal).phase with
      | .returned _ => none
      | _ => some (s.check removal)
    else none
  | .thread index now outcome =>
    if index < s.threadNumber then s.threadStep index now outcome else none
  | .stop => some { s with processing := false }

end Scheduler

end K2eg
