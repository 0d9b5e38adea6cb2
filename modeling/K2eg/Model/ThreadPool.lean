import Mathlib.Data.List.Basic
import Mathlib.Data.Nat.Notation

/-! # The thread pool

`BS::light_thread_pool`: its threads take the tasks under `tasks_mutex` and sleep on
`task_available_cv`; who waits for the end of all tasks sleeps on `tasks_done_cv`. What is done
under the mutex is one step. -/

namespace K2eg

/-- Where a thread is in `worker`. -/
inductive WorkerPhase where
  /-- before `tasks_mutex`, at its start or behind a task -/
  | entering
  /-- in `task_available_cv.wait` -/
  | waiting
  /-- notified, before it has `tasks_mutex` again -/
  | woken
  | running (task : ℕ)
  | ended
  deriving DecidableEq, Repr

structure PoolThread where
  phase : WorkerPhase := .entering
  stopRequested : Bool := false
  deriving DecidableEq, Repr

/-- Where a call of `wait` is. -/
inductive WaitPhase where
  /-- in `tasks_done_cv.wait` -/
  | waiting
  /-- notified, before it has `tasks_mutex` again -/
  | woken
  | returned
  deriving DecidableEq, Repr

/-- The pool with its threads and the calls of `wait`, of which `destructor` is the one of the
destructor. The tasks are numbered as they are submitted; `notifies` are the calls of `notify_one`
that `detach_task` has still to make, and `begun` and `finished` the tasks as they were taken and as
they have ended. -/
structure ThreadPool where
  threads : List PoolThread
  tasks : List ℕ := []
  tasksRunning : ℕ
  waiting : Bool := false
  waits : List WaitPhase := []
  destructor : Option ℕ := none
  notifies : ℕ := 0
  submitted : ℕ := 0
  begun : List ℕ := []
  finished : List ℕ := []
  deriving DecidableEq, Repr

inductive PoolStep where
  /-- the part of `detach_task` under the mutex -/
  | detachTask
  /-- `task_available_cv.notify_one` with the thread that it wakes -/
  | notifyOne (thread : Option ℕ)
  /-- a thread gets the mutex -/
  | lock (thread : ℕ)
  | wakeSpuriously (thread : ℕ)
  /-- a task returns or throws -/
  | finish (thread : ℕ)
  | wait
  /-- a call of `wait` gets the mutex again -/
  | lockWait (call : ℕ)
  | wakeWaitSpuriously (call : ℕ)
  | destroy
  /-- the destructor of a thread, as far as `request_stop`, which notifies it; the others that it
  notifies find no reason to go on, as if they had woken spuriously -/
  | requestStop (thread : ℕ)
  deriving DecidableEq, Repr

/-- A task of a thread that is being executed. -/
def PoolThread.task? (thread : PoolThread) : Option ℕ :=
  match thread.phase with
  | .running task => some task
  | _ => none

/-- `notify_all` of `tasks_done_cv` for one call. -/
def WaitPhase.notify : WaitPhase → WaitPhase
  | .waiting => .woken
  | phase => phase

/-- A thread that sleeps is notified. -/
def PoolThread.notify (thread : PoolThread) : PoolThread :=
  if thread.phase = .waiting then { thread with phase := .woken } else thread

namespace ThreadPool

/-- `determine_thread_count`, where `hardwareConcurrency` may be unknown, which is zero. -/
def determineThreadCount (numThreads hardwareConcurrency : ℕ) : ℕ :=
  if numThreads > 0 then numThreads
  else if hardwareConcurrency > 0 then hardwareConcurrency
  else 1

/-- `create_threads` -/
def createThreads (numThreads hardwareConcurrency : ℕ) : ThreadPool where
  threads := List.replicate (determineThreadCount numThreads hardwareConcurrency) {}
  tasksRunning := determineThreadCount numThreads hardwareConcurrency

def setThread (pool : ThreadPool) (i : ℕ) (thread : PoolThread) : ThreadPool :=
  { pool with threads := pool.threads.set i thread }

/-- The tasks that are being executed. -/
def runningTasks (pool : ThreadPool) : List ℕ := pool.threads.filterMap PoolThread.task?

/-- The call of `wait` in the destructor has returned. -/
def isOver (pool : ThreadPool) : Bool :=
  pool.destructor.any fun call => pool.waits[call]? == some .returned

/-- The threads are destroyed from the last on, and each is joined before the next. -/
def isNext (pool : ThreadPool) (i : ℕ) : Bool :=
  (pool.threads.drop (i + 1)).all fun thread => thread.phase = .ended

/-- Who destroys a pool submits nothing more; a task that is being executed may. -/
def accepts (pool : ThreadPool) : Bool :=
  pool.destructor.isNone || !pool.runningTasks.isEmpty

/-- `--tasks_running`, and the notification of the calls of `wait`. -/
def leaveTask (pool : ThreadPool) : ThreadPool :=
  let tasksRunning := pool.tasksRunning - 1
  if pool.waiting ∧ tasksRunning = 0 ∧ pool.tasks = [] then
    { pool with tasksRunning, waits := pool.waits.map WaitPhase.notify }
  else { pool with tasksRunning }

/-- `task_available_cv.wait` with the mutex, and `pop_task` where there is a task. -/
def takeTask (pool : ThreadPool) (i : ℕ) (thread : PoolThread) : ThreadPool :=
  if thread.stopRequested then pool.setThread i { thread with phase := .ended }
  else
    match pool.tasks with
    | [] => pool.setThread i { thread with phase := .waiting }
    | task :: tasks =>
      { pool with
        tasks
        tasksRunning := pool.tasksRunning + 1
        begun := pool.begun ++ [task] }.setThread i { thread with phase := .running task }

/-- `tasks_done_cv.wait` with the mutex, for a call of `wait`. -/
def checkDone (pool : ThreadPool) (call : ℕ) : ThreadPool :=
  if pool.tasksRunning = 0 ∧ pool.tasks = [] then
    { pool with waits := pool.waits.set call .returned, waiting := false }
  else { pool with waits := pool.waits.set call .waiting }

/-- `wait`, up to the place where it sleeps. -/
def beginWait (pool : ThreadPool) : ThreadPool :=
  checkDone { pool with waiting := true, waits := pool.waits ++ [.waiting] } pool.waits.length

def next (pool : ThreadPool) : PoolStep → Option ThreadPool
  | .detachTask =>
    if pool.accepts then
      some { pool with
        tasks := pool.tasks ++ [pool.submitted]
        submitted := pool.submitted + 1
        notifies := pool.notifies + 1 }
    else none
  | .notifyOne none =>
    if 0 < pool.notifies ∧ ∀ thread ∈ pool.threads, thread.phase ≠ .waiting then
      some { pool with notifies := pool.notifies - 1 }
    else none
  | .notifyOne (some i) =>
    match pool.threads[i]? with
    | some thread =>
      if 0 < pool.notifies ∧ thread.phase = .waiting then
        some ({ pool with notifies := pool.notifies - 1 }.setThread i thread.notify)
      else none
    | none => none
  | .lock i =>
    match pool.threads[i]? with
    | some thread =>
      match thread.phase with
      | .entering => some (pool.leaveTask.takeTask i thread)
      | .woken => some (pool.takeTask i thread)
      | _ => none
    | none => none
  | .wakeSpuriously i =>
    match pool.threads[i]? with
    | some thread =>
      if thread.phase = .waiting then some (pool.setThread i thread.notify) else none
    | none => none
  | .finish i =>
    match pool.threads[i]? with
    | some thread =>
      match thread.phase with
      | .running task =>
        some ({ pool with finished := pool.finished ++ [task] }.setThread i
          { thread with phase := .entering })
      | _ => none
    | none => none
  | .wait => if pool.destructor = none then some pool.beginWait else none
  | .lockWait call =>
    if pool.waits[call]? = some .woken then some (pool.checkDone call) else none
  | .wakeWaitSpuriously call =>
    if pool.waits[call]? = some .waiting then
      some { pool with waits := pool.waits.set call .woken }
    else none
  | .destroy =>
    if pool.destructor = none then
      some { pool.beginWait with destructor := some pool.waits.length }
    else none
  | .requestStop i =>
    match pool.threads[i]? with
    | some thread =>
      if pool.isOver ∧ pool.isNext i ∧ thread.stopRequested = false then
        some (pool.setThread i { thread.notify with stopRequested := true })
      else none
    | none => none

end ThreadPool

end K2eg
