import K2eg.Foundation.Interleaving
import K2eg.Foundation.Slots
import K2eg.Foundation.TaskPool
import K2eg.Model.ThreadPool

/-! # What the thread pool guarantees

The threads of the pool serve the tasks as the pool of `TaskPool` does, no thread sleeps on while
there is a task for it, and `wait` returns when everything has been executed. -/

namespace K2eg

open Interleaving

/-- The threads that `tasks_running` counts. -/
def PoolThread.counts (thread : PoolThread) : Bool :=
  match thread.phase with
  | .entering | .running _ => true
  | _ => false

/-- The threads that are about to look at the tasks. -/
def PoolThread.looks (thread : PoolThread) : Bool :=
  match thread.phase with
  | .entering | .woken => true
  | _ => false

@[simp] theorem WaitPhase.notify_eq_returned {phase : WaitPhase} :
    phase.notify = .returned ↔ phase = .returned := by
  cases phase <;> simp [WaitPhase.notify]

namespace ThreadPool

variable {s t : ThreadPool} {i : ℕ} {thread : PoolThread}

/-! ## The parts of a step -/

section Parts

variable (s : ThreadPool) (i : ℕ) (thread : PoolThread)

@[simp] theorem setThread_threads : (s.setThread i thread).threads = s.threads.set i thread := rfl

@[simp] theorem setThread_tasks : (s.setThread i thread).tasks = s.tasks := rfl

@[simp] theorem setThread_tasksRunning :
    (s.setThread i thread).tasksRunning = s.tasksRunning := rfl

@[simp] theorem setThread_submitted : (s.setThread i thread).submitted = s.submitted := rfl

@[simp] theorem setThread_notifies : (s.setThread i thread).notifies = s.notifies := rfl

@[simp] theorem setThread_begun : (s.setThread i thread).begun = s.begun := rfl

@[simp] theorem setThread_finished : (s.setThread i thread).finished = s.finished := rfl

@[simp] theorem setThread_isOver : (s.setThread i thread).isOver = s.isOver := rfl

@[simp] theorem leaveTask_threads : s.leaveTask.threads = s.threads := by
  rw [leaveTask]
  split <;> rfl

@[simp] theorem leaveTask_tasks : s.leaveTask.tasks = s.tasks := by
  rw [leaveTask]
  split <;> rfl

@[simp] theorem leaveTask_tasksRunning : s.leaveTask.tasksRunning = s.tasksRunning - 1 := by
  rw [leaveTask]
  split <;> rfl

@[simp] theorem leaveTask_submitted : s.leaveTask.submitted = s.submitted := by
  rw [leaveTask]
  split <;> rfl

@[simp] theorem leaveTask_notifies : s.leaveTask.notifies = s.notifies := by
  rw [leaveTask]
  split <;> rfl

@[simp] theorem leaveTask_begun : s.leaveTask.begun = s.begun := by
  rw [leaveTask]
  split <;> rfl

@[simp] theorem leaveTask_finished : s.leaveTask.finished = s.finished := by
  rw [leaveTask]
  split <;> rfl

@[simp] theorem leaveTask_isOver : s.leaveTask.isOver = s.isOver := by
  rw [leaveTask]
  split
  · simp only [isOver]
    congr 1
    funext call
    rw [List.getElem?_map]
    cases s.waits[call]? with
    | none => rfl
    | some phase => cases phase <;> rfl
  · rfl

end Parts

/-- A thread with the mutex: behind a task, or woken. -/
def entered (s : ThreadPool) (thread : PoolThread) : ThreadPool :=
  if thread.phase = .entering then s.leaveTask else s

/-- What a step can do. -/
inductive Moved (s : ThreadPool) : PoolStep → ThreadPool → Prop where
  | submitted (haccepts : s.accepts = true) : Moved s .detachTask
      { s with
        tasks := s.tasks ++ [s.submitted]
        submitted := s.submitted + 1
        notifies := s.notifies + 1 }
  | unheard (hnotifies : 0 < s.notifies)
      (hwaiting : ∀ thread ∈ s.threads, thread.phase ≠ .waiting) :
      Moved s (.notifyOne none) { s with notifies := s.notifies - 1 }
  | notified {i : ℕ} {thread : PoolThread} (hnotifies : 0 < s.notifies)
      (hi : s.threads[i]? = some thread) (hphase : thread.phase = .waiting) :
      Moved s (.notifyOne (some i))
        ({ s with notifies := s.notifies - 1 }.setThread i { thread with phase := .woken })
  | locked {i : ℕ} {thread : PoolThread} (hi : s.threads[i]? = some thread)
      (hlooks : thread.looks = true) : Moved s (.lock i) ((s.entered thread).takeTask i thread)
  | woken {i : ℕ} {thread : PoolThread} (hi : s.threads[i]? = some thread)
      (hphase : thread.phase = .waiting) :
      Moved s (.wakeSpuriously i) (s.setThread i { thread with phase := .woken })
  | finished {i task : ℕ} {thread : PoolThread} (hi : s.threads[i]? = some thread)
      (hphase : thread.phase = .running task) : Moved s (.finish i)
        ({ s with finished := s.finished ++ [task] }.setThread i { thread with phase := .entering })
  | began (hdestructor : s.destructor = none) : Moved s .wait s.beginWait
  | checked {call : ℕ} (hcall : s.waits[call]? = some .woken) : Moved s (.lockWait call)
      (s.checkDone call)
  | wokenWait {call : ℕ} (hcall : s.waits[call]? = some .waiting) :
      Moved s (.wakeWaitSpuriously call) { s with waits := s.waits.set call .woken }
  | destroyed (hdestructor : s.destructor = none) : Moved s .destroy
      { s.beginWait with destructor := some s.waits.length }
  | stopped {i : ℕ} {thread : PoolThread} (hi : s.threads[i]? = some thread)
      (hover : s.isOver = true) (hstop : thread.stopRequested = false) : Moved s (.requestStop i)
        (s.setThread i { thread.notify with stopRequested := true })

theorem moved_of_next {step : PoolStep} (hnext : s.next step = some t) : Moved s step t := by
  cases step with
  | detachTask =>
      obtain ⟨haccepts, heq⟩ := Option.ite_none_right_eq_some.mp hnext
      obtain rfl := Option.some.inj heq
      exact .submitted haccepts
  | notifyOne target =>
      cases target with
      | none =>
          obtain ⟨⟨hnotifies, hwaiting⟩, heq⟩ := Option.ite_none_right_eq_some.mp hnext
          obtain rfl := Option.some.inj heq
          exact .unheard hnotifies hwaiting
      | some i =>
          rw [next] at hnext
          split at hnext
          case h_1 thread hi =>
            obtain ⟨⟨hnotifies, hphase⟩, heq⟩ := Option.ite_none_right_eq_some.mp hnext
            obtain rfl := Option.some.inj heq
            rw [PoolThread.notify, if_pos hphase]
            exact .notified hnotifies hi hphase
          case h_2 => cases hnext
  | lock i =>
      rw [next] at hnext
      split at hnext
      case h_1 thread hi =>
        split at hnext
        case h_1 hphase =>
          obtain rfl := Option.some.inj hnext
          have hmoved := Moved.locked hi (by rw [PoolThread.looks, hphase])
          rwa [entered, if_pos hphase] at hmoved
        case h_2 hphase =>
          obtain rfl := Option.some.inj hnext
          have hmoved := Moved.locked hi (by rw [PoolThread.looks, hphase])
          rwa [entered, if_neg (by rw [hphase]; nofun)] at hmoved
        case h_3 => cases hnext
      case h_2 => cases hnext
  | wakeSpuriously i =>
      rw [next] at hnext
      split at hnext
      case h_1 thread hi =>
        obtain ⟨hphase, heq⟩ := Option.ite_none_right_eq_some.mp hnext
        obtain rfl := Option.some.inj heq
        rw [PoolThread.notify, if_pos hphase]
        exact .woken hi hphase
      case h_2 => cases hnext
  | finish i =>
      rw [next] at hnext
      split at hnext
      case h_1 thread hi =>
        split at hnext
        case h_1 task hphase =>
          obtain rfl := Option.some.inj hnext
          exact .finished hi hphase
        case h_2 => cases hnext
      case h_2 => cases hnext
  | wait =>
      obtain ⟨hdestructor, heq⟩ := Option.ite_none_right_eq_some.mp hnext
      obtain rfl := Option.some.inj heq
      exact .began hdestructor
  | lockWait call =>
      obtain ⟨hcall, heq⟩ := Option.ite_none_right_eq_some.mp hnext
      obtain rfl := Option.some.inj heq
      exact .checked hcall
  | wakeWaitSpuriously call =>
      obtain ⟨hcall, heq⟩ := Option.ite_none_right_eq_some.mp hnext
      obtain rfl := Option.some.inj heq
      exact .wokenWait hcall
  | destroy =>
      obtain ⟨hdestructor, heq⟩ := Option.ite_none_right_eq_some.mp hnext
      obtain rfl := Option.some.inj heq
      exact .destroyed hdestructor
  | requestStop i =>
      rw [next] at hnext
      split at hnext
      case h_1 thread hi =>
        obtain ⟨⟨hover, -, hstop⟩, heq⟩ := Option.ite_none_right_eq_some.mp hnext
        obtain rfl := Option.some.inj heq
        exact .stopped hi hover hstop
      case h_2 => cases hnext

/-- The outcomes of `takeTask`. -/
theorem takeTask_cases (s : ThreadPool) (i : ℕ) (thread : PoolThread) :
    (thread.stopRequested = true ∧
      s.takeTask i thread = s.setThread i { thread with phase := .ended }) ∨
    (s.tasks = [] ∧ thread.stopRequested = false ∧
      s.takeTask i thread = s.setThread i { thread with phase := .waiting }) ∨
    ∃ task tasks, s.tasks = task :: tasks ∧ thread.stopRequested = false ∧
      s.takeTask i thread = { s with
        tasks
        tasksRunning := s.tasksRunning + 1
        begun := s.begun ++ [task] }.setThread i { thread with phase := .running task } := by
  rw [takeTask]
  cases hstop : thread.stopRequested with
  | true => exact .inl ⟨rfl, rfl⟩
  | false =>
      cases htasks : s.tasks with
      | nil => exact .inr (.inl ⟨rfl, rfl, rfl⟩)
      | cons task tasks => exact .inr (.inr ⟨task, tasks, rfl, rfl, rfl⟩)

/-! ## The invariant -/

/-- What the pool keeps: the tasks are begun in their order and finish once, `tasks_running` is
right, and where a thread sleeps, there are notifications or threads that look for all tasks. -/
structure Kept (s : ThreadPool) : Prop where
  fifo : s.begun ++ s.tasks = List.range s.submitted
  accounted : (s.finished ++ s.runningTasks).Perm s.begun
  counted : s.tasksRunning = s.threads.countP PoolThread.counts
  awake : (∃ thread ∈ s.threads, thread.phase = .waiting) →
    s.tasks.length ≤ s.notifies + s.threads.countP PoolThread.looks
  settled : s.isOver = true → s.tasks = [] ∧ s.runningTasks = []
  stopped : ∀ thread ∈ s.threads, thread.stopRequested = true ∨ thread.phase = .ended →
    s.isOver = true

theorem runningTasks_eq_nil_iff : s.runningTasks = [] ↔ ∀ thread ∈ s.threads, thread.task? = none :=
  List.filterMap_eq_nil_iff

theorem countP_counts_eq_zero (h : s.threads.countP PoolThread.counts = 0) :
    s.runningTasks = [] := by
  rw [runningTasks_eq_nil_iff]
  intro thread hmem
  have hcounts := List.countP_eq_zero.mp h thread hmem
  cases hphase : thread.phase <;> simp_all [PoolThread.counts, PoolThread.task?]

/-- The tasks are where they were, and one thread has changed without taking or ending one. -/
theorem Kept.rephase (h : Kept s) (hi : s.threads[i]? = some thread) {after : PoolThread}
    (hthreads : t.threads = s.threads) (htasks : t.tasks = s.tasks)
    (hsubmitted : t.submitted = s.submitted) (hbegun : t.begun = s.begun)
    (hfinished : t.finished = s.finished) (hover : t.isOver = s.isOver)
    (htask : after.task? = thread.task?)
    (hcounted : t.tasksRunning + thread.counts.toNat = s.tasksRunning + after.counts.toNat)
    (hawake : s.tasks = [] ∨
      thread.phase = .waiting ∧ s.notifies ≤ t.notifies + after.looks.toNat)
    (hstopped : after.stopRequested = true ∨ after.phase = .ended → s.isOver = true) :
    Kept (t.setThread i after) := by
  have hset : (t.setThread i after).threads = s.threads.set i after := by
    rw [setThread_threads, hthreads]
  have hrunning : (t.setThread i after).runningTasks.Perm s.runningTasks := by
    have hperm := Slots.filterMap_set_perm hi after PoolThread.task?
    rw [htask] at hperm
    rw [runningTasks, hset]
    exact (List.perm_append_left_iff _).mp hperm
  refine ⟨?_, ?_, ?_, ?_, ?_, ?_⟩
  · rw [setThread_begun, setThread_tasks, setThread_submitted, hbegun, htasks, hsubmitted]
    exact h.fifo
  · rw [setThread_finished, setThread_begun, hfinished, hbegun]
    exact (hrunning.append_left _).trans h.accounted
  · have hcounts := Slots.countP_set_add hi after PoolThread.counts
    have hbefore := h.counted
    rw [hset, setThread_tasksRunning]
    omega
  · intro _
    rw [setThread_tasks, setThread_notifies, htasks]
    rcases hawake with hnil | ⟨hphase, hnotifies⟩
    · rw [hnil]
      exact Nat.zero_le _
    · have hlooks := Slots.countP_set_add hi after PoolThread.looks
      have hbefore := h.awake ⟨thread, List.mem_of_getElem? hi, hphase⟩
      have hsleeps : thread.looks = false := by rw [PoolThread.looks, hphase]
      rw [hsleeps, Bool.toNat_false] at hlooks
      rw [hset]
      omega
  · intro hisOver
    obtain ⟨hnil, hnone⟩ := h.settled (hover ▸ hisOver)
    rw [hnone] at hrunning
    exact ⟨htasks.trans hnil, hrunning.eq_nil⟩
  · intro other hmem hother
    rw [setThread_isOver, hover]
    rw [hset] at hmem
    rcases List.mem_or_eq_of_mem_set hmem with hmem | rfl
    · exact h.stopped other hmem hother
    · exact hstopped hother

/-- A thread takes the first task. -/
theorem Kept.take (h : Kept s) (hi : s.threads[i]? = some thread) (htask : thread.task? = none)
    (hlooks : thread.looks = true) (hstop : thread.stopRequested = false) {task : ℕ}
    {tasks : List ℕ} (htasks : s.tasks = task :: tasks) (hthreads : t.threads = s.threads)
    (hsubmitted : t.submitted = s.submitted) (hbegun : t.begun = s.begun)
    (hfinished : t.finished = s.finished) (hnotifies : t.notifies = s.notifies)
    (hover : t.isOver = s.isOver)
    (hcounted : t.tasksRunning + thread.counts.toNat = s.tasksRunning) :
    Kept ({ t with
      tasks
      tasksRunning := t.tasksRunning + 1
      begun := t.begun ++ [task] }.setThread i { thread with phase := .running task }) := by
  have hnotOver : s.isOver = false := by
    cases hisOver : s.isOver with
    | false => rfl
    | true =>
        rw [(h.settled hisOver).1] at htasks
        cases htasks
  refine ⟨?_, ?_, ?_, ?_, ?_, ?_⟩
  · have hfifo := h.fifo
    rw [htasks] at hfifo
    simpa [hbegun, hsubmitted] using hfifo
  · have hperm := Slots.filterMap_set_perm hi { thread with phase := .running task }
      PoolThread.task?
    rw [htask] at hperm
    have haccounted := (h.accounted.append_right [task])
    simp only [setThread_finished, setThread_begun, hfinished, hbegun]
    refine .trans ?_ haccounted
    rw [runningTasks, setThread_threads, hthreads, List.append_assoc]
    exact (hperm.trans (List.perm_append_comm)).append_left _
  · have hcounts := Slots.countP_set_add hi { thread with phase := .running task }
      PoolThread.counts
    have hbefore := h.counted
    simp only [setThread_threads, setThread_tasksRunning, hthreads]
    simp only [PoolThread.counts, Bool.toNat_true] at hcounts
    simp only [PoolThread.counts] at hcounted
    omega
  · intro hwaiting
    have hset := Slots.countP_set_add hi { thread with phase := .running task } PoolThread.looks
    have hbefore : s.tasks.length ≤ s.notifies + s.threads.countP PoolThread.looks := by
      obtain ⟨other, hmem, hphase⟩ := hwaiting
      rw [setThread_threads, hthreads] at hmem
      rcases List.mem_or_eq_of_mem_set hmem with hmem | rfl
      · exact h.awake ⟨other, hmem, hphase⟩
      · cases hphase
    rw [htasks, List.length_cons] at hbefore
    rw [hlooks] at hset
    simp only [PoolThread.looks, Bool.toNat_true, Bool.toNat_false] at hset
    simp only [setThread_threads, setThread_tasks, setThread_notifies, hthreads, hnotifies]
    omega
  · intro hisOver
    have hsame : s.isOver = true := hover ▸ hisOver
    rw [hnotOver] at hsame
    cases hsame
  · intro other hmem hother
    rw [setThread_threads, hthreads] at hmem
    rcases List.mem_or_eq_of_mem_set hmem with hmem | rfl
    · exact (Bool.eq_false_iff.mp hnotOver (h.stopped other hmem hother)).elim
    · simp [hstop] at hother

/-- The task of a thread returns or throws. -/
theorem Kept.finish (h : Kept s) (hi : s.threads[i]? = some thread) {task : ℕ}
    (hphase : thread.phase = .running task) :
    Kept ({ s with finished := s.finished ++ [task] }.setThread i
      { thread with phase := .entering }) := by
  have htask : thread.task? = some task := by rw [PoolThread.task?, hphase]
  have hnotOver : s.isOver ≠ true := by
    intro hisOver
    have hnone := runningTasks_eq_nil_iff.mp (h.settled hisOver).2 thread (List.mem_of_getElem? hi)
    rw [htask] at hnone
    cases hnone
  refine ⟨h.fifo, ?_, ?_, ?_, fun hisOver => absurd hisOver hnotOver, ?_⟩
  · have hperm := Slots.filterMap_set_perm hi { thread with phase := .entering } PoolThread.task?
    rw [htask] at hperm
    refine .trans ?_ h.accounted
    rw [setThread_finished, List.append_assoc]
    exact hperm.append_left _
  · have hcounts := Slots.countP_set_add hi { thread with phase := .entering } PoolThread.counts
    have hbefore := h.counted
    have hthread : thread.counts = true := by rw [PoolThread.counts, hphase]
    have hafter : PoolThread.counts { thread with phase := .entering } = true := rfl
    rw [hthread, hafter] at hcounts
    change s.tasksRunning = (s.threads.set i _).countP PoolThread.counts
    omega
  · intro hwaiting
    have hlooks := Slots.countP_set_add hi { thread with phase := .entering } PoolThread.looks
    have hthread : thread.looks = false := by rw [PoolThread.looks, hphase]
    have hafter : PoolThread.looks { thread with phase := .entering } = true := rfl
    rw [hthread, hafter, Bool.toNat_true, Bool.toNat_false] at hlooks
    obtain ⟨other, hmem, hother⟩ := hwaiting
    rw [setThread_threads] at hmem
    rcases List.mem_or_eq_of_mem_set hmem with hmem | rfl
    · have hbefore := h.awake ⟨other, hmem, hother⟩
      change s.tasks.length ≤ s.notifies + (s.threads.set i _).countP PoolThread.looks
      omega
    · cases hother
  · intro other hmem hother
    rw [setThread_threads] at hmem
    rcases List.mem_or_eq_of_mem_set hmem with hmem | rfl
    · exact h.stopped other hmem hother
    · exact h.stopped thread (List.mem_of_getElem? hi) (.inl (by simpa using hother))

/-- Only the calls of `wait` have changed. -/
theorem Kept.rewait (h : Kept s) (hthreads : t.threads = s.threads) (htasks : t.tasks = s.tasks)
    (hrunning : t.tasksRunning = s.tasksRunning) (hnotifies : t.notifies = s.notifies)
    (hsubmitted : t.submitted = s.submitted) (hbegun : t.begun = s.begun)
    (hfinished : t.finished = s.finished) (hkept : s.isOver = true → t.isOver = true)
    (hover : t.isOver = true → s.isOver = true ∨ s.tasksRunning = 0 ∧ s.tasks = []) : Kept t := by
  have hsame : t.runningTasks = s.runningTasks := by rw [runningTasks, hthreads, runningTasks]
  refine ⟨?_, ?_, ?_, ?_, ?_, ?_⟩
  · rw [hbegun, htasks, hsubmitted]
    exact h.fifo
  · rw [hfinished, hsame, hbegun]
    exact h.accounted
  · rw [hrunning, hthreads]
    exact h.counted
  · rw [hthreads, htasks, hnotifies]
    exact h.awake
  · intro hisOver
    rw [htasks, hsame]
    rcases hover hisOver with hbefore | ⟨hzero, hnil⟩
    · exact h.settled hbefore
    · exact ⟨hnil, countP_counts_eq_zero (h.counted.symm.trans hzero)⟩
  · rw [hthreads]
    exact fun thread hmem hthread => hkept (h.stopped thread hmem hthread)

/-! ## Steps -/

section Entered

variable (s : ThreadPool) (thread : PoolThread)

@[simp] theorem entered_threads : (s.entered thread).threads = s.threads := by
  rw [entered]
  split <;> simp

@[simp] theorem entered_tasks : (s.entered thread).tasks = s.tasks := by
  rw [entered]
  split <;> simp

@[simp] theorem entered_submitted : (s.entered thread).submitted = s.submitted := by
  rw [entered]
  split <;> simp

@[simp] theorem entered_notifies : (s.entered thread).notifies = s.notifies := by
  rw [entered]
  split <;> simp

@[simp] theorem entered_begun : (s.entered thread).begun = s.begun := by
  rw [entered]
  split <;> simp

@[simp] theorem entered_finished : (s.entered thread).finished = s.finished := by
  rw [entered]
  split <;> simp

@[simp] theorem entered_isOver : (s.entered thread).isOver = s.isOver := by
  rw [entered]
  split <;> simp

end Entered

/-- A thread that looks is counted if it comes from a task. -/
theorem Kept.entered_tasksRunning (h : Kept s) (hi : s.threads[i]? = some thread)
    (hlooks : thread.looks = true) :
    (s.entered thread).tasksRunning + thread.counts.toNat = s.tasksRunning := by
  rw [entered]
  cases hphase : thread.phase with
  | entering =>
      have hcounts : thread.counts = true := by rw [PoolThread.counts, hphase]
      have hpos : 0 < s.threads.countP PoolThread.counts :=
        List.countP_pos_iff.mpr ⟨thread, List.mem_of_getElem? hi, hcounts⟩
      have hcounted := h.counted
      rw [if_pos rfl, leaveTask_tasksRunning, hcounts, Bool.toNat_true]
      omega
  | woken =>
      have hcounts : thread.counts = false := by rw [PoolThread.counts, hphase]
      rw [if_neg (by nofun), hcounts]
      rfl
  | _ => simp [PoolThread.looks, hphase] at hlooks

theorem Kept.locked (h : Kept s) (hi : s.threads[i]? = some thread)
    (hlooks : thread.looks = true) : Kept ((s.entered thread).takeTask i thread) := by
  have hentered := h.entered_tasksRunning hi hlooks
  have htask : thread.task? = none := by
    cases hphase : thread.phase <;> simp_all [PoolThread.looks, PoolThread.task?]
  rcases (s.entered thread).takeTask_cases i thread with
    ⟨hstop, heq⟩ | ⟨hnil, -, heq⟩ | ⟨task, tasks, htasks, hstop, heq⟩
  · have hover := h.stopped thread (List.mem_of_getElem? hi) (.inl hstop)
    rw [heq]
    refine h.rephase hi (by simp) (by simp) (by simp) (by simp) (by simp) (by simp) htask.symm ?_
      (.inl (h.settled hover).1) fun _ => hover
    simpa [PoolThread.counts] using hentered
  · rw [entered_tasks] at hnil
    rw [heq]
    refine h.rephase hi (by simp) (by simp) (by simp) (by simp) (by simp) (by simp) htask.symm ?_
      (.inl hnil) fun hafter => ?_
    · simpa [PoolThread.counts] using hentered
    · exact h.stopped thread (List.mem_of_getElem? hi) (.inl (by simpa using hafter))
  · rw [entered_tasks] at htasks
    rw [heq]
    exact h.take hi htask hlooks hstop htasks (by simp) (by simp) (by simp) (by simp) (by simp)
      (by simp) hentered

theorem isOver_iff :
    s.isOver = true ↔ ∃ call, s.destructor = some call ∧ s.waits[call]? = some .returned := by
  simp [isOver, Option.any_eq_true]

theorem checkDone_cases (s : ThreadPool) (call : ℕ) :
    (s.tasksRunning = 0 ∧ s.tasks = [] ∧
      s.checkDone call = { s with waits := s.waits.set call .returned, waiting := false }) ∨
    ((s.tasksRunning ≠ 0 ∨ s.tasks ≠ []) ∧
      s.checkDone call = { s with waits := s.waits.set call .waiting }) := by
  rw [checkDone]
  split
  case isTrue hdone => exact .inl ⟨hdone.1, hdone.2, rfl⟩
  case isFalse hopen => exact .inr ⟨by tauto, rfl⟩

/-- The calls that have returned stay so. -/
theorem isOver_set {call : ℕ} {phase : WaitPhase} (hcall : s.waits[call]? ≠ some .returned)
    (hover : s.isOver = true) : isOver { s with waits := s.waits.set call phase } = true := by
  obtain ⟨destructor, hdestructor, hreturned⟩ := isOver_iff.mp hover
  refine isOver_iff.mpr ⟨destructor, hdestructor, ?_⟩
  rw [List.getElem?_set_ne]
  · exact hreturned
  · rintro rfl
    exact hcall hreturned

theorem isOver_of_set {call : ℕ} (phase : WaitPhase) (hphase : phase ≠ .returned)
    (hover : isOver { s with waits := s.waits.set call phase } = true) : s.isOver = true := by
  obtain ⟨destructor, hdestructor, hreturned⟩ := isOver_iff.mp hover
  refine isOver_iff.mpr ⟨destructor, hdestructor, ?_⟩
  rw [List.getElem?_set] at hreturned
  split at hreturned
  · split at hreturned
    · exact absurd (Option.some.inj hreturned) hphase
    · cases hreturned
  · exact hreturned

theorem Kept.checked (h : Kept s) {call : ℕ} (hcall : s.waits[call]? = some .woken) :
    Kept (s.checkDone call) := by
  have hopen : s.waits[call]? ≠ some .returned := by simp [hcall]
  rcases s.checkDone_cases call with ⟨hzero, hnil, heq⟩ | ⟨-, heq⟩
  · rw [heq]
    exact h.rewait rfl rfl rfl rfl rfl rfl rfl (isOver_set hopen) fun _ => .inr ⟨hzero, hnil⟩
  · rw [heq]
    exact h.rewait rfl rfl rfl rfl rfl rfl rfl (isOver_set hopen)
      fun hover => .inl (isOver_of_set .waiting nofun hover)

theorem not_isOver (h : s.destructor = none) : s.isOver ≠ true := by
  simp [isOver, h]

theorem beginWait_cases (s : ThreadPool) :
    (s.tasksRunning = 0 ∧ s.tasks = [] ∧
      s.beginWait = { s with waits := s.waits ++ [.returned], waiting := false }) ∨
    ((s.tasksRunning ≠ 0 ∨ s.tasks ≠ []) ∧
      s.beginWait = { s with waits := s.waits ++ [.waiting], waiting := true }) := by
  have hset (phase : WaitPhase) :
      (s.waits ++ [WaitPhase.waiting]).set s.waits.length phase = s.waits ++ [phase] := by
    rw [List.set_append_right _ _ (Nat.le_refl _), Nat.sub_self]
    rfl
  rcases checkDone_cases { s with waiting := true, waits := s.waits ++ [.waiting] }
    s.waits.length with ⟨hzero, hnil, heq⟩ | ⟨hopen, heq⟩
  · refine .inl ⟨hzero, hnil, heq.trans ?_⟩
    simp only [hset]
  · refine .inr ⟨hopen, heq.trans ?_⟩
    simp only [hset]

theorem Kept.began (h : Kept s) (hdestructor : s.destructor = none) : Kept s.beginWait := by
  rcases s.beginWait_cases with ⟨-, -, heq⟩ | ⟨-, heq⟩
  · rw [heq]
    exact h.rewait rfl rfl rfl rfl rfl rfl rfl (fun hover => absurd hover (not_isOver hdestructor))
      fun hover => absurd hover (not_isOver hdestructor)
  · rw [heq]
    exact h.rewait rfl rfl rfl rfl rfl rfl rfl (fun hover => absurd hover (not_isOver hdestructor))
      fun hover => absurd hover (not_isOver hdestructor)

theorem Kept.destroyed (h : Kept s) (hdestructor : s.destructor = none) :
    Kept { s.beginWait with destructor := some s.waits.length } := by
  rcases s.beginWait_cases with ⟨hzero, hnil, heq⟩ | ⟨-, heq⟩
  · rw [heq]
    exact h.rewait rfl rfl rfl rfl rfl rfl rfl (fun hover => absurd hover (not_isOver hdestructor))
      fun _ => .inr ⟨hzero, hnil⟩
  · rw [heq]
    refine h.rewait rfl rfl rfl rfl rfl rfl rfl (fun hover => absurd hover (not_isOver hdestructor))
      fun hover => ?_
    obtain ⟨call, hcall, hreturned⟩ := isOver_iff.mp hover
    obtain rfl := Option.some.inj hcall
    simp at hreturned

theorem Kept.moved (h : Kept s) {step : PoolStep} (hmoved : Moved s step t) : Kept t := by
  cases hmoved with
  | submitted haccepts =>
      have hnotOver : s.isOver ≠ true := by
        intro hover
        obtain ⟨call, hcall, -⟩ := isOver_iff.mp hover
        simp [accepts, hcall, (h.settled hover).2] at haccepts
      refine ⟨?_, h.accounted, h.counted, fun hwaiting => ?_, fun hover => absurd hover hnotOver,
        h.stopped⟩
      · rw [← List.append_assoc, h.fifo, List.range_succ]
      · have hbefore := h.awake hwaiting
        simp only [List.length_append, List.length_singleton]
        omega
  | unheard hnotifies hwaiting =>
      refine ⟨h.fifo, h.accounted, h.counted, ?_, h.settled, h.stopped⟩
      rintro ⟨thread, hmem, hphase⟩
      exact absurd hphase (hwaiting thread hmem)
  | @notified i thread hnotifies hi hphase =>
      have htask : thread.task? = none := by rw [PoolThread.task?, hphase]
      have hcounts : thread.counts = false := by rw [PoolThread.counts, hphase]
      refine h.rephase hi rfl rfl rfl rfl rfl rfl htask.symm (by rw [hcounts]; rfl)
        (.inr ⟨hphase, ?_⟩) fun hafter => ?_
      · simp only [PoolThread.looks, Bool.toNat_true]
        omega
      · exact h.stopped thread (List.mem_of_getElem? hi) (.inl (by simpa using hafter))
  | locked hi hlooks => exact h.locked hi hlooks
  | @woken i thread hi hphase =>
      have htask : thread.task? = none := by rw [PoolThread.task?, hphase]
      have hcounts : thread.counts = false := by rw [PoolThread.counts, hphase]
      refine h.rephase hi rfl rfl rfl rfl rfl rfl htask.symm (by rw [hcounts]; rfl)
        (.inr ⟨hphase, Nat.le_add_right _ _⟩) fun hafter => ?_
      exact h.stopped thread (List.mem_of_getElem? hi) (.inl (by simpa using hafter))
  | finished hi hphase => exact h.finish hi hphase
  | began hdestructor => exact h.began hdestructor
  | checked hcall => exact h.checked hcall
  | wokenWait hcall =>
      exact h.rewait rfl rfl rfl rfl rfl rfl rfl (isOver_set (by simp [hcall]))
        fun hover => .inl (isOver_of_set .woken nofun hover)
  | destroyed hdestructor => exact h.destroyed hdestructor
  | @stopped i thread hi hover =>
      refine h.rephase hi rfl rfl rfl rfl rfl rfl ?_ ?_ (.inl (h.settled hover).1) fun _ => hover
      · rw [PoolThread.notify]
        split
        case isTrue hphase => simp [PoolThread.task?, hphase]
        case isFalse => rfl
      · rw [PoolThread.notify]
        split
        case isTrue hphase => simp [PoolThread.counts, hphase]
        case isFalse => rfl

/-! ## Refinement -/

/-- What a step does to the tasks. -/
inductive Effect (s t : ThreadPool) : Prop where
  | none (tasks : t.tasks = s.tasks) (submitted : t.submitted = s.submitted)
      (begun : t.begun = s.begun) (running : t.runningTasks.Perm s.runningTasks)
  | submit (tasks : t.tasks = s.tasks ++ [s.submitted]) (submitted : t.submitted = s.submitted + 1)
      (begun : t.begun = s.begun) (running : t.runningTasks = s.runningTasks)
  | dequeue (task : ℕ) (tasks : s.tasks = task :: t.tasks) (submitted : t.submitted = s.submitted)
      (begun : t.begun = s.begun ++ [task]) (running : t.runningTasks.Perm (task :: s.runningTasks))
  | finish (task : ℕ) (tasks : t.tasks = s.tasks) (submitted : t.submitted = s.submitted)
      (begun : t.begun = s.begun) (running : (task :: t.runningTasks).Perm s.runningTasks)

theorem runningTasks_setThread (hthreads : t.threads = s.threads)
    (hi : s.threads[i]? = some thread) (after : PoolThread) :
    (thread.task?.toList ++ (t.setThread i after).runningTasks).Perm
      (after.task?.toList ++ s.runningTasks) := by
  rw [runningTasks, setThread_threads, hthreads]
  exact Slots.filterMap_set_perm hi after PoolThread.task?

theorem runningTasks_rephase (hthreads : t.threads = s.threads)
    (hi : s.threads[i]? = some thread) {after : PoolThread} (htask : after.task? = thread.task?) :
    (t.setThread i after).runningTasks.Perm s.runningTasks := by
  have hperm := runningTasks_setThread hthreads hi after
  rw [htask] at hperm
  exact (List.perm_append_left_iff _).mp hperm

theorem Moved.effect {step : PoolStep} (hmoved : Moved s step t) : Effect s t := by
  cases hmoved with
  | submitted => exact .submit rfl rfl rfl rfl
  | unheard => exact .none rfl rfl rfl .rfl
  | @notified i thread hnotifies hi hphase =>
      exact .none rfl rfl rfl (runningTasks_rephase rfl hi (by simp [PoolThread.task?, hphase]))
  | @locked i thread hi hlooks =>
      have htask : thread.task? = none := by
        cases hphase : thread.phase <;> simp_all [PoolThread.looks, PoolThread.task?]
      have hthreads := s.entered_threads thread
      rcases (s.entered thread).takeTask_cases i thread with
        ⟨-, heq⟩ | ⟨-, -, heq⟩ | ⟨task, tasks, htasks, -, heq⟩
      · rw [heq]
        exact .none (s.entered_tasks thread) (s.entered_submitted thread) (s.entered_begun thread)
          (runningTasks_rephase hthreads hi htask.symm)
      · rw [heq]
        exact .none (s.entered_tasks thread) (s.entered_submitted thread) (s.entered_begun thread)
          (runningTasks_rephase hthreads hi htask.symm)
      · rw [entered_tasks] at htasks
        rw [heq]
        have hperm := runningTasks_setThread (t := { s.entered thread with
          tasks
          tasksRunning := (s.entered thread).tasksRunning + 1
          begun := (s.entered thread).begun ++ [task] }) hthreads hi
            { thread with phase := .running task }
        rw [htask] at hperm
        exact .dequeue task htasks (s.entered_submitted thread)
          (by rw [setThread_begun, entered_begun]) hperm
  | @woken i thread hi hphase =>
      exact .none rfl rfl rfl (runningTasks_rephase rfl hi (by simp [PoolThread.task?, hphase]))
  | @finished i task thread hi hphase =>
      have hperm := runningTasks_setThread (t := { s with finished := s.finished ++ [task] }) rfl hi
        { thread with phase := .entering }
      rw [PoolThread.task?, hphase] at hperm
      exact .finish task rfl rfl rfl hperm
  | began =>
      rcases s.beginWait_cases with ⟨-, -, heq⟩ | ⟨-, heq⟩
      · rw [heq]
        exact .none rfl rfl rfl .rfl
      · rw [heq]
        exact .none rfl rfl rfl .rfl
  | @checked call =>
      rcases s.checkDone_cases call with ⟨-, -, heq⟩ | ⟨-, heq⟩
      · rw [heq]
        exact .none rfl rfl rfl .rfl
      · rw [heq]
        exact .none rfl rfl rfl .rfl
  | wokenWait => exact .none rfl rfl rfl .rfl
  | destroyed =>
      rcases s.beginWait_cases with ⟨-, -, heq⟩ | ⟨-, heq⟩
      · rw [heq]
        exact .none rfl rfl rfl .rfl
      · rw [heq]
        exact .none rfl rfl rfl .rfl
  | @stopped i thread hi =>
      refine .none rfl rfl rfl (runningTasks_rephase rfl hi ?_)
      rw [PoolThread.notify]
      split
      case isTrue hphase => simp [PoolThread.task?, hphase]
      case isFalse => rfl

/-- The tasks stand as in a pool that serves them in their order. -/
structure Refines (n : ℕ) (s : ThreadPool) (pool : TaskPool ℕ) : Prop where
  threads : s.threads.length = n
  queue : pool.queue = s.tasks
  running : pool.running.Perm s.runningTasks
  serves : TaskPool.Serves n (List.range s.submitted) s.begun pool

theorem Moved.threads_length {step : PoolStep} (hmoved : Moved s step t) :
    t.threads.length = s.threads.length := by
  cases hmoved with
  | @locked i thread hi hlooks =>
      rcases (s.entered thread).takeTask_cases i thread with
        ⟨-, heq⟩ | ⟨-, -, heq⟩ | ⟨task, tasks, -, -, heq⟩ <;>
        simp [heq]
  | began => rcases s.beginWait_cases with ⟨-, -, heq⟩ | ⟨-, heq⟩ <;> rw [heq]
  | @checked call => rcases s.checkDone_cases call with ⟨-, -, heq⟩ | ⟨-, heq⟩ <;> rw [heq]
  | destroyed => rcases s.beginWait_cases with ⟨-, -, heq⟩ | ⟨-, heq⟩ <;> rw [heq]
  | _ => simp

/-- A step does nothing to the tasks, or what a move of the other pool does. -/
theorem Refines.moved {n : ℕ} {pool : TaskPool ℕ} (h : Refines n s pool) {step : PoolStep}
    (hmoved : Moved s step t) : Refines n t pool ∨
      ∃ move after, pool.next n move = some after ∧ Refines n t after := by
  have hthreads := hmoved.threads_length.trans h.threads
  cases hmoved.effect with
  | none htasks hsubmitted hbegun hrunning =>
      refine .inl ⟨hthreads, h.queue.trans htasks.symm, h.running.trans hrunning.symm, ?_⟩
      rw [hsubmitted, hbegun]
      exact h.serves
  | submit htasks hsubmitted hbegun hrunning =>
      refine .inr ⟨.submit s.submitted, _, rfl, hthreads, ?_, ?_, ?_⟩
      · rw [TaskPool.submit, h.queue, htasks]
      · rw [hrunning]
        exact h.running
      · rw [hsubmitted, hbegun, List.range_succ]
        exact h.serves.submit (by simp)
  | dequeue task htasks hsubmitted hbegun hrunning =>
      have hfree : pool.running.length < n := by
        have hlength := hrunning.length_eq
        have hle : t.runningTasks.length ≤ t.threads.length := List.length_filterMap_le ..
        have hsame := h.running.length_eq
        rw [List.length_cons] at hlength
        omega
      have hdequeue : pool.dequeue n = some (task, ⟨t.tasks, task :: pool.running⟩) := by
        rw [TaskPool.dequeue, h.queue, htasks]
        exact if_pos hfree
      refine .inr ⟨.dequeue, ⟨t.tasks, task :: pool.running⟩, ?_, hthreads, rfl, ?_, ?_⟩
      · rw [TaskPool.next, hdequeue]
        rfl
      · exact (h.running.cons task).trans hrunning.symm
      · rw [hsubmitted, hbegun]
        exact h.serves.dequeue hdequeue
  | finish task htasks hsubmitted hbegun hrunning =>
      have hperm := h.running.trans hrunning.symm
      have hmem : task ∈ pool.running := hperm.symm.subset List.mem_cons_self
      refine .inr ⟨.finish task, pool.finish task, if_pos hmem, hthreads, ?_, ?_, ?_⟩
      · exact h.queue.trans htasks.symm
      · have herase := hperm.erase task
        rwa [List.erase_cons_head] at herase
      · rw [hsubmitted, hbegun]
        exact h.serves.finish task

/-! ## Calls of `wait` -/

theorem entered_returned (s : ThreadPool) (thread : PoolThread) (call : ℕ) :
    (s.entered thread).waits[call]? = some .returned ↔ s.waits[call]? = some .returned := by
  rw [entered]
  split
  · rw [leaveTask]
    split
    · simp
    · rfl
  · rfl

theorem takeTask_waits (s : ThreadPool) (i : ℕ) (thread : PoolThread) :
    (s.takeTask i thread).waits = s.waits := by
  rcases s.takeTask_cases i thread with ⟨-, heq⟩ | ⟨-, -, heq⟩ | ⟨task, tasks, -, -, heq⟩ <;>
    rw [heq] <;> rfl

theorem checkDone_idle {call other : ℕ} (hbefore : s.waits[other]? ≠ some .returned)
    (hafter : (s.checkDone call).waits[other]? = some .returned) :
    s.tasksRunning = 0 ∧ s.tasks = [] := by
  rcases s.checkDone_cases call with ⟨hzero, hnil, -⟩ | ⟨-, heq⟩
  · exact ⟨hzero, hnil⟩
  · rw [heq, List.getElem?_set] at hafter
    split at hafter
    · split at hafter <;> cases hafter
    · exact absurd hafter hbefore

theorem beginWait_idle {call : ℕ} (hbefore : s.waits[call]? ≠ some .returned)
    (hafter : s.beginWait.waits[call]? = some .returned) :
    s.tasksRunning = 0 ∧ s.tasks = [] := by
  refine checkDone_idle (s := { s with waiting := true, waits := s.waits ++ [.waiting] }) ?_ hafter
  rw [List.getElem?_append]
  split
  · exact hbefore
  · intro hreturned
    cases List.mem_singleton.mp (List.mem_of_getElem? hreturned)

@[simp] theorem checkDone_finished (s : ThreadPool) (call : ℕ) :
    (s.checkDone call).finished = s.finished := by
  rw [checkDone]
  split <;> rfl

@[simp] theorem checkDone_submitted (s : ThreadPool) (call : ℕ) :
    (s.checkDone call).submitted = s.submitted := by
  rw [checkDone]
  split <;> rfl

theorem Kept.all_finished (h : Kept s) (hzero : s.tasksRunning = 0) (hnil : s.tasks = []) :
    s.finished.Perm (List.range s.submitted) := by
  have haccounted := h.accounted
  have hfifo := h.fifo
  rw [countP_counts_eq_zero (h.counted.symm.trans hzero), List.append_nil] at haccounted
  rw [hnil, List.append_nil] at hfifo
  rwa [hfifo] at haccounted

/-- A call of `wait` returns when all tasks that have been submitted have ended. -/
theorem Kept.returned (h : Kept s) {step : PoolStep} (hmoved : Moved s step t) {call : ℕ}
    (hbefore : s.waits[call]? ≠ some .returned) (hafter : t.waits[call]? = some .returned) :
    t.finished.Perm (List.range t.submitted) := by
  have hdone (hidle : s.tasksRunning = 0 ∧ s.tasks = []) :
      s.finished.Perm (List.range s.submitted) := h.all_finished hidle.1 hidle.2
  cases hmoved with
  | @locked i thread =>
      rw [takeTask_waits, entered_returned] at hafter
      exact absurd hafter hbefore
  | began =>
      have hfinished := hdone (beginWait_idle hbefore hafter)
      rwa [beginWait, checkDone_finished, checkDone_submitted]
  | checked =>
      have hfinished := hdone (checkDone_idle hbefore hafter)
      rwa [checkDone_finished, checkDone_submitted]
  | @wokenWait other =>
      rw [List.getElem?_set] at hafter
      split at hafter
      · split at hafter <;> cases hafter
      · exact absurd hafter hbefore
  | destroyed =>
      have hfinished := hdone (beginWait_idle hbefore hafter)
      change s.beginWait.finished.Perm (List.range s.beginWait.submitted)
      rwa [beginWait, checkDone_finished, checkDone_submitted]
  | _ => exact absurd hafter hbefore

/-! ## Runs -/

theorem Kept.start (numThreads hardwareConcurrency : ℕ) :
    Kept (createThreads numThreads hardwareConcurrency) where
  fifo := rfl
  accounted := by
    rw [runningTasks_eq_nil_iff.mpr]
    · exact .rfl
    · intro thread hmem
      rw [List.eq_of_mem_replicate hmem]
      rfl
  counted := by
    rw [createThreads, List.countP_replicate]
    rfl
  awake := fun _ => Nat.zero_le _
  settled := fun hover => absurd hover (not_isOver rfl)
  stopped := by
    intro thread hmem hthread
    rw [List.eq_of_mem_replicate hmem] at hthread
    simp at hthread

theorem Kept.of_run (numThreads hardwareConcurrency : ℕ) {steps : List PoolStep}
    (hrun : AnyRun next (createThreads numThreads hardwareConcurrency) steps s) : Kept s :=
  hrun.invariant (I := fun _ s => Kept s) (.start numThreads hardwareConcurrency)
    fun h _ hnext => h.moved (moved_of_next hnext)

theorem Refines.start (numThreads hardwareConcurrency : ℕ) :
    Refines (determineThreadCount numThreads hardwareConcurrency)
      (createThreads numThreads hardwareConcurrency) {} where
  threads := by rw [createThreads, List.length_replicate]
  queue := rfl
  running := by
    rw [runningTasks_eq_nil_iff.mpr]
    intro thread hmem
    rw [List.eq_of_mem_replicate hmem]
    rfl
  serves := .empty _

/-- Whatever the threads and their callers do and whichever of them is woken: the tasks are begun in
their order and end once, as in a pool of that many threads; `tasks_running` is right; no task is
overlooked by a sleeping thread; and a call of `wait` returns when all tasks have ended, as they
have when a thread ends. -/
theorem refines_of_run (numThreads hardwareConcurrency : ℕ) {steps : List PoolStep}
    (hrun : AnyRun next (createThreads numThreads hardwareConcurrency) steps s) :
    (∃ moves pool, AnyRun (TaskPool.next (determineThreadCount numThreads hardwareConcurrency)) {}
        moves pool ∧
      Refines (determineThreadCount numThreads hardwareConcurrency) s pool) ∧
    Kept s ∧
    ∀ (step : PoolStep) (t : ThreadPool) (call : ℕ), s.next step = some t →
      s.waits[call]? ≠ some .returned → t.waits[call]? = some .returned →
      t.finished.Perm (List.range t.submitted) := by
  have hkept := Kept.of_run numThreads hardwareConcurrency hrun
  refine ⟨?_, hkept, fun step t call hnext => hkept.returned (moved_of_next hnext)⟩
  refine hrun.invariant (I := fun _ s => ∃ moves pool, AnyRun (TaskPool.next _) {} moves pool ∧
    Refines _ s pool) ⟨[], {}, .nil, .start numThreads hardwareConcurrency⟩ ?_
  rintro - s step t ⟨moves, pool, hmoves, hrefines⟩ - hnext
  rcases hrefines.moved (moved_of_next hnext) with hsame | ⟨move, after, hmove, hafter⟩
  · exact ⟨moves, pool, hmoves, hsame⟩
  · exact ⟨moves ++ [move], after, hmoves.snoc trivial hmove, hafter⟩

/-- Two threads, three tasks and a call of `wait`. -/
def threeTasks : List PoolStep :=
  [.lock 0, .detachTask, .notifyOne (some 0), .detachTask, .lock 1, .wait, .lock 0, .detachTask,
    .finish 1, .lock 1, .finish 0, .lock 0]

theorem refines_of_run_threeTasks :
    ∃ s, AnyRun next (createThreads 2 8) threeTasks s ∧
      (∃ moves pool, AnyRun (TaskPool.next (determineThreadCount 2 8)) {} moves pool ∧
        Refines (determineThreadCount 2 8) s pool) ∧
      s.begun = [0, 1, 2] := by
  obtain ⟨s, hrun, hcheck⟩ := exists_run next (fun _ _ => True) (createThreads 2 8) threeTasks
    (fun s => s.begun = [0, 1, 2]) (by decide)
  exact ⟨s, hrun, (refines_of_run 2 8 hrun).1, of_decide_eq_true hcheck⟩

end ThreadPool

end K2eg
