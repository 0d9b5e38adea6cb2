import K2eg.Foundation.History
import K2eg.Verification.Scheduler.Places

/-! # The times of the executions

A task is executed again no earlier than its last execution has left it for: at the next time of its
expression, a minute behind an exception, or at once. -/

namespace K2eg

open Interleaving

/-- What a scheduler does with a task, with the time that it reads; `idle` is a look that finds no
task that is due. -/
inductive ScheduleEvent where
  | added (task : ℕ) (nextSchedule : Int)
  | began (task : ℕ) (now : Int)
  | ended (task : ℕ) (cronNext : Int → Option Int) (outcome : HandlerOutcome) (now : Int)
  | idle (now : Int)

namespace ScheduleEvent

def task : ScheduleEvent → Option ℕ
  | .added task _ => some task
  | .began task _ => some task
  | .ended task _ _ _ => some task
  | .idle _ => none

/-- The time for which the event leaves its task. -/
def due : ScheduleEvent → Option Int
  | .added _ nextSchedule => some nextSchedule
  | .ended _ cronNext outcome now =>
    if outcome.completed then none
    else if outcome.throws then some (now + 60)
    else if outcome.runAsap then some 0
    else some ((cronNext now).getD (now + 60))
  | _ => none

end ScheduleEvent

/-- A scheduler with what it has done. -/
structure RecordedScheduler where
  scheduler : Scheduler
  events : List ScheduleEvent := []

namespace RecordedScheduler

def eventsOf (s : Scheduler) : SchedulerStep → List ScheduleEvent
  | .addTask _ _ nextSchedule => [.added s.added nextSchedule]
  | .thread index now outcome =>
    match s.threads index with
    | .looking =>
      match s.tasksQueue.find? fun task => (s.tasks task).canBeExecuted now with
      | none => [.idle now]
      | some task => [.began task now]
    | .executing task => [.ended task (s.tasks task).cronNext outcome now]
    | _ => []
  | _ => []

def next (r : RecordedScheduler) (step : SchedulerStep) : Option RecordedScheduler :=
  (r.scheduler.next step).map fun t => ⟨t, r.events ++ eventsOf r.scheduler step⟩

def start (threadNumber : ℕ) : RecordedScheduler := ⟨.start threadNumber, []⟩

/-- The last event of a task. -/
def lastOf (task : ℕ) : List ScheduleEvent → Option ScheduleEvent :=
  History.lastValue fun event => if event.task = some task then some event else none

/-- A task begins behind the time for which its last event leaves it; an execution that has begun
ends before the next one. -/
def Spaced (past : List ScheduleEvent) : ScheduleEvent → Prop
  | .added task _ => lastOf task past = none
  | .began task now => ∃ last due, lastOf task past = some last ∧ last.due = some due ∧ due ≤ now
  | .ended task _ _ _ => ∃ now, lastOf task past = some (.began task now)
  | .idle _ => True

end RecordedScheduler

namespace Scheduler

variable {s t : Scheduler} {step : SchedulerStep}

/-- What a step does with the queue and the executions, with its events. -/
inductive Moved (s : Scheduler) : Scheduler → List ScheduleEvent → Prop where
  | quiet {t : Scheduler} (remains : ℕ → Bool) (hqueue : t.tasksQueue = s.tasksQueue.filter remains)
      (htasks : t.tasks = s.tasks) (hadded : t.added = s.added)
      (hholds : ∀ index task, t.Holds index task ↔ s.Holds index task)
      (hexecuting : ∀ index task,
        t.threads index = .executing task ↔ s.threads index = .executing task) : Moved s t []
  | add (name : String) (cronNext : Int → Option Int) (nextSchedule : Int) :
      Moved s (s.addTask name cronNext nextSchedule) [.added s.added nextSchedule]
  | idle {index : ℕ} {now : Int} (hthread : s.threads index = .looking)
      (hnone : ∀ task ∈ s.tasksQueue, (s.tasks task).canBeExecuted now = false) :
      Moved s (s.setThread index .sleeping) [.idle now]
  | take {index task : ℕ} {now : Int} (hthread : s.threads index = .looking)
      (hfind : s.tasksQueue.find? (fun task => (s.tasks task).canBeExecuted now) = some task) :
      Moved s { s with
        tasksQueue := s.tasksQueue.erase task
        runningTaskVector := Function.update s.runningTaskVector index (some task)
        threads := Function.update s.threads index (.executing task) } [.began task now]
  | execute {index task : ℕ} (hthread : s.threads index = .executing task)
      (outcome : HandlerOutcome) (now : Int) :
      Moved s ((s.setTask task ((s.tasks task).execute outcome now)).setThread index
        (.settling task)) [.ended task (s.tasks task).cronNext outcome now]
  | settle {index task : ℕ} (hthread : s.threads index = .settling task) :
      Moved s (s.settle index task) []

theorem Moved.same (hqueue : t.tasksQueue = s.tasksQueue) (htasks : t.tasks = s.tasks)
    (hadded : t.added = s.added) (hthreads : t.threads = s.threads) : Moved s t [] := by
  apply Moved.quiet (fun _ => true) (by rw [hqueue, List.filter_true]) htasks hadded
  · intro index task
    rw [Holds, Holds, hthreads]
  · intro index task
    rw [hthreads]

/-- A thread moves between phases in which it holds no task. -/
theorem moved_setThread {index : ℕ} {phase : SchedulerPhase}
    (hold : ∀ task, s.threads index ≠ .executing task ∧ s.threads index ≠ .settling task)
    (hnew : ∀ task, phase ≠ .executing task ∧ phase ≠ .settling task) :
    Moved s (s.setThread index phase) [] := by
  have hthreads : ∀ other task, ((s.setThread index phase).threads other = .executing task ↔
      s.threads other = .executing task) ∧ ((s.setThread index phase).threads other =
        .settling task ↔ s.threads other = .settling task) := by
    intro other task
    by_cases heq : other = index
    · subst heq
      simp [Scheduler.setThread, hold task, hnew task]
    · simp [Scheduler.setThread, heq]
  refine .quiet (fun _ => true) ?_ rfl rfl ?_ ?_
  · rw [List.filter_true]
    rfl
  · intro other task
    rw [Holds, Holds, (hthreads other task).1, (hthreads other task).2]
  · exact fun other task => (hthreads other task).1

theorem moved_check (s : Scheduler) (removal : ℕ) : Moved s (s.check removal) [] := by
  rw [check]
  split
  · exact .quiet (fun task => !s.named (s.removals removal).taskName task) rfl rfl rfl
      (fun _ _ => Iff.rfl) fun _ _ => Iff.rfl
  · split <;> exact .same rfl rfl rfl rfl

theorem moved_look {index : ℕ} (now : Int) (hthread : s.threads index = .looking) :
    Moved s (s.look index now)
      (match s.tasksQueue.find? fun task => (s.tasks task).canBeExecuted now with
        | none => [.idle now]
        | some task => [.began task now]) := by
  rw [look]
  cases hfind : s.tasksQueue.find? fun task => (s.tasks task).canBeExecuted now with
  | none =>
      refine .idle hthread fun task hmem => ?_
      simpa using List.find?_eq_none.mp hfind task hmem
  | some task => exact .take hthread hfind

theorem moved_of_next (hnext : s.next step = some t) :
    Moved s t (RecordedScheduler.eventsOf s step) := by
  cases step with
  | addTask name cronNext nextSchedule =>
      obtain rfl := Option.some.inj hnext
      exact .add name cronNext nextSchedule
  | removeTaskByName taskName =>
      obtain rfl := Option.some.inj hnext
      exact .same rfl rfl rfl rfl
  | check removal =>
      rw [next] at hnext
      split at hnext
      · split at hnext
        · cases hnext
        · obtain rfl := Option.some.inj hnext
          exact moved_check s removal
      · cases hnext
  | thread index now outcome =>
      obtain ⟨-, hnext⟩ := Option.ite_none_right_eq_some.mp hnext
      rw [threadStep] at hnext
      rw [RecordedScheduler.eventsOf]
      cases hthread : s.threads index with
      | top =>
          rw [hthread] at hnext
          obtain rfl := Option.some.inj hnext
          apply moved_setThread (by simp [hthread])
          intro task
          split <;> simp
      | looking =>
          rw [hthread] at hnext
          obtain rfl := Option.some.inj hnext
          exact moved_look now hthread
      | executing task =>
          rw [hthread] at hnext
          obtain rfl := Option.some.inj hnext
          exact .execute hthread outcome now
      | settling task =>
          rw [hthread] at hnext
          obtain rfl := Option.some.inj hnext
          exact .settle hthread
      | sleeping =>
          rw [hthread] at hnext
          obtain rfl := Option.some.inj hnext
          apply moved_setThread (by simp [hthread])
          intro task
          split <;> simp
      | exited =>
          rw [hthread] at hnext
          cases hnext
  | stop =>
      obtain rfl := Option.some.inj hnext
      exact .same rfl rfl rfl rfl

end Scheduler

namespace RecordedScheduler

variable {r r' : RecordedScheduler} {step : SchedulerStep} {events later : List ScheduleEvent}
  {task : ℕ} {event : ScheduleEvent}

/-! ## The last event of a task -/

theorem lastOf_snoc (events : List ScheduleEvent) (event : ScheduleEvent) (task : ℕ) :
    lastOf task (events ++ [event]) =
      if event.task = some task then some event else lastOf task events := by
  rw [lastOf, History.lastValue_snoc]
  split <;> rfl

/-! ## The invariant -/

/-- A task that is not executed is left for its `nextSchedule` by its last event, and only a task
that has not completed is in the queue. -/
structure Recorded (r : RecordedScheduler) : Prop where
  kept : Scheduler.Kept r.scheduler
  spaced : History.Throughout Spaced r.events
  fresh : ∀ task, r.scheduler.added ≤ task → lastOf task r.events = none
  executing : ∀ index task, r.scheduler.threads index = .executing task →
    ∃ now, lastOf task r.events = some (.began task now)
  rested : ∀ task < r.scheduler.added,
    (∀ index, r.scheduler.threads index ≠ .executing task) →
      ∃ last, lastOf task r.events = some last ∧
        last.due = if (r.scheduler.tasks task).completed then none
          else some (r.scheduler.tasks task).nextSchedule
  waiting : ∀ task ∈ r.scheduler.tasksQueue, (r.scheduler.tasks task).completed = false

theorem Recorded.start (threadNumber : ℕ) : Recorded (start threadNumber) where
  kept := .start threadNumber
  spaced := .nil
  fresh := fun _ _ => rfl
  executing := nofun
  rested := nofun
  waiting := nofun

theorem lastOf_snoc_of_ne (hne : event.task ≠ some task) :
    lastOf task (events ++ [event]) = lastOf task events := by
  rw [lastOf_snoc, if_neg hne]

namespace Recorded

/-- What a thread works on has been added, and is not in the queue. -/
theorem lt_of_holds (h : Recorded r) {index : ℕ} (hholds : r.scheduler.Holds index task) :
    task < r.scheduler.added ∧ task ∉ r.scheduler.tasksQueue :=
  have hslot := (h.kept.slots index task).mpr hholds
  ⟨h.kept.running index task hslot, h.kept.apart index task hslot⟩

theorem not_executing (h : Recorded r) (hmem : task ∈ r.scheduler.tasksQueue) (index : ℕ) :
    r.scheduler.threads index ≠ .executing task := by
  intro hthread
  exact (h.lt_of_holds (.inl hthread)).2 hmem

theorem add (h : Recorded r) (name : String) (cronNext : Int → Option Int) (nextSchedule : Int) :
    Recorded ⟨r.scheduler.addTask name cronNext nextSchedule,
      r.events ++ [.added r.scheduler.added nextSchedule]⟩ where
  kept := h.kept.addTask name cronNext nextSchedule
  spaced := h.spaced.snoc (h.fresh _ (Nat.le_refl _))
  fresh := by
    intro task hle
    have hne : r.scheduler.added ≠ task := Nat.ne_of_lt hle
    rw [lastOf_snoc_of_ne (by simpa [ScheduleEvent.task] using hne)]
    exact h.fresh task (Nat.le_of_succ_le hle)
  executing := by
    intro index task hthread
    have hne : r.scheduler.added ≠ task := (Nat.ne_of_lt (h.lt_of_holds (.inl hthread)).1).symm
    rw [lastOf_snoc_of_ne (by simpa [ScheduleEvent.task] using hne)]
    exact h.executing index task hthread
  rested := by
    intro task hlt hthreads
    by_cases heq : task = r.scheduler.added
    · subst heq
      refine ⟨_, (lastOf_snoc ..).trans (if_pos rfl), ?_⟩
      simp [Scheduler.addTask, ScheduleEvent.due]
    · rw [lastOf_snoc_of_ne (by simpa [ScheduleEvent.task] using Ne.symm heq)]
      simp only [Scheduler.addTask, Function.update_of_ne heq]
      exact h.rested task ((Nat.lt_succ_iff_lt_or_eq.mp hlt).resolve_right heq) hthreads
  waiting := by
    intro task hmem
    rcases List.mem_cons.mp hmem with rfl | hmem
    · simp [Scheduler.addTask]
    · have hne : task ≠ r.scheduler.added := Nat.ne_of_lt (h.kept.queued task hmem)
      simp only [Scheduler.addTask, Function.update_of_ne hne]
      exact h.waiting task hmem

theorem idle (h : Recorded r) {index : ℕ} (now : Int)
    (hthread : r.scheduler.threads index = .looking)
    (hkept : Scheduler.Kept (r.scheduler.setThread index .sleeping)) :
    Recorded ⟨r.scheduler.setThread index .sleeping, r.events ++ [.idle now]⟩ := by
  have hlast (task : ℕ) : lastOf task (r.events ++ [.idle now]) = lastOf task r.events :=
    lastOf_snoc_of_ne nofun
  have hexecuting : ∀ other task,
      (r.scheduler.setThread index .sleeping).threads other = .executing task ↔
        r.scheduler.threads other = .executing task := by
    intro other task
    by_cases heq : other = index
    · subst heq
      simp [Scheduler.setThread, hthread]
    · simp [Scheduler.setThread, heq]
  refine ⟨hkept, h.spaced.snoc trivial, ?_, ?_, ?_, h.waiting⟩
  · intro task hle
    rw [hlast]
    exact h.fresh task hle
  · intro other task hother
    rw [hlast]
    exact h.executing other task ((hexecuting other task).mp hother)
  · intro task hlt hthreads
    rw [hlast]
    exact h.rested task hlt fun other hother => hthreads other ((hexecuting other task).mpr hother)

theorem take (h : Recorded r) {index : ℕ} {now : Int}
    (hthread : r.scheduler.threads index = .looking)
    (hfind : r.scheduler.tasksQueue.find?
      (fun task => (r.scheduler.tasks task).canBeExecuted now) = some task)
    (hkept : Scheduler.Kept { r.scheduler with
      tasksQueue := r.scheduler.tasksQueue.erase task
      runningTaskVector := Function.update r.scheduler.runningTaskVector index (some task)
      threads := Function.update r.scheduler.threads index (.executing task) }) :
    Recorded ⟨{ r.scheduler with
      tasksQueue := r.scheduler.tasksQueue.erase task
      runningTaskVector := Function.update r.scheduler.runningTaskVector index (some task)
      threads := Function.update r.scheduler.threads index (.executing task) },
        r.events ++ [.began task now]⟩ := by
  have hmem := List.mem_of_find?_eq_some hfind
  have hlt := h.kept.queued task hmem
  have hdue : (r.scheduler.tasks task).nextSchedule ≤ now := by
    have hcan := List.find?_some hfind
    rw [SchedulerTask.canBeExecuted, Bool.and_eq_true] at hcan
    exact of_decide_eq_true hcan.1
  refine ⟨hkept, h.spaced.snoc ?_, ?_, ?_, ?_, ?_⟩
  · obtain ⟨last, hlast, hrest⟩ := h.rested task hlt (h.not_executing hmem)
    rw [h.waiting task hmem] at hrest
    exact ⟨last, _, hlast, hrest, hdue⟩
  · intro other hle
    have hne : task ≠ other := Nat.ne_of_lt (Nat.lt_of_lt_of_le hlt hle)
    rw [lastOf_snoc_of_ne (by simpa [ScheduleEvent.task] using hne)]
    exact h.fresh other hle
  · intro other found hother
    by_cases heq : other = index
    · subst heq
      obtain rfl : task = found := by simpa using hother
      exact ⟨now, (lastOf_snoc ..).trans (if_pos rfl)⟩
    · simp only [Function.update_of_ne heq] at hother
      have hne : task ≠ found := by
        rintro rfl
        exact h.not_executing hmem other hother
      rw [lastOf_snoc_of_ne (by simpa [ScheduleEvent.task] using hne)]
      exact h.executing other found hother
  · intro found hfound hthreads
    have hne : task ≠ found := by
      rintro rfl
      exact hthreads index (Function.update_self ..)
    rw [lastOf_snoc_of_ne (by simpa [ScheduleEvent.task] using hne)]
    refine h.rested found hfound fun other hother => hthreads other ?_
    have heq : other ≠ index := by
      rintro rfl
      rw [hthread] at hother
      cases hother
    exact (Function.update_of_ne heq ..).trans hother
  · exact fun found hfound => h.waiting found (List.mem_of_mem_erase hfound)

theorem execute (h : Recorded r) {index : ℕ} (hthread : r.scheduler.threads index = .executing task)
    (outcome : HandlerOutcome) (now : Int)
    (hkept : Scheduler.Kept ((r.scheduler.setTask task
      ((r.scheduler.tasks task).execute outcome now)).setThread index (.settling task))) :
    Recorded ⟨(r.scheduler.setTask task
      ((r.scheduler.tasks task).execute outcome now)).setThread index (.settling task),
        r.events ++ [.ended task (r.scheduler.tasks task).cronNext outcome now]⟩ := by
  obtain ⟨hlt, hqueue⟩ := h.lt_of_holds (.inl hthread)
  refine ⟨hkept, h.spaced.snoc (h.executing index task hthread), ?_, ?_, ?_, ?_⟩
  · intro other hle
    have hne : task ≠ other := Nat.ne_of_lt (Nat.lt_of_lt_of_le hlt hle)
    rw [lastOf_snoc_of_ne (by simpa [ScheduleEvent.task] using hne)]
    exact h.fresh other hle
  · intro other found hother
    by_cases heq : other = index
    · subst heq
      simp [Scheduler.setThread] at hother
    · simp only [Scheduler.setThread, Scheduler.setTask, Function.update_of_ne heq] at hother
      have hne : task ≠ found := by
        rintro rfl
        exact heq (h.kept.single index other task ((h.kept.slots index task).mpr (.inl hthread))
          ((h.kept.slots other task).mpr (.inl hother)))
      rw [lastOf_snoc_of_ne (by simpa [ScheduleEvent.task] using hne)]
      exact h.executing other found hother
  · intro found hfound hthreads
    by_cases hsame : found = task
    · subst hsame
      refine ⟨_, (lastOf_snoc ..).trans (if_pos rfl), ?_⟩
      simp only [Scheduler.setThread, Scheduler.setTask, Function.update_self,
        SchedulerTask.execute, SchedulerTask.rescheduleTimeout, ScheduleEvent.due]
      split_ifs <;> rfl
    · rw [lastOf_snoc_of_ne (by simpa [ScheduleEvent.task] using Ne.symm hsame)]
      simp only [Scheduler.setThread, Scheduler.setTask, Function.update_of_ne hsame]
      refine h.rested found hfound fun other hother => hthreads other ?_
      have heq : other ≠ index := by
        rintro rfl
        rw [hthread] at hother
        exact hsame (SchedulerPhase.executing.inj hother).symm
      exact (Function.update_of_ne heq ..).trans hother
  · intro found hfound
    have hne : found ≠ task := by
      rintro rfl
      exact hqueue hfound
    simp only [Scheduler.setThread, Scheduler.setTask, Function.update_of_ne hne]
    exact h.waiting found hfound

/-- What the settling of a task leaves of the tasks, the queue and the threads. -/
theorem settle_spec (s : Scheduler) (index task : ℕ) :
    (∀ other, ((s.settle index task).tasks other).completed = (s.tasks other).completed ∧
      ((s.settle index task).tasks other).nextSchedule = (s.tasks other).nextSchedule) ∧
    (∀ other ∈ (s.settle index task).tasksQueue, other ∈ s.tasksQueue ∨
      other = task ∧ (s.tasks task).completed = false) ∧
    (s.settle index task).threads = Function.update s.threads index .top ∧
      (s.settle index task).added = s.added := by
  by_cases hcompleted : (s.tasks task).completed = true
  · rw [Scheduler.settle, if_pos hcompleted]
    exact ⟨fun _ => ⟨rfl, rfl⟩, fun _ hmem => .inl hmem, rfl, rfl⟩
  · rw [Scheduler.settle, if_neg hcompleted]
    refine ⟨fun other => ?_, fun other hmem => ?_, rfl, rfl⟩
    · dsimp only
      by_cases hother : other = task
      · subst hother
        rw [Function.update_self]
        split <;> exact ⟨rfl, rfl⟩
      · rw [Function.update_of_ne hother]
        exact ⟨rfl, rfl⟩
    · rcases List.mem_append.mp hmem with hmem | hmem
      · exact .inl hmem
      · exact .inr ⟨List.mem_singleton.mp hmem, Bool.eq_false_iff.mpr hcompleted⟩

theorem settle (h : Recorded r) {index : ℕ} (hthread : r.scheduler.threads index = .settling task)
    (hkept : Scheduler.Kept (r.scheduler.settle index task)) :
    Recorded ⟨r.scheduler.settle index task, r.events⟩ := by
  obtain ⟨htasks, hqueue, hthreads, hadded⟩ := settle_spec r.scheduler index task
  have hexecuting : ∀ other found,
      (r.scheduler.settle index task).threads other = .executing found ↔
        r.scheduler.threads other = .executing found := by
    intro other found
    rw [hthreads]
    by_cases heq : other = index
    · subst heq
      simp [hthread]
    · rw [Function.update_of_ne heq]
  refine ⟨hkept, h.spaced, ?_, ?_, ?_, ?_⟩
  · rw [hadded]
    exact h.fresh
  · intro other found hother
    exact h.executing other found ((hexecuting other found).mp hother)
  · intro found hfound hothers
    rw [(htasks found).1, (htasks found).2]
    rw [hadded] at hfound
    exact h.rested found hfound fun other hother =>
      hothers other ((hexecuting other found).mpr hother)
  · intro found hfound
    rw [(htasks found).1]
    rcases hqueue found hfound with hmem | ⟨rfl, hopen⟩
    · exact h.waiting found hmem
    · exact hopen

theorem moved {s : Scheduler} (h : Recorded r) (hkept : Scheduler.Kept s)
    (hmoved : r.scheduler.Moved s later) : Recorded ⟨s, r.events ++ later⟩ := by
  cases hmoved with
  | quiet remains hqueue htasks hadded hholds hexecuting =>
      rw [List.append_nil]
      refine ⟨hkept, h.spaced, ?_, ?_, ?_, ?_⟩
      · rw [hadded]
        exact h.fresh
      · intro index task hthread
        exact h.executing index task ((hexecuting index task).mp hthread)
      · intro task hlt hthreads
        rw [htasks]
        rw [hadded] at hlt
        exact h.rested task hlt fun index hthread =>
          hthreads index ((hexecuting index task).mpr hthread)
      · intro task hmem
        rw [htasks]
        rw [hqueue] at hmem
        exact h.waiting task (List.mem_of_mem_filter hmem)
  | add name cronNext nextSchedule => exact h.add name cronNext nextSchedule
  | idle hthread hnone => exact h.idle _ hthread hkept
  | take hthread hfind => exact h.take hthread hfind hkept
  | execute hthread outcome now => exact h.execute hthread outcome now hkept
  | settle hthread =>
      rw [List.append_nil]
      exact h.settle hthread hkept

theorem next (h : Recorded r) (hnext : r.next step = some r') : Recorded r' := by
  obtain ⟨s, hs, rfl⟩ := Option.map_eq_some_iff.mp hnext
  exact h.moved (h.kept.step hs) (Scheduler.moved_of_next hs)

theorem of_run {threadNumber : ℕ} {steps : List SchedulerStep}
    (h : AnyRun RecordedScheduler.next (RecordedScheduler.start threadNumber) steps r) :
    Recorded r :=
  h.invariant (I := fun _ r => Recorded r) (.start threadNumber) fun hr _ hnext => hr.next hnext

end Recorded

/-! ## Runs -/

/-- Whatever the threads, the clock and the handlers do: a task begins no earlier than the time for
which it was added or its last execution has left it, never while it is executed and never after it
has completed. -/
theorem spaced_of_run {threadNumber : ℕ} {steps : List SchedulerStep}
    (h : AnyRun next (start threadNumber) steps r) : History.Throughout Spaced r.events :=
  (Recorded.of_run h).spaced

/-- A handler throws at 5 and is executed again at 70. -/
theorem spaced_of_run_throws : ∃ steps r, AnyRun next (start 1) steps r ∧
    r.events.length = 5 ∧ History.Throughout Spaced r.events := by
  obtain ⟨r, hrun, hcheck⟩ := exists_run next (fun _ _ => True) (start 1)
    [.addTask "purge" (fun now => some (now + 10)) 0,
      .thread 0 5 ⟨false, false, false⟩, .thread 0 5 ⟨false, false, false⟩,
      .thread 0 5 ⟨false, false, true⟩, .thread 0 5 ⟨false, false, false⟩,
      .thread 0 20 ⟨false, false, false⟩, .thread 0 20 ⟨false, false, false⟩,
      .thread 0 70 ⟨false, false, false⟩, .thread 0 70 ⟨false, false, false⟩,
      .thread 0 70 ⟨false, false, false⟩]
    (fun r => r.events.length == 5) (by decide +kernel)
  rw [beq_iff_eq] at hcheck
  exact ⟨_, r, hrun, hcheck, spaced_of_run hrun⟩

end RecordedScheduler

end K2eg
