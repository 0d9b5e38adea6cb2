import K2eg.Foundation.ReadyQueue
import K2eg.Verification.Scheduler.Executions

/-! # Tasks that wait

A task that is due is taken after at most as many looks as there are tasks in front of it, and that
are added meanwhile: a task that is put back goes behind it, even one that asks to run at once. -/

namespace K2eg

open Interleaving ReadyQueue

namespace RecordedScheduler

variable {r r' : RecordedScheduler} {task : ℕ} {later : List ScheduleEvent}

/-- A look of a thread at this time or later. -/
def looksAt (due : Int) : ScheduleEvent → Bool
  | .began _ now => decide (due ≤ now)
  | .idle now => decide (due ≤ now)
  | _ => false

def isAdded : ScheduleEvent → Bool
  | .added _ _ => true
  | _ => false

/-- Since the first state the task has only waited: it has been neither taken nor changed. -/
structure Waited (r r' : RecordedScheduler) (task : ℕ) (later : List ScheduleEvent) : Prop where
  same : r'.scheduler.tasks task = r.scheduler.tasks task
  free : ∀ index, ¬ r'.scheduler.Holds index task
  added : task < r'.scheduler.added
  waits : task ∈ r'.scheduler.tasksQueue →
    Waits task r.scheduler.tasksQueue (later.countP isAdded)
      (later.countP (looksAt (r.scheduler.tasks task).nextSchedule)) r'.scheduler.tasksQueue

theorem Waited.start (h : Recorded r) (hmem : task ∈ r.scheduler.tasksQueue) :
    Waited r r task [] where
  same := rfl
  free := fun _ hholds => (h.lt_of_holds hholds).2 hmem
  added := h.kept.queued task hmem
  waits := .start

/-- The task in the queue can be executed from its time on. -/
theorem Waited.canBeExecuted (h : Waited r r' task later)
    (hmark : (r.scheduler.tasks task).toBeDeleted = false) (now : Int) :
    (r'.scheduler.tasks task).canBeExecuted now = true ↔
      (r.scheduler.tasks task).nextSchedule ≤ now := by
  rw [h.same, SchedulerTask.canBeExecuted, hmark]
  simp

/-- A thread that takes up something else does not hold the task. -/
theorem free_update {s t : Scheduler} {index : ℕ} {phase : SchedulerPhase}
    (hfree : ∀ other, ¬ s.Holds other task)
    (hthreads : t.threads = Function.update s.threads index phase)
    (hphase : phase ≠ .executing task ∧ phase ≠ .settling task) (other : ℕ) :
    ¬ t.Holds other task := by
  rw [Scheduler.Holds, hthreads]
  by_cases heq : other = index
  · subst heq
    simpa using hphase
  · rw [Function.update_of_ne heq]
    exact hfree other

theorem Waited.moved {s : Scheduler} {events : List ScheduleEvent} (h : Waited r r' task later)
    (hmark : (r.scheduler.tasks task).toBeDeleted = false)
    (hmoved : r'.scheduler.Moved s events) (hnever : ∀ now, .began task now ∉ events) :
    Waited r ⟨s, r'.events ++ events⟩ task (later ++ events) := by
  cases hmoved with
  | quiet remains hqueue htasks hadded hholds hexecuting =>
      rw [List.append_nil, List.append_nil]
      refine ⟨?_, ?_, ?_, ?_⟩
      · rw [htasks]
        exact h.same
      · exact fun index hindex => h.free index ((hholds index task).mp hindex)
      · rw [hadded]
        exact h.added
      · intro hmem
        rw [hqueue] at hmem ⊢
        obtain ⟨hmem, hremains⟩ := List.mem_filter.mp hmem
        exact (h.waits hmem).withdraw hremains
  | add name cronNext nextSchedule =>
      have hne : task ≠ r'.scheduler.added := Nat.ne_of_lt h.added
      refine ⟨?_, h.free, Nat.lt_succ_of_lt h.added, ?_⟩
      · exact (Function.update_of_ne hne ..).trans h.same
      · intro hmem
        rw [List.countP_append, List.countP_append]
        exact (h.waits ((List.mem_cons.mp hmem).resolve_left hne)).join (Ne.symm hne)
  | @idle index now hthread hnone =>
      refine ⟨h.same, free_update h.free rfl (by simp), h.added, ?_⟩
      intro hmem
      -- the task itself would have been found
      have hearly : ¬ (r.scheduler.tasks task).nextSchedule ≤ now := by
        rw [← h.canBeExecuted hmark, hnone task hmem]
        exact Bool.false_ne_true
      rw [List.countP_append, List.countP_append]
      change Waits task _ _ _ r'.scheduler.tasksQueue
      simpa [looksAt, isAdded, hearly] using h.waits hmem
  | @take index found now hthread hfind =>
      have hne : found ≠ task := by
        rintro rfl
        exact hnever now (List.mem_singleton_self _)
      refine ⟨h.same, free_update h.free rfl (by simp [hne]), h.added, ?_⟩
      intro hmem
      have hwaits := h.waits (List.mem_of_mem_erase hmem)
      rw [List.countP_append, List.countP_append]
      by_cases hdue : (r.scheduler.tasks task).nextSchedule ≤ now
      · have hready := (h.canBeExecuted hmark now).mpr hdue
        simpa [looksAt, isAdded, hdue] using hwaits.overtake hready hfind hne
      · simpa [looksAt, isAdded, hdue] using hwaits.early hne
  | @execute index found hthread outcome now =>
      have hne : found ≠ task := by
        rintro rfl
        exact h.free index (.inl hthread)
      refine ⟨?_, free_update h.free rfl (by simp [hne]), h.added, ?_⟩
      · exact (Function.update_of_ne (Ne.symm hne) ..).trans h.same
      · intro hmem
        rw [List.countP_append, List.countP_append]
        exact h.waits hmem
  | @settle index found hthread =>
      have hne : found ≠ task := by
        rintro rfl
        exact h.free index (.inr hthread)
      rw [List.append_nil, List.append_nil]
      by_cases hcompleted : (r'.scheduler.tasks found).completed = true
      · rw [Scheduler.settle, if_pos hcompleted]
        exact ⟨h.same, free_update h.free rfl (by simp), h.added, h.waits⟩
      · rw [Scheduler.settle, if_neg hcompleted]
        refine ⟨?_, free_update h.free rfl (by simp), h.added, ?_⟩
        · exact (Function.update_of_ne (Ne.symm hne) ..).trans h.same
        · intro hmem
          have hmem := (List.mem_append.mp hmem).resolve_right (by simpa using Ne.symm hne)
          exact (h.waits hmem).requeue found

/-! ## Runs -/

/-- The events of a run are those before it and those of its steps. -/
theorem waited_of_run {steps : List SchedulerStep} (hr : Recorded r)
    (hmem : task ∈ r.scheduler.tasksQueue) (hmark : (r.scheduler.tasks task).toBeDeleted = false)
    (h : AnyRun next r steps r') : ∃ later, r'.events = r.events ++ later ∧ Recorded r' ∧
      ((∀ now, .began task now ∉ later) → Waited r r' task later) := by
  induction h with
  | nil => exact ⟨[], (List.append_nil _).symm, hr, fun _ => .start hr hmem⟩
  | @snoc _ between step _ _ _ hnext ih =>
      obtain ⟨later, hlater, hrecorded, hwaited⟩ := ih
      have hafter := hrecorded.next hnext
      obtain ⟨s, hs, rfl⟩ := Option.map_eq_some_iff.mp hnext
      refine ⟨later ++ eventsOf between.scheduler step, ?_, hafter, fun hnever => ?_⟩
      · rw [hlater, List.append_assoc]
      · have hpast : ∀ now, .began task now ∉ later :=
          fun now hin => hnever now (List.mem_append_left _ hin)
        exact (hwaited hpast).moved hmark (Scheduler.moved_of_next hs)
          fun now hin => hnever now (List.mem_append_right _ hin)

/-- A task that is not marked to be deleted waits in the queue of a reachable state. After as many
looks behind its time as there are tasks in front of it and tasks added meanwhile, one more look
takes it, unless it is removed. -/
theorem taken_of_looks {threadNumber : ℕ} {before steps : List SchedulerStep}
    (hbefore : AnyRun next (start threadNumber) before r)
    (hmem : task ∈ r.scheduler.tasksQueue) (hmark : (r.scheduler.tasks task).toBeDeleted = false)
    (h : AnyRun next r steps r') (hlater : r'.events = r.events ++ later)
    (hlooks : r.scheduler.tasksQueue.idxOf task + later.countP isAdded <
      later.countP (looksAt (r.scheduler.tasks task).nextSchedule)) :
    (∃ now, .began task now ∈ later) ∨ task ∈ r'.scheduler.removed := by
  have hr := Recorded.of_run hbefore
  obtain ⟨events, hevents, hrecorded, hwaited⟩ := waited_of_run hr hmem hmark h
  obtain rfl := List.append_cancel_left (hlater.symm.trans hevents)
  by_contra hnot
  rw [not_or, not_exists] at hnot
  have hwaits := hwaited hnot.1
  -- it is nowhere but in the queue
  rcases hrecorded.kept.placed task hwaits.added with hgone | hdone | hqueue | ⟨index, hslot⟩
  · exact hnot.2 hgone
  · rw [hwaits.same, hr.waiting task hmem] at hdone
    cases hdone
  · have hle := (hwaits.waits hqueue).taken_le
    omega
  · exact hwaits.free index ((hrecorded.kept.slots index task).mp hslot)

private def executed (r : RecordedScheduler) (steps : List SchedulerStep) : RecordedScheduler :=
  (execute next (fun _ _ => True) r steps).getD r

private theorem run_executed {steps : List SchedulerStep}
    (h : (execute next (fun _ _ => True) r steps).isSome = true) :
    AnyRun next r steps (executed r steps) := by
  obtain ⟨r', hr'⟩ := Option.isSome_iff_exists.mp h
  rw [executed, hr']
  exact run_of_execute hr'

/-- A task waits behind one that asks to run at once. -/
private def behindRestart : RecordedScheduler := executed (start 1)
  [.addTask "purge" (fun now => some (now + 60)) 0, .addTask "restart" (fun now => some now) 0]

/-- The other one is executed, and then it is taken. -/
theorem taken_of_looks_behindRestart : ∃ steps r later, AnyRun next behindRestart steps r ∧
    r.events = behindRestart.events ++ later ∧
      ((∃ now, .began 0 now ∈ later) ∨ 0 ∈ r.scheduler.removed) := by
  let steps : List SchedulerStep := List.replicate 6 (.thread 0 5 ⟨true, false, false⟩)
  have hbefore : AnyRun next (start 1) _ behindRestart := run_executed (by decide +kernel)
  have hmem : 0 ∈ behindRestart.scheduler.tasksQueue := by decide +kernel
  have hmark : (behindRestart.scheduler.tasks 0).toBeDeleted = false := by decide +kernel
  have hafter : AnyRun next behindRestart steps (executed behindRestart steps) :=
    run_executed (by decide +kernel)
  obtain ⟨later, hlater, -⟩ := waited_of_run (Recorded.of_run hbefore) hmem hmark hafter
  obtain rfl : later = (executed behindRestart steps).events.drop behindRestart.events.length := by
    rw [hlater, List.drop_left]
  refine ⟨_, _, _, hafter, hlater, ?_⟩
  exact taken_of_looks hbefore hmem hmark hafter hlater (by decide +kernel)

end RecordedScheduler

end K2eg
