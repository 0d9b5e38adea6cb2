import K2eg.Verification.Scheduler.Places

/-! # Removing a task by its name

A removal that returns has taken out every older task of its name, and leaves nothing behind that
would touch a later one, where it does not return while an older namesake runs, and does not give
up with its name still in the set of names to remove. -/

namespace K2eg.Scheduler

open Interleaving

variable {s t : Scheduler} {steps : List SchedulerStep} {task index removal : ℕ}

/-- The task is in the queue or in a slot. -/
def Placed (s : Scheduler) (task : ℕ) : Prop :=
  task ∈ s.tasksQueue ∨ ∃ index, s.runningTaskVector index = some task

/-- The removal has not returned. -/
def Pending (s : Scheduler) (removal : ℕ) : Prop :=
  removal < s.removalCount ∧ ∀ added, (s.removals removal).phase ≠ .returned added

/-- A removal with the name of the task had not returned when the task was added. -/
def Targeted (s : Scheduler) (task : ℕ) : Prop :=
  ∃ removal < s.removalCount, (s.removals removal).taskName = (s.tasks task).name ∧
    ∀ added, (s.removals removal).phase = .returned added → task < added

/-- A removal that has returned has left none of the older tasks with its name in the queue or with
a thread. A task added after all removals of its name have returned is not marked to be deleted, and
stays in its place until it completes. -/
structure RemovesByName (s : Scheduler) : Prop where
  gone : ∀ removal < s.removalCount, ∀ added, (s.removals removal).phase = .returned added →
    ∀ task < (s.removals removal).began, (s.tasks task).name = (s.removals removal).taskName →
      task ∉ s.tasksQueue ∧ ∀ index, ¬ s.Holds index task
  spared : ∀ task < s.added,
    (∀ removal < s.removalCount, (s.removals removal).taskName = (s.tasks task).name →
      ∃ added ≤ task, (s.removals removal).phase = .returned added) →
    (s.tasks task).toBeDeleted = false ∧ ((s.tasks task).completed = true ∨ s.InOnePlace task)

/-- A removal that takes tasks from the queue finds no older namesake in a slot, and one that finds
nothing leaves its name in the set only for another removal of it. -/
def Clean (s : Scheduler) : SchedulerStep → Prop
  | .check removal =>
    let taskName := (s.removals removal).taskName
    if s.tasksQueue.any (s.named taskName) then
      ∀ index < s.threadNumber, ∀ task ∈ s.runningTaskVector index,
        s.named taskName task = true → (s.removals removal).began ≤ task
    else s.isRunning taskName = true ∨ taskName ∉ s.taskNameToRemove ∨
      ∃ other < s.removalCount, other ≠ removal ∧ (s.removals other).taskName = taskName ∧
        ((s.removals other).phase = .checking ∨ (s.removals other).phase = .waiting)
  | _ => True

instance (s : Scheduler) (step : SchedulerStep) : Decidable (s.Clean step) := by
  cases step <;> unfold Clean <;> infer_instance

/-! ## What a step of a thread does -/

/-- A thread moves tasks between the places, keeps the names, and marks a task only by its name. -/
structure ThreadMove (s t : Scheduler) : Prop where
  added : t.added = s.added
  removals : t.removals = s.removals
  removalCount : t.removalCount = s.removalCount
  names : t.taskNameToRemove = s.taskNameToRemove
  removed : t.removed = s.removed
  name : ∀ task, (t.tasks task).name = (s.tasks task).name
  marked : ∀ task, (t.tasks task).toBeDeleted = true →
    (s.tasks task).toBeDeleted = true ∨ (s.tasks task).name ∈ s.taskNameToRemove
  placed : ∀ task, t.Placed task → s.Placed task

theorem threadMove_setThread (s : Scheduler) (index : ℕ) (phase : SchedulerPhase) :
    ThreadMove s (s.setThread index phase) where
  added := rfl
  removals := rfl
  removalCount := rfl
  names := rfl
  removed := rfl
  name := fun _ => rfl
  marked := fun _ h => .inl h
  placed := fun _ h => h

theorem threadMove_look (s : Scheduler) (index : ℕ) (now : Int) :
    ThreadMove s (s.look index now) := by
  rcases Kept.look_cases s index now with hnone | ⟨task, hmem, -, htake⟩
  · rw [hnone]
    exact threadMove_setThread s index .sleeping
  · rw [htake]
    exact {
      added := rfl
      removals := rfl
      removalCount := rfl
      names := rfl
      removed := rfl
      name := fun _ => rfl
      marked := fun _ h => .inl h
      placed := by
        rintro found (hqueue | ⟨other, hslot⟩)
        · exact .inl (List.mem_of_mem_erase hqueue)
        · by_cases heq : other = index
          · subst heq
            obtain rfl : task = found := by simpa using hslot
            exact .inl hmem
          · exact .inr ⟨other, (Function.update_of_ne heq ..).symm.trans hslot⟩ }

theorem threadMove_execute (s : Scheduler) (index task : ℕ) (outcome : HandlerOutcome) (now : Int) :
    ThreadMove s ((s.setTask task ((s.tasks task).execute outcome now)).setThread index
      (.settling task)) where
  added := rfl
  removals := rfl
  removalCount := rfl
  names := rfl
  removed := rfl
  name := by
    intro other
    by_cases heq : other = task
    · subst heq
      simp [setThread, setTask, SchedulerTask.execute]
    · simp [setThread, setTask, heq]
  marked := by
    intro other h
    by_cases heq : other = task
    · subst heq
      exact .inl (by simpa [setThread, setTask, SchedulerTask.execute] using h)
    · exact .inl (by simpa [setThread, setTask, heq] using h)
  placed := fun _ h => h

theorem threadMove_settle (h : Kept s) (hphase : s.threads index = .settling task) :
    ThreadMove s (s.settle index task) := by
  have hslot : s.runningTaskVector index = some task := (h.slots index task).2 (.inr hphase)
  have hold : ∀ other found, Function.update s.runningTaskVector index none other = some found →
      s.runningTaskVector other = some found := by
    intro other found hfound
    by_cases heq : other = index
    · subst heq
      simp at hfound
    · rwa [Function.update_of_ne heq] at hfound
  rw [settle]
  split
  · exact {
      added := rfl
      removals := rfl
      removalCount := rfl
      names := rfl
      removed := rfl
      name := fun _ => rfl
      marked := fun _ h => .inl h
      placed := by
        rintro found (hqueue | ⟨other, hfound⟩)
        · exact .inl hqueue
        · exact .inr ⟨other, hold other found hfound⟩ }
  · exact {
      added := rfl
      removals := rfl
      removalCount := rfl
      names := rfl
      removed := rfl
      name := by
        intro other
        by_cases heq : other = task
        · subst heq
          simp only [Function.update_self]
          split <;> rfl
        · simp [heq]
      marked := by
        intro other hmarked
        by_cases heq : other = task
        · subst heq
          by_cases hname : (s.tasks other).name ∈ s.taskNameToRemove
          · exact .inr hname
          · exact .inl (by simpa [hname] using hmarked)
        · exact .inl (by simpa [heq] using hmarked)
      placed := by
        rintro found (hqueue | ⟨other, hfound⟩)
        · rcases List.mem_append.1 hqueue with hqueue | hlast
          · exact .inl hqueue
          · obtain rfl := List.mem_singleton.1 hlast
            exact .inr ⟨index, hslot⟩
        · exact .inr ⟨other, hold other found hfound⟩ }

theorem threadMove_of_threadStep (h : Kept s) {now : Int} {outcome : HandlerOutcome}
    (hnext : s.threadStep index now outcome = some t) : ThreadMove s t := by
  rw [threadStep] at hnext
  cases hphase : s.threads index with
  | top =>
      simp only [hphase] at hnext
      obtain rfl := Option.some.inj hnext
      exact threadMove_setThread s index _
  | looking =>
      simp only [hphase] at hnext
      obtain rfl := Option.some.inj hnext
      exact threadMove_look s index now
  | executing task =>
      simp only [hphase] at hnext
      obtain rfl := Option.some.inj hnext
      exact threadMove_execute s index task outcome now
  | settling task =>
      simp only [hphase] at hnext
      obtain rfl := Option.some.inj hnext
      exact threadMove_settle h hphase
  | sleeping =>
      simp only [hphase] at hnext
      obtain rfl := Option.some.inj hnext
      exact threadMove_setThread s index _
  | exited => simp [hphase] at hnext

/-! ## What a check of a removal does -/

/-- A check changes the phase of its own removal only; where it returns, the removal has seen all
tasks that were added. -/
structure CheckMove (s t : Scheduler) (removal : ℕ) : Prop where
  added : t.added = s.added
  tasks : t.tasks = s.tasks
  removalCount : t.removalCount = s.removalCount
  taskName : ∀ other, (t.removals other).taskName = (s.removals other).taskName
  began : ∀ other, (t.removals other).began = (s.removals other).began
  others : ∀ other, other ≠ removal → (t.removals other).phase = (s.removals other).phase
  returned : ∀ added, (t.removals removal).phase = .returned added → added = s.added
  placed : ∀ task, t.Placed task → s.Placed task

theorem checkMove (s : Scheduler) (removal : ℕ) : CheckMove s (s.check removal) removal := by
  rw [check]
  split
  · exact {
      added := rfl
      tasks := rfl
      removalCount := rfl
      taskName := fun _ => (removals_update ..).1
      began := fun _ => (removals_update ..).2
      others := fun other hne => by simp [hne]
      returned := fun added h => by simpa [eq_comm] using h
      placed := by
        rintro task (hqueue | hslot)
        · exact .inl (List.mem_of_mem_filter hqueue)
        · exact .inr hslot }
  · split
    · exact {
        added := rfl
        tasks := rfl
        removalCount := rfl
        taskName := fun _ => (removals_update ..).1
        began := fun _ => (removals_update ..).2
        others := fun other hne => by simp [hne]
        returned := fun added h => by simp at h
        placed := fun _ h => h }
    · exact {
        added := rfl
        tasks := rfl
        removalCount := rfl
        taskName := fun _ => (removals_update ..).1
        began := fun _ => (removals_update ..).2
        others := fun other hne => by simp [setRemoval, hne]
        returned := fun added h => by simpa [setRemoval, eq_comm] using h
        placed := fun _ h => h }

/-! ## The invariant -/

/-- The names to remove are those of removals that have not returned, and only such removals have
marked or erased a task. -/
structure Orderly (s : Scheduler) : Prop where
  kept : Kept s
  began : ∀ removal < s.removalCount, (s.removals removal).began ≤ s.added
  named : ∀ name ∈ s.taskNameToRemove, ∃ removal, s.Pending removal ∧
    (s.removals removal).taskName = name
  marked : ∀ task < s.added, (s.tasks task).toBeDeleted = true → s.Targeted task
  erased : ∀ task ∈ s.removed, s.Targeted task
  gone : ∀ removal < s.removalCount, ∀ added, (s.removals removal).phase = .returned added →
    ∀ task < (s.removals removal).began, (s.tasks task).name = (s.removals removal).taskName →
      ¬ s.Placed task

namespace Orderly

theorem start (threadNumber : ℕ) : Orderly (.start threadNumber) where
  kept := Kept.start threadNumber
  began := nofun
  named := nofun
  marked := nofun
  erased := nofun
  gone := nofun

theorem targeted_of_pending (hpending : s.Pending removal)
    (hname : (s.removals removal).taskName = (s.tasks task).name) : s.Targeted task :=
  ⟨removal, hpending.1, hname, fun added hreturned => absurd hreturned (hpending.2 added)⟩

/-- A thread step. -/
theorem threadMove (h : Orderly s) (hkept : Kept t) (hmove : ThreadMove s t) : Orderly t := by
  have htargeted : ∀ task, s.Targeted task → t.Targeted task := by
    rintro task ⟨removal, hlt, hname, hreturned⟩
    refine ⟨removal, hmove.removalCount ▸ hlt, ?_, ?_⟩
    · rw [hmove.removals, hmove.name, hname]
    · rw [hmove.removals]
      exact hreturned
  constructor
  case kept => exact hkept
  case began =>
    rw [hmove.removalCount, hmove.removals, hmove.added]
    exact h.began
  case named =>
    rw [hmove.names]
    intro name hname
    obtain ⟨removal, hpending, htaskName⟩ := h.named name hname
    refine ⟨removal, ?_, by rw [hmove.removals, htaskName]⟩
    rw [Pending, hmove.removalCount, hmove.removals]
    exact hpending
  case marked =>
    rw [hmove.added]
    intro task hlt hmarked
    rcases hmove.marked task hmarked with hbefore | hname
    · exact htargeted task (h.marked task hlt hbefore)
    · obtain ⟨removal, hpending, htaskName⟩ := h.named _ hname
      exact htargeted task (targeted_of_pending hpending htaskName)
  case erased =>
    rw [hmove.removed]
    exact fun task hmem => htargeted task (h.erased task hmem)
  case gone =>
    rw [hmove.removalCount, hmove.removals]
    intro removal hlt added hreturned task hbegan hname hplaced
    rw [hmove.name] at hname
    exact h.gone removal hlt added hreturned task hbegan hname (hmove.placed task hplaced)

theorem addTask (h : Orderly s) (name : String) (cronNext : Int → Option Int) (nextSchedule : Int) :
    Orderly (s.addTask name cronNext nextSchedule) := by
  have htask : ∀ task < s.added, (s.addTask name cronNext nextSchedule).tasks task =
      s.tasks task := fun task hlt => Function.update_of_ne (Nat.ne_of_lt hlt) ..
  have htargeted : ∀ task < s.added, s.Targeted task →
      (s.addTask name cronNext nextSchedule).Targeted task := by
    rintro task hlt ⟨removal, hcount, hname, hreturned⟩
    exact ⟨removal, hcount, by rw [htask task hlt]; exact hname, hreturned⟩
  constructor
  case kept => exact h.kept.addTask name cronNext nextSchedule
  case began => exact fun removal hlt => Nat.le_succ_of_le (h.began removal hlt)
  case named => exact h.named
  case marked =>
    intro task hlt hmarked
    rcases Nat.lt_succ_iff_lt_or_eq.1 hlt with hlt | rfl
    · rw [htask task hlt] at hmarked
      exact htargeted task hlt (h.marked task hlt hmarked)
    · simp [Scheduler.addTask] at hmarked
  case erased => exact fun task hmem => htargeted task (h.kept.fresh task hmem) (h.erased task hmem)
  case gone =>
    intro removal hlt added hreturned task hbegan hname hplaced
    have hold : task < s.added := Nat.lt_of_lt_of_le hbegan (h.began removal hlt)
    rw [htask task hold] at hname
    apply h.gone removal hlt added hreturned task hbegan hname
    rcases hplaced with hqueue | hslot
    · rcases List.mem_cons.1 hqueue with rfl | hqueue
      · exact absurd hold (lt_irrefl _)
      · exact .inl hqueue
    · exact .inr hslot

theorem beginRemoval (h : Orderly s) (taskName : String) : Orderly (s.beginRemoval taskName) := by
  have hold : ∀ removal < s.removalCount,
      (s.beginRemoval taskName).removals removal = s.removals removal :=
    fun removal hlt => Function.update_of_ne (Nat.ne_of_lt hlt) ..
  have htargeted : ∀ task, s.Targeted task → (s.beginRemoval taskName).Targeted task := by
    rintro task ⟨removal, hlt, hname, hreturned⟩
    refine ⟨removal, Nat.lt_succ_of_lt hlt, ?_, ?_⟩
    · rw [hold removal hlt]
      exact hname
    · rw [hold removal hlt]
      exact hreturned
  constructor
  case kept => exact h.kept.beginRemoval taskName
  case began =>
    intro removal hlt
    rcases Nat.lt_succ_iff_lt_or_eq.1 hlt with hlt | rfl
    · rw [hold removal hlt]
      exact h.began removal hlt
    · simp [Scheduler.beginRemoval]
  case named =>
    intro name hname
    obtain ⟨removal, ⟨hlt, hphase⟩, htaskName⟩ := h.named name hname
    refine ⟨removal, ⟨Nat.lt_succ_of_lt hlt, ?_⟩, ?_⟩
    · rw [hold removal hlt]
      exact hphase
    · rw [hold removal hlt]
      exact htaskName
  case marked => exact fun task hlt hmarked => htargeted task (h.marked task hlt hmarked)
  case erased => exact fun task hmem => htargeted task (h.erased task hmem)
  case gone =>
    intro removal hlt added hreturned task hbegan hname hplaced
    rcases Nat.lt_succ_iff_lt_or_eq.1 hlt with hlt | rfl
    · rw [hold removal hlt] at hreturned hbegan hname
      exact h.gone removal hlt added hreturned task hbegan hname hplaced
    · simp [Scheduler.beginRemoval] at hreturned

/-- A task that was targeted stays so: a removal that returns has seen it. -/
theorem targeted_check (hmove : CheckMove s t removal) (hlt : task < s.added)
    (h : s.Targeted task) : t.Targeted task := by
  obtain ⟨other, hcount, hname, hreturned⟩ := h
  refine ⟨other, hmove.removalCount ▸ hcount, ?_, ?_⟩
  · rw [hmove.taskName, hmove.tasks]
    exact hname
  · intro added hphase
    by_cases heq : other = removal
    · subst heq
      rw [hmove.returned added hphase]
      exact hlt
    · rw [hmove.others other heq] at hphase
      exact hreturned added hphase

/-- Another removal that has not returned stays so. -/
theorem pending_check {other : ℕ} (hmove : CheckMove s t removal) (hne : other ≠ removal)
    (h : s.Pending other) : t.Pending other := by
  refine ⟨hmove.removalCount ▸ h.1, ?_⟩
  rw [hmove.others other hne]
  exact h.2

/-- A check keeps the invariant where the names that it leaves, the tasks that it erases and its own
return do. -/
theorem checked (h : Orderly s) (hkept : Kept t) (hmove : CheckMove s t removal)
    (hnamed : ∀ name ∈ t.taskNameToRemove, ∃ removal, t.Pending removal ∧
      (t.removals removal).taskName = name)
    (herased : ∀ task ∈ t.removed, task ∈ s.removed ∨ t.Targeted task)
    (hgone : ∀ added, (t.removals removal).phase = .returned added →
      ∀ task < (s.removals removal).began, (s.tasks task).name = (s.removals removal).taskName →
        ¬ t.Placed task) : Orderly t := by
  constructor
  case kept => exact hkept
  case began =>
    intro other hlt
    rw [hmove.began, hmove.added]
    exact h.began other (hmove.removalCount ▸ hlt)
  case named => exact hnamed
  case marked =>
    rw [hmove.added, hmove.tasks]
    exact fun task hlt hmarked => targeted_check hmove hlt (h.marked task hlt hmarked)
  case erased =>
    intro task hmem
    rcases herased task hmem with hbefore | htargeted
    · exact targeted_check hmove (h.kept.fresh task hbefore) (h.erased task hbefore)
    · exact htargeted
  case gone =>
    intro other hlt added hreturned task hbegan hname hplaced
    rw [hmove.began] at hbegan
    rw [hmove.tasks, hmove.taskName] at hname
    by_cases heq : other = removal
    · subst heq
      exact hgone added hreturned task hbegan hname hplaced
    · rw [hmove.others other heq] at hreturned
      exact h.gone other (hmove.removalCount ▸ hlt) added hreturned task hbegan hname
        (hmove.placed task hplaced)

/-- A removal takes the tasks with its name out of the queue. -/
theorem check_erase (h : Orderly s) (hremoval : removal < s.removalCount)
    (hqueue : s.tasksQueue.any (s.named (s.removals removal).taskName) = true)
    (hslots : ∀ index < s.threadNumber, ∀ task ∈ s.runningTaskVector index,
      s.named (s.removals removal).taskName task = true → (s.removals removal).began ≤ task) :
    Orderly (s.check removal) := by
  have hmove := checkMove s removal
  refine h.checked (h.kept.check hremoval) hmove ?_ ?_ ?_
  case refine_1 =>
    intro name hname
    have hfilter : name ∈ s.taskNameToRemove ∧ name ≠ (s.removals removal).taskName := by
      simpa [Scheduler.check, hqueue] using hname
    obtain ⟨other, hpending, htaskName⟩ := h.named name hfilter.1
    have hne : other ≠ removal := by
      rintro rfl
      exact hfilter.2 htaskName.symm
    exact ⟨other, pending_check hmove hne hpending, (hmove.taskName other).trans htaskName⟩
  case refine_2 =>
    intro task hmem
    have happend : task ∈ s.removed ∨
        task ∈ s.tasksQueue ∧ s.named (s.removals removal).taskName task = true := by
      simpa [Scheduler.check, hqueue] using hmem
    rcases happend with hbefore | ⟨hin, hname⟩
    · exact .inl hbefore
    · refine .inr ⟨removal, hmove.removalCount ▸ hremoval, ?_, ?_⟩
      · rw [hmove.taskName, hmove.tasks]
        exact (beq_iff_eq.1 hname).symm
      · intro added hphase
        rw [hmove.returned added hphase]
        exact h.kept.queued task hin
  case refine_3 =>
    intro added _ task hbegan hname hplaced
    have hnamed : s.named (s.removals removal).taskName task = true := beq_iff_eq.2 hname
    rcases hplaced with hin | ⟨index, hslot⟩
    · have hfilter : task ∈ s.tasksQueue ∧ s.named (s.removals removal).taskName task = false := by
        simpa [Scheduler.check, hqueue] using hin
      rw [hnamed] at hfilter
      exact Bool.noConfusion hfilter.2
    · have hold : s.runningTaskVector index = some task := by
        simpa [Scheduler.check, hqueue] using hslot
      have hindex : index < s.threadNumber := h.kept.slot_lt hold
      exact Nat.lt_irrefl _ (hbegan.trans_le (hslots index hindex task hold hnamed))

/-- A removal finds nothing in the queue and a namesake in a slot: it waits. -/
theorem check_wait (h : Orderly s) (hremoval : removal < s.removalCount)
    (hqueue : s.tasksQueue.any (s.named (s.removals removal).taskName) = false)
    (hrunning : s.isRunning (s.removals removal).taskName = true) : Orderly (s.check removal) := by
  have hmove := checkMove s removal
  have hphase : ((s.check removal).removals removal).phase = .waiting := by
    simp [Scheduler.check, hqueue, hrunning]
  have hpending : (s.check removal).Pending removal := by
    refine ⟨hmove.removalCount ▸ hremoval, fun added hreturned => ?_⟩
    rw [hphase] at hreturned
    cases hreturned
  refine h.checked (h.kept.check hremoval) hmove ?_ ?_ ?_
  case refine_1 =>
    intro name hname
    have hinsert : name = (s.removals removal).taskName ∨ name ∈ s.taskNameToRemove := by
      simpa [Scheduler.check, hqueue, hrunning] using hname
    rcases hinsert with rfl | hbefore
    · exact ⟨removal, hpending, hmove.taskName removal⟩
    · obtain ⟨other, hother, htaskName⟩ := h.named name hbefore
      by_cases heq : other = removal
      · subst heq
        exact ⟨other, hpending, (hmove.taskName other).trans htaskName⟩
      · exact ⟨other, pending_check hmove heq hother, (hmove.taskName other).trans htaskName⟩
  case refine_2 =>
    intro task hmem
    exact .inl (by simpa [Scheduler.check, hqueue, hrunning] using hmem)
  case refine_3 =>
    intro added hreturned
    rw [hphase] at hreturned
    cases hreturned

/-- A removal finds nothing: it leaves its name only to another removal of it. -/
theorem check_nothing (h : Orderly s) (hremoval : removal < s.removalCount)
    (hqueue : s.tasksQueue.any (s.named (s.removals removal).taskName) = false)
    (hrunning : s.isRunning (s.removals removal).taskName = false)
    (hleft : (s.removals removal).taskName ∉ s.taskNameToRemove ∨
      ∃ other < s.removalCount, other ≠ removal ∧
        (s.removals other).taskName = (s.removals removal).taskName ∧
        ((s.removals other).phase = .checking ∨ (s.removals other).phase = .waiting)) :
    Orderly (s.check removal) := by
  have hmove := checkMove s removal
  have hcheck : s.check removal = s.setRemoval removal (.returned s.added) := by
    simp [Scheduler.check, hqueue, hrunning]
  refine h.checked (h.kept.check hremoval) hmove ?_ ?_ ?_
  case refine_1 =>
    intro name hname
    rw [hcheck] at hname
    obtain ⟨pending, hpending, htaskName⟩ := h.named name hname
    by_cases heq : pending = removal
    · subst heq
      rcases hleft with habsent | ⟨other, hlt, hne, hsame, hphase⟩
      · rw [htaskName] at habsent
        exact absurd hname habsent
      · have hother : s.Pending other := by
          refine ⟨hlt, fun added hreturned => ?_⟩
          rw [hreturned] at hphase
          rcases hphase with hphase | hphase <;> cases hphase
        exact ⟨other, pending_check hmove hne hother,
          ((hmove.taskName other).trans hsame).trans htaskName⟩
    · exact ⟨pending, pending_check hmove heq hpending,
        (hmove.taskName pending).trans htaskName⟩
  case refine_2 =>
    intro task hmem
    rw [hcheck] at hmem
    exact .inl hmem
  case refine_3 =>
    intro added _ task _ hname hplaced
    have hnamed : s.named (s.removals removal).taskName task = true := beq_iff_eq.2 hname
    rcases hmove.placed task hplaced with hin | ⟨index, hslot⟩
    · exact absurd hnamed (List.any_eq_false.1 hqueue task hin)
    · have hindex : index < s.threadNumber := h.kept.slot_lt hslot
      have hbusy : s.isRunning (s.removals removal).taskName = true := by
        refine List.any_eq_true.2 ⟨index, List.mem_range.2 hindex, ?_⟩
        rw [hslot]
        exact hnamed
      rw [hrunning] at hbusy
      cases hbusy

theorem check (h : Orderly s) (hremoval : removal < s.removalCount)
    (hclean : s.Clean (.check removal)) : Orderly (s.check removal) := by
  simp only [Clean] at hclean
  by_cases hqueue : s.tasksQueue.any (s.named (s.removals removal).taskName) = true
  · rw [if_pos hqueue] at hclean
    exact h.check_erase hremoval hqueue hclean
  · rw [if_neg hqueue] at hclean
    have hempty := Bool.eq_false_iff.2 hqueue
    by_cases hrunning : s.isRunning (s.removals removal).taskName = true
    · exact h.check_wait hremoval hempty hrunning
    · exact h.check_nothing hremoval hempty (Bool.eq_false_iff.2 hrunning)
        (hclean.resolve_left hrunning)

/-- Each clean step keeps the invariant. -/
theorem step {step : SchedulerStep} (h : Orderly s) (hclean : s.Clean step)
    (hnext : s.next step = some t) : Orderly t := by
  have hkept : Kept t := h.kept.step hnext
  cases step with
  | addTask name cronNext nextSchedule =>
      obtain rfl := Option.some.inj hnext
      exact h.addTask name cronNext nextSchedule
  | removeTaskByName taskName =>
      obtain rfl := Option.some.inj hnext
      exact h.beginRemoval taskName
  | check removal =>
      simp only [next] at hnext
      split at hnext
      case isTrue hremoval =>
        split at hnext
        · cases hnext
        · obtain rfl := Option.some.inj hnext
          exact h.check hremoval hclean
      case isFalse => cases hnext
  | thread index now outcome =>
      simp only [next] at hnext
      split at hnext
      · exact h.threadMove hkept (threadMove_of_threadStep h.kept hnext)
      · cases hnext
  | stop =>
      obtain rfl := Option.some.inj hnext
      exact { h with kept := hkept }

theorem of_run {threadNumber : ℕ} (h : Run next Clean (.start threadNumber) steps s) : Orderly s :=
  h.invariant (I := fun _ s => Orderly s) (start threadNumber)
    fun horderly hclean hnext => horderly.step hclean hnext

/-- A task that no removal has targeted is not marked, and is in its place until it completes. -/
theorem removesByName (h : Orderly s) : RemovesByName s where
  gone := by
    intro removal hlt added hreturned task hbegan hname
    have hplaced := h.gone removal hlt added hreturned task hbegan hname
    refine ⟨fun hqueue => hplaced (.inl hqueue), fun index hholds => ?_⟩
    exact hplaced (.inr ⟨index, (h.kept.slots index task).2 hholds⟩)
  spared := by
    intro task hlt hreturned
    have hfree : ¬ s.Targeted task := by
      rintro ⟨removal, hcount, hname, hafter⟩
      obtain ⟨added, hle, hphase⟩ := hreturned removal hcount hname
      exact Nat.lt_irrefl _ ((hafter added hphase).trans_le hle)
    have hmarked : (s.tasks task).toBeDeleted ≠ true := fun hm => hfree (h.marked task hlt hm)
    refine ⟨Bool.eq_false_iff.2 hmarked, ?_⟩
    cases hcompleted : (s.tasks task).completed with
    | true => exact .inl rfl
    | false =>
        exact .inr (h.kept.inOnePlace hlt (fun hmem => hfree (h.erased task hmem)) hcompleted)

end Orderly

/-- In every run whose checks are clean, removals do what they are for, in every state. -/
theorem removesByName_of_run {threadNumber : ℕ}
    (h : Run next Clean (start threadNumber) steps s) : RemovesByName s :=
  (Orderly.of_run h).removesByName

/-- A task is put back while its removal waits, and is then erased; its successor is executed. -/
theorem removesByName_of_run_purge :
    ∃ steps s, Run next Clean (start 1) steps s ∧ s.added = 2 ∧ RemovesByName s := by
  obtain ⟨s, hrun, hcheck⟩ := exists_run next Clean (start 1)
    [.addTask "purge" (fun now => some (now + 60)) 0,
      .thread 0 5 ⟨false, false, false⟩, .thread 0 5 ⟨false, false, false⟩,
      .removeTaskByName "purge", .check 0,
      .thread 0 5 ⟨false, false, false⟩, .thread 0 5 ⟨false, false, false⟩, .check 0,
      .addTask "purge" (fun now => some (now + 60)) 0,
      .thread 0 9 ⟨false, false, false⟩, .thread 0 9 ⟨false, false, false⟩,
      .thread 0 9 ⟨false, false, false⟩, .thread 0 9 ⟨false, false, false⟩]
    (fun s => s.added == 2) (by decide +kernel)
  exact ⟨_, s, hrun, beq_iff_eq.1 hcheck, removesByName_of_run hrun⟩

/-- The task completes while its removal waits: the name stays in the set, and a task of that name
that is added later is marked when it is first put back. -/
theorem not_removesByName_completed :
    ¬ ∀ (threadNumber : ℕ) (steps : List SchedulerStep) (s : Scheduler),
      AnyRun next (start threadNumber) steps s → RemovesByName s := by
  intro hall
  obtain ⟨s, hrun, hcheck⟩ := exists_run next (fun _ _ => True) (start 1)
    [.addTask "purge" (fun now => some (now + 60)) 0,
      .thread 0 5 ⟨false, false, false⟩, .thread 0 5 ⟨false, false, false⟩,
      .removeTaskByName "purge", .check 0,
      .thread 0 5 ⟨false, true, false⟩, .thread 0 5 ⟨false, false, false⟩, .check 0,
      .addTask "purge" (fun now => some (now + 60)) 0,
      .thread 0 9 ⟨false, false, false⟩, .thread 0 9 ⟨false, false, false⟩,
      .thread 0 9 ⟨false, false, false⟩, .thread 0 9 ⟨false, false, false⟩]
    (fun s => s.added == 2 && s.removalCount == 1 &&
      decide ((s.removals 0).phase = .returned 1) && (s.tasks 1).toBeDeleted) (by decide +kernel)
  simp only [Bool.and_eq_true, beq_iff_eq, decide_eq_true_eq] at hcheck
  obtain ⟨⟨⟨hadded, hcount⟩, hphase⟩, hmarked⟩ := hcheck
  have hspared := ((hall 1 _ s hrun).spared 1 (by omega) ?_).1
  · rw [hmarked] at hspared
    cases hspared
  · intro removal hlt _
    obtain rfl : removal = 0 := by omega
    exact ⟨1, le_refl 1, hphase⟩

end K2eg.Scheduler
