import K2eg.Model.Scheduler
import Mathlib.Data.List.Nodup
import Mathlib.Data.Nat.Basic
import Mathlib.Order.Basic

/-! # Where a task is

Every task that was added is in the queue once or in the slot of one thread, until it is removed or
has completed: the queue and the slots change together, under one lock. -/

namespace K2eg.Scheduler

open Interleaving

variable {s t : Scheduler} {steps : List SchedulerStep} {task index : ℕ}

/-- The task is in the queue once and in no slot, or in one slot and not in the queue. -/
def InOnePlace (s : Scheduler) (task : ℕ) : Prop :=
  (s.tasksQueue.count task = 1 ∧ ∀ index, s.runningTaskVector index ≠ some task) ∨
    (task ∉ s.tasksQueue ∧ ∃ index < s.threadNumber, s.runningTaskVector index = some task ∧
      ∀ other, s.runningTaskVector other = some task → other = index)

/-- The thread works on the task. -/
def Holds (s : Scheduler) (index task : ℕ) : Prop :=
  s.threads index = .executing task ∨ s.threads index = .settling task

/-- A removal has the name of the task. -/
def Asked (s : Scheduler) (task : ℕ) : Prop :=
  ∃ removal < s.removalCount, (s.removals removal).taskName = (s.tasks task).name

/-- The queue and the slots do not overlap, and a slot has the task that its thread works on. -/
structure Kept (s : Scheduler) : Prop where
  nodup : s.tasksQueue.Nodup
  apart : ∀ index task, s.runningTaskVector index = some task → task ∉ s.tasksQueue
  single : ∀ index other task, s.runningTaskVector index = some task →
    s.runningTaskVector other = some task → other = index
  slots : ∀ index task, s.runningTaskVector index = some task ↔ s.Holds index task
  idle : ∀ index, s.threadNumber ≤ index → s.threads index = .top
  queued : ∀ task ∈ s.tasksQueue, task < s.added
  running : ∀ index task, s.runningTaskVector index = some task → task < s.added
  placed : ∀ task < s.added, task ∈ s.removed ∨ (s.tasks task).completed = true ∨
    task ∈ s.tasksQueue ∨ ∃ index, s.runningTaskVector index = some task
  fresh : ∀ task ∈ s.removed, task < s.added
  gone : ∀ task ∈ s.removed, task ∉ s.tasksQueue ∧ ∀ index, s.runningTaskVector index ≠ some task
  asked : ∀ task ∈ s.removed, s.Asked task

/-- Only the phase of a removal changes. -/
theorem removals_update (s : Scheduler) (removal other : ℕ) (phase : RemovalPhase) :
    (Function.update s.removals removal { s.removals removal with phase } other).taskName =
        (s.removals other).taskName ∧
      (Function.update s.removals removal { s.removals removal with phase } other).began =
        (s.removals other).began := by
  by_cases heq : other = removal
  · subst heq
    simp
  · simp [heq]

namespace Kept

theorem start (threadNumber : ℕ) : Kept (.start threadNumber) where
  nodup := List.nodup_nil
  apart := nofun
  single := nofun
  slots := by simp [Scheduler.start, Holds]
  idle := fun _ _ => rfl
  queued := nofun
  running := nofun
  placed := nofun
  fresh := nofun
  gone := nofun
  asked := nofun

/-- A thread takes the first task that is due, or none. -/
theorem look_cases (s : Scheduler) (index : ℕ) (now : Int) :
    s.look index now = s.setThread index .sleeping ∨
      ∃ task ∈ s.tasksQueue, (s.tasks task).canBeExecuted now = true ∧
        s.look index now = { s with
          tasksQueue := s.tasksQueue.erase task
          runningTaskVector := Function.update s.runningTaskVector index (some task)
          threads := Function.update s.threads index (.executing task) } := by
  rw [look]
  cases hfind : s.tasksQueue.find? fun task => (s.tasks task).canBeExecuted now with
  | none => exact .inl rfl
  | some task =>
      have hdue : (s.tasks task).canBeExecuted now = true :=
        List.find?_some (p := fun task => (s.tasks task).canBeExecuted now) hfind
      exact .inr ⟨task, List.mem_of_find?_eq_some hfind, hdue, rfl⟩

/-- A thread that holds nothing has an empty slot. -/
theorem slot_none (h : Kept s) (hphase : ∀ task, ¬ s.Holds index task) :
    s.runningTaskVector index = none := by
  cases hslot : s.runningTaskVector index with
  | none => rfl
  | some task => exact absurd ((h.slots index task).1 hslot) (hphase task)

/-- A thread moves between phases in which it holds no task. -/
theorem setThread (h : Kept s) {phase : SchedulerPhase} (hindex : index < s.threadNumber)
    (hphase : ∀ task, ¬ s.Holds index task)
    (hnew : ∀ task, phase ≠ .executing task ∧ phase ≠ .settling task) :
    Kept (s.setThread index phase) where
  nodup := h.nodup
  apart := h.apart
  single := h.single
  slots := by
    intro other task
    by_cases heq : other = index
    · subst heq
      have hnone : s.runningTaskVector other = none := h.slot_none hphase
      simp [hnone, Holds, Scheduler.setThread, (hnew task).1, (hnew task).2]
    · simpa [Holds, Scheduler.setThread, heq] using h.slots other task
  idle := by
    intro other hother
    have hne : other ≠ index := (hindex.trans_le hother).ne'
    simpa [Scheduler.setThread, hne] using h.idle other hother
  queued := h.queued
  running := h.running
  placed := h.placed
  fresh := h.fresh
  gone := h.gone
  asked := h.asked

theorem addTask (h : Kept s) (name : String) (cronNext : Int → Option Int) (nextSchedule : Int) :
    Kept (s.addTask name cronNext nextSchedule) where
  nodup := List.nodup_cons.2 ⟨fun hmem => lt_irrefl _ (h.queued _ hmem), h.nodup⟩
  apart := by
    intro index task hslot hmem
    rcases List.mem_cons.1 hmem with rfl | hmem
    · exact lt_irrefl _ (h.running index _ hslot)
    · exact h.apart index task hslot hmem
  single := h.single
  slots := h.slots
  idle := h.idle
  queued := by
    intro task hmem
    rcases List.mem_cons.1 hmem with rfl | hmem
    · exact Nat.lt_succ_self _
    · exact Nat.lt_succ_of_lt (h.queued task hmem)
  running := fun index task hslot => Nat.lt_succ_of_lt (h.running index task hslot)
  placed := by
    intro task hlt
    rcases Nat.lt_succ_iff_lt_or_eq.1 hlt with hlt | rfl
    · have hne : task ≠ s.added := hlt.ne
      rcases h.placed task hlt with hgone | hdone | hqueue | hslot
      · exact .inl hgone
      · exact .inr (.inl (by simpa [Scheduler.addTask, hne] using hdone))
      · exact .inr (.inr (.inl (List.mem_cons_of_mem _ hqueue)))
      · exact .inr (.inr (.inr hslot))
    · exact .inr (.inr (.inl List.mem_cons_self))
  fresh := fun task hmem => Nat.lt_succ_of_lt (h.fresh task hmem)
  gone := by
    intro task hmem
    refine ⟨fun hqueue => ?_, (h.gone task hmem).2⟩
    rcases List.mem_cons.1 hqueue with rfl | hqueue
    · exact lt_irrefl _ (h.fresh _ hmem)
    · exact (h.gone task hmem).1 hqueue
  asked := by
    intro task hmem
    have hne : task ≠ s.added := (h.fresh task hmem).ne
    simpa [Asked, Scheduler.addTask, hne] using h.asked task hmem

/-- The task moves from the queue to the slot of a thread that holds none. -/
theorem take (h : Kept s) (hindex : index < s.threadNumber) (hphase : ∀ task, ¬ s.Holds index task)
    (hmem : task ∈ s.tasksQueue) :
    Kept { s with
      tasksQueue := s.tasksQueue.erase task
      runningTaskVector := Function.update s.runningTaskVector index (some task)
      threads := Function.update s.threads index (.executing task) } where
  nodup := h.nodup.erase task
  apart := by
    intro other found hslot hqueue
    by_cases heq : other = index
    · subst heq
      obtain rfl : task = found := by simpa using hslot
      exact h.nodup.not_mem_erase hqueue
    · simp only [Function.update_of_ne heq] at hslot
      exact h.apart other found hslot (List.mem_of_mem_erase hqueue)
  single := by
    intro one other found hone hother
    by_cases heq : one = index
    · subst heq
      obtain rfl : task = found := by simpa using hone
      by_contra hne
      simp only [Function.update_of_ne hne] at hother
      exact h.apart other task hother hmem
    · simp only [Function.update_of_ne heq] at hone
      by_cases hsame : other = index
      · subst hsame
        obtain rfl : task = found := by simpa using hother
        exact absurd hmem (h.apart one task hone)
      · simp only [Function.update_of_ne hsame] at hother
        exact h.single one other found hone hother
  slots := by
    intro other found
    by_cases heq : other = index
    · subst heq
      simp [Holds]
    · simpa [Holds, heq] using h.slots other found
  idle := by
    intro other hother
    have hne : other ≠ index := (hindex.trans_le hother).ne'
    simpa [hne] using h.idle other hother
  queued := fun found hfound => h.queued found (List.mem_of_mem_erase hfound)
  running := by
    intro other found hslot
    by_cases heq : other = index
    · subst heq
      obtain rfl : task = found := by simpa using hslot
      exact h.queued task hmem
    · simp only [Function.update_of_ne heq] at hslot
      exact h.running other found hslot
  placed := by
    intro found hlt
    by_cases hsame : found = task
    · subst hsame
      exact .inr (.inr (.inr ⟨index, Function.update_self ..⟩))
    · rcases h.placed found hlt with hgone | hdone | hqueue | ⟨other, hslot⟩
      · exact .inl hgone
      · exact .inr (.inl hdone)
      · exact .inr (.inr (.inl ((List.mem_erase_of_ne hsame).2 hqueue)))
      · have hne : other ≠ index := by
          rintro rfl
          exact hphase found ((h.slots other found).1 hslot)
        exact .inr (.inr (.inr ⟨other, (Function.update_of_ne hne ..).trans hslot⟩))
  fresh := h.fresh
  gone := by
    intro found hfound
    obtain ⟨hqueue, hslots⟩ := h.gone found hfound
    refine ⟨fun hin => hqueue (List.mem_of_mem_erase hin), fun other hslot => ?_⟩
    by_cases heq : other = index
    · subst heq
      obtain rfl : task = found := by simpa using hslot
      exact hqueue hmem
    · simp only [Function.update_of_ne heq] at hslot
      exact hslots other hslot
  asked := h.asked

/-- The thread that holds the task executes it: the places stay. -/
theorem execute (h : Kept s) (hindex : index < s.threadNumber)
    (hphase : s.threads index = .executing task) {value : SchedulerTask}
    (hname : value.name = (s.tasks task).name) :
    Kept ((s.setTask task value).setThread index (.settling task)) where
  nodup := h.nodup
  apart := h.apart
  single := h.single
  slots := by
    intro other found
    by_cases heq : other = index
    · subst heq
      have hold := h.slots other found
      simpa [Holds, hphase, Scheduler.setThread, Scheduler.setTask] using hold
    · simpa [Holds, Scheduler.setThread, Scheduler.setTask, heq] using h.slots other found
  idle := by
    intro other hother
    have hne : other ≠ index := (hindex.trans_le hother).ne'
    simpa [Scheduler.setThread, Scheduler.setTask, hne] using h.idle other hother
  queued := h.queued
  running := h.running
  placed := by
    intro found hlt
    by_cases hsame : found = task
    · subst hsame
      exact .inr (.inr (.inr ⟨index, (h.slots index found).2 (.inl hphase)⟩))
    · simpa [Scheduler.setThread, Scheduler.setTask, hsame] using h.placed found hlt
  fresh := h.fresh
  gone := h.gone
  asked := by
    intro found hmem
    obtain ⟨removal, hlt, hasked⟩ := h.asked found hmem
    refine ⟨removal, hlt, hasked.trans ?_⟩
    by_cases hsame : found = task
    · subst hsame
      simp [Scheduler.setThread, Scheduler.setTask, hname]
    · simp [Scheduler.setThread, Scheduler.setTask, hsame]

/-- The slot of the thread is emptied; the task goes to the end of the queue unless it has
completed. -/
theorem settle (h : Kept s) (hindex : index < s.threadNumber)
    (hphase : s.threads index = .settling task) : Kept (s.settle index task) := by
  have hslot : s.runningTaskVector index = some task := (h.slots index task).2 (.inr hphase)
  have hnot : task ∉ s.tasksQueue := h.apart index task hslot
  -- what every other slot holds is another task
  have hother : ∀ other found, Function.update s.runningTaskVector index none other = some found →
      s.runningTaskVector other = some found ∧ found ≠ task := by
    intro other found hfound
    by_cases heq : other = index
    · subst heq
      simp at hfound
    · rw [Function.update_of_ne heq] at hfound
      refine ⟨hfound, ?_⟩
      rintro rfl
      exact heq (h.single index other found hslot hfound)
  have hslots : ∀ other found, Function.update s.runningTaskVector index none other = some found ↔
      Function.update s.threads index .top other = .executing found ∨
        Function.update s.threads index .top other = .settling found := by
    intro other found
    by_cases heq : other = index
    · subst heq
      simp
    · simpa [Holds, heq] using h.slots other found
  have hidle : ∀ other, s.threadNumber ≤ other →
      Function.update s.threads index .top other = .top := by
    intro other hge
    have hne : other ≠ index := (hindex.trans_le hge).ne'
    rw [Function.update_of_ne hne]
    exact h.idle other hge
  rw [Scheduler.settle]
  by_cases hcompleted : (s.tasks task).completed = true
  · rw [if_pos hcompleted]
    exact {
      nodup := h.nodup
      apart := fun other found hfound => h.apart other found (hother other found hfound).1
      single := fun one other found hone hsecond =>
        h.single one other found (hother one found hone).1 (hother other found hsecond).1
      slots := hslots
      idle := hidle
      queued := h.queued
      running := fun other found hfound => h.running other found (hother other found hfound).1
      placed := by
        intro found hlt
        rcases h.placed found hlt with hgone | hdone | hqueue | ⟨other, hfound⟩
        · exact .inl hgone
        · exact .inr (.inl hdone)
        · exact .inr (.inr (.inl hqueue))
        · by_cases heq : other = index
          · subst heq
            obtain rfl := Option.some.inj (hslot.symm.trans hfound)
            exact .inr (.inl hcompleted)
          · exact .inr (.inr (.inr ⟨other, (Function.update_of_ne heq ..).trans hfound⟩))
      fresh := h.fresh
      gone := fun found hfound => ⟨(h.gone found hfound).1, fun other hin =>
        (h.gone found hfound).2 other (hother other found hin).1⟩
      asked := h.asked }
  · rw [if_neg hcompleted]
    exact {
      nodup := by
        refine List.nodup_append.2 ⟨h.nodup, List.nodup_singleton _, ?_⟩
        rintro found hfound other hsame rfl
        obtain rfl := List.mem_singleton.1 hsame
        exact hnot hfound
      apart := by
        intro other found hfound hqueue
        obtain ⟨hold, hne⟩ := hother other found hfound
        rcases List.mem_append.1 hqueue with hqueue | hlast
        · exact h.apart other found hold hqueue
        · exact hne (List.mem_singleton.1 hlast)
      single := fun one other found hone hsecond =>
        h.single one other found (hother one found hone).1 (hother other found hsecond).1
      slots := hslots
      idle := hidle
      queued := by
        intro found hfound
        rcases List.mem_append.1 hfound with hfound | hlast
        · exact h.queued found hfound
        · obtain rfl := List.mem_singleton.1 hlast
          exact h.running index found hslot
      running := fun other found hfound => h.running other found (hother other found hfound).1
      placed := by
        intro found hlt
        by_cases hsame : found = task
        · subst hsame
          exact .inr (.inr (.inl (List.mem_append_right _ List.mem_cons_self)))
        · rcases h.placed found hlt with hgone | hdone | hqueue | ⟨other, hfound⟩
          · exact .inl hgone
          · exact .inr (.inl (by simpa [hsame] using hdone))
          · exact .inr (.inr (.inl (List.mem_append_left _ hqueue)))
          · have hne : other ≠ index := by
              rintro rfl
              exact hsame (Option.some.inj (hfound.symm.trans hslot))
            exact .inr (.inr (.inr ⟨other, (Function.update_of_ne hne ..).trans hfound⟩))
      fresh := h.fresh
      gone := by
        intro found hfound
        obtain ⟨hqueue, hempty⟩ := h.gone found hfound
        refine ⟨fun hin => ?_, fun other hin => hempty other (hother other found hin).1⟩
        rcases List.mem_append.1 hin with hin | hlast
        · exact hqueue hin
        · obtain rfl := List.mem_singleton.1 hlast
          exact hempty index hslot
      asked := by
        intro found hmem
        obtain ⟨removal, hlt, hasked⟩ := h.asked found hmem
        refine ⟨removal, hlt, hasked.trans ?_⟩
        by_cases hsame : found = task
        · exact absurd hslot (hsame ▸ (h.gone found hmem).2 index)
        · simp [hsame] }

/-- A removal takes the named tasks out of the queue, or only looks. -/
theorem check (h : Kept s) {removal : ℕ} (hremoval : removal < s.removalCount) :
    Kept (s.check removal) := by
  rw [Scheduler.check]
  split
  · exact {
      nodup := h.nodup.filter _
      apart := fun other found hslot hqueue =>
        h.apart other found hslot (List.mem_of_mem_filter hqueue)
      single := h.single
      slots := h.slots
      idle := h.idle
      queued := fun found hfound => h.queued found (List.mem_of_mem_filter hfound)
      running := h.running
      placed := by
        intro found hlt
        rcases h.placed found hlt with hgone | hdone | hqueue | hslot
        · exact .inl (List.mem_append_left _ hgone)
        · exact .inr (.inl hdone)
        · by_cases hname : s.named (s.removals removal).taskName found = true
          · exact .inl (List.mem_append_right _ (List.mem_filter.2 ⟨hqueue, hname⟩))
          · exact .inr (.inr (.inl (List.mem_filter.2 ⟨hqueue, by simpa using hname⟩)))
        · exact .inr (.inr (.inr hslot))
      fresh := by
        intro found hfound
        rcases List.mem_append.1 hfound with hfound | hfound
        · exact h.fresh found hfound
        · exact h.queued found (List.mem_of_mem_filter hfound)
      gone := by
        intro found hfound
        rcases List.mem_append.1 hfound with hfound | hfound
        · obtain ⟨hqueue, hslots⟩ := h.gone found hfound
          exact ⟨fun hin => hqueue (List.mem_of_mem_filter hin), hslots⟩
        · obtain ⟨hqueue, hname⟩ := List.mem_filter.1 hfound
          refine ⟨fun hin => ?_, fun other hslot => h.apart other found hslot hqueue⟩
          have hnot := (List.mem_filter.1 hin).2
          rw [hname] at hnot
          cases hnot
      asked := by
        intro found hfound
        rcases List.mem_append.1 hfound with hfound | hfound
        · obtain ⟨other, hlt, hasked⟩ := h.asked found hfound
          exact ⟨other, hlt, (removals_update ..).1.trans hasked⟩
        · have hname := beq_iff_eq.1 (List.mem_filter.1 hfound).2
          exact ⟨removal, hremoval, (removals_update ..).1.trans hname.symm⟩ }
  · have hasked (phase : RemovalPhase) (task : ℕ) (hmem : task ∈ s.removed) :
        (s.setRemoval removal phase).Asked task := by
      obtain ⟨other, hlt, hasked⟩ := h.asked task hmem
      exact ⟨other, hlt, (removals_update ..).1.trans hasked⟩
    split
    · exact { h with asked := hasked .waiting }
    · exact { h with asked := hasked _ }

/-- A call of `removeTaskByName` begins. -/
theorem beginRemoval (h : Kept s) (taskName : String) : Kept (s.beginRemoval taskName) :=
  { h with
    asked := by
      intro task hmem
      obtain ⟨removal, hlt, hasked⟩ := h.asked task hmem
      refine ⟨removal, Nat.lt_succ_of_lt hlt, ?_⟩
      simpa [Scheduler.beginRemoval, hlt.ne] using hasked }

/-- Each step of the scheduler keeps the places. -/
theorem step {step : SchedulerStep} (h : Kept s) (hnext : s.next step = some t) : Kept t := by
  cases step with
  | addTask name cronNext nextSchedule =>
      obtain rfl := Option.some.inj hnext
      exact h.addTask name cronNext nextSchedule
  | removeTaskByName taskName =>
      obtain rfl := Option.some.inj hnext
      exact h.beginRemoval taskName
  | check removal =>
      simp only [next] at hnext
      split at hnext
      · rename_i hremoval
        split at hnext
        · cases hnext
        · obtain rfl := Option.some.inj hnext
          exact h.check hremoval
      · cases hnext
  | thread index now outcome =>
      simp only [next] at hnext
      split at hnext
      · rename_i hindex
        rw [threadStep] at hnext
        cases hphase : s.threads index with
        | top =>
            simp only [hphase] at hnext
            obtain rfl := Option.some.inj hnext
            refine h.setThread hindex (by simp [Holds, hphase]) fun task => ?_
            split <;> simp
        | looking =>
            simp only [hphase] at hnext
            obtain rfl := Option.some.inj hnext
            rcases look_cases s index now with hnone | ⟨task, hmem, -, htake⟩
            · rw [hnone]
              exact h.setThread hindex (by simp [Holds, hphase]) (by simp)
            · rw [htake]
              exact h.take hindex (by simp [Holds, hphase]) hmem
        | executing task =>
            simp only [hphase] at hnext
            obtain rfl := Option.some.inj hnext
            exact h.execute hindex hphase rfl
        | settling task =>
            simp only [hphase] at hnext
            obtain rfl := Option.some.inj hnext
            exact h.settle hindex hphase
        | sleeping =>
            simp only [hphase] at hnext
            obtain rfl := Option.some.inj hnext
            refine h.setThread hindex (by simp [Holds, hphase]) fun task => ?_
            split <;> simp
        | exited => simp [hphase] at hnext
      · cases hnext
  | stop =>
      obtain rfl := Option.some.inj hnext
      exact { h with }

theorem of_run {threadNumber : ℕ} (h : AnyRun next (Scheduler.start threadNumber) steps s) :
    Kept s :=
  h.invariant (I := fun _ s => Kept s) (Kept.start threadNumber)
    fun hkept _ hnext => hkept.step hnext

/-- Only the threads of the scheduler have tasks in their slots. -/
theorem slot_lt (h : Kept s) (hslot : s.runningTaskVector index = some task) :
    index < s.threadNumber := by
  by_contra hge
  have hidle := h.idle index (not_lt.1 hge)
  rcases (h.slots index task).1 hslot with hphase | hphase <;> simp [hidle] at hphase

/-- A task that is neither removed nor completed is in one place. -/
theorem inOnePlace (h : Kept s) (hlt : task < s.added) (hremoved : task ∉ s.removed)
    (hcompleted : (s.tasks task).completed = false) : s.InOnePlace task := by
  rcases h.placed task hlt with hgone | hdone | hqueue | ⟨index, hslot⟩
  · exact absurd hgone hremoved
  · rw [hcompleted] at hdone
    cases hdone
  · refine .inl ⟨List.count_eq_one_of_mem h.nodup hqueue, fun index hslot => ?_⟩
    exact h.apart index task hslot hqueue
  · exact .inr ⟨h.apart index task hslot, index, h.slot_lt hslot, hslot, fun other hother =>
      h.single index other task hslot hother⟩

end Kept

/-- In every reachable state a task that was added, and neither removed nor completed, is in one
place, and no two threads work on one task; only tasks with the name of a removal are removed. -/
theorem inOnePlace_of_run {threadNumber : ℕ} (h : AnyRun next (start threadNumber) steps s) :
    (∀ task < s.added, task ∉ s.removed → (s.tasks task).completed = false → s.InOnePlace task) ∧
      (∀ index other task, s.Holds index task → s.Holds other task → index = other) ∧
      ∀ task ∈ s.removed, s.Asked task := by
  have hkept := Kept.of_run h
  refine ⟨fun task hlt hremoved hcompleted => hkept.inOnePlace hlt hremoved hcompleted, ?_,
    hkept.asked⟩
  intro index other task hindex hother
  exact (hkept.single index other task ((hkept.slots index task).2 hindex)
    ((hkept.slots other task).2 hother)).symm

/-- A task is taken by the first of two threads, completes nothing, and is put back. -/
theorem inOnePlace_of_run_twice : ∃ s : Scheduler,
    AnyRun next (start 2) [.addTask "purge" (fun now => some (now + 60)) 0,
      .thread 0 5 ⟨false, false, false⟩, .thread 0 5 ⟨false, false, false⟩,
      .thread 1 5 ⟨false, false, false⟩, .thread 0 5 ⟨false, false, false⟩,
      .thread 0 5 ⟨false, false, false⟩] s ∧
    s.added = 1 ∧ s.InOnePlace 0 := by
  obtain ⟨s, hrun, hcheck⟩ := exists_run next (fun _ _ => True) (start 2)
    [.addTask "purge" (fun now => some (now + 60)) 0,
      .thread 0 5 ⟨false, false, false⟩, .thread 0 5 ⟨false, false, false⟩,
      .thread 1 5 ⟨false, false, false⟩, .thread 0 5 ⟨false, false, false⟩,
      .thread 0 5 ⟨false, false, false⟩]
    (fun s => s.added == 1 && s.removed.isEmpty && !(s.tasks 0).completed) (by decide +kernel)
  simp only [Bool.and_eq_true, beq_iff_eq, List.isEmpty_iff, Bool.not_eq_true'] at hcheck
  obtain ⟨⟨hadded, hremoved⟩, hcompleted⟩ := hcheck
  exact ⟨s, hrun, hadded, (inOnePlace_of_run hrun).1 0 (by omega) (by simp [hremoved]) hcompleted⟩

end K2eg.Scheduler
