import K2eg.Verification.Snapshot.Messages
import K2eg.Verification.Snapshot.Restart

/-! # One iteration after the other

An iteration is released once, by a task of its own, when its Tail is published and its other tasks
are finished. The checker acquires the next one only then. -/

namespace K2eg

variable {V : Type*}

open Interleaving SubmissionTask

/-- What holds of the iterations that the checker has acquired. -/
structure IterationsInOrder (p : SnapshotPipeline V) : Prop where
  /-- The iterations are 1, 2, 3, and so on, in the order of their Headers. -/
  numbered : ∀ o, ((p.tasks o).filter SubmissionTask.header).map SubmissionTask.iterationId =
    List.range' 1 (headers (p.tasks o))
  /-- When a later iteration has been acquired, the Tail is published and all tasks are
  finished. -/
  completed : ∀ o k, 1 ≤ k → k < headers (p.tasks o) →
    (p.ops o).publishTail k ∈ p.log o ∧
      ∀ task ∈ p.tasks o, task.iterationId = k → task.finished = true
  /-- A task that is about to release an iteration releases the current one. -/
  releases : ∀ o, ∀ task ∈ p.tasks o, task.releasing = true →
    (p.iterationSync (p.nameOf o)).currentIteration = task.iterationId

/-! ## Releases -/

/-- An iteration is released once, and then its Tail is marked and its tasks are behind
`finishTask`. The last iteration is not released: its state is erased. -/
structure Releases (tasks : List (SubmissionTask V)) : Prop where
  once : ∀ k, tasksWith releasing tasks k + tasksWith released tasks k ≤ 1
  behind : ∀ k, 0 < tasksWith releasing tasks k + tasksWith released tasks k →
    0 < tasksWith marked tasks k ∧
      ∀ task ∈ tasks, task.iterationId = k → 14 ≤ task.rank ∧ task.lastSubmission = false
  earlier : ∀ k, 1 ≤ k → k < headers tasks → tasksWith released tasks k = 1

theorem IterationSync.finishTask_release {sync sync' : IterationSync} {k : ℕ}
    (h : sync.finishTask k = (true, sync')) :
    ∃ state, sync.iterationStates k = some state ∧ state.activeTasks = 1 ∧
      state.tailProcessed = true := by
  rw [finishTask] at h
  cases hstate : sync.iterationStates k with
  | none => simp [hstate] at h
  | some state =>
      rw [hstate] at h
      have hrelease := congrArg Prod.fst h
      simp only [Bool.and_eq_true, decide_eq_true_eq] at hrelease
      exact ⟨state, rfl, by omega, hrelease.2⟩

theorem SubmissionTask.drained_of_marked {task : SubmissionTask V} (h : task.marked = true) :
    task.drained = true := by
  simp only [marked, drained, Bool.and_eq_true, decide_eq_true_eq] at h ⊢
  exact ⟨h.1, by omega⟩

theorem SubmissionTask.tailPublished_of_marked {task : SubmissionTask V}
    (h : task.marked = true) : task.tailPublished = true := by
  simp only [marked, tailPublished, Bool.and_eq_true, decide_eq_true_eq] at h ⊢
  exact ⟨h.1, by omega⟩

/-- The last submission belongs to the last iteration. -/
theorem Scheduled.iteration_of_last {tasks : List (SubmissionTask V)} {task : SubmissionTask V}
    (h : Scheduled tasks) (hmem : task ∈ tasks) (hlast : task.lastSubmission = true) :
    task.iterationId = headers tasks := by
  cases h with
  | nil => cases hmem
  | @snoc tasks final earlier running opens iteration closes =>
      rcases List.mem_append.mp hmem with hmem | hmem
      · have := List.any_eq_false.mp running task hmem
        contradiction
      · obtain rfl := List.mem_singleton.mp hmem
        rw [iteration, nextIteration, headers_snoc]
        cases task.header <;> simp

namespace Releases

variable {threads : ℕ} {tasks : List (SubmissionTask V)} {task : SubmissionTask V} {i : ℕ}
  {op : SnapshotOpInfo} {sync : IterationSync} {out : TaskOutcome V}

theorem nil : Releases ([] : List (SubmissionTask V)) where
  once := by simp
  behind := by simp
  earlier := by simp

section Advance

variable {phase : TaskPhase V} (hi : tasks[i]? = some task)
include hi

theorem marked_advance (hmarked : task.marked = true → (task.advance phase).marked = true) {k : ℕ}
    (hpos : 0 < tasksWith marked tasks k) :
    0 < tasksWith marked (tasks.set i (task.advance phase)) k := by
  cases hbefore : task.marked with
  | true => rwa [tasksWith_eq marked hi ((hmarked hbefore).trans hbefore.symm)]
  | false =>
      cases hafter : (task.advance phase).marked with
      | false => rwa [tasksWith_eq marked hi (hafter.trans hbefore.symm)]
      | true =>
          by_cases hk : k = task.iterationId
          · subst hk
            rw [tasksWith_add marked hi hbefore hafter]
            omega
          · rwa [tasksWith_ne marked hi hk]

/-- A task may go on as long as it does not release. -/
theorem of_marks (h : Releases tasks) (hle : task.rank ≤ phase.rank)
    (hmarked : task.marked = true → (task.advance phase).marked = true)
    (hreleasing : (task.advance phase).releasing = task.releasing)
    (hreleased : (task.advance phase).released = task.released) :
    Releases (tasks.set i (task.advance phase)) := by
  have hreleasing := tasksWith_eq releasing hi hreleasing
  have hreleased := tasksWith_eq released hi hreleased
  refine ⟨fun k => ?_, fun k hk => ?_, fun k hpos hk => ?_⟩
  · rw [hreleasing, hreleased]
    exact h.once k
  · rw [hreleasing, hreleased] at hk
    obtain ⟨hmark, hrank⟩ := h.behind k hk
    refine ⟨marked_advance hi hmarked hmark, fun other hmem hiteration => ?_⟩
    rcases List.mem_or_eq_of_mem_set hmem with hmem | rfl
    · exact hrank other hmem hiteration
    · obtain ⟨hold, hlast⟩ := hrank task (List.mem_of_getElem? hi) hiteration
      exact ⟨hold.trans hle, hlast⟩
  · rw [headers_advance hi] at hk
    rw [hreleased]
    exact h.earlier k hpos hk

/-- The last task to finish decides to release its iteration. -/
theorem finish (h : Releases tasks) (hunerased : erasedTasks tasks = 0)
    (hstarted : ∀ other ∈ tasks, other.iterationId = task.iterationId → 1 < other.rank)
    (hlast : tasksWith active tasks task.iterationId = 1)
    (hmark : 0 < tasksWith marked tasks task.iterationId)
    (hunreleased : tasksWith released tasks task.iterationId = 0)
    (marks : (task.advance phase).syncMarks =
      { task.syncMarks with active := false, releasing := true })
    (hle : task.rank ≤ phase.rank) (before : task.active = true) (after : task.releasing = false) :
    Releases (tasks.set i (task.advance phase)) := by
  have hmem := List.mem_of_getElem? hi
  have hactive := tasksWith_sub active hi before (congrArg (·.active) marks)
  have hmarked := tasksWith_eq marked hi (congrArg (·.marked) marks)
  have herased := Synchronized.erasedTasks_eq hi (congrArg (·.erased) marks)
  have hreleasing := tasksWith_add releasing hi after (congrArg (·.releasing) marks)
  have hreleased := tasksWith_eq released hi (congrArg (·.released) marks)
  have hnone : tasksWith releasing tasks task.iterationId = 0 := by
    by_contra hne
    have := ((h.behind task.iterationId (by omega)).2 task hmem rfl).1
    simp only [active, Bool.and_eq_true, decide_eq_true_eq] at before
    omega
  refine ⟨fun k => ?_, fun k hk => ?_, fun k hpos hk => ?_⟩
  · rw [hreleased]
    by_cases heq : k = task.iterationId
    · subst heq
      omega
    · rw [tasksWith_ne releasing hi heq]
      exact h.once k
  · by_cases heq : k = task.iterationId
    · subst heq
      rw [hmarked]
      refine ⟨hmark, fun other hother hiteration => ?_⟩
      have hidle := tally_eq_zero.mp (show tasksWith active _ task.iterationId = 0 by omega)
        other hother hiteration
      have hbegun : 1 < other.rank := by
        rcases List.mem_or_eq_of_mem_set hother with hother | rfl
        · exact hstarted other hother hiteration
        · exact (hstarted task hmem rfl).trans_le hle
      have hbehind : 14 ≤ other.rank := by
        simp only [active, Bool.and_eq_false_iff, decide_eq_false_iff_not] at hidle
        omega
      -- a last submission would have erased the entries by now
      have hkept := tally_eq_zero.mp (herased.trans hunerased) other hother rfl
      refine ⟨hbehind, ?_⟩
      simpa [erased, show 11 < other.rank by omega] using hkept
    · rw [tasksWith_ne releasing hi heq, hreleased] at hk
      obtain ⟨hmark', hrank⟩ := h.behind k hk
      rw [hmarked]
      refine ⟨hmark', fun other hother hiteration => ?_⟩
      rcases List.mem_or_eq_of_mem_set hother with hother | rfl
      · exact hrank other hother hiteration
      · exact absurd hiteration.symm heq
  · rw [headers_advance hi] at hk
    rw [hreleased]
    exact h.earlier k hpos hk

/-- The task that has decided to release its iteration releases it. -/
theorem release (h : Releases tasks)
    (marks : (task.advance phase).syncMarks =
      { task.syncMarks with releasing := false, released := true })
    (hle : task.rank ≤ phase.rank) (before : task.releasing = true)
    (after : task.released = false) : Releases (tasks.set i (task.advance phase)) := by
  have hmarked := tasksWith_eq marked hi (congrArg (·.marked) marks)
  have hreleasing := tasksWith_sub releasing hi before (congrArg (·.releasing) marks)
  have hreleased := tasksWith_add released hi after (congrArg (·.released) marks)
  have hsum (k : ℕ) : tasksWith releasing (tasks.set i (task.advance phase)) k +
      tasksWith released (tasks.set i (task.advance phase)) k =
        tasksWith releasing tasks k + tasksWith released tasks k := by
    by_cases heq : k = task.iterationId
    · subst heq
      omega
    · rw [tasksWith_ne releasing hi heq, tasksWith_ne released hi heq]
  refine ⟨fun k => ?_, fun k hk => ?_, fun k hpos hk => ?_⟩
  · rw [hsum]
    exact h.once k
  · rw [hsum] at hk
    obtain ⟨hmark, hrank⟩ := h.behind k hk
    rw [hmarked]
    refine ⟨hmark, fun other hother hiteration => ?_⟩
    rcases List.mem_or_eq_of_mem_set hother with hother | rfl
    · exact hrank other hother hiteration
    · obtain ⟨hold, hlast⟩ := hrank task (List.mem_of_getElem? hi) hiteration
      exact ⟨hold.trans hle, hlast⟩
  · rw [headers_advance hi] at hk
    have hold := h.earlier k hpos hk
    by_cases heq : k = task.iterationId
    · -- an earlier iteration is released already
      subst heq
      have := h.once task.iterationId
      omega
    · rwa [tasksWith_ne released hi heq]

theorem step (h : Releases tasks) (hsynchronized : Synchronized tasks sync)
    (hscheduled : Scheduled tasks) (hgated : Gated tasks op.iterationSyncStates)
    (htaken : Taken threads tasks) (htails : TailsCovered threads tasks)
    (hmiddles : MiddlesCovered threads tasks) (hvalid : task.Valid)
    (hstep : task.step op sync = some out) :
    Releases (tasks.set i (task.advance out.phase)) := by
  have hmem := List.mem_of_getElem? hi
  have hle := (step_rank hstep).2.2.1
  cases syncEffect (hscheduled.iteration_mem task hmem).1 hvalid hstep with
  | silent entries marks | start entries before marks | erase entries marks =>
      exact h.of_marks hi hle (fun hmarked => (congrArg (·.marked) marks).trans hmarked)
        (congrArg (·.releasing) marks) (congrArg (·.released) marks)
  | markTail entries isActive marks =>
      exact h.of_marks hi hle (fun _ => congrArg (·.marked) marks)
        (congrArg (·.releasing) marks) (congrArg (·.released) marks)
  | finish decided entries before after marks =>
      cases decided with
      | false =>
          exact h.of_marks hi hle (fun hmarked => (congrArg (·.marked) marks).trans hmarked)
            ((congrArg (·.releasing) marks).trans after.symm) (congrArg (·.released) marks)
      | true =>
          obtain ⟨state, hstate, hone, htail⟩ := IterationSync.finishTask_release entries
          have hzero : erasedTasks tasks = 0 := by
            by_contra hne
            rw [(hsynchronized.blank (Nat.pos_of_ne_zero hne)).states] at hstate
            cases hstate
          rw [hsynchronized.state hzero] at hstate
          split at hstate
          · rename_i hin
            obtain rfl := Option.some.inj hstate
            have hmark : 0 < tasksWith marked tasks task.iterationId := of_decide_eq_true htail
            have hdrained : 0 < tasksWith drained tasks task.iterationId :=
              hmark.trans_le (tally_mono fun _ _ => drained_of_marked)
            refine h.finish hi hzero (fun other hother hsame => ?_)
              (Int.ofNat_inj.mp hone) hmark hin.2.2 marks hle before after
            exact started_of_drained hscheduled hgated htaken htails hmiddles hdrained hother hsame
          · cases hstate
  | release entries before after marks => exact h.release hi marks hle before after

end Advance

/-- The task that is about to release an iteration belongs to the current one. -/
theorem iteration_of_releasing (h : Releases tasks) (hscheduled : Scheduled tasks)
    (hmem : task ∈ tasks) (hreleasing : task.releasing = true) :
    task.iterationId = headers tasks := by
  obtain ⟨hpos, hle⟩ := hscheduled.iteration_mem task hmem
  have hone : 0 < tasksWith releasing tasks task.iterationId :=
    tally_pos.mpr ⟨task, hmem, hreleasing, rfl⟩
  have honce := h.once task.iterationId
  by_contra hne
  have := h.earlier task.iterationId hpos (by omega)
  omega

/-- An iteration is in progress until it is released. -/
theorem idle_step (h : Releases tasks) (hscheduled : Scheduled tasks) (hvalid : task.Valid)
    (hi : tasks[i]? = some task) (hstep : task.step op sync = some out)
    (hafter : Releases (tasks.set i (task.advance out.phase)))
    (hidle : erasedTasks tasks = 0 → sync.iterationInProgress = false →
      tasksWith released tasks (headers tasks) = 1)
    (hzero : erasedTasks (tasks.set i (task.advance out.phase)) = 0)
    (hprogress : out.sync.iterationInProgress = false) :
    tasksWith released (tasks.set i (task.advance out.phase))
      (headers (tasks.set i (task.advance out.phase))) = 1 := by
  have hmem := List.mem_of_getElem? hi
  rw [headers_advance hi]
  have hsame (herased : (task.advance out.phase).erased = task.erased)
      (hreleased : (task.advance out.phase).released = task.released)
      (hentries : out.sync.iterationInProgress = sync.iterationInProgress) :
      tasksWith released (tasks.set i (task.advance out.phase)) (headers tasks) = 1 := by
    rw [tasksWith_eq released hi hreleased]
    rw [Synchronized.erasedTasks_eq hi herased] at hzero
    exact hidle hzero (hentries ▸ hprogress)
  cases syncEffect (hscheduled.iteration_mem task hmem).1 hvalid hstep with
  | silent entries marks =>
      exact hsame (congrArg (·.erased) marks) (congrArg (·.released) marks) (by rw [entries])
  | start entries before marks =>
      exact hsame (congrArg (·.erased) marks) (congrArg (·.released) marks)
        (by rw [entries, IterationSync.startTask_eq])
  | markTail entries isActive marks =>
      exact hsame (congrArg (·.erased) marks) (congrArg (·.released) marks)
        (by rw [entries, IterationSync.markTailProcessed_eq])
  | erase entries marks =>
      have hpos : 0 < erasedTasks (tasks.set i (task.advance out.phase)) :=
        tally_pos.mpr ⟨_, List.mem_set (List.getElem?_eq_some_iff.mp hi).1 _,
          congrArg (·.erased) marks, rfl⟩
      omega
  | finish decided entries before after marks =>
      have hentries : out.sync = (sync.finishTask task.iterationId).2 := by rw [entries]
      exact hsame (congrArg (·.erased) marks) (congrArg (·.released) marks)
        (by rw [hentries, IterationSync.finishTask_eq])
  | release entries before after marks =>
      have hcurrent := h.iteration_of_releasing hscheduled hmem before
      have hadded := tasksWith_add released hi after (congrArg (·.released) marks)
      have honce := hafter.once (headers tasks)
      rw [hcurrent] at hadded
      omega

/-- A submission to the open iteration, or the Header of the next one once the current one is
released. -/
theorem schedule (h : Releases tasks) (hscheduled : Scheduled (tasks ++ [task]))
    (hqueued : task.rank = 0)
    (hidle : task.header = true → tasks ≠ [] → tasksWith released tasks (headers tasks) = 1) :
    Releases (tasks ++ [task]) := by
  obtain ⟨hactive, hmarked, hreleasing, hreleased, herased⟩ :=
    Synchronized.tallies_snoc hqueued tasks
  obtain ⟨hearlier, hrunning, hopens, hiteration, -⟩ := hscheduled.of_snoc
  have hunmarked : tasksWith marked tasks task.iterationId = 0 := by
    have hundrained := hearlier.undrained hopens
    rw [← hiteration] at hundrained
    have hle : tasksWith marked tasks task.iterationId ≤ tasksWith drained tasks task.iterationId :=
      tally_mono fun _ _ => drained_of_marked
    omega
  refine ⟨fun k => ?_, fun k hk => ?_, fun k hpos hk => ?_⟩
  · rw [hreleasing, hreleased]
    exact h.once k
  · rw [hreleasing, hreleased] at hk
    obtain ⟨hmark, hrank⟩ := h.behind k hk
    rw [hmarked]
    refine ⟨hmark, fun other hmem hsame => ?_⟩
    rcases List.mem_append.mp hmem with hmem | hmem
    · exact hrank other hmem hsame
    · obtain rfl := List.mem_singleton.mp hmem
      rw [hsame] at hunmarked
      omega
  · rw [hreleased]
    rw [headers_snoc] at hk
    rcases Nat.lt_or_ge k (headers tasks) with hlt | hge
    · exact h.earlier k hpos hlt
    · have hheader : task.header = true := by
        by_contra hnot
        simp [Bool.eq_false_iff.mpr hnot] at hk
        omega
      have heq : k = headers tasks := by
        rw [hheader, Bool.toNat_true] at hk
        omega
      subst heq
      refine hidle hheader fun hnil => ?_
      rw [hnil, headers_nil] at hpos
      omega

end Releases

/-! ## Covered submissions -/

namespace MiddlesCovered

variable {threads : ℕ} {tasks : List (SubmissionTask V)} {task : SubmissionTask V} {i : ℕ}

theorem nil : MiddlesCovered threads ([] : List (SubmissionTask V)) := by
  simp [MiddlesCovered]

theorem advance (h : MiddlesCovered threads tasks) (hi : tasks[i]? = some task)
    (phase : TaskPhase V) : MiddlesCovered threads (tasks.set i (task.advance phase)) := by
  intro other hmem hheader htail
  rcases List.mem_or_eq_of_mem_set hmem with hmem | rfl
  · exact h other hmem hheader htail
  · exact h task (List.mem_of_getElem? hi) hheader htail

theorem snoc (h : MiddlesCovered threads tasks)
    (hcovered : task.header = false → task.tail = false →
      threads = 1 ∨ task.carriesData = true) : MiddlesCovered threads (tasks ++ [task]) := by
  intro other hmem hheader htail
  rcases List.mem_append.mp hmem with hmem | hmem
  · exact h other hmem hheader htail
  · obtain rfl := List.mem_singleton.mp hmem
    exact hcovered hheader htail

end MiddlesCovered

/-- A submission with neither Header nor Tail is scheduled on a single thread or with events. -/
def SnapshotPipeline.MiddleCovered (threads : ℕ) (p : SnapshotPipeline V) : Prop :=
  ∀ entry ∈ p.checker.scheduled?, entry.2.1.submissionType.header = false →
    entry.2.1.submissionType.tail = false → threads = 1 ∨ entry.2.1.carriesData = true

instance (threads : ℕ) (p : SnapshotPipeline V) : Decidable (p.MiddleCovered threads) :=
  inferInstanceAs (Decidable (∀ entry ∈ p.checker.scheduled?,
    entry.2.1.submissionType.header = false → entry.2.1.submissionType.tail = false →
      threads = 1 ∨ entry.2.1.carriesData = true))

/-! ## Moves -/

/-- The releases of all operations are in order, and the checker finds a name idle only when the
last iteration is released. -/
structure Sequenced (threads : ℕ) (p : SnapshotPipeline V) : Prop where
  middles : ∀ o, MiddlesCovered threads (p.tasks o)
  releases : ∀ o, Releases (p.tasks o)
  idle : ∀ o, p.tasks o ≠ [] → erasedTasks (p.tasks o) = 0 →
    (p.iterationSync (p.nameOf o)).iterationInProgress = false →
      tasksWith released (p.tasks o) (headers (p.tasks o)) = 1

namespace Sequenced

variable {threads : ℕ} {registers : SnapshotPipeline V → RepeatingSnapshotCommand → Prop}
  {schedules : SnapshotPipeline V → Prop} {p p' : SnapshotPipeline V}

theorem init : Sequenced threads ({} : SnapshotPipeline V) where
  middles _ := .nil
  releases _ := .nil
  idle _ hne := absurd rfl hne

/-- Neither tasks nor iterations change. -/
theorem frame (h : Sequenced threads p) (htasks : p'.tasks = p.tasks)
    (hprogress : ∀ name, (p'.iterationSync name).iterationInProgress =
      (p.iterationSync name).iterationInProgress)
    (hnames : ∀ o, p.tasks o ≠ [] → p'.nameOf o = p.nameOf o) : Sequenced threads p' := by
  refine ⟨fun o => htasks ▸ h.middles o, fun o => htasks ▸ h.releases o,
    fun o hne hzero hidle => ?_⟩
  rw [htasks] at hne hzero ⊢
  rw [hprogress, hnames o hne] at hidle
  exact h.idle o hne hzero hidle

/-- The tasks of one operation change, with the entries of its name. -/
theorem replace (h : Sequenced threads p) {o : ℕ} {tasks : List (SubmissionTask V)}
    (htasks : p'.tasks = Function.update p.tasks o tasks)
    (hnames : ∀ o, p'.nameOf o = p.nameOf o) (hmiddles : MiddlesCovered threads tasks)
    (hreleases : Releases tasks)
    (hidle : erasedTasks tasks = 0 →
      (p'.iterationSync (p.nameOf o)).iterationInProgress = false →
        tasksWith released tasks (headers tasks) = 1)
    (hothers : ∀ other ≠ o, p.tasks other ≠ [] → erasedTasks (p.tasks other) = 0 →
      (p'.iterationSync (p.nameOf other)).iterationInProgress = false →
        (p.iterationSync (p.nameOf other)).iterationInProgress = false) : Sequenced threads p' := by
  refine ⟨fun other => ?_, fun other => ?_, fun other hne hzero hprogress => ?_⟩ <;>
    rw [htasks] at *
  · by_cases heq : other = o
    · rw [heq, Function.update_self]
      exact hmiddles
    · rw [Function.update_of_ne heq]
      exact h.middles other
  · by_cases heq : other = o
    · rw [heq, Function.update_self]
      exact hreleases
    · rw [Function.update_of_ne heq]
      exact h.releases other
  · rw [hnames] at hprogress
    by_cases heq : other = o
    · subst heq
      rw [Function.update_self] at hzero ⊢
      exact hidle hzero hprogress
    · rw [Function.update_of_ne heq] at hne hzero ⊢
      exact h.idle other hne hzero (hothers other heq hne hzero hprogress)

theorem submit (h : Sequenced threads p) {o : ℕ} {task : SubmissionTask V}
    (htasks : p'.tasks = Function.update p.tasks o (p.tasks o ++ [task]))
    (hnames : ∀ o, p'.nameOf o = p.nameOf o) (hscheduled : Scheduled (p.tasks o ++ [task]))
    (hqueued : task.rank = 0) (hnotLast : erasedTasks (p.tasks o) = 0)
    (hmiddle : task.header = false → task.tail = false → threads = 1 ∨ task.carriesData = true)
    (hopens : task.header = true →
      (p.iterationSync (p.nameOf o)).iterationInProgress = false ∧
        (p'.iterationSync (p.nameOf o)).iterationInProgress = true)
    (hcontinues : task.header = false → p.tasks o ≠ [] ∧
      (p'.iterationSync (p.nameOf o)).iterationInProgress =
        (p.iterationSync (p.nameOf o)).iterationInProgress)
    (hothers : ∀ name ≠ p.nameOf o, p'.iterationSync name = p.iterationSync name) :
    Sequenced threads p' := by
  obtain ⟨-, -, -, -, hreleased⟩ := Synchronized.unmarked_of_queued hqueued
  have hreleases : Releases (p.tasks o ++ [task]) :=
    (h.releases o).schedule hscheduled hqueued fun hheader hne =>
      h.idle o hne hnotLast (hopens hheader).1
  refine h.replace htasks hnames ((h.middles o).snoc hmiddle) hreleases (fun _ hprogress => ?_)
    (fun other hother hne hzero hprogress => ?_)
  · cases hheader : task.header with
    | true => exact absurd ((hopens hheader).2.symm.trans hprogress) (by decide)
    | false =>
        obtain ⟨hne, hsame⟩ := hcontinues hheader
        rw [tasksWith_snoc_of_not (p.tasks o) hreleased, headers_snoc, hheader]
        exact h.idle o hne hnotLast (hsame ▸ hprogress)
  · by_cases hname : p.nameOf other = p.nameOf o
    · rw [hname] at hprogress ⊢
      cases hheader : task.header with
      | true => exact absurd ((hopens hheader).2.symm.trans hprogress) (by decide)
      | false => exact (hcontinues hheader).2 ▸ hprogress
    · rwa [hothers _ hname] at hprogress

theorem moves (h : Sequenced threads p) (hsound : Sound threads p) (hsound' : Sound threads p')
    (hordered : Ordered threads p)
    (hmiddle : schedules p → p.MiddleCovered threads)
    (hmoves : SnapshotPipeline.Moves threads registers schedules p p') : Sequenced threads p' := by
  have hnames (o : ℕ) (hne : p.tasks o ≠ []) : p'.nameOf o = p.nameOf o := by
    rcases hsound.registry.same_entries hmoves with ⟨cmd, created, -, rfl⟩ | ⟨-, hsame⟩
    · have hregistered : o ≠ p.opCount := fun heq =>
        hne (hsound.registry.unregistered o (Nat.le_of_eq heq.symm))
      rw [SnapshotPipeline.nameOf, SnapshotPipeline.register_ops,
        Function.update_of_ne hregistered]
      rfl
    · rw [SnapshotPipeline.nameOf, (hsame o).1]
      rfl
  have hheld := hsound.registry.held
  cases hmoves with
  | trigger | stop | register | scan | remove | leave | sleep =>
      exact h.frame rfl (fun _ => rfl) hnames
  | visit =>
      refine h.frame ?_ (fun _ => ?_) hnames
      all_goals
        rw [SnapshotPipeline.visit]
        dsimp only
        split <;> rfl
  | @await now todo o submission last scheduling =>
      refine h.frame rfl (fun name => ?_) hnames
      change (Function.update p.iterationSync (p.nameOf o) _ name).iterationInProgress = _
      by_cases hname : name = p.nameOf o
      · rw [hname, Function.update_self]
        rfl
      · rw [Function.update_of_ne hname]
  | @submit now todo o submission last scheduling continues allowed =>
      rw [scheduling] at hheld
      have hopen : isOpen (p.tasks o) = true := by
        simpa [continues] using hheld.1.opens
      have hscheduled := hsound'.owned.scheduled o
      rw [SnapshotPipeline.submit_tasks, Function.update_self] at hscheduled
      refine h.submit (SnapshotPipeline.submit_tasks ..)
        (fun _ => SnapshotPipeline.submit_nameOf ..) hscheduled rfl
        (Owned.erased_of_notLast hheld.1.notLast) (fun _ htail => ?_) (fun hheader => ?_)
        (fun _ => ⟨fun hnil => ?_, rfl⟩) (fun _ _ => rfl)
      · exact hmiddle allowed (o, submission, last) (by simp [scheduling, CheckerPhase.scheduled?])
          continues htail
      · exact absurd (continues.symm.trans hheader) (by decide)
      · simp [hnil] at hopen
  | @acquire now todo o submission last acquiring idle =>
      rw [acquiring] at hheld
      have hscheduled := hsound'.owned.scheduled o
      rw [SnapshotPipeline.reserveAndSubmit, SnapshotPipeline.submit_tasks,
        Function.update_self] at hscheduled
      have hheader {motive : Prop} (h : submission.submissionType.header = false) : motive :=
        absurd (hheld.2.1.symm.trans h) (by decide)
      refine h.submit (SnapshotPipeline.submit_tasks ..)
        (fun _ => SnapshotPipeline.submit_nameOf ..) hscheduled rfl
        (Owned.erased_of_notLast hheld.1.notLast) hheader (fun _ => ⟨idle, ?_⟩) hheader
        (fun name hname => Function.update_of_ne hname ..)
      change (Function.update p.iterationSync (p.nameOf o) _
        (p.nameOf o)).iterationInProgress = true
      rw [Function.update_self]
  | dequeue dequeues =>
      obtain ⟨o, i, task, pool, hpool, htask, rfl⟩ := SnapshotPipeline.dequeue_eq_some dequeues
      have hrank : task.rank = 0 := hsound.pooled.rank_of_dequeue hpool htask
      obtain ⟨-, hmarked, herased, hreleasing, hreleased⟩ := Synchronized.unmarked_of_queued hrank
      have hkept : (task.advance .starting).erased = task.erased := by
        rw [herased]
        simp [erased, TaskPhase.rank]
      have hstarting : (task.advance .starting).released = false :=
        released_of_rank (by simp [TaskPhase.rank])
      have htasks : (p.takeTask o i task pool).tasks =
          Function.update p.tasks o ((p.tasks o).set i (task.advance .starting)) := rfl
      refine h.replace htasks (fun _ => rfl) ((h.middles o).advance htask _)
        ((h.releases o).of_marks htask (by omega) (by simp [hmarked]) ?_ ?_)
        (fun hzero hprogress => ?_) (fun _ _ _ _ hprogress => hprogress)
      · rw [hreleasing]
        simp [releasing, TaskPhase.rank]
      · rw [hreleased, hstarting]
      · rw [Synchronized.erasedTasks_eq htask hkept] at hzero
        rw [headers_advance htask, tasksWith_eq released htask (hstarting.trans hreleased.symm)]
        exact h.idle o (List.ne_nil_of_mem (List.mem_of_getElem? htask)) hzero hprogress
  | @task o i _ steps =>
      obtain ⟨task, out, htask, hout, rfl⟩ := SnapshotPipeline.stepTask_eq_some steps
      have hmem := List.mem_of_getElem? htask
      have hne : p.tasks o ≠ [] := List.ne_nil_of_mem hmem
      have hlive : ¬Retired (p.tasks o) := Owned.not_retired_of_task hmem (step_rank hout).2.1
      have hscheduled := hsound.owned.scheduled o
      have hvalid := hsound.registry.valid o task hmem
      obtain ⟨hsynchronized, -⟩ := hsound.owned.synchronized o hne hlive
      have hreleases := (h.releases o).step htask hsynchronized hscheduled (hsound.owned.gated o)
        (hsound.pooled.taken o) (hordered.covered o) (h.middles o) hvalid hout
      obtain ⟨gates, removalSet, hop⟩ := step_op hout
      refine h.replace rfl (fun other => ?_) ((h.middles o).advance htask _) hreleases
        (fun hzero hprogress => ?_) (fun other hother hnonempty hzero hprogress => ?_)
      · have hcmd : out.op.cmd = (p.ops o).cmd := by rw [hop]
        exact congrArg (·.snapshotName) (SnapshotOpInfo.cmd_update hcmd other)
      · change (Function.update p.iterationSync (p.nameOf o) out.sync
          (p.nameOf o)).iterationInProgress = false at hprogress
        rw [Function.update_self] at hprogress
        exact (h.releases o).idle_step hscheduled hvalid htask hout hreleases (h.idle o hne) hzero
          hprogress
      · -- an operation of the same name that is not retired is alone
        have hname : p.nameOf other ≠ p.nameOf o := fun hname => by
          have hother_live : ¬Retired (p.tasks other) := fun hretired => by
            have := Owned.erased_of_retired hretired
            omega
          exact hlive (hsound.owned.alone other hnonempty hother_live o hother.symm hname.symm hne)
        change (Function.update p.iterationSync (p.nameOf o) out.sync
          (p.nameOf other)).iterationInProgress = false at hprogress
        rwa [Function.update_of_ne hname] at hprogress

theorem iterationsInOrder (h : Sequenced threads p) (hsound : Sound threads p)
    (hordered : Ordered threads p) : IterationsInOrder p where
  numbered o := (hsound.owned.scheduled o).header_iterations
  completed o k hpos hk := by
    have hone := (h.releases o).earlier k hpos hk
    obtain ⟨hmarked, hrank⟩ := (h.releases o).behind k (by omega)
    have hnone : tasksWith releasing (p.tasks o) k = 0 := by
      have := (h.releases o).once k
      omega
    refine ⟨?_, fun task hmem hiteration => ?_⟩
    · have htail : 0 < tasksWith tailPublished (p.tasks o) k :=
        hmarked.trans_le (tally_mono fun _ _ => tailPublished_of_marked)
      have hheader := published_of_drained (hsound.owned.scheduled o) (hsound.owned.gated o)
        (hsound.pooled.taken o) (hordered.covered o) (htail.trans_le (tailPublished_le_drained _))
      obtain ⟨events, heq⟩ := (hordered.published o).begun k hheader
      have hmem : (p.ops o).publishTail k ∈ messagesOf (p.log o) k := by
        rw [heq, decide_eq_true htail]
        simp [iterationMessages]
      exact (List.mem_filter.mp hmem).1
    · have hbehind := (hrank task hmem hiteration).1
      have hnot := tally_eq_zero.mp hnone task hmem hiteration
      have hle : task.rank ≤ 15 := TaskPhase.rank_le _
      simp only [releasing, decide_eq_false_iff_not] at hnot
      rw [finished, decide_eq_true_eq]
      omega
  releases o task hmem hreleasing := by
    have hscheduled := hsound.owned.scheduled o
    have hcurrent := (h.releases o).iteration_of_releasing hscheduled hmem hreleasing
    have hone : 0 < tasksWith releasing (p.tasks o) task.iterationId :=
      tally_pos.mpr ⟨task, hmem, hreleasing, rfl⟩
    obtain ⟨-, hbehind⟩ := (h.releases o).behind task.iterationId (by omega)
    have hzero : erasedTasks (p.tasks o) = 0 := by
      refine tally_eq_zero.mpr fun other hother _ => ?_
      by_contra herased
      have hlast : other.lastSubmission = true := by
        simp only [erased, Bool.not_eq_false, Bool.and_eq_true] at herased
        exact herased.1
      have hiteration := hscheduled.iteration_of_last hother hlast
      rw [(hbehind other hother (hiteration.trans hcurrent.symm)).2] at hlast
      cases hlast
    have hlive : ¬Retired (p.tasks o) := fun hretired => by
      have := Owned.erased_of_retired hretired
      omega
    obtain ⟨hsynchronized, -⟩ := hsound.owned.synchronized o (List.ne_nil_of_mem hmem) hlive
    rw [hsynchronized.current hzero, hcurrent]

end Sequenced

/-! ## Runs -/

namespace ContinuousSnapshotManager

variable {threads : ℕ} {m : ContinuousSnapshotManager V} {labels : List (SnapshotStep V)}

/-- A step that schedules a submission finds its name to itself and covers the submission. -/
def SchedulesSequenced (threads : ℕ) (m : ContinuousSnapshotManager V) (label : SnapshotStep V) :
    Prop :=
  label.isSchedule = true → m.toSnapshotPipeline.Clean ∧ m.toSnapshotPipeline.TailCovered threads ∧
    m.toSnapshotPipeline.MiddleCovered threads

instance (threads : ℕ) (m : ContinuousSnapshotManager V) (label : SnapshotStep V) :
    Decidable (m.SchedulesSequenced threads label) :=
  inferInstanceAs (Decidable (label.isSchedule = true → m.toSnapshotPipeline.Clean ∧
    m.toSnapshotPipeline.TailCovered threads ∧ m.toSnapshotPipeline.MiddleCovered threads))

end ContinuousSnapshotManager

end K2eg
