import K2eg.Verification.Snapshot.Gates

/-! # The entries of the synchronizer

While one operation owns the entries of its snapshot name, they count its tasks: the state of an
iteration has the tasks between `startTask` and `finishTask`, and whether the Tail is marked. -/

namespace K2eg

variable {V : Type*}

open SubmissionTask

/-! ## The entries after an operation -/

namespace IterationSync

/-- Nothing but the condition variable is left. -/
structure Blank (sync : IterationSync) : Prop where
  current : sync.currentIteration = 0
  idle : sync.iterationInProgress = false
  states : ∀ k, sync.iterationStates k = none

theorem blank_default : Blank {} := ⟨rfl, rfl, fun _ => rfl⟩

variable (sync : IterationSync) (iterationId k : ℕ)

theorem startTask_eq : sync.startTask iterationId =
    { sync with iterationStates := (sync.startTask iterationId).iterationStates } := by
  rw [startTask]
  split <;> rfl

theorem startTask_state : (sync.startTask iterationId).iterationStates k =
    if k = iterationId then (sync.iterationStates k).map fun state =>
      { state with activeTasks := state.activeTasks + 1 }
    else sync.iterationStates k := by
  rw [startTask]
  by_cases hk : k = iterationId
  · subst hk
    cases hstate : sync.iterationStates k <;> simp [hstate, setState]
  · split <;> simp [hk, setState]

theorem markTailProcessed_eq : sync.markTailProcessed iterationId =
    { sync with iterationStates := (sync.markTailProcessed iterationId).iterationStates } := by
  rw [markTailProcessed]
  split <;> rfl

theorem markTailProcessed_state : (sync.markTailProcessed iterationId).iterationStates k =
    if k = iterationId then (sync.iterationStates k).map fun state =>
      { state with tailProcessed := true }
    else sync.iterationStates k := by
  rw [markTailProcessed]
  by_cases hk : k = iterationId
  · subst hk
    cases hstate : sync.iterationStates k <;> simp [hstate, setState]
  · split <;> simp [hk, setState]

theorem finishTask_eq : (sync.finishTask iterationId).2 =
    { sync with iterationStates := (sync.finishTask iterationId).2.iterationStates } := by
  rw [finishTask]
  split <;> rfl

theorem finishTask_state : (sync.finishTask iterationId).2.iterationStates k =
    if k = iterationId then (sync.iterationStates k).map fun state =>
      { state with activeTasks := state.activeTasks - 1 }
    else sync.iterationStates k := by
  rw [finishTask]
  by_cases hk : k = iterationId
  · subst hk
    cases hstate : sync.iterationStates k <;> simp [hstate, setState]
  · split <;> simp [hk, setState]

theorem releaseLock_state : (sync.releaseLock iterationId).iterationStates k =
    if sync.cv = true ∧ k = iterationId then none else sync.iterationStates k := by
  rw [releaseLock]
  cases sync.cv <;> simp [setState, Function.update_apply]

theorem reserve_state : sync.reserve.2.iterationStates k =
    if k = sync.currentIteration + 1 then some {} else sync.iterationStates k := by
  simp [reserve, setState, Function.update_apply]

variable {sync}

theorem Blank.startTask (h : sync.Blank) : (sync.startTask iterationId).Blank := by
  simpa [IterationSync.startTask, h.states] using h

theorem Blank.markTailProcessed (h : sync.Blank) : (sync.markTailProcessed iterationId).Blank := by
  simpa [IterationSync.markTailProcessed, h.states] using h

theorem Blank.finishTask (h : sync.Blank) : sync.finishTask iterationId = (false, sync) := by
  simp [IterationSync.finishTask, h.states]

theorem Blank.releaseLock (h : sync.Blank) : (sync.releaseLock iterationId).Blank := by
  refine ⟨?_, ?_, fun k => ?_⟩
  · rw [IterationSync.releaseLock]
    split <;> exact h.current
  · rw [IterationSync.releaseLock]
    split
    · rfl
    · exact h.idle
  · rw [releaseLock_state, h.states]
    split <;> rfl

end IterationSync

/-! ## Agreement -/

/-- The tasks of any iteration behind `removeSnapshot`. -/
abbrev erasedTasks (tasks : List (SubmissionTask V)) : ℕ := tally erased (fun _ => ()) tasks ()

/-- The entries agree with the tasks of the operation that owns them. -/
structure Synchronized (tasks : List (SubmissionTask V)) (sync : IterationSync) : Prop where
  blank : 0 < erasedTasks tasks → sync.Blank
  current : erasedTasks tasks = 0 → sync.currentIteration = headers tasks
  cv : erasedTasks tasks = 0 → sync.cv = true
  state : erasedTasks tasks = 0 → ∀ k, sync.iterationStates k =
    if 1 ≤ k ∧ k ≤ headers tasks ∧ tasksWith released tasks k = 0 then
      some ⟨tasksWith active tasks k, decide (0 < tasksWith marked tasks k)⟩
    else none
  progress : sync.iterationInProgress = true → tasksWith released tasks (headers tasks) = 0
  settled : erasedTasks tasks = 0 → ∀ k, tasksWith released tasks k = 0 →
    0 < tasksWith marked tasks k → tasksWith active tasks k = 0 → 0 < tasksWith releasing tasks k

namespace Synchronized

variable {tasks : List (SubmissionTask V)} {task : SubmissionTask V} {i : ℕ}
  {op : SnapshotOpInfo} {sync : IterationSync} {out : TaskOutcome V}

/-- The entries that `acquireIteration` finds for a new operation. -/
theorem nil (h : sync.Blank) (hcv : sync.cv = true) :
    Synchronized ([] : List (SubmissionTask V)) sync where
  blank := by simp
  current _ := h.current
  cv _ := hcv
  state _ k := by rw [h.states, if_neg]; simp; omega
  progress _ := tally_nil
  settled := by simp

theorem idle_of_erased (h : Synchronized tasks sync) (herased : 0 < erasedTasks tasks) :
    sync.iterationInProgress = false := (h.blank herased).idle

theorem erased_of_progress (h : Synchronized tasks sync)
    (hprogress : sync.iterationInProgress = true) :
    erasedTasks tasks = 0 := by
  by_contra hne
  rw [h.idle_of_erased (Nat.pos_of_ne_zero hne)] at hprogress
  cases hprogress

/-- The condition variable may be made at any time. -/
theorem ensureCv (h : Synchronized tasks sync) : Synchronized tasks sync.ensureCv where
  blank hpos := ⟨(h.blank hpos).current, (h.blank hpos).idle, (h.blank hpos).states⟩
  current := h.current
  cv _ := rfl
  state := h.state
  progress := h.progress
  settled := h.settled

/-! ## A step -/

section Step

variable (hi : tasks[i]? = some task)
include hi

theorem erasedTasks_eq {phase : TaskPhase V} (h : (task.advance phase).erased = task.erased) :
    erasedTasks (tasks.set i (task.advance phase)) = erasedTasks tasks :=
  tally_set_of_eq hi rfl h

/-- A task may go on as long as it passes no mark. -/
theorem of_marks {phase : TaskPhase V} (h : Synchronized tasks sync)
    (marks : (task.advance phase).syncMarks = task.syncMarks) :
    Synchronized (tasks.set i (task.advance phase)) sync := by
  have hactive := tasksWith_eq active hi (congrArg (·.active) marks)
  have hmarked := tasksWith_eq marked hi (congrArg (·.marked) marks)
  have herased := erasedTasks_eq hi (congrArg (·.erased) marks)
  have hreleasing := tasksWith_eq releasing hi (congrArg (·.releasing) marks)
  have hreleased := tasksWith_eq released hi (congrArg (·.released) marks)
  constructor <;>
    simp only [headers_advance hi, hactive, hmarked, herased, hreleasing, hreleased]
  · exact h.blank
  · exact h.current
  · exact h.cv
  · exact h.state
  · exact h.progress
  · exact h.settled

theorem step (h : Synchronized tasks sync) (hscheduled : Scheduled tasks)
    (hvalid : task.Valid) (hstep : task.step op sync = some out) :
    Synchronized (tasks.set i (task.advance out.phase)) out.sync := by
  have hmem := hscheduled.iteration_mem task (List.mem_of_getElem? hi)
  have hheaders := headers_advance hi out.phase
  cases syncEffect hmem.1 hvalid hstep with
  | silent entries marks => exact entries ▸ h.of_marks hi marks
  | start entries before marks =>
      have hactive := tasksWith_add active hi before (congrArg (·.active) marks)
      have hmarked := tasksWith_eq marked hi (congrArg (·.marked) marks)
      have herased := erasedTasks_eq hi (congrArg (·.erased) marks)
      have hreleasing := tasksWith_eq releasing hi (congrArg (·.releasing) marks)
      have hreleased := tasksWith_eq released hi (congrArg (·.released) marks)
      rw [entries]
      constructor <;> simp only [hheaders, hmarked, herased, hreleasing, hreleased]
      · exact fun hpos => (h.blank hpos).startTask _
      · exact fun hzero => by rw [IterationSync.startTask_eq]; exact h.current hzero
      · exact fun hzero => by rw [IterationSync.startTask_eq]; exact h.cv hzero
      · intro hzero k
        rw [IterationSync.startTask_state, h.state hzero]
        by_cases hk : k = task.iterationId
        · subst hk
          rw [if_pos rfl, hactive]
          split_ifs <;> simp
        · rw [if_neg hk, tasksWith_ne active hi hk]
      · rw [IterationSync.startTask_eq]
        exact h.progress
      · intro hzero k hrel hmark hact
        by_cases hk : k = task.iterationId
        · subst hk
          omega
        · rw [tasksWith_ne active hi hk] at hact
          exact h.settled hzero k hrel hmark hact
  | markTail entries isActive marks =>
      have hactive := tasksWith_eq active hi (congrArg (·.active) marks)
      have herased := erasedTasks_eq hi (congrArg (·.erased) marks)
      have hreleasing := tasksWith_eq releasing hi (congrArg (·.releasing) marks)
      have hreleased := tasksWith_eq released hi (congrArg (·.released) marks)
      have hafter : 0 < tasksWith marked (tasks.set i (task.advance out.phase))
          task.iterationId :=
        tally_pos.mpr ⟨_, List.mem_set (List.getElem?_eq_some_iff.mp hi).1 _,
          congrArg (·.marked) marks, rfl⟩
      rw [entries]
      constructor <;> simp only [hheaders, hactive, herased, hreleasing, hreleased]
      · exact fun hpos => (h.blank hpos).markTailProcessed _
      · exact fun hzero => by rw [IterationSync.markTailProcessed_eq]; exact h.current hzero
      · exact fun hzero => by rw [IterationSync.markTailProcessed_eq]; exact h.cv hzero
      · intro hzero k
        rw [IterationSync.markTailProcessed_state, h.state hzero]
        by_cases hk : k = task.iterationId
        · subst hk
          rw [if_pos rfl, decide_eq_true hafter]
          split_ifs <;> rfl
        · rw [if_neg hk, tasksWith_ne marked hi hk]
      · rw [IterationSync.markTailProcessed_eq]
        exact h.progress
      · intro hzero k hrel hmark hact
        by_cases hk : k = task.iterationId
        · subst hk
          have := tasksWith_pos active hi isActive
          omega
        · rw [tasksWith_ne marked hi hk] at hmark
          exact h.settled hzero k hrel hmark hact
  | erase entries marks =>
      have hpos : 0 < erasedTasks (tasks.set i (task.advance out.phase)) :=
        tally_pos.mpr ⟨_, List.mem_set (List.getElem?_eq_some_iff.mp hi).1 _,
          congrArg (·.erased) marks, rfl⟩
      have hne : erasedTasks (tasks.set i (task.advance out.phase)) ≠ 0 := Nat.ne_of_gt hpos
      rw [entries, IterationSync.removeSnapshot]
      have hidle : ({} : IterationSync).iterationInProgress = true →
          tasksWith released (tasks.set i (task.advance out.phase))
            (headers (tasks.set i (task.advance out.phase))) = 0 := fun h => Bool.noConfusion h
      exact ⟨fun _ => IterationSync.blank_default, fun hzero => absurd hzero hne,
        fun hzero => absurd hzero hne, fun hzero => absurd hzero hne, hidle,
        fun hzero => absurd hzero hne⟩
  | finish release entries before after marks =>
      have hactive := tasksWith_sub active hi before (congrArg (·.active) marks)
      have hmarked := tasksWith_eq marked hi (congrArg (·.marked) marks)
      have herased := erasedTasks_eq hi (congrArg (·.erased) marks)
      have hreleased := tasksWith_eq released hi (congrArg (·.released) marks)
      have hentries : out.sync = (sync.finishTask task.iterationId).2 := by rw [entries]
      rw [hentries]
      constructor <;> simp only [hheaders, hmarked, herased, hreleased]
      · intro hpos
        rw [(h.blank hpos).finishTask]
        exact h.blank hpos
      · exact fun hzero => by rw [IterationSync.finishTask_eq]; exact h.current hzero
      · exact fun hzero => by rw [IterationSync.finishTask_eq]; exact h.cv hzero
      · intro hzero k
        rw [IterationSync.finishTask_state, h.state hzero]
        by_cases hk : k = task.iterationId
        · subst hk
          rw [if_pos rfl, ← hactive]
          split_ifs <;> simp
        · rw [if_neg hk, tasksWith_ne active hi hk]
      · rw [IterationSync.finishTask_eq]
        exact h.progress
      · intro hzero k hrel hmark hact
        by_cases hk : k = task.iterationId
        · -- the last decrement of a marked iteration decides to release it
          subst hk
          have hstate := h.state hzero task.iterationId
          rw [if_pos ⟨hmem.1, hmem.2, hrel⟩, ← hactive, hact] at hstate
          have hrelease : release = true := by
            have := congrArg Prod.fst entries
            rw [IterationSync.finishTask, hstate] at this
            simpa [hmark] using this.symm
          exact tally_pos.mpr ⟨_, List.mem_set (List.getElem?_eq_some_iff.mp hi).1 _,
            (congrArg (·.releasing) marks).trans hrelease, rfl⟩
        · rw [tasksWith_ne active hi hk] at hact
          rw [tasksWith_ne releasing hi hk]
          exact h.settled hzero k hrel hmark hact
  | release entries before after marks =>
      have hactive := tasksWith_eq active hi (congrArg (·.active) marks)
      have hmarked := tasksWith_eq marked hi (congrArg (·.marked) marks)
      have herased := erasedTasks_eq hi (congrArg (·.erased) marks)
      have hreleased : 0 < tasksWith released (tasks.set i (task.advance out.phase))
          task.iterationId :=
        tally_pos.mpr ⟨_, List.mem_set (List.getElem?_eq_some_iff.mp hi).1 _,
          congrArg (·.released) marks, rfl⟩
      rw [entries]
      constructor <;> simp only [hheaders, hactive, hmarked, herased]
      · exact fun hpos => (h.blank hpos).releaseLock _
      · intro hzero
        rw [IterationSync.releaseLock, if_pos (h.cv hzero)]
        exact h.current hzero
      · intro hzero
        rw [IterationSync.releaseLock, if_pos (h.cv hzero)]
        exact h.cv hzero
      · intro hzero k
        rw [IterationSync.releaseLock_state, h.state hzero]
        by_cases hk : k = task.iterationId
        · subst hk
          rw [if_pos ⟨h.cv hzero, rfl⟩, if_neg (by omega)]
        · rw [if_neg (fun h => hk h.2), tasksWith_ne released hi hk]
      · intro hprogress
        rw [IterationSync.releaseLock] at hprogress
        split at hprogress
        · cases hprogress
        · have hzero := h.erased_of_progress hprogress
          exact absurd (h.cv hzero) ‹_›
      · intro hzero k hrel hmark hact
        by_cases hk : k = task.iterationId
        · subst hk
          omega
        · rw [tasksWith_ne released hi hk] at hrel
          rw [tasksWith_ne releasing hi hk]
          exact h.settled hzero k hrel hmark hact

end Step

/-! ## Scheduling a task -/

section Schedule

variable (hqueued : task.rank = 0)
include hqueued

theorem unmarked_of_queued : task.active = false ∧ task.marked = false ∧ task.erased = false ∧
    task.releasing = false ∧ task.released = false := by
  simp [active, marked, erased, releasing, hqueued, released_of_rank]

/-- A task that is queued changes no tally. -/
theorem tallies_snoc (tasks : List (SubmissionTask V)) :
    (∀ k, tasksWith active (tasks ++ [task]) k = tasksWith active tasks k) ∧
      (∀ k, tasksWith marked (tasks ++ [task]) k = tasksWith marked tasks k) ∧
      (∀ k, tasksWith releasing (tasks ++ [task]) k = tasksWith releasing tasks k) ∧
      (∀ k, tasksWith released (tasks ++ [task]) k = tasksWith released tasks k) ∧
      erasedTasks (tasks ++ [task]) = erasedTasks tasks := by
  obtain ⟨hactive, hmarked, herased, hreleasing, hreleased⟩ := unmarked_of_queued hqueued
  refine ⟨tasksWith_snoc_of_not tasks hactive, tasksWith_snoc_of_not tasks hmarked,
    tasksWith_snoc_of_not tasks hreleasing, tasksWith_snoc_of_not tasks hreleased, ?_⟩
  rw [erasedTasks, tally_append_singleton, if_neg (by simp [herased]), Nat.add_zero]

/-- A submission to the iteration that is open. -/
theorem schedule (h : Synchronized tasks sync) (hheader : task.header = false) :
    Synchronized (tasks ++ [task]) sync := by
  obtain ⟨hactive, hmarked, hreleasing, hreleased, herased⟩ := tallies_snoc hqueued tasks
  constructor <;>
    simp only [headers_snoc, hheader, Bool.toNat_false, Nat.add_zero, hactive, hmarked, herased,
      hreleasing, hreleased]
  · exact h.blank
  · exact h.current
  · exact h.cv
  · exact h.state
  · exact h.progress
  · exact h.settled

/-- A Header, with the iteration that `acquireIteration` has reserved for it. -/
theorem reserve (h : Synchronized tasks sync) (hscheduled : Scheduled tasks)
    (hnone : erasedTasks tasks = 0) (hheader : task.header = true) :
    Synchronized (tasks ++ [task]) sync.reserve.2 := by
  obtain ⟨hactive, hmarked, hreleasing, hreleased, herased⟩ := tallies_snoc hqueued tasks
  have hnew := hscheduled.tally_eq_zero_of_lt (Nat.lt_succ_self (headers tasks))
  constructor <;>
    simp only [headers_snoc, hheader, Bool.toNat_true, hactive, hmarked, herased, hreleasing,
      hreleased]
  · omega
  · exact fun hzero => congrArg (· + 1) (h.current hzero)
  · exact h.cv
  · intro hzero k
    rw [IterationSync.reserve_state, h.state hzero, h.current hzero]
    by_cases hk : k = headers tasks + 1
    · subst hk
      rw [if_pos rfl, if_pos ⟨by omega, by omega, hnew _⟩]
      simp [hnew]
    · rw [if_neg hk]
      refine if_congr ?_ rfl rfl
      omega
  · exact fun _ => hnew _
  · exact h.settled

end Schedule

end Synchronized

end K2eg
