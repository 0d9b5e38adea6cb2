import K2eg.Verification.Snapshot.Ownership

/-! # Restarting a snapshot

A snapshot may be started again while tasks of its old operation are on their way. The entries of
the synchronizer are those of the new operation once the checker has scheduled for it. -/

namespace K2eg

variable {V : Type*}

open Interleaving

/-- The iterations of an operation are 1, 2, 3, and so on, in the order of their Headers. -/
theorem Scheduled.header_iterations {tasks : List (SubmissionTask V)} (h : Scheduled tasks) :
    (tasks.filter SubmissionTask.header).map SubmissionTask.iterationId =
      List.range' 1 (headers tasks) := by
  induction h with
  | nil => rfl
  | @snoc tasks task earlier running opens iteration closes ih =>
      rw [List.filter_append, List.map_append, ih, headers_snoc]
      cases hheader : task.header with
      | false => simp [hheader]
      | true =>
          rw [hheader, nextIteration, if_pos rfl] at iteration
          simp [hheader, iteration, List.range'_concat, Nat.add_comm]

/-- When all tasks of a closed iteration are finished, it is not in progress. -/
theorem Synchronized.unfinished {tasks : List (SubmissionTask V)} {sync : IterationSync}
    (h : Synchronized tasks sync) (hscheduled : Scheduled tasks) (hne : tasks ≠ [])
    (hclosed : isOpen tasks = false) (hprogress : sync.iterationInProgress = true) :
    ∃ task ∈ tasks, task.iterationId = headers tasks ∧ task.finished = false := by
  by_contra hfinished
  push Not at hfinished
  have hrank {task : SubmissionTask V} (hmem : task ∈ tasks)
      (hiteration : task.iterationId = headers tasks) : task.rank = 15 := by
    simpa [SubmissionTask.finished] using hfinished task hmem hiteration
  have htail := hscheduled.tally_tail (headers tasks)
  rw [if_pos ⟨hscheduled.headers_pos hne, le_rfl, fun _ => hclosed⟩] at htail
  obtain ⟨last, hmem, hlast, hiteration⟩ := tally_pos.mp (Nat.lt_of_lt_of_eq Nat.one_pos htail.symm)
  have hmarked : 0 < tasksWith SubmissionTask.marked tasks (headers tasks) :=
    tally_pos.mpr ⟨last, hmem, by simp [SubmissionTask.marked, hlast, hrank hmem hiteration],
      hiteration⟩
  have hidle : tasksWith SubmissionTask.active tasks (headers tasks) = 0 :=
    tally_eq_zero.mpr fun task hmem hiteration => by
      simp [SubmissionTask.active, hrank hmem hiteration]
  have hsettled := h.settled (h.erased_of_progress hprogress) _ (h.progress hprogress) hmarked hidle
  obtain ⟨task, hmem, hreleasing, hiteration⟩ := tally_pos.mp hsettled
  simp [SubmissionTask.releasing, hrank hmem hiteration] at hreleasing

/-- The checker has begun to schedule for the operation. -/
def SnapshotPipeline.Entered (p : SnapshotPipeline V) (o : ℕ) : Prop :=
  p.tasks o ≠ [] ∨ p.checker.acquires = true ∧ p.checker.held = some o

/-- What the operations of one snapshot name must not do to each other. -/
structure RestartSafe (p : SnapshotPipeline V) : Prop where
  /-- `active_tasks` is never negative. -/
  counters : ∀ name k state, (p.iterationSync name).iterationStates k = some state →
    0 ≤ state.activeTasks
  /-- While an operation is not retired, no step of another operation's task changes its
  entries. -/
  undisturbed : ∀ {old new i p'}, old ≠ new → p.nameOf old = p.nameOf new → p.Entered new →
    ¬Retired (p.tasks new) → p.stepTask old i = some p' →
      p'.iterationSync (p.nameOf new) = p.iterationSync (p.nameOf new)
  /-- An iteration in progress waits for its Tail or has a task that is not finished. -/
  progress : ∀ name, (p.iterationSync name).iterationInProgress = true →
    ∃ o, p.nameOf o = name ∧ (p.iterationSync name).currentIteration = headers (p.tasks o) ∧
      (isOpen (p.tasks o) = true ∨
        ∃ task ∈ p.tasks o, task.iterationId = headers (p.tasks o) ∧ task.finished = false)
  /-- The iterations of an operation are numbered from 1 without gap or repetition. -/
  iterations : ∀ o, ((p.tasks o).filter SubmissionTask.header).map SubmissionTask.iterationId =
    List.range' 1 (headers (p.tasks o))
  /-- The condition variable exists while the checker waits on it. -/
  waiting : ∀ {now todo o submission last},
    p.checker = .acquiring now todo o submission last →
      (p.iterationSync (p.nameOf o)).cv = true

namespace Owned

variable {p p' : SnapshotPipeline V}

/-- The entries of a name are blank or those of an operation that is not retired. -/
theorem blank_or_owner (h : Owned p) (name : String) :
    (p.iterationSync name).Blank ∨
      ∃ o, p.nameOf o = name ∧ p.tasks o ≠ [] ∧ ¬Retired (p.tasks o) := by
  by_cases hvacant : ∀ o, p.nameOf o = name → p.tasks o ≠ [] → Retired (p.tasks o)
  · exact .inl (h.vacant name hvacant)
  · push Not at hvacant
    exact .inr hvacant

theorem counters (h : Owned p) {name : String} {k : ℕ} {state : IterationState}
    (hstate : (p.iterationSync name).iterationStates k = some state) : 0 ≤ state.activeTasks := by
  rcases h.blank_or_owner name with hblank | ⟨o, rfl, hne, hlive⟩
  · rw [hblank.states] at hstate
    cases hstate
  · obtain ⟨hsynchronized, -⟩ := h.synchronized o hne hlive
    by_cases hzero : erasedTasks (p.tasks o) = 0
    · rw [hsynchronized.state hzero] at hstate
      split at hstate
      · obtain rfl := Option.some.inj hstate
        exact Int.natCast_nonneg _
      · cases hstate
    · rw [(hsynchronized.blank (Nat.pos_of_ne_zero hzero)).states] at hstate
      cases hstate

/-- The tasks of the other operations of its name are finished. -/
theorem alone_of_entered (h : Owned p) {o : ℕ} (hentered : p.Entered o)
    (hlive : ¬Retired (p.tasks o)) : Alone p o := by
  rcases hentered with hne | ⟨hacquires, hheld⟩
  · exact h.alone o hne hlive
  · cases hchecker : p.checker <;> rw [hchecker] at hacquires hheld <;> cases hacquires
    obtain rfl := Option.some.inj hheld
    exact (h.acquiring hchecker).2

theorem undisturbed (h : Owned p) {old new i : ℕ} (hne : old ≠ new)
    (hname : p.nameOf old = p.nameOf new) (hentered : p.Entered new)
    (hlive : ¬Retired (p.tasks new)) (hstep : p.stepTask old i = some p') :
    p'.iterationSync (p.nameOf new) = p.iterationSync (p.nameOf new) := by
  obtain ⟨task, out, htask, hout, rfl⟩ := SnapshotPipeline.stepTask_eq_some hstep
  have hmem := List.mem_of_getElem? htask
  have hretired := h.alone_of_entered hentered hlive old hne hname (List.ne_nil_of_mem hmem)
  exact absurd hretired (not_retired_of_task hmem (SubmissionTask.step_rank hout).2.1)

/-- An iteration in progress is not left without a task. -/
theorem progress (h : Owned p) {name : String}
    (hprogress : (p.iterationSync name).iterationInProgress = true) :
    ∃ o, p.nameOf o = name ∧ (p.iterationSync name).currentIteration = headers (p.tasks o) ∧
      (isOpen (p.tasks o) = true ∨
        ∃ task ∈ p.tasks o, task.iterationId = headers (p.tasks o) ∧ task.finished = false) := by
  rcases h.blank_or_owner name with hblank | ⟨o, rfl, hne, hlive⟩
  · rw [hblank.idle] at hprogress
    cases hprogress
  · obtain ⟨hsynchronized, -⟩ := h.synchronized o hne hlive
    have hzero := hsynchronized.erased_of_progress hprogress
    refine ⟨o, rfl, hsynchronized.current hzero, ?_⟩
    cases hopen : isOpen (p.tasks o) with
    | true => exact .inl rfl
    | false => exact .inr (hsynchronized.unfinished (h.scheduled o) hne hopen hprogress)

end Owned

theorem Sound.restartSafe {threads : ℕ} {p : SnapshotPipeline V} (h : Sound threads p) :
    RestartSafe p where
  counters _ _ _ := h.owned.counters
  undisturbed := h.owned.undisturbed
  progress _ := h.owned.progress
  iterations o := (h.owned.scheduled o).header_iterations
  waiting {now todo o submission last} hacquiring := by
    have hheld := h.registry.held
    rw [hacquiring] at hheld
    exact (h.owned.acquiring hacquiring).1.cv (Owned.erased_of_notLast hheld.1.notLast)

/-! ## Runs -/

namespace ContinuousSnapshotManager

variable {threads : ℕ} {m : ContinuousSnapshotManager V} {labels : List (SnapshotStep V)}

/-- As long as no Header is scheduled while a task of another operation of the name is
unfinished, the operations of a name do not disturb each other. -/
theorem restartSafe_of_run (h : Run (next threads) SchedulesClean {} labels m) :
    RestartSafe m.toSnapshotPipeline :=
  (sound_of_run h).restartSafe

open SnapshotTrace in
/-- A snapshot is stopped, its last task ends, and it is started again. -/
theorem restartSafe_of_run_sequential :
    ∃ labels m, Run (next (V := ℕ) 2) SchedulesClean {} labels m ∧
      m.tasks 1 ≠ [] ∧ RestartSafe m.toSnapshotPipeline := by
  have hpasses : passes (next (V := ℕ) 2) SchedulesClean settle
      (fun m => !(m.tasks 1).isEmpty) {}
      (start 0 normal ++ [.receiveStop 1 stop, .stopMark 1] ++ remove 10 ++ [.dequeue] ++
        List.replicate 10 (.task 0 0) ++ [.stopReply 1] ++ start 2 normal ++
        visit 1000000001 [] ++ [.dequeue, .task 1 0]) = true := by
    decide +kernel
  obtain ⟨m, hrun, hcheck⟩ := exists_run_of_passes settle_eq hpasses
  exact ⟨_, m, hrun, by simpa using hcheck, restartSafe_of_run hrun⟩

open SnapshotTrace in
/-- The new operation takes iteration 1 while the last task of the old one, of its iteration 1, is
behind `removeSnapshot`: the old task counts down in the state of the new iteration. -/
theorem not_restartSafe_lastTaskRunning :
    ¬ ∀ (labels : List (SnapshotStep ℕ)) (m : ContinuousSnapshotManager ℕ),
      AnyRun (next 2) {} labels m → RestartSafe m.toSnapshotPipeline := by
  intro hall
  have hpasses : passes (next (V := ℕ) 2) (fun _ _ => True) settle
      (fun m => decide ((m.iterationSync "a").iterationStates 1 = some ⟨-1, false⟩)) {}
      (start 0 normal ++ [.receiveStop 1 stop, .stopMark 1] ++ remove 10 ++ [.dequeue] ++
        List.replicate 9 (.task 0 0) ++ [.stopReply 1] ++ start 2 normal ++
        visit 1000000001 [] ++ [.task 0 0]) = true := by
    decide +kernel
  obtain ⟨m, hrun, hcheck⟩ := exists_run_of_passes settle_eq hpasses
  have hcounter := (hall _ m hrun).counters "a" 1 _ (of_decide_eq_true hcheck)
  exact absurd hcounter (by decide)

end ContinuousSnapshotManager

end K2eg
