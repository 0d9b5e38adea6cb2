import K2eg.Verification.Snapshot.Ownership
import Mathlib.Data.Finset.Dedup
import Mathlib.Data.Set.Card

/-! # The account of the pending data

`data_pending` of an iteration counts its Data submissions that are scheduled and not completed,
the entry of an iteration goes with its Tail and does not come back, and only the iterations whose
Tail is not drained have one: over the runs in which no Header is scheduled while a task of another
operation of the name is unfinished. -/

open Interleaving

namespace K2eg

variable {V : Type*}

open SubmissionTask

/-- The iterations of the tasks. -/
def iterations (tasks : List (SubmissionTask V)) : Finset ℕ :=
  (tasks.map SubmissionTask.iterationId).toFinset

theorem mem_iterations {tasks : List (SubmissionTask V)} {k : ℕ} :
    k ∈ iterations tasks ↔ ∃ task ∈ tasks, task.iterationId = k := by
  rw [iterations, List.mem_toFinset, List.mem_map]

/-- The entries of `iteration_sync_states` account for the tasks of an operation. -/
structure AccountsData (tasks : List (SubmissionTask V)) (gates : ℕ → Option IterationSyncState) :
    Prop where
  pending : ∀ k, ∀ state ∈ gates k, state.dataPending = tasksWith dataPending tasks k
  completed : ∀ k, gates k = none → tasksWith dataPending tasks k = 0
  entries : {k | (gates k).isSome = true}.encard ≤
    ((iterations tasks).filter fun k => tasksWith drained tasks k = 0).card

/-! ## The account of a state -/

/-- The iterations of a schedule are those up to its last Header. -/
theorem Scheduled.mem_iterations {tasks : List (SubmissionTask V)} (h : Scheduled tasks) {k : ℕ} :
    k ∈ iterations tasks ↔ 1 ≤ k ∧ k ≤ headers tasks := by
  rw [K2eg.mem_iterations]
  constructor
  · rintro ⟨task, hmem, rfl⟩
    exact h.iteration_mem task hmem
  · intro hk
    have hone := h.tally_header k
    rw [if_pos hk] at hone
    obtain ⟨task, hmem, -, hiteration⟩ := tally_pos.mp (Nat.lt_of_lt_of_eq Nat.one_pos hone.symm)
    exact ⟨task, hmem, hiteration⟩

namespace Gated

variable {tasks : List (SubmissionTask V)} {gates : ℕ → Option IterationSyncState} {k : ℕ}

theorem isSome_iff (h : Gated tasks gates) (hscheduled : Scheduled tasks) :
    (gates k).isSome = true ↔ k ∈ iterations tasks ∧ tasksWith drained tasks k = 0 := by
  rw [h.gate, hscheduled.mem_iterations, and_assoc]
  split_ifs with hopen
  · simp [hopen]
  · simp [hopen]

/-- The gate of an iteration that has begun is erased when its data are drained. -/
theorem drained_pos (h : Gated tasks gates) (hscheduled : Scheduled tasks)
    (hk : k ∈ iterations tasks) (hnone : gates k = none) : 0 < tasksWith drained tasks k := by
  by_contra hzero
  have hsome := (h.isSome_iff hscheduled).2 ⟨hk, by omega⟩
  simp [hnone] at hsome

theorem none_of_drained (h : Gated tasks gates) (hdrained : 0 < tasksWith drained tasks k) :
    gates k = none := by
  rw [h.gate, if_neg]
  rintro ⟨-, -, hzero⟩
  omega

theorem accountsData (h : Gated tasks gates) (hscheduled : Scheduled tasks) :
    AccountsData tasks gates where
  pending k state hstate := by
    rw [Option.mem_def, h.gate] at hstate
    split_ifs at hstate
    obtain rfl := Option.some.inj hstate
    rfl
  completed k hnone := by
    by_cases hk : k ∈ iterations tasks
    · exact h.pending_of_drained k (h.drained_pos hscheduled hk hnone)
    · exact tally_eq_zero.mpr fun task hmem heq => absurd (mem_iterations.2 ⟨task, hmem, heq⟩) hk
  entries := by
    have hset : {k | (gates k).isSome = true} =
        ↑((iterations tasks).filter fun k => tasksWith drained tasks k = 0) := by
      ext k
      rw [Finset.mem_coe, Finset.mem_filter]
      exact h.isSome_iff hscheduled
    rw [hset, Set.encard_coe_eq_coe_finsetCard]

end Gated

/-! ## What a move does to the tasks -/

/-- The tasks of an operation after a move: one more is scheduled, or one goes on. -/
inductive Advances (tasks : List (SubmissionTask V)) : List (SubmissionTask V) → Prop where
  | keep : Advances tasks tasks
  | schedule (task : SubmissionTask V) : Advances tasks (tasks ++ [task])
  | advance {i : ℕ} {task : SubmissionTask V} {phase : TaskPhase V}
      (here : tasks[i]? = some task) (forward : task.rank ≤ phase.rank) :
      Advances tasks (tasks.set i (task.advance phase))

namespace Advances

variable {tasks tasks' : List (SubmissionTask V)} {k : ℕ}

/-- An iteration that has begun stays so. -/
theorem iterations_mono (h : Advances tasks tasks') (hk : k ∈ iterations tasks) :
    k ∈ iterations tasks' := by
  rw [mem_iterations] at hk ⊢
  obtain ⟨task, hmem, hiteration⟩ := hk
  cases h with
  | keep => exact ⟨task, hmem, hiteration⟩
  | schedule => exact ⟨task, List.mem_append_left _ hmem, hiteration⟩
  | @advance i moved phase here forward =>
      obtain ⟨j, hj⟩ := List.mem_iff_getElem?.mp hmem
      by_cases hij : i = j
      · subst hij
        obtain rfl := Option.some.inj (here.symm.trans hj)
        have hlt := (List.getElem?_eq_some_iff.mp here).1
        exact ⟨_, List.mem_set hlt _, hiteration⟩
      · refine ⟨task, List.mem_iff_getElem?.mpr ⟨j, ?_⟩, hiteration⟩
        rw [List.getElem?_set_ne hij, hj]

/-- A drained iteration stays drained. -/
theorem drained_mono (h : Advances tasks tasks') (hpos : 0 < tasksWith drained tasks k) :
    0 < tasksWith drained tasks' k := by
  cases h with
  | keep => exact hpos
  | schedule =>
      rw [tasksWith_snoc]
      omega
  | advance here forward =>
      refine hpos.trans_le (tally_le_set here rfl fun hdrained => ?_)
      simp only [drained, Bool.and_eq_true, decide_eq_true_eq] at hdrained ⊢
      exact ⟨hdrained.1, hdrained.2.trans_le forward⟩

end Advances

namespace Sound

variable {threads : ℕ} {registers : SnapshotPipeline V → RepeatingSnapshotCommand → Prop}
  {schedules : SnapshotPipeline V → Prop} {p p' : SnapshotPipeline V}

/-- The tasks of one operation change. -/
theorem advances_update {f : ℕ → List (SubmissionTask V)} {o : ℕ}
    {tasks : List (SubmissionTask V)} (h : Advances (f o) tasks) (other : ℕ) :
    Advances (f other) (Function.update f o tasks other) := by
  by_cases heq : other = o
  · subst heq
    rwa [Function.update_self]
  · rw [Function.update_of_ne heq]
    exact .keep

theorem advances (h : Sound threads p)
    (hmoves : SnapshotPipeline.Moves threads registers schedules p p') (o : ℕ) :
    Advances (p.tasks o) (p'.tasks o) := by
  cases hmoves with
  | trigger | stop | register | scan | remove | leave | await | sleep => exact .keep
  | visit =>
      rw [SnapshotPipeline.visit]
      dsimp only
      split <;> exact .keep
  | submit =>
      rw [SnapshotPipeline.submit_tasks]
      exact advances_update (.schedule _) o
  | acquire =>
      rw [SnapshotPipeline.reserveAndSubmit, SnapshotPipeline.submit_tasks]
      exact advances_update (.schedule _) o
  | dequeue dequeues =>
      obtain ⟨id, i, task, pool, hpool, htask, rfl⟩ := SnapshotPipeline.dequeue_eq_some dequeues
      have hrank : task.rank = 0 := h.pooled.rank_of_dequeue hpool htask
      exact advances_update (.advance htask (by omega)) o
  | task steps =>
      obtain ⟨task, out, htask, hout, rfl⟩ := SnapshotPipeline.stepTask_eq_some steps
      exact advances_update (.advance htask (SubmissionTask.step_rank hout).2.2.1) o

end Sound

/-! ## Runs -/

namespace ContinuousSnapshotManager

variable {threads o k : ℕ} {m t : ContinuousSnapshotManager V} {labels : List (SnapshotStep V)}

/-- What the gates of an operation keep over the runs whose steps are allowed: the account, and
that an entry which is erased has no Data submission left and is never created again. -/
structure GatesAccounted (threads : ℕ)
    (allowed : ContinuousSnapshotManager V → SnapshotStep V → Prop)
    (m : ContinuousSnapshotManager V) (o : ℕ) : Prop where
  account : AccountsData (m.tasks o) (m.ops o).iterationSyncStates
  erased : ∀ {k later t}, ((m.ops o).iterationSyncStates k).isSome = true →
    Run (next threads) allowed m later t → (t.ops o).iterationSyncStates k = none →
      tasksWith dataPending (t.tasks o) k = 0 ∧
        ∀ {future u}, Run (next threads) allowed t future u →
          (u.ops o).iterationSyncStates k = none

/-- What the tasks of an operation keep as they advance holds after a run. -/
theorem lasting_of_run {P : List (SubmissionTask V) → Prop}
    (hkeep : ∀ {tasks tasks'}, Advances tasks tasks' → P tasks → P tasks')
    (h : Sound threads m.toSnapshotPipeline) (hP : P (m.tasks o))
    (hrun : Run (next threads) SchedulesClean m labels t) :
    Sound threads t.toSnapshotPipeline ∧ P (t.tasks o) := by
  have hmoves {p p' : SnapshotPipeline V} (hinv : Sound threads p ∧ P (p.tasks o))
      (hmove : SnapshotPipeline.Moves threads (fun _ _ => True) SnapshotPipeline.Clean p p') :
      Sound threads p' ∧ P (p'.tasks o) :=
    ⟨hinv.1.moves id hmove, hkeep (hinv.1.advances hmove o) hinv.2⟩
  refine hrun.invariant
    (I := fun _ t => Sound threads t.toSnapshotPipeline ∧ P (t.tasks o)) ⟨h, hP⟩ ?_
  intro _ s label u hinv hallowed hnext
  exact next_invariant (I := fun p => Sound threads p ∧ P (p.tasks o)) hnext
    (fun _ _ => trivial) hallowed hmoves hinv

theorem gate_erased (h : Sound threads m.toSnapshotPipeline)
    (hsome : ((m.ops o).iterationSyncStates k).isSome = true)
    (hrun : Run (next threads) SchedulesClean m labels t)
    (hnone : (t.ops o).iterationSyncStates k = none) :
    Sound threads t.toSnapshotPipeline ∧ 0 < tasksWith drained (t.tasks o) k := by
  have hbegun := ((h.owned.gated o).isSome_iff (h.owned.scheduled o)).1 hsome
  obtain ⟨ht, hk⟩ := lasting_of_run (P := fun tasks => k ∈ iterations tasks)
    (fun hadvances => hadvances.iterations_mono) h hbegun.1 hrun
  exact ⟨ht, (ht.owned.gated o).drained_pos (ht.owned.scheduled o) hk hnone⟩

/-- As long as no Header is scheduled while a task of another operation of the name is unfinished,
the gates of every operation account for its Data submissions, and an entry that is gone stays
away. -/
theorem gatesAccounted_of_run (h : Run (next threads) SchedulesClean {} labels m) (o : ℕ) :
    GatesAccounted threads SchedulesClean m o := by
  have hsound := sound_of_run h
  refine ⟨(hsound.owned.gated o).accountsData (hsound.owned.scheduled o), ?_⟩
  intro k later t hsome hlater hnone
  obtain ⟨ht, hdrained⟩ := gate_erased hsound hsome hlater hnone
  refine ⟨(ht.owned.gated o).pending_of_drained k hdrained, fun hfuture => ?_⟩
  obtain ⟨hu, hstays⟩ := lasting_of_run (P := fun tasks => 0 < tasksWith drained tasks k)
    (fun hadvances => hadvances.drained_mono) ht hdrained hfuture
  exact (hu.owned.gated o).none_of_drained hstays

open SnapshotTrace in
/-- A Header with an update, then a Tail: the entry is there while the update is pending and gone
behind the Tail. -/
theorem gatesAccounted_of_run_buffered :
    ∃ labels m later t, Run (next (V := ℕ) 2) SchedulesClean {} labels m ∧
      GatesAccounted 2 SchedulesClean m 0 ∧
      (m.ops 0).iterationSyncStates 1 = some ⟨some false, 1⟩ ∧
      Run (next (V := ℕ) 2) SchedulesClean m later t ∧
      (t.ops 0).iterationSyncStates 1 = none ∧ tasksWith dataPending (t.tasks 0) 1 = 0 := by
  let later : List (SnapshotStep ℕ) :=
    visit 2000000002 [] ++ [.dequeue, .dequeue] ++ List.replicate 7 (.task 0 0) ++
      List.replicate 2 (.task 0 1)
  obtain ⟨m, hrun, hcheck⟩ := exists_run (next (V := ℕ) 2) SchedulesClean {}
    (start 0 buffered ++ visit 1000000001 [event])
    (fun m => decide ((m.ops 0).iterationSyncStates 1 = some ⟨some false, 1⟩) &&
      (execute (next (V := ℕ) 2) SchedulesClean m later).any fun t =>
        ((t.ops 0).iterationSyncStates 1).isNone) (by decide +kernel)
  obtain ⟨hgate, hexec⟩ := Bool.and_eq_true_iff.mp hcheck
  obtain ⟨t, hlater, hnone⟩ := exists_run (next (V := ℕ) 2) SchedulesClean m later _ hexec
  have hsome := of_decide_eq_true hgate
  rw [Option.isNone_iff_eq_none] at hnone
  have haccounted := gatesAccounted_of_run hrun 0
  refine ⟨_, m, later, t, hrun, haccounted, hsome, hlater, hnone, ?_⟩
  exact (haccounted.erased (by simp [hsome]) hlater hnone).1

open SnapshotTrace in
/-- The last task of the second operation stands before `removeSnapshot` when the third operation
is in its iteration 2; the entry of iteration 2 is erased with its Tail. The old task then resets
the numbering, and iteration 2 begins again. -/
theorem not_gatesAccounted_oldTaskRemoves :
    ¬ ∀ (labels : List (SnapshotStep ℕ)) (m : ContinuousSnapshotManager ℕ),
      AnyRun (next 2) {} labels m → ∀ o, GatesAccounted 2 (fun _ _ => True) m o := by
  intro hall
  let later : List (SnapshotStep ℕ) := [.dequeue] ++ List.replicate 8 (.task 2 0)
  let future : List (SnapshotStep ℕ) :=
    List.replicate 2 (.task 1 0) ++ visit 2000000002 [] ++ [.dequeue] ++
      List.replicate 8 (.task 2 1) ++ visit 3000000003 []
  have hpasses : passes (next (V := ℕ) 2) (fun _ _ => True) settle
      (fun m => ((m.ops 2).iterationSyncStates 2).isSome &&
        passes (next 2) (fun _ _ => True) settle
          (fun t => ((t.ops 2).iterationSyncStates 2).isNone &&
            passes (next 2) (fun _ _ => True) settle
              (fun u => ((u.ops 2).iterationSyncStates 2).isSome) t future) m later)
      {} (start 0 normal ++ [.receiveStop 1 stop, .stopMark 1] ++ remove 10 ++ [.dequeue] ++
        List.replicate 9 (.task 0 0) ++
        -- the first operation counts down in iteration 1 of the second, which is released
        start 2 normal ++ [.receiveStop 3 stop, .stopMark 3] ++ remove 20 ++ [.dequeue] ++
        List.replicate 6 (.task 1 0) ++ List.replicate 2 (.task 0 0) ++
        start 4 normal ++ visit 1000000001 []) = true := by
    decide +kernel
  obtain ⟨m, hrun, hcheck⟩ := exists_run_of_passes settle_eq hpasses
  obtain ⟨hsome, hpasses'⟩ := Bool.and_eq_true_iff.mp hcheck
  obtain ⟨t, hlater, hcheck'⟩ := exists_run_of_passes settle_eq hpasses'
  obtain ⟨hnone, hpasses''⟩ := Bool.and_eq_true_iff.mp hcheck'
  obtain ⟨u, hfuture, hback⟩ := exists_run_of_passes settle_eq hpasses''
  rw [Option.isNone_iff_eq_none] at hnone
  have hgone := ((hall _ m hrun 2).erased hsome hlater hnone).2 hfuture
  simp [hgone] at hback

end ContinuousSnapshotManager

end K2eg
