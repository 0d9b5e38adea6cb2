import K2eg.Verification.Snapshot.Schedule

/-! # The gates of the iterations

The gates of an operation count its tasks: the header promise of an iteration is set when its
Header task has completed, and the pending data are its tasks before `dataCompleted`. -/

namespace K2eg

variable {V : Type*}

/-- The tasks of an iteration with a mark. -/
abbrev tasksWith (mark : SubmissionTask V → Bool) (tasks : List (SubmissionTask V)) (k : ℕ) : ℕ :=
  tally mark SubmissionTask.iterationId tasks k

open SubmissionTask

/-! ## The gates after an operation -/

namespace SnapshotOpInfo

variable (op : SnapshotOpInfo) (iterationId k : ℕ)

theorem completeHeaderGate_gate :
    (op.completeHeaderGate iterationId).iterationSyncStates k =
      if k = iterationId then (op.iterationSyncStates k).map fun state =>
        { state with headerPromise := state.headerPromise.map fun _ => true }
      else op.iterationSyncStates k := by
  rw [completeHeaderGate]
  by_cases hk : k = iterationId
  · subst hk
    cases hgate : op.iterationSyncStates k <;> simp [hgate, setGate]
  · split <;> simp [hk, setGate]

theorem dataCompleted_gate :
    (op.dataCompleted iterationId).iterationSyncStates k =
      if k = iterationId then (op.iterationSyncStates k).map fun state =>
        { state with dataPending := state.dataPending - 1 }
      else op.iterationSyncStates k := by
  rw [dataCompleted]
  by_cases hk : k = iterationId
  · subst hk
    cases hgate : op.iterationSyncStates k <;> simp [hgate, setGate]
  · split <;> simp [hk, setGate]

theorem clearGate_gate :
    (op.clearGate iterationId).iterationSyncStates k =
      if k = iterationId then none else op.iterationSyncStates k := by
  simp [clearGate, setGate, Function.update_apply]

theorem beginHeaderGate_gate :
    (op.beginHeaderGate iterationId).iterationSyncStates k =
      if k = iterationId then
        some { (op.iterationSyncStates k).getD {} with headerPromise := some false }
      else op.iterationSyncStates k := by
  by_cases hk : k = iterationId <;> simp [hk, beginHeaderGate, setGate]

theorem dataScheduled_gate :
    (op.dataScheduled iterationId).iterationSyncStates k =
      if k = iterationId then
        some { (op.iterationSyncStates k).getD {} with
          dataPending := ((op.iterationSyncStates k).getD {}).dataPending + 1 }
      else op.iterationSyncStates k := by
  by_cases hk : k = iterationId <;> simp [hk, dataScheduled, setGate]

end SnapshotOpInfo

/-! ## Steps -/

section Advance

variable {tasks : List (SubmissionTask V)} {task : SubmissionTask V} {i : ℕ} {phase : TaskPhase V}
  (mark : SubmissionTask V → Bool) (hi : tasks[i]? = some task)
include hi

theorem tasksWith_eq (h : mark (task.advance phase) = mark task) (k : ℕ) :
    tasksWith mark (tasks.set i (task.advance phase)) k = tasksWith mark tasks k :=
  tally_set_of_eq hi rfl h

theorem tasksWith_ne {k : ℕ} (hk : k ≠ task.iterationId) :
    tasksWith mark (tasks.set i (task.advance phase)) k = tasksWith mark tasks k :=
  tally_set_of_ne hi rfl hk

theorem tasksWith_add (hbefore : mark task = false) (hafter : mark (task.advance phase) = true) :
    tasksWith mark (tasks.set i (task.advance phase)) task.iterationId =
      tasksWith mark tasks task.iterationId + 1 :=
  tally_set_add hi rfl hbefore hafter

theorem tasksWith_sub (hbefore : mark task = true) (hafter : mark (task.advance phase) = false) :
    tasksWith mark (tasks.set i (task.advance phase)) task.iterationId + 1 =
      tasksWith mark tasks task.iterationId :=
  tally_set_sub hi rfl hbefore hafter

theorem tasksWith_pos (hmark : mark task = true) : 0 < tasksWith mark tasks task.iterationId :=
  tally_pos_of_getElem? hi hmark

end Advance

theorem tasksWith_snoc (mark : SubmissionTask V → Bool) (tasks : List (SubmissionTask V))
    (task : SubmissionTask V) (k : ℕ) :
    tasksWith mark (tasks ++ [task]) k =
      tasksWith mark tasks k + if mark task = true ∧ task.iterationId = k then 1 else 0 :=
  tally_append_singleton

theorem tasksWith_snoc_of_not {mark : SubmissionTask V → Bool} (tasks : List (SubmissionTask V))
    {task : SubmissionTask V} (h : mark task = false) (k : ℕ) :
    tasksWith mark (tasks ++ [task]) k = tasksWith mark tasks k := by
  rw [tasksWith_snoc, if_neg (by simp [h]), Nat.add_zero]

/-- The iteration of the next submission is not drained. -/
theorem Scheduled.undrained {tasks : List (SubmissionTask V)} {header : Bool}
    (h : Scheduled tasks) (hopens : header = !isOpen tasks) :
    tasksWith drained tasks (nextIteration tasks header) = 0 := by
  rw [nextIteration]
  cases header with
  | true => exact h.tally_eq_zero_of_lt (Nat.lt_succ_self _) _
  | false =>
      have hopen : isOpen tasks = true := by simpa using hopens
      have hle : tasksWith drained tasks (headers tasks) ≤
          tasksWith SubmissionTask.tail tasks (headers tasks) :=
        tally_mono fun task _ hdrained => (Bool.and_eq_true_iff.mp hdrained).1
      rw [tasksWith, tasksWith, h.tally_tail_of_isOpen hopen] at hle
      exact Nat.le_zero.mp hle

/-! ## Gates and tasks -/

/-- The gates agree with the tasks: the iterations that have begun and are not drained have one. -/
structure GatedBy (begun : ℕ → Prop) [DecidablePred begun] (tasks : List (SubmissionTask V))
    (gates : ℕ → Option IterationSyncState) : Prop where
  gate : ∀ k, gates k =
    if begun k ∧ tasksWith drained tasks k = 0 then
      some ⟨some (decide (0 < tasksWith headerCompleted tasks k)), tasksWith dataPending tasks k⟩
    else none
  pending_of_drained : ∀ k, 0 < tasksWith drained tasks k → tasksWith dataPending tasks k = 0
  completed_of_open : ∀ k, 0 < tasksWith dataOpen tasks k → 0 < tasksWith headerCompleted tasks k

namespace GatedBy

variable {begun begun' : ℕ → Prop} [DecidablePred begun] [DecidablePred begun']
  {tasks : List (SubmissionTask V)} {task : SubmissionTask V} {i : ℕ}
  {op : SnapshotOpInfo} {sync : IterationSync} {out : TaskOutcome V}

theorem congr {gates : ℕ → Option IterationSyncState} (h : GatedBy begun tasks gates)
    (hbegun : ∀ k, begun k ↔ begun' k) : GatedBy begun' tasks gates := by
  refine ⟨fun k => ?_, h.pending_of_drained, h.completed_of_open⟩
  rw [h.gate]
  exact if_congr (and_congr_left' (hbegun k)) rfl rfl

/-- The gate of an iteration that is not drained. -/
theorem gate_eq_some (h : GatedBy begun tasks op.iterationSyncStates) {k : ℕ} (hk : begun k)
    (hdrained : tasksWith drained tasks k = 0) :
    op.iterationSyncStates k =
      some ⟨some (decide (0 < tasksWith headerCompleted tasks k)),
        tasksWith dataPending tasks k⟩ := by
  rw [h.gate, if_pos ⟨hk, hdrained⟩]

theorem drained_of_pending {gates : ℕ → Option IterationSyncState} (h : GatedBy begun tasks gates)
    {k : ℕ} (hpending : 0 < tasksWith dataPending tasks k) : tasksWith drained tasks k = 0 := by
  have := h.pending_of_drained k
  omega

/-- A drained iteration has no pending data, whether or not its gate is cleared. -/
theorem pending_eq_zero (h : GatedBy begun tasks op.iterationSyncStates) {k : ℕ} (hk : begun k)
    (hdrained : op.dataDrained k = true) : tasksWith dataPending tasks k = 0 := by
  by_cases hzero : tasksWith drained tasks k = 0
  · rw [SnapshotOpInfo.dataDrained, h.gate_eq_some hk hzero] at hdrained
    simpa using hdrained
  · exact h.pending_of_drained k (by omega)

theorem completed_pos (h : GatedBy begun tasks op.iterationSyncStates) {k : ℕ} (hk : begun k)
    (hpending : 0 < tasksWith dataPending tasks k) (hopen : op.headerGateOpen k = true) :
    0 < tasksWith headerCompleted tasks k := by
  rw [SnapshotOpInfo.headerGateOpen, h.gate_eq_some hk (h.drained_of_pending hpending)] at hopen
  exact Nat.pos_of_ne_zero (by simpa using hopen)

/-- A task may go on as long as it passes no mark. -/
theorem of_marks {gates : ℕ → Option IterationSyncState} {phase : TaskPhase V}
    (h : GatedBy begun tasks gates) (hi : tasks[i]? = some task)
    (marks : (task.advance phase).gateMarks = task.gateMarks) :
    GatedBy begun (tasks.set i (task.advance phase)) gates := by
  have hcompleted := tasksWith_eq headerCompleted hi (congrArg (·.headerCompleted) marks)
  have hopen := tasksWith_eq dataOpen hi (congrArg (·.dataOpen) marks)
  have hpending := tasksWith_eq dataPending hi (congrArg (·.dataPending) marks)
  have hdrained := tasksWith_eq drained hi (congrArg (·.drained) marks)
  refine ⟨fun k => ?_, fun k => ?_, fun k => ?_⟩
  · rw [hcompleted, hpending, hdrained, h.gate]
  · rw [hpending, hdrained]
    exact h.pending_of_drained k
  · rw [hcompleted, hopen]
    exact h.completed_of_open k

theorem step (h : GatedBy begun tasks op.iterationSyncStates) (hpos : 1 ≤ task.iterationId)
    (hmem : begun task.iterationId) (hvalid : task.Valid) (hi : tasks[i]? = some task)
    (hstep : task.step op sync = some out) :
    GatedBy begun (tasks.set i (task.advance out.phase)) out.op.iterationSyncStates := by
  cases gateEffect hpos hvalid hstep with
  | silent gates marks => exact gates ▸ h.of_marks hi marks
  | completeHeader gates before marks =>
      have hcompleted := tasksWith_add headerCompleted hi before
        (congrArg (·.headerCompleted) marks)
      have hopen := tasksWith_eq dataOpen hi (congrArg (·.dataOpen) marks)
      have hpending := tasksWith_eq dataPending hi (congrArg (·.dataPending) marks)
      have hdrained := tasksWith_eq drained hi (congrArg (·.drained) marks)
      refine ⟨fun k => ?_, fun k => ?_, fun k hk => ?_⟩
      · rw [gates, SnapshotOpInfo.completeHeaderGate_gate, hpending, hdrained, h.gate]
        by_cases hk : k = task.iterationId
        · subst hk
          rw [if_pos rfl, hcompleted]
          split_ifs <;> simp
        · rw [if_neg hk, tasksWith_ne headerCompleted hi hk]
      · rw [hpending, hdrained]
        exact h.pending_of_drained k
      · rw [hopen] at hk
        have := h.completed_of_open k hk
        by_cases hk' : k = task.iterationId
        · subst hk'
          omega
        · rwa [tasksWith_ne headerCompleted hi hk']
  | openData gates isOpen pending marks =>
      have hcompleted := tasksWith_eq headerCompleted hi (congrArg (·.headerCompleted) marks)
      have hpending := tasksWith_eq dataPending hi (congrArg (·.dataPending) marks)
      have hdrained := tasksWith_eq drained hi (congrArg (·.drained) marks)
      refine ⟨fun k => ?_, fun k => ?_, fun k hk => ?_⟩
      · rw [gates, hcompleted, hpending, hdrained, h.gate]
      · rw [hpending, hdrained]
        exact h.pending_of_drained k
      · rw [hcompleted]
        by_cases hk' : k = task.iterationId
        · subst hk'
          exact h.completed_pos hmem (tasksWith_pos dataPending hi pending) isOpen
        · rw [tasksWith_ne dataOpen hi hk'] at hk
          exact h.completed_of_open k hk
  | completeData gates before marks =>
      have hcompleted := tasksWith_eq headerCompleted hi (congrArg (·.headerCompleted) marks)
      have hopen := tasksWith_eq dataOpen hi (congrArg (·.dataOpen) marks)
      have hpending := tasksWith_sub dataPending hi before (congrArg (·.dataPending) marks)
      have hdrained := tasksWith_eq drained hi (congrArg (·.drained) marks)
      refine ⟨fun k => ?_, fun k hk => ?_, fun k => ?_⟩
      · rw [gates, SnapshotOpInfo.dataCompleted_gate, hcompleted, hdrained, h.gate]
        by_cases hk : k = task.iterationId
        · subst hk
          rw [if_pos rfl, ← hpending]
          split_ifs <;> simp
        · rw [if_neg hk, tasksWith_ne dataPending hi hk]
      · rw [hdrained] at hk
        have := h.pending_of_drained k hk
        by_cases hk' : k = task.iterationId
        · subst hk'
          omega
        · rwa [tasksWith_ne dataPending hi hk']
      · rw [hcompleted, hopen]
        exact h.completed_of_open k
  | drain gates isDrained marks =>
      have hcompleted := tasksWith_eq headerCompleted hi (congrArg (·.headerCompleted) marks)
      have hopen := tasksWith_eq dataOpen hi (congrArg (·.dataOpen) marks)
      have hpending := tasksWith_eq dataPending hi (congrArg (·.dataPending) marks)
      have hafter : (task.advance out.phase).drained = true := congrArg (·.drained) marks
      have hdrained : 0 < tasksWith drained (tasks.set i (task.advance out.phase))
          task.iterationId :=
        tally_pos.mpr ⟨_, List.mem_set (List.getElem?_eq_some_iff.mp hi).1 _, hafter, rfl⟩
      refine ⟨fun k => ?_, fun k hk => ?_, fun k => ?_⟩
      · rw [gates, SnapshotOpInfo.clearGate_gate, hcompleted, hpending]
        by_cases hk : k = task.iterationId
        · subst hk
          rw [if_pos rfl, if_neg (by omega)]
        · rw [if_neg hk, tasksWith_ne drained hi hk, h.gate]
      · rw [hpending]
        by_cases hk' : k = task.iterationId
        · subst hk'
          exact h.pending_eq_zero hmem isDrained
        · rw [tasksWith_ne drained hi hk'] at hk
          exact h.pending_of_drained k hk
      · rw [hcompleted, hopen]
        exact h.completed_of_open k

/-- The beginning of an iteration that has no tasks. -/
theorem begin (h : GatedBy begun tasks op.iterationSyncStates) {k : ℕ}
    (hnone : ∀ mark, tasksWith mark tasks k = 0) (hgate : op.iterationSyncStates k = none) :
    GatedBy (fun other => begun other ∨ other = k) tasks
      (op.beginHeaderGate k).iterationSyncStates := by
  refine ⟨fun other => ?_, h.pending_of_drained, h.completed_of_open⟩
  rw [SnapshotOpInfo.beginHeaderGate_gate]
  by_cases hk : other = k
  · subst hk
    rw [if_pos rfl, if_pos ⟨.inr rfl, hnone _⟩, hgate]
    simp [hnone]
  · rw [if_neg hk, h.gate]
    exact if_congr (and_congr_left' (by simp [hk])) rfl rfl

/-- The scheduling of a task in an iteration that has begun and is not drained. -/
theorem schedule (h : GatedBy begun tasks op.iterationSyncStates) (hmem : begun task.iterationId)
    (hundrained : tasksWith drained tasks task.iterationId = 0) (hqueued : task.rank = 0) :
    GatedBy begun (tasks ++ [task])
      (if task.carriesData then op.dataScheduled task.iterationId else op).iterationSyncStates := by
  have hcompleted := tasksWith_snoc_of_not tasks
    (show task.headerCompleted = false by simp [headerCompleted, hqueued])
  have hopen := tasksWith_snoc_of_not tasks
    (show task.dataOpen = false by simp [dataOpen, hqueued])
  have hdrained := tasksWith_snoc_of_not tasks
    (show task.drained = false by simp [drained, hqueued])
  have hpending (k : ℕ) : tasksWith dataPending (tasks ++ [task]) k =
      tasksWith dataPending tasks k +
        if task.carriesData = true ∧ task.iterationId = k then 1 else 0 := by
    rw [tasksWith_snoc]
    simp [dataPending, hqueued]
  refine ⟨fun k => ?_, fun k hk => ?_, fun k => ?_⟩
  · rw [hcompleted, hdrained, hpending]
    split
    · rename_i hcarries
      rw [SnapshotOpInfo.dataScheduled_gate, h.gate]
      by_cases hk : k = task.iterationId
      · subst hk
        rw [if_pos rfl, if_pos ⟨hmem, hundrained⟩, if_pos ⟨hmem, hundrained⟩]
        simp [hcarries]
      · have hother : ¬(task.carriesData = true ∧ task.iterationId = k) := fun h => hk h.2.symm
        rw [if_neg hk, if_neg hother, Nat.add_zero]
    · rename_i hcarries
      have hnot : ¬(task.carriesData = true ∧ task.iterationId = k) := fun h => hcarries h.1
      rw [h.gate, if_neg hnot, Nat.add_zero]
  · rw [hdrained] at hk
    rw [hpending, h.pending_of_drained k hk, if_neg]
    rintro ⟨-, rfl⟩
    omega
  · rw [hcompleted, hopen]
    exact h.completed_of_open k

end GatedBy

/-! ## The schedule of the checker -/

/-- The gates agree with the tasks. -/
structure Gated (tasks : List (SubmissionTask V)) (gates : ℕ → Option IterationSyncState) :
    Prop where
  gate : ∀ k, gates k =
    if 1 ≤ k ∧ k ≤ headers tasks ∧ tasksWith drained tasks k = 0 then
      some ⟨some (decide (0 < tasksWith headerCompleted tasks k)), tasksWith dataPending tasks k⟩
    else none
  pending_of_drained : ∀ k, 0 < tasksWith drained tasks k → tasksWith dataPending tasks k = 0
  completed_of_open : ∀ k, 0 < tasksWith dataOpen tasks k → 0 < tasksWith headerCompleted tasks k

namespace Gated

variable {tasks : List (SubmissionTask V)} {task : SubmissionTask V} {i : ℕ}
  {op begun : SnapshotOpInfo} {sync : IterationSync} {out : TaskOutcome V}

theorem nil : Gated ([] : List (SubmissionTask V)) fun _ => none where
  gate k := by rw [headers_nil, if_neg (by omega)]
  pending_of_drained := by simp
  completed_of_open := by simp

/-- The iterations that have begun are those up to the last Header. -/
theorem gatedBy_iff {gates : ℕ → Option IterationSyncState} :
    Gated tasks gates ↔ GatedBy (fun k => 1 ≤ k ∧ k ≤ headers tasks) tasks gates := by
  constructor
  · intro h
    refine ⟨fun k => ?_, h.pending_of_drained, h.completed_of_open⟩
    rw [h.gate]
    exact if_congr and_assoc.symm rfl rfl
  · intro h
    refine ⟨fun k => ?_, h.pending_of_drained, h.completed_of_open⟩
    rw [h.gate]
    exact if_congr and_assoc rfl rfl

/-- The gate of an iteration that is not drained. -/
theorem gate_eq_some (h : Gated tasks op.iterationSyncStates) {k : ℕ}
    (hk : 1 ≤ k ∧ k ≤ headers tasks) (hdrained : tasksWith drained tasks k = 0) :
    op.iterationSyncStates k =
      some ⟨some (decide (0 < tasksWith headerCompleted tasks k)),
        tasksWith dataPending tasks k⟩ :=
  (gatedBy_iff.1 h).gate_eq_some hk hdrained

theorem drained_of_pending {gates : ℕ → Option IterationSyncState} (h : Gated tasks gates) {k : ℕ}
    (hpending : 0 < tasksWith dataPending tasks k) : tasksWith drained tasks k = 0 :=
  (gatedBy_iff.1 h).drained_of_pending hpending

/-- A task may go on as long as it passes no mark. -/
theorem of_marks {gates : ℕ → Option IterationSyncState} {phase : TaskPhase V}
    (h : Gated tasks gates) (hi : tasks[i]? = some task)
    (marks : (task.advance phase).gateMarks = task.gateMarks) :
    Gated (tasks.set i (task.advance phase)) gates := by
  rw [gatedBy_iff, headers_advance hi]
  exact (gatedBy_iff.1 h).of_marks hi marks

theorem step (h : Gated tasks op.iterationSyncStates) (hscheduled : Scheduled tasks)
    (hvalid : task.Valid) (hi : tasks[i]? = some task) (hstep : task.step op sync = some out) :
    Gated (tasks.set i (task.advance out.phase)) out.op.iterationSyncStates := by
  have hmem := hscheduled.iteration_mem task (List.mem_of_getElem? hi)
  rw [gatedBy_iff, headers_advance hi]
  exact (gatedBy_iff.1 h).step hmem.1 hmem hvalid hi hstep

/-! ## Scheduling a task -/

/-- The gates once a Header has opened its iteration. -/
theorem begin_gate (h : Gated tasks op.iterationSyncStates) (hscheduled : Scheduled tasks)
    (hiteration : task.iterationId = nextIteration tasks task.header)
    (hbegun : begun = if task.header then op.beginHeaderGate task.iterationId else op) :
    GatedBy (fun k => 1 ≤ k ∧ k ≤ headers (tasks ++ [task])) tasks begun.iterationSyncStates := by
  rw [headers_snoc]
  cases hheader : task.header with
  | false =>
      rw [hheader] at hbegun
      rw [hbegun]
      exact gatedBy_iff.1 h
  | true =>
      rw [hheader, nextIteration, if_pos rfl] at hiteration
      rw [hheader, if_pos rfl] at hbegun
      have hnew := hscheduled.tally_eq_zero_of_lt (k := task.iterationId) (by omega)
      have hgate : op.iterationSyncStates task.iterationId = none := by
        rw [h.gate, if_neg (by omega)]
      rw [hbegun]
      refine ((gatedBy_iff.1 h).begin hnew hgate).congr fun k => ?_
      rw [Bool.toNat_true]
      omega

theorem schedule (h : Gated tasks op.iterationSyncStates) (hscheduled : Scheduled (tasks ++ [task]))
    (hqueued : task.rank = 0)
    (hbegun : begun = if task.header then op.beginHeaderGate task.iterationId else op) :
    Gated (tasks ++ [task])
      (if task.carriesData then begun.dataScheduled task.iterationId
        else begun).iterationSyncStates := by
  obtain ⟨hearlier, -, hopens, hiteration, -⟩ := hscheduled.of_snoc
  have hundrained : tasksWith drained tasks task.iterationId = 0 :=
    hiteration ▸ hearlier.undrained hopens
  exact gatedBy_iff.2 ((h.begin_gate hearlier hiteration hbegun).schedule
    (hscheduled.iteration_mem task (by simp)) hundrained hqueued)

end Gated

end K2eg
