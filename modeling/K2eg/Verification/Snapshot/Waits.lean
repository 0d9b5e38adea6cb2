import K2eg.Verification.Snapshot.Gates
import K2eg.Verification.Snapshot.Pool

/-! # What a waiting task waits for

A task with data waits for the Header task of its iteration, a Tail task for the tasks with data.
These were scheduled before it, so that a thread has taken them. -/

namespace K2eg

variable {V : Type*}

open SubmissionTask

/-- The task stands before a gate that is closed. -/
inductive SubmissionTask.Waits (op : SnapshotOpInfo) (task : SubmissionTask V) : Prop where
  | header (waiting : task.rank = 4) (closed : op.headerGateOpen task.iterationId = false)
  | drain (waiting : task.rank = 7) (pending : op.dataDrained task.iterationId = false)

/-- A task that runs and does not wait can step. -/
theorem SubmissionTask.step_isSome {op : SnapshotOpInfo} {task : SubmissionTask V}
    (hpos : 0 < task.rank) (hlt : task.rank < 15) (hgo : ¬task.Waits op) (sync : IterationSync) :
    (task.step op sync).isSome = true := by
  have hrank : task.rank = task.phase.rank := rfl
  cases hphase : task.phase <;> rw [hphase] at hrank <;> simp only [step, hphase]
  case queued => simp [hrank, TaskPhase.rank] at hpos
  case done => simp [hrank, TaskPhase.rank] at hlt
  case starting => split <;> rfl
  case publishingData events => cases events <;> rfl
  case waitingHeader =>
    cases hopen : op.headerGateOpen task.iterationId with
    | true => rfl
    | false => exact absurd (.header hrank hopen) hgo
  case waitingDrain =>
    cases hdrained : op.dataDrained task.iterationId with
    | true => rfl
    | false => exact absurd (.drain hrank hdrained) hgo
  all_goals rfl

/-- The first task holds the second back: its Header is to be published, or its data. -/
inductive SubmissionTask.HoldsBack (op : SnapshotOpInfo) (held holder : SubmissionTask V) :
    Prop where
  | header (waiting : held.rank = 4) (closed : op.headerGateOpen held.iterationId = false)
      (same : holder.iterationId = held.iterationId) (isHeader : holder.header = true)
      (incomplete : holder.headerCompleted = false)
  | data (waiting : held.rank = 7) (pending : op.dataDrained held.iterationId = false)
      (same : holder.iterationId = held.iterationId) (isPending : holder.dataPending = true)

section Holders

variable {threads : ℕ} {tasks : List (SubmissionTask V)} {op : SnapshotOpInfo}
  {task holder : SubmissionTask V} {i j : ℕ}

/-- A task that waits is held back by some task. -/
theorem exists_holder (hscheduled : Scheduled tasks) (hgated : Gated tasks op.iterationSyncStates)
    (hvalid : task.Valid) (hj : tasks[j]? = some task) (hwaits : task.Waits op) :
    ∃ (i : ℕ) (holder : SubmissionTask V), tasks[i]? = some holder ∧ HoldsBack op task holder := by
  have hmem := hscheduled.iteration_mem task (List.mem_of_getElem? hj)
  cases hwaits with
  | header waiting closed =>
      have hpending : task.dataPending = true := by
        simp [dataPending, waiting, hvalid.data_block (by omega)]
      have hdrained := hgated.drained_of_pending (tasksWith_pos dataPending hj hpending)
      have hnone : tasksWith headerCompleted tasks task.iterationId = 0 := by
        by_contra hne
        rw [SnapshotOpInfo.headerGateOpen, hgated.gate_eq_some hmem hdrained] at closed
        simp [Nat.pos_of_ne_zero hne] at closed
      have hheader := hscheduled.tally_header task.iterationId
      rw [if_pos hmem] at hheader
      obtain ⟨holder, hholder, hisHeader, hsame⟩ :=
        tally_pos.mp (Nat.lt_of_lt_of_eq Nat.one_pos hheader.symm)
      obtain ⟨i, hi⟩ := List.mem_iff_getElem?.mp hholder
      exact ⟨i, holder, hi,
        .header waiting closed hsame hisHeader (tally_eq_zero.mp hnone holder hholder hsame)⟩
  | drain waiting pending =>
      have hne : 0 < tasksWith dataPending tasks task.iterationId := by
        by_contra hzero
        have hgate := hgated.gate task.iterationId
        rw [SnapshotOpInfo.dataDrained] at pending
        split_ifs at hgate <;> rw [hgate] at pending <;> simp at pending
        omega
      obtain ⟨holder, hholder, hpending, hsame⟩ := tally_pos.mp hne
      obtain ⟨i, hi⟩ := List.mem_iff_getElem?.mp hholder
      exact ⟨i, holder, hi, .data waiting pending hsame hpending⟩

/-- The task that holds another back was scheduled before it, and a thread has taken it. -/
theorem SubmissionTask.HoldsBack.before (hscheduled : Scheduled tasks)
    (htaken : Taken threads tasks)
    (hvalid : task.Valid) (hj : tasks[j]? = some task) (hi : tasks[i]? = some holder)
    (hholds : HoldsBack op task holder) : i < j ∧ 0 < holder.rank ∧ holder.rank ≤ 6 := by
  have horder : i < j := by
    rcases Nat.lt_trichotomy i j with hlt | heq | hgt
    · exact hlt
    · subst heq
      obtain rfl := Option.some.inj (hi.symm.trans hj)
      cases hholds with
      | header waiting closed same isHeader incomplete =>
          simp [headerCompleted, isHeader, waiting] at incomplete
      | data waiting pending same isPending => simp [dataPending, waiting] at isPending
    · cases hholds with
      | header waiting closed same isHeader incomplete =>
          have := ((hscheduled.before hj hi hgt).2.2 same.symm).2
          rw [isHeader] at this
          cases this
      | data waiting pending same isPending =>
          have := ((hscheduled.before hj hi hgt).2.2 same.symm).1
          rw [hvalid.tail_block (by omega)] at this
          cases this
  cases hholds with
  | header waiting closed same isHeader incomplete =>
      have hrank : holder.rank ≤ 3 := by simpa [headerCompleted, isHeader] using incomplete
      exact ⟨horder, htaken.order horder hi hj (by omega), by omega⟩
  | data waiting pending same isPending =>
      have hrank : holder.carriesData = true ∧ holder.rank ≤ 6 := by
        simpa [dataPending] using isPending
      exact ⟨horder, htaken.order horder hi hj (by omega), hrank.2⟩

/-- Behind a task that waits stands one that runs and does not wait. -/
theorem exists_running (hscheduled : Scheduled tasks) (hgated : Gated tasks op.iterationSyncStates)
    (htaken : Taken threads tasks) (hvalid : ∀ task ∈ tasks, task.Valid)
    (hj : tasks[j]? = some task) (hpos : 0 < task.rank) (hlt : task.rank < 15) :
    ∃ (i : ℕ) (holder : SubmissionTask V), tasks[i]? = some holder ∧ 0 < holder.rank ∧
      holder.rank < 15 ∧ ¬holder.Waits op := by
  induction j using Nat.strong_induction_on generalizing task with
  | _ j ih =>
      by_cases hwaits : task.Waits op
      · have hvalid_task := hvalid task (List.mem_of_getElem? hj)
        obtain ⟨i, holder, hi, hholds⟩ := exists_holder hscheduled hgated hvalid_task hj hwaits
        obtain ⟨hij, hpos', hle⟩ := hholds.before hscheduled htaken hvalid_task hj hi
        exact ih i hij hi hpos' (by omega)
      · exact ⟨j, task, hj, hpos, hlt, hwaits⟩

end Holders

/-! ## Behind the gates

A Tail waits for the data of its iteration, and these for the Header. Submissions without events
wait for nothing, which only a single thread makes good. -/

/-- A Tail that is scheduled apart from its Header comes after data or a published Header, or on
the only thread. -/
def TailsCovered (threads : ℕ) (tasks : List (SubmissionTask V)) : Prop :=
  ∀ task ∈ tasks, task.tail = true → task.header = false →
    threads = 1 ∨ ∃ other ∈ tasks, other.iterationId = task.iterationId ∧
      (other.carriesData = true ∨ other.headerPublished = true)

/-- A submission with neither Header nor Tail has events, or there is one thread. -/
def MiddlesCovered (threads : ℕ) (tasks : List (SubmissionTask V)) : Prop :=
  ∀ task ∈ tasks, task.header = false → task.tail = false →
    threads = 1 ∨ task.carriesData = true

theorem SubmissionTask.headerPublished_of_completed {task : SubmissionTask V}
    (h : task.headerCompleted = true) : task.headerPublished = true := by
  simp only [headerCompleted, headerPublished, Bool.and_eq_true, decide_eq_true_eq] at h ⊢
  exact ⟨h.1, by omega⟩

section Drained

variable {threads : ℕ} {tasks : List (SubmissionTask V)} {gates : ℕ → Option IterationSyncState}
  {k : ℕ}

/-- On a single thread a task is behind all those that were scheduled before it. -/
theorem Taken.finished_of_drained (h : Taken 1 tasks) (hscheduled : Scheduled tasks)
    {tail task : SubmissionTask V} (htail : tail ∈ tasks) (hdrained : tail.drained = true)
    (hmem : task ∈ tasks) (hsame : task.iterationId = tail.iterationId) (hne : task ≠ tail) :
    task.rank = 15 := by
  obtain ⟨hisTail, hrank⟩ := Bool.and_eq_true_iff.mp hdrained
  obtain ⟨i, hi⟩ := List.mem_iff_getElem?.mp hmem
  obtain ⟨j, hj⟩ := List.mem_iff_getElem?.mp htail
  rcases Nat.lt_trichotomy i j with hlt | heq | hgt
  · exact h.single rfl hlt hi hj (Nat.zero_lt_of_lt (of_decide_eq_true hrank))
  · subst heq
    exact absurd (Option.some.inj (hi.symm.trans hj)) hne
  · have := ((hscheduled.before hj hi hgt).2.2 hsame.symm).1
    rw [hisTail] at this
    cases this

/-- When a Tail is behind `waitDataDrained`, the Header of its iteration is published. -/
theorem published_of_drained (hscheduled : Scheduled tasks) (hgated : Gated tasks gates)
    (htaken : Taken threads tasks) (hcovered : TailsCovered threads tasks)
    (hdrained : 0 < tasksWith drained tasks k) : 0 < tasksWith headerPublished tasks k := by
  obtain ⟨tail, hmem, htail, rfl⟩ := tally_pos.mp hdrained
  obtain ⟨hisTail, hrank⟩ := Bool.and_eq_true_iff.mp htail
  have hrank := of_decide_eq_true hrank
  cases hheader : tail.header with
  | true =>
      exact tally_pos.mpr ⟨tail, hmem, by simp [headerPublished, hheader]; omega, rfl⟩
  | false =>
      rcases hcovered tail hmem hisTail hheader with rfl | ⟨other, hother, hsame, hcarries | hpub⟩
      · have hone := hscheduled.tally_header tail.iterationId
        rw [if_pos (hscheduled.iteration_mem tail hmem)] at hone
        obtain ⟨first, hfirst, hisHeader, hsame⟩ :=
          tally_pos.mp (Nat.lt_of_lt_of_eq Nat.one_pos hone.symm)
        have hne : first ≠ tail := fun heq => by
          rw [heq, hheader] at hisHeader
          cases hisHeader
        have hfinished : 2 < first.rank := by
          rw [htaken.finished_of_drained hscheduled hmem htail hfirst hsame hne]
          decide
        exact tally_pos.mpr ⟨first, hfirst, by simp [headerPublished, hisHeader, hfinished], hsame⟩
      · -- the Tail has waited for the data, and these have waited for the Header
        have hpending := tally_eq_zero.mp (hgated.pending_of_drained _ hdrained) other hother hsame
        have hopen : other.dataOpen = true := by
          simp only [dataPending, hcarries, Bool.true_and, decide_eq_false_iff_not] at hpending
          simp only [dataOpen, hcarries, Bool.true_and, decide_eq_true_eq]
          omega
        have hcompleted := hgated.completed_of_open _ (tally_pos.mpr ⟨other, hother, hopen, hsame⟩)
        exact hcompleted.trans_le (tally_mono fun _ _ => headerPublished_of_completed)
      · exact tally_pos.mpr ⟨other, hother, hpub, hsame⟩

/-- Then every task of the iteration has started. -/
theorem started_of_drained (hscheduled : Scheduled tasks) (hgated : Gated tasks gates)
    (htaken : Taken threads tasks) (htails : TailsCovered threads tasks)
    (hmiddles : MiddlesCovered threads tasks) (hdrained : 0 < tasksWith drained tasks k)
    {task : SubmissionTask V} (hmem : task ∈ tasks) (hsame : task.iterationId = k) :
    1 < task.rank := by
  subst hsame
  have hpublished := published_of_drained hscheduled hgated htaken htails hdrained
  have hpending := hgated.pending_of_drained _ hdrained
  by_contra hrank
  cases hheader : task.header with
  | true =>
      -- the only Header of the iteration is published
      have hone : tasksWith SubmissionTask.header tasks task.iterationId ≤ 1 := by
        rw [tasksWith, hscheduled.tally_header]
        split <;> omega
      have : tasksWith headerPublished tasks task.iterationId = 0 :=
        tally_eq_zero_of_le_one hone (fun _ _ h => (Bool.and_eq_true_iff.mp h).1) hmem hheader
          (by simp [headerPublished]; omega)
      omega
  | false =>
      cases htail : task.tail with
      | true =>
          have hone : tasksWith SubmissionTask.tail tasks task.iterationId ≤ 1 := by
            rw [tasksWith, hscheduled.tally_tail]
            split <;> omega
          have : tasksWith drained tasks task.iterationId = 0 :=
            tally_eq_zero_of_le_one hone (fun _ _ h => (Bool.and_eq_true_iff.mp h).1) hmem htail
              (by simp [drained]; omega)
          omega
      | false =>
          rcases hmiddles task hmem hheader htail with rfl | hcarries
          · obtain ⟨tail, htail_mem, htail_drained, hsame⟩ := tally_pos.mp hdrained
            have hne : task ≠ tail := fun heq => by
              rw [← heq, drained, htail] at htail_drained
              cases htail_drained
            have := htaken.finished_of_drained hscheduled htail_mem htail_drained hmem
              hsame.symm hne
            omega
          · have := tally_eq_zero.mp hpending task hmem rfl
            simp [dataPending, hcarries] at this
            omega

end Drained

end K2eg
