import K2eg.Verification.Snapshot.References

/-! # The promise of a removal

The promise that a stop waits for is set behind the Tail of the last submission, and an operation
that has submissions has been in `snapshot_running_`. -/

namespace K2eg

variable {V : Type*}

namespace SubmissionTask

variable {op : SnapshotOpInfo} {sync : IterationSync} {task : SubmissionTask V}
  {out : TaskOutcome V}

/-- A task gets behind its Tail by publishing it, and sets the promise last. -/
theorem step_tail (hstep : task.step op sync = some out) :
    (9 ≤ out.phase.rank → out.phase.rank ≤ 12 → 9 ≤ task.rank ∧ task.rank ≤ 12 ∨
      out.message = some (op.publishTail task.iterationId)) ∧
    (out.op.removalSet = true → op.removalSet = true ∨ task.rank = 12) := by
  have hrank : task.rank = task.phase.rank := rfl
  cases hphase : task.phase <;> rw [hphase] at hrank <;> simp only [step, hphase] at hstep <;>
    rw [hrank]
  case queued | done => cases hstep
  case starting =>
    split at hstep <;> obtain rfl := Option.some.inj hstep
    · exact ⟨by simp [TaskPhase.rank], .inl⟩
    · simp only [fromHeader_rank]
      exact ⟨by split_ifs <;> simp, .inl⟩
  case waitingHeader | waitingDrain =>
    obtain ⟨-, heq⟩ := Option.ite_none_right_eq_some.mp hstep
    obtain rfl := Option.some.inj heq
    exact ⟨by simp [TaskPhase.rank], .inl⟩
  case publishingData events =>
    cases events <;> obtain rfl := Option.some.inj hstep <;>
      exact ⟨by simp [TaskPhase.rank], .inl⟩
  case completingHeader =>
    obtain rfl := Option.some.inj hstep
    simp only [fromData_rank]
    refine ⟨by split_ifs <;> simp, ?_⟩
    simp only [SnapshotOpInfo.completeHeaderGate]
    split <;> exact .inl
  case completingData =>
    obtain rfl := Option.some.inj hstep
    simp only [fromTail_rank]
    refine ⟨by split_ifs <;> simp, ?_⟩
    simp only [SnapshotOpInfo.dataCompleted]
    split <;> exact .inl
  case publishingTail =>
    obtain rfl := Option.some.inj hstep
    exact ⟨fun _ _ => .inr rfl, .inl⟩
  case finishing =>
    obtain rfl := Option.some.inj hstep
    refine ⟨?_, .inl⟩
    dsimp only
    split_ifs <;> simp [TaskPhase.rank]
  case settingPromise =>
    obtain rfl := Option.some.inj hstep
    exact ⟨by simp [TaskPhase.rank], fun _ => .inr rfl⟩
  all_goals
    obtain rfl := Option.some.inj hstep
    exact ⟨by simp [TaskPhase.rank], .inl⟩

/-- The tasks of a list are there when one of them goes on. -/
theorem mem_set_advance {tasks : List (SubmissionTask V)} {i : ℕ} (hi : tasks[i]? = some task)
    (phase : TaskPhase V) {other : SubmissionTask V} (hmem : other ∈ tasks) :
    ∃ other' ∈ tasks.set i (task.advance phase), other'.iterationId = other.iterationId ∧
      other'.lastSubmission = other.lastSubmission := by
  obtain ⟨j, hj⟩ := List.mem_iff_getElem?.1 hmem
  by_cases heq : j = i
  · subst heq
    obtain rfl := Option.some.inj (hj.symm.trans hi)
    have hlt := (List.getElem?_eq_some_iff.1 hi).1
    exact ⟨_, List.mem_set hlt _, rfl, rfl⟩
  · refine ⟨other, List.mem_iff_getElem?.2 ⟨j, ?_⟩, rfl, rfl⟩
    rw [List.getElem?_set_ne (Ne.symm heq), hj]

end SubmissionTask

namespace SnapshotPipeline

variable {threads : ℕ} {registers : SnapshotPipeline V → RepeatingSnapshotCommand → Prop}
  {schedules : SnapshotPipeline V → Prop} {p p' : SnapshotPipeline V} {o : ℕ}

/-- The Tail of an iteration has been published. -/
def TailPublished (log : List (PublishMessage (SnapshotMessage V))) (iterationId : ℕ) : Prop :=
  ∃ message ∈ log, ∃ error errorMessage snapshotName,
    message.payload = .completion error errorMessage snapshotName iterationId

theorem TailPublished.append {log : List (PublishMessage (SnapshotMessage V))} {k : ℕ}
    (h : TailPublished log k) (added : List (PublishMessage (SnapshotMessage V))) :
    TailPublished (log ++ added) k := by
  obtain ⟨message, hmem, hpayload⟩ := h
  exact ⟨message, List.mem_append_left _ hmem, hpayload⟩

/-- A task between its Tail and its promise has published the Tail, and so has the last submission
of an operation whose promise is set. -/
structure TailsFirst (p : SnapshotPipeline V) : Prop where
  published : ∀ o, ∀ task ∈ p.tasks o, 9 ≤ task.rank → task.rank ≤ 12 →
    TailPublished (p.log o) task.iterationId
  promised : ∀ o, (p.ops o).removalSet = true → ∃ task ∈ p.tasks o,
    task.lastSubmission = true ∧ TailPublished (p.log o) task.iterationId

theorem visit_tasks (p : SnapshotPipeline V) (now : Int) (todo : List String) (visited : ℕ)
    (events : List (MonitorEvent V)) : (p.visit now todo visited events).tasks = p.tasks := by
  rw [visit]
  dsimp only
  split <;> rfl

namespace TailsFirst

theorem init : TailsFirst ({} : SnapshotPipeline V) where
  published := by simp
  promised _ hset := by cases hset

/-- Tasks and messages stay. -/
theorem frame (h : TailsFirst p) (htasks : p'.tasks = p.tasks) (hlog : p'.log = p.log)
    (hset : ∀ o, (p'.ops o).removalSet = true → (p.ops o).removalSet = true) :
    TailsFirst p' := by
  constructor
  · rw [htasks, hlog]
    exact h.published
  · rw [htasks, hlog]
    exact fun o hpromised => h.promised o (hset o hpromised)

theorem frame_op (h : TailsFirst p) (o : ℕ) (op : SnapshotOpInfo)
    (hset : op.removalSet = true → (p.ops o).removalSet = true) : TailsFirst (p.setOp o op) := by
  refine h.frame rfl rfl fun other => ?_
  by_cases hother : other = o
  · subst hother
    rw [setOp_ops, Function.update_self]
    exact hset
  · rw [setOp_ops, Function.update_of_ne hother]
    exact id

/-- A task of an operation goes on, or is new. -/
theorem replace (h : TailsFirst p) (o : ℕ) (tasks : List (SubmissionTask V))
    (added : List (PublishMessage (SnapshotMessage V)))
    (htasks : p'.tasks = Function.update p.tasks o tasks)
    (hlog : p'.log = Function.update p.log o (p.log o ++ added))
    (hpublished : ∀ task ∈ tasks, 9 ≤ task.rank → task.rank ≤ 12 →
      TailPublished (p.log o ++ added) task.iterationId)
    (hkept : ∀ task ∈ p.tasks o, ∃ task' ∈ tasks, task'.iterationId = task.iterationId ∧
      task'.lastSubmission = task.lastSubmission)
    (hset : ∀ other, (p'.ops other).removalSet = true → (p.ops other).removalSet = true ∨
      other = o ∧ ∃ task ∈ tasks, task.lastSubmission = true ∧
        TailPublished (p.log o ++ added) task.iterationId) : TailsFirst p' := by
  constructor
  · intro other
    rw [htasks, hlog]
    by_cases hother : other = o
    · subst hother
      rw [Function.update_self, Function.update_self]
      exact hpublished
    · rw [Function.update_of_ne hother, Function.update_of_ne hother]
      exact h.published other
  · intro other hpromised
    rw [htasks, hlog]
    by_cases hother : other = o
    · subst hother
      rw [Function.update_self, Function.update_self]
      rcases hset other hpromised with hold | ⟨-, hnew⟩
      · obtain ⟨task, hmem, hlast, htail⟩ := h.promised other hold
        obtain ⟨task', hmem', hiteration, hlast'⟩ := hkept task hmem
        exact ⟨task', hmem', hlast'.trans hlast, hiteration ▸ htail.append added⟩
      · exact hnew
    · rw [Function.update_of_ne hother, Function.update_of_ne hother]
      rcases hset other hpromised with hold | ⟨heq, -⟩
      · exact h.promised other hold
      · exact absurd heq hother

theorem submit (h : TailsFirst p) (now : Int) (todo : List String) (o : ℕ)
    (submission : SnapshotSubmission V) (last : Bool) (k : ℕ) :
    TailsFirst (p.submit now todo o submission last k) := by
  refine h.replace o _ [] (submit_tasks ..) ?_ ?_ ?_ ?_
  · rw [List.append_nil, Function.update_eq_self]
    rfl
  · intro task hmem hge hle
    rw [List.append_nil]
    rcases List.mem_append.1 hmem with hold | hnew
    · exact h.published o task hold hge hle
    · rw [List.mem_singleton.1 hnew] at hge
      simp [SubmissionTask.rank, detached, TaskPhase.rank] at hge
  · exact fun task hmem => ⟨task, List.mem_append_left _ hmem, rfl, rfl⟩
  · intro other hset
    obtain ⟨gates, hops⟩ := p.submit_ops now todo o k submission last
    rw [hops] at hset
    refine .inl ?_
    by_cases hother : other = o
    · subst hother
      rwa [Function.update_self] at hset
    · rwa [Function.update_of_ne hother] at hset

theorem dequeue (h : TailsFirst p) (hdequeue : p.dequeue threads = some p') : TailsFirst p' := by
  obtain ⟨o, i, task, pool, -, htask, rfl⟩ := dequeue_eq_some hdequeue
  refine h.replace o ((p.tasks o).set i (task.advance .starting)) [] rfl ?_ ?_ ?_ fun _ => .inl
  · rw [List.append_nil, Function.update_eq_self]
    rfl
  · intro other hmem hge hle
    rw [List.append_nil]
    rcases List.mem_or_eq_of_mem_set hmem with hold | rfl
    · exact h.published o other hold hge hle
    · simp [TaskPhase.rank] at hge
  · exact fun other hmem => SubmissionTask.mem_set_advance htask _ hmem

theorem stepTask (h : TailsFirst p) {i : ℕ} (hvalid : ∀ task ∈ p.tasks o, task.Valid)
    (hstep : p.stepTask o i = some p') : TailsFirst p' := by
  obtain ⟨task, out, htask, hout, rfl⟩ := stepTask_eq_some hstep
  have hmem := List.mem_of_getElem? htask
  obtain ⟨htail, hpromise⟩ := SubmissionTask.step_tail hout
  refine h.replace o ((p.tasks o).set i (task.advance out.phase)) out.message.toList rfl rfl
    ?_ ?_ ?_
  · intro other hother hge hle
    rcases List.mem_or_eq_of_mem_set hother with hold | rfl
    · exact (h.published o other hold hge hle).append _
    · rcases htail hge hle with ⟨hge', hle'⟩ | hmessage
      · exact (h.published o task hmem hge' hle').append _
      · refine ⟨(p.ops o).publishTail task.iterationId, List.mem_append_right _ ?_, 0, "",
          (p.ops o).cmd.snapshotName, rfl⟩
        rw [hmessage]
        exact List.mem_singleton_self _
  · exact fun other hother => SubmissionTask.mem_set_advance htask _ hother
  · intro other hset
    by_cases hother : other = o
    · subst hother
      have hself : (p.applyOutcome other i task out).ops other = out.op := Function.update_self ..
      rw [hself] at hset
      rcases hpromise hset with hold | hrank
      · exact .inl hold
      · -- the task that sets the promise is the last one, and its Tail is published
        refine .inr ⟨rfl, task.advance out.phase, ?_, ?_, ?_⟩
        · exact List.mem_set (List.getElem?_eq_some_iff.1 htask).1 _
        · exact (hvalid task hmem).last_block (by omega)
        · exact (h.published other task hmem (by omega) (by omega)).append _
    · have hsame : (p.applyOutcome o i task out).ops other = p.ops other :=
        Function.update_of_ne hother ..
      rw [hsame] at hset
      exact .inl hset

theorem moves (h : TailsFirst p) (hregistry : Registry p)
    (hmoves : Moves threads registers schedules p p') : TailsFirst p' := by
  cases hmoves with
  | trigger | stop => exact h.frame_op _ _ id
  | register sleeping allowed =>
      refine h.frame rfl rfl fun other hset => ?_
      rw [register_ops] at hset
      by_cases hother : other = p.opCount
      · subst hother
        rw [Function.update_self] at hset
        cases hset
      · rwa [Function.update_of_ne hother] at hset
  | scan | remove | leave | await | sleep => exact h.frame rfl rfl fun _ => id
  | @visit now queueName todo o events scanning found =>
      obtain ⟨op, hsame, hops⟩ := SnapshotOpInfo.visit_ops now todo events
        (hregistry.consistent o (hregistry.registered_of_found found))
      have hop := h.frame_op o op fun hset => by rwa [hsame.removalSet] at hset
      refine hop.frame (visit_tasks ..) ?_ fun other hset => ?_
      · rw [visit]
        dsimp only
        split <;> rfl
      · rwa [hops] at hset
  | submit => exact h.submit ..
  | @acquire now todo o submission last =>
      have hentries : TailsFirst { p with
          iterationSync := Function.update p.iterationSync (p.nameOf o)
            (p.iterationSync (p.nameOf o)).reserve.2 } := h.frame rfl rfl fun _ => id
      exact hentries.submit ..
  | dequeue dequeues => exact h.dequeue dequeues
  | task steps => exact h.stepTask (hregistry.valid _) steps

end TailsFirst

/-! ## Operations that have been running -/

/-- The operation is in `snapshot_running_`, or has left it. -/
def Known (p : SnapshotPipeline V) (o : ℕ) : Prop :=
  Running p o ∨ p.checker.held = some o ∨ p.tasks o ≠ []

theorem Frame.running_iff (h : Frame p p') : Running p' o ↔ Running p o := by
  rw [Running, Running, h.running, h.queueName]

theorem known_of_parts (hrunning : ∀ o, Running p' o → Running p o)
    (hheld : ∀ o, p'.checker.held = some o → Known p o)
    (htasks : ∀ o, p'.tasks o ≠ [] → Known p o) (h : Known p' o) : Known p o := by
  rcases h with hrun | hholds | hne
  · exact .inl (hrunning o hrun)
  · exact hheld o hholds
  · exact htasks o hne

/-- Of the operations, their places and their tasks nothing is new. -/
theorem known_of_frame (h : Frame p p') (hheld : p'.checker.held = p.checker.held ∨
      p'.checker.held = none) (htasks : ∀ o, p'.tasks o ≠ [] → p.tasks o ≠ [])
    (hknown : Known p' o) : Known p o := by
  refine known_of_parts (fun _ => h.running_iff.1) (fun other hholds => ?_)
    (fun other hne => .inr (.inr (htasks other hne))) hknown
  rcases hheld with hsame | hnone
  · exact .inr (.inl (hsame ▸ hholds))
  · rw [hnone] at hholds
    cases hholds

theorem known_of_submit {now : Int} {todo : List String} {held : ℕ}
    {submission : SnapshotSubmission V} {last : Bool} {k : ℕ}
    (hheld : p.checker.held = some held)
    (hknown : Known (p.submit now todo held submission last k) o) : Known p o := by
  refine known_of_parts (fun _ => (submit_frame ..).running_iff.1) (fun _ hholds => ?_)
    (fun other hne => ?_) hknown
  · cases hholds
  · by_cases hother : other = held
    · exact .inr (.inl (hother ▸ hheld))
    · rw [submit_tasks, Function.update_of_ne hother] at hne
      exact .inr (.inr hne)

theorem visit_held {now : Int} {todo : List String} {visited : ℕ}
    {events : List (MonitorEvent V)}
    (h : (p.visit now todo visited events).checker.held = some o) : o = visited := by
  rw [visit] at h
  dsimp only at h
  split at h
  · simp only [setChecker] at h
    split at h <;> exact (Option.some.inj h).symm
  · cases h

theorem update_set_ne_nil {tasks : ℕ → List (SubmissionTask V)} {held i : ℕ}
    {task : SubmissionTask V} (other : ℕ)
    (h : Function.update tasks held ((tasks held).set i task) other ≠ []) : tasks other ≠ [] := by
  by_cases hother : other = held
  · subst hother
    rw [Function.update_self] at h
    simpa using h
  · rwa [Function.update_of_ne hother] at h

/-- An operation becomes known when it is registered. -/
theorem known_of_moves (hregistry : Registry p) (hmoves : Moves threads registers schedules p p') :
    p.opCount < p'.opCount ∨ p'.opCount = p.opCount ∧ ∀ o, Known p' o → Known p o := by
  cases hmoves with
  | @trigger o =>
      exact .inr ⟨rfl, fun _ => known_of_frame (frame_of_update rfl rfl rfl rfl rfl) (.inl rfl)
        fun _ => id⟩
  | @stop o =>
      exact .inr ⟨rfl, fun _ => known_of_frame (frame_of_update rfl rfl rfl rfl rfl) (.inl rfl)
        fun _ => id⟩
  | register => exact .inl (Nat.lt_succ_self _)
  | scan | sleep =>
      exact .inr ⟨rfl, fun _ => known_of_frame (setChecker_frame ..) (.inr rfl) fun _ => id⟩
  | @visit now queueName todo visited events scanning found =>
      have hidle : ¬CheckerRemoves p.checker := by rw [scanning]; exact id
      have hframe := (visit_frame hregistry now todo found hidle events).1
      refine .inr ⟨hframe.opCount, fun _ => known_of_parts (fun _ => hframe.running_iff.1)
        (fun other hholds => ?_) fun other hne => ?_⟩
      · rw [visit_held hholds]
        exact .inl (hregistry.running_of_found found).1
      · rw [visit_tasks] at hne
        exact .inr (.inr hne)
  | remove removing =>
      exact .inr ⟨rfl, fun _ => known_of_frame (setChecker_frame ..)
        (.inl (by rw [removing]; rfl)) fun _ => id⟩
  | leave removing =>
      refine .inr ⟨rfl, fun _ => known_of_parts (fun other hrunning => ?_)
        (fun other hholds => ?_) fun _ hne => .inr (.inr hne)⟩
      · exact (List.mem_filter.1 hrunning).1
      · refine .inr (.inl ?_)
        rw [removing]
        exact hholds
  | submit scheduling =>
      exact .inr ⟨rfl, fun _ => known_of_submit (by rw [scheduling]; rfl)⟩
  | await scheduling =>
      refine .inr ⟨rfl, fun _ => known_of_parts (fun _ => id) (fun other hholds => ?_)
        fun _ hne => .inr (.inr hne)⟩
      refine .inr (.inl ?_)
      rw [scheduling]
      exact hholds
  | @acquire now todo held submission last acquiring =>
      refine .inr ⟨rfl, fun o hknown => ?_⟩
      have hentries := known_of_submit (p := { p with
        iterationSync := Function.update p.iterationSync (p.nameOf held)
          (p.iterationSync (p.nameOf held)).reserve.2 }) (by rw [acquiring]; rfl) hknown
      exact hentries
  | dequeue dequeues =>
      have hframe := dequeue_frame dequeues
      obtain ⟨held, i, task, pool, -, -, rfl⟩ := dequeue_eq_some dequeues
      exact .inr ⟨rfl, fun _ => known_of_frame hframe.1 (.inl rfl) update_set_ne_nil⟩
  | task steps =>
      have hframe := stepTask_frame steps
      obtain ⟨task, out, -, -, rfl⟩ := stepTask_eq_some steps
      exact .inr ⟨rfl, fun _ => known_of_frame hframe.1 (.inl rfl) update_set_ne_nil⟩

end SnapshotPipeline

end K2eg
