import K2eg.Model.SnapshotTimestamps
import K2eg.Verification.Snapshot.Framing
import K2eg.Verification.Snapshot.Ownership

/-! # The timestamps of an iteration

An iteration that is published by several tasks has the readings of all of them. They are equal
where the tasks begin within one millisecond, and an iteration of one task has one reading. -/

namespace K2eg

variable {V : Type*}

open Interleaving

/-! ## Numbering iterations -/

/-- The iteration of the task at an index, counted by the Headers up to it. -/
def iterationAt (tasks : List (SubmissionTask V)) (index : ℕ) : ℕ :=
  headers (tasks.take (index + 1))

theorem iterationAt_snoc {tasks : List (SubmissionTask V)} {index : ℕ}
    (h : index < tasks.length) (task : SubmissionTask V) :
    iterationAt (tasks ++ [task]) index = iterationAt tasks index := by
  rw [iterationAt, iterationAt, List.take_append_of_le_length h]

theorem iterationAt_advance {tasks : List (SubmissionTask V)} {i : ℕ} {task : SubmissionTask V}
    (h : tasks[i]? = some task) (phase : TaskPhase V) (index : ℕ) :
    iterationAt (tasks.set i (task.advance phase)) index = iterationAt tasks index := by
  rw [iterationAt, iterationAt, List.take_set]
  rcases Nat.lt_or_ge i (index + 1) with hi | hi
  · exact headers_advance (by rw [List.getElem?_take_of_lt hi, h]) phase
  · rw [List.set_eq_of_length_le]
    exact (List.length_take_le _ _).trans hi

/-- Where every task has a Header, each has an iteration of its own. -/
theorem iterationAt_of_headers {tasks : List (SubmissionTask V)} {index : ℕ}
    (h : ∀ task ∈ tasks, task.header = true) (hindex : index < tasks.length) :
    iterationAt tasks index = index + 1 := by
  rw [iterationAt, headers, List.countP_eq_length.mpr fun task hmem =>
    h task (List.mem_of_mem_take hmem), List.length_take]
  omega

namespace SubmissionTask

/-- The task has something to publish. -/
def publishes (task : SubmissionTask V) : Bool := task.header || task.carriesData || task.tail

@[simp] theorem advance_publishes (task : SubmissionTask V) (phase : TaskPhase V) :
    (task.advance phase).publishes = task.publishes := rfl

variable {op : SnapshotOpInfo} {sync : IterationSync} {task : SubmissionTask V}
  {out : TaskOutcome V}

/-- A task that pushes a message has begun. -/
theorem publishes_of_message (hpos : 1 ≤ task.iterationId) (hvalid : task.Valid)
    (hstep : task.step op sync = some out) (hmessage : out.message ≠ none) :
    1 < task.rank ∧ task.publishes = true := by
  refine ⟨?_, ?_⟩
  · by_contra hrank
    have hstarting : task.rank = 1 := by
      have := (step_rank hstep).1
      omega
    cases hphase : task.phase <;> simp [rank, hphase, TaskPhase.rank] at hstarting
    simp only [step, hphase] at hstep
    split at hstep <;> obtain rfl := Option.some.inj hstep <;> exact hmessage rfl
  · rw [publishes]
    cases messageEffect hpos hvalid hstep with
    | silent message => exact absurd message hmessage
    | header message isHeader => rw [isHeader]; rfl
    | data event message isOpen =>
        have hcarries : task.carriesData = true := by simp [dataOpen] at isOpen; exact isOpen.1
        simp [hcarries]
    | tail message drained =>
        have htail : task.tail = true := by
          simp only [SubmissionTask.drained, Bool.and_eq_true] at drained
          exact drained.1
        simp [htail]

end SubmissionTask

/-! ## Submissions of the NORMAL kind -/

/-- The tasks of an operation that is not buffered have a Header and a Tail. -/
def Whole (p : SnapshotPipeline V) : Prop :=
  ∀ o, (p.ops o).cmd.type ≠ .timedBuffered → ∀ task ∈ p.tasks o,
    task.header = true ∧ task.tail = true

theorem isOpen_of_tails {tasks : List (SubmissionTask V)}
    (h : ∀ task ∈ tasks, task.tail = true) : isOpen tasks = false := by
  rw [isOpen]
  cases hlast : tasks.getLast? with
  | none => rfl
  | some task => simp [h task (List.mem_of_getLast? hlast)]

namespace Whole

variable {threads : ℕ} {registers : SnapshotPipeline V → RepeatingSnapshotCommand → Prop}
  {schedules : SnapshotPipeline V → Prop} {p p' : SnapshotPipeline V}

theorem detach (h : Whole p) (hregistry : Registry p) {o k : ℕ}
    {submission : SnapshotSubmission V} {last : Bool} (hpending : Pending p o submission)
    (htype : (p.ops o).cmd.type ≠ .timedBuffered) :
    (SnapshotPipeline.detached k submission last).header = true ∧
      (SnapshotPipeline.detached k submission last).tail = true := by
  have hopens := hpending.opens
  have hsent := hpending.sent
  rw [isOpen_of_tails fun task hmem => (h o htype task hmem).2] at hopens
  rw [((hregistry.consistent o hpending.registered).resolve_left htype)] at hsent
  exact ⟨hopens, by simpa [SnapshotPipeline.detached, SubmissionTask.tail] using hsent⟩

/-- Tasks step, or one is detached; the commands stay. -/
theorem frame (h : Whole p) (hcmd : ∀ o, p'.tasks o ≠ [] → (p'.ops o).cmd = (p.ops o).cmd)
    (htasks : ∀ o, (p.ops o).cmd.type ≠ .timedBuffered → ∀ task ∈ p'.tasks o,
      (∃ before ∈ p.tasks o, task.header = before.header ∧ task.tail = before.tail) ∨
        (task.header = true ∧ task.tail = true)) : Whole p' := by
  intro o htype task hmem
  rw [hcmd o (List.ne_nil_of_mem hmem)] at htype
  rcases htasks o htype task hmem with ⟨before, hbefore, hheader, htail⟩ | hwhole
  · rw [hheader, htail]
    exact h o htype before hbefore
  · exact hwhole

theorem frame_task (h : Whole p) {o i : ℕ} {task : SubmissionTask V} {phase : TaskPhase V}
    (htask : (p.tasks o)[i]? = some task) (hcmd : ∀ o, (p'.ops o).cmd = (p.ops o).cmd)
    (htasks : p'.tasks = Function.update p.tasks o ((p.tasks o).set i (task.advance phase))) :
    Whole p' := by
  refine h.frame (fun other _ => hcmd other) fun other _ after hmem => .inl ?_
  rw [htasks] at hmem
  by_cases hother : other = o
  · subst hother
    rw [Function.update_self] at hmem
    rcases List.mem_or_eq_of_mem_set hmem with hmem | rfl
    · exact ⟨after, hmem, rfl, rfl⟩
    · exact ⟨task, List.mem_of_getElem? htask, rfl, rfl⟩
  · rw [Function.update_of_ne hother] at hmem
    exact ⟨after, hmem, rfl, rfl⟩

theorem frame_detached (h : Whole p) (hregistry : Registry p) {o k : ℕ}
    {submission : SnapshotSubmission V} {last : Bool} (hpending : Pending p o submission)
    (hcmd : ∀ o, (p'.ops o).cmd = (p.ops o).cmd)
    (htasks : p'.tasks = Function.update p.tasks o
      (p.tasks o ++ [SnapshotPipeline.detached k submission last])) : Whole p' := by
  refine h.frame (fun other _ => hcmd other) fun other htype after hmem => ?_
  rw [htasks] at hmem
  by_cases hother : other = o
  · subst hother
    rw [Function.update_self] at hmem
    rcases List.mem_append.mp hmem with hmem | hmem
    · exact .inl ⟨after, hmem, rfl, rfl⟩
    · obtain rfl := List.mem_singleton.mp hmem
      exact .inr (h.detach hregistry hpending htype)
  · rw [Function.update_of_ne hother] at hmem
    exact .inl ⟨after, hmem, rfl, rfl⟩

theorem moves (h : Whole p) (hregistry : Registry p)
    (hmoves : SnapshotPipeline.Moves threads registers schedules p p') : Whole p' := by
  have hheld := hregistry.held
  have hentries := hregistry.same_entries hmoves
  have hsame {p' : SnapshotPipeline V} (hcmd : ∀ o, p.tasks o ≠ [] → (p'.ops o).cmd = (p.ops o).cmd)
      (htasks : p'.tasks = p.tasks) : Whole p' :=
    h.frame (by rwa [htasks]) fun _ _ task hmem => .inl ⟨task, htasks ▸ hmem, rfl, rfl⟩
  rcases hentries with ⟨cmd, created, -, rfl⟩ | ⟨-, hcmd⟩
  · refine hsame (fun o hne => ?_) rfl
    have hlt : o < p.opCount := by
      by_contra hge
      exact hne (hregistry.unregistered o (Nat.le_of_not_lt hge))
    rw [SnapshotPipeline.register_ops, Function.update_of_ne (Nat.ne_of_lt hlt)]
  · have hcmd (o : ℕ) := (hcmd o).1
    cases hmoves with
    | trigger | stop | register | scan | remove | leave | await | sleep =>
        exact hsame (fun o _ => hcmd o) rfl
    | visit scanning found =>
        refine hsame (fun o _ => hcmd o) ?_
        rw [SnapshotPipeline.visit]
        dsimp only
        split <;> rfl
    | submit scheduling continues allowed =>
        rw [scheduling] at hheld
        exact h.frame_detached hregistry hheld.1 hcmd (p.submit_tasks ..)
    | acquire acquiring idle =>
        rw [acquiring] at hheld
        exact h.frame_detached hregistry hheld.1 hcmd (SnapshotPipeline.submit_tasks ..)
    | dequeue dequeues =>
        obtain ⟨o, i, task, pool, -, htask, rfl⟩ := SnapshotPipeline.dequeue_eq_some dequeues
        exact h.frame_task htask hcmd rfl
    | task steps =>
        obtain ⟨task, out, htask, -, rfl⟩ := SnapshotPipeline.stepTask_eq_some steps
        exact h.frame_task htask hcmd rfl

end Whole

/-! ## Steps that publish nothing -/

/-- What a step that is no task's does to the tasks. -/
inductive TaskChange (p p' : SnapshotPipeline V) : Prop where
  | same (tasks : p'.tasks = p.tasks)
  | detach (o : ℕ) (task : SubmissionTask V) (queued : task.rank = 0)
      (tasks : p'.tasks = Function.update p.tasks o (p.tasks o ++ [task]))
  | take (o i : ℕ) (task : SubmissionTask V) (found : (p.tasks o)[i]? = some task)
      (queued : task.rank = 0)
      (tasks : p'.tasks = Function.update p.tasks o ((p.tasks o).set i (task.advance .starting)))

theorem SnapshotPipeline.schedule_change (p : SnapshotPipeline V) (now : Int)
    (todo : List String) (o : ℕ) (submission : SnapshotSubmission V) (last : Bool) :
    (p.schedule now todo o submission last).log = p.log ∧
      TaskChange p (p.schedule now todo o submission last) := by
  rw [schedule]
  dsimp only
  split_ifs
  · exact ⟨rfl, .same rfl⟩
  · exact ⟨rfl, .detach o _ rfl (submit_tasks ..)⟩
  · exact ⟨rfl, .detach o _ rfl (submit_tasks ..)⟩

namespace ContinuousSnapshotManager

variable {threads : ℕ} {m t : ContinuousSnapshotManager V} {label : SnapshotStep V}

theorem next_change (hpooled : Pooled threads m.toSnapshotPipeline)
    (hnext : next threads m label = some t) (hlabel : ∀ o i, label ≠ .task o i) :
    t.log = m.log ∧ TaskChange m.toSnapshotPipeline t.toSnapshotPipeline := by
  have hsame {p : SnapshotPipeline V} (hp : p = m.toSnapshotPipeline) :
      p.log = m.log ∧ TaskChange m.toSnapshotPipeline p := by
    rw [hp]
    exact ⟨rfl, .same rfl⟩
  have hop {p : SnapshotPipeline V}
      (hp : p = m.toSnapshotPipeline ∨ ∃ o op, p = m.setOp o op) :
      p.log = m.log ∧ TaskChange m.toSnapshotPipeline p := by
    rcases hp with rfl | ⟨o, op, rfl⟩ <;> exact ⟨rfl, .same rfl⟩
  cases transition_of_next hnext with
  | @task o i => exact absurd rfl (hlabel o i)
  | receiveStart | receiveStop | receiveTrigger | startCreateQueue | startGetQueueMetadata
  | startReply | startRegister | stopReply | checkerScan | removeUri | leave | checkerSleep =>
      exact ⟨rfl, .same rfl⟩
  | startCheck => exact hsame (startCheck_pipeline ..)
  | startPrepare => exact hsame (startPrepare_pipeline ..)
  | startActivate => exact hsame (monitorChannel_pipeline ..)
  | stopMark =>
      obtain heq | ⟨o, heq⟩ := stopMark_pipeline ..
      · exact hop (.inl heq)
      · exact hop (.inr ⟨o, _, heq⟩)
  | trigger =>
      obtain heq | ⟨o, heq⟩ := triggerSnapshot_pipeline ..
      · exact hop (.inl heq)
      · exact hop (.inr ⟨o, _, heq⟩)
  | checkerVisit =>
      simp only [setPipeline, SnapshotPipeline.visit]
      split <;> exact ⟨rfl, .same rfl⟩
  | checkerSchedule => exact m.schedule_change ..
  | checkerAcquire => exact ⟨rfl, .detach _ _ rfl (SnapshotPipeline.submit_tasks ..)⟩
  | dequeue dequeues =>
      obtain ⟨o, i, task, pool, hpool, htask, rfl⟩ := SnapshotPipeline.dequeue_eq_some dequeues
      exact ⟨rfl, .take o i task htask (hpooled.rank_of_dequeue hpool htask) rfl⟩

end ContinuousSnapshotManager

/-! ## Readings of the clock -/

namespace StampedSnapshots

variable {threads : ℕ} {s t : StampedSnapshots V} {label : StampedStep V}

/-- The iteration of the task at an index of an operation. -/
def iterationOf (s : StampedSnapshots V) (o index : ℕ) : ℕ :=
  iterationAt (s.manager.tasks o) index

/-- The messages of an iteration carry one timestamp. -/
def SameTimestamps (s : StampedSnapshots V) : Prop :=
  ∀ o, ∀ first ∈ s.published o, ∀ second ∈ s.published o,
    s.iterationOf o first.index = s.iterationOf o second.index → first.snapTs = second.snapTs

/-- A task of a buffered snapshot that has something to publish begins in the millisecond in which
the other such tasks of its iteration have begun. -/
def SameReading (s : StampedSnapshots V) (label : StampedStep V) : Prop :=
  ∀ place ∈ s.begins label.step, (s.manager.ops place.1).cmd.type = .timedBuffered →
    ∀ task ∈ (s.manager.tasks place.1)[place.2]?, task.publishes = true →
      ∀ index < (s.manager.tasks place.1).length,
        ∀ other ∈ (s.manager.tasks place.1)[index]?, 1 < other.rank → other.publishes = true →
          s.iterationOf place.1 index = s.iterationOf place.1 place.2 →
            s.snapTs (place.1, index) = label.clock

instance (s : StampedSnapshots V) (label : StampedStep V) : Decidable (s.SameReading label) :=
  inferInstanceAs (Decidable (∀ place ∈ s.begins label.step, _ → ∀ task ∈ _, _ → ∀ index < _,
    ∀ other ∈ _, _ → _ → _ → _))

/-- The task has read the clock, and has something to publish. -/
def Begun (s : StampedSnapshots V) (o index : ℕ) : Prop :=
  ∃ task, (s.manager.tasks o)[index]? = some task ∧ 1 < task.rank ∧ task.publishes = true

theorem Begun.lt_length {o index : ℕ} (h : s.Begun o index) :
    index < (s.manager.tasks o).length := by
  obtain ⟨task, htask, -⟩ := h
  exact (List.getElem?_eq_some_iff.mp htask).1

/-- The messages carry the readings of their tasks, and the readings of an iteration are equal. -/
structure Stamped (s : StampedSnapshots V) : Prop where
  messages : ∀ o, ∀ message ∈ s.published o,
    s.Begun o message.index ∧ message.snapTs = s.snapTs (o, message.index)
  readings : ∀ o i j, s.Begun o i → s.Begun o j → s.iterationOf o i = s.iterationOf o j →
    s.snapTs (o, i) = s.snapTs (o, j)

namespace Stamped

theorem sameTimestamps (h : Stamped s) : s.SameTimestamps := by
  intro o first hfirst second hsecond heq
  obtain ⟨hbegun, hts⟩ := h.messages o first hfirst
  obtain ⟨hbegun', hts'⟩ := h.messages o second hsecond
  rw [hts, hts']
  exact h.readings o _ _ hbegun hbegun' heq

theorem init : Stamped ({} : StampedSnapshots V) where
  messages := by simp
  readings o i j hi := by
    obtain ⟨task, htask, -⟩ := hi
    cases htask

/-- No task begins. -/
theorem frame (h : Stamped s) (hbegun : ∀ o index, t.Begun o index ↔ s.Begun o index)
    (hiteration : ∀ o index, s.Begun o index → t.iterationOf o index = s.iterationOf o index)
    (hts : t.snapTs = s.snapTs)
    (hmessages : ∀ o, ∀ message ∈ t.published o, message ∈ s.published o ∨
      (s.Begun o message.index ∧ message.snapTs = s.snapTs (o, message.index))) : Stamped t := by
  refine ⟨fun o message hmem => ?_, fun o i j hi hj heq => ?_⟩
  · rw [hbegun, hts]
    rcases hmessages o message hmem with hold | hnew
    · exact h.messages o message hold
    · exact hnew
  · rw [hbegun] at hi hj
    rw [hiteration o i hi, hiteration o j hj] at heq
    rw [hts]
    exact h.readings o i j hi hj heq

end Stamped

/-! ### Steps of the other parties -/

theorem begun_of_change (hchange : TaskChange s.manager.toSnapshotPipeline
      t.manager.toSnapshotPipeline) (o index : ℕ) :
    (t.Begun o index ↔ s.Begun o index) ∧
      (s.Begun o index → t.iterationOf o index = s.iterationOf o index) := by
  cases hchange with
  | same tasks => simp [Begun, iterationOf, tasks]
  | detach other task queued tasks =>
      refine ⟨?_, fun hbegun => ?_⟩
      · rw [Begun, Begun, tasks, getElem?_update_snoc]
        split
        · rename_i hplace
          obtain ⟨rfl, rfl⟩ := hplace
          simp [queued]
        · rfl
      · rw [iterationOf, iterationOf, tasks]
        by_cases ho : o = other
        · subst ho
          rw [Function.update_self, iterationAt_snoc hbegun.lt_length]
        · rw [Function.update_of_ne ho]
  | take other i task found queued tasks =>
      refine ⟨?_, fun _ => ?_⟩
      · rw [Begun, Begun, tasks, getElem?_update_set found]
        split
        · rename_i hplace
          obtain ⟨rfl, rfl⟩ := hplace
          simp [found, queued, TaskPhase.rank]
        · rfl
      · rw [iterationOf, iterationOf, tasks]
        by_cases ho : o = other
        · subst ho
          rw [Function.update_self, iterationAt_advance found]
        · rw [Function.update_of_ne ho]

theorem next_eq_some (hnext : next threads s label = some t) :
    ContinuousSnapshotManager.next threads s.manager label.step = some t.manager ∧
      t.snapTs = s.readClock label ∧
      (∀ o i, label.step = .task o i → t.published =
        Function.update s.published o (s.published o ++ s.push t.manager o i)) ∧
      ((∀ o i, label.step ≠ .task o i) → t.published = s.published ∧ t.snapTs = s.snapTs) := by
  obtain ⟨manager, hmanager, rfl⟩ := Option.map_eq_some_iff.mp hnext
  refine ⟨hmanager, rfl, fun o i hlabel => by rw [hlabel], fun hlabel => ?_⟩
  have hbegins : s.begins label.step = none := by
    unfold begins
    split
    · exact absurd ‹_› (hlabel _ _)
    · rfl
  refine ⟨?_, by rw [readClock, hbegins]⟩
  dsimp only
  split
  · exact absurd ‹_› (hlabel _ _)
  · rfl

/-! ### Steps of a task -/

/-- What a step of a task does to the tasks and the messages. -/
theorem step_eq_some {o i : ℕ} (hlabel : label.step = .task o i)
    (hnext : next threads s label = some t) :
    ∃ task out, (s.manager.tasks o)[i]? = some task ∧
      task.step (s.manager.ops o) (s.manager.iterationSync (s.manager.nameOf o)) = some out ∧
      t.manager.tasks = Function.update s.manager.tasks o
        ((s.manager.tasks o).set i (task.advance out.phase)) ∧
      t.published = Function.update s.published o (s.published o ++
        (out.message.toList.map fun message => ⟨i, s.snapTs (o, i), message⟩)) ∧
      t.snapTs = if task.rank = 1 then Function.update s.snapTs (o, i) label.clock
        else s.snapTs := by
  obtain ⟨hmanager, hts, hpublished, -⟩ := next_eq_some hnext
  rw [hlabel] at hmanager
  obtain ⟨p', hstep, hp'⟩ := Option.map_eq_some_iff.mp hmanager
  obtain ⟨task, out, htask, hout, rfl⟩ := SnapshotPipeline.stepTask_eq_some hstep
  have htasks := congrArg (fun m : ContinuousSnapshotManager V => m.tasks) hp'
  have hlog := congrArg (fun m : ContinuousSnapshotManager V => m.log o) hp'
  refine ⟨task, out, htask, hout, htasks.symm, ?_, ?_⟩
  · have hpushed : t.manager.log o = s.manager.log o ++ out.message.toList := by
      rw [← hlog]
      simp [ContinuousSnapshotManager.setPipeline, SnapshotPipeline.applyOutcome]
    rw [hpublished o i hlabel, push, hpushed, List.drop_left]
  · rw [hts, readClock, hlabel, begins, htask, Option.bind_some]
    cases hphase : task.phase <;> simp [SubmissionTask.rank, hphase, TaskPhase.rank]

/-- A task that has begun goes on. -/
theorem Begun.of_step {o i : ℕ} {task : SubmissionTask V} {out : TaskOutcome V}
    (htask : (s.manager.tasks o)[i]? = some task) (hle : task.rank ≤ out.phase.rank)
    (htasks : t.manager.tasks = Function.update s.manager.tasks o
      ((s.manager.tasks o).set i (task.advance out.phase))) (other index : ℕ) :
    (t.Begun other index ↔ s.Begun other index ∨
      (other = o ∧ index = i ∧ 1 < out.phase.rank ∧ task.publishes = true)) ∧
      t.iterationOf other index = s.iterationOf other index := by
  refine ⟨?_, ?_⟩
  · rw [Begun, Begun, htasks, getElem?_update_set htask]
    split
    · rename_i hplace
      obtain ⟨rfl, rfl⟩ := hplace
      simp only [Option.some.injEq, exists_eq_left', htask, SubmissionTask.advance_rank,
        SubmissionTask.advance_publishes, true_and]
      refine ⟨.inr, ?_⟩
      rintro (⟨hlt, hpublishes⟩ | h)
      · exact ⟨by omega, hpublishes⟩
      · exact h
    · rename_i hplace
      refine ⟨.inl, ?_⟩
      rintro (h | ⟨ho, hindex, -⟩)
      · exact h
      · exact absurd ⟨ho, hindex⟩ hplace
  · rw [iterationOf, iterationOf, htasks]
    by_cases ho : other = o
    · subst ho
      rw [Function.update_self, iterationAt_advance htask]
    · rw [Function.update_of_ne ho]

/-- The facts about the pipeline that the readings rest on. -/
structure Sound (threads : ℕ) (p : SnapshotPipeline V) : Prop where
  registry : Registry p
  numbered : Numbered p
  pooled : Pooled threads p
  whole : Whole p

theorem Sound.next (h : Sound threads s.manager.toSnapshotPipeline)
    (hnext : next threads s label = some t) : Sound threads t.manager.toSnapshotPipeline :=
  ContinuousSnapshotManager.next_keeps (next_eq_some hnext).1
    (fun h hmoves => ⟨h.registry.moves hmoves, h.numbered.moves h.registry hmoves,
      h.pooled.moves hmoves, h.whole.moves h.registry hmoves⟩) h

namespace Stamped

/-- The task that begins reads what its iteration has read before. -/
theorem reading_of_begins (hwhole : Whole s.manager.toSnapshotPipeline)
    {o i : ℕ} {task : SubmissionTask V} (hlabel : label.step = .task o i)
    (hallowed : s.SameReading label) (htask : (s.manager.tasks o)[i]? = some task)
    (hrank : task.rank = 1) (hpublishes : task.publishes = true) {index : ℕ}
    (hbegun : s.Begun o index) (hiteration : s.iterationOf o index = s.iterationOf o i) :
    s.snapTs (o, index) = label.clock := by
  have hi : i < (s.manager.tasks o).length := (List.getElem?_eq_some_iff.mp htask).1
  have hindex := hbegun.lt_length
  obtain ⟨other, hother, hlt, hpublishes'⟩ := hbegun
  by_cases htype : (s.manager.ops o).cmd.type = .timedBuffered
  · have hbegins : s.begins label.step = some (o, i) := by
      rw [hlabel, begins, htask, Option.bind_some]
      cases hphase : task.phase <;>
        simp [SubmissionTask.rank, hphase, TaskPhase.rank] at hrank ⊢
    exact hallowed (o, i) hbegins htype task htask hpublishes index hindex other hother hlt
      hpublishes' hiteration
  · have hheaders : ∀ task ∈ s.manager.tasks o, task.header = true :=
      fun task hmem => (hwhole o htype task hmem).1
    rw [iterationOf, iterationOf, iterationAt_of_headers hheaders hindex,
      iterationAt_of_headers hheaders hi] at hiteration
    obtain rfl : index = i := by omega
    obtain rfl := Option.some.inj (htask.symm.trans hother)
    omega

theorem step_task (h : Stamped s) (hsound : Sound threads s.manager.toSnapshotPipeline)
    (hallowed : s.SameReading label) {o i : ℕ} (hlabel : label.step = .task o i)
    (hnext : next threads s label = some t) : Stamped t := by
  obtain ⟨task, out, htask, hout, htasks, hpublished, hts⟩ := step_eq_some hlabel hnext
  obtain ⟨hpos, -, hle, -⟩ := SubmissionTask.step_rank hout
  have hmem := List.mem_of_getElem? htask
  have hid : 1 ≤ task.iterationId :=
    Nat.one_le_iff_ne_zero.mpr ((hsound.numbered.framed o).identified_mem task hmem)
  have hvalid := hsound.registry.valid o task hmem
  have hmessage := SubmissionTask.publishes_of_message hid hvalid hout
  have hbegun := Begun.of_step (s := s) (t := t) htask hle htasks
  have hold (hrank : 1 < task.rank) (hpublishes : task.publishes = true) : s.Begun o i :=
    ⟨task, htask, hrank, hpublishes⟩
  by_cases hrank : task.rank = 1
  · -- the task reads the clock, and pushes nothing
    rw [if_pos hrank] at hts
    have hsilent : out.message = none := by
      by_contra hne
      have := (hmessage hne).1
      omega
    have hnot : ¬ s.Begun o i := by
      rintro ⟨other, hother, hlt, -⟩
      obtain rfl := Option.some.inj (htask.symm.trans hother)
      omega
    have hkept {other index : ℕ} (hother : s.Begun other index) :
        t.snapTs (other, index) = s.snapTs (other, index) := by
      rw [hts, Function.update_of_ne]
      rintro heq
      obtain ⟨rfl, rfl⟩ := Prod.mk.inj heq
      exact hnot hother
    refine ⟨fun other message hmessages => ?_, fun other a b ha hb heq => ?_⟩
    · have hbefore : message ∈ s.published other := by
        rw [hpublished, hsilent] at hmessages
        by_cases ho : other = o
        · subst ho
          simpa using hmessages
        · rwa [Function.update_of_ne ho] at hmessages
      obtain ⟨hstarted, hreading⟩ := h.messages other message hbefore
      exact ⟨(hbegun ..).1.mpr (.inl hstarted), hreading.trans (hkept hstarted).symm⟩
    · rw [(hbegun other a).2, (hbegun other b).2] at heq
      rcases (hbegun other a).1.mp ha with ha | ⟨ho, rfl, -, hpublishes⟩ <;>
        rcases (hbegun other b).1.mp hb with hb | ⟨ho', rfl, -, hpublishes'⟩
      · rw [hkept ha, hkept hb]
        exact h.readings other a b ha hb heq
      · subst ho'
        rw [hkept ha, hts, Function.update_self]
        exact reading_of_begins hsound.whole hlabel hallowed htask hrank hpublishes' ha heq
      · subst ho
        rw [hkept hb, hts, Function.update_self]
        exact (reading_of_begins hsound.whole hlabel hallowed htask hrank hpublishes hb
          heq.symm).symm
      · rfl
  · -- the task is behind its reading
    rw [if_neg hrank] at hts
    refine h.frame (fun other index => ?_) (fun other index _ => (hbegun other index).2) hts
      fun other message hmessages => ?_
    · rw [(hbegun other index).1]
      refine ⟨?_, .inl⟩
      rintro (hother | ⟨rfl, rfl, -, hpublishes⟩)
      · exact hother
      · exact hold (by omega) hpublishes
    · rw [hpublished] at hmessages
      by_cases ho : other = o
      · subst ho
        rw [Function.update_self] at hmessages
        rcases List.mem_append.mp hmessages with hbefore | hpushed
        · exact .inl hbefore
        · obtain ⟨pushed, hmem, rfl⟩ := List.mem_map.mp hpushed
          have hne : out.message ≠ none := by
            rintro hnone
            simp [hnone] at hmem
          exact .inr ⟨hold (hmessage hne).1 (hmessage hne).2, rfl⟩
      · rw [Function.update_of_ne ho] at hmessages
        exact .inl hmessages

theorem step (h : Stamped s) (hsound : Sound threads s.manager.toSnapshotPipeline)
    (hallowed : s.SameReading label) (hnext : next threads s label = some t) : Stamped t := by
  by_cases htask : ∃ o i, label.step = .task o i
  · obtain ⟨o, i, hlabel⟩ := htask
    exact h.step_task hsound hallowed hlabel hnext
  · have hlabel : ∀ o i, label.step ≠ .task o i := fun o i heq => htask ⟨o, i, heq⟩
    obtain ⟨hmanager, -, -, hquiet⟩ := next_eq_some hnext
    obtain ⟨hpublished, hts⟩ := hquiet hlabel
    obtain ⟨-, hchange⟩ := ContinuousSnapshotManager.next_change hsound.pooled hmanager hlabel
    have hbegun := begun_of_change hchange
    refine h.frame (fun o index => (hbegun o index).1) (fun o index => (hbegun o index).2) hts
      fun o message hmem => .inl ?_
    rwa [hpublished] at hmem

end Stamped

/-! ## Runs -/

/-- As long as the tasks of each split iteration begin in one millisecond, the messages of every
iteration carry one timestamp. -/
theorem sameTimestamps_of_run {labels : List (StampedStep V)}
    (h : Run (next threads) SameReading {} labels s) : s.SameTimestamps := by
  have hinv : Sound threads s.manager.toSnapshotPipeline ∧ Stamped s := by
    refine h.invariant (I := fun _ s => Sound threads s.manager.toSnapshotPipeline ∧ Stamped s)
      ⟨⟨.init, .init, .init, by simp [Whole]⟩, .init⟩ ?_
    rintro _ s label t ⟨hsound, hstamped⟩ hallowed hnext
    exact ⟨hsound.next hnext, hstamped.step hsound hallowed hnext⟩
  exact hinv.2.sameTimestamps

/-- Steps of which each finds the clock at the same time. -/
private def clockedAt (clock : Int) (steps : List (SnapshotStep ℕ)) : List (StampedStep ℕ) :=
  steps.map fun step => ⟨step, clock⟩

/-- The manager settled, the messages and readings of the first operation in tables. -/
private def settle (s : StampedSnapshots V) (k : StampedSnapshots V → Bool) : Bool :=
  SnapshotTrace.settle s.manager fun manager =>
    k {
      manager
      snapTs := tabulate s.snapTs [(0, 0), (0, 1)]
      published := tabulate s.published [0] }

private theorem settle_eq (s : StampedSnapshots V) (k : StampedSnapshots V → Bool) :
    settle s k = k s := by
  simp only [settle, SnapshotTrace.settle_eq, tabulate_eq]

open SnapshotTrace hiding settle settle_eq in
/-- Both tasks of an iteration begin in the millisecond 2500. -/
theorem sameTimestamps_of_run_buffered :
    ∃ labels s, Run (next (V := ℕ) 2) SameReading {} labels s ∧
      (s.published 0).map (fun message => (message.index, message.snapTs)) =
        [(0, 2500), (0, 2500), (1, 2500)] ∧ s.SameTimestamps := by
  have hpasses : passes (next (V := ℕ) 2) SameReading settle
      (fun s => decide ((s.published 0).map (fun message => (message.index, message.snapTs)) =
        [(0, 2500), (0, 2500), (1, 2500)])) {}
      (clockedAt 2500 (start 0 buffered ++ visit 1000000000 [event] ++ visit 2500000000 [] ++
        [.dequeue, .dequeue] ++ [.task 0 1] ++ List.replicate 8 (.task 0 0) ++
        List.replicate 4 (.task 0 1))) = true := by
    decide +kernel
  obtain ⟨s, hrun, hcheck⟩ := exists_run_of_passes settle_eq hpasses
  exact ⟨_, s, hrun, of_decide_eq_true hcheck, sameTimestamps_of_run hrun⟩

open SnapshotTrace hiding settle settle_eq in
/-- The Header and the Data of an iteration are published at 1000 ms, its Tail by a second task at
2500 ms. -/
theorem not_sameTimestamps_split :
    ¬ ∀ (labels : List (StampedStep ℕ)) (s : StampedSnapshots ℕ),
      AnyRun (next 2) {} labels s → s.SameTimestamps := by
  intro hall
  have hpasses : passes (next (V := ℕ) 2) (fun _ _ => True) settle
      (fun s => (s.published 0).any fun first => (s.published 0).any fun second =>
        decide (s.iterationOf 0 first.index = s.iterationOf 0 second.index) &&
          decide (first.snapTs = 1000 ∧ second.snapTs = 2500)) {}
      (clockedAt 1000 (start 0 buffered ++ visit 1000000000 [event] ++ [.dequeue] ++
          List.replicate 8 (.task 0 0)) ++
        clockedAt 2500 (visit 2500000000 [] ++ [.dequeue] ++ List.replicate 4 (.task 0 1))) =
      true := by
    decide +kernel
  obtain ⟨s, hrun, hcheck⟩ := exists_run_of_passes settle_eq hpasses
  simp only [List.any_eq_true, Bool.and_eq_true, decide_eq_true_eq] at hcheck
  obtain ⟨first, hfirst, second, hsecond, hiteration, hts, hts'⟩ := hcheck
  have hsame := hall _ s hrun 0 first hfirst second hsecond hiteration
  rw [hts, hts'] at hsame
  exact absurd hsame (by decide)

end StampedSnapshots

end K2eg
