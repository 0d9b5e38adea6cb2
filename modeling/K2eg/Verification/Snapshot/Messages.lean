import K2eg.Verification.Snapshot.Ownership
import K2eg.Verification.Snapshot.Waits

/-! # The messages of an iteration

A consumer receives of every iteration one Header, then Data, then one Tail, as long as no Tail is
published past a Header that nobody waits for. -/

namespace K2eg

variable {V : Type*}

open Interleaving SubmissionTask

/-- The messages of one iteration, in the order in which they were pushed. -/
def messagesOf (log : List (PublishMessage (SnapshotMessage V))) (k : ℕ) :
    List (PublishMessage (SnapshotMessage V)) :=
  log.filter fun message => message.payload.iterationId == k

/-- A Header, Data for the events, and the Tail if it is published. -/
def iterationMessages (op : SnapshotOpInfo) (k : ℕ) (events : List (MonitorEvent V)) (tail : Bool) :
    List (PublishMessage (SnapshotMessage V)) :=
  op.publishHeader k :: events.map (op.publishData k) ++ if tail then [op.publishTail k] else []

/-- An iteration that is under way has its messages in order, and one with a Tail whose tasks are
finished has all of them. -/
structure MessagesInOrder (p : SnapshotPipeline V) : Prop where
  ordered : ∀ o k, messagesOf (p.log o) k = [] ∨
    ∃ events tail, messagesOf (p.log o) k = iterationMessages (p.ops o) k events tail
  complete : ∀ {o k}, (∃ task ∈ p.tasks o, task.iterationId = k ∧ task.tail = true) →
    (∀ task ∈ p.tasks o, task.iterationId = k → task.finished = true) →
      ∃ events, messagesOf (p.log o) k = iterationMessages (p.ops o) k events true

section Messages

variable (log : List (PublishMessage (SnapshotMessage V)))
  (message : PublishMessage (SnapshotMessage V))

theorem messagesOf_snoc (k : ℕ) : messagesOf (log ++ [message]) k =
    messagesOf log k ++ if message.payload.iterationId = k then [message] else [] := by
  rw [messagesOf, List.filter_append, messagesOf]
  by_cases hk : message.payload.iterationId = k <;> simp [hk]

theorem messagesOf_snoc_self : messagesOf (log ++ [message]) message.payload.iterationId =
    messagesOf log message.payload.iterationId ++ [message] := by
  rw [messagesOf_snoc, if_pos rfl]

theorem messagesOf_snoc_of_ne {k : ℕ} (hk : k ≠ message.payload.iterationId) :
    messagesOf (log ++ [message]) k = messagesOf log k := by
  rw [messagesOf_snoc, if_neg hk.symm, List.append_nil]

end Messages

theorem iterationMessages_congr {op op' : SnapshotOpInfo} (hcmd : op'.cmd = op.cmd)
    (hqueue : op'.queueName = op.queueName) (k : ℕ) (events : List (MonitorEvent V)) (tail : Bool) :
    iterationMessages op' k events tail = iterationMessages op k events tail := by
  have hpublish (message : SnapshotMessage V) : op'.publish message = op.publish message := by
    rw [SnapshotOpInfo.publish, SnapshotOpInfo.publish, hcmd, hqueue]
  have hdata : (op'.publishData k : MonitorEvent V → _) = op.publishData k :=
    funext fun event => hpublish _
  rw [iterationMessages, iterationMessages, hdata]
  simp only [SnapshotOpInfo.publishHeader, SnapshotOpInfo.publishTail, hpublish, hcmd]

/-! ## The log of an operation -/

/-- The log agrees with the tasks: an iteration has messages once its Header is published, and
they end once its Tail is. -/
structure Published (op : SnapshotOpInfo) (tasks : List (SubmissionTask V))
    (log : List (PublishMessage (SnapshotMessage V))) : Prop where
  silent : ∀ k, tasksWith headerPublished tasks k = 0 → messagesOf log k = []
  begun : ∀ k, 0 < tasksWith headerPublished tasks k → ∃ events,
    messagesOf log k = iterationMessages op k events (decide (0 < tasksWith tailPublished tasks k))

section Marks

variable {tasks : List (SubmissionTask V)} {task : SubmissionTask V}

theorem SubmissionTask.drained_of_tailPublished (h : task.tailPublished = true) :
    task.drained = true := by
  simp only [tailPublished, drained, Bool.and_eq_true, decide_eq_true_eq] at h ⊢
  exact ⟨h.1, by omega⟩

/-- The Header task of an iteration is its only one. -/
theorem Scheduled.headerPublished_eq_zero (h : Scheduled tasks) (hmem : task ∈ tasks)
    (hheader : task.header = true) (hbefore : task.headerPublished = false) :
    tasksWith headerPublished tasks task.iterationId = 0 := by
  have hone : tasksWith SubmissionTask.header tasks task.iterationId ≤ 1 := by
    rw [tasksWith, h.tally_header]
    split <;> omega
  exact tally_eq_zero_of_le_one hone (fun _ _ h => (Bool.and_eq_true_iff.mp h).1) hmem hheader
    hbefore

/-- The Tail task of an iteration is its only one. -/
theorem Scheduled.tailPublished_eq_zero (h : Scheduled tasks) (hmem : task ∈ tasks)
    (htail : task.tail = true) (hbefore : task.tailPublished = false) :
    tasksWith tailPublished tasks task.iterationId = 0 := by
  have hone : tasksWith SubmissionTask.tail tasks task.iterationId ≤ 1 := by
    rw [tasksWith, h.tally_tail]
    split <;> omega
  exact tally_eq_zero_of_le_one hone (fun _ _ h => (Bool.and_eq_true_iff.mp h).1) hmem htail
    hbefore

theorem tailPublished_le_drained (k : ℕ) :
    tasksWith tailPublished tasks k ≤ tasksWith drained tasks k :=
  tally_mono fun _ _ => drained_of_tailPublished

end Marks

namespace Published

variable {threads : ℕ} {tasks : List (SubmissionTask V)} {task : SubmissionTask V} {i : ℕ}
  {op op' : SnapshotOpInfo} {sync : IterationSync} {out : TaskOutcome V}
  {log : List (PublishMessage (SnapshotMessage V))}

theorem nil (h : ∀ k, messagesOf log k = []) :
    Published op ([] : List (SubmissionTask V)) log where
  silent k _ := h k
  begun _ hpos := absurd hpos (by simp)

theorem congr (h : Published op tasks log) (hcmd : op'.cmd = op.cmd)
    (hqueue : op'.queueName = op.queueName) : Published op' tasks log where
  silent := h.silent
  begun k hk := by
    obtain ⟨events, heq⟩ := h.begun k hk
    exact ⟨events, heq.trans (iterationMessages_congr hcmd hqueue ..).symm⟩

/-- The log of an operation without tasks says nothing about it. -/
theorem carry (h : Published op tasks log)
    (hsame : tasks ≠ [] → op'.cmd = op.cmd ∧ op'.queueName = op.queueName) :
    Published op' tasks log := by
  by_cases hne : tasks = []
  · subst hne
    exact .nil fun k => h.silent k tally_nil
  · exact h.congr (hsame hne).1 (hsame hne).2

/-- A task may go on as long as it publishes nothing. -/
theorem of_marks {phase : TaskPhase V} (h : Published op tasks log) (hi : tasks[i]? = some task)
    (hheader : (task.advance phase).headerPublished = task.headerPublished)
    (htail : (task.advance phase).tailPublished = task.tailPublished) :
    Published op (tasks.set i (task.advance phase)) log := by
  constructor <;> simp only [tasksWith_eq headerPublished hi hheader,
    tasksWith_eq tailPublished hi htail]
  · exact h.silent
  · exact h.begun

theorem schedule (h : Published op tasks log) (hqueued : task.rank = 0) :
    Published op (tasks ++ [task]) log := by
  have hheader := tasksWith_snoc_of_not tasks
    (show task.headerPublished = false by simp [headerPublished, hqueued])
  have htail := tasksWith_snoc_of_not tasks
    (show task.tailPublished = false by simp [tailPublished, hqueued])
  constructor <;> simp only [hheader, htail]
  · exact h.silent
  · exact h.begun

/-- The messages of the other iterations stay when a task publishes one of its own. -/
private theorem of_message (h : Published op tasks log) (hi : tasks[i]? = some task)
    {phase : TaskPhase V} {message : PublishMessage (SnapshotMessage V)}
    (hiteration : message.payload.iterationId = task.iterationId)
    (hheader : (task.advance phase).headerPublished = true ∨
      0 < tasksWith headerPublished (tasks.set i (task.advance phase)) task.iterationId)
    (hbegun : ∃ events, messagesOf log task.iterationId ++ [message] =
      iterationMessages op task.iterationId events
        (decide (0 < tasksWith tailPublished (tasks.set i (task.advance phase))
          task.iterationId))) :
    Published op (tasks.set i (task.advance phase)) (log ++ [message]) := by
  have hpos : 0 < tasksWith headerPublished (tasks.set i (task.advance phase))
      task.iterationId := by
    rcases hheader with hmark | hpos
    · exact tally_pos.mpr
        ⟨_, List.mem_set (List.getElem?_eq_some_iff.mp hi).1 _, hmark, rfl⟩
    · exact hpos
  refine ⟨fun k hk => ?_, fun k hk => ?_⟩
  · have hne : k ≠ task.iterationId := fun heq => by
      rw [heq] at hk
      omega
    rw [tasksWith_ne headerPublished hi hne] at hk
    rw [messagesOf_snoc_of_ne log message (hiteration ▸ hne)]
    exact h.silent k hk
  · by_cases heq : k = task.iterationId
    · subst heq
      rw [← hiteration, messagesOf_snoc_self, hiteration]
      exact hbegun
    · rw [tasksWith_ne headerPublished hi heq] at hk
      rw [tasksWith_ne tailPublished hi heq, messagesOf_snoc_of_ne log message (hiteration ▸ heq)]
      exact h.begun k hk

theorem step (h : Published op tasks log) (hscheduled : Scheduled tasks)
    (hgated : Gated tasks op.iterationSyncStates) (htaken : Taken threads tasks)
    (hcovered : TailsCovered threads tasks) (hvalid : task.Valid) (hi : tasks[i]? = some task)
    (hstep : task.step op sync = some out) :
    Published op (tasks.set i (task.advance out.phase)) (log ++ out.message.toList) := by
  have hmem := List.mem_of_getElem? hi
  have hpublished {k : ℕ} (hdrained : 0 < tasksWith drained tasks k) :
      0 < tasksWith headerPublished tasks k :=
    published_of_drained hscheduled hgated htaken hcovered hdrained
  cases messageEffect (hscheduled.iteration_mem task hmem).1 hvalid hstep with
  | silent message header tail =>
      rw [message, Option.toList_none, List.append_nil]
      exact h.of_marks hi header tail
  | header message isHeader before after tail =>
      have hnone := hscheduled.headerPublished_eq_zero hmem isHeader before
      have hnotail : tasksWith tailPublished tasks task.iterationId = 0 := by
        by_contra hne
        have := hpublished (k := task.iterationId)
          ((Nat.pos_of_ne_zero hne).trans_le (tailPublished_le_drained _))
        omega
      rw [message, Option.toList_some]
      refine h.of_message hi rfl (.inl after) ⟨[], ?_⟩
      rw [h.silent _ hnone, tasksWith_eq tailPublished hi tail, hnotail]
      rfl
  | data event message isOpen pending header tail =>
      have hcompleted := hgated.completed_of_open _ (tasksWith_pos dataOpen hi isOpen)
      have hpos : 0 < tasksWith headerPublished tasks task.iterationId :=
        hcompleted.trans_le (tally_mono fun _ _ => headerPublished_of_completed)
      have hundrained := hgated.drained_of_pending (tasksWith_pos dataPending hi pending)
      have hnotail : tasksWith tailPublished tasks task.iterationId = 0 := by
        have hle : tasksWith tailPublished tasks task.iterationId ≤ _ :=
          tailPublished_le_drained task.iterationId
        omega
      obtain ⟨events, heq⟩ := h.begun _ hpos
      rw [message, Option.toList_some]
      refine h.of_message hi rfl (.inr ?_) ⟨events ++ [event], ?_⟩
      · rwa [tasksWith_eq headerPublished hi header]
      · rw [heq, tasksWith_eq tailPublished hi tail, hnotail]
        simp [iterationMessages]
  | tail message isDrained before header after =>
      have hpos := hpublished (tasksWith_pos drained hi isDrained)
      have htail : task.tail = true := (Bool.and_eq_true_iff.mp isDrained).1
      have hnotail := hscheduled.tailPublished_eq_zero hmem htail before
      have hafter := tasksWith_add tailPublished hi before after
      obtain ⟨events, heq⟩ := h.begun _ hpos
      rw [message, Option.toList_some]
      refine h.of_message hi rfl (.inr ?_) ⟨events, ?_⟩
      · rwa [tasksWith_eq headerPublished hi header]
      · rw [heq, hafter, hnotail]
        simp [iterationMessages]

end Published

/-! ## Covered Tails -/

namespace TailsCovered

variable {threads : ℕ} {tasks : List (SubmissionTask V)} {task : SubmissionTask V} {i : ℕ}

theorem nil : TailsCovered threads ([] : List (SubmissionTask V)) := by
  simp [TailsCovered]

/-- A task that goes on covers what it has covered. -/
theorem advance {phase : TaskPhase V} (h : TailsCovered threads tasks) (hi : tasks[i]? = some task)
    (hle : task.rank ≤ phase.rank) : TailsCovered threads (tasks.set i (task.advance phase)) := by
  obtain ⟨hlen, rfl⟩ := List.getElem?_eq_some_iff.mp hi
  have hkept {other : SubmissionTask V} (hother : other ∈ tasks) {k : ℕ}
      (hsame : other.iterationId = k)
      (hcovers : other.carriesData = true ∨ other.headerPublished = true) :
      ∃ kept ∈ tasks.set i (tasks[i].advance phase), kept.iterationId = k ∧
        (kept.carriesData = true ∨ kept.headerPublished = true) := by
    obtain ⟨j, hj, rfl⟩ := List.getElem_of_mem hother
    by_cases hij : i = j
    · subst hij
      refine ⟨_, List.mem_set hlen _, hsame, hcovers.imp id fun hpublished => ?_⟩
      rw [headerPublished, Bool.and_eq_true] at hpublished ⊢
      exact ⟨hpublished.1, decide_eq_true (Nat.lt_of_lt_of_le (of_decide_eq_true hpublished.2) hle)⟩
    · refine ⟨tasks[j], List.mem_iff_getElem.mpr ⟨j, by simpa, ?_⟩, hsame, hcovers⟩
      rw [List.getElem_set_ne hij]
  intro late hmem htail hheader
  have hcover : threads = 1 ∨ ∃ other ∈ tasks, other.iterationId = late.iterationId ∧
      (other.carriesData = true ∨ other.headerPublished = true) := by
    rcases List.mem_or_eq_of_mem_set hmem with hmem | rfl
    · exact h late hmem htail hheader
    · exact h tasks[i] (List.getElem_mem hlen) htail hheader
  refine hcover.imp id ?_
  rintro ⟨other, hother, hsame, hcovers⟩
  exact hkept hother hsame hcovers

theorem snoc (h : TailsCovered threads tasks)
    (hcovered : task.tail = true → task.header = false → threads = 1 ∨ task.carriesData = true ∨
      ∃ other ∈ tasks, other.iterationId = task.iterationId ∧
        (other.carriesData = true ∨ other.headerPublished = true)) :
    TailsCovered threads (tasks ++ [task]) := by
  intro late hmem htail hheader
  have hweaken (hcover : ∃ other ∈ tasks, other.iterationId = late.iterationId ∧
      (other.carriesData = true ∨ other.headerPublished = true)) :
      ∃ other ∈ tasks ++ [task], other.iterationId = late.iterationId ∧
        (other.carriesData = true ∨ other.headerPublished = true) := by
    obtain ⟨other, hother, hcover⟩ := hcover
    exact ⟨other, List.mem_append_left _ hother, hcover⟩
  rcases List.mem_append.mp hmem with hmem | hmem
  · exact (h late hmem htail hheader).imp id hweaken
  · obtain rfl := List.mem_singleton.mp hmem
    rcases hcovered htail hheader with hsingle | hcarries | hcover
    · exact .inl hsingle
    · exact .inr ⟨late, by simp, rfl, .inl hcarries⟩
    · exact .inr (hweaken hcover)

end TailsCovered

/-- A Tail without a Header is scheduled on a single thread, with events, or when its iteration has
events or a published Header. -/
def SnapshotPipeline.TailCovered (threads : ℕ) (p : SnapshotPipeline V) : Prop :=
  ∀ entry ∈ p.checker.scheduled?, entry.2.1.submissionType.tail = true →
    entry.2.1.submissionType.header = false →
      threads = 1 ∨ entry.2.1.carriesData = true ∨ ∃ other ∈ p.tasks entry.1,
        some other.iterationId = p.activeIterationId (p.nameOf entry.1) ∧
          (other.carriesData = true ∨ other.headerPublished = true)

instance (threads : ℕ) (p : SnapshotPipeline V) : Decidable (p.TailCovered threads) :=
  inferInstanceAs (Decidable (∀ entry ∈ p.checker.scheduled?,
    entry.2.1.submissionType.tail = true → entry.2.1.submissionType.header = false →
      threads = 1 ∨ entry.2.1.carriesData = true ∨ ∃ other ∈ p.tasks entry.1,
        some other.iterationId = p.activeIterationId (p.nameOf entry.1) ∧
          (other.carriesData = true ∨ other.headerPublished = true)))

/-! ## Moves -/

/-- The logs of all operations agree with their tasks. -/
structure Ordered (threads : ℕ) (p : SnapshotPipeline V) : Prop where
  covered : ∀ o, TailsCovered threads (p.tasks o)
  published : ∀ o, Published (p.ops o) (p.tasks o) (p.log o)

namespace Ordered

variable {threads : ℕ} {registers : SnapshotPipeline V → RepeatingSnapshotCommand → Prop}
  {schedules : SnapshotPipeline V → Prop} {p p' : SnapshotPipeline V}

theorem init : Ordered threads ({} : SnapshotPipeline V) where
  covered _ := .nil
  published _ := .nil fun _ => rfl

/-- Neither tasks nor logs change. -/
theorem frame (h : Ordered threads p) (htasks : p'.tasks = p.tasks) (hlog : p'.log = p.log)
    (hsame : ∀ o, p.tasks o ≠ [] → (p'.ops o).cmd = (p.ops o).cmd ∧
      (p'.ops o).queueName = (p.ops o).queueName) : Ordered threads p' := by
  refine ⟨fun o => htasks ▸ h.covered o, fun o => ?_⟩
  rw [htasks, hlog]
  exact (h.published o).carry (hsame o)

/-- The tasks of one operation change, with its log. -/
theorem replace (h : Ordered threads p) {o : ℕ} {tasks : List (SubmissionTask V)}
    {log : List (PublishMessage (SnapshotMessage V))}
    (htasks : p'.tasks = Function.update p.tasks o tasks)
    (hlog : p'.log = Function.update p.log o log)
    (hsame : ∀ o, p.tasks o ≠ [] → (p'.ops o).cmd = (p.ops o).cmd ∧
      (p'.ops o).queueName = (p.ops o).queueName)
    (hcovered : TailsCovered threads tasks) (hpublished : Published (p'.ops o) tasks log) :
    Ordered threads p' := by
  refine ⟨fun other => ?_, fun other => ?_⟩ <;> rw [htasks]
  · by_cases heq : other = o
    · rw [heq, Function.update_self]
      exact hcovered
    · rw [Function.update_of_ne heq]
      exact h.covered other
  · rw [hlog]
    by_cases heq : other = o
    · rw [heq, Function.update_self, Function.update_self]
      exact hpublished
    · rw [Function.update_of_ne heq, Function.update_of_ne heq]
      exact (h.published other).carry (hsame other)

/-- A submission is scheduled. -/
theorem submit (h : Ordered threads p) {o : ℕ} {task : SubmissionTask V}
    (htasks : p'.tasks = Function.update p.tasks o (p.tasks o ++ [task])) (hlog : p'.log = p.log)
    (hsame : ∀ o, p.tasks o ≠ [] → (p'.ops o).cmd = (p.ops o).cmd ∧
      (p'.ops o).queueName = (p.ops o).queueName) (hqueued : task.rank = 0)
    (hcovered : task.tail = true → task.header = false → threads = 1 ∨ task.carriesData = true ∨
      ∃ other ∈ p.tasks o, other.iterationId = task.iterationId ∧
        (other.carriesData = true ∨ other.headerPublished = true)) : Ordered threads p' := by
  have hlog' : p'.log = Function.update p.log o (p.log o) := by
    rw [hlog, Function.update_eq_self]
  exact h.replace htasks hlog' hsame ((h.covered o).snoc hcovered)
    (((h.published o).carry (hsame o)).schedule hqueued)

theorem moves (h : Ordered threads p) (hsound : Sound threads p)
    (hcovered : schedules p → p.TailCovered threads)
    (hmoves : SnapshotPipeline.Moves threads registers schedules p p') : Ordered threads p' := by
  have hsame (o : ℕ) (hne : p.tasks o ≠ []) : (p'.ops o).cmd = (p.ops o).cmd ∧
      (p'.ops o).queueName = (p.ops o).queueName := by
    rcases hsound.registry.same_entries hmoves with ⟨cmd, created, -, rfl⟩ | ⟨-, hsame⟩
    · have hregistered : o ≠ p.opCount := fun heq =>
        hne (hsound.registry.unregistered o (Nat.le_of_eq heq.symm))
      rw [SnapshotPipeline.register_ops, Function.update_of_ne hregistered]
      exact ⟨rfl, rfl⟩
    · exact hsame o
  have hheld := hsound.registry.held
  cases hmoves with
  | trigger | stop | register | scan | remove | leave | await | sleep =>
      exact h.frame rfl rfl hsame
  | visit =>
      refine h.frame ?_ ?_ hsame
      all_goals
        rw [SnapshotPipeline.visit]
        dsimp only
        split <;> rfl
  | @submit now todo o submission last scheduling continues allowed =>
      refine h.submit (SnapshotPipeline.submit_tasks ..) rfl hsame rfl fun htail _ => ?_
      have hcover := hcovered allowed (o, submission, last)
        (by simp [scheduling, CheckerPhase.scheduled?]) htail continues
      refine hcover.imp id fun hcover => hcover.imp id fun hcover => ?_
      obtain ⟨other, hother, hactive, hcovers⟩ := hcover
      exact ⟨other, hother, by rw [← hactive]; rfl, hcovers⟩
  | @acquire now todo o submission last acquiring idle =>
      rw [acquiring] at hheld
      refine h.submit (SnapshotPipeline.submit_tasks ..) rfl hsame rfl fun _ hheader => ?_
      exact absurd (hheld.2.1.symm.trans hheader) (by decide)
  | dequeue dequeues =>
      obtain ⟨o, i, task, pool, hpool, htask, rfl⟩ := SnapshotPipeline.dequeue_eq_some dequeues
      have hrank : task.rank = 0 := hsound.pooled.rank_of_dequeue hpool htask
      refine h.replace rfl (Function.update_eq_self o p.log).symm hsame
        ((h.covered o).advance htask (by omega)) ((h.published o).of_marks htask ?_ ?_)
      · simp [headerPublished, hrank, TaskPhase.rank]
      · simp [tailPublished, hrank, TaskPhase.rank]
  | @task o i _ steps =>
      obtain ⟨task, out, htask, hout, rfl⟩ := SnapshotPipeline.stepTask_eq_some steps
      have hvalid := hsound.registry.valid o task (List.mem_of_getElem? htask)
      have hpublished := (h.published o).step (hsound.owned.scheduled o) (hsound.owned.gated o)
        (hsound.pooled.taken o) (h.covered o) hvalid htask hout
      obtain ⟨gates, removalSet, hop⟩ := SubmissionTask.step_op hout
      refine h.replace rfl rfl hsame
        ((h.covered o).advance htask (SubmissionTask.step_rank hout).2.2.1) ?_
      change Published (Function.update p.ops o out.op o) _ _
      rw [Function.update_self]
      exact hpublished.congr (by rw [hop]) (by rw [hop])

theorem messagesInOrder (h : Ordered threads p) (hsound : Sound threads p) : MessagesInOrder p where
  ordered o k := by
    rcases Nat.eq_zero_or_pos (tasksWith headerPublished (p.tasks o) k) with hzero | hpos
    · exact .inl ((h.published o).silent k hzero)
    · obtain ⟨events, heq⟩ := (h.published o).begun k hpos
      exact .inr ⟨events, _, heq⟩
  complete {o k} := by
    rintro ⟨tail, hmem, rfl, htail⟩ hfinished
    have hrank : tail.rank = 15 := by simpa [SubmissionTask.finished] using hfinished tail hmem rfl
    have hpublished : 0 < tasksWith tailPublished (p.tasks o) tail.iterationId :=
      tally_pos.mpr ⟨tail, hmem, by simp [tailPublished, htail, hrank], rfl⟩
    have hheader := published_of_drained (hsound.owned.scheduled o) (hsound.owned.gated o)
      (hsound.pooled.taken o) (h.covered o) (hpublished.trans_le (tailPublished_le_drained _))
    obtain ⟨events, heq⟩ := (h.published o).begun _ hheader
    exact ⟨events, by rw [heq, decide_eq_true hpublished]⟩

end Ordered

/-! ## Runs -/

namespace ContinuousSnapshotManager

variable {threads : ℕ} {m : ContinuousSnapshotManager V} {labels : List (SnapshotStep V)}

/-- A step that schedules a submission finds its name to itself, and covers its Tail. -/
def SchedulesCovered (threads : ℕ) (m : ContinuousSnapshotManager V) (label : SnapshotStep V) :
    Prop :=
  label.isSchedule = true → m.toSnapshotPipeline.Clean ∧ m.toSnapshotPipeline.TailCovered threads

instance (threads : ℕ) (m : ContinuousSnapshotManager V) (label : SnapshotStep V) :
    Decidable (m.SchedulesCovered threads label) :=
  inferInstanceAs (Decidable (label.isSchedule = true →
    m.toSnapshotPipeline.Clean ∧ m.toSnapshotPipeline.TailCovered threads))

end ContinuousSnapshotManager

end K2eg
