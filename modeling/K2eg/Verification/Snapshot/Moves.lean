import K2eg.Foundation.Interleaving
import K2eg.Model.ContinuousSnapshotManager
import Mathlib.Logic.Relation

/-! # Moves of the pipeline

What the steps of the manager do to the pipeline. A step of the checker may be two moves: a
Header waits for its iteration, and acquires it at once where no iteration is in progress. -/

namespace K2eg

variable {V : Type*}

namespace SnapshotPipeline

section Fields

variable (p : SnapshotPipeline V) (now : Int) (todo : List String) (o k : ℕ)
  (submission : SnapshotSubmission V) (last : Bool)

theorem setOp_ops (op : SnapshotOpInfo) : (p.setOp o op).ops = Function.update p.ops o op := rfl

theorem register_ops (op : SnapshotOpInfo) :
    (p.register op).ops = Function.update p.ops p.opCount op := rfl

/-- The task that is detached for a submission. -/
def detached : SubmissionTask V := ⟨{ submission with iterationId := k }, last, .queued⟩

theorem submit_tasks : (p.submit now todo o submission last k).tasks =
    Function.update p.tasks o (p.tasks o ++ [detached k submission last]) := rfl

theorem submit_active : (p.submit now todo o submission last k).activeIterationId =
    Function.update p.activeIterationId (p.nameOf o)
      (if last then none
        else if submission.submissionType.header then some k
        else p.activeIterationId (p.nameOf o)) := by
  simp only [submit]
  cases submission.submissionType.header <;> cases submission.carriesData <;> cases last <;> rfl

/-- Only the gates of the operation change. -/
theorem submit_ops : ∃ gates, (p.submit now todo o submission last k).ops =
    Function.update p.ops o { p.ops o with iterationSyncStates := gates } := by
  simp only [submit]
  split_ifs <;> exact ⟨_, rfl⟩

theorem submit_nameOf (other : ℕ) :
    (p.submit now todo o submission last k).nameOf other = p.nameOf other := by
  obtain ⟨gates, hops⟩ := p.submit_ops now todo o k submission last
  rw [nameOf, hops]
  by_cases heq : other = o
  · rw [heq, Function.update_self]
    rfl
  · rw [Function.update_of_ne heq]
    rfl

end Fields

/-- The moves, under a condition on the operations that are registered and one on the states in
which a submission is scheduled. -/
inductive Moves (threads : ℕ) (registers : SnapshotPipeline V → RepeatingSnapshotCommand → Prop)
    (schedules : SnapshotPipeline V → Prop) (p : SnapshotPipeline V) :
    SnapshotPipeline V → Prop where
  | trigger {o} (sleeping : p.checker = .sleeping) :
      Moves threads registers schedules p (p.setOp o { p.ops o with requestToTrigger := true })
  | stop {o} (sleeping : p.checker = .sleeping) :
      Moves threads registers schedules p
        (p.setOp o { p.ops o with futureRetrieved := true, isRunning := false })
  | register {cmd created} (sleeping : p.checker = .sleeping) (allowed : registers p cmd) :
      Moves threads registers schedules p (p.register (.ofCommand cmd created))
  | scan {now order} (sleeping : p.checker = .sleeping) :
      Moves threads registers schedules p (p.setChecker (.scanning now order))
  | visit {now queueName todo o events} (scanning : p.checker = .scanning now (queueName :: todo))
      (found : p.findRunning queueName = some o) :
      Moves threads registers schedules p (p.visit now todo o events)
  | remove {now todo o submission uri uris}
      (removing : p.checker = .removing now todo o submission (uri :: uris)) :
      Moves threads registers schedules p (p.setChecker (.removing now todo o submission uris))
  | leave {now todo o submission} (removing : p.checker = .removing now todo o submission []) :
      Moves threads registers schedules p
        ((p.eraseRunning o).setChecker (.scheduling now todo o submission true))
  | submit {now todo o submission last}
      (scheduling : p.checker = .scheduling now todo o submission last)
      (continues : submission.submissionType.header = false) (allowed : schedules p) :
      Moves threads registers schedules p
        (p.submit now todo o submission last ((p.activeIterationId (p.nameOf o)).getD 0))
  | await {now todo o submission last}
      (scheduling : p.checker = .scheduling now todo o submission last)
      (opens : submission.submissionType.header = true) (allowed : schedules p) :
      Moves threads registers schedules p
        { p with
          iterationSync := Function.update p.iterationSync (p.nameOf o)
            (p.iterationSync (p.nameOf o)).ensureCv
          checker := .acquiring now todo o submission last }
  | acquire {now todo o submission last}
      (acquiring : p.checker = .acquiring now todo o submission last)
      (idle : (p.iterationSync (p.nameOf o)).iterationInProgress = false) :
      Moves threads registers schedules p (p.reserveAndSubmit now todo o submission last)
  | sleep {now} (scanning : p.checker = .scanning now []) :
      Moves threads registers schedules p (p.setChecker .sleeping)
  | dequeue {p'} (dequeues : p.dequeue threads = some p') : Moves threads registers schedules p p'
  | task {o i p'} (steps : p.stepTask o i = some p') : Moves threads registers schedules p p'

variable {threads : ℕ} {registers : SnapshotPipeline V → RepeatingSnapshotCommand → Prop}
  {schedules : SnapshotPipeline V → Prop} {p : SnapshotPipeline V}

/-- The step in which the checker schedules a submission. -/
theorem moves_schedule {now : Int} {todo : List String} {o : ℕ}
    {submission : SnapshotSubmission V} {last : Bool}
    (hscheduling : p.checker = .scheduling now todo o submission last) (hallowed : schedules p) :
    Relation.ReflTransGen (Moves threads registers schedules) p
      (p.schedule now todo o submission last) := by
  cases hheader : submission.submissionType.header with
  | false =>
      rw [schedule, hheader]
      exact .single (.submit hscheduling hheader hallowed)
  | true =>
      rw [schedule, hheader]
      have hawait : Moves threads registers schedules p _ := .await hscheduling hheader hallowed
      simp only [if_true]
      split
      · exact .single hawait
      · rename_i hidle
        refine .tail (.single hawait) ?_
        refine .acquire rfl ?_
        change (Function.update p.iterationSync (p.nameOf o) _ (p.nameOf o)).iterationInProgress =
          false
        rw [Function.update_self]
        simpa using hidle

end SnapshotPipeline

namespace SnapshotStep

def isSchedule : SnapshotStep V → Bool
  | checkerSchedule => true
  | _ => false

end SnapshotStep

namespace ContinuousSnapshotManager

open SnapshotPipeline

/-- The command that a step registers. -/
def registered? (manager : ContinuousSnapshotManager V) :
    SnapshotStep V → Option RepeatingSnapshotCommand
  | .startRegister command =>
    match manager.commands command with
    | .startDescribed cmd _ => some cmd
    | _ => none
  | _ => none

variable {threads : ℕ} {registers : SnapshotPipeline V → RepeatingSnapshotCommand → Prop}
  {schedules : SnapshotPipeline V → Prop} {m t : ContinuousSnapshotManager V}
  {label : SnapshotStep V}

theorem setCommand_pipeline (command : ℕ) (phase : CommandPhase) :
    (m.setCommand command phase).toSnapshotPipeline = m.toSnapshotPipeline := rfl

theorem startCheck_pipeline (command : ℕ) (cmd : RepeatingSnapshotCommand) (created : Int) :
    (m.startCheck command cmd created).toSnapshotPipeline = m.toSnapshotPipeline := by
  rw [startCheck]
  split_ifs <;> rfl

theorem startPrepare_pipeline (command : ℕ) (cmd : RepeatingSnapshotCommand) (created : Int) :
    (m.startPrepare command cmd created).toSnapshotPipeline = m.toSnapshotPipeline := by
  rw [startPrepare]
  split <;> rfl

theorem monitorChannel_pipeline (uri : String) (activate : Bool) :
    (m.monitorChannel uri activate).toSnapshotPipeline = m.toSnapshotPipeline := by
  rw [monitorChannel]
  split <;> rfl

theorem stopMark_pipeline (command : ℕ) (cmd : RepeatingSnapshotStopCommand) :
    (m.stopMark command cmd).toSnapshotPipeline = m.toSnapshotPipeline ∨
      ∃ o, (m.stopMark command cmd).toSnapshotPipeline = m.setOp o
        { m.ops o with futureRetrieved := true, isRunning := false } := by
  rw [stopMark]
  split
  · exact .inl rfl
  · split
    · exact .inl rfl
    · dsimp only
      split
      · exact .inl rfl
      · exact .inr ⟨_, rfl⟩

theorem triggerSnapshot_pipeline (command : ℕ) (cmd : RepeatingSnapshotTriggerCommand) :
    (m.triggerSnapshot command cmd).toSnapshotPipeline = m.toSnapshotPipeline ∨
      ∃ o, (m.triggerSnapshot command cmd).toSnapshotPipeline = m.setOp o
        { m.ops o with requestToTrigger := true } := by
  rw [triggerSnapshot]
  split
  · exact .inl rfl
  · split
    · exact .inr ⟨_, rfl⟩
    · exact .inl rfl

/-- What a step needs of the manager, and what it makes of it. -/
inductive SnapshotTransition (threads : ℕ) (m : ContinuousSnapshotManager V) :
    SnapshotStep V → ContinuousSnapshotManager V → Prop where
  | receiveStart {command} (absent : m.commands command = .absent)
      (cmd : RepeatingSnapshotCommand) (created : Int) :
      SnapshotTransition threads m (.receiveStart command cmd created)
        (m.setCommand command (.startReceived cmd created))
  | receiveStop {command} (absent : m.commands command = .absent)
      (cmd : RepeatingSnapshotStopCommand) :
      SnapshotTransition threads m (.receiveStop command cmd)
        (m.setCommand command (.stopReceived cmd))
  | receiveTrigger {command} (absent : m.commands command = .absent)
      (cmd : RepeatingSnapshotTriggerCommand) :
      SnapshotTransition threads m (.receiveTrigger command cmd)
        (m.setCommand command (.triggerReceived cmd))
  | startCheck {command cmd created} (received : m.commands command = .startReceived cmd created)
      (sleeping : m.checker = .sleeping) :
      SnapshotTransition threads m (.startCheck command) (m.startCheck command cmd created)
  | startPrepare {command cmd created} (checked : m.commands command = .startChecked cmd created) :
      SnapshotTransition threads m (.startPrepare command) (m.startPrepare command cmd created)
  | startCreateQueue {command cmd created}
      (prepared : m.commands command = .startPrepared cmd created) (returns : Bool) :
      SnapshotTransition threads m (.startCreateQueue command returns)
        (m.setCommand command (if returns then .startQueueCreated cmd created else .ended none))
  | startGetQueueMetadata {command cmd created}
      (queued : m.commands command = .startQueueCreated cmd created) (returns : Bool) :
      SnapshotTransition threads m (.startGetQueueMetadata command returns)
        (m.setCommand command (if returns then .startDescribed cmd created else .ended none))
  | startRegister {command cmd created}
      (described : m.commands command = .startDescribed cmd created)
      (sleeping : m.checker = .sleeping) :
      SnapshotTransition threads m (.startRegister command) (m.startRegister command cmd created)
  | startActivate {command o uri uris}
      (activating : m.commands command = .startActivating o (uri :: uris)) :
      SnapshotTransition threads m (.startActivate command)
        ((m.monitorChannel uri true).setCommand command (.startActivating o uris))
  | startReply {command o} (activated : m.commands command = .startActivating o []) :
      SnapshotTransition threads m (.startReply command) (m.startReply command o)
  | stopMark {command cmd} (received : m.commands command = .stopReceived cmd)
      (sleeping : m.checker = .sleeping) :
      SnapshotTransition threads m (.stopMark command) (m.stopMark command cmd)
  | stopReply {command cmd o} (waiting : m.commands command = .stopWaiting cmd o)
      (removed : (m.ops o).removalSet = true) :
      SnapshotTransition threads m (.stopReply command) (m.stopReply command cmd)
  | trigger {command cmd} (received : m.commands command = .triggerReceived cmd)
      (sleeping : m.checker = .sleeping) :
      SnapshotTransition threads m (.trigger command) (m.triggerSnapshot command cmd)
  | checkerScan {order} (now : Int) (sleeping : m.checker = .sleeping)
      (listed : order.Perm (m.snapshotRunning.map Prod.fst)) :
      SnapshotTransition threads m (.checkerScan now order)
        (m.setPipeline (m.setChecker (.scanning now order)))
  | checkerVisit {now queueName todo o} (scanning : m.checker = .scanning now (queueName :: todo))
      (found : m.findRunning queueName = some o) (events : List (MonitorEvent V)) :
      SnapshotTransition threads m (.checkerVisit events)
        (m.setPipeline (m.visit now todo o events))
  | removeUri {now todo o submission uri uris}
      (removing : m.checker = .removing now todo o submission (uri :: uris)) :
      SnapshotTransition threads m .checkerRemove
        ((m.removeUri o uri).setPipeline (m.setChecker (.removing now todo o submission uris)))
  | leave {now todo o submission} (removing : m.checker = .removing now todo o submission []) :
      SnapshotTransition threads m .checkerRemove
        (m.setPipeline ((m.eraseRunning o).setChecker (.scheduling now todo o submission true)))
  | checkerSchedule {now todo o submission last}
      (scheduling : m.checker = .scheduling now todo o submission last) :
      SnapshotTransition threads m .checkerSchedule
        (m.setPipeline (m.schedule now todo o submission last))
  | checkerAcquire {now todo o submission last}
      (acquiring : m.checker = .acquiring now todo o submission last)
      (idle : (m.iterationSync (m.nameOf o)).iterationInProgress = false) :
      SnapshotTransition threads m .checkerAcquire
        (m.setPipeline (m.reserveAndSubmit now todo o submission last))
  | checkerSleep {now} (scanning : m.checker = .scanning now []) :
      SnapshotTransition threads m .checkerSleep (m.setPipeline (m.setChecker .sleeping))
  | dequeue {p} (dequeues : m.toSnapshotPipeline.dequeue threads = some p) :
      SnapshotTransition threads m .dequeue (m.setPipeline p)
  | task {o i p} (steps : m.stepTask o i = some p) :
      SnapshotTransition threads m (.task o i) (m.setPipeline p)

theorem transition_of_next (hnext : next threads m label = some t) :
    SnapshotTransition threads m label t := by
  cases label <;> simp only [next] at hnext
  case receiveStart =>
    split at hnext <;> cases hnext
    exact .receiveStart ‹_› _ _
  case receiveStop =>
    split at hnext <;> cases hnext
    exact .receiveStop ‹_› _
  case receiveTrigger =>
    split at hnext <;> cases hnext
    exact .receiveTrigger ‹_› _
  case startCheck =>
    split at hnext <;> cases hnext
    exact .startCheck ‹_› ‹_›
  case startPrepare =>
    split at hnext <;> cases hnext
    exact .startPrepare ‹_›
  case startCreateQueue =>
    split at hnext <;> cases hnext
    exact .startCreateQueue ‹_› _
  case startGetQueueMetadata =>
    split at hnext <;> cases hnext
    exact .startGetQueueMetadata ‹_› _
  case startRegister =>
    split at hnext <;> cases hnext
    exact .startRegister ‹_› ‹_›
  case startActivate =>
    split at hnext <;> cases hnext
    exact .startActivate ‹_›
  case startReply =>
    split at hnext <;> cases hnext
    exact .startReply ‹_›
  case stopMark =>
    split at hnext <;> cases hnext
    exact .stopMark ‹_› ‹_›
  case stopReply =>
    split at hnext
    · obtain ⟨hremoved, heq⟩ := Option.ite_none_right_eq_some.mp hnext
      obtain rfl := Option.some.inj heq
      exact .stopReply ‹_› hremoved
    · cases hnext
  case trigger =>
    split at hnext <;> cases hnext
    exact .trigger ‹_› ‹_›
  case checkerScan =>
    split at hnext
    · obtain ⟨hlisted, heq⟩ := Option.ite_none_right_eq_some.mp hnext
      obtain rfl := Option.some.inj heq
      exact .checkerScan _ ‹_› hlisted
    · cases hnext
  case checkerVisit =>
    split at hnext
    · obtain ⟨o, hfound, rfl⟩ := Option.map_eq_some_iff.mp hnext
      exact .checkerVisit ‹_› hfound _
    · cases hnext
  case checkerRemove =>
    split at hnext <;> cases hnext
    · exact .removeUri ‹_›
    · exact .leave ‹_›
  case checkerSchedule =>
    split at hnext <;> cases hnext
    exact .checkerSchedule ‹_›
  case checkerAcquire =>
    split at hnext
    · rename_i hacquiring
      split at hnext <;> cases hnext
      rename_i hidle
      exact .checkerAcquire hacquiring (by simpa using hidle)
    · cases hnext
  case checkerSleep =>
    split at hnext <;> cases hnext
    exact .checkerSleep ‹_›
  case dequeue =>
    obtain ⟨p, hdequeues, rfl⟩ := Option.map_eq_some_iff.mp hnext
    exact .dequeue hdequeues
  case task =>
    obtain ⟨p, hsteps, rfl⟩ := Option.map_eq_some_iff.mp hnext
    exact .task hsteps

theorem next_moves (hnext : next threads m label = some t)
    (hregisters : ∀ cmd ∈ m.registered? label, registers m.toSnapshotPipeline cmd)
    (hschedules : label.isSchedule = true → schedules m.toSnapshotPipeline) :
    Relation.ReflTransGen (Moves threads registers schedules) m.toSnapshotPipeline
      t.toSnapshotPipeline := by
  cases transition_of_next hnext with
  | receiveStart | receiveStop | receiveTrigger | startCreateQueue | startGetQueueMetadata
  | startReply | stopReply => exact .refl
  | startCheck => rw [startCheck_pipeline]
  | startPrepare => rw [startPrepare_pipeline]
  | startActivate => rw [setCommand_pipeline, monitorChannel_pipeline]
  | startRegister described sleeping =>
      exact .single (.register sleeping (hregisters _ (by simp [registered?, described])))
  | @stopMark command cmd _ sleeping =>
      rcases m.stopMark_pipeline command cmd with heq | ⟨o, heq⟩ <;> rw [heq]
      exact .single (.stop sleeping)
  | @trigger command cmd _ sleeping =>
      rcases m.triggerSnapshot_pipeline command cmd with heq | ⟨o, heq⟩ <;> rw [heq]
      exact .single (.trigger sleeping)
  | checkerScan _ sleeping => exact .single (.scan sleeping)
  | checkerVisit scanning found => exact .single (.visit scanning found)
  | removeUri removing => exact .single (.remove removing)
  | leave removing => exact .single (.leave removing)
  | checkerSchedule scheduling => exact moves_schedule scheduling (hschedules rfl)
  | checkerAcquire acquiring idle => exact .single (.acquire acquiring idle)
  | checkerSleep scanning => exact .single (.sleep scanning)
  | dequeue dequeues => exact .single (.dequeue dequeues)
  | task steps => exact .single (.task steps)

/-- What the moves keep holds of the pipeline after every step. -/
theorem next_invariant {I : SnapshotPipeline V → Prop} (hnext : next threads m label = some t)
    (hregisters : ∀ cmd ∈ m.registered? label, registers m.toSnapshotPipeline cmd)
    (hschedules : label.isSchedule = true → schedules m.toSnapshotPipeline)
    (hmoves : ∀ {p p'}, I p → Moves threads registers schedules p p' → I p')
    (h : I m.toSnapshotPipeline) : I t.toSnapshotPipeline := by
  have hreach := next_moves hnext hregisters hschedules
  generalize t.toSnapshotPipeline = p' at hreach
  induction hreach with
  | refl => exact h
  | tail _ hmove ih => exact hmoves ih hmove

/-- What all moves keep holds of the pipeline after every step. -/
theorem next_keeps {I : SnapshotPipeline V → Prop} (hnext : next threads m label = some t)
    (hmoves : ∀ {p p'}, I p → Moves threads (fun _ _ => True) (fun _ => True) p p' → I p')
    (h : I m.toSnapshotPipeline) : I t.toSnapshotPipeline :=
  next_invariant hnext (fun _ _ => trivial) (fun _ => trivial) hmoves h

/-- What the moves keep holds of the pipeline after every run. -/
theorem run_invariant {allowed : ContinuousSnapshotManager V → SnapshotStep V → Prop}
    {I : SnapshotPipeline V → Prop} {labels : List (SnapshotStep V)}
    (hregisters : ∀ m label, allowed m label →
      ∀ cmd ∈ m.registered? label, registers m.toSnapshotPipeline cmd)
    (hschedules : ∀ m label, allowed m label → label.isSchedule = true →
      schedules m.toSnapshotPipeline)
    (hinit : I {}) (hmoves : ∀ {p p'}, I p → Moves threads registers schedules p p' → I p')
    (hrun : Interleaving.Run (next threads) allowed {} labels m) : I m.toSnapshotPipeline := by
  refine hrun.invariant (I := fun _ m => I m.toSnapshotPipeline) hinit ?_
  intro _ m label t hinv hallowed hnext
  exact next_invariant hnext (hregisters m label hallowed) (hschedules m label hallowed) hmoves
    hinv

end ContinuousSnapshotManager

/-! ## Step sequences -/

namespace SnapshotTrace

open Interleaving

/-- A snapshot of one PV every second, whose submissions have Header, Data and Tail. -/
def normal : RepeatingSnapshotCommand :=
  { replyTopic := "replies", replyId := "start", snapshotName := "a", pvNameList := ["pva://x"]
    timeWindowMsec := 1000 }

/-- A snapshot of one PV that pushes every second and closes its window every two. -/
def buffered : RepeatingSnapshotCommand :=
  { replyTopic := "replies", replyId := "start", snapshotName := "a", pvNameList := ["pva://x"]
    timeWindowMsec := 2000, subPushDelayMsec := 1000, type := .timedBuffered }

def stop : RepeatingSnapshotStopCommand :=
  { replyTopic := "replies", replyId := "stop", snapshotName := "a" }

/-- An update of the PV. -/
def event : MonitorEvent ℕ := ⟨.data, "", ⟨"x", some 7⟩⟩

/-- A start that finds nothing in its way. -/
def start (command : ℕ) (cmd : RepeatingSnapshotCommand) : List (SnapshotStep ℕ) :=
  [.receiveStart command cmd 0, .startCheck command, .startPrepare command,
    .startCreateQueue command true, .startGetQueueMetadata command true, .startRegister command,
    .startActivate command, .startReply command]

/-- The checker visits the one snapshot that runs, and a submission is due. -/
def visit (now : Int) (events : List (MonitorEvent ℕ)) : List (SnapshotStep ℕ) :=
  [.checkerScan now ["a"], .checkerVisit events, .checkerSchedule, .checkerSleep]

/-- The checker visits the one snapshot, which is stopped. -/
def remove (now : Int) : List (SnapshotStep ℕ) :=
  [.checkerScan now ["a"], .checkerVisit [], .checkerRemove, .checkerRemove, .checkerSchedule,
    .checkerSleep]

/-- The iteration of snapshot `a` as a number, its entries and those of three operations in
tables. -/
def settle (m : ContinuousSnapshotManager V) (k : ContinuousSnapshotManager V → Bool) : Bool :=
  let sync := m.iterationSync "a"
  pin sync.currentIteration
    (fun currentIteration =>
      let entry : IterationSync :=
        { sync with currentIteration, iterationStates := tabulate sync.iterationStates [1, 2] }
      k { m with
        ops := tabulate m.ops [0, 1, 2]
        iterationSync := fun name => if name = "a" then entry else m.iterationSync name
        activeIterationId := tabulate m.activeIterationId ["a"]
        tasks := tabulate m.tasks [0, 1, 2] })
    [0, 1, 2]

theorem settle_eq (m : ContinuousSnapshotManager V) (k : ContinuousSnapshotManager V → Bool) :
    settle m k = k m := by
  have hsync : (fun name => if name = "a" then m.iterationSync "a" else m.iterationSync name) =
      m.iterationSync := tabulate_eq m.iterationSync ["a"]
  simp only [settle, pin_eq, tabulate_eq, hsync]

end SnapshotTrace

end K2eg
