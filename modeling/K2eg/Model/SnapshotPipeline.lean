import K2eg.Foundation.TaskPool
import K2eg.Model.SubmissionTask

/-! # The submission pipeline

The checker thread visits the running snapshots and schedules the submissions that are due; the
threads of the submitting pool publish them. -/

namespace K2eg

variable {V : Type*}

/-- Where `expirationCheckerLoop` stands. It holds `snapshot_running_mutex_` except while it
sleeps; `todo` are the snapshots that the scan has not reached. -/
inductive CheckerPhase (V : Type*) where
  | sleeping
  | scanning (now : Int) (todo : List String)
  /-- taking a stopped operation out of the maps, with the URIs that are left -/
  | removing (now : Int) (todo : List String) (op : ℕ) (submission : SnapshotSubmission V)
      (uris : List String)
  | scheduling (now : Int) (todo : List String) (op : ℕ) (submission : SnapshotSubmission V)
      (lastSubmission : Bool)
  /-- waiting in `acquireIteration` -/
  | acquiring (now : Int) (todo : List String) (op : ℕ) (submission : SnapshotSubmission V)
      (lastSubmission : Bool)

/-- The operations with the synchronizer, the submitting pool and the checker. Operations are
numbered in the order of their registration; `tasks` are the submission tasks of an operation
in the order of their scheduling and `log` the messages they have pushed. -/
structure SnapshotPipeline (V : Type*) where
  ops : ℕ → SnapshotOpInfo := fun _ => default
  opCount : ℕ := 0
  snapshotRunning : List (String × ℕ) := []
  iterationSync : String → IterationSync := fun _ => {}
  activeIterationId : String → Option ℕ := fun _ => none
  tasks : ℕ → List (SubmissionTask V) := fun _ => []
  pool : TaskPool (ℕ × ℕ) := {}
  log : ℕ → List (PublishMessage (SnapshotMessage V)) := fun _ => []
  checker : CheckerPhase V := .sleeping

namespace SnapshotPipeline

def setOp (pipeline : SnapshotPipeline V) (id : ℕ) (op : SnapshotOpInfo) : SnapshotPipeline V :=
  { pipeline with ops := Function.update pipeline.ops id op }

def setChecker (pipeline : SnapshotPipeline V) (checker : CheckerPhase V) : SnapshotPipeline V :=
  { pipeline with checker }

/-- The name under which the synchronizer knows an operation. -/
def nameOf (pipeline : SnapshotPipeline V) (id : ℕ) : String :=
  (pipeline.ops id).cmd.snapshotName

/-- `snapshot_running_.find`. -/
def findRunning (pipeline : SnapshotPipeline V) (queueName : String) : Option ℕ :=
  pipeline.snapshotRunning.lookup queueName

/-- Registering an operation; `emplace` leaves an entry that is there. -/
def register (pipeline : SnapshotPipeline V) (op : SnapshotOpInfo) : SnapshotPipeline V :=
  { pipeline with
    ops := Function.update pipeline.ops pipeline.opCount op
    opCount := pipeline.opCount + 1
    snapshotRunning :=
      if (pipeline.findRunning op.queueName).isSome then pipeline.snapshotRunning
      else pipeline.snapshotRunning ++ [(op.queueName, pipeline.opCount)] }

/-! ## The checker -/

/-- The visit of one running snapshot: nothing is due, or the submission is taken. -/
def visit (pipeline : SnapshotPipeline V) (now : Int) (todo : List String) (id : ℕ)
    (events : List (MonitorEvent V)) : SnapshotPipeline V :=
  let (due, op) := (pipeline.ops id).isTimeout now
  if due then
    let (submission, op) := op.getData events
    (pipeline.setOp id op).setChecker
      (if op.isRunning then .scheduling now todo id submission false
        else .removing now todo id submission op.cmd.pvNameList)
  else (pipeline.setOp id op).setChecker (.scanning now todo)

/-- Take a stopped operation out of `snapshot_running_`. -/
def eraseRunning (pipeline : SnapshotPipeline V) (id : ℕ) : SnapshotPipeline V :=
  { pipeline with
    snapshotRunning := pipeline.snapshotRunning.filter fun entry => entry.2 != id }

/-- Attach the iteration to the submission, set the gates and detach the task. -/
def submit (pipeline : SnapshotPipeline V) (now : Int) (todo : List String) (id : ℕ)
    (submission : SnapshotSubmission V) (lastSubmission : Bool) (iterationId : ℕ) :
    SnapshotPipeline V :=
  let op := pipeline.ops id
  let op := if submission.submissionType.header then op.beginHeaderGate iterationId else op
  let op := if submission.carriesData then op.dataScheduled iterationId else op
  let active := if submission.submissionType.header then some iterationId
    else pipeline.activeIterationId op.cmd.snapshotName
  { pipeline with
    ops := Function.update pipeline.ops id op
    activeIterationId := Function.update pipeline.activeIterationId op.cmd.snapshotName
      (if lastSubmission then none else active)
    tasks := Function.update pipeline.tasks id (pipeline.tasks id ++
      [⟨{ submission with iterationId }, lastSubmission, .queued⟩])
    pool := pipeline.pool.submit (id, (pipeline.tasks id).length)
    checker := .scanning now todo }

/-- `acquireIteration` behind its wait, and the rest of the visit. -/
def reserveAndSubmit (pipeline : SnapshotPipeline V) (now : Int) (todo : List String)
    (id : ℕ) (submission : SnapshotSubmission V) (lastSubmission : Bool) :
    SnapshotPipeline V :=
  let name := pipeline.nameOf id
  let (iterationId, sync) := (pipeline.iterationSync name).reserve
  { pipeline with iterationSync := Function.update pipeline.iterationSync name sync }.submit
    now todo id submission lastSubmission iterationId

/-- The iteration of the submission: a Header acquires the next one, and may have to wait. -/
def schedule (pipeline : SnapshotPipeline V) (now : Int) (todo : List String) (id : ℕ)
    (submission : SnapshotSubmission V) (lastSubmission : Bool) : SnapshotPipeline V :=
  let name := pipeline.nameOf id
  if submission.submissionType.header then
    let sync := (pipeline.iterationSync name).ensureCv
    let pipeline := { pipeline with
      iterationSync := Function.update pipeline.iterationSync name sync }
    if sync.iterationInProgress then
      pipeline.setChecker (.acquiring now todo id submission lastSubmission)
    else pipeline.reserveAndSubmit now todo id submission lastSubmission
  else
    pipeline.submit now todo id submission lastSubmission
      ((pipeline.activeIterationId name).getD 0)

/-! ## The submitting pool -/

/-- The outcome of a task's step, written back. -/
def applyOutcome (pipeline : SnapshotPipeline V) (id index : ℕ) (task : SubmissionTask V)
    (outcome : TaskOutcome V) : SnapshotPipeline V :=
  { pipeline with
    ops := Function.update pipeline.ops id outcome.op
    iterationSync := Function.update pipeline.iterationSync (pipeline.nameOf id) outcome.sync
    tasks := Function.update pipeline.tasks id
      ((pipeline.tasks id).set index { task with phase := outcome.phase })
    log := Function.update pipeline.log id (pipeline.log id ++ outcome.message.toList)
    pool :=
      match outcome.phase with
      | .done _ => pipeline.pool.finish (id, index)
      | _ => pipeline.pool }

/-- A thread takes a task out of the queue. -/
def takeTask (pipeline : SnapshotPipeline V) (id index : ℕ) (task : SubmissionTask V)
    (pool : TaskPool (ℕ × ℕ)) : SnapshotPipeline V :=
  { pipeline with
    pool
    tasks := Function.update pipeline.tasks id
      ((pipeline.tasks id).set index { task with phase := .starting }) }

/-- A free thread takes the first task of the queue. -/
def dequeue (threads : ℕ) (pipeline : SnapshotPipeline V) : Option (SnapshotPipeline V) :=
  (pipeline.pool.dequeue threads).bind fun ((id, index), pool) =>
    ((pipeline.tasks id)[index]?).map fun task => pipeline.takeTask id index task pool

/-- A thread does the next step of its task. -/
def stepTask (pipeline : SnapshotPipeline V) (id index : ℕ) : Option (SnapshotPipeline V) :=
  ((pipeline.tasks id)[index]?).bind fun task =>
    (task.step (pipeline.ops id) (pipeline.iterationSync (pipeline.nameOf id))).map
      (pipeline.applyOutcome id index task)

end SnapshotPipeline

end K2eg
