import K2eg.Model.IterationSynchronizer
import K2eg.Model.SnapshotOpInfo

/-! # Submission tasks

`SnapshotSubmissionTask::operator()`, cut at the steps that other threads can see. -/

namespace K2eg

variable {V : Type*}

/-- What a submission task does next. -/
inductive TaskPhase (V : Type*) where
  /-- in the queue of the submitting pool -/
  | queued
  /-- taken by a thread, before the `TaskGuard` -/
  | starting
  | publishingHeader
  | completingHeader
  | waitingHeader
  | publishingData (events : List (MonitorEvent V))
  | completingData
  | waitingDrain
  | publishingTail
  | markingTail
  /-- before the first block of `removeSnapshot` -/
  | notifyingRemoval
  /-- before the second block of `removeSnapshot` -/
  | erasing
  | settingPromise
  /-- before `finishTask` in the destructor of the `TaskGuard` -/
  | finishing
  /-- `finishTask` has decided to release the iteration -/
  | releasing
  | done (released : Bool)

/-- A submission task with its place in `operator()`. -/
structure SubmissionTask (V : Type*) where
  submission : SnapshotSubmission V
  lastSubmission : Bool
  phase : TaskPhase V

namespace SubmissionTask

def iterationId (task : SubmissionTask V) : ℕ := task.submission.iterationId

/-- From the block of the Data flag on. -/
def fromTail (task : SubmissionTask V) : TaskPhase V :=
  if task.submission.submissionType.tail then .waitingDrain else .finishing

def fromData (task : SubmissionTask V) : TaskPhase V :=
  if task.submission.carriesData then .waitingHeader else task.fromTail

def fromHeader (task : SubmissionTask V) : TaskPhase V :=
  if task.submission.submissionType.header then .publishingHeader else task.fromData

end SubmissionTask

/-- The outcome of a step: the operation, the entries of its name in the synchronizer, the
next phase and the message that was pushed. -/
structure TaskOutcome (V : Type*) where
  op : SnapshotOpInfo
  sync : IterationSync
  phase : TaskPhase V
  message : Option (PublishMessage (SnapshotMessage V)) := none

/-- One step of `SnapshotSubmissionTask::operator()`; `none` while the task waits. -/
def SubmissionTask.step (op : SnapshotOpInfo) (sync : IterationSync) (task : SubmissionTask V) :
    Option (TaskOutcome V) :=
  let iteration := task.iterationId
  match task.phase with
  | .queued => none
  | .starting =>
    if iteration = 0 then some { op, sync, phase := .done false }
    else some { op, sync := sync.startTask iteration, phase := task.fromHeader }
  | .publishingHeader =>
    some { op, sync, phase := .completingHeader, message := some (op.publishHeader iteration) }
  | .completingHeader =>
    some { op := op.completeHeaderGate iteration, sync, phase := task.fromData }
  | .waitingHeader =>
    if op.headerGateOpen iteration then
      some { op, sync, phase := .publishingData task.submission.snapshotEvents }
    else none
  | .publishingData [] => some { op, sync, phase := .completingData }
  | .publishingData (event :: rest) =>
    some { op, sync, phase := .publishingData rest
           message := some (op.publishData iteration event) }
  | .completingData =>
    some { op := op.dataCompleted iteration, sync, phase := task.fromTail }
  | .waitingDrain =>
    if op.dataDrained iteration then
      some { op := op.clearGate iteration, sync, phase := .publishingTail }
    else none
  | .publishingTail =>
    some { op, sync, phase := .markingTail, message := some (op.publishTail iteration) }
  | .markingTail =>
    some { op, sync := sync.markTailProcessed iteration
           phase := if task.lastSubmission then .notifyingRemoval else .finishing }
  | .notifyingRemoval => some { op, sync, phase := .erasing }
  | .erasing => some { op, sync := sync.removeSnapshot, phase := .settingPromise }
  | .settingPromise => some { op := { op with removalSet := true }, sync, phase := .finishing }
  | .finishing =>
    let (release, sync) := sync.finishTask iteration
    some { op, sync, phase := if release then .releasing else .done false }
  | .releasing => some { op, sync := sync.releaseLock iteration, phase := .done true }
  | .done _ => none

end K2eg
