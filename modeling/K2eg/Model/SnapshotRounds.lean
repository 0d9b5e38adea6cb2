import K2eg.Model.ContinuousSnapshotManager
import K2eg.Model.PVData

/-! # The rounds of the checker on one snapshot

Each round reads the clock once. A submission that is due is scheduled later in the round, as
`acquireIteration` may wait for the iteration before. -/

namespace K2eg

/-- What was scheduled, with its iteration and the time. -/
inductive ScheduledMessage where
  | header (iteration : ℕ) (time : Int)
  | tail (iteration : ℕ) (time : Int)
  deriving DecidableEq, Repr

/-- A round: the clock that it reads, the time at which a submission is scheduled, and the events
that the buffers yield. -/
structure CheckerRound where
  now : Int
  time : Int
  events : List (MonitorEvent PVStructure) := []

/-- A snapshot that is not stopped, and what has been scheduled for it. -/
structure SnapshotRounds where
  op : SnapshotOpInfo
  clock : Int
  iteration : ℕ := 0
  scheduled : List ScheduledMessage := []

namespace SnapshotRounds

/-- The snapshot after the command was accepted. -/
def start (cmd : RepeatingSnapshotCommand) (created : Int) : SnapshotRounds where
  op := .ofCommand cmd created
  clock := created

/-- A submission is scheduled: a Header takes a new iteration. -/
def schedule (s : SnapshotRounds) (flags : SnapshotSubmissionType) (time : Int) : SnapshotRounds :=
  let iteration := if flags.header then s.iteration + 1 else s.iteration
  { s with
    clock := time
    iteration
    scheduled := s.scheduled ++ (if flags.header then [.header iteration time] else []) ++
      (if flags.tail then [.tail iteration time] else []) }

/-- One round of `expirationCheckerLoop`. -/
def round (s : SnapshotRounds) (step : CheckerRound) : SnapshotRounds :=
  let (timeout, op) := s.op.isTimeout step.now
  if timeout then
    let (submission, op) := op.getData step.events
    { s with op }.schedule submission.submissionType step.time
  else { s with op, clock := step.now }

/-- The clock does not go back. -/
def next (s : SnapshotRounds) (step : CheckerRound) : Option SnapshotRounds :=
  if s.clock ≤ step.now ∧ step.now ≤ step.time then some (s.round step) else none

end SnapshotRounds

end K2eg
