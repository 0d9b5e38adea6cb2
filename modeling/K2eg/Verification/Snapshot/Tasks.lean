import K2eg.Foundation.Tally
import K2eg.Model.SubmissionTask
import Mathlib.Algebra.Order.Ring.Nat

/-! # Steps of a submission task

The phases of a task are ordered. What the other parties see of a task is which marks on its way
it has passed, and each kind of state is changed by few of its steps: the gates of the
operation, the entries of the synchronizer and the messages are told apart here. -/

namespace K2eg

variable {V : Type*}

/-- The place of a phase in `operator()`. -/
def TaskPhase.rank : TaskPhase V → ℕ
  | .queued => 0
  | .starting => 1
  | .publishingHeader => 2
  | .completingHeader => 3
  | .waitingHeader => 4
  | .publishingData _ => 5
  | .completingData => 6
  | .waitingDrain => 7
  | .publishingTail => 8
  | .markingTail => 9
  | .notifyingRemoval => 10
  | .erasing => 11
  | .settingPromise => 12
  | .finishing => 13
  | .releasing => 14
  | .done _ => 15

namespace SubmissionTask

def header (task : SubmissionTask V) : Bool := task.submission.submissionType.header

def tail (task : SubmissionTask V) : Bool := task.submission.submissionType.tail

def carriesData (task : SubmissionTask V) : Bool := task.submission.carriesData

def rank (task : SubmissionTask V) : ℕ := task.phase.rank

def advance (task : SubmissionTask V) (phase : TaskPhase V) : SubmissionTask V :=
  { task with phase }

section

variable (task : SubmissionTask V) (phase : TaskPhase V)

@[simp] theorem advance_iterationId : (task.advance phase).iterationId = task.iterationId := rfl
@[simp] theorem advance_header : (task.advance phase).header = task.header := rfl
@[simp] theorem advance_tail : (task.advance phase).tail = task.tail := rfl
@[simp] theorem advance_carriesData : (task.advance phase).carriesData = task.carriesData := rfl
@[simp] theorem advance_lastSubmission :
    (task.advance phase).lastSubmission = task.lastSubmission := rfl
@[simp] theorem advance_rank : (task.advance phase).rank = phase.rank := rfl
@[simp] theorem advance_phase : (task.advance phase).phase = phase := rfl

end

/-! ## Marks -/

def headerPublished (task : SubmissionTask V) : Bool := task.header && decide (2 < task.rank)

def headerCompleted (task : SubmissionTask V) : Bool := task.header && decide (3 < task.rank)

/-- Behind `waitForHeaderGate`. -/
def dataOpen (task : SubmissionTask V) : Bool := task.carriesData && decide (4 < task.rank)

/-- Scheduled with data, and before `dataCompleted`. -/
def dataPending (task : SubmissionTask V) : Bool := task.carriesData && decide (task.rank ≤ 6)

/-- Behind `waitDataDrained`. -/
def drained (task : SubmissionTask V) : Bool := task.tail && decide (7 < task.rank)

def tailPublished (task : SubmissionTask V) : Bool := task.tail && decide (8 < task.rank)

def marked (task : SubmissionTask V) : Bool := task.tail && decide (9 < task.rank)

/-- Behind `removeSnapshot`. -/
def erased (task : SubmissionTask V) : Bool := task.lastSubmission && decide (11 < task.rank)

/-- Counted by its `TaskGuard`. -/
def active (task : SubmissionTask V) : Bool := decide (1 < task.rank) && decide (task.rank ≤ 13)

/-- Between `finishTask` and `releaseLock`. -/
def releasing (task : SubmissionTask V) : Bool := decide (task.rank = 14)

def released (task : SubmissionTask V) : Bool :=
  match task.phase with
  | .done true => true
  | _ => false

def finished (task : SubmissionTask V) : Bool := decide (task.rank = 15)

/-- A task is only in the blocks that its submission enters. -/
structure Valid (task : SubmissionTask V) : Prop where
  tail_of_last : task.lastSubmission = true → task.tail = true
  header_block : task.rank = 2 ∨ task.rank = 3 → task.header = true
  data_block : 4 ≤ task.rank ∧ task.rank ≤ 6 → task.carriesData = true
  tail_block : 7 ≤ task.rank ∧ task.rank ≤ 9 → task.tail = true
  last_block : 10 ≤ task.rank ∧ task.rank ≤ 12 → task.lastSubmission = true

/-! ## The next phase -/

variable {task : SubmissionTask V}

theorem fromTail_rank : task.fromTail.rank = if task.tail then 7 else 13 := by
  rw [fromTail, tail]
  split <;> rfl

theorem fromData_rank :
    task.fromData.rank = if task.carriesData then 4 else if task.tail then 7 else 13 := by
  rw [fromData, carriesData]
  split
  · rfl
  · exact fromTail_rank

theorem fromHeader_rank :
    task.fromHeader.rank =
      if task.header then 2 else if task.carriesData then 4 else if task.tail then 7 else 13 := by
  rw [fromHeader, header]
  split
  · rfl
  · exact fromData_rank

@[simp] theorem released_done (released : Bool) :
    (task.advance (.done released)).released = released := by
  cases released <;> rfl

theorem released_of_rank (h : task.rank ≠ 15) : task.released = false := by
  unfold released
  split
  · rename_i hphase
    exact absurd (congrArg TaskPhase.rank hphase) h
  · rfl

/-- Before its `TaskGuard` a task is in no block. -/
theorem valid_of_rank_le (hrank : task.rank ≤ 1)
    (htail : task.lastSubmission = true → task.tail = true) : task.Valid :=
  ⟨htail, by omega, by omega, by omega, by omega⟩

/-! ## What a step does to the operation -/

variable {op : SnapshotOpInfo} {sync : IterationSync} {out : TaskOutcome V}

/-- The marks that the gates of an operation depend on. -/
structure GateMarks where
  headerCompleted : Bool
  dataOpen : Bool
  dataPending : Bool
  drained : Bool

def gateMarks (task : SubmissionTask V) : GateMarks where
  headerCompleted := task.headerCompleted
  dataOpen := task.dataOpen
  dataPending := task.dataPending
  drained := task.drained

/-- A task that is taken passes no mark of the gates. -/
theorem gateMarks_starting (hqueued : task.rank = 0) :
    (task.advance .starting).gateMarks = task.gateMarks := by
  simp [gateMarks, headerCompleted, dataOpen, dataPending, drained, hqueued, TaskPhase.rank]

/-- How a step changes the gates, with the mark that it passes. -/
inductive GateEffect (op : SnapshotOpInfo) (task : SubmissionTask V) (out : TaskOutcome V) :
    Prop where
  | silent (gates : out.op.iterationSyncStates = op.iterationSyncStates)
      (marks : (task.advance out.phase).gateMarks = task.gateMarks)
  | completeHeader (gates : out.op = op.completeHeaderGate task.iterationId)
      (before : task.headerCompleted = false)
      (marks : (task.advance out.phase).gateMarks =
        { task.gateMarks with headerCompleted := true })
  | openData (gates : out.op = op) (isOpen : op.headerGateOpen task.iterationId = true)
      (pending : task.dataPending = true)
      (marks : (task.advance out.phase).gateMarks = { task.gateMarks with dataOpen := true })
  | completeData (gates : out.op = op.dataCompleted task.iterationId)
      (before : task.dataPending = true)
      (marks : (task.advance out.phase).gateMarks = { task.gateMarks with dataPending := false })
  | drain (gates : out.op = op.clearGate task.iterationId)
      (isDrained : op.dataDrained task.iterationId = true)
      (marks : (task.advance out.phase).gateMarks = { task.gateMarks with drained := true })

/-- How a step changes the entries of the synchronizer, with the marks that it passes. -/
structure SyncMarks where
  active : Bool
  marked : Bool
  erased : Bool
  releasing : Bool
  released : Bool

def syncMarks (task : SubmissionTask V) : SyncMarks where
  active := task.active
  marked := task.marked
  erased := task.erased
  releasing := task.releasing
  released := task.released

inductive SyncEffect (sync : IterationSync) (task : SubmissionTask V) (out : TaskOutcome V) :
    Prop where
  | silent (entries : out.sync = sync)
      (marks : (task.advance out.phase).syncMarks = task.syncMarks)
  | start (entries : out.sync = sync.startTask task.iterationId) (before : task.active = false)
      (marks : (task.advance out.phase).syncMarks = { task.syncMarks with active := true })
  | markTail (entries : out.sync = sync.markTailProcessed task.iterationId)
      (active : task.active = true)
      (marks : (task.advance out.phase).syncMarks = { task.syncMarks with marked := true })
  | erase (entries : out.sync = sync.removeSnapshot)
      (marks : (task.advance out.phase).syncMarks = { task.syncMarks with erased := true })
  | finish (release : Bool) (entries : sync.finishTask task.iterationId = (release, out.sync))
      (before : task.active = true) (after : task.releasing = false)
      (marks : (task.advance out.phase).syncMarks =
        { task.syncMarks with active := false, releasing := release })
  | release (entries : out.sync = sync.releaseLock task.iterationId)
      (before : task.releasing = true) (after : task.released = false)
      (marks : (task.advance out.phase).syncMarks =
        { task.syncMarks with releasing := false, released := true })

theorem gateEffect (hpos : 1 ≤ task.iterationId) (hvalid : task.Valid)
    (hstep : task.step op sync = some out) :
    GateEffect op task out := by
  have hrank : task.rank = task.phase.rank := rfl
  cases hphase : task.phase <;> rw [hphase] at hrank <;> simp only [step, hphase] at hstep
  case queued | done => cases hstep
  case starting =>
    rw [if_neg (Nat.ne_of_gt hpos)] at hstep
    obtain rfl := Option.some.inj hstep
    refine .silent rfl ?_
    simp only [gateMarks, headerCompleted, dataOpen, dataPending, drained, hrank,
      fromHeader_rank, advance_rank, advance_header, advance_carriesData, advance_tail]
    cases task.header <;> cases task.carriesData <;> cases task.tail <;> rfl
  case completingHeader =>
    obtain rfl := Option.some.inj hstep
    have hheader := hvalid.header_block (.inr hrank)
    refine .completeHeader rfl (by simp [headerCompleted, hrank, TaskPhase.rank]) ?_
    simp only [gateMarks, headerCompleted, dataOpen, dataPending, drained, hrank, hheader,
      fromData_rank, advance_rank, advance_header, advance_carriesData, advance_tail]
    cases task.carriesData <;> cases task.tail <;> rfl
  case waitingHeader =>
    obtain ⟨hopen, heq⟩ := Option.ite_none_right_eq_some.mp hstep
    obtain rfl := Option.some.inj heq
    have hcarries := hvalid.data_block (by simp [hrank, TaskPhase.rank])
    refine .openData rfl hopen (by simp [dataPending, hrank, hcarries, TaskPhase.rank]) ?_
    simp [gateMarks, headerCompleted, dataOpen, dataPending, drained, hrank, hcarries,
      TaskPhase.rank]
  case completingData =>
    obtain rfl := Option.some.inj hstep
    have hcarries := hvalid.data_block (by simp [hrank, TaskPhase.rank])
    refine .completeData rfl (by simp [dataPending, hrank, hcarries, TaskPhase.rank]) ?_
    simp only [gateMarks, headerCompleted, dataOpen, dataPending, drained, hrank, hcarries,
      fromTail_rank, advance_rank, advance_header, advance_carriesData, advance_tail]
    cases task.tail <;> rfl
  case waitingDrain =>
    obtain ⟨hdrained, heq⟩ := Option.ite_none_right_eq_some.mp hstep
    obtain rfl := Option.some.inj heq
    have htail := hvalid.tail_block (by simp [hrank, TaskPhase.rank])
    refine .drain rfl hdrained ?_
    simp [gateMarks, headerCompleted, dataOpen, dataPending, drained, hrank, htail,
      TaskPhase.rank]
  case publishingData events =>
    cases events <;> obtain rfl := Option.some.inj hstep <;>
      exact .silent rfl (by
        simp [gateMarks, headerCompleted, dataOpen, dataPending, drained, hrank, TaskPhase.rank])
  case publishingHeader | publishingTail | notifyingRemoval | erasing | settingPromise |
      releasing =>
    obtain rfl := Option.some.inj hstep
    exact .silent rfl (by
      simp [gateMarks, headerCompleted, dataOpen, dataPending, drained, hrank, TaskPhase.rank])
  case markingTail =>
    obtain rfl := Option.some.inj hstep
    refine .silent rfl ?_
    simp only [gateMarks, headerCompleted, dataOpen, dataPending, drained, hrank, advance_rank,
      advance_header, advance_carriesData, advance_tail]
    cases task.lastSubmission <;> rfl
  case finishing =>
    obtain rfl := Option.some.inj hstep
    refine .silent rfl ?_
    simp only [gateMarks, headerCompleted, dataOpen, dataPending, drained, hrank, advance_rank,
      advance_header, advance_carriesData, advance_tail]
    cases (sync.finishTask task.iterationId).1 <;> rfl

theorem syncEffect (hpos : 1 ≤ task.iterationId) (hvalid : task.Valid)
    (hstep : task.step op sync = some out) :
    SyncEffect sync task out := by
  have hrank : task.rank = task.phase.rank := rfl
  have hlast := hvalid.tail_of_last
  cases hphase : task.phase <;> rw [hphase] at hrank <;> simp only [step, hphase] at hstep
  case queued | done => cases hstep
  case starting =>
    rw [if_neg (Nat.ne_of_gt hpos)] at hstep
    obtain rfl := Option.some.inj hstep
    refine .start rfl (by simp [active, hrank, TaskPhase.rank]) ?_
    have hfrom : (task.advance task.fromHeader).released = false :=
      released_of_rank (by rw [advance_rank, fromHeader_rank]; split_ifs <;> omega)
    have htask : task.released = false := released_of_rank (by simp [hrank, TaskPhase.rank])
    simp only [syncMarks, hfrom, htask, active, marked, erased, releasing, hrank,
      fromHeader_rank, advance_rank, advance_tail, advance_lastSubmission]
    revert hlast
    cases task.header <;> cases task.carriesData <;> cases task.tail <;>
      cases task.lastSubmission <;> simp [TaskPhase.rank]
  case completingHeader =>
    obtain rfl := Option.some.inj hstep
    refine .silent rfl ?_
    have hfrom : (task.advance task.fromData).released = false :=
      released_of_rank (by rw [advance_rank, fromData_rank]; split_ifs <;> omega)
    have htask : task.released = false := released_of_rank (by simp [hrank, TaskPhase.rank])
    simp only [syncMarks, hfrom, htask, active, marked, erased, releasing, hrank,
      fromData_rank, advance_rank, advance_tail, advance_lastSubmission]
    revert hlast
    cases task.carriesData <;> cases task.tail <;> cases task.lastSubmission <;>
      simp [TaskPhase.rank]
  case completingData =>
    obtain rfl := Option.some.inj hstep
    refine .silent rfl ?_
    have hfrom : (task.advance task.fromTail).released = false :=
      released_of_rank (by rw [advance_rank, fromTail_rank]; split_ifs <;> omega)
    have htask : task.released = false := released_of_rank (by simp [hrank, TaskPhase.rank])
    simp only [syncMarks, hfrom, htask, active, marked, erased, releasing, hrank,
      fromTail_rank, advance_rank, advance_tail, advance_lastSubmission]
    revert hlast
    cases task.tail <;> cases task.lastSubmission <;> simp [TaskPhase.rank]
  case waitingHeader | waitingDrain =>
    obtain ⟨-, heq⟩ := Option.ite_none_right_eq_some.mp hstep
    obtain rfl := Option.some.inj heq
    exact .silent rfl (by
      simp [syncMarks, active, marked, erased, releasing, released, hrank, hphase,
        TaskPhase.rank])
  case publishingData events =>
    cases events <;> obtain rfl := Option.some.inj hstep <;>
      exact .silent rfl (by
        simp [syncMarks, active, marked, erased, releasing, released, hrank, hphase,
          TaskPhase.rank])
  case publishingHeader | publishingTail | notifyingRemoval | settingPromise =>
    obtain rfl := Option.some.inj hstep
    exact .silent rfl (by
      simp [syncMarks, active, marked, erased, releasing, released, hrank, hphase,
        TaskPhase.rank])
  case markingTail =>
    obtain rfl := Option.some.inj hstep
    have htail := hvalid.tail_block (by simp [hrank, TaskPhase.rank])
    refine .markTail rfl (by simp [active, hrank, TaskPhase.rank]) ?_
    cases hl : task.lastSubmission <;>
      simp [syncMarks, active, marked, erased, releasing, released, hrank, hphase, htail, hl,
        TaskPhase.rank]
  case erasing =>
    obtain rfl := Option.some.inj hstep
    have hlast := hvalid.last_block (by simp [hrank, TaskPhase.rank])
    exact .erase rfl (by
      simp [syncMarks, active, marked, erased, releasing, released, hrank, hphase, hlast,
        TaskPhase.rank])
  case finishing =>
    obtain rfl := Option.some.inj hstep
    refine .finish (sync.finishTask task.iterationId).1 rfl
      (by simp [active, hrank, TaskPhase.rank])
      (by simp [releasing, hrank, TaskPhase.rank]) ?_
    generalize (sync.finishTask task.iterationId).1 = release
    cases release <;>
      simp [syncMarks, active, marked, erased, releasing, released, hrank, hphase,
        TaskPhase.rank]
  case releasing =>
    obtain rfl := Option.some.inj hstep
    exact .release rfl (by simp [releasing, hrank, TaskPhase.rank])
      (released_of_rank (by simp [hrank, TaskPhase.rank])) (by
        simp [syncMarks, active, marked, erased, releasing, released, hrank,
          TaskPhase.rank])

/-- What a step leaves of the operation: all but the gates and the removal promise. -/
theorem step_op (hstep : task.step op sync = some out) :
    ∃ gates removalSet,
      out.op = { op with iterationSyncStates := gates, removalSet := removalSet } := by
  cases hphase : task.phase <;> simp only [step, hphase] at hstep
  case queued | done => cases hstep
  case starting =>
    split at hstep <;> obtain rfl := Option.some.inj hstep <;> exact ⟨_, _, rfl⟩
  case waitingHeader | waitingDrain =>
    obtain ⟨-, heq⟩ := Option.ite_none_right_eq_some.mp hstep
    obtain rfl := Option.some.inj heq
    exact ⟨_, _, rfl⟩
  case publishingData events =>
    cases events <;> obtain rfl := Option.some.inj hstep <;> exact ⟨_, _, rfl⟩
  case completingHeader =>
    obtain rfl := Option.some.inj hstep
    simp only [SnapshotOpInfo.completeHeaderGate]
    split <;> exact ⟨_, _, rfl⟩
  case completingData =>
    obtain rfl := Option.some.inj hstep
    simp only [SnapshotOpInfo.dataCompleted]
    split <;> exact ⟨_, _, rfl⟩
  all_goals
    obtain rfl := Option.some.inj hstep
    exact ⟨_, _, rfl⟩

/-- A task that can step has been taken and is not finished; it never goes back. -/
theorem step_rank (hstep : task.step op sync = some out) :
    0 < task.rank ∧ task.rank < 15 ∧ task.rank ≤ out.phase.rank ∧ out.phase.rank ≤ 15 := by
  have hrank : task.rank = task.phase.rank := rfl
  cases hphase : task.phase <;> rw [hphase] at hrank <;> simp only [step, hphase] at hstep <;>
    rw [hrank]
  case queued | done => cases hstep
  case starting =>
    split at hstep <;> obtain rfl := Option.some.inj hstep
    · simp [TaskPhase.rank]
    · simp only [fromHeader_rank]
      split_ifs <;> simp [TaskPhase.rank]
  case waitingHeader | waitingDrain =>
    obtain ⟨-, heq⟩ := Option.ite_none_right_eq_some.mp hstep
    obtain rfl := Option.some.inj heq
    simp [TaskPhase.rank]
  case publishingData events =>
    cases events <;> obtain rfl := Option.some.inj hstep <;> simp [TaskPhase.rank]
  case completingHeader =>
    obtain rfl := Option.some.inj hstep
    simp only [fromData_rank]
    split_ifs <;> simp [TaskPhase.rank]
  case completingData =>
    obtain rfl := Option.some.inj hstep
    simp only [fromTail_rank]
    split_ifs <;> simp [TaskPhase.rank]
  case markingTail | finishing =>
    obtain rfl := Option.some.inj hstep
    dsimp only
    split_ifs <;> simp [TaskPhase.rank]
  all_goals
    obtain rfl := Option.some.inj hstep
    simp [TaskPhase.rank]

theorem step_valid (hvalid : task.Valid) (hstep : task.step op sync = some out) :
    (task.advance out.phase).Valid := by
  have hrank : task.rank = task.phase.rank := rfl
  have hlast := hvalid.tail_of_last
  suffices h : (out.phase.rank = 2 ∨ out.phase.rank = 3 → task.header = true) ∧
      (4 ≤ out.phase.rank ∧ out.phase.rank ≤ 6 → task.carriesData = true) ∧
      (7 ≤ out.phase.rank ∧ out.phase.rank ≤ 9 → task.tail = true) ∧
      (10 ≤ out.phase.rank ∧ out.phase.rank ≤ 12 → task.lastSubmission = true) from
    ⟨hlast, h.1, h.2.1, h.2.2.1, h.2.2.2⟩
  have hheader := hvalid.header_block
  have hdata := hvalid.data_block
  have htail := hvalid.tail_block
  have hremoval := hvalid.last_block
  cases hphase : task.phase <;> rw [hphase] at hrank <;>
    rw [hrank] at hheader hdata htail hremoval <;> simp only [step, hphase] at hstep
  case queued | done => cases hstep
  case starting =>
    split at hstep <;> obtain rfl := Option.some.inj hstep
    · simp [TaskPhase.rank]
    · simp only [fromHeader_rank]
      split_ifs <;> simp_all
  case waitingHeader | waitingDrain =>
    obtain ⟨-, heq⟩ := Option.ite_none_right_eq_some.mp hstep
    obtain rfl := Option.some.inj heq
    simp_all [TaskPhase.rank]
  case publishingData events =>
    cases events <;> obtain rfl := Option.some.inj hstep <;> simp_all [TaskPhase.rank]
  case completingHeader =>
    obtain rfl := Option.some.inj hstep
    simp only [fromData_rank]
    split_ifs <;> simp_all
  case completingData =>
    obtain rfl := Option.some.inj hstep
    simp only [fromTail_rank]
    split_ifs <;> simp_all
  case markingTail | finishing =>
    obtain rfl := Option.some.inj hstep
    dsimp only
    split_ifs <;> simp_all [TaskPhase.rank]
  all_goals
    obtain rfl := Option.some.inj hstep
    simp_all [TaskPhase.rank]

/-- What a step publishes, with the marks that it passes. -/
inductive MessageEffect (op : SnapshotOpInfo) (task : SubmissionTask V) (out : TaskOutcome V) :
    Prop where
  | silent (message : out.message = none)
      (header : (task.advance out.phase).headerPublished = task.headerPublished)
      (tail : (task.advance out.phase).tailPublished = task.tailPublished)
  | header (message : out.message = some (op.publishHeader task.iterationId))
      (isHeader : task.header = true) (before : task.headerPublished = false)
      (after : (task.advance out.phase).headerPublished = true)
      (tail : (task.advance out.phase).tailPublished = task.tailPublished)
  | data (event : MonitorEvent V)
      (message : out.message = some (op.publishData task.iterationId event))
      (isOpen : task.dataOpen = true) (pending : task.dataPending = true)
      (header : (task.advance out.phase).headerPublished = task.headerPublished)
      (tail : (task.advance out.phase).tailPublished = task.tailPublished)
  | tail (message : out.message = some (op.publishTail task.iterationId))
      (drained : task.drained = true) (before : task.tailPublished = false)
      (header : (task.advance out.phase).headerPublished = task.headerPublished)
      (after : (task.advance out.phase).tailPublished = true)

theorem messageEffect (hpos : 1 ≤ task.iterationId) (hvalid : task.Valid)
    (hstep : task.step op sync = some out) :
    MessageEffect op task out := by
  have hrank : task.rank = task.phase.rank := rfl
  cases hphase : task.phase <;> rw [hphase] at hrank <;> simp only [step, hphase] at hstep
  case queued | done => cases hstep
  case starting =>
    rw [if_neg (Nat.ne_of_gt hpos)] at hstep
    obtain rfl := Option.some.inj hstep
    refine .silent rfl ?_ ?_ <;>
      simp only [headerPublished, tailPublished, hrank, fromHeader_rank, advance_rank,
        advance_header, advance_tail] <;>
      cases task.header <;> cases task.carriesData <;> cases task.tail <;> rfl
  case publishingHeader =>
    obtain rfl := Option.some.inj hstep
    have hheader := hvalid.header_block (.inl hrank)
    exact .header rfl hheader (by simp [headerPublished, hrank, TaskPhase.rank])
      (by simp [headerPublished, hheader, TaskPhase.rank])
      (by simp [tailPublished, hrank, TaskPhase.rank])
  case completingHeader =>
    obtain rfl := Option.some.inj hstep
    refine .silent rfl ?_ ?_ <;>
      simp only [headerPublished, tailPublished, hrank, fromData_rank, advance_rank,
        advance_header, advance_tail] <;>
      cases task.carriesData <;> cases task.tail <;> rfl
  case waitingHeader | waitingDrain =>
    obtain ⟨-, heq⟩ := Option.ite_none_right_eq_some.mp hstep
    obtain rfl := Option.some.inj heq
    exact .silent rfl (by simp [headerPublished, hrank, TaskPhase.rank])
      (by simp [tailPublished, hrank, TaskPhase.rank])
  case publishingData events =>
    have hcarries := hvalid.data_block (by simp [hrank, TaskPhase.rank])
    cases events with
    | nil =>
        obtain rfl := Option.some.inj hstep
        exact .silent rfl (by simp [headerPublished, hrank, TaskPhase.rank])
          (by simp [tailPublished, hrank, TaskPhase.rank])
    | cons event rest =>
        obtain rfl := Option.some.inj hstep
        exact .data event rfl (by simp [dataOpen, hcarries, hrank, TaskPhase.rank])
          (by simp [dataPending, hcarries, hrank, TaskPhase.rank])
          (by simp [headerPublished, hrank, TaskPhase.rank])
          (by simp [tailPublished, hrank, TaskPhase.rank])
  case completingData =>
    obtain rfl := Option.some.inj hstep
    refine .silent rfl ?_ ?_ <;>
      simp only [headerPublished, tailPublished, hrank, fromTail_rank, advance_rank,
        advance_header, advance_tail] <;>
      cases task.tail <;> rfl
  case publishingTail =>
    obtain rfl := Option.some.inj hstep
    have htail := hvalid.tail_block (by simp [hrank, TaskPhase.rank])
    exact .tail rfl (by simp [drained, htail, hrank, TaskPhase.rank])
      (by simp [tailPublished, hrank, TaskPhase.rank])
      (by simp [headerPublished, hrank, TaskPhase.rank])
      (by simp [tailPublished, htail, TaskPhase.rank])
  case markingTail | finishing =>
    obtain rfl := Option.some.inj hstep
    refine .silent rfl ?_ ?_ <;> dsimp only <;> split_ifs <;>
      simp [headerPublished, tailPublished, hrank, TaskPhase.rank]
  all_goals
    obtain rfl := Option.some.inj hstep
    exact .silent rfl (by simp [headerPublished, hrank, TaskPhase.rank])
      (by simp [tailPublished, hrank, TaskPhase.rank])

end SubmissionTask

end K2eg
