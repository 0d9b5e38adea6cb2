import K2eg.Model.SnapshotCommand

/-! # Snapshot operations

`SnapshotOpInfo` with its two kinds, `SnapshotRepeatingOpInfo` and
`BackTimedBufferedSnapshotOpInfo`. An operation decides when a submission is due and which of
Header, Data and Tail it contains, and gates the order in which they are published. -/

namespace K2eg

variable {V : Type*}

/-- `SnapshotSubmissionType`: a set of flags. -/
structure SnapshotSubmissionType where
  header : Bool
  data : Bool
  tail : Bool
  deriving DecidableEq, Repr

/-- `SnapshotSubmission`; the scheduler sets the iteration id. -/
structure SnapshotSubmission (V : Type*) where
  submissionType : SnapshotSubmissionType
  snapshotEvents : List (MonitorEvent V)
  iterationId : ℕ := 0
  deriving DecidableEq

/-- The submission has the Data flag and events to publish. -/
def SnapshotSubmission.carriesData (submission : SnapshotSubmission V) : Bool :=
  submission.submissionType.data && !submission.snapshotEvents.isEmpty

/-- `IterationSyncState`: the header promise, once made, and the count of pending data. -/
structure IterationSyncState where
  headerPromise : Option Bool := none
  dataPending : Int := 0
  deriving DecidableEq, Repr

/-- `SnapshotOpInfo`. Times are nanoseconds of the steady clock. -/
structure SnapshotOpInfo where
  cmd : RepeatingSnapshotCommand
  queueName : String
  begin : Int
  lastForcedExpire : Int
  requestToTrigger : Bool := false
  isRunning : Bool := true
  headerSent : Bool := false
  winTimeExpired : Bool := false
  iterationSyncStates : ℕ → Option IterationSyncState := fun _ => none
  futureRetrieved : Bool := false
  removalSet : Bool := false

instance : Inhabited SnapshotOpInfo :=
  ⟨{ cmd := default, queueName := "", begin := 0, lastForcedExpire := 0 }⟩

namespace SnapshotOpInfo

/-- The constructors of both kinds. -/
def ofCommand (cmd : RepeatingSnapshotCommand) (now : Int) : SnapshotOpInfo where
  cmd
  queueName := getQueueFromSnapshotName cmd.snapshotName
  begin := now
  lastForcedExpire := now

/-- `init` of both kinds. -/
def init (_ : SnapshotOpInfo) (_sanitizedPvNameList : List String) : Bool := true

/-! ## When a submission is due -/

def nanosecondsPerMsec : Int := 1000000

/-- `WorkerAsyncOperation::isTimeout`. -/
def windowTimeout (op : SnapshotOpInfo) (now : Int) : Bool × SnapshotOpInfo :=
  if now - op.begin > op.cmd.timeWindowMsec * nanosecondsPerMsec then
    (true, { op with begin := now })
  else (false, op)

/-- `SnapshotOpInfo::isTimeout`. -/
def baseTimeout (op : SnapshotOpInfo) (now : Int) : Bool × SnapshotOpInfo :=
  if !op.isRunning then (true, { op with requestToTrigger := false })
  else if op.cmd.triggered then
    if op.requestToTrigger then (true, { op with requestToTrigger := false }) else (false, op)
  else op.windowTimeout now

/-- `FAST_EXPIRE_TIME_MSEC`. -/
def defaultFastExpireTimeMsec : Int := 1000

/-- `fast_expire_time_msec`, as the constructor sets it. -/
def fastExpireTimeMsec (op : SnapshotOpInfo) : Int :=
  let window := op.cmd.timeWindowMsec
  let push := op.cmd.subPushDelayMsec
  if push > 0 then
    if push < window then push else if window > 0 then window else push
  else if window > defaultFastExpireTimeMsec then defaultFastExpireTimeMsec else window

/-- `isTimeout` of the two kinds. -/
def isTimeout (op : SnapshotOpInfo) (now : Int) : Bool × SnapshotOpInfo :=
  match op.cmd.type with
  | .unknown | .normal => op.baseTimeout now
  | .timedBuffered =>
    let (expired, op) := op.baseTimeout now
    let op := { op with winTimeExpired := expired }
    if op.cmd.triggered then (expired, op)
    else if expired ||
        decide ((now - op.lastForcedExpire).tdiv nanosecondsPerMsec ≥ op.fastExpireTimeMsec) then
      (true, { op with lastForcedExpire := now })
    else (false, op)

/-- `getData` of the two kinds, for the events that the buffers yield. -/
def getData (op : SnapshotOpInfo) (events : List (MonitorEvent V)) :
    SnapshotSubmission V × SnapshotOpInfo :=
  match op.cmd.type with
  | .unknown | .normal => (⟨⟨true, true, true⟩, events, 0⟩, op)
  | .timedBuffered =>
    let tail := op.winTimeExpired || !op.isRunning
    (⟨⟨!op.headerSent, !events.isEmpty, tail⟩, events, 0⟩, { op with headerSent := !tail })

/-! ## The gates of an iteration -/

def setGate (op : SnapshotOpInfo) (iterationId : ℕ) (gate : Option IterationSyncState) :
    SnapshotOpInfo :=
  { op with iterationSyncStates := Function.update op.iterationSyncStates iterationId gate }

def beginHeaderGate (op : SnapshotOpInfo) (iterationId : ℕ) : SnapshotOpInfo :=
  let state := (op.iterationSyncStates iterationId).getD {}
  op.setGate iterationId (some { state with headerPromise := some false })

/-- `completeHeaderGate`: a promise that is set already stays set. -/
def completeHeaderGate (op : SnapshotOpInfo) (iterationId : ℕ) : SnapshotOpInfo :=
  match op.iterationSyncStates iterationId with
  | none => op
  | some state =>
    op.setGate iterationId (some { state with
      headerPromise := state.headerPromise.map fun _ => true })

/-- `waitForHeaderGate` returns: there is no promise to wait for, or it is set. -/
def headerGateOpen (op : SnapshotOpInfo) (iterationId : ℕ) : Bool :=
  match op.iterationSyncStates iterationId with
  | none => true
  | some state => state.headerPromise != some false

def dataScheduled (op : SnapshotOpInfo) (iterationId : ℕ) : SnapshotOpInfo :=
  let state := (op.iterationSyncStates iterationId).getD {}
  op.setGate iterationId (some { state with dataPending := state.dataPending + 1 })

def dataCompleted (op : SnapshotOpInfo) (iterationId : ℕ) : SnapshotOpInfo :=
  match op.iterationSyncStates iterationId with
  | none => op
  | some state =>
    op.setGate iterationId (some { state with dataPending := state.dataPending - 1 })

/-- The wait of `waitDataDrained` is over. -/
def dataDrained (op : SnapshotOpInfo) (iterationId : ℕ) : Bool :=
  match op.iterationSyncStates iterationId with
  | none => true
  | some state => state.dataPending == 0

/-- What `waitDataDrained` does after the wait. -/
def clearGate (op : SnapshotOpInfo) (iterationId : ℕ) : SnapshotOpInfo :=
  op.setGate iterationId none

/-! ## Publishing -/

def publish (op : SnapshotOpInfo) (message : SnapshotMessage V) :
    PublishMessage (SnapshotMessage V) where
  queue := op.queueName
  reqType := "repeating-snapshot-events"
  distributionKey := op.cmd.snapshotName
  payload := message
  serType := serializationToString op.cmd.serialization

def publishHeader (op : SnapshotOpInfo) (iterationId : ℕ) : PublishMessage (SnapshotMessage V) :=
  op.publish (.header op.cmd.snapshotName iterationId)

/-- One message of `publishData`. -/
def publishData (op : SnapshotOpInfo) (iterationId : ℕ) (event : MonitorEvent V) :
    PublishMessage (SnapshotMessage V) :=
  op.publish (.data iterationId event.channelData)

def publishTail (op : SnapshotOpInfo) (iterationId : ℕ) : PublishMessage (SnapshotMessage V) :=
  op.publish (.completion 0 "" op.cmd.snapshotName iterationId)

end SnapshotOpInfo

end K2eg
