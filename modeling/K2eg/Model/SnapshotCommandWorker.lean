import K2eg.Model.CommandWorkers
import K2eg.Model.SharedMonitor

/-! # One-shot snapshots

`SnapshotCommandWorker::submitSingleSnapshot` collects the monitor operations of the PVs, and
`checkGetCompletion` looks at them, run by run, until the time window is over. Times are
nanoseconds of the steady clock. -/

namespace K2eg

/-- The monitor operations of the snapshots. A get that has failed is done all the same, and leaves
a null structure (`none`), which `poll` puts among the events. -/
abbrev SnapshotMonitor := MonitorOperation (Option PVStructure)

/-- The merger of the CA channels; it takes null structures, and `none` is where it fails. -/
abbrev SnapshotMerger := StructureMerger (Option PVStructure)

/-- The channel data that is published for an event. -/
def ChannelData.join {V : Type*} (channelData : ChannelData (Option V)) : ChannelData V where
  pvName := channelData.pvName
  data := channelData.data.join

/-- What happens to a monitor operation between two looks: EPICS tells it something, or another
consumer of a shared operation polls it or takes its events. -/
inductive MonitorNotice where
  | arrive (additional : Bool) (value : PVStructure)
  | getDone (additional : Bool) (value : Option PVStructure)
  | connectEvent (additional connected : Bool)
  | monitorEvent (additional : Bool) (event : EventType) (message : String)
  | poll (toForce : Bool) (elementToFetch : ℕ)
  | getEventData

namespace MonitorOperation

variable {V : Type*}

/-- Change one of the two requests. -/
def onRequest (additional : Bool) (f : MonitorOperationImpl V → MonitorOperationImpl V)
    (op : MonitorOperation V) : MonitorOperation V :=
  if additional then op.onAdditional f else op.onPrincipal f

/-- The parts of `poll` that are left. -/
def pollFrom (elementToFetch : ℕ) : ℕ → PollStage → MonitorOperation V → MonitorOperation V
  | 0, _, op => op
  | parts + 1, stage, op =>
    match op.pollStep elementToFetch stage with
    | (none, op) => op
    | (some following, op) => pollFrom elementToFetch parts following op

/-- `poll`, which has at most four parts. -/
def poll (elementToFetch : ℕ) (op : MonitorOperation V) : MonitorOperation V :=
  pollFrom elementToFetch 4 .principalQueue op

def notify (merge : SnapshotMerger) (op : SnapshotMonitor) : MonitorNotice → SnapshotMonitor
  | .arrive additional value =>
    op.onRequest additional fun request => { request with queue := request.queue ++ [some value] }
  | .getDone additional value =>
    op.onRequest additional fun request =>
      { request with getOp := request.getOp.map fun _ => some value }
  | .connectEvent additional connected =>
    op.onRequest additional fun request => request.connectEvent connected
  | .monitorEvent additional event message =>
    op.onRequest additional fun request => request.monitorEvent event message
  | .poll toForce elementToFetch =>
    (if toForce then op.forceUpdate else op).poll elementToFetch
  | .getEventData => (op.getEventData merge).2

/-- The merger has thrown at one of the events of a CA channel, so that nothing is received. -/
def mergerThrows (received : EventReceived (Option PVStructure)) : SnapshotMonitor → Bool
  | .impl _ => false
  | .combined _ => received.eventData.any fun event => event.channelData.join.data.isNone

end MonitorOperation

/-- `getMonitorOp`: the operation of a channel in use, or a new one. -/
def getMonitorOp (channelMap : String → Option SnapshotMonitor)
    (pvNameUri : String) : Option SnapshotMonitor :=
  (sanitizePVName pvNameUri).map fun pv =>
    (channelMap pv.name).getD (epicsChannelMonitor (selectProvider pv.protocol) pv.name)

/-- The replies to a snapshot command. -/
inductive OneShotReply where
  | fault (pvUri : String)
  | data (pvIndex : ℕ) (pvData : ChannelData PVStructure)
  | completion

namespace OneShotReply

def isFault (pvUri : String) : OneShotReply → Bool
  | fault other => other == pvUri
  | _ => false

def isData (pvIndex : ℕ) : OneShotReply → Bool
  | data other _ => other == pvIndex
  | _ => false

def isCompletion : OneShotReply → Bool
  | completion => true
  | _ => false

/-- `SnapshotFaultyCommandReply`, `SnapshotCommandReply` and `CommandReply`; the element number
is not serialized. -/
def message (cmd : SnapshotCommand) : OneShotReply → WorkerMessage
  | fault pvUri => .snapshotFaultyCommandReply ⟨-1, cmd.replyId⟩
      ("PV '" ++ pvUri ++ "'name malformed")
  | data _ pvData => .snapshotCommandReply ⟨0, cmd.replyId⟩ pvData
  | completion => .commandReply ⟨1, cmd.replyId⟩

def reqType : OneShotReply → String
  | fault _ => "snapshot-operation"
  | _ => "snapshot-reply-message"

/-- The message that is pushed; nothing is, where the serializer yields null. -/
def push (cmd : SnapshotCommand) (reply : OneShotReply) :
    Except Failure (Option (PublishMessage SerializedMessage)) := do
  let serializedMessage ← (reply.message cmd).serialize cmd.serialization
  return replyPushableMessage cmd.replyTopic reply.reqType "snapshot-dist-key" serializedMessage
    (serializationToString cmd.serialization)

/-- The reply is pushed. -/
def isPushed (cmd : SnapshotCommand) (reply : OneShotReply) : Bool :=
  match reply.push cmd with
  | .ok (some _) => true
  | _ => false

end OneShotReply

/-- A look at one operation: what has happened to it since the last one, and whether another
consumer takes its events between `hasData` and `getEventData`. -/
structure SnapshotLook where
  before : List MonitorNotice := []
  stolen : Bool := false

/-- A run of `checkGetCompletion`. -/
structure SnapshotPoll where
  now : Int
  looks : ℕ → SnapshotLook := fun _ => {}

/-- `SimpleSnapshotOpInfo`, with the replies that were pushed and what has ended its task. -/
structure OneShotSnapshot where
  cmd : SnapshotCommand
  info : WorkerAsyncOperation
  monOps : List (String × SnapshotMonitor) := []
  processedIndex : ℕ → Bool := fun _ => false
  replies : List OneShotReply := []
  ended : Bool := false
  failure : Option Failure := none

namespace OneShotSnapshot

/-- A reply is pushed, or the exception of its serializer leaves the task. -/
def publish (s : OneShotSnapshot) (reply : OneShotReply) : OneShotSnapshot :=
  match reply.push s.cmd with
  | .error failure => { s with failure := some failure }
  | .ok none => s
  | .ok (some _) => { s with replies := s.replies ++ [reply] }

/-- `manageFaultyReply` -/
def manageFaultyReply (s : OneShotSnapshot) (pvUri : String) : OneShotSnapshot :=
  if s.cmd.replyTopic = "" then s else s.publish (.fault pvUri)

/-- The loop of `submitSingleSnapshot` over the URIs, in the order of the set. -/
def collect (channelMap : String → Option SnapshotMonitor) :
    List String → OneShotSnapshot → OneShotSnapshot
  | [], s => s
  | pvUri :: rest, s =>
    match getMonitorOp channelMap pvUri with
    | none => s.manageFaultyReply pvUri
    | some monOp => collect channelMap rest { s with monOps := s.monOps ++ [(pvUri, monOp)] }

/-- `submitSingleSnapshot`; the time window becomes a `uint32_t`. -/
def submit (channelMap : String → Option SnapshotMonitor) (cmd : SnapshotCommand)
    (order : List String) (now : Int) : OneShotSnapshot :=
  collect channelMap order
    { cmd, info := { timeoutMs := cmd.timeWindowMsec % 2 ^ 32, begin := now } }

/-- The operation as a look finds it: polled, with a forced update after the window. -/
def polled (merge : SnapshotMerger) (timedOut : Bool) (look : SnapshotLook)
    (monOp : SnapshotMonitor) : SnapshotMonitor :=
  let monOp := look.before.foldl (MonitorOperation.notify merge) monOp
  (if timedOut then monOp.forceUpdate else monOp).poll SharedMonitor.snapshotElementToFetch

/-- The last event is replied; without an event the end of an empty vector is read. -/
def receive (merge : SnapshotMerger) (s : OneShotSnapshot) (i : ℕ) (pvUri : String)
    (monOp : SnapshotMonitor) : OneShotSnapshot :=
  let (received, monOp) := monOp.getEventData merge
  if monOp.mergerThrows received then { s with failure := some .thrown }
  else
    match received.eventData.getLast? with
    | none => { s with failure := some .undefined }
    | some event =>
      { s.publish (.data i event.channelData.join) with
        monOps := s.monOps.set i (pvUri, monOp)
        processedIndex := Function.update s.processedIndex i true }

/-- The look at the operation of an index that is not processed. -/
def lookAt (merge : SnapshotMerger) (s : OneShotSnapshot) (timedOut : Bool) (i : ℕ)
    (look : SnapshotLook) (pvUri : String) (monOp : SnapshotMonitor) : OneShotSnapshot :=
  let monOp := polled merge timedOut look monOp
  if monOp.hasData then
    s.receive merge i pvUri (if look.stolen then (monOp.getEventData merge).2 else monOp)
  else
    { s with
      monOps := s.monOps.set i (pvUri, monOp)
      processedIndex :=
        if timedOut then Function.update s.processedIndex i true else s.processedIndex }

/-- One turn of the loop; an exception has left the loop. -/
def turn (merge : SnapshotMerger) (timedOut : Bool) (looks : ℕ → SnapshotLook)
    (s : OneShotSnapshot) (i : ℕ) : OneShotSnapshot :=
  if s.failure.isSome || s.processedIndex i then s
  else
    match s.monOps[i]? with
    | none => s
    | some (pvUri, monOp) => s.lookAt merge timedOut i (looks i) pvUri monOp

/-- The loop over the operations. -/
def sweep (merge : SnapshotMerger) (s : OneShotSnapshot) (timedOut : Bool)
    (looks : ℕ → SnapshotLook) : OneShotSnapshot :=
  (List.range s.monOps.length).foldl (turn merge timedOut looks) s

/-- `publishEndSnapshotReply`, unless an exception has left the task. -/
def finish (s : OneShotSnapshot) : OneShotSnapshot :=
  if s.failure.isSome then s else { s.publish .completion with ended := true }

/-- `checkGetCompletion` -/
def checkGetCompletion (merge : SnapshotMerger) (s : OneShotSnapshot)
    (poll : SnapshotPoll) : OneShotSnapshot :=
  if (s.info.isTimeout poll.now).1 then (s.sweep merge true poll.looks).finish
  else s.sweep merge false poll.looks

/-- The task is run again until it has ended. -/
def next (merge : SnapshotMerger) (s : OneShotSnapshot) (poll : SnapshotPoll) :
    Option OneShotSnapshot :=
  if s.ended || s.failure.isSome then none else some (s.checkGetCompletion merge poll)

end OneShotSnapshot

end K2eg
