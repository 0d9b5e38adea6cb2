import K2eg.Model.MonitorOperation

/-! # One monitor operation, two kinds of consumers

`getMonitorOp` hands the operation of a monitored channel to the snapshot commands, so the
monitor task of the channel and any number of snapshots poll it and take its events. -/

namespace K2eg

variable {V : Type*}

/-- A value with the number of its arrival in the monitor queue; the result of a get and the
values of the additional request have none. No code reads the number. -/
structure Sample (V : Type*) where
  arrival : Option ℕ
  value : V
  deriving DecidableEq

/-- Merging acts on the values; the result is the principal event. -/
def Sample.merger (merge : StructureMerger V) : StructureMerger (Sample V) :=
  fun principal additional => ⟨principal.1.arrival,
    merge (principal.1.value, principal.2) (additional.1.value, additional.2)⟩

/-- Where the monitor task stands in one call of `EpicsServiceManager::task`. -/
inductive MonitorTaskPhase (V : Type*) where
  | started
  | polling (stage : PollStage)
  | testing
  | taking
  | broadcasting (received : EventReceived V)

/-- Where `checkGetCompletion` of one snapshot command stands with this PV. -/
inductive SnapshotPhase where
  | waiting
  | polling (timedOut : Bool) (stage : PollStage)
  | testing (timedOut : Bool)
  | taking
  | processed
  deriving DecidableEq, Repr

/-- A monitored channel with the consumers of its operation. `taken`, `broadcast`,
`published` and `emptyBack` record what has happened. -/
structure SharedMonitor (V : Type*) where
  operation : MonitorOperation (Sample V)
  maxEventFromMonitorQueue : ℕ
  arrivals : ℕ := 0
  task : MonitorTaskPhase (Sample V) := .started
  snapshots : ℕ → SnapshotPhase := fun _ => .waiting
  taken : List (Sample V) := []
  broadcast : List (EventReceived (Sample V)) := []
  published : List (ℕ × ChannelData (Sample V)) := []
  emptyBack : Bool := false

/-- One step of EPICS, of the monitor task or of a snapshot. -/
inductive SharedMonitorStep (V : Type*) where
  | arrive (value : V)
  | arriveAdditional (value : V)
  | getDone (value : V)
  | getDoneAdditional (value : V)
  | connectEvent (connected : Bool)
  | connectEventAdditional (connected : Bool)
  | monitorEvent (event : EventType) (message : String)
  | monitorEventAdditional (event : EventType) (message : String)
  | taskStart (toForce : Bool)
  | taskPoll
  | taskHasEvents
  | taskGetEventData
  | taskBroadcast
  | snapshotStart (snapshot : ℕ) (timedOut : Bool)
  | snapshotPoll (snapshot : ℕ)
  | snapshotHasData (snapshot : ℕ)
  | snapshotGetEventData (snapshot : ℕ)

namespace SharedMonitor

/-- The argument of `poll` in `checkGetCompletion`, by default. -/
def snapshotElementToFetch : ℕ := 100

def setSnapshot (monitor : SharedMonitor V) (snapshot : ℕ) (phase : SnapshotPhase) :
    SharedMonitor V :=
  { monitor with snapshots := Function.update monitor.snapshots snapshot phase }

/-- What a part of `poll` takes from the monitor queue of the principal request. -/
def takenBy (monitor : SharedMonitor V) (elementToFetch : ℕ) (stage : PollStage) :
    List (Sample V) :=
  if stage = .principalQueue then monitor.operation.principal.queue.take elementToFetch else []

def poll (monitor : SharedMonitor V) (elementToFetch : ℕ) (stage : PollStage) :
    Option PollStage × SharedMonitor V :=
  let (following, operation) := monitor.operation.pollStep elementToFetch stage
  (following, { monitor with
    operation
    taken := monitor.taken ++ monitor.takenBy elementToFetch stage })

/-- `m_op->getEventData()->event_data->back()` and the reply that publishes it. -/
def snapshotTake (merge : StructureMerger V) (monitor : SharedMonitor V) (snapshot : ℕ) :
    SharedMonitor V :=
  let (received, operation) := monitor.operation.getEventData (Sample.merger merge)
  let monitor := { monitor with operation }.setSnapshot snapshot .processed
  match received.eventData.getLast? with
  | none => { monitor with emptyBack := true }
  | some event => { monitor with
      published := monitor.published ++ [(snapshot, event.channelData)] }

def next (merge : StructureMerger V) (monitor : SharedMonitor V) :
    SharedMonitorStep V → Option (SharedMonitor V)
  | .arrive value =>
    some { monitor with
      operation := monitor.operation.onPrincipal fun request =>
        { request with queue := request.queue ++ [⟨some monitor.arrivals, value⟩] }
      arrivals := monitor.arrivals + 1 }
  | .arriveAdditional value =>
    some { monitor with operation := monitor.operation.onAdditional fun request =>
      { request with queue := request.queue ++ [⟨none, value⟩] } }
  | .getDone value =>
    some { monitor with operation := monitor.operation.onPrincipal fun request =>
      { request with getOp := request.getOp.map fun _ => some ⟨none, value⟩ } }
  | .getDoneAdditional value =>
    some { monitor with operation := monitor.operation.onAdditional fun request =>
      { request with getOp := request.getOp.map fun _ => some ⟨none, value⟩ } }
  | .connectEvent connected =>
    some { monitor with operation := monitor.operation.onPrincipal fun request =>
      request.connectEvent connected }
  | .connectEventAdditional connected =>
    some { monitor with operation := monitor.operation.onAdditional fun request =>
      request.connectEvent connected }
  | .monitorEvent event message =>
    some { monitor with operation := monitor.operation.onPrincipal fun request =>
      request.monitorEvent event message }
  | .monitorEventAdditional event message =>
    some { monitor with operation := monitor.operation.onAdditional fun request =>
      request.monitorEvent event message }
  | .taskStart toForce =>
    match monitor.task with
    | .started => some { monitor with
        operation := if toForce then monitor.operation.forceUpdate else monitor.operation
        task := .polling .principalQueue }
    | _ => none
  | .taskPoll =>
    match monitor.task with
    | .polling stage =>
      let (following, monitor) := monitor.poll monitor.maxEventFromMonitorQueue stage
      some { monitor with task := following.elim .testing .polling }
    | _ => none
  | .taskHasEvents =>
    match monitor.task with
    | .testing =>
      some { monitor with task := if monitor.operation.hasEvents then .taking else .started }
    | _ => none
  | .taskGetEventData =>
    match monitor.task with
    | .taking =>
      let (received, operation) := monitor.operation.getEventData (Sample.merger merge)
      some { monitor with operation, task := .broadcasting received }
    | _ => none
  | .taskBroadcast =>
    match monitor.task with
    | .broadcasting received =>
      some { monitor with broadcast := monitor.broadcast ++ [received], task := .started }
    | _ => none
  | .snapshotStart snapshot timedOut =>
    match monitor.snapshots snapshot with
    | .waiting => some ({ monitor with
        operation := if timedOut then monitor.operation.forceUpdate
          else monitor.operation }.setSnapshot snapshot (.polling timedOut .principalQueue))
    | _ => none
  | .snapshotPoll snapshot =>
    match monitor.snapshots snapshot with
    | .polling timedOut stage =>
      let (following, monitor) := monitor.poll snapshotElementToFetch stage
      some (monitor.setSnapshot snapshot
        (following.elim (.testing timedOut) (.polling timedOut)))
    | _ => none
  | .snapshotHasData snapshot =>
    match monitor.snapshots snapshot with
    | .testing timedOut =>
      some (monitor.setSnapshot snapshot
        (if monitor.operation.hasData then .taking
          else if timedOut then .processed else .waiting))
    | _ => none
  | .snapshotGetEventData snapshot =>
    match monitor.snapshots snapshot with
    | .taking => some (monitor.snapshotTake merge snapshot)
    | _ => none

end SharedMonitor

end K2eg
