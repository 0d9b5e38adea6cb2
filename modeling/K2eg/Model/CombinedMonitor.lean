import K2eg.Model.MonitorOperation
import K2eg.Model.PVData

/-! # Joining two monitors

`CombinedMonitorOperation::getEventData` joins the events of the principal request with the last
additional event. `MonitorOperation` has an additional event there, and the merger succeed; here
the event may be missing, and the merger may fail. -/

namespace K2eg

variable {V : Type*}

/-- `PVStructureMerger::mergeStructureAndValue` of two structures with their fields. A structure may
be null, and the merger may fail. -/
abbrev FallibleMerger (V : Type*) :=
  Option V × List String → Option V × List String → Except Failure V

namespace CombinedMonitorOperation

/-- `getEventData` until the principal events are taken; `none` where it returns before. -/
def takePrincipal (op : CombinedMonitorOperation V) :
    Option (EventReceived V) × CombinedMonitorOperation V :=
  if !op.principal.hasEvents && (!op.additional.hasData && op.lastAdditional.isNone) then
    (none, op)
  else
    let (received, principal) := op.principal.getEventData
    (some received, { op with principal })

/-- The event that is published for a principal one; `last_additional_evt_received` is followed. -/
def joinEvent (merge : FallibleMerger V) (op : CombinedMonitorOperation V)
    (event : MonitorEvent V) : Except Failure (MonitorEvent V) :=
  match op.lastAdditional with
  | none => .error .undefined
  | some additional =>
    (merge (event.channelData.data, op.principal.requestedFields)
      (additional.channelData.data, op.additional.requestedFields)).map
      fun merged => ⟨event.type, "", ⟨event.channelData.pvName, some merged⟩⟩

def joinData (merge : FallibleMerger V) (op : CombinedMonitorOperation V) :
    List (MonitorEvent V) → Except Failure (List (MonitorEvent V))
  | [] => .ok []
  | event :: rest =>
    match op.joinEvent merge event with
    | .error failure => .error failure
    | .ok joined => (joinData merge op rest).map (joined :: ·)

/-- The rest of `getEventData`. The additional event is kept where the merger fails. -/
def joinEvents (merge : FallibleMerger V) (op : CombinedMonitorOperation V)
    (received : EventReceived V) : Except Failure (EventReceived V) × CombinedMonitorOperation V :=
  let op := op.refreshAdditional
  ((op.joinData merge received.eventData).map fun eventData =>
    { eventCancel := received.eventCancel
      eventDisconnect := received.eventDisconnect
      eventFail := received.eventFail
      eventData }, op)

end CombinedMonitorOperation

/-- The two requests of the operation. -/
inductive MonitorRequest where
  | principal | additional
  deriving DecidableEq, Repr

namespace CombinedMonitorOperation

def request (op : CombinedMonitorOperation V) : MonitorRequest → MonitorOperationImpl V
  | .principal => op.principal
  | .additional => op.additional

def onRequest (op : CombinedMonitorOperation V) (request : MonitorRequest)
    (f : MonitorOperationImpl V → MonitorOperationImpl V) : CombinedMonitorOperation V :=
  match request with
  | .principal => { op with principal := f op.principal }
  | .additional => { op with additional := f op.additional }

end CombinedMonitorOperation

/-- What reaches a combined operation, and the calls on it. `poll` does not hold `evt_mtx`, so its
parts come between those of `getEventData`. -/
inductive CombinedStep (V : Type*) where
  | connectEvent (request : MonitorRequest) (connected : Bool)
  | monitorEvent (request : MonitorRequest) (event : EventType) (message : String)
  | monitorData (request : MonitorRequest) (queue : List V)
  | forceUpdate
  | getDone (request : MonitorRequest) (value : V)
  | poll (elementToFetch : ℕ)
  | pollPart
  | getEventData
  | joinEvents

/-- A result of `getEventData`. `arrived` and `latest` record what the principal request had
received when its events were taken, and the latest additional data when they were joined. -/
structure JoinedResult (V : Type*) where
  arrived : EventReceived V
  latest : Option (MonitorEvent V)
  received : EventReceived V

/-- A call of `getEventData` that has taken principal events, and what had arrived then. -/
structure JoiningCall (V : Type*) where
  arrived : EventReceived V
  taken : EventReceived V

/-- An operation with the calls that are under way and the results, the last one first. In
`arrived` no event is ever taken from the requests. -/
structure CombinedRun (V : Type*) where
  op : CombinedMonitorOperation V
  arrived : CombinedMonitorOperation V
  polling : Option (ℕ × PollStage) := none
  joining : Option (JoiningCall V) := none
  results : List (JoinedResult V) := []
  crashed : Bool := false

namespace CombinedRun

/-- The operation as it is made. -/
def start (pvName : String) (principalFields additionalFields : List String) : CombinedRun V :=
  let op : CombinedMonitorOperation V :=
    { principal := { pvName, requestedFields := principalFields }
      additional := { pvName, requestedFields := additionalFields } }
  { op, arrived := op }

/-- The latest additional data. -/
def latest (run : CombinedRun V) : Option (MonitorEvent V) :=
  run.arrived.additional.receivedEvent.eventData.getLast?

def receive (run : CombinedRun V) (request : MonitorRequest)
    (f : MonitorOperationImpl V → MonitorOperationImpl V) : CombinedRun V :=
  { run with op := run.op.onRequest request f, arrived := run.arrived.onRequest request f }

/-- One part of `poll`, as in `MonitorOperation.pollStep`. -/
def pollPart (run : CombinedRun V) (elementToFetch : ℕ) : PollStage → CombinedRun V
  | .principalQueue =>
    { run.receive .principal fun request => (request.pollQueue elementToFetch).2 with
      polling := some
        (elementToFetch, .principalForced (run.op.principal.pollQueue elementToFetch).1) }
  | .principalForced fetched =>
    { run.receive .principal fun request => (request.pollForced fetched).2 with
      polling := some (elementToFetch, .additionalQueue) }
  | .additionalQueue =>
    { run.receive .additional fun request => (request.pollQueue elementToFetch).2 with
      polling := some
        (elementToFetch, .additionalForced (run.op.additional.pollQueue elementToFetch).1) }
  | .additionalForced fetched =>
    { run.receive .additional fun request => (request.pollForced fetched).2 with polling := none }

def getEventData (run : CombinedRun V) : CombinedRun V :=
  match run.op.takePrincipal with
  | (none, op) => { run with
      op, results := ⟨run.arrived.principal.receivedEvent, run.latest, {}⟩ :: run.results }
  | (some taken, op) => { run with
      op, joining := some ⟨run.arrived.principal.receivedEvent, taken⟩ }

/-- Where the merger throws, the call ends without a result. -/
def joinEvents (merge : FallibleMerger V) (run : CombinedRun V) (call : JoiningCall V) :
    CombinedRun V :=
  match run.op.joinEvents merge call.taken with
  | (.ok received, op) => { run with
      op, joining := none, results := ⟨call.arrived, run.latest, received⟩ :: run.results }
  | (.error .thrown, op) => { run with op, joining := none }
  | (.error .undefined, op) => { run with op, crashed := true }

/-- A step of an operation that has not crashed, where it is enabled: a monitor has data once it is
open, a get is done once it is made, and `evt_mtx` keeps the calls of `getEventData` apart. -/
def next (merge : FallibleMerger V) (run : CombinedRun V) (step : CombinedStep V) :
    Option (CombinedRun V) :=
  if run.crashed then none
  else match step with
    | .connectEvent request connected =>
      some (run.receive request fun monitor => monitor.connectEvent connected)
    | .monitorEvent request event message =>
      some (run.receive request fun monitor => monitor.monitorEvent event message)
    | .monitorData request queue =>
      if (run.op.request request).valid then
        some (run.receive request fun monitor => { monitor with queue })
      else none
    | .forceUpdate =>
      some ((run.receive .principal fun monitor => { monitor with forceUpdate := true }).receive
        .additional fun monitor => { monitor with forceUpdate := true })
    | .getDone request value =>
      match (run.op.request request).getOp with
      | some none =>
        some (run.receive request fun monitor => { monitor with getOp := some (some value) })
      | _ => none
    | .poll elementToFetch =>
      match run.polling with
      | none => some { run with polling := some (elementToFetch, .principalQueue) }
      | some _ => none
    | .pollPart => run.polling.map fun (elementToFetch, stage) => run.pollPart elementToFetch stage
    | .getEventData =>
      match run.joining with
      | none => some run.getEventData
      | some _ => none
    | .joinEvents => run.joining.map (run.joinEvents merge)

end CombinedRun

end K2eg
