import K2eg.Model.MonitorOperation

/-! # Forced updates

Where a forced `poll` has fetched nothing, it makes a `SingleGetOperation`, and a later `poll` takes
the data of the get that is done. `MonitorOperationImpl` has such gets succeed; here they complete
in any way. -/

namespace K2eg

variable {V : Type*}

/-- The kind of a `pvac::GetEvent`. -/
inductive GetEventType where
  | fail | cancel | success
  deriving DecidableEq, Repr

/-- How a get completes. Only a success carries a structure. -/
inductive GetCompletion (V : Type*) where
  | fail (message : String)
  | cancel
  | success (value : V)

/-- `pvac::GetEvent`; its `value` may be null. -/
structure GetEvent (V : Type*) where
  event : GetEventType
  message : String := ""
  value : Option V := none

def GetCompletion.isSuccess : GetCompletion V → Bool
  | .success _ => true
  | _ => false

/-- The event of a completion. -/
def GetCompletion.event : GetCompletion V → GetEvent V
  | .fail message => { event := .fail, message }
  | .cancel => { event := .cancel }
  | .success value => { event := .success, value := some value }

/-- `SingleGetOperation`. Before the first event the kind of `evt` is not defined; it is not read
until the get is done. -/
structure SingleGetOperation (V : Type*) where
  pvName : String
  evt : GetEvent V := { event := .fail }
  isDone : Bool := false

namespace SingleGetOperation

def getDone (get : SingleGetOperation V) (event : GetEvent V) : SingleGetOperation V :=
  { get with evt := event, isDone := true }

/-- `connectEvent`: a channel that is not connected leaves the value and `is_done` alone. -/
def connectEvent (get : SingleGetOperation V) (connected : Bool) : SingleGetOperation V :=
  if connected then get
  else { get with evt := { get.evt with event := .fail, message := "Connection Error" } }

def getChannelData (get : SingleGetOperation V) : ChannelData V := ⟨get.pvName, get.evt.value⟩

/-- The last completion carried a structure. -/
def succeeded (get : SingleGetOperation V) : Bool := get.evt.value.isSome

end SingleGetOperation

/-- `MonitorOperationImpl` with its `get_op`, in the place of the one that succeeds. -/
structure ForcedMonitor (V : Type*) where
  monitor : MonitorOperationImpl V
  getOp : Option (SingleGetOperation V) := none

namespace ForcedMonitor

def onMonitor (op : ForcedMonitor V) (f : MonitorOperationImpl V → MonitorOperationImpl V) :
    ForcedMonitor V :=
  { op with monitor := f op.monitor }

/-- The event that `poll` makes of the data of a get. -/
def pushGet (op : ForcedMonitor V) (data : ChannelData V) : ForcedMonitor V :=
  op.onMonitor fun monitor => { monitor with receivedEvent := { monitor.receivedEvent with
    eventData := monitor.receivedEvent.eventData ++
      [⟨.data, "", ⟨monitor.pvName, data.data⟩⟩] } }

/-- `poll` behind `ce_mtx`. It does not ask a get that is done for its state. -/
def pollForced (op : ForcedMonitor V) (fetched : ℕ) : ForcedMonitor V :=
  if fetched = 0 ∧ op.monitor.forceUpdate = true then
    match op.getOp with
    | none => { op with getOp := some { pvName := op.monitor.pvName } }
    | some get =>
      if get.isDone then
        { (op.pushGet get.getChannelData).onMonitor fun monitor =>
            { monitor with forceUpdate := false } with getOp := none }
      else op
  else op

end ForcedMonitor

/-- What reaches an operation, and the calls on it. The queue of the monitor is the client
library's; a call of `poll` has two parts. -/
inductive MonitorStep (V : Type*) where
  | connectEvent (connected : Bool)
  | monitorEvent (event : EventType) (message : String)
  | monitorData (queue : List V)
  | forceUpdate
  | getConnectEvent (connected : Bool)
  | getDone (completion : GetCompletion V)
  | poll (elementToFetch : ℕ)
  | pollForced
  | getEventData

/-- An operation, what a call of `poll` has fetched that is between its parts, and the buffers that
`getEventData` has handed over. -/
structure MonitorRun (V : Type*) where
  op : ForcedMonitor V
  polling : Option ℕ := none
  handedOver : List (EventReceived V) := []

namespace MonitorRun

/-- The operation as it is made. -/
def start (pvName : String) : MonitorRun V where
  op := { monitor := { pvName } }

def setOp (run : MonitorRun V) (op : ForcedMonitor V) : MonitorRun V := { run with op }

/-- A step, where it is enabled: a monitor has data once it is open, and a get events once it is
made. -/
def next (run : MonitorRun V) : MonitorStep V → Option (MonitorRun V)
  | .connectEvent connected =>
    some (run.setOp (run.op.onMonitor fun monitor => monitor.connectEvent connected))
  | .monitorEvent event message =>
    some (run.setOp (run.op.onMonitor fun monitor => monitor.monitorEvent event message))
  | .monitorData queue =>
    if run.op.monitor.valid then
      some (run.setOp (run.op.onMonitor fun monitor => { monitor with queue }))
    else none
  | .forceUpdate =>
    some (run.setOp (run.op.onMonitor fun monitor => { monitor with forceUpdate := true }))
  | .getConnectEvent connected =>
    run.op.getOp.map fun get =>
      run.setOp { run.op with getOp := some (get.connectEvent connected) }
  | .getDone completion =>
    run.op.getOp.map fun get =>
      run.setOp { run.op with getOp := some (get.getDone completion.event) }
  | .poll elementToFetch =>
    match run.polling with
    | none =>
      let (fetched, monitor) := run.op.monitor.pollQueue elementToFetch
      some { run with op := { run.op with monitor }, polling := some fetched }
    | some _ => none
  | .pollForced =>
    run.polling.map fun fetched =>
      { run with op := run.op.pollForced fetched, polling := none }
  | .getEventData =>
    let (received, monitor) := run.op.monitor.getEventData
    some { run with
      op := { run.op with monitor }
      handedOver := run.handedOver ++ [received] }

end MonitorRun

end K2eg
