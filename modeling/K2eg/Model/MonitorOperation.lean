import K2eg.Model.EpicsData
import Mathlib.Data.Nat.Notation

/-! # Monitor operations

A monitor operation buffers the events of its EPICS monitor until `getEventData` hands the
buffer over. The monitor of a CA channel combines two requests. -/

namespace K2eg

variable {V : Type*}

/-- The number of events that `poll` reports. -/
def EventReceived.size (received : EventReceived V) : ℕ :=
  received.eventData.length + received.eventCancel.length + received.eventDisconnect.length +
    received.eventFail.length + received.eventTimeout.length

/-- `MonitorOperationImpl`: `queue` is what the monitor `mon` still holds, `valid` whether it
has been opened. A forced get is `some none` until it is done. -/
structure MonitorOperationImpl (V : Type*) where
  pvName : String
  requestedFields : List String := []
  valid : Bool := false
  queue : List V := []
  receivedEvent : EventReceived V := {}
  getOp : Option (Option V) := none
  forceUpdate : Bool := false

namespace MonitorOperationImpl

def dataEvent (op : MonitorOperationImpl V) (value : V) : MonitorEvent V :=
  ⟨.data, "", ⟨op.pvName, some value⟩⟩

def pushData (op : MonitorOperationImpl V) (values : List V) : MonitorOperationImpl V :=
  { op with receivedEvent := { op.receivedEvent with
      eventData := op.receivedEvent.eventData ++ values.map op.dataEvent } }

/-- `poll`, the part under `ce_mtx`: up to `elementToFetch` events of the queue. -/
def pollQueue (op : MonitorOperationImpl V) (elementToFetch : ℕ) :
    ℕ × MonitorOperationImpl V :=
  let fetched := op.queue.take elementToFetch
  (fetched.length, { op.pushData fetched with queue := op.queue.drop elementToFetch })

/-- `poll`, the rest: when nothing was fetched, a forced update goes through a get. -/
def pollForced (op : MonitorOperationImpl V) (fetched : ℕ) : ℕ × MonitorOperationImpl V :=
  let op :=
    if fetched = 0 ∧ op.forceUpdate = true then
      match op.getOp with
      | none => { op with getOp := some none }
      | some none => op
      | some (some value) => { op.pushData [value] with getOp := none, forceUpdate := false }
    else op
  (op.receivedEvent.size, op)

/-- `connectEvent`. -/
def connectEvent (op : MonitorOperationImpl V) (connected : Bool) : MonitorOperationImpl V :=
  if connected then { op with valid := true, queue := [] }
  else { op with receivedEvent := { op.receivedEvent with
    eventFail := op.receivedEvent.eventFail ++
      [⟨.fail, "PV is not reachable", ⟨op.pvName, none⟩⟩] } }

/-- `monitorEvent`. The initializers of the pushed events put the PV name in `message` and
the text of the event in the PV name of the channel data. -/
def monitorEvent (op : MonitorOperationImpl V) (event : EventType) (message : String) :
    MonitorOperationImpl V :=
  match event with
  | .fail => { op with receivedEvent := { op.receivedEvent with
      eventFail := op.receivedEvent.eventFail ++ [⟨.fail, op.pvName, ⟨message, none⟩⟩] } }
  | .cancel =>
    if op.valid then { op with receivedEvent := { op.receivedEvent with
      eventCancel := op.receivedEvent.eventCancel ++ [⟨.cancel, op.pvName, ⟨message, none⟩⟩] } }
    else op
  | .disconnec => { op with receivedEvent := { op.receivedEvent with
      eventDisconnect := op.receivedEvent.eventDisconnect ++
        [⟨.disconnec, op.pvName, ⟨message, none⟩⟩] } }
  | .data | .timeout => op

def getEventData (op : MonitorOperationImpl V) : EventReceived V × MonitorOperationImpl V :=
  (op.receivedEvent, { op with receivedEvent := {} })

def hasData (op : MonitorOperationImpl V) : Bool := !op.receivedEvent.eventData.isEmpty

def hasEvents (op : MonitorOperationImpl V) : Bool := op.receivedEvent.size != 0

end MonitorOperationImpl

/-- `PVStructureMerger::mergeStructureAndValue` of two structures with their fields. -/
abbrev StructureMerger (V : Type*) := V × List String → V × List String → V

/-- `CombinedMonitorOperation`. -/
structure CombinedMonitorOperation (V : Type*) where
  principal : MonitorOperationImpl V
  additional : MonitorOperationImpl V
  lastAdditional : Option (MonitorEvent V) := none

namespace CombinedMonitorOperation

def hasData (op : CombinedMonitorOperation V) : Bool :=
  op.principal.hasData && (op.additional.hasData || op.lastAdditional.isSome)

def hasEvents (op : CombinedMonitorOperation V) : Bool :=
  op.principal.hasEvents && (op.additional.hasData || op.lastAdditional.isSome)

/-- The last additional event after the additional data that is there has been taken. -/
def refreshAdditional (op : CombinedMonitorOperation V) : CombinedMonitorOperation V :=
  if op.additional.hasData then
    let (received, additional) := op.additional.getEventData
    { op with additional, lastAdditional := received.eventData.getLast? }
  else op

@[simp] theorem refreshAdditional_principal (op : CombinedMonitorOperation V) :
    op.refreshAdditional.principal = op.principal := by
  rw [refreshAdditional]
  split <;> rfl

/-- The structure that is published for a principal event; the merger reads both structures. -/
def mergedData (merge : StructureMerger V) (op : CombinedMonitorOperation V)
    (event : MonitorEvent V) : Option V :=
  match event.channelData.data, op.lastAdditional.bind (·.channelData.data) with
  | some value, some added =>
    some (merge (value, op.principal.requestedFields) (added, op.additional.requestedFields))
  | _, _ => none

/-- `CombinedMonitorOperation::getEventData`: every principal event, merged with the last
additional one. -/
def getEventData (merge : StructureMerger V) (op : CombinedMonitorOperation V) :
    EventReceived V × CombinedMonitorOperation V :=
  if !op.principal.hasEvents && (!op.additional.hasData && op.lastAdditional.isNone) then
    ({}, op)
  else
    let (received, principal) := op.principal.getEventData
    let op := refreshAdditional { op with principal }
    ({ eventCancel := received.eventCancel
       eventDisconnect := received.eventDisconnect
       eventFail := received.eventFail
       eventData := received.eventData.map fun event =>
        ⟨event.type, "", ⟨event.channelData.pvName, op.mergedData merge event⟩⟩ }, op)

end CombinedMonitorOperation

/-- The monitor operation of a channel: combined for a CA channel. -/
inductive MonitorOperation (V : Type*) where
  | impl (op : MonitorOperationImpl V)
  | combined (op : CombinedMonitorOperation V)

/-- Where a call of `poll` stands; the parts between the locks are steps of their own. -/
inductive PollStage where
  | principalQueue
  | principalForced (fetched : ℕ)
  | additionalQueue
  | additionalForced (fetched : ℕ)
  deriving DecidableEq, Repr

namespace MonitorOperation

def principal : MonitorOperation V → MonitorOperationImpl V
  | .impl op => op
  | .combined op => op.principal

/-- Change the principal request. -/
def onPrincipal (f : MonitorOperationImpl V → MonitorOperationImpl V) :
    MonitorOperation V → MonitorOperation V
  | .impl op => .impl (f op)
  | .combined op => .combined { op with principal := f op.principal }

/-- Change the additional request, if there is one. -/
def onAdditional (f : MonitorOperationImpl V → MonitorOperationImpl V) :
    MonitorOperation V → MonitorOperation V
  | .impl op => .impl op
  | .combined op => .combined { op with additional := f op.additional }

def forceUpdate (op : MonitorOperation V) : MonitorOperation V :=
  (op.onPrincipal fun request => { request with forceUpdate := true }).onAdditional
    fun request => { request with forceUpdate := true }

/-- One part of `poll`, and the part that follows. -/
def pollStep (elementToFetch : ℕ) : PollStage → MonitorOperation V →
    Option PollStage × MonitorOperation V
  | .principalQueue, op =>
    (some (.principalForced (op.principal.pollQueue elementToFetch).1),
      op.onPrincipal fun request => (request.pollQueue elementToFetch).2)
  | .principalForced fetched, op =>
    (match op with
      | .impl _ => none
      | .combined _ => some .additionalQueue,
      op.onPrincipal fun request => (request.pollForced fetched).2)
  | .additionalQueue, op =>
    (match op with
      | .impl _ => none
      | .combined op => some (.additionalForced (op.additional.pollQueue elementToFetch).1),
      op.onAdditional fun request => (request.pollQueue elementToFetch).2)
  | .additionalForced fetched, op =>
    (none, op.onAdditional fun request => (request.pollForced fetched).2)

def hasData : MonitorOperation V → Bool
  | .impl op => op.hasData
  | .combined op => op.hasData

def hasEvents : MonitorOperation V → Bool
  | .impl op => op.hasEvents
  | .combined op => op.hasEvents

def getEventData (merge : StructureMerger V) :
    MonitorOperation V → EventReceived V × MonitorOperation V
  | .impl op => (op.getEventData.1, .impl op.getEventData.2)
  | .combined op => ((op.getEventData merge).1, .combined (op.getEventData merge).2)

end MonitorOperation

/-- `EpicsChannel::monitor`: a CA channel requests the additional fields on their own. -/
def epicsChannelMonitor (provider pvName : String) : MonitorOperation V :=
  if provider = "ca" then
    .combined {
      principal := { pvName, requestedFields := ["value", "timeStamp", "alarm"] }
      additional := { pvName, requestedFields := ["display", "control", "valueAlarm"] } }
  else .impl { pvName }

end K2eg
