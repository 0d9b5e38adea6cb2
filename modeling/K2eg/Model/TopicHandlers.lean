import K2eg.Model.ChannelRepository
import K2eg.Model.PVName
import Mathlib.Logic.Function.Basic

/-! # The handlers of Start and Stop

`MonitorCommandWorker::handleMonitorCheckEvents` runs on the threads of the commands and of the
scheduler. It keeps a reference to the vector of its PV over several critical sections; a vector
has a number of its own here, so that a reference can outlive its key. -/

namespace K2eg

inductive MonitorHandlerAction where
  | start
  | stop
  deriving DecidableEq, Repr

structure MonitorHandlerData where
  action : MonitorHandlerAction
  monitorType : ChannelMonitorType
  deriving DecidableEq, Repr

/-- Where a call of `handleMonitorCheckEvents` stands; `cmdVec` is the reference it holds. -/
inductive HandlerPhase where
  /-- before the lookup under the lock -/
  | received
  /-- before `find_if`, without the lock -/
  | searching (cmdVec : ℕ)
  /-- Start has found nothing and is before `push_back` -/
  | pushing (cmdVec : ℕ)
  /-- before `createQueue` and `monitorChannel` -/
  | activating
  /-- Stop is before `erase`, with the position found in `seen` -/
  | erasing (cmdVec position : ℕ) (seen : List ChannelMonitorType)
  /-- before `monitorChannel` -/
  | deactivating (cmdVec : ℕ)
  /-- before the vector is found empty or not, without the lock -/
  | measuring (cmdVec : ℕ)
  /-- before the key is erased -/
  | removing
  | ended
  deriving DecidableEq

/-- A call for the PV of this name. -/
structure HandlerCall where
  event : MonitorHandlerData
  name : String
  phase : HandlerPhase
  deriving DecidableEq

/-- `channel_topics_map` with the vectors of its elements, the calls in the order of their arrival
and the calls of `monitorChannel` they have made. -/
structure TopicHandlers where
  channelTopicsMap : String → Option ℕ := fun _ => none
  cmdVecs : ℕ → List ChannelMonitorType := fun _ => []
  vecCount : ℕ := 0
  calls : List HandlerCall := []
  monitored : List (String × Bool) := []

inductive HandlerStep where
  | receive (event : MonitorHandlerData)
  | run (call : ℕ)
  deriving DecidableEq

namespace TopicHandlers

/-- The vector of a PV; empty where it has no key. -/
def registrations (handlers : TopicHandlers) (name : String) : List ChannelMonitorType :=
  match handlers.channelTopicsMap name with
  | none => []
  | some cmdVec => handlers.cmdVecs cmdVec

def setCmdVec (handlers : TopicHandlers) (cmdVec : ℕ) (entries : List ChannelMonitorType) :
    TopicHandlers :=
  { handlers with cmdVecs := Function.update handlers.cmdVecs cmdVec entries }

def monitorChannel (handlers : TopicHandlers) (pvName : String) (activate : Bool) :
    TopicHandlers :=
  { handlers with monitored := handlers.monitored ++ [(pvName, activate)] }

def setPhase (handlers : TopicHandlers) (i : ℕ) (call : HandlerCall) (phase : HandlerPhase) :
    TopicHandlers :=
  { handlers with calls := handlers.calls.set i { call with phase } }

/-- A call arrives; it returns at once where the PV name cannot be sanitized. -/
def receive (handlers : TopicHandlers) (event : MonitorHandlerData) : TopicHandlers :=
  { handlers with
    calls := handlers.calls ++ [match sanitizePVName event.monitorType.pvName with
      | none => ⟨event, "", .ended⟩
      | some pv => ⟨event, pv.name, .received⟩] }

/-- `channel_topics_map[name]`. -/
def lookup (handlers : TopicHandlers) (name : String) : ℕ × TopicHandlers :=
  match handlers.channelTopicsMap name with
  | some cmdVec => (cmdVec, handlers)
  | none => (handlers.vecCount, { handlers with
    channelTopicsMap := Function.update handlers.channelTopicsMap name (some handlers.vecCount)
    cmdVecs := Function.update handlers.cmdVecs handlers.vecCount []
    vecCount := handlers.vecCount + 1 })

/-- `find_if`: the position of the first entry with the destination of the event. -/
def find (entries : List ChannelMonitorType) (event : MonitorHandlerData) : Option ℕ :=
  entries.findIdx? fun info =>
    decide (info.channelDestination = event.monitorType.channelDestination)

/-- The next part of a call, with its new phase. -/
def advance (handlers : TopicHandlers) (call : HandlerCall) : HandlerPhase × TopicHandlers :=
  let pvName := call.event.monitorType.pvName
  match call.phase with
  | .received =>
    let (cmdVec, handlers) := handlers.lookup call.name
    (.searching cmdVec, handlers)
  | .searching cmdVec =>
    match call.event.action, find (handlers.cmdVecs cmdVec) call.event with
    | .start, none => (.pushing cmdVec, handlers)
    | .start, some _ => (.ended, handlers)
    | .stop, none => (.ended, handlers)
    | .stop, some position =>
      (.erasing cmdVec position (handlers.cmdVecs cmdVec), handlers)
  | .pushing cmdVec => (.activating,
    handlers.setCmdVec cmdVec (handlers.cmdVecs cmdVec ++ [call.event.monitorType]))
  | .activating => (.ended, handlers.monitorChannel pvName true)
  | .erasing cmdVec position _ => (.deactivating cmdVec,
    handlers.setCmdVec cmdVec ((handlers.cmdVecs cmdVec).eraseIdx position))
  | .deactivating cmdVec => (.measuring cmdVec, handlers.monitorChannel pvName false)
  | .measuring cmdVec =>
    (if (handlers.cmdVecs cmdVec).isEmpty then .removing else .ended, handlers)
  | .removing => (.ended, { handlers with
    channelTopicsMap := Function.update handlers.channelTopicsMap call.name none })
  | .ended => (.ended, handlers)

/-- One part of a call. -/
def run (handlers : TopicHandlers) (i : ℕ) (call : HandlerCall) : TopicHandlers :=
  (handlers.advance call).2.setPhase i call (handlers.advance call).1

/-- The step of a call that is under way. -/
def next (handlers : TopicHandlers) : HandlerStep → Option TopicHandlers
  | .receive event => some (handlers.receive event)
  | .run i =>
    match handlers.calls[i]? with
    | none => none
    | some call =>
      if call.phase = .ended then none
      else
        some (handlers.run i call)

/-- `~MonitorCommandWorker`: the keys in the order of the map. -/
def dispose (handlers : TopicHandlers) (keys : List String) : TopicHandlers :=
  { handlers with
    monitored := handlers.monitored ++ keys.flatMap fun key =>
      (handlers.registrations key).map fun info => (info.pvName, false) }

end TopicHandlers

end K2eg
