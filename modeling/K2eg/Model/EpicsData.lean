import Mathlib.Logic.Function.Basic

/-! # Channel data, monitor events and serialized messages -/

namespace K2eg

/-- `SerializationType`. The monitor and snapshot commands carry one of them. -/
inductive SerializationType where
  | unknown | msgpack | msgpackCompact | json
  deriving DecidableEq, Repr

/-- `static_cast<SerializationType>` of a stored byte. No serializer exists for the bytes
beyond the enumerators, so they are read as `unknown`. -/
def SerializationType.ofByte : UInt8 → SerializationType
  | 1 => .msgpack
  | 2 => .msgpackCompact
  | 3 => .json
  | _ => .unknown

/-- `serialization_to_string`: the value of the `k2eg-ser-type` header. -/
def serializationToString : SerializationType → String
  | .json => "Json"
  | .msgpack => "Msgpack"
  | .msgpackCompact => "Msgpack-Compact"
  | .unknown => "unknown"

theorem serializationToString_injective : Function.Injective serializationToString := by
  intro a b h
  cases a <;> cases b <;> first | rfl | exact absurd h (by decide)

/-- `ChannelData`; the structure pointer may be null. -/
structure ChannelData (V : Type*) where
  pvName : String
  data : Option V
  deriving DecidableEq

/-- `EventType` of a monitor event. -/
inductive EventType where
  | timeout | fail | cancel | disconnec | data
  deriving DecidableEq, Repr

structure MonitorEvent (V : Type*) where
  type : EventType
  message : String
  channelData : ChannelData V
  deriving DecidableEq

/-- `EventReceived`: what one `getEventData` hands over. -/
structure EventReceived (V : Type*) where
  eventTimeout : List (MonitorEvent V) := []
  eventData : List (MonitorEvent V) := []
  eventFail : List (MonitorEvent V) := []
  eventDisconnect : List (MonitorEvent V) := []
  eventCancel : List (MonitorEvent V) := []
  deriving DecidableEq

/-- A message given to `pushMessage`, with its `k2eg-ser-type` header. -/
structure PublishMessage (Payload : Type*) where
  queue : String
  reqType : String
  distributionKey : String
  payload : Payload
  serType : String
  deriving DecidableEq

/-- `MakeReplyPushableMessageUPtr` followed by `pushMessage`. The constructor reads
`message->data()`, so a null message is a crash (`none`). -/
def replyPushableMessage {Payload : Type*} (queue reqType distributionKey : String)
    (message : Option Payload) (serType : String) : Option (PublishMessage Payload) :=
  message.map fun payload => { queue, reqType, distributionKey, payload, serType }

end K2eg
