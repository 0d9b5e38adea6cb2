import K2eg.Model.ChannelRepository
import K2eg.Model.JsonSerialization
import K2eg.Model.MsgpackCompactSerialization
import K2eg.Model.WorkerMessages

/-! # Forwarding monitor events to their topics

`MonitorCommandWorker::epicsMonitorEvent` and the map it reads. -/

namespace K2eg

variable {V Payload : Type*}

/-- `epics_serializer_factory`: `encode` is what the serializer of a registered type writes. A
serializer may fail: it follows the pointer of the event's structure, and those in it. -/
structure SerializerFactory (V Payload : Type*) where
  hasType : SerializationType → Bool
  unknown_unregistered : hasType .unknown = false
  encode : SerializationType → ChannelData V → Except Failure Payload

/-- The serializers that the three `REGISTER_SERIALIZER` register. -/
def epicsSerializerFactory : SerializerFactory PVStructure SerializedMessage where
  hasType
    | .unknown => false
    | .json | .msgpack | .msgpackCompact => true
  unknown_unregistered := rfl
  encode
    | .unknown, _ => .error .thrown
    | .json, message => (JsonSerializer.serialize message "").map .json
    | .msgpack, message => (MsgPackSerializer.serialize message "").map .msgpack
    | .msgpackCompact, message => (MsgpackCompactSerializer.serialize message "").map .msgpack

/-- `serialize`: a null message when no serializer is registered for the type. -/
def serialize (factory : SerializerFactory V Payload) (message : ChannelData V)
    (type : SerializationType) : Except Failure (Option Payload) :=
  if factory.hasType type then (factory.encode type message).map some else .ok none

/-- The type the forwarding loop casts `event_serialization` to. -/
def ChannelMonitorType.serialization (info : ChannelMonitorType) : SerializationType :=
  .ofByte info.eventSerialization

/-- `ChannelTopicMonitorInfo`: where the events of one PV are forwarded. -/
structure ChannelTopicMonitorInfo where
  active : Bool := false
  cmdVec : List ChannelMonitorType := []
  deriving DecidableEq, Repr

/-- `channel_topics_map`. Only serializations with a serializer are registered:
`processCommand` answers `No serializer found` to every other one. -/
structure ChannelTopicsMap (factory : SerializerFactory V Payload) where
  entries : List (String × ChannelTopicMonitorInfo)
  keys_nodup : (entries.map Prod.fst).Nodup
  serializable : ∀ entry ∈ entries, ∀ info ∈ entry.2.cmdVec,
    factory.hasType info.serialization = true

namespace ChannelTopicsMap

variable {factory : SerializerFactory V Payload}

/-- `channel_topics_map.find(pv_name)`. -/
def find? (topics : ChannelTopicsMap factory) (pvName : String) :
    Option ChannelTopicMonitorInfo :=
  topics.entries.lookup pvName

/-- The registrations of a PV, in the order of its `cmd_vec`. -/
def registrations (topics : ChannelTopicsMap factory) (pvName : String) :
    List ChannelMonitorType :=
  ((topics.find? pvName).map ChannelTopicMonitorInfo.cmdVec).getD []

/-- Writing the `active` flag of an entry, as both loops of `epicsMonitorEvent` do. -/
def setActive (topics : ChannelTopicsMap factory) (pvName : String) (value : Bool) :
    ChannelTopicsMap factory where
  entries := topics.entries.map fun entry =>
    if entry.1 = pvName then (entry.1, { entry.2 with active := value }) else entry
  keys_nodup := by
    have hkeys : ((topics.entries.map fun entry =>
        if entry.1 = pvName then (entry.1, { entry.2 with active := value }) else entry).map
        Prod.fst) = topics.entries.map Prod.fst := by
      rw [List.map_map]
      apply List.map_congr_left
      intro entry _
      simp only [Function.comp_apply]
      split <;> rfl
    rw [hkeys]
    exact topics.keys_nodup
  serializable := by
    intro entry hentry info hinfo
    obtain ⟨old, hold, rfl⟩ := List.mem_map.mp hentry
    split at hinfo
    · exact topics.serializable old hold info hinfo
    · exact topics.serializable old hold info hinfo

end ChannelTopicsMap

/-- `local_serialization_cache`: `none` is an absent key, `some none` a null message. -/
abbrev SerializationCache (Payload : Type*) := SerializationType → Option (Option Payload)

/-- The cache lookup of the forwarding loop: a type that is not contained is serialized
from the event at hand, a type that is contained is taken as it stands. -/
def cachedMessage (factory : SerializerFactory V Payload) (event : MonitorEvent V)
    (type : SerializationType) (cache : SerializationCache Payload) :
    Except Failure (Option Payload × SerializationCache Payload) :=
  match cache type with
  | some message => .ok (message, cache)
  | none => do
    let message ← serialize factory event.channelData type
    return (message, Function.update cache type (some message))

/-- What a part of `epicsMonitorEvent` has done: the state it leaves, the messages it has pushed, in
order, and how it failed, where it has not come to its end. -/
structure Forwarded (State Payload : Type*) where
  state : State
  pushed : List (PublishMessage Payload) := []
  failure : Option Failure := none

/-- What was pushed before comes first. -/
def Forwarded.after {State : Type*} (pushed : List (PublishMessage Payload))
    (forwarded : Forwarded State Payload) : Forwarded State Payload :=
  { forwarded with pushed := pushed ++ forwarded.pushed }

/-- The inner loop: one push for each registration of the event's PV. A null message is a null
pointer that is followed. -/
def forwardEvent (factory : SerializerFactory V Payload) (event : MonitorEvent V) :
    List ChannelMonitorType → SerializationCache Payload →
      Forwarded (SerializationCache Payload) Payload
  | [], cache => { state := cache }
  | info :: rest, cache =>
    match cachedMessage factory event info.serialization cache with
    | .error failure => { state := cache, failure := some failure }
    | .ok (message, cache) =>
      match replyPushableMessage info.channelDestination "monitor-message"
          event.channelData.pvName message (serializationToString info.serialization) with
      | none => { state := cache, failure := some .undefined }
      | some pushed => (forwardEvent factory event rest cache).after [pushed]

/-- The outer loop over `event_data`. The cache is declared before this loop, so it lives
through the whole batch. -/
def forwardEvents (factory : SerializerFactory V Payload) :
    List (MonitorEvent V) → ChannelTopicsMap factory → SerializationCache Payload →
      Forwarded (ChannelTopicsMap factory) Payload
  | [], topics, _ => { state := topics }
  | event :: rest, topics, cache =>
    match topics.find? event.channelData.pvName with
    | none => forwardEvents factory rest topics cache
    | some info =>
      let topics := topics.setActive event.channelData.pvName true
      let forwarded := forwardEvent factory event info.cmdVec cache
      match forwarded.failure with
      | some failure => { state := topics, pushed := forwarded.pushed, failure := some failure }
      | none => (forwardEvents factory rest topics forwarded.state).after forwarded.pushed

/-- The first loop of `epicsMonitorEvent`: a PV that failed to connect becomes inactive. -/
def deactivateFailed {factory : SerializerFactory V Payload}
    (events : List (MonitorEvent V)) (topics : ChannelTopicsMap factory) :
    ChannelTopicsMap factory :=
  events.foldl (fun topics event => topics.setActive event.channelData.pvName false) topics

/-- `MonitorCommandWorker::epicsMonitorEvent`: the map it leaves and the messages it pushes, in
order. It fails where a serializer fails, and where it follows a null message. -/
def epicsMonitorEvent (factory : SerializerFactory V Payload)
    (topics : ChannelTopicsMap factory) (received : EventReceived V) :
    Forwarded (ChannelTopicsMap factory) Payload :=
  if topics.entries.length = 0 then { state := topics }
  else forwardEvents factory received.eventData
    (deactivateFailed received.eventFail topics) (fun _ => none)

end K2eg
