import K2eg.Model.JsonSerialization
import K2eg.Model.MsgpackCompactSerialization

/-! # The messages of the workers

The replies of the command workers and the messages of repeating snapshots with their serializers. A
serializer is the sequence of the pairs it writes; for Msgpack it declares their number first. -/

namespace K2eg

open Msgpack (Token packMap)

structure CommandReply where
  error : Int8
  replyId : String

/-- The message types; the PV data of a message is not null. -/
inductive WorkerMessage where
  | commandReply (reply : CommandReply)
  | snapshotCommandReply (reply : CommandReply) (pvData : ChannelData PVStructure)
  | snapshotFaultyCommandReply (reply : CommandReply) (message : String)
  | continuousSnapshotCommandReply (reply : CommandReply) (message publishingTopic : String)
  | monitorCommandReply (reply : CommandReply) (message : String)
  | repeatingSnapshotHeader (snapshotName : String) (timestamp iterationIndex : Int64)
  | repeatingSnapshotData (timestamp iterationIndex : Int64) (pvData : ChannelData PVStructure)
  | repeatingSnapshotCompletion (error : Int32) (errorMessage snapshotName : String)
      (timestamp iterationIndex : Int64)

/-- One step of a serializer: a key with a value, or the PV data by its own serializer. -/
inductive MessagePair where
  | int (key : String) (value : Int)
  | text (key : String) (value : String)
  | pvData (data : ChannelData PVStructure)

/-- A text that is written only where it is not empty. -/
def optionalText (key text : String) : List MessagePair :=
  if text = "" then [] else [.text key text]

/-- The place of an optional text in the declared size of a map. -/
def optionalSize (text : String) : ℕ := if text = "" then 0 else 1

namespace CommandReply

/-- `serializeJson`, `serializeMsgpack` and `serializeMsgpackCompact` of the base reply. -/
def pairs (reply : CommandReply) : List MessagePair :=
  [.int "error" reply.error.toInt, .text keyReplyId reply.replyId]

end CommandReply

namespace WorkerMessage

/-- `serializeJson`: the assignments to the object. -/
def serializeJson : WorkerMessage → List MessagePair
  | commandReply reply => reply.pairs
  | snapshotCommandReply reply data => reply.pairs ++ [.pvData data]
  | snapshotFaultyCommandReply reply message => reply.pairs ++ optionalText "message" message
  | continuousSnapshotCommandReply reply message topic =>
    reply.pairs ++ optionalText "message" message ++ optionalText "publishing_topic" topic
  | monitorCommandReply reply message => reply.pairs ++ optionalText "message" message
  | repeatingSnapshotHeader name timestamp iteration =>
    [.int "message_type" 0, .int "iter_index" iteration.toInt, .text "snapshot_name" name,
      .int "timestamp" timestamp.toInt]
  | repeatingSnapshotData timestamp iteration data =>
    [.int "message_type" 1, .int "iter_index" iteration.toInt, .int "timestamp" timestamp.toInt,
      .pvData data]
  | repeatingSnapshotCompletion error message name timestamp iteration =>
    [.int "message_type" 2, .int "error" error.toInt, .text "error_message" message,
      .int "iter_index" iteration.toInt, .int "timestamp" timestamp.toInt,
      .text "snapshot_name" name]

/-- `serializeMsgpack`: the declared size of the map, and the pairs. -/
def serializeMsgpack : WorkerMessage → ℕ × List MessagePair
  | commandReply reply => (2, reply.pairs)
  | snapshotCommandReply reply data => (3, reply.pairs ++ [.pvData data])
  | snapshotFaultyCommandReply reply message =>
    (optionalSize message + 2, reply.pairs ++ optionalText "message" message)
  | continuousSnapshotCommandReply reply message topic =>
    (optionalSize message + optionalSize topic + 2,
      reply.pairs ++ optionalText "message" message ++ optionalText "publishing_topic" topic)
  | monitorCommandReply reply message =>
    (optionalSize message + 2, reply.pairs ++ optionalText "message" message)
  | repeatingSnapshotHeader name timestamp iteration =>
    (4, [.int "message_type" 0, .text "snapshot_name" name, .int "timestamp" timestamp.toInt,
      .int "iter_index" iteration.toInt])
  | repeatingSnapshotData timestamp iteration data =>
    (4, [.int "message_type" 1, .int "timestamp" timestamp.toInt,
      .int "iter_index" iteration.toInt, .pvData data])
  | repeatingSnapshotCompletion error message name timestamp iteration =>
    (if message = "" then 5 else 6,
      [.int "message_type" 2, .int "error" error.toInt] ++ optionalText "error_message" message ++
        [.int "iter_index" iteration.toInt, .int "timestamp" timestamp.toInt,
          .text "snapshot_name" name])

/-- `serializeMsgpackCompact`. A continuous snapshot declares a size without its topic; a monitor
reply has no overload of its own, so that of `CommandReply` writes it. The messages of repeating
snapshots have none. -/
def serializeMsgpackCompact : WorkerMessage → Option (ℕ × List MessagePair)
  | commandReply reply => some (2, reply.pairs)
  | snapshotCommandReply reply data => some (3, reply.pairs ++ [.pvData data])
  | snapshotFaultyCommandReply reply message =>
    some (optionalSize message + 2, reply.pairs ++ optionalText "message" message)
  | continuousSnapshotCommandReply reply message topic =>
    some (optionalSize message + 2,
      reply.pairs ++ optionalText "message" message ++ optionalText "publishing_topic" topic)
  | monitorCommandReply reply _ => some (2, reply.pairs)
  | repeatingSnapshotHeader _ _ _ | repeatingSnapshotData _ _ _
  | repeatingSnapshotCompletion _ _ _ _ _ => none

end WorkerMessage

/-- Packing of one pair; `packPVData` is the serializer of the PV data. -/
def packPair (packPVData : ChannelData PVStructure → Except Failure (List Token)) :
    MessagePair → Except Failure (List Token)
  | .int key value => .ok [.str key, .int value]
  | .text key value => do
    let text ← packString value
    return .str key :: text
  | .pvData data => packPVData data

def packPairs (packPVData : ChannelData PVStructure → Except Failure (List Token)) :
    List MessagePair → Except Failure (List Token)
  | [] => .ok []
  | pair :: rest => do
    let first ← packPair packPVData pair
    let others ← packPairs packPVData rest
    return first ++ others

def packMessage (packPVData : ChannelData PVStructure → Except Failure (List Token))
    (message : ℕ × List MessagePair) : Except Failure (List Token) := do
  let pairs ← packPairs packPVData message.2
  return packMap message.1 :: pairs

def assignPair (jsonObject : JsonObject) : MessagePair → Except Failure JsonObject
  | .int key value => .ok (Json.set key (.int value) jsonObject)
  | .text key value => .ok (Json.set key (.string value) jsonObject)
  | .pvData data => JsonSerializer.serializeInto data jsonObject

def assignPairs (jsonObject : JsonObject) : List MessagePair → Except Failure JsonObject
  | [] => .ok jsonObject
  | pair :: rest => do
    let next ← assignPair jsonObject pair
    assignPairs next rest

/-- `SerializedMessage` -/
inductive SerializedMessage where
  | json (object : JsonObject)
  | msgpack (tokens : List Token)

/-- `serialize(message, type)`; the null pointer is `none`. -/
def WorkerMessage.serialize (message : WorkerMessage) :
    SerializationType → Except Failure (Option SerializedMessage)
  | .unknown => .ok none
  | .json => do
    let object ← assignPairs [] message.serializeJson
    return some (.json object)
  | .msgpack => do
    let tokens ← packMessage MsgPackSerializer.serializeInto message.serializeMsgpack
    return some (.msgpack tokens)
  | .msgpackCompact =>
    match message.serializeMsgpackCompact with
    | none => .ok none
    | some pairs => do
      let tokens ← packMessage MsgpackCompactSerializer.serializeInto pairs
      return some (.msgpack tokens)

end K2eg
