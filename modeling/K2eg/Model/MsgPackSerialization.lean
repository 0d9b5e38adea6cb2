import K2eg.Model.EpicsData
import K2eg.Model.MsgpackEpicsConverter

/-! # The Msgpack serializer

`MsgPackSerializer` writes a structure under the name of its PV. -/

namespace K2eg

open Msgpack (Token packMap)

/-- `KEY_REPLY_ID` -/
def keyReplyId : String := "reply_id"

namespace MsgPackSerializer

/-- `serialize(message, serialized_message)`, which appends one pair to an open map. -/
def serializeInto (message : ChannelData PVStructure) : Except Failure (List Token) := do
  let name ← packString message.pvName
  match message.data with
  | none => .error .undefined
  | some pvStruct =>
    let value ← MsgpackEpicsConverter.epicsToMsgpack pvStruct
    return name ++ value

/-- `serialize(message, reply_id)`. -/
def serialize (message : ChannelData PVStructure) (replyId : String) :
    Except Failure (List Token) := do
  if replyId = "" then
    let pair ← serializeInto message
    return packMap 1 :: pair
  else
    let id ← packString replyId
    let pair ← serializeInto message
    return packMap 2 :: .str keyReplyId :: id ++ pair

end MsgPackSerializer

end K2eg
