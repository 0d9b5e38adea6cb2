import K2eg.Model.EpicsData
import K2eg.Model.MsgpackEpicsConverter

/-! # The compact serializer

`MsgpackCompactSerializer` writes the leaves of a structure without their names. -/

namespace K2eg

open Msgpack (Token packArray)

/-- What `scannStructure` collects: a scalar or a scalar array. -/
inductive Leaf where
  | scalar (type : ScalarType) (value : type.Value)
  | scalarArray (elementType : ScalarType) (values : List elementType.Value)

namespace MsgpackCompactSerializer

/-- `pvd::boolean` is a character type, and a character is packed as an integer. -/
def processScalar : (type : ScalarType) → type.Value → Except Failure (List Token)
  | .pvBoolean, value => .ok [.int (Bool.toNat value)]
  | type, value => MsgpackEpicsConverter.packScalar type value

/-- An element after the conversion of `PACK_ARRAY`: the elements of an array of `pvShort` are
converted to `int8`. -/
def processElement : (type : ScalarType) → type.Value → Except Failure (List Token)
  | .pvShort, value => .ok [.int (Int8.toInt (Int16.toInt8 value))]
  | type, value => processScalar type value

def processElements (type : ScalarType) : List type.Value → Except Failure (List Token)
  | [] => .ok []
  | value :: rest => do
    let first ← processElement type value
    let others ← processElements type rest
    return first ++ others

def processScalarArray (elementType : ScalarType) (values : List elementType.Value) :
    Except Failure (List Token) := do
  let converted ← processElements elementType values
  return packArray values.length :: converted

def processLeaf : Leaf → Except Failure (List Token)
  | .scalar type value => processScalar type value
  | .scalarArray elementType values => processScalarArray elementType values

/-- The loop over the values. -/
def processLeaves : List Leaf → Except Failure (List Token)
  | [] => .ok []
  | leaf :: rest => do
    let first ← processLeaf leaf
    let others ← processLeaves rest
    return first ++ others

mutual

/-- One child of a structure; unions and union arrays are left out. -/
def scannField : PVField → Except Failure (List Leaf)
  | .scalar type value => .ok [.scalar type value]
  | .scalarArray elementType values => .ok [.scalarArray elementType values]
  | .structure fields => scannStructure fields
  | .structureArray _ elements => scannStructureArray elements
  | .union _ _ | .unionArray _ _ => .ok []

def scannStructure : List (String × PVField) → Except Failure (List Leaf)
  | [] => .ok []
  | (_, field) :: rest => do
    let first ← scannField field
    let others ← scannStructure rest
    return first ++ others

/-- The pointer to an element is followed. -/
def scannStructureArray : List (Option (List (String × PVField))) → Except Failure (List Leaf)
  | [] => .ok []
  | none :: _ => .error .undefined
  | some fields :: rest => do
    let first ← scannStructure fields
    let others ← scannStructureArray rest
    return first ++ others

end

/-- The reply id is packed before the name, where there is one. -/
def packReplyId (replyId : String) : Except Failure (List Token) :=
  if replyId = "" then .ok [] else packString replyId

/-- `serialize(message, reply_id)`. -/
def serialize (message : ChannelData PVStructure) (replyId : String) :
    Except Failure (List Token) :=
  match message.data with
  | none => .error .undefined
  | some pvStruct => do
    let values ← scannStructure pvStruct
    let header := if replyId = "" then values.length + 1 else values.length + 2
    let id ← packReplyId replyId
    let name ← packString message.pvName
    let body ← processLeaves values
    return packArray header :: id ++ name ++ body

/-- `serialize(message, serialized_message)`, which appends to an open message: the name, and an
array of the leaves. -/
def serializeInto (message : ChannelData PVStructure) : Except Failure (List Token) :=
  match message.data with
  | none => .error .undefined
  | some pvStruct => do
    let values ← scannStructure pvStruct
    let name ← packString message.pvName
    let body ← processLeaves values
    return name ++ packArray values.length :: body

end MsgpackCompactSerializer

end K2eg
