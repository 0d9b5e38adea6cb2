import K2eg.Foundation.Json
import K2eg.Model.EpicsData
import K2eg.Model.MsgPackSerialization
import K2eg.Model.PVData

/-! # The JSON serializer

`JsonSerializer` sets the fields of a structure in a JSON object. A union is written into the object
around its structure, under the key of the structure. -/

namespace K2eg

/-- `boost::json::object` -/
abbrev JsonObject := List (String × Json)

namespace JsonSerializer

/-- What `processScalar` sets; `pvd::boolean` is a character type, which is stored as a number. -/
def scalarJson : (type : ScalarType) → type.Value → Json
  | .pvBoolean, value => .int (Bool.toNat value)
  | .pvByte, value => .int (Int8.toInt value)
  | .pvShort, value => .int (Int16.toInt value)
  | .pvInt, value => .int (Int32.toInt value)
  | .pvLong, value => .int (Int64.toInt value)
  | .pvUByte, value => .int (UInt8.toNat value)
  | .pvUShort, value => .int (UInt16.toNat value)
  | .pvUInt, value => .int (UInt32.toNat value)
  | .pvULong, value => .int (UInt64.toNat value)
  | .pvFloat, value =>
    if Float32.isNaN value then .string "NaN" else .double (Float32.toFloat value)
  | .pvDouble, value => if Float.isNaN value then .string "NaN" else .double value
  | .pvString, value => .string value

/-- An element after the conversion of `TO_JSON_ARRAY`: the elements of an array of `pvShort` are
converted to `int8`, and a float is not compared with NaN. -/
def elementJson : (type : ScalarType) → type.Value → Json
  | .pvShort, value => .int (Int8.toInt (Int16.toInt8 value))
  | .pvFloat, value => .double (Float32.toFloat value)
  | .pvDouble, value => .double value
  | type, value => scalarJson type value

mutual

/-- `processField`: what is set in `json_object`. -/
def processField : PVField → String → JsonObject → Except Failure JsonObject
  | .scalar type value, key, jsonObject => .ok (Json.set key (scalarJson type value) jsonObject)
  | .scalarArray elementType values, key, jsonObject =>
    .ok (Json.set key (.array (values.map (elementJson elementType))) jsonObject)
  | .structure fields, key, jsonObject => do
    let (structObj, jsonObject) ← processChildren fields key [] jsonObject
    return if key = "" then jsonObject else Json.set key (.object structObj) jsonObject
  | .structureArray _ elements, key, jsonObject => do
    let arrayObj ← processElements elements
    return Json.set key (.array arrayObj) jsonObject
  | .union _ none, _, _ => .error .undefined
  | .union _ (some (_, subField)), key, jsonObject => processField subField key jsonObject
  | .unionArray _ _, _, jsonObject => .ok jsonObject

/-- The loop of `processStructure` over the children: `struct_obj` and `json_object`. -/
def processChildren : List (String × PVField) → String → JsonObject → JsonObject →
    Except Failure (JsonObject × JsonObject)
  | [], _, structObj, jsonObject => .ok (structObj, jsonObject)
  | (_, .union _ none) :: rest, key, structObj, jsonObject =>
    processChildren rest key structObj jsonObject
  | (_, .union _ (some (_, field))) :: rest, key, structObj, jsonObject => do
    let jsonObject ← processField field key jsonObject
    processChildren rest key structObj jsonObject
  | (_, .unionArray _ _) :: rest, key, structObj, jsonObject =>
    processChildren rest key structObj jsonObject
  | (name, field) :: rest, key, structObj, jsonObject => do
    let structObj ← processField field name structObj
    processChildren rest key structObj jsonObject

/-- `processStructureArray`: each element with an empty key, so that its `struct_obj` is not
stored. -/
def processElements : List (Option (List (String × PVField))) → Except Failure (List Json)
  | [] => .ok []
  | none :: _ => .error .undefined
  | some fields :: rest => do
    let (_, arrElementObject) ← processChildren fields "" [] []
    let others ← processElements rest
    return .object arrElementObject :: others

end

/-- `processStructure` -/
def processStructure (pvStruct : PVStructure) (key : String) (jsonObject : JsonObject) :
    Except Failure JsonObject :=
  processField (.structure pvStruct) key jsonObject

/-- `serialize(message, serialized_message)`, which sets the structure in an open object. -/
def serializeInto (message : ChannelData PVStructure) (jsonObject : JsonObject) :
    Except Failure JsonObject :=
  match message.data with
  | none => .error .undefined
  | some pvStruct => processStructure pvStruct message.pvName jsonObject

/-- `serialize(message, reply_id)`. -/
def serialize (message : ChannelData PVStructure) (replyId : String) :
    Except Failure JsonObject := do
  let jsonObject ← serializeInto message []
  return if replyId = "" then jsonObject else Json.set keyReplyId (.string replyId) jsonObject

end JsonSerializer

end K2eg
