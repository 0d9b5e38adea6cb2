import K2eg.Foundation.Msgpack
import K2eg.Model.PVData

/-! # Between PVs and Msgpack

`MsgpackEpicsConverter`: `epicsToMsgpack` with `packField`, and `msgpackToEpics` with
`unpackMsgpackToPVField`. -/

namespace K2eg

open Msgpack (Token Object packArray packMap unpack)

/-- `packer.pack` of a string; it throws where the length has more than 32 bits. -/
def packString (value : String) : Except Failure (List Token) :=
  if value.utf8ByteSize < 2 ^ 32 then .ok [.str value] else .error .thrown

namespace MsgpackEpicsConverter

def packScalar : (type : ScalarType) → type.Value → Except Failure (List Token)
  | .pvBoolean, value => .ok [.boolean value]
  | .pvByte, value => .ok [.int (Int8.toInt value)]
  | .pvShort, value => .ok [.int (Int16.toInt value)]
  | .pvInt, value => .ok [.int (Int32.toInt value)]
  | .pvLong, value => .ok [.int (Int64.toInt value)]
  | .pvUByte, value => .ok [.int (UInt8.toNat value)]
  | .pvUShort, value => .ok [.int (UInt16.toNat value)]
  | .pvUInt, value => .ok [.int (UInt32.toNat value)]
  | .pvULong, value => .ok [.int (UInt64.toNat value)]
  | .pvFloat, value => .ok [.float32 value]
  | .pvDouble, value => .ok [.float64 value]
  | .pvString, value => packString value

/-- An element of an array, after the conversion of `PACK_TYPED_ARRAY`: the elements of an array
of `pvShort` are converted to `uint16`. -/
def packElement : (type : ScalarType) → type.Value → Except Failure (List Token)
  | .pvShort, value => .ok [.int (UInt16.toNat (Int16.toUInt16 value))]
  | type, value => packScalar type value

def packElements (type : ScalarType) : List type.Value → Except Failure (List Token)
  | [] => .ok []
  | value :: rest => do
    let first ← packElement type value
    let others ← packElements type rest
    return first ++ others

mutual

def packField : PVField → Except Failure (List Token)
  | .scalar type value => packScalar type value
  | .scalarArray elementType values => do
    let data ← packElements elementType values
    return packArray values.length :: data
  | .structure fields => do
    let pairs ← packFields fields
    return packMap fields.length :: pairs
  | .structureArray _ elements => do
    let view ← packStructures elements
    return packArray elements.length :: view
  | .union _ selected => packUnion selected
  | .unionArray _ elements => do
    let view ← packUnions elements
    return packArray elements.length :: view

/-- The names and the values of the fields of a structure. -/
def packFields : List (String × PVField) → Except Failure (List Token)
  | [] => .ok []
  | (name, field) :: rest => do
    let key ← packString name
    let value ← packField field
    let others ← packFields rest
    return key ++ value ++ others

/-- The elements of a structure array; the pointer to an element is followed. -/
def packStructures : List (Option (List (String × PVField))) → Except Failure (List Token)
  | [] => .ok []
  | none :: _ => .error .undefined
  | some fields :: rest => do
    let pairs ← packFields fields
    let others ← packStructures rest
    return packMap fields.length :: pairs ++ others

/-- The name of the selected field, which is empty where none is selected, with its value. -/
def packUnion : Option (String × PVField) → Except Failure (List Token)
  | none => .ok [packMap 1, .str "", .nil]
  | some (name, field) => do
    let key ← packString name
    let value ← packField field
    return packMap 1 :: key ++ value

def packUnions : List (Option (Option (String × PVField))) → Except Failure (List Token)
  | [] => .ok []
  | none :: _ => .error .undefined
  | some selected :: rest => do
    let first ← packUnion selected
    let others ← packUnions rest
    return first ++ others

end

def epicsToMsgpack (pvStruct : PVStructure) : Except Failure (List Token) := do
  let pairs ← packFields pvStruct
  return packMap pvStruct.length :: pairs

/-! ## Reading -/

/-- `as<bool>`. -/
def asBool : Object → Except Failure Bool
  | .boolean value => .ok value
  | _ => .error .thrown

/-- `as<T>` for an integer type with these bounds. -/
def asInteger (lower upper : Int) : Object → Except Failure Int
  | .int value => if lower ≤ value ∧ value ≤ upper then .ok value else .error .thrown
  | _ => .error .thrown

/-- `as<float>`. -/
def asFloat : Object → Except Failure Float32
  | .float32 value => .ok value
  | .float64 value => .ok value.toFloat32
  | .int value => .ok (Float32.ofInt value)
  | _ => .error .thrown

/-- `as<double>`. -/
def asDouble : Object → Except Failure Float
  | .float32 value => .ok value.toFloat
  | .float64 value => .ok value
  | .int value => .ok (Float.ofInt value)
  | _ => .error .thrown

/-- `as<std::string>`. -/
def asString : Object → Except Failure String
  | .str value => .ok value
  | .bin value => .ok value
  | _ => .error .thrown

/-- The conversion to the type of a scalar or of an element. -/
def unpackScalar : (type : ScalarType) → Object → Except Failure type.Value
  | .pvBoolean, object => asBool object
  | .pvByte, object => Int8.ofInt <$> asInteger (-2 ^ 7) (2 ^ 7 - 1) object
  | .pvShort, object => Int16.ofInt <$> asInteger (-2 ^ 15) (2 ^ 15 - 1) object
  | .pvInt, object => Int32.ofInt <$> asInteger (-2 ^ 31) (2 ^ 31 - 1) object
  | .pvLong, object => Int64.ofInt <$> asInteger (-2 ^ 63) (2 ^ 63 - 1) object
  | .pvUByte, object => (fun value => UInt8.ofNat value.toNat) <$> asInteger 0 (2 ^ 8 - 1) object
  | .pvUShort, object =>
    (fun value => UInt16.ofNat value.toNat) <$> asInteger 0 (2 ^ 16 - 1) object
  | .pvUInt, object => (fun value => UInt32.ofNat value.toNat) <$> asInteger 0 (2 ^ 32 - 1) object
  | .pvULong, object => (fun value => UInt64.ofNat value.toNat) <$> asInteger 0 (2 ^ 64 - 1) object
  | .pvFloat, object => asFloat object
  | .pvDouble, object => asDouble object
  | .pvString, object => asString object

def unpackScalars (type : ScalarType) : List Object → Except Failure (List type.Value)
  | [] => .ok []
  | item :: rest => do
    let value ← unpackScalar type item
    let others ← unpackScalars type rest
    return value :: others

mutual

/-- A field of this type, or the null pointer (`none`). -/
def unpackMsgpackToPVField : Object → FieldType → Except Failure (Option PVField)
  | object, .scalar type => do
    let value ← unpackScalar type object
    return some (.scalar type value)
  | .array items, .scalarArray elementType => do
    let vals ← unpackScalars elementType items
    return some (.scalarArray elementType vals)
  | _, .scalarArray elementType => .ok (some (.scalarArray elementType []))
  | .map entries, .structure schema => do
    let pvStruct ← unpackEntries entries schema (FieldType.createPVStructure schema)
    return some (.structure pvStruct)
  | _, .structure schema => .ok (some (.structure (FieldType.createPVStructure schema)))
  | .array items, .structureArray schema => do
    let elements ← unpackStructures items schema
    return some (.structureArray schema elements)
  | _, .structureArray _ => .error .undefined
  | .map [(key, subObj)], .union members => do
    let fieldName ← asString key
    match members.lookup fieldName with
    | none => return none
    | some subField =>
      match ← unpackMsgpackToPVField subObj subField with
      | none => .error .undefined
      | some value => return some (.union members (some (fieldName, value)))
  | _, .union _ => .ok none
  | .array items, .unionArray members => do
    let result ← unpackUnions items members
    return some (.unionArray members result)
  | _, .unionArray _ => .error .undefined

/-- The loop over the pairs of a map. -/
def unpackEntries : List (Object × Object) → Structure → PVStructure → Except Failure PVStructure
  | [], _, pvStruct => .ok pvStruct
  | (key, val) :: rest, schema, pvStruct => do
    let key ← asString key
    match schema.lookup key with
    | none => unpackEntries rest schema pvStruct
    | some fieldDesc =>
      match ← unpackMsgpackToPVField val fieldDesc with
      | none => unpackEntries rest schema pvStruct
      | some value => unpackEntries rest schema (PVField.copyTo key value pvStruct)

/-- `msgpackToEpics` of each item. -/
def unpackStructures : List Object → Structure → Except Failure (List (Option PVStructure))
  | [], _ => .ok []
  | .map entries :: rest, schema => do
    let element ← unpackEntries entries schema (FieldType.createPVStructure schema)
    let others ← unpackStructures rest schema
    return some element :: others
  | _ :: rest, schema => do
    let others ← unpackStructures rest schema
    return some (FieldType.createPVStructure schema) :: others

/-- The loop over the entries of a union array; an entry that names no member is left out. -/
def unpackUnions :
    List Object → Structure → Except Failure (List (Option (Option (String × PVField))))
  | [], _ => .ok []
  | .map [(key, val)] :: rest, members => do
    let fname ← asString key
    match members.lookup fname with
    | none => unpackUnions rest members
    | some fdesc =>
      match ← unpackMsgpackToPVField val fdesc with
      | none => .error .undefined
      | some value =>
        let others ← unpackUnions rest members
        return some (some (fname, value)) :: others
  | _ :: rest, members => unpackUnions rest members

end

def msgpackToEpics : Object → Structure → Except Failure PVStructure
  | .map entries, schema => unpackEntries entries schema (FieldType.createPVStructure schema)
  | _, schema => .ok (FieldType.createPVStructure schema)

theorem unpackMsgpackToPVField_structure (object : Object) (schema : Structure) :
    unpackMsgpackToPVField object (.structure schema) =
      (msgpackToEpics object schema).map fun pvStruct => some (.structure pvStruct) := by
  cases object <;> rfl

/-- What is written is read with the type of what has been written. -/
def roundTrip (pvStruct : PVStructure) : Except Failure PVStructure := do
  let tokens ← epicsToMsgpack pvStruct
  match unpack tokens with
  | none => .error .thrown
  | some (object, _) => msgpackToEpics object (PVField.types pvStruct)

end MsgpackEpicsConverter

end K2eg
