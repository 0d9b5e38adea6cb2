import K2eg.Model.MsgpackEpicsConverter

/-! # Put operations

`PutOperation::putBuild` makes the structure that a put sends, and the bits of the fields in it
that are to be written. A bit is the path of its field from the root: the offset of a field tells
it from every other. -/

namespace K2eg

open Msgpack (Object)
open MsgpackEpicsConverter (asString msgpackToEpics)

namespace PutOperation

/-- `getSubField` of a key, with the way from the structure to the field. -/
def locate (root : PVStructure) (key : String) : Option (List String × PVField) :=
  (namePath key).bind fun names => (PVField.follow root names).map fun field => (names, field)

mutual

/-- `collectFieldOffsets`, for the structure at this path. The structure is new, so that none of
its fields is immutable. -/
def collectFieldOffsets (root : PVStructure) (path : List String) :
    Object → Except Failure (List (List String))
  | .map entries => collectEntries root path entries
  | _ => .ok []

/-- The loop over the pairs of the map. -/
def collectEntries (root : PVStructure) (path : List String) :
    List (Object × Object) → Except Failure (List (List String))
  | [] => .ok []
  | (key, .map inner) :: rest => do
    let key ← asString key
    let bits ← (match locate root key with
      | some (names, .structure subStruct) => collectEntries subStruct (path ++ names) inner
      | _ => .ok [])
    let others ← collectEntries root path rest
    return bits ++ others
  | (key, _) :: rest => do
    let key ← asString key
    let bits :=
      match locate root key with
      | some (names, _) => [path ++ names]
      | none => []
    let others ← collectEntries root path rest
    return bits ++ others

end

/-- What `putBuild` leaves in `args`. -/
structure Args where
  tosend : List (List String)
  root : PVStructure

def putBuild (build : Structure) (putObject : Object) : Except Failure Args :=
  let root := FieldType.createPVStructure build
  match putObject with
  | .map entries => do
    let tosend ← collectFieldOffsets root [] (.map entries)
    if tosend.isEmpty then .error .thrown
    else
      let putObjStructure ← msgpackToEpics (.map entries) build
      return { tosend, root := putObjStructure }
  | _ => .error .thrown

end PutOperation

end K2eg
