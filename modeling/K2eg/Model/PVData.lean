import Mathlib.Algebra.Group.Nat.Defs
import Mathlib.Data.List.Basic

/-! # Introspection and values of PVs

The fields of `epics::pvData` with their types. The fields of a structure are a list in the order
of its introspection; a union without members is a variant union. -/

namespace K2eg

/-- `pvd::ScalarType`. -/
inductive ScalarType where
  | pvBoolean | pvByte | pvShort | pvInt | pvLong
  | pvUByte | pvUShort | pvUInt | pvULong
  | pvFloat | pvDouble | pvString
  deriving DecidableEq, Repr

namespace ScalarType

/-- What a scalar of the type holds. -/
def Value : ScalarType → Type
  | pvBoolean => Bool
  | pvByte => Int8
  | pvShort => Int16
  | pvInt => Int32
  | pvLong => Int64
  | pvUByte => UInt8
  | pvUShort => UInt16
  | pvUInt => UInt32
  | pvULong => UInt64
  | pvFloat => Float32
  | pvDouble => Float
  | pvString => String

/-- The value a new scalar has. -/
def default : (type : ScalarType) → type.Value
  | pvBoolean => false
  | pvByte => (0 : Int8)
  | pvShort => (0 : Int16)
  | pvInt => (0 : Int32)
  | pvLong => (0 : Int64)
  | pvUByte => (0 : UInt8)
  | pvUShort => (0 : UInt16)
  | pvUInt => (0 : UInt32)
  | pvULong => (0 : UInt64)
  | pvFloat => (0 : Float32)
  | pvDouble => (0 : Float)
  | pvString => ""

end ScalarType

/-- `pvd::Field`. -/
inductive FieldType where
  | scalar (type : ScalarType)
  | scalarArray (elementType : ScalarType)
  | structure (fields : List (String × FieldType))
  | structureArray (fields : List (String × FieldType))
  | union (members : List (String × FieldType))
  | unionArray (members : List (String × FieldType))

/-- `pvd::Structure`: the names of the fields and their types. -/
abbrev Structure := List (String × FieldType)

/-- `pvd::PVField`. The elements of a structure array and of a union array may be null, and a
union may have no selected field. -/
inductive PVField where
  | scalar (type : ScalarType) (value : type.Value)
  | scalarArray (elementType : ScalarType) (values : List elementType.Value)
  | structure (fields : List (String × PVField))
  | structureArray (type : List (String × FieldType))
      (elements : List (Option (List (String × PVField))))
  | union (members : List (String × FieldType)) (selected : Option (String × PVField))
  | unionArray (members : List (String × FieldType))
      (elements : List (Option (Option (String × PVField))))

/-- `pvd::PVStructure`. -/
abbrev PVStructure := List (String × PVField)

/-- Something a program should not have done: it throws, or what it does is not defined (a null
pointer is followed, or the wrong member of a union is read). -/
inductive Failure where
  | thrown
  | undefined
  deriving DecidableEq, Repr

theorem Failure.bind_eq_ok {α β : Type} {first : Except Failure α} {next : α → Except Failure β}
    {result : β} : first >>= next = .ok result ↔
      ∃ value, first = .ok value ∧ next value = .ok result := by
  constructor
  case mp =>
    intro h
    cases first with
    | error failure => exact absurd h nofun
    | ok value => exact ⟨value, rfl, h⟩
  case mpr =>
    rintro ⟨value, rfl, h⟩
    exact h

mutual

/-- `getField()`. -/
def PVField.type : PVField → FieldType
  | .scalar type _ => .scalar type
  | .scalarArray elementType _ => .scalarArray elementType
  | .structure fields => .structure (PVField.types fields)
  | .structureArray type _ => .structureArray type
  | .union members _ => .union members
  | .unionArray members _ => .unionArray members

/-- `getStructure()`. -/
def PVField.types : List (String × PVField) → List (String × FieldType)
  | [] => []
  | (name, field) :: rest => (name, PVField.type field) :: PVField.types rest

end

@[simp] theorem PVField.types_length (fields : List (String × PVField)) :
    (PVField.types fields).length = fields.length := by
  induction fields with
  | nil => rfl
  | cons field rest ih => simp only [PVField.types, List.length_cons, ih]

@[simp] theorem PVField.types_map_fst (fields : List (String × PVField)) :
    (PVField.types fields).map Prod.fst = fields.map Prod.fst := by
  induction fields with
  | nil => rfl
  | cons field rest ih => simp only [PVField.types, List.map_cons, ih]

mutual

/-- `createPVField`. -/
def FieldType.createPVField : FieldType → PVField
  | .scalar type => .scalar type type.default
  | .scalarArray elementType => .scalarArray elementType []
  | .structure fields => .structure (FieldType.createPVStructure fields)
  | .structureArray fields => .structureArray fields []
  | .union members => .union members none
  | .unionArray members => .unionArray members []

/-- `createPVStructure`. -/
def FieldType.createPVStructure : List (String × FieldType) → List (String × PVField)
  | [] => []
  | (name, type) :: rest =>
    (name, FieldType.createPVField type) :: FieldType.createPVStructure rest

end

/-- `getSubField(name)->copy(value)` for the name of a field. -/
def PVField.copyTo (name : String) (value : PVField) : PVStructure → PVStructure
  | [] => []
  | (other, field) :: rest =>
    if other = name then (name, value) :: rest else (other, field) :: copyTo name value rest

/-- The names that pvData takes for a field: identifiers. -/
def validFieldName (name : String) : Bool :=
  match name.toList with
  | [] => false
  | first :: rest =>
    (first.isAlpha || first = '_') && rest.all fun c => c.isAlphanum || c = '_'

/-- The names that `getSubField` follows for a name with dots. A blank or an empty name on the way
is no name of a field. -/
def namePath (name : String) : Option (List String) :=
  let names := (name.toList.splitOn '.').map String.ofList
  if names.all fun name => name != "" && !name.toList.contains ' ' then some names else none

/-- Down the structures, from a name to the next. -/
def PVField.follow (fields : PVStructure) : List String → Option PVField
  | [] => none
  | [name] => fields.lookup name
  | name :: rest =>
    match fields.lookup name with
    | some (.structure inner) => follow inner rest
    | _ => none

/-- `getSubField` of a structure: null where there is no such field. -/
def getSubField (fields : PVStructure) (name : String) : Option PVField :=
  (namePath name).bind (PVField.follow fields)

/-- `getSubFieldT`: it throws where there is no such field. -/
def getSubFieldT (fields : PVStructure) (name : String) : Except Failure PVField :=
  match getSubField fields name with
  | none => .error .thrown
  | some field => .ok field

/-- `createStructure` throws on a name that is no name of a field and on a name given twice. -/
def createStructure (fields : Structure) : Except Failure Structure :=
  if fields.all (fun field => validFieldName field.1) ∧ (fields.map Prod.fst).Nodup then .ok fields
  else .error .thrown

/-- The names are names of fields, no two of them are the same, and there are fewer of them than
a field's offset, which has 32 bits, can number. -/
structure ValidNames (names : List String) : Prop where
  valid : ∀ name ∈ names, validFieldName name = true
  nodup : names.Nodup
  length_lt : names.length < 2 ^ 32

mutual

/-- What pvData checks when a type is made. -/
def FieldType.WellFormed : FieldType → Prop
  | .scalar _ | .scalarArray _ => True
  | .structure fields | .structureArray fields | .union fields | .unionArray fields =>
    ValidNames (fields.map Prod.fst) ∧ FieldType.AllWellFormed fields

def FieldType.AllWellFormed : List (String × FieldType) → Prop
  | [] => True
  | (_, type) :: rest => FieldType.WellFormed type ∧ FieldType.AllWellFormed rest

end

mutual

/-- The types are well formed, and every element and every selected value is of the type its array
or union says. -/
def PVField.WellFormed : PVField → Prop
  | .scalar _ _ | .scalarArray _ _ => True
  | .structure fields => ValidNames (fields.map Prod.fst) ∧ PVField.AllWellFormed fields
  | .structureArray type elements =>
    (FieldType.structureArray type).WellFormed ∧ PVField.ElementsWellFormed type elements
  | .union members selected =>
    (FieldType.union members).WellFormed ∧ PVField.SelectedWellFormed members selected
  | .unionArray members elements =>
    (FieldType.union members).WellFormed ∧ PVField.UnionsWellFormed members elements

def PVField.AllWellFormed : List (String × PVField) → Prop
  | [] => True
  | (_, field) :: rest => PVField.WellFormed field ∧ PVField.AllWellFormed rest

def PVField.ElementsWellFormed (type : List (String × FieldType)) :
    List (Option (List (String × PVField))) → Prop
  | [] => True
  | none :: rest => PVField.ElementsWellFormed type rest
  | some fields :: rest =>
    PVField.types fields = type ∧ PVField.AllWellFormed fields ∧
      PVField.ElementsWellFormed type rest

/-- A variant union holds any value, under no name. -/
def PVField.SelectedWellFormed (members : List (String × FieldType)) :
    Option (String × PVField) → Prop
  | none => True
  | some (name, field) =>
    (if members.isEmpty then name = "" else members.lookup name = some field.type) ∧
      PVField.WellFormed field

def PVField.UnionsWellFormed (members : List (String × FieldType)) :
    List (Option (Option (String × PVField))) → Prop
  | [] => True
  | none :: rest => PVField.UnionsWellFormed members rest
  | some selected :: rest =>
    PVField.SelectedWellFormed members selected ∧ PVField.UnionsWellFormed members rest

end

/-- A structure that pvData can hold. -/
def PVStructure.WellFormed (fields : PVStructure) : Prop :=
  (PVField.structure fields).WellFormed

end K2eg
