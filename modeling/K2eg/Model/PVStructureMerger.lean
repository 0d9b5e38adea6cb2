import K2eg.Model.PVData
import Mathlib.Data.Nat.Notation

/-! # Merging structures

`PVStructureMerger` makes a structure of the fields that are requested of several structures. It
builds the introspection of the fields first and then copies the values. -/

namespace K2eg

/-- How long a scalar array may be. -/
inductive ArraySize where
  | variable
  | bounded (length : ℕ)
  | fixed (length : ℕ)
  deriving DecidableEq, Repr

/-- `pvd::Field` with all that two of them are compared by: a `FieldType` with the bound of a
string, the sizes of arrays, and the IDs of structures and unions. -/
inductive Introspection where
  | scalar (type : ScalarType) (maxLength : Option ℕ)
  | scalarArray (elementType : ScalarType) (size : ArraySize)
  | structure (id : String) (fields : List (String × Introspection))
  | structureArray (id : String) (fields : List (String × Introspection))
  | union (id : String) (members : List (String × Introspection))
  | unionArray (id : String) (members : List (String × Introspection))

namespace Introspection

mutual

def type : Introspection → FieldType
  | .scalar type _ => .scalar type
  | .scalarArray elementType _ => .scalarArray elementType
  | .structure _ fields => .structure (types fields)
  | .structureArray _ fields => .structureArray (types fields)
  | .union _ members => .union (types members)
  | .unionArray _ members => .unionArray (types members)

def types : List (String × Introspection) → List (String × FieldType)
  | [] => []
  | (name, introspection) :: rest => (name, type introspection) :: types rest

end

/-- Down the structures, from a name to the next. -/
def follow (fields : List (String × Introspection)) : List String → Option Introspection
  | [] => none
  | [name] => fields.lookup name
  | name :: rest =>
    match fields.lookup name with
    | some (.structure _ inner) => follow inner rest
    | _ => none

/-- `getSubField(name)->getField()`. -/
def getSubField (fields : List (String × Introspection)) (name : String) : Option Introspection :=
  (namePath name).bind (follow fields)

end Introspection

/-- A structure with its introspection. -/
structure IntrospectedStructure where
  introspection : List (String × Introspection)
  fields : PVStructure
  types_eq : PVField.types fields = Introspection.types introspection
  wellFormed : PVStructure.WellFormed fields

/-- `PVStructureToMerge`; the structure pointer may be null. -/
structure PVStructureToMerge where
  structurePtr : Option IntrospectedStructure
  fieldNames : List String

/-- What the merger returns. -/
structure MergedStructure where
  introspection : List (String × Introspection)
  fields : PVStructure

/-- `getType()`. -/
inductive FieldKind where
  | scalar : FieldKind
  | scalarArray : FieldKind
  | structure : FieldKind
  | structureArray : FieldKind
  | union : FieldKind
  | unionArray : FieldKind
  deriving DecidableEq, Repr

def FieldType.kind : FieldType → FieldKind
  | .scalar _ => .scalar
  | .scalarArray _ => .scalarArray
  | .structure _ => .structure
  | .structureArray _ => .structureArray
  | .union _ => .union
  | .unionArray _ => .unionArray

/-- `copyUnchecked` of a field that is no structure, as the client library has it: the destination
keeps its type, and takes the value of a source of this type. -/
structure CopyUnchecked where
  copy : (dest src : PVField) → Except Failure PVField
  keeps_type : ∀ {dest src after}, copy dest src = .ok after → after.type = dest.type
  same_type : ∀ {dest src}, src.type.kind ≠ .structure → dest.type = src.type → src.WellFormed →
    copy dest src = .ok src

namespace PVStructureMerger

/-! ## The introspection -/

/-- The ID of a structure that is built without one. -/
def structureId : String := "structure"

/-- The ID of a union that is built without one; a union without members is made a variant one. -/
def unionId (members : List (String × Introspection)) : String :=
  if members.isEmpty then "any" else "union"

mutual

/-- The cases of `addFieldToBuilder`, which are those of `copyStructureDefinition`. -/
def copyDefinition : Introspection → Except Failure Introspection
  | .scalar type _ => .ok (.scalar type none)
  | .scalarArray elementType _ => .ok (.scalarArray elementType .variable)
  | .structure _ fields => (copyStructureDefinition fields).map (.structure structureId)
  | .structureArray _ fields => (copyStructureDefinition fields).map (.structureArray structureId)
  | .union _ members => (copyUnionDefinition members).map fun copied =>
    .union (unionId copied) copied
  | .unionArray _ members => (copyUnionDefinition members).map fun copied =>
    .unionArray (unionId copied) copied

def copyStructureDefinition :
    List (String × Introspection) → Except Failure (List (String × Introspection))
  | [] => .ok []
  | (name, field) :: rest => do
    let copied ← copyDefinition field
    let others ← copyStructureDefinition rest
    return (name, copied) :: others

/-- The cases of `copyUnionDefinition`: there are none for unions. -/
def copyMemberDefinition : Introspection → Except Failure Introspection
  | .scalar type _ => .ok (.scalar type none)
  | .scalarArray elementType _ => .ok (.scalarArray elementType .variable)
  | .structure _ fields => (copyStructureDefinition fields).map (.structure structureId)
  | .structureArray _ fields => (copyStructureDefinition fields).map (.structureArray structureId)
  | .union _ _ | .unionArray _ _ => .error .thrown

def copyUnionDefinition :
    List (String × Introspection) → Except Failure (List (String × Introspection))
  | [] => .ok []
  | (name, member) :: rest => do
    let copied ← copyMemberDefinition member
    let others ← copyUnionDefinition rest
    return (name, copied) :: others

end

/-- The builder with the set of names that were added. -/
structure Builder where
  fields : List (String × Introspection) := []
  addedFields : List String := []

def addFieldToBuilder (builder : Builder) (name : String) (field : Introspection) :
    Except Failure Builder := do
  let copied ← copyDefinition field
  return {
    fields := builder.fields ++ [(name, copied)]
    addedFields := name :: builder.addedFields }

/-- The inner loop of the first pass. -/
def addFields (source : IntrospectedStructure) :
    List String → Builder → Except Failure Builder
  | [], builder => .ok builder
  | name :: rest, builder =>
    if builder.addedFields.contains name then addFields source rest builder
    else match Introspection.getSubField source.introspection name with
      | none => addFields source rest builder
      | some field => do
        let builder ← addFieldToBuilder builder name field
        addFields source rest builder

/-- The first pass. -/
def addAllFields : List PVStructureToMerge → Builder → Except Failure Builder
  | [], builder => .ok builder
  | item :: rest, builder =>
    match item.structurePtr with
    | none => addAllFields rest builder
    | some source => do
      let builder ← addFields source item.fieldNames builder
      addAllFields rest builder

/-- `createStructure` of the builder throws on a name that is no name of a field and on a name given
twice. -/
def Builder.createStructure (builder : Builder) : Except Failure (List (String × Introspection)) :=
  if builder.fields.all (fun field => validFieldName field.1) ∧
      (builder.fields.map Prod.fst).Nodup then .ok builder.fields
  else .error .thrown

/-! ## The values -/

variable (copyUnchecked : CopyUnchecked)

mutual

def copyFieldValue (dest : PVField) : (src : PVField) → Except Failure PVField
  | .structure fields =>
    match dest with
    | .structure destFields => (copyStructureValue destFields fields).map .structure
    | _ => .error .thrown
  | src => if src.type.kind = dest.type.kind then copyUnchecked.copy dest src else .error .thrown

def copyStructureValue (dest : PVStructure) : (src : PVStructure) → Except Failure PVStructure
  | [] => .ok dest
  | (name, field) :: rest =>
    match getSubField dest name with
    | none => copyStructureValue dest rest
    | some destField => do
      let copied ← copyFieldValue destField field
      copyStructureValue (PVField.copyTo name copied dest) rest

end

/-- The inner loop of the second pass. -/
def copyFields (source : IntrospectedStructure) :
    List String → PVStructure → Except Failure PVStructure
  | [], dest => .ok dest
  | name :: rest, dest =>
    match getSubField source.fields name, getSubField dest name with
    | some srcField, some destField => do
      let copied ← copyFieldValue copyUnchecked destField srcField
      copyFields source rest (PVField.copyTo name copied dest)
    | _, _ => copyFields source rest dest

/-- The second pass. -/
def copyAllFields : List PVStructureToMerge → PVStructure → Except Failure PVStructure
  | [], dest => .ok dest
  | item :: rest, dest =>
    match item.structurePtr with
    | none => copyAllFields rest dest
    | some source => do
      let dest ← copyFields copyUnchecked source item.fieldNames dest
      copyAllFields rest dest

/-- `mergeStructureAndValue`: null for an empty vector. -/
def mergeStructureAndValue : List PVStructureToMerge → Except Failure (Option MergedStructure)
  | [] => .ok none
  | items => do
    let builder ← addAllFields items {}
    let introspection ← builder.createStructure
    let dest := FieldType.createPVStructure (Introspection.types introspection)
    let fields ← copyAllFields copyUnchecked items dest
    return some { introspection, fields }

end PVStructureMerger

end K2eg
