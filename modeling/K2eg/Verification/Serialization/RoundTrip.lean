import K2eg.Verification.Serialization.Encoding

/-! # Reading what has been written

`msgpackToEpics` gives back the structure that `epicsToMsgpack` has written exactly where every
field is readable: the elements of arrays of `pvShort` are not negative, and a union has a value of
one of its members, or it is a field of a structure and has none. -/

namespace K2eg

open Msgpack (Token Object unpack)

/-! ## Scalars -/

/-- The conversion of the elements of an array keeps the value. -/
def ScalarType.Kept : (type : ScalarType) → type.Value → Prop
  | .pvShort, value => 0 ≤ Int16.toInt value
  | _, _ => True

namespace PVField

/-- A union of which no field is selected. -/
def Unselected : PVField → Prop
  | .union _ none => True
  | _ => False

mutual

/-- A field that is read as it has been written. -/
def Readable : PVField → Prop
  | .scalar _ _ => True
  | .scalarArray elementType values => ∀ value ∈ values, elementType.Kept value
  | .structure fields => FieldsReadable fields
  | .structureArray _ elements => StructuresReadable elements
  | .union members selected => SelectedReadable members selected
  | .unionArray members elements => UnionsReadable members elements

/-- A field of a structure for which nothing is read keeps what a new structure has. -/
def FieldsReadable : List (String × PVField) → Prop
  | [] => True
  | (_, field) :: rest => (Readable field ∨ Unselected field) ∧ FieldsReadable rest

def StructuresReadable : List (Option (List (String × PVField))) → Prop
  | [] => True
  | none :: _ => False
  | some fields :: rest => FieldsReadable fields ∧ StructuresReadable rest

/-- A value of a variant union has no member to be read under. -/
def SelectedReadable (members : List (String × FieldType)) : Option (String × PVField) → Prop
  | none => False
  | some (_, field) => members ≠ [] ∧ Readable field

def UnionsReadable (members : List (String × FieldType)) :
    List (Option (Option (String × PVField))) → Prop
  | [] => True
  | none :: _ => False
  | some selected :: rest => SelectedReadable members selected ∧ UnionsReadable members rest

end

end PVField

namespace MsgpackEpicsConverter

theorem asInteger_of_mem {lower upper value : Int} (hlower : lower ≤ value)
    (hupper : value ≤ upper) : asInteger lower upper (.int value) = .ok value :=
  if_pos ⟨hlower, hupper⟩

theorem unpackScalar_object (type : ScalarType) (value : type.Value) :
    unpackScalar type (type.object value) = .ok value := by
  cases type with
  | pvBoolean | pvFloat | pvDouble | pvString => rfl
  | pvByte =>
    have hlower := Int8.le_toInt value
    have hupper := Int8.toInt_lt value
    rw [unpackScalar, ScalarType.object, asInteger_of_mem hlower (by omega)]
    exact congrArg Except.ok (Int8.ofInt_toInt value)
  | pvShort =>
    have hlower := Int16.le_toInt value
    have hupper := Int16.toInt_lt value
    rw [unpackScalar, ScalarType.object, asInteger_of_mem hlower (by omega)]
    exact congrArg Except.ok (Int16.ofInt_toInt value)
  | pvInt =>
    have hlower := Int32.le_toInt value
    have hupper := Int32.toInt_lt value
    rw [unpackScalar, ScalarType.object, asInteger_of_mem hlower (by omega)]
    exact congrArg Except.ok (Int32.ofInt_toInt value)
  | pvLong =>
    have hlower := Int64.le_toInt value
    have hupper := Int64.toInt_lt value
    rw [unpackScalar, ScalarType.object, asInteger_of_mem hlower (by omega)]
    exact congrArg Except.ok (Int64.ofInt_toInt value)
  | pvUByte =>
    have hupper := UInt8.toNat_lt value
    rw [unpackScalar, ScalarType.object, asInteger_of_mem (by omega) (by omega)]
    exact congrArg Except.ok UInt8.ofNat_toNat
  | pvUShort =>
    have hupper := UInt16.toNat_lt value
    rw [unpackScalar, ScalarType.object, asInteger_of_mem (by omega) (by omega)]
    exact congrArg Except.ok UInt16.ofNat_toNat
  | pvUInt =>
    have hupper := UInt32.toNat_lt value
    rw [unpackScalar, ScalarType.object, asInteger_of_mem (by omega) (by omega)]
    exact congrArg Except.ok UInt32.ofNat_toNat
  | pvULong =>
    have hupper := UInt64.toNat_lt value
    rw [unpackScalar, ScalarType.object, asInteger_of_mem (by omega) (by omega)]
    exact congrArg Except.ok UInt64.ofNat_toNat

theorem toNat_toUInt16 (value : Int16) : (value.toUInt16.toNat : Int) = value.toInt % 2 ^ 16 := by
  have hnat : value.toUInt16.toNat = value.toBitVec.toNat := rfl
  have hint : value.toInt = value.toBitVec.toInt := rfl
  have hlt := value.toBitVec.isLt
  rw [hnat, hint, BitVec.toInt_eq_toNat_cond]
  split <;> omega

/-- A negative element becomes a number beyond the range of `int16`. -/
theorem unpackScalar_elementObject (type : ScalarType) (value : type.Value) :
    unpackScalar type (type.elementObject value) = .ok value ↔ type.Kept value := by
  cases type with
  | pvShort =>
    have hlower := Int16.le_toInt value
    have hupper := Int16.toInt_lt value
    have hcast := toNat_toUInt16 value
    rw [unpackScalar, ScalarType.elementObject, ScalarType.Kept]
    constructor
    case mp =>
      intro h
      by_contra hneg
      have hout : ¬(-2 ^ 15 ≤ ((Int16.toUInt16 value).toNat : Int) ∧
          ((Int16.toUInt16 value).toNat : Int) ≤ 2 ^ 15 - 1) := by omega
      rw [asInteger, if_neg hout] at h
      cases h
    case mpr =>
      intro h
      rw [asInteger_of_mem (by omega) (by omega)]
      have hsame : ((Int16.toUInt16 value).toNat : Int) = Int16.toInt value := by omega
      rw [hsame]
      exact congrArg Except.ok (Int16.ofInt_toInt value)
  | _ => exact ⟨fun _ => trivial, fun _ => unpackScalar_object _ value⟩

theorem unpackScalars_elementObject (type : ScalarType) (values : List type.Value) :
    unpackScalars type (values.map type.elementObject) = .ok values ↔
      ∀ value ∈ values, type.Kept value := by
  induction values with
  | nil => exact ⟨fun _ => List.forall_mem_nil _, fun _ => rfl⟩
  | cons value rest ih =>
    rw [List.forall_mem_cons, ← ih, ← unpackScalar_elementObject, List.map_cons, unpackScalars]
    cases unpackScalar type (type.elementObject value) with
    | error failure => exact ⟨nofun, fun h => absurd h.1 nofun⟩
    | ok first =>
      cases unpackScalars type (rest.map type.elementObject) with
      | error failure => exact ⟨nofun, fun h => absurd h.2 nofun⟩
      | ok others =>
        constructor
        case mp =>
          intro h
          cases h
          exact ⟨rfl, rfl⟩
        case mpr =>
          intro h
          cases h.1
          cases h.2
          rfl

/-! ## The fields of a structure -/

theorem copyTo_append {done rest : PVStructure} {name : String} {field value : PVField}
    (h : name ∉ done.map Prod.fst) :
    PVField.copyTo name value (done ++ (name, field) :: rest) = done ++ (name, value) :: rest := by
  induction done with
  | nil => rw [List.nil_append, PVField.copyTo, if_pos rfl, List.nil_append]
  | cons other done ih =>
    rw [List.map_cons, List.mem_cons, not_or] at h
    rw [List.cons_append, PVField.copyTo, if_neg (Ne.symm h.1), ih h.2, List.cons_append]

theorem lookup_types {fields : PVStructure} {name : String} {field : PVField}
    (hnodup : (fields.map Prod.fst).Nodup) (h : (name, field) ∈ fields) :
    (PVField.types fields).lookup name = some field.type := by
  induction fields with
  | nil => exact absurd h List.not_mem_nil
  | cons other rest ih =>
    rw [List.map_cons, List.nodup_cons] at hnodup
    rw [PVField.types, List.lookup_cons]
    cases List.mem_cons.1 h with
    | inl heq =>
      cases heq
      rw [beq_self_eq_true]
    | inr hmem =>
      have hne : (name == other.1) = false := by
        rw [beq_eq_false_iff_ne]
        intro heq
        exact hnodup.1 (heq ▸ List.mem_map_of_mem hmem)
      rw [hne]
      exact ih hnodup.2 hmem

/-- What the loop over the pairs of a structure leaves in its fields. -/
def receive : PVStructure → Except Failure PVStructure
  | [] => .ok []
  | (name, field) :: rest => do
    let value ← unpackMsgpackToPVField field.object field.type
    let others ← receive rest
    return (name, value.getD field.type.createPVField) :: others

/-- The loop when the fields `done` have been read: `rest` are to come. -/
theorem unpackEntries_append {schema : Structure} {rest : PVStructure} :
    ∀ done : PVStructure, ((done ++ rest).map Prod.fst).Nodup →
      (∀ name field, (name, field) ∈ rest → schema.lookup name = some field.type) →
      unpackEntries (PVField.entries rest) schema
          (done ++ FieldType.createPVStructure (PVField.types rest)) =
        (receive rest).map (done ++ ·) := by
  induction rest with
  | nil =>
    intro done _ _
    rfl
  | cons head rest ih =>
    intro done hnodup hschema
    have hlookup := hschema head.1 head.2 (List.mem_cons_self ..)
    have hfresh : head.1 ∉ done.map Prod.fst := by
      rw [List.map_append, List.map_cons] at hnodup
      intro hmem
      exact (List.nodup_append.1 hnodup).2.2 _ hmem _ (List.mem_cons_self ..) rfl
    have hnext : ∀ value : PVField, unpackEntries (PVField.entries rest) schema
        (done ++ (head.1, value) :: FieldType.createPVStructure (PVField.types rest)) =
        (receive rest).map fun others => done ++ (head.1, value) :: others := by
      intro value
      have hdone := ih (done ++ [(head.1, value)]) (by simpa using hnodup)
        (fun name field hmem => hschema name field (List.mem_cons_of_mem _ hmem))
      simpa only [List.append_assoc, List.singleton_append] using hdone
    rw [PVField.entries, PVField.types, FieldType.createPVStructure, unpackEntries, receive]
    simp only [asString, hlookup, bind, Except.bind]
    cases hvalue : unpackMsgpackToPVField head.2.object head.2.type with
    | error failure => rfl
    | ok value =>
      cases value with
      | none =>
        simp only [hnext]
        cases receive rest <;> rfl
      | some value =>
        simp only [copyTo_append hfresh, hnext]
        cases receive rest <;> rfl

theorem unpackEntries_entries {fields : PVStructure} (h : (fields.map Prod.fst).Nodup) :
    unpackEntries (PVField.entries fields) (PVField.types fields)
        (FieldType.createPVStructure (PVField.types fields)) = receive fields := by
  have hall := unpackEntries_append [] (by simpa using h) fun _ _ hmem => lookup_types h hmem
  rw [List.nil_append] at hall
  rw [hall]
  cases receive fields <;> rfl

/-! ## Each field -/

/-- Only for a union nothing may be read. -/
theorem union_of_unpack_none {object : Object} {type : FieldType}
    (h : unpackMsgpackToPVField object type = .ok none) : ∃ members, type = .union members := by
  cases type with
  | scalar type =>
    rw [unpackMsgpackToPVField] at h
    obtain ⟨_, _, hnone⟩ := Failure.bind_eq_ok.1 h
    exact absurd hnone nofun
  | union members => exact ⟨members, rfl⟩
  | «structure» schema =>
    cases object
    case map entries =>
      obtain ⟨_, _, hnone⟩ := Failure.bind_eq_ok.1 h
      exact absurd hnone nofun
    all_goals exact absurd h nofun
  | scalarArray | structureArray | unionArray =>
    cases object
    case array items =>
      obtain ⟨_, _, hnone⟩ := Failure.bind_eq_ok.1 h
      exact absurd hnone nofun
    all_goals exact absurd h nofun

/-- The name of a variant union and of a union without a selected field is no member. -/
theorem lookup_empty {members : Structure} (h : ValidNames (members.map Prod.fst)) :
    members.lookup "" = none := by
  rw [List.lookup_eq_none_iff]
  intro member hmember
  rw [bne_iff_ne]
  intro heq
  have hvalid := h.valid member.1 (List.mem_map_of_mem hmember)
  rw [← heq] at hvalid
  exact absurd hvalid (by decide)

/-- What a union field has selected. -/
def selection : PVField → Option (String × PVField)
  | .union _ selected => selected
  | _ => none

theorem eq_union_of_unpack {object : Object} {members : Structure} {field : PVField}
    (h : unpackMsgpackToPVField object (.union members) = .ok (some field)) :
    field = .union members (selection field) := by
  cases object
  case map entries =>
    match entries with
    | [] => exact absurd h nofun
    | [(key, subObj)] =>
      rw [unpackMsgpackToPVField] at h
      obtain ⟨fieldName, _, h⟩ := Failure.bind_eq_ok.1 h
      split at h
      case h_1 => exact absurd h nofun
      case h_2 =>
        obtain ⟨value, _, h⟩ := Failure.bind_eq_ok.1 h
        cases value with
        | none => exact absurd h nofun
        | some value =>
          cases h
          rfl
    | _ :: _ :: _ => exact absurd h nofun
  all_goals exact absurd h nofun

/-- An entry of a union array is read as a union is. -/
theorem unpackUnions_cons (item : Object) (rest : List Object) (members : Structure) :
    unpackUnions (item :: rest) members = (do
      match ← unpackMsgpackToPVField item (.union members) with
      | none => unpackUnions rest members
      | some field =>
        let others ← unpackUnions rest members
        return some (selection field) :: others) := by
  cases item with
  | map entries =>
    match entries with
    | [] => rfl
    | [(key, val)] =>
      rw [unpackUnions, unpackMsgpackToPVField]
      cases asString key with
      | error failure => rfl
      | ok fname =>
        simp only [bind, Except.bind]
        cases members.lookup fname with
        | none => rfl
        | some fdesc =>
          dsimp only
          cases unpackMsgpackToPVField val fdesc with
          | error failure => rfl
          | ok value => cases value <;> rfl
    | _ :: _ :: _ => rfl
  | _ => rfl

theorem unpackUnions_length {items : List Object} {members : Structure}
    {result : List (Option (Option (String × PVField)))}
    (h : unpackUnions items members = .ok result) : result.length ≤ items.length := by
  induction items generalizing result with
  | nil =>
    cases h
    exact Nat.le_refl _
  | cons item rest ih =>
    rw [unpackUnions_cons, Failure.bind_eq_ok] at h
    obtain ⟨value, _, h⟩ := h
    cases value with
    | none => exact Nat.le_trans (ih h) (Nat.le_succ _)
    | some field =>
      obtain ⟨others, hothers, h⟩ := Failure.bind_eq_ok.1 h
      cases h
      exact Nat.succ_le_succ (ih hothers)

/-! ## Every field -/

/-- Nothing is read for a field only where a union has no selected field. -/
theorem received_iff {field : PVField} (hwf : field.WellFormed) :
    unpackMsgpackToPVField field.object field.type = .ok none ∧
      field.type.createPVField = field ↔ field.Unselected := by
  constructor
  case mp =>
    rintro ⟨hnone, hnew⟩
    obtain ⟨members, htype⟩ := union_of_unpack_none hnone
    rw [htype] at hnew
    rw [← hnew]
    trivial
  case mpr =>
    intro h
    cases field
    case union members selected =>
      cases selected with
      | some selected => exact absurd h id
      | none =>
        refine ⟨?_, rfl⟩
        rw [PVField.object, PVField.type, PVField.selectedEntry, unpackMsgpackToPVField]
        simp only [asString, bind, Except.bind, lookup_empty hwf.1.1]
        rfl
    all_goals exact absurd h id

mutual

theorem unpack_object_iff : ∀ field : PVField, field.WellFormed → field.Packable →
    (unpackMsgpackToPVField field.object field.type = .ok (some field) ↔ field.Readable)
  | .scalar type value, _, _ => by
      rw [PVField.object, PVField.type, unpackMsgpackToPVField, unpackScalar_object]
      exact ⟨fun _ => trivial, fun _ => rfl⟩
  | .scalarArray elementType values, _, _ => by
      rw [PVField.object, PVField.type, unpackMsgpackToPVField, PVField.Readable,
        ← unpackScalars_elementObject, Failure.bind_eq_ok]
      constructor
      case mp =>
        rintro ⟨vals, hvals, h⟩
        cases h
        exact hvals
      case mpr =>
        intro h
        exact ⟨values, h, rfl⟩
  | .structure fields, hwf, h => by
      rw [PVField.object, PVField.type, unpackMsgpackToPVField,
        unpackEntries_entries hwf.1.nodup, PVField.Readable, ← receive_iff fields hwf.2 h,
        Failure.bind_eq_ok]
      constructor
      case mp =>
        rintro ⟨pvStruct, hstruct, h⟩
        cases h
        exact hstruct
      case mpr =>
        intro h
        exact ⟨fields, h, rfl⟩
  | .structureArray type elements, hwf, h => by
      rw [PVField.object, PVField.type, unpackMsgpackToPVField, PVField.Readable,
        ← unpackStructures_iff type elements hwf.1 hwf.2 h, Failure.bind_eq_ok]
      constructor
      case mp =>
        rintro ⟨read, hread, h⟩
        cases h
        exact hread
      case mpr =>
        intro h
        exact ⟨elements, h, rfl⟩
  | .union members selected, hwf, h => by
      rw [PVField.object, PVField.type, PVField.Readable,
        unpackUnion_iff members selected hwf.1 hwf.2 h]
  | .unionArray members elements, hwf, h => by
      rw [PVField.object, PVField.type, unpackMsgpackToPVField, PVField.Readable,
        ← unpackUnions_iff members elements hwf.1 hwf.2 h, Failure.bind_eq_ok]
      constructor
      case mp =>
        rintro ⟨read, hread, h⟩
        cases h
        exact hread
      case mpr =>
        intro h
        exact ⟨elements, h, rfl⟩

theorem receive_iff : ∀ fields : List (String × PVField), PVField.AllWellFormed fields →
    PVField.FieldsPackable fields → (receive fields = .ok fields ↔ PVField.FieldsReadable fields)
  | [], _, _ => ⟨fun _ => trivial, fun _ => rfl⟩
  | (name, field) :: rest, hwf, h => by
      rw [PVField.FieldsReadable, ← unpack_object_iff field hwf.1 h.2.1,
        ← receive_iff rest hwf.2 h.2.2, ← received_iff hwf.1, receive, Failure.bind_eq_ok]
      constructor
      case mp =>
        rintro ⟨value, hvalue, hothers⟩
        obtain ⟨others, hrest, hsame⟩ := Failure.bind_eq_ok.1 hothers
        injection hsame with hsame
        injection hsame with hhead htail
        injection hhead with _ hfield
        rw [htail] at hrest
        refine ⟨?_, hrest⟩
        cases value with
        | none => exact .inr ⟨hvalue, hfield⟩
        | some value =>
          have hfield : value = field := hfield
          exact .inl (hfield ▸ hvalue)
      case mpr =>
        rintro ⟨hvalue, hrest⟩
        cases hvalue with
        | inl hread => exact ⟨some field, hread, Failure.bind_eq_ok.2 ⟨rest, hrest, rfl⟩⟩
        | inr hnone =>
          refine ⟨none, hnone.1, Failure.bind_eq_ok.2 ⟨rest, hrest, ?_⟩⟩
          rw [Option.getD_none, hnone.2]
          rfl

theorem unpackStructures_iff (type : Structure) : ∀ elements : List (Option PVStructure),
    (FieldType.structureArray type).WellFormed → PVField.ElementsWellFormed type elements →
    PVField.StructuresPackable elements →
    (unpackStructures (PVField.structureObjects elements) type = .ok elements ↔
      PVField.StructuresReadable elements)
  | [], _, _, _ => ⟨fun _ => trivial, fun _ => rfl⟩
  | none :: _, _, _, h => absurd h id
  | some fields :: rest, htype, hwf, h => by
      have hnodup : (fields.map Prod.fst).Nodup := by
        rw [← PVField.types_map_fst, hwf.1]
        exact htype.1.nodup
      rw [PVField.structureObjects, unpackStructures, PVField.StructuresReadable,
        ← receive_iff fields hwf.2.1 h.1, ← unpackStructures_iff type rest htype hwf.2.2 h.2,
        ← unpackEntries_entries hnodup, hwf.1, Failure.bind_eq_ok]
      constructor
      case mp =>
        rintro ⟨element, helement, hothers⟩
        obtain ⟨others, hrest, hsame⟩ := Failure.bind_eq_ok.1 hothers
        cases hsame
        exact ⟨helement, hrest⟩
      case mpr =>
        rintro ⟨helement, hrest⟩
        exact ⟨fields, helement, Failure.bind_eq_ok.2 ⟨rest, hrest, rfl⟩⟩

theorem unpackUnion_iff (members : Structure) : ∀ selected : Option (String × PVField),
    (FieldType.union members).WellFormed → PVField.SelectedWellFormed members selected →
    PVField.SelectedPackable selected →
    (unpackMsgpackToPVField (.map [PVField.selectedEntry selected]) (.union members) =
      .ok (some (.union members selected)) ↔ PVField.SelectedReadable members selected)
  | none, htype, _, _ => by
      rw [PVField.selectedEntry, unpackMsgpackToPVField]
      simp only [asString, bind, Except.bind, lookup_empty htype.1]
      exact ⟨nofun, fun h => absurd h id⟩
  | some (name, field), htype, hwf, h => by
      rw [PVField.selectedEntry, unpackMsgpackToPVField, PVField.SelectedReadable,
        ← unpack_object_iff field hwf.2 h.2]
      cases members with
      | nil => exact ⟨nofun, fun h => absurd rfl h.1⟩
      | cons member members =>
        have hlookup : (member :: members).lookup name = some field.type := hwf.1
        simp only [asString, bind, Except.bind, hlookup]
        cases unpackMsgpackToPVField field.object field.type with
        | error failure => exact ⟨nofun, fun h => absurd h.2 nofun⟩
        | ok value =>
          cases value with
          | none => exact ⟨nofun, fun h => absurd h.2 nofun⟩
          | some value =>
            constructor
            case mp =>
              intro h
              cases h
              exact ⟨List.cons_ne_nil _ _, rfl⟩
            case mpr =>
              intro h
              cases h.2
              rfl

theorem unpackUnions_iff (members : Structure) :
    ∀ elements : List (Option (Option (String × PVField))),
    (FieldType.union members).WellFormed → PVField.UnionsWellFormed members elements →
    PVField.UnionsPackable elements →
    (unpackUnions (PVField.unionObjects elements) members = .ok elements ↔
      PVField.UnionsReadable members elements)
  | [], _, _, _ => ⟨fun _ => trivial, fun _ => rfl⟩
  | none :: _, _, _, h => absurd h id
  | some selected :: rest, htype, hwf, h => by
      rw [PVField.unionObjects, unpackUnions_cons, PVField.UnionsReadable,
        ← unpackUnion_iff members selected htype hwf.1 h.1,
        ← unpackUnions_iff members rest htype hwf.2 h.2, Failure.bind_eq_ok]
      constructor
      case mp =>
        rintro ⟨value, hvalue, hothers⟩
        cases value with
        | none =>
          have hlength := unpackUnions_length hothers
          rw [PVField.unionObjects_length] at hlength
          exact absurd hlength (Nat.not_succ_le_self _)
        | some field =>
          obtain ⟨others, hrest, hsame⟩ := Failure.bind_eq_ok.1 hothers
          have hfield := eq_union_of_unpack hvalue
          cases hsame
          exact ⟨hfield ▸ hvalue, hrest⟩
      case mpr =>
        rintro ⟨hvalue, hrest⟩
        exact ⟨_, hvalue, Failure.bind_eq_ok.2 ⟨rest, hrest, rfl⟩⟩

end

/-! ## The lengths of what is read -/

mutual

theorem createPVField_below {bound : ℕ} (hbound : 0 < bound) :
    ∀ type : FieldType, type.createPVField.Below bound
  | .scalar _ => trivial
  | .scalarArray _ => hbound
  | .structure fields => createPVStructure_below hbound fields
  | .structureArray _ => ⟨hbound, trivial⟩
  | .union _ => trivial
  | .unionArray _ => ⟨hbound, trivial⟩

theorem createPVStructure_below {bound : ℕ} (hbound : 0 < bound) :
    ∀ fields : List (String × FieldType),
      PVField.FieldsBelow bound (FieldType.createPVStructure fields)
  | [] => trivial
  | (_, type) :: rest => ⟨createPVField_below hbound type, createPVStructure_below hbound rest⟩

end

theorem copyTo_below {bound : ℕ} {name : String} {value : PVField} {fields : PVStructure}
    (hvalue : value.Below bound) (h : PVField.FieldsBelow bound fields) :
    PVField.FieldsBelow bound (PVField.copyTo name value fields) := by
  induction fields with
  | nil => trivial
  | cons field rest ih =>
    rw [PVField.copyTo]
    split
    case isTrue => exact ⟨hvalue, h.2⟩
    case isFalse => exact ⟨h.1, ih h.2⟩

theorem unpackScalars_length {type : ScalarType} {items : List Object}
    {values : List type.Value} (h : unpackScalars type items = .ok values) :
    values.length = items.length := by
  induction items generalizing values with
  | nil =>
    cases h
    rfl
  | cons item rest ih =>
    rw [unpackScalars, Failure.bind_eq_ok] at h
    obtain ⟨value, _, h⟩ := h
    obtain ⟨others, hothers, h⟩ := Failure.bind_eq_ok.1 h
    cases h
    exact congrArg Nat.succ (ih hothers)

theorem unpackStructures_length {items : List Object} {schema : Structure}
    {elements : List (Option PVStructure)} (h : unpackStructures items schema = .ok elements) :
    elements.length = items.length := by
  induction items generalizing elements with
  | nil =>
    cases h
    rfl
  | cons item rest ih =>
    cases item
    case map entries =>
      rw [unpackStructures, Failure.bind_eq_ok] at h
      obtain ⟨element, _, h⟩ := h
      obtain ⟨others, hothers, h⟩ := Failure.bind_eq_ok.1 h
      cases h
      exact congrArg Nat.succ (ih hothers)
    all_goals
      obtain ⟨others, hothers, h⟩ := Failure.bind_eq_ok.1 h
      cases h
      exact congrArg Nat.succ (ih hothers)

mutual

/-- No array that is read is longer than those in the message. -/
theorem unpack_below {bound : ℕ} (hbound : 0 < bound) :
    ∀ (object : Object) (type : FieldType) (field : PVField), object.Below bound →
      unpackMsgpackToPVField object type = .ok (some field) → field.Below bound
  | object, .scalar type, _, _, h => by
      rw [unpackMsgpackToPVField] at h
      obtain ⟨value, _, h⟩ := Failure.bind_eq_ok.1 h
      cases h
      trivial
  | .array items, .scalarArray elementType, _, hbelow, h => by
      obtain ⟨vals, hvals, h⟩ := Failure.bind_eq_ok.1 h
      cases h
      have hlength := unpackScalars_length hvals
      exact Nat.lt_of_le_of_lt (Nat.le_of_eq hlength) hbelow.1
  | .array items, .structureArray schema, _, hbelow, h => by
      obtain ⟨elements, helements, h⟩ := Failure.bind_eq_ok.1 h
      cases h
      have hlength := unpackStructures_length helements
      exact ⟨hlength ▸ hbelow.1, unpackStructures_below hbound items schema _ hbelow.2 helements⟩
  | .array items, .unionArray members, _, hbelow, h => by
      obtain ⟨result, hresult, h⟩ := Failure.bind_eq_ok.1 h
      cases h
      have hlength := unpackUnions_length hresult
      exact ⟨Nat.lt_of_le_of_lt hlength hbelow.1,
        unpackUnions_below hbound items members _ hbelow.2 hresult⟩
  | .array _, .structure schema, _, _, h => by
      cases h
      exact createPVStructure_below hbound schema
  | .array _, .union _, _, _, h => absurd h nofun
  | .map entries, .structure schema, _, hbelow, h => by
      obtain ⟨pvStruct, hstruct, h⟩ := Failure.bind_eq_ok.1 h
      cases h
      exact unpackEntries_below hbound entries schema _ _ hbelow.2
        (createPVStructure_below hbound schema) hstruct
  | .map [(key, subObj)], .union members, _, hbelow, h => by
      rw [unpackMsgpackToPVField] at h
      obtain ⟨fieldName, _, h⟩ := Failure.bind_eq_ok.1 h
      split at h
      case h_1 => exact absurd h nofun
      case h_2 subField _ =>
        obtain ⟨value, hvalue, h⟩ := Failure.bind_eq_ok.1 h
        cases value with
        | none => exact absurd h nofun
        | some value =>
          cases h
          exact unpack_below hbound subObj subField value hbelow.2.2.1 hvalue
  | .map [], .union _, _, _, h => absurd h nofun
  | .map (_ :: _ :: _), .union _, _, _, h => absurd h nofun
  | .map _, .scalarArray _, _, _, h => by
      cases h
      exact hbound
  | .map _, .structureArray _, _, _, h | .map _, .unionArray _, _, _, h => absurd h nofun
  | .nil, type, field, _, h | .boolean _, type, field, _, h | .int _, type, field, _, h
  | .float32 _, type, field, _, h | .float64 _, type, field, _, h | .str _, type, field, _, h
  | .bin _, type, field, _, h | .ext, type, field, _, h => by
      cases type
      case scalar type =>
        rw [unpackMsgpackToPVField] at h
        obtain ⟨value, _, h⟩ := Failure.bind_eq_ok.1 h
        cases h
        trivial
      case scalarArray =>
        cases h
        exact hbound
      case «structure» schema =>
        cases h
        exact createPVStructure_below hbound schema
      all_goals exact absurd h nofun

theorem unpackEntries_below {bound : ℕ} (hbound : 0 < bound) :
    ∀ (entries : List (Object × Object)) (schema : Structure) (pvStruct result : PVStructure),
      Object.EntriesBelow bound entries → PVField.FieldsBelow bound pvStruct →
      unpackEntries entries schema pvStruct = .ok result → PVField.FieldsBelow bound result
  | [], _, _, _, _, hstruct, h => by
      cases h
      exact hstruct
  | (key, val) :: rest, schema, pvStruct, result, hbelow, hstruct, h => by
      rw [unpackEntries] at h
      obtain ⟨key, _, h⟩ := Failure.bind_eq_ok.1 h
      split at h
      case h_1 => exact unpackEntries_below hbound rest schema _ _ hbelow.2.2 hstruct h
      case h_2 fieldDesc _ =>
        obtain ⟨value, hvalue, h⟩ := Failure.bind_eq_ok.1 h
        cases value with
        | none => exact unpackEntries_below hbound rest schema _ _ hbelow.2.2 hstruct h
        | some value =>
          have hread := unpack_below hbound val fieldDesc value hbelow.2.1 hvalue
          exact unpackEntries_below hbound rest schema _ _ hbelow.2.2
            (copyTo_below hread hstruct) h

theorem unpackStructures_below {bound : ℕ} (hbound : 0 < bound) :
    ∀ (items : List Object) (schema : Structure) (elements : List (Option PVStructure)),
      Object.ItemsBelow bound items → unpackStructures items schema = .ok elements →
      PVField.StructuresBelow bound elements
  | [], _, _, _, h => by
      cases h
      trivial
  | .map entries :: rest, schema, _, hbelow, h => by
      obtain ⟨element, helement, h⟩ := Failure.bind_eq_ok.1 h
      obtain ⟨others, hothers, h⟩ := Failure.bind_eq_ok.1 h
      cases h
      exact ⟨unpackEntries_below hbound entries schema _ _ hbelow.1.2
        (createPVStructure_below hbound schema) helement,
        unpackStructures_below hbound rest schema _ hbelow.2 hothers⟩
  | .nil :: rest, schema, _, hbelow, h | .boolean _ :: rest, schema, _, hbelow, h
  | .int _ :: rest, schema, _, hbelow, h | .float32 _ :: rest, schema, _, hbelow, h
  | .float64 _ :: rest, schema, _, hbelow, h | .str _ :: rest, schema, _, hbelow, h
  | .bin _ :: rest, schema, _, hbelow, h | .ext :: rest, schema, _, hbelow, h
  | .array _ :: rest, schema, _, hbelow, h => by
      obtain ⟨others, hothers, h⟩ := Failure.bind_eq_ok.1 h
      cases h
      exact ⟨createPVStructure_below hbound schema,
        unpackStructures_below hbound rest schema _ hbelow.2 hothers⟩

theorem unpackUnions_below {bound : ℕ} (hbound : 0 < bound) :
    ∀ (items : List Object) (members : Structure)
      (result : List (Option (Option (String × PVField)))), Object.ItemsBelow bound items →
      unpackUnions items members = .ok result → PVField.UnionsBelow bound result
  | [], _, _, _, h => by
      cases h
      trivial
  | item :: rest, members, _, hbelow, h => by
      rw [unpackUnions_cons] at h
      obtain ⟨value, hvalue, h⟩ := Failure.bind_eq_ok.1 h
      cases value with
      | none => exact unpackUnions_below hbound rest members _ hbelow.2 h
      | some field =>
        obtain ⟨others, hothers, h⟩ := Failure.bind_eq_ok.1 h
        cases h
        have hread := unpack_below hbound item (.union members) field hbelow.1 hvalue
        rw [eq_union_of_unpack hvalue] at hread
        exact ⟨hread, unpackUnions_below hbound rest members _ hbelow.2 hothers⟩

end

/-! ## The round trip -/

/-- What can be packed, with arrays whose lengths have at most 32 bits, and is read as it has been
written. -/
structure Transferable (pvStruct : PVStructure) : Prop where
  packable : PVField.FieldsPackable pvStruct
  below : PVField.FieldsBelow (2 ^ 32) pvStruct
  readable : PVField.FieldsReadable pvStruct

theorem msgpackToEpics_entries_iff {pvStruct : PVStructure} (hwf : pvStruct.WellFormed)
    (h : PVField.FieldsPackable pvStruct) :
    msgpackToEpics (.map (PVField.entries pvStruct)) (PVField.types pvStruct) = .ok pvStruct ↔
      PVField.FieldsReadable pvStruct := by
  rw [msgpackToEpics, unpackEntries_entries hwf.1.nodup]
  exact receive_iff pvStruct hwf.2 h

/-- A length that does not fit a header is lost. -/
theorem below_of_roundTrip {pvStruct : PVStructure} (h : roundTrip pvStruct = .ok pvStruct) :
    PVField.FieldsBelow (2 ^ 32) pvStruct := by
  obtain ⟨tokens, htokens, hread⟩ := Failure.bind_eq_ok.1 h
  split at hread
  case h_1 => exact absurd hread nofun
  case h_2 object rest hunpack =>
    have hbelow := Msgpack.unpack_below (packable_of_epicsToMsgpack htokens).2 hunpack
    have hstruct := unpackMsgpackToPVField_structure object (PVField.types pvStruct)
    rw [hread] at hstruct
    exact unpack_below (by decide) object _ _ hbelow hstruct

/-- `msgpackToEpics` gives the structure back that `epicsToMsgpack` has written exactly where the
structure is transferable. -/
theorem roundTrip_iff {pvStruct : PVStructure} (hwf : pvStruct.WellFormed) :
    roundTrip pvStruct = .ok pvStruct ↔ Transferable pvStruct := by
  have hobject : PVField.FieldsBelow (2 ^ 32) pvStruct → PVField.FieldsPackable pvStruct →
      roundTrip pvStruct =
        msgpackToEpics (.map (PVField.entries pvStruct)) (PVField.types pvStruct) := by
    intro hbelow hpackable
    rw [roundTrip, epicsToMsgpack_object hwf hbelow hpackable]
    simp only [bind, Except.bind, Msgpack.unpack_tokens_nil]
  constructor
  case mp =>
    intro h
    have hbelow := below_of_roundTrip h
    obtain ⟨tokens, htokens, _⟩ := Failure.bind_eq_ok.1 h
    have hpackable := (packable_of_epicsToMsgpack htokens).1
    rw [hobject hbelow hpackable] at h
    exact ⟨hpackable, hbelow, (msgpackToEpics_entries_iff hwf hpackable).1 h⟩
  case mpr =>
    intro h
    rw [hobject h.below h.packable]
    exact (msgpackToEpics_entries_iff hwf h.packable).2 h.readable

/-- A structure with a union of which nothing is selected, and an array of shorts. -/
def waveformStructure : PVStructure :=
  [("value", .scalarArray .pvShort [(1 : Int16), (32767 : Int16)]),
    ("choice", .union [("text", .scalar .pvString)] none),
    ("display", .structure [("units", .scalar .pvString "mA")])]

theorem waveformStructure_wellFormed : waveformStructure.WellFormed := by
  refine ⟨⟨by decide, by decide, by decide⟩, trivial, ⟨⟨?_, trivial, trivial⟩, trivial⟩, ?_⟩
  · exact ⟨by decide, by decide, by decide⟩
  · exact ⟨⟨⟨by decide, by decide, by decide⟩, trivial, trivial⟩, trivial⟩

theorem roundTrip_iff_waveform :
    waveformStructure.WellFormed ∧ roundTrip waveformStructure = .ok waveformStructure :=
  ⟨waveformStructure_wellFormed, (roundTrip_iff waveformStructure_wellFormed).2
    { packable := by
        refine ⟨by decide, fun _ _ => trivial, by decide, trivial, by decide, ⟨by decide, ?_⟩,
          trivial⟩
        exact ⟨(by decide : "mA".utf8ByteSize < 2 ^ 32), trivial⟩
      below := ⟨(by decide : 2 < 2 ^ 32), trivial, ⟨trivial, trivial⟩, trivial⟩
      readable := by
        refine ⟨.inl ?_, .inr trivial, .inl ⟨.inl trivial, trivial⟩, trivial⟩
        exact List.forall_mem_cons.2 ⟨(by decide : 0 ≤ (1 : Int16).toInt),
          List.forall_mem_singleton.2 (by decide : 0 ≤ (32767 : Int16).toInt)⟩ }⟩

/-- A negative element of an array of shorts is written as a `uint16` and not read back. -/
theorem not_roundTrip_negativeShort :
    PVStructure.WellFormed [("value", .scalarArray .pvShort [(-1 : Int16)])] ∧
      roundTrip [("value", .scalarArray .pvShort [(-1 : Int16)])] = .error .thrown :=
  ⟨⟨⟨by decide, by decide, by decide⟩, trivial, trivial⟩, rfl⟩

end MsgpackEpicsConverter

end K2eg
