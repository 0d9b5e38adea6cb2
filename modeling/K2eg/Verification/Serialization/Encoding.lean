import K2eg.Model.MsgpackEpicsConverter

/-! # What `epicsToMsgpack` writes

A structure that can be packed is written as the tokens of one Msgpack object. -/

namespace K2eg

open Msgpack (Token Object packArray packMap unpack packArray_of_lt packMap_of_lt Counts)

/-! ## Conditions on a structure -/

/-- The length of a string has at most 32 bits. -/
def ScalarType.Packable : (type : ScalarType) → type.Value → Prop
  | .pvString, value => String.utf8ByteSize value < 2 ^ 32
  | _, _ => True

namespace PVField

mutual

/-- The lengths of all strings and names have at most 32 bits, and no element of an array is
null. -/
def Packable : PVField → Prop
  | .scalar type value => type.Packable value
  | .scalarArray elementType values => ∀ value ∈ values, elementType.Packable value
  | .structure fields => FieldsPackable fields
  | .structureArray _ elements => StructuresPackable elements
  | .union _ selected => SelectedPackable selected
  | .unionArray _ elements => UnionsPackable elements

def FieldsPackable : List (String × PVField) → Prop
  | [] => True
  | (name, field) :: rest =>
    name.utf8ByteSize < 2 ^ 32 ∧ Packable field ∧ FieldsPackable rest

def StructuresPackable : List (Option (List (String × PVField))) → Prop
  | [] => True
  | none :: _ => False
  | some fields :: rest => FieldsPackable fields ∧ StructuresPackable rest

def SelectedPackable : Option (String × PVField) → Prop
  | none => True
  | some (name, field) => name.utf8ByteSize < 2 ^ 32 ∧ Packable field

def UnionsPackable : List (Option (Option (String × PVField))) → Prop
  | [] => True
  | none :: _ => False
  | some selected :: rest => SelectedPackable selected ∧ UnionsPackable rest

end

mutual

/-- All arrays are shorter than the bound. -/
def Below (bound : ℕ) : PVField → Prop
  | .scalar _ _ => True
  | .scalarArray _ values => values.length < bound
  | .structure fields => FieldsBelow bound fields
  | .structureArray _ elements => elements.length < bound ∧ StructuresBelow bound elements
  | .union _ selected => SelectedBelow bound selected
  | .unionArray _ elements => elements.length < bound ∧ UnionsBelow bound elements

def FieldsBelow (bound : ℕ) : List (String × PVField) → Prop
  | [] => True
  | (_, field) :: rest => Below bound field ∧ FieldsBelow bound rest

def StructuresBelow (bound : ℕ) : List (Option (List (String × PVField))) → Prop
  | [] => True
  | none :: rest => StructuresBelow bound rest
  | some fields :: rest => FieldsBelow bound fields ∧ StructuresBelow bound rest

def SelectedBelow (bound : ℕ) : Option (String × PVField) → Prop
  | none => True
  | some (_, field) => Below bound field

def UnionsBelow (bound : ℕ) : List (Option (Option (String × PVField))) → Prop
  | [] => True
  | none :: rest => UnionsBelow bound rest
  | some selected :: rest => SelectedBelow bound selected ∧ UnionsBelow bound rest

end

/-! ## The object of a field -/

end PVField

def ScalarType.object : (type : ScalarType) → type.Value → Object
  | .pvBoolean, value => .boolean value
  | .pvByte, value => .int (Int8.toInt value)
  | .pvShort, value => .int (Int16.toInt value)
  | .pvInt, value => .int (Int32.toInt value)
  | .pvLong, value => .int (Int64.toInt value)
  | .pvUByte, value => .int (UInt8.toNat value)
  | .pvUShort, value => .int (UInt16.toNat value)
  | .pvUInt, value => .int (UInt32.toNat value)
  | .pvULong, value => .int (UInt64.toNat value)
  | .pvFloat, value => .float32 value
  | .pvDouble, value => .float64 value
  | .pvString, value => .str value

def ScalarType.elementObject : (type : ScalarType) → type.Value → Object
  | .pvShort, value => .int (UInt16.toNat (Int16.toUInt16 value))
  | type, value => type.object value

namespace PVField

mutual

/-- The object that stands for a field in Msgpack. -/
def object : PVField → Object
  | .scalar type value => type.object value
  | .scalarArray elementType values => .array (values.map elementType.elementObject)
  | .structure fields => .map (entries fields)
  | .structureArray _ elements => .array (structureObjects elements)
  | .union _ selected => .map [selectedEntry selected]
  | .unionArray _ elements => .array (unionObjects elements)

def entries : List (String × PVField) → List (Object × Object)
  | [] => []
  | (name, field) :: rest => (.str name, object field) :: entries rest

def structureObjects : List (Option (List (String × PVField))) → List Object
  | [] => []
  | none :: rest => .nil :: structureObjects rest
  | some fields :: rest => .map (entries fields) :: structureObjects rest

def selectedEntry : Option (String × PVField) → Object × Object
  | none => (.str "", .nil)
  | some (name, field) => (.str name, object field)

def unionObjects : List (Option (Option (String × PVField))) → List Object
  | [] => []
  | none :: rest => .nil :: unionObjects rest
  | some selected :: rest => .map [selectedEntry selected] :: unionObjects rest

end

@[simp] theorem entries_length (fields : PVStructure) :
    (entries fields).length = fields.length := by
  induction fields with
  | nil => rfl
  | cons field rest ih => simp only [entries, List.length_cons, ih]

@[simp] theorem structureObjects_length (elements : List (Option PVStructure)) :
    (structureObjects elements).length = elements.length := by
  induction elements with
  | nil => rfl
  | cons element rest ih => cases element <;> simp only [structureObjects, List.length_cons, ih]

@[simp] theorem unionObjects_length (elements : List (Option (Option (String × PVField)))) :
    (unionObjects elements).length = elements.length := by
  induction elements with
  | nil => rfl
  | cons element rest ih => cases element <;> simp only [unionObjects, List.length_cons, ih]

end PVField

/-! ## Packing writes the object -/

theorem packString_of_lt {value : String} (h : value.utf8ByteSize < 2 ^ 32) :
    packString value = .ok (Object.tokens (.str value)) := by
  rw [packString, if_pos h]
  rfl

theorem lt_of_packString {value : String} {tokens : List Token}
    (h : packString value = .ok tokens) :
    value.utf8ByteSize < 2 ^ 32 ∧ ∀ token ∈ tokens, token.Below (2 ^ 32) := by
  rw [packString] at h
  split at h
  case isTrue hlt =>
    cases h
    exact ⟨hlt, List.forall_mem_singleton.2 trivial⟩
  case isFalse => exact absurd h (by simp)

namespace MsgpackEpicsConverter

theorem packScalar_object {type : ScalarType} {value : type.Value} (h : type.Packable value) :
    packScalar type value = .ok (type.object value).tokens := by
  cases type
  case pvString => exact packString_of_lt h
  all_goals rfl

theorem packElement_object {type : ScalarType} {value : type.Value} (h : type.Packable value) :
    packElement type value = .ok (type.elementObject value).tokens := by
  cases type
  case pvString => exact packString_of_lt h
  all_goals rfl

theorem packElements_object {type : ScalarType} {values : List type.Value}
    (h : ∀ value ∈ values, type.Packable value) :
    packElements type values = .ok (Object.itemTokens (values.map type.elementObject)) := by
  induction values with
  | nil => rfl
  | cons value rest ih =>
    have hall := List.forall_mem_cons.1 h
    rw [packElements, packElement_object hall.1, ih hall.2]
    rfl

mutual

/-- A field that can be packed is written as its object. -/
theorem packField_object : ∀ field : PVField, field.WellFormed → field.Below (2 ^ 32) →
    field.Packable → packField field = .ok field.object.tokens
  | .scalar type value, _, _, h => packScalar_object h
  | .scalarArray elementType values, _, hbelow, h => by
      rw [packField, packElements_object h, packArray_of_lt hbelow, PVField.object, Object.tokens,
        List.length_map]
      rfl
  | .structure fields, hwf, hbelow, h => by
      have hlength : fields.length < 2 ^ 32 := by simpa using hwf.1.length_lt
      rw [packField, packFields_object fields hwf.2 hbelow h, packMap_of_lt hlength,
        PVField.object, Object.tokens, PVField.entries_length]
      rfl
  | .structureArray type elements, hwf, hbelow, h => by
      rw [packField, packStructures_object type elements hwf.1 hwf.2 hbelow.2 h,
        packArray_of_lt hbelow.1, PVField.object, Object.tokens, PVField.structureObjects_length]
      rfl
  | .union members selected, hwf, hbelow, h => packUnion_object members selected hwf.2 hbelow h
  | .unionArray members elements, hwf, hbelow, h => by
      rw [packField, packUnions_object members elements hwf.2 hbelow.2 h,
        packArray_of_lt hbelow.1, PVField.object, Object.tokens, PVField.unionObjects_length]
      rfl

theorem packFields_object : ∀ fields : List (String × PVField), PVField.AllWellFormed fields →
    PVField.FieldsBelow (2 ^ 32) fields → PVField.FieldsPackable fields →
    packFields fields = .ok (Object.entryTokens (PVField.entries fields))
  | [], _, _, _ => rfl
  | (name, field) :: rest, hwf, hbelow, h => by
      rw [packFields, packString_of_lt h.1, packField_object field hwf.1 hbelow.1 h.2.1,
        packFields_object rest hwf.2 hbelow.2 h.2.2]
      rfl

theorem packStructures_object (type : Structure) : ∀ elements : List (Option PVStructure),
    (FieldType.structureArray type).WellFormed → PVField.ElementsWellFormed type elements →
    PVField.StructuresBelow (2 ^ 32) elements → PVField.StructuresPackable elements →
    packStructures elements = .ok (Object.itemTokens (PVField.structureObjects elements))
  | [], _, _, _, _ => rfl
  | none :: _, _, _, _, h => absurd h id
  | some fields :: rest, htype, hwf, hbelow, h => by
      have hlength : fields.length < 2 ^ 32 := by
        have := htype.1.length_lt
        rw [← hwf.1, List.length_map, PVField.types_length] at this
        exact this
      rw [packStructures, packFields_object fields hwf.2.1 hbelow.1 h.1, packMap_of_lt hlength,
        packStructures_object type rest htype hwf.2.2 hbelow.2 h.2, PVField.structureObjects,
        Object.itemTokens, Object.tokens, PVField.entries_length]
      rfl

theorem packUnion_object (members : Structure) : ∀ selected : Option (String × PVField),
    PVField.SelectedWellFormed members selected → PVField.SelectedBelow (2 ^ 32) selected →
    PVField.SelectedPackable selected →
    packUnion selected = .ok (Object.map [PVField.selectedEntry selected]).tokens
  | none, _, _, _ => rfl
  | some (name, field), hwf, hbelow, h => by
      rw [packUnion, packString_of_lt h.1, packField_object field hwf.2 hbelow h.2,
        packMap_of_lt (by decide), PVField.selectedEntry]
      simp only [Object.tokens, Object.entryTokens, List.append_nil]
      rfl

theorem packUnions_object (members : Structure) :
    ∀ elements : List (Option (Option (String × PVField))),
    PVField.UnionsWellFormed members elements → PVField.UnionsBelow (2 ^ 32) elements →
    PVField.UnionsPackable elements →
    packUnions elements = .ok (Object.itemTokens (PVField.unionObjects elements))
  | [], _, _, _ => rfl
  | none :: _, _, _, h => absurd h id
  | some selected :: rest, hwf, hbelow, h => by
      rw [packUnions, packUnion_object members selected hwf.1 hbelow.1 h.1,
        packUnions_object members rest hwf.2 hbelow.2 h.2]
      rfl

end

/-! ## What has been packed could be packed -/

/-- The tokens of a packer that has returned, and what it has packed. -/
theorem packed_cons {token : Token} {packed : Except Failure (List Token)}
    {tokens : List Token} {P : Prop} (htoken : token.Below (2 ^ 32))
    (h : (packed >>= fun data => pure (token :: data)) = .ok tokens)
    (ih : ∀ data, packed = .ok data → P ∧ ∀ token ∈ data, token.Below (2 ^ 32)) :
    P ∧ ∀ token ∈ tokens, token.Below (2 ^ 32) := by
  cases hpacked : packed with
  | error failure =>
    rw [hpacked] at h
    exact absurd h nofun
  | ok data =>
    rw [hpacked] at h
    cases h
    exact ⟨(ih data hpacked).1, List.forall_mem_cons.2 ⟨htoken, (ih data hpacked).2⟩⟩

theorem packed_append {first second : Except Failure (List Token)} {tokens : List Token}
    {P Q : Prop} (h : (first >>= fun a => second >>= fun b => pure (a ++ b)) = .ok tokens)
    (hfirst : ∀ data, first = .ok data → P ∧ ∀ token ∈ data, token.Below (2 ^ 32))
    (hsecond : ∀ data, second = .ok data → Q ∧ ∀ token ∈ data, token.Below (2 ^ 32)) :
    (P ∧ Q) ∧ ∀ token ∈ tokens, token.Below (2 ^ 32) := by
  cases ha : first with
  | error failure =>
    rw [ha] at h
    exact absurd h nofun
  | ok a =>
    cases hb : second with
    | error failure =>
      rw [ha, hb] at h
      exact absurd h nofun
    | ok b =>
      rw [ha, hb] at h
      cases h
      refine ⟨⟨(hfirst a ha).1, (hsecond b hb).1⟩, List.forall_mem_append.2 ?_⟩
      exact ⟨(hfirst a ha).2, (hsecond b hb).2⟩

theorem packable_of_packScalar {type : ScalarType} {value : type.Value} {tokens : List Token}
    (h : packScalar type value = .ok tokens) :
    type.Packable value ∧ ∀ token ∈ tokens, token.Below (2 ^ 32) := by
  cases type
  case pvString => exact lt_of_packString h
  all_goals
    cases h
    exact ⟨trivial, List.forall_mem_singleton.2 trivial⟩

theorem packable_of_packElement {type : ScalarType} {value : type.Value} {tokens : List Token}
    (h : packElement type value = .ok tokens) :
    type.Packable value ∧ ∀ token ∈ tokens, token.Below (2 ^ 32) := by
  cases type
  case pvShort =>
    cases h
    exact ⟨trivial, List.forall_mem_singleton.2 trivial⟩
  all_goals exact packable_of_packScalar h

theorem packable_of_packElements {type : ScalarType} {values : List type.Value}
    {tokens : List Token} (h : packElements type values = .ok tokens) :
    (∀ value ∈ values, type.Packable value) ∧ ∀ token ∈ tokens, token.Below (2 ^ 32) := by
  induction values generalizing tokens with
  | nil =>
    cases h
    exact ⟨List.forall_mem_nil _, List.forall_mem_nil _⟩
  | cons value rest ih =>
    have hboth := packed_append h (fun _ => packable_of_packElement) (fun _ => ih)
    exact ⟨List.forall_mem_cons.2 hboth.1, hboth.2⟩

mutual

theorem packable_of_packField : ∀ (field : PVField) (tokens : List Token),
    packField field = .ok tokens → field.Packable ∧ ∀ token ∈ tokens, token.Below (2 ^ 32)
  | .scalar _ _, _, h => packable_of_packScalar h
  | .scalarArray _ values, _, h =>
    packed_cons (Msgpack.packArray_below values.length) h fun _ => packable_of_packElements
  | .structure fields, _, h =>
    packed_cons (Msgpack.packMap_below fields.length) h (packable_of_packFields fields)
  | .structureArray _ elements, _, h =>
    packed_cons (Msgpack.packArray_below elements.length) h (packable_of_packStructures elements)
  | .union _ selected, tokens, h => packable_of_packUnion selected tokens h
  | .unionArray _ elements, _, h =>
    packed_cons (Msgpack.packArray_below elements.length) h (packable_of_packUnions elements)

theorem packable_of_packFields : ∀ (fields : List (String × PVField)) (tokens : List Token),
    packFields fields = .ok tokens →
      PVField.FieldsPackable fields ∧ ∀ token ∈ tokens, token.Below (2 ^ 32)
  | [], _, h => by
      cases h
      exact ⟨trivial, List.forall_mem_nil _⟩
  | (name, field) :: rest, tokens, h => by
      have hassoc : ((packString name >>= fun key => packField field >>= fun value =>
          pure (key ++ value)) >>= fun first => packFields rest >>= fun others =>
          pure (first ++ others)) = .ok tokens := by
        simpa only [packFields, bind_assoc, pure_bind] using h
      have hboth := packed_append hassoc
        (fun _ hfirst => packed_append hfirst (fun _ => lt_of_packString)
          (packable_of_packField field))
        (packable_of_packFields rest)
      exact ⟨⟨hboth.1.1.1, hboth.1.1.2, hboth.1.2⟩, hboth.2⟩

theorem packable_of_packStructures : ∀ (elements : List (Option (List (String × PVField))))
    (tokens : List Token), packStructures elements = .ok tokens →
      PVField.StructuresPackable elements ∧ ∀ token ∈ tokens, token.Below (2 ^ 32)
  | [], _, h => by
      cases h
      exact ⟨trivial, List.forall_mem_nil _⟩
  | none :: _, _, h => absurd h nofun
  | some fields :: rest, tokens, h => by
      have hassoc : ((packFields fields >>= fun pairs => pure (packMap fields.length :: pairs)) >>=
          fun first => packStructures rest >>= fun others => pure (first ++ others)) =
          .ok tokens := by
        simpa only [packStructures, bind_assoc, pure_bind] using h
      exact packed_append hassoc
        (fun _ hfirst => packed_cons (Msgpack.packMap_below fields.length) hfirst
          (packable_of_packFields fields))
        (packable_of_packStructures rest)

theorem packable_of_packUnion : ∀ (selected : Option (String × PVField)) (tokens : List Token),
    packUnion selected = .ok tokens →
      PVField.SelectedPackable selected ∧ ∀ token ∈ tokens, token.Below (2 ^ 32)
  | none, _, h => by
      cases h
      exact ⟨trivial, List.forall_mem_cons.2 ⟨Msgpack.packMap_below 1,
        List.forall_mem_cons.2 ⟨trivial, List.forall_mem_singleton.2 trivial⟩⟩⟩
  | some (name, field), tokens, h => by
      have hassoc : ((packString name >>= fun key => packField field >>= fun value =>
          pure (key ++ value)) >>= fun pair => pure (packMap 1 :: pair)) = .ok tokens := by
        simpa only [packUnion, bind_assoc, pure_bind, List.cons_append] using h
      exact packed_cons (Msgpack.packMap_below 1) hassoc fun _ hpair =>
        packed_append hpair (fun _ => lt_of_packString) (packable_of_packField field)

theorem packable_of_packUnions : ∀ (elements : List (Option (Option (String × PVField))))
    (tokens : List Token), packUnions elements = .ok tokens →
      PVField.UnionsPackable elements ∧ ∀ token ∈ tokens, token.Below (2 ^ 32)
  | [], _, h => by
      cases h
      exact ⟨trivial, List.forall_mem_nil _⟩
  | none :: _, _, h => absurd h nofun
  | some selected :: rest, _, h =>
    packed_append h (packable_of_packUnion selected) (packable_of_packUnions rest)

end

/-! ## What has lost a part of a length is not one object -/

theorem counts_of_packString {value : String} {tokens : List Token}
    (h : packString value = .ok tokens) : Counts (-1) True tokens := by
  rw [packString] at h
  split at h
  case isTrue =>
    cases h
    exact ⟨Int.le_refl (-1), fun _ => trivial⟩
  case isFalse => exact absurd h nofun

theorem counts_of_packScalar {type : ScalarType} {value : type.Value} {tokens : List Token}
    (h : packScalar type value = .ok tokens) : Counts (-1) True tokens := by
  cases type
  case pvString => exact counts_of_packString h
  all_goals
    cases h
    exact ⟨Int.le_refl (-1), fun _ => trivial⟩

theorem counts_of_packElement {type : ScalarType} {value : type.Value} {tokens : List Token}
    (h : packElement type value = .ok tokens) : Counts (-1) True tokens := by
  cases type
  case pvString => exact counts_of_packString h
  all_goals
    cases h
    exact ⟨Int.le_refl (-1), fun _ => trivial⟩

theorem counts_of_packElements {type : ScalarType} {values : List type.Value}
    {tokens : List Token} (h : packElements type values = .ok tokens) :
    Counts (-values.length) True tokens := by
  induction values generalizing tokens with
  | nil =>
    cases h
    exact Msgpack.counts_nil
  | cons value rest ih =>
    obtain ⟨first, hfirst, h⟩ := Failure.bind_eq_ok.1 h
    obtain ⟨others, hothers, h⟩ := Failure.bind_eq_ok.1 h
    cases h
    have hboth := (counts_of_packElement hfirst).append (ih hothers)
    rw [List.length_cons, show (-((rest.length + 1 : ℕ) : Int)) = -1 + -rest.length by omega]
    exact hboth.mono fun _ => trivial

mutual

theorem counts_of_packField : ∀ (field : PVField) (tokens : List Token),
    packField field = .ok tokens → Counts (-1) (field.Below (2 ^ 32)) tokens
  | .scalar _ _, _, h => (counts_of_packScalar h).mono fun _ => trivial
  | .scalarArray _ values, _, h => by
      obtain ⟨data, hdata, h⟩ := Failure.bind_eq_ok.1 h
      cases h
      have hboth := (Msgpack.counts_packArray values.length).append (counts_of_packElements hdata)
      rw [show ((values.length : Int) - 1 + -values.length) = -1 by omega] at hboth
      exact hboth.mono And.left
  | .structure fields, _, h => by
      obtain ⟨pairs, hpairs, h⟩ := Failure.bind_eq_ok.1 h
      cases h
      have hboth := (Msgpack.counts_packMap fields.length).append
        (counts_of_packFields fields pairs hpairs)
      rw [show (2 * (fields.length : Int) - 1 + -2 * fields.length) = -1 by omega] at hboth
      exact hboth.mono And.right
  | .structureArray _ elements, _, h => by
      obtain ⟨view, hview, h⟩ := Failure.bind_eq_ok.1 h
      cases h
      have hboth := (Msgpack.counts_packArray elements.length).append
        (counts_of_packStructures elements view hview)
      rw [show ((elements.length : Int) - 1 + -elements.length) = -1 by omega] at hboth
      exact hboth
  | .union _ selected, tokens, h => counts_of_packUnion selected tokens h
  | .unionArray _ elements, _, h => by
      obtain ⟨view, hview, h⟩ := Failure.bind_eq_ok.1 h
      cases h
      have hboth := (Msgpack.counts_packArray elements.length).append
        (counts_of_packUnions elements view hview)
      rw [show ((elements.length : Int) - 1 + -elements.length) = -1 by omega] at hboth
      exact hboth

theorem counts_of_packFields : ∀ (fields : List (String × PVField)) (tokens : List Token),
    packFields fields = .ok tokens →
      Counts (-2 * fields.length) (PVField.FieldsBelow (2 ^ 32) fields) tokens
  | [], _, h => by
      cases h
      exact Msgpack.counts_nil
  | (name, field) :: rest, _, h => by
      obtain ⟨key, hkey, h⟩ := Failure.bind_eq_ok.1 h
      obtain ⟨value, hvalue, h⟩ := Failure.bind_eq_ok.1 h
      obtain ⟨others, hothers, h⟩ := Failure.bind_eq_ok.1 h
      cases h
      have hfirst := counts_of_packString hkey
      have hall := (hfirst.append (counts_of_packField field value hvalue)).append
        (counts_of_packFields rest others hothers)
      rw [List.length_cons, show (-2 * ((rest.length + 1 : ℕ) : Int)) =
        -1 + -1 + -2 * rest.length by omega]
      exact hall.mono fun h => ⟨h.1.2, h.2⟩

theorem counts_of_packStructures : ∀ (elements : List (Option (List (String × PVField))))
    (tokens : List Token), packStructures elements = .ok tokens →
      Counts (-elements.length) (PVField.StructuresBelow (2 ^ 32) elements) tokens
  | [], _, h => by
      cases h
      exact Msgpack.counts_nil
  | none :: _, _, h => absurd h nofun
  | some fields :: rest, _, h => by
      obtain ⟨pairs, hpairs, h⟩ := Failure.bind_eq_ok.1 h
      obtain ⟨others, hothers, h⟩ := Failure.bind_eq_ok.1 h
      cases h
      have hall := ((Msgpack.counts_packMap fields.length).append
        (counts_of_packFields fields pairs hpairs)).append
        (counts_of_packStructures rest others hothers)
      rw [List.length_cons, show (-((rest.length + 1 : ℕ) : Int)) =
        2 * (fields.length : Int) - 1 + -2 * fields.length + -rest.length by omega]
      exact hall.mono fun h => ⟨h.1.2, h.2⟩

theorem counts_of_packUnion : ∀ (selected : Option (String × PVField)) (tokens : List Token),
    packUnion selected = .ok tokens →
      Counts (-1) (PVField.SelectedBelow (2 ^ 32) selected) tokens
  | none, _, h => by
      cases h
      exact ⟨by decide, fun _ => trivial⟩
  | some (name, field), _, h => by
      obtain ⟨key, hkey, h⟩ := Failure.bind_eq_ok.1 h
      obtain ⟨value, hvalue, h⟩ := Failure.bind_eq_ok.1 h
      cases h
      have hall := (Msgpack.counts_packMap 1).append ((counts_of_packString hkey).append
        (counts_of_packField field value hvalue))
      exact hall.mono fun h => h.2.2

theorem counts_of_packUnions : ∀ (elements : List (Option (Option (String × PVField))))
    (tokens : List Token), packUnions elements = .ok tokens →
      Counts (-elements.length) (PVField.UnionsBelow (2 ^ 32) elements) tokens
  | [], _, h => by
      cases h
      exact Msgpack.counts_nil
  | none :: _, _, h => absurd h nofun
  | some selected :: rest, _, h => by
      obtain ⟨first, hfirst, h⟩ := Failure.bind_eq_ok.1 h
      obtain ⟨others, hothers, h⟩ := Failure.bind_eq_ok.1 h
      cases h
      rw [List.length_cons, show (-((rest.length + 1 : ℕ) : Int)) = -1 + -rest.length by omega]
      exact (counts_of_packUnion selected first hfirst).append
        (counts_of_packUnions rest others hothers)

end

theorem epicsToMsgpack_object {pvStruct : PVStructure} (hwf : pvStruct.WellFormed)
    (hbelow : PVField.FieldsBelow (2 ^ 32) pvStruct) (h : PVField.FieldsPackable pvStruct) :
    epicsToMsgpack pvStruct = .ok (Object.map (PVField.entries pvStruct)).tokens :=
  packField_object (.structure pvStruct) hwf hbelow h

theorem packable_of_epicsToMsgpack {pvStruct : PVStructure} {tokens : List Token}
    (h : epicsToMsgpack pvStruct = .ok tokens) :
    PVField.FieldsPackable pvStruct ∧ ∀ token ∈ tokens, token.Below (2 ^ 32) :=
  packable_of_packField (.structure pvStruct) tokens h

theorem counts_of_epicsToMsgpack {pvStruct : PVStructure} {tokens : List Token}
    (h : epicsToMsgpack pvStruct = .ok tokens) :
    Counts (-1) (PVField.FieldsBelow (2 ^ 32) pvStruct) tokens :=
  counts_of_packField (.structure pvStruct) tokens h

end MsgpackEpicsConverter

end K2eg
