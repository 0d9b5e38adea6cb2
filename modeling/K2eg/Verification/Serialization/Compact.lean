import K2eg.Model.MsgpackCompactSerialization
import K2eg.Verification.Serialization.Encoding

/-! # What the compact serializer writes

One array with the reply id, the name and the exact values of the leaves in depth-first order, on
the condition that each of them can be packed and no element of an array of shorts is outside the
range of a byte. -/

namespace K2eg

open Msgpack (Token Object packArray unpack packArray_of_lt Counts)

/-! ## The leaves of a structure -/

namespace PVField

mutual

/-- The leaves of a field in depth-first order; a null element of a structure array has none. -/
def leaves : PVField → List Leaf
  | .scalar type value => [.scalar type value]
  | .scalarArray elementType values => [.scalarArray elementType values]
  | .structure fields => fieldLeaves fields
  | .structureArray _ elements => elementLeaves elements
  | .union _ _ | .unionArray _ _ => []

def fieldLeaves : List (String × PVField) → List Leaf
  | [] => []
  | (_, field) :: rest => leaves field ++ fieldLeaves rest

def elementLeaves : List (Option (List (String × PVField))) → List Leaf
  | [] => []
  | none :: rest => elementLeaves rest
  | some fields :: rest => fieldLeaves fields ++ elementLeaves rest

end

mutual

/-- No structure array that is reached without passing a union has a null element. -/
def NonNull : PVField → Prop
  | .structure fields => FieldsNonNull fields
  | .structureArray _ elements => ElementsNonNull elements
  | _ => True

def FieldsNonNull : List (String × PVField) → Prop
  | [] => True
  | (_, field) :: rest => NonNull field ∧ FieldsNonNull rest

def ElementsNonNull : List (Option (List (String × PVField))) → Prop
  | [] => True
  | none :: _ => False
  | some fields :: rest => FieldsNonNull fields ∧ ElementsNonNull rest

end

end PVField

/-! ## The values of the leaves -/

/-- The exact value of a scalar or an element; a boolean is 0 or 1. -/
def ScalarType.exactObject : (type : ScalarType) → type.Value → Object
  | .pvBoolean, value => .int (Bool.toNat value)
  | type, value => type.object value

/-- What is written for an element of an array. -/
def ScalarType.convertedObject : (type : ScalarType) → type.Value → Object
  | .pvShort, value => .int (Int8.toInt (Int16.toInt8 value))
  | type, value => type.exactObject value

/-- The conversion of an element keeps its value. -/
def ScalarType.FitsByte : (type : ScalarType) → type.Value → Prop
  | .pvShort, value => -2 ^ 7 ≤ Int16.toInt value ∧ Int16.toInt value < 2 ^ 7
  | _, _ => True

theorem toInt_toInt8_iff (value : Int16) :
    value.toInt8.toInt = value.toInt ↔ -2 ^ 7 ≤ value.toInt ∧ value.toInt < 2 ^ 7 := by
  have hlower := value.le_toInt
  have hupper := value.toInt_lt
  rw [Int16.toInt_toInt8, Int.bmod_def]
  split <;> omega

theorem convertedObject_iff (type : ScalarType) (value : type.Value) :
    type.convertedObject value = type.exactObject value ↔ type.FitsByte value := by
  cases type with
  | pvShort =>
    change Object.int (Int16.toInt8 value).toInt = .int (Int16.toInt value) ↔ _
    rw [Object.int.injEq]
    exact toInt_toInt8_iff value
  | _ => exact ⟨fun _ => trivial, fun _ => rfl⟩

namespace Leaf

def exactObject : Leaf → Object
  | .scalar type value => type.exactObject value
  | .scalarArray elementType values => .array (values.map elementType.exactObject)

def convertedObject : Leaf → Object
  | .scalar type value => type.exactObject value
  | .scalarArray elementType values => .array (values.map elementType.convertedObject)

def FitsByte : Leaf → Prop
  | .scalar _ _ => True
  | .scalarArray elementType values => ∀ value ∈ values, elementType.FitsByte value

def Packable : Leaf → Prop
  | .scalar type value => type.Packable value
  | .scalarArray elementType values => ∀ value ∈ values, elementType.Packable value

/-- The length of an array has at most 32 bits. -/
def Short : Leaf → Prop
  | .scalar _ _ => True
  | .scalarArray _ values => values.length < 2 ^ 32

theorem convertedObject_iff (leaf : Leaf) :
    leaf.convertedObject = leaf.exactObject ↔ leaf.FitsByte := by
  cases leaf with
  | scalar type value => exact ⟨fun _ => trivial, fun _ => rfl⟩
  | scalarArray elementType values =>
    rw [Leaf.convertedObject, Leaf.exactObject, FitsByte, Object.array.injEq, List.map_inj_left]
    exact forall₂_congr fun value _ => K2eg.convertedObject_iff elementType value

theorem map_convertedObject_iff (leaves : List Leaf) :
    leaves.map convertedObject = leaves.map exactObject ↔ ∀ leaf ∈ leaves, leaf.FitsByte := by
  rw [List.map_inj_left]
  exact forall₂_congr fun leaf _ => convertedObject_iff leaf

end Leaf

namespace MsgpackCompactSerializer

/-! ## The scan -/

mutual

theorem scannField_iff : ∀ (field : PVField) (values : List Leaf),
    scannField field = .ok values ↔ field.NonNull ∧ values = field.leaves
  | .scalar _ _, _ | .scalarArray _ _, _ | .union _ _, _ | .unionArray _ _, _ => by
      constructor
      case mp =>
        intro h
        cases h
        exact ⟨trivial, rfl⟩
      case mpr =>
        intro h
        rw [h.2]
        rfl
  | .structure fields, values => scannStructure_iff fields values
  | .structureArray _ elements, values => scannStructureArray_iff elements values

theorem scannStructure_iff : ∀ (fields : List (String × PVField)) (values : List Leaf),
    scannStructure fields = .ok values ↔
      PVField.FieldsNonNull fields ∧ values = PVField.fieldLeaves fields
  | [], values => by
      constructor
      case mp =>
        intro h
        cases h
        exact ⟨trivial, rfl⟩
      case mpr =>
        intro h
        rw [h.2]
        rfl
  | (name, field) :: rest, values => by
      rw [scannStructure, Failure.bind_eq_ok]
      constructor
      case mp =>
        rintro ⟨first, hfirst, h⟩
        obtain ⟨others, hothers, h⟩ := Failure.bind_eq_ok.1 h
        cases h
        have hfield := (scannField_iff field first).1 hfirst
        have hrest := (scannStructure_iff rest others).1 hothers
        rw [hfield.2, hrest.2]
        exact ⟨⟨hfield.1, hrest.1⟩, rfl⟩
      case mpr =>
        rintro ⟨hnull, rfl⟩
        exact ⟨_, (scannField_iff field _).2 ⟨hnull.1, rfl⟩, Failure.bind_eq_ok.2
          ⟨_, (scannStructure_iff rest _).2 ⟨hnull.2, rfl⟩, rfl⟩⟩

theorem scannStructureArray_iff : ∀ (elements : List (Option (List (String × PVField))))
    (values : List Leaf), scannStructureArray elements = .ok values ↔
      PVField.ElementsNonNull elements ∧ values = PVField.elementLeaves elements
  | [], values => by
      constructor
      case mp =>
        intro h
        cases h
        exact ⟨trivial, rfl⟩
      case mpr =>
        intro h
        rw [h.2]
        rfl
  | none :: _, _ => ⟨nofun, fun h => absurd h.1 id⟩
  | some fields :: rest, values => by
      rw [scannStructureArray, Failure.bind_eq_ok]
      constructor
      case mp =>
        rintro ⟨first, hfirst, h⟩
        obtain ⟨others, hothers, h⟩ := Failure.bind_eq_ok.1 h
        cases h
        have hfields := (scannStructure_iff fields first).1 hfirst
        have hrest := (scannStructureArray_iff rest others).1 hothers
        rw [hfields.2, hrest.2]
        exact ⟨⟨hfields.1, hrest.1⟩, rfl⟩
      case mpr =>
        rintro ⟨hnull, rfl⟩
        exact ⟨_, (scannStructure_iff fields _).2 ⟨hnull.1, rfl⟩, Failure.bind_eq_ok.2
          ⟨_, (scannStructureArray_iff rest _).2 ⟨hnull.2, rfl⟩, rfl⟩⟩

end

/-! ## The leaves are written as their objects -/

theorem processScalar_object {type : ScalarType} {value : type.Value} (h : type.Packable value) :
    processScalar type value = .ok (type.exactObject value).tokens := by
  cases type
  case pvString => exact packString_of_lt h
  all_goals rfl

theorem processElement_object {type : ScalarType} {value : type.Value} (h : type.Packable value) :
    processElement type value = .ok (type.convertedObject value).tokens := by
  cases type
  case pvString => exact packString_of_lt h
  all_goals rfl

theorem processElements_object {type : ScalarType} {values : List type.Value}
    (h : ∀ value ∈ values, type.Packable value) :
    processElements type values = .ok (Object.itemTokens (values.map type.convertedObject)) := by
  induction values with
  | nil => rfl
  | cons value rest ih =>
    have hall := List.forall_mem_cons.1 h
    rw [processElements, processElement_object hall.1, ih hall.2]
    rfl

theorem processLeaf_object {leaf : Leaf} (hshort : leaf.Short) (h : leaf.Packable) :
    processLeaf leaf = .ok leaf.convertedObject.tokens := by
  cases leaf with
  | scalar type value => exact processScalar_object h
  | scalarArray elementType values =>
    rw [processLeaf, processScalarArray, processElements_object h, packArray_of_lt hshort,
      Leaf.convertedObject, Object.tokens, List.length_map]
    rfl

theorem processLeaves_object {leaves : List Leaf} (hshort : ∀ leaf ∈ leaves, leaf.Short)
    (h : ∀ leaf ∈ leaves, leaf.Packable) :
    processLeaves leaves = .ok (Object.itemTokens (leaves.map Leaf.convertedObject)) := by
  induction leaves with
  | nil => rfl
  | cons leaf rest ih =>
    have hall := List.forall_mem_cons.1 h
    have hallShort := List.forall_mem_cons.1 hshort
    rw [processLeaves, processLeaf_object hallShort.1 hall.1, ih hallShort.2 hall.2]
    rfl

theorem packable_of_processScalar {type : ScalarType} {value : type.Value} {tokens : List Token}
    (h : processScalar type value = .ok tokens) :
    type.Packable value ∧ ∀ token ∈ tokens, token.Below (2 ^ 32) := by
  cases type
  case pvBoolean =>
    cases h
    exact ⟨trivial, List.forall_mem_singleton.2 trivial⟩
  all_goals exact MsgpackEpicsConverter.packable_of_packScalar h

theorem packable_of_processElement {type : ScalarType} {value : type.Value} {tokens : List Token}
    (h : processElement type value = .ok tokens) :
    type.Packable value ∧ ∀ token ∈ tokens, token.Below (2 ^ 32) := by
  cases type
  case pvShort =>
    cases h
    exact ⟨trivial, List.forall_mem_singleton.2 trivial⟩
  all_goals exact packable_of_processScalar h

theorem packable_of_processElements {type : ScalarType} {values : List type.Value}
    {tokens : List Token} (h : processElements type values = .ok tokens) :
    (∀ value ∈ values, type.Packable value) ∧ ∀ token ∈ tokens, token.Below (2 ^ 32) := by
  induction values generalizing tokens with
  | nil =>
    cases h
    exact ⟨List.forall_mem_nil _, List.forall_mem_nil _⟩
  | cons value rest ih =>
    have hboth := MsgpackEpicsConverter.packed_append h (fun _ => packable_of_processElement)
      (fun _ => ih)
    exact ⟨List.forall_mem_cons.2 hboth.1, hboth.2⟩

theorem packable_of_processLeaf {leaf : Leaf} {tokens : List Token}
    (h : processLeaf leaf = .ok tokens) :
    leaf.Packable ∧ ∀ token ∈ tokens, token.Below (2 ^ 32) := by
  cases leaf with
  | scalar type value => exact packable_of_processScalar h
  | scalarArray elementType values =>
    exact MsgpackEpicsConverter.packed_cons (Msgpack.packArray_below values.length) h
      fun _ => packable_of_processElements

theorem packable_of_processLeaves {leaves : List Leaf} {tokens : List Token}
    (h : processLeaves leaves = .ok tokens) :
    (∀ leaf ∈ leaves, leaf.Packable) ∧ ∀ token ∈ tokens, token.Below (2 ^ 32) := by
  induction leaves generalizing tokens with
  | nil =>
    cases h
    exact ⟨List.forall_mem_nil _, List.forall_mem_nil _⟩
  | cons leaf rest ih =>
    have hboth := MsgpackEpicsConverter.packed_append h (fun _ => packable_of_processLeaf)
      (fun _ => ih)
    exact ⟨List.forall_mem_cons.2 hboth.1, hboth.2⟩

/-! ## What has lost a part of a length -/

theorem counts_of_processScalar {type : ScalarType} {value : type.Value} {tokens : List Token}
    (h : processScalar type value = .ok tokens) : Counts (-1) True tokens := by
  cases type
  case pvString => exact MsgpackEpicsConverter.counts_of_packString h
  all_goals
    cases h
    exact ⟨Int.le_refl (-1), fun _ => trivial⟩

theorem counts_of_processElements {type : ScalarType} {values : List type.Value}
    {tokens : List Token} (h : processElements type values = .ok tokens) :
    Counts (-values.length) True tokens := by
  induction values generalizing tokens with
  | nil =>
    cases h
    exact Msgpack.counts_nil
  | cons value rest ih =>
    obtain ⟨first, hfirst, h⟩ := Failure.bind_eq_ok.1 h
    obtain ⟨others, hothers, h⟩ := Failure.bind_eq_ok.1 h
    cases h
    have hone : Counts (-1) True first := by
      cases type
      case pvString => exact MsgpackEpicsConverter.counts_of_packString hfirst
      all_goals
        cases hfirst
        exact ⟨Int.le_refl (-1), fun _ => trivial⟩
    rw [List.length_cons, show (-((rest.length + 1 : ℕ) : Int)) = -1 + -rest.length by omega]
    exact (hone.append (ih hothers)).mono fun _ => trivial

theorem counts_of_processLeaf {leaf : Leaf} {tokens : List Token}
    (h : processLeaf leaf = .ok tokens) : Counts (-1) leaf.Short tokens := by
  cases leaf with
  | scalar type value => exact counts_of_processScalar h
  | scalarArray elementType values =>
    obtain ⟨converted, hconverted, h⟩ := Failure.bind_eq_ok.1 h
    cases h
    have hboth := (Msgpack.counts_packArray values.length).append
      (counts_of_processElements hconverted)
    rw [show ((values.length : Int) - 1 + -values.length) = -1 by omega] at hboth
    exact hboth.mono And.left

theorem counts_of_processLeaves {leaves : List Leaf} {tokens : List Token}
    (h : processLeaves leaves = .ok tokens) :
    Counts (-leaves.length) (∀ leaf ∈ leaves, leaf.Short) tokens := by
  induction leaves generalizing tokens with
  | nil =>
    cases h
    exact Msgpack.counts_nil.mono fun _ => List.forall_mem_nil _
  | cons leaf rest ih =>
    obtain ⟨first, hfirst, h⟩ := Failure.bind_eq_ok.1 h
    obtain ⟨others, hothers, h⟩ := Failure.bind_eq_ok.1 h
    cases h
    rw [List.length_cons, show (-((rest.length + 1 : ℕ) : Int)) = -1 + -rest.length by omega]
    exact ((counts_of_processLeaf hfirst).append (ih hothers)).mono List.forall_mem_cons.2

/-! ## The message -/

/-- The items of a message: the reply id, where there is one, the name, and the exact values of the
leaves. -/
def items (pvName replyId : String) (pvStruct : PVStructure) : List Object :=
  (if replyId = "" then [] else [.str replyId]) ++
    .str pvName :: (PVField.fieldLeaves pvStruct).map Leaf.exactObject

/-- The message is one array of the items, and nothing follows it. -/
def Emits (message : ChannelData PVStructure) (replyId : String) (items : List Object) : Prop :=
  ∃ tokens, serialize message replyId = .ok tokens ∧ unpack tokens = some (.array items, [])

/-- No pointer that is followed is null, no length has more than 32 bits, and no element of an
array of shorts is outside the range of a byte. -/
structure Transferable (pvName replyId : String) (pvStruct : PVStructure) : Prop where
  nonNull : PVField.FieldsNonNull pvStruct
  name_lt : pvName.utf8ByteSize < 2 ^ 32
  replyId_lt : replyId.utf8ByteSize < 2 ^ 32
  packable : ∀ leaf ∈ PVField.fieldLeaves pvStruct, leaf.Packable
  short : ∀ leaf ∈ PVField.fieldLeaves pvStruct, leaf.Short
  length_lt : (items pvName replyId pvStruct).length < 2 ^ 32
  fits : ∀ leaf ∈ PVField.fieldLeaves pvStruct, leaf.FitsByte

theorem items_length (pvName replyId : String) (pvStruct : PVStructure) :
    (items pvName replyId pvStruct).length =
      if replyId = "" then (PVField.fieldLeaves pvStruct).length + 1
      else (PVField.fieldLeaves pvStruct).length + 2 := by
  rw [items]
  split <;> simp only [List.nil_append, List.singleton_append, List.length_cons, List.length_map]

theorem packReplyId_object {replyId : String} (h : replyId.utf8ByteSize < 2 ^ 32) :
    packReplyId replyId =
      .ok (Object.itemTokens (if replyId = "" then [] else [.str replyId])) := by
  rw [packReplyId]
  split
  case isTrue => rfl
  case isFalse =>
    rw [packString_of_lt h]
    simp only [Object.itemTokens, List.append_nil]

theorem lt_of_packReplyId {replyId : String} {tokens : List Token}
    (h : packReplyId replyId = .ok tokens) :
    replyId.utf8ByteSize < 2 ^ 32 ∧ ∀ token ∈ tokens, token.Below (2 ^ 32) := by
  rw [packReplyId] at h
  split at h
  case isTrue hempty =>
    cases h
    rw [hempty]
    exact ⟨by decide, List.forall_mem_nil _⟩
  case isFalse => exact lt_of_packString h

/-- A message that can be packed is the array of the items with the converted leaves. -/
theorem serialize_object {pvName replyId : String} {pvStruct : PVStructure}
    (hnull : PVField.FieldsNonNull pvStruct) (hname : pvName.utf8ByteSize < 2 ^ 32)
    (hreply : replyId.utf8ByteSize < 2 ^ 32)
    (hpackable : ∀ leaf ∈ PVField.fieldLeaves pvStruct, leaf.Packable)
    (hshort : ∀ leaf ∈ PVField.fieldLeaves pvStruct, leaf.Short)
    (hlength : (items pvName replyId pvStruct).length < 2 ^ 32) :
    serialize ⟨pvName, some pvStruct⟩ replyId = .ok (Object.array
      ((if replyId = "" then [] else [.str replyId]) ++ .str pvName ::
        (PVField.fieldLeaves pvStruct).map Leaf.convertedObject)).tokens := by
  have hscan := (scannStructure_iff pvStruct _).2 ⟨hnull, rfl⟩
  rw [items_length] at hlength
  simp only [serialize, hscan, packReplyId_object hreply, packString_of_lt hname,
    processLeaves_object hshort hpackable, packArray_of_lt hlength, bind, Except.bind, pure,
    Except.pure, Object.tokens, Object.itemTokens_append, Object.itemTokens]
  split <;> simp [Object.itemTokens, Object.tokens]

theorem leaf_short_of_below {leaves : List Leaf}
    (h : Object.ItemsBelow (2 ^ 32) (leaves.map Leaf.exactObject)) :
    ∀ leaf ∈ leaves, leaf.Short := by
  induction leaves with
  | nil => exact List.forall_mem_nil _
  | cons leaf rest ih =>
    refine List.forall_mem_cons.2 ⟨?_, ih h.2⟩
    cases leaf with
    | scalar => trivial
    | scalarArray elementType values =>
      have hlength := h.1.1
      rw [List.length_map] at hlength
      exact hlength

theorem itemsBelow_of_append {bound : ℕ} {front back : List Object}
    (h : Object.ItemsBelow bound (front ++ back)) : Object.ItemsBelow bound back := by
  induction front with
  | nil => exact h
  | cons item front ih => exact ih h.2

/-- The message is the array of its items exactly where it is transferable. -/
theorem emits_iff (pvName replyId : String) (pvStruct : PVStructure) :
    Emits ⟨pvName, some pvStruct⟩ replyId (items pvName replyId pvStruct) ↔
      Transferable pvName replyId pvStruct := by
  constructor
  case mp =>
    rintro ⟨tokens, htokens, hunpack⟩
    have hserialize := htokens
    obtain ⟨values, hscan, htokens⟩ := Failure.bind_eq_ok.1 htokens
    obtain ⟨id, hid, htokens⟩ := Failure.bind_eq_ok.1 htokens
    obtain ⟨name, hname, htokens⟩ := Failure.bind_eq_ok.1 htokens
    obtain ⟨body, hbody, htokens⟩ := Failure.bind_eq_ok.1 htokens
    cases htokens
    obtain ⟨hnull, rfl⟩ := (scannStructure_iff pvStruct values).1 hscan
    have hreply := lt_of_packReplyId hid
    have hpv := lt_of_packString hname
    have hleaves := packable_of_processLeaves hbody
    have hbelow := Msgpack.unpack_below (List.forall_mem_cons.2 ⟨Msgpack.packArray_below _,
      List.forall_mem_append.2 ⟨List.forall_mem_append.2 ⟨hreply.2, hpv.2⟩, hleaves.2⟩⟩) hunpack
    have hshort := leaf_short_of_below (itemsBelow_of_append hbelow.2).2
    rw [serialize_object hnull hpv.1 hreply.1 hleaves.1 hshort hbelow.1] at hserialize
    injection hserialize with hserialize
    rw [← hserialize, Msgpack.unpack_tokens_nil] at hunpack
    injection hunpack with hunpack
    injection hunpack with hobject _
    injection hobject with hitems
    have hmap := List.append_cancel_left hitems
    injection hmap with _ hmap
    exact ⟨hnull, hpv.1, hreply.1, hleaves.1, hshort, hbelow.1,
      (Leaf.map_convertedObject_iff _).1 hmap⟩
  case mpr =>
    intro h
    refine ⟨_, serialize_object h.nonNull h.name_lt h.replyId_lt h.packable h.short h.length_lt, ?_⟩
    rw [Msgpack.unpack_tokens_nil, (Leaf.map_convertedObject_iff _).2 h.fits]
    rfl

/-- The element 200 of an array of shorts is written as -56. -/
theorem not_emits_short :
    ¬Emits ⟨"pv", some [("value", .scalarArray .pvShort [(200 : Int16)])]⟩ "" (items "pv" ""
      [("value", .scalarArray .pvShort [(200 : Int16)])]) := by
  rintro ⟨tokens, htokens, hunpack⟩
  cases htokens
  have hread : some (Object.array [.str "pv", .array [.int (-56)]], ([] : List Token)) =
      some (Object.array [.str "pv", .array [.int 200]], []) := hunpack
  exact absurd hread (by simp)

end MsgpackCompactSerializer

end K2eg
