import K2eg.Model.JsonSerialization
import K2eg.Verification.Serialization.RoundTrip

/-! # JSON and Msgpack

When the two serializers write the same tree: no booleans, no shorts in arrays beyond 127, no
unions, and no fields in the elements of structure arrays. -/

namespace K2eg

open Msgpack (Token Object unpack packMap packMap_of_lt Counts)

/-! ## The same tree -/

mutual

/-- The Msgpack object and the JSON value have the same names at every level, each once, arrays of
the same lengths and the same leaves. A scalar that is NaN is the string `NaN` in JSON. -/
def SameTree : Object → Json → Prop
  | .nil, .null => True
  | .boolean value, .bool other => value = other
  | .int value, .int other => value = other
  | .float32 value, .double other => value.toFloat = other
  | .float32 value, .string other => value.isNaN = true ∧ other = "NaN"
  | .float64 value, .double other => value = other
  | .float64 value, .string other => value.isNaN = true ∧ other = "NaN"
  | .str value, .string other => value = other
  | .array items, .array others => SameItems items others
  | .map entries, .object members =>
    entries.length = members.length ∧ (entries.map Prod.fst).Nodup ∧
      (members.map Prod.fst).Nodup ∧ SameEntries entries members
  | _, _ => False

def SameItems : List Object → List Json → Prop
  | [], [] => True
  | item :: rest, other :: others => SameTree item other ∧ SameItems rest others
  | _, _ => False

/-- Every pair of the map has its member in the object. -/
def SameEntries : List (Object × Object) → List (String × Json) → Prop
  | [], _ => True
  | (.str name, value) :: rest, members =>
    (∃ json, members.lookup name = some json ∧ SameTree value json) ∧ SameEntries rest members
  | _ :: _, _ => False

end

/-! ## The fields that agree -/

/-- Both serializers write the element as the same value. -/
def ScalarType.ElementAgrees : (type : ScalarType) → type.Value → Prop
  | .pvBoolean, _ => False
  | .pvShort, value => 0 ≤ Int16.toInt value ∧ Int16.toInt value < 2 ^ 7
  | _, _ => True

namespace PVField

mutual

def Agrees : PVField → Prop
  | .scalar type _ => type ≠ .pvBoolean
  | .scalarArray elementType values => ∀ value ∈ values, elementType.ElementAgrees value
  | .structure fields => FieldsAgree fields
  | .structureArray _ elements => ∀ element ∈ elements, element = some []
  | .union _ _ | .unionArray _ _ => False

def FieldsAgree : List (String × PVField) → Prop
  | [] => True
  | (_, field) :: rest => Agrees field ∧ FieldsAgree rest

end

end PVField

namespace JsonSerializer

/-! ## Scalars and arrays -/

theorem sameTree_scalar (type : ScalarType) (value : type.Value) :
    SameTree (type.object value) (scalarJson type value) ↔ type ≠ .pvBoolean := by
  cases type with
  | pvBoolean => exact ⟨fun h => absurd h id, fun h => absurd rfl h⟩
  | pvFloat =>
    refine ⟨fun _ => nofun, fun _ => ?_⟩
    rw [scalarJson]
    split
    case isTrue hnan => exact ⟨hnan, rfl⟩
    case isFalse => exact rfl
  | pvDouble =>
    refine ⟨fun _ => nofun, fun _ => ?_⟩
    rw [scalarJson]
    split
    case isTrue hnan => exact ⟨hnan, rfl⟩
    case isFalse => exact rfl
  | _ => exact ⟨fun _ => nofun, fun _ => rfl⟩

theorem toNat_toUInt16_eq_iff (value : Int16) :
    (value.toUInt16.toNat : Int) = value.toInt8.toInt ↔ 0 ≤ value.toInt ∧ value.toInt < 2 ^ 7 := by
  have hlower := value.le_toInt
  have hupper := value.toInt_lt
  rw [MsgpackEpicsConverter.toNat_toUInt16, Int16.toInt_toInt8, Int.bmod_def]
  split <;> omega

theorem sameTree_element (type : ScalarType) (value : type.Value) :
    SameTree (type.elementObject value) (elementJson type value) ↔ type.ElementAgrees value := by
  cases type with
  | pvBoolean => exact ⟨fun h => absurd h id, fun h => absurd h id⟩
  | pvShort => exact toNat_toUInt16_eq_iff value
  | _ => exact ⟨fun _ => trivial, fun _ => rfl⟩

theorem sameItems_elements (type : ScalarType) (values : List type.Value) :
    SameItems (values.map type.elementObject) (values.map (elementJson type)) ↔
      ∀ value ∈ values, type.ElementAgrees value := by
  induction values with
  | nil => exact ⟨fun _ => List.forall_mem_nil _, fun _ => trivial⟩
  | cons value rest ih =>
    rw [List.forall_mem_cons, ← ih, ← sameTree_element]
    rfl

/-! ## The members of an object -/

/-- The members of an object are the fields in their order. -/
def Aligned (fields : PVStructure) (members : List (String × Json)) : Prop :=
  List.Forall₂ (fun field member => field.1 = member.1 ∧ SameTree field.2.object member.2)
    fields members

theorem aligned_cons {field : String × PVField} {rest : PVStructure} {member : String × Json}
    {members : List (String × Json)} : Aligned (field :: rest) (member :: members) ↔
      (field.1 = member.1 ∧ SameTree field.2.object member.2) ∧ Aligned rest members :=
  List.forall₂_cons

theorem lookup_append_of_not_mem {name : String} {front back : List (String × Json)}
    (h : name ∉ front.map Prod.fst) : (front ++ back).lookup name = back.lookup name := by
  induction front with
  | nil => rfl
  | cons member front ih =>
    rw [List.map_cons, List.mem_cons, not_or] at h
    rw [List.cons_append, List.lookup_cons, beq_eq_false_iff_ne.2 h.1]
    exact ih h.2

theorem sameEntries_iff {fields : PVStructure} : ∀ {front members : List (String × Json)},
    ((front ++ members).map Prod.fst).Nodup → members.map Prod.fst = fields.map Prod.fst →
      (SameEntries (PVField.entries fields) (front ++ members) ↔ Aligned fields members) := by
  induction fields with
  | nil =>
    intro front members _ hnames
    rw [List.map_nil, List.map_eq_nil_iff] at hnames
    rw [hnames]
    exact ⟨fun _ => .nil, fun _ => trivial⟩
  | cons field rest ih =>
    intro front members hnodup hnames
    cases members with
    | nil => exact absurd hnames nofun
    | cons member members =>
      rw [List.map_cons, List.map_cons, List.cons.injEq] at hnames
      have hfresh : member.1 ∉ front.map Prod.fst := by
        rw [List.map_append] at hnodup
        intro hmem
        exact (List.nodup_append.1 hnodup).2.2 _ hmem _ (List.mem_cons_self ..) rfl
      have hlookup : (front ++ member :: members).lookup field.1 = some member.2 := by
        rw [← hnames.1, lookup_append_of_not_mem hfresh, List.lookup_cons, beq_self_eq_true]
      have hrest := @ih (front ++ [member]) members (by simpa using hnodup) hnames.2
      rw [List.append_assoc, List.singleton_append] at hrest
      rw [PVField.entries, SameEntries, hrest, hlookup, aligned_cons]
      constructor
      case mp =>
        rintro ⟨⟨json, hjson, hsame⟩, haligned⟩
        cases hjson
        exact ⟨⟨hnames.1.symm, hsame⟩, haligned⟩
      case mpr =>
        rintro ⟨⟨_, hsame⟩, haligned⟩
        exact ⟨⟨member.2, rfl, hsame⟩, haligned⟩

theorem entries_map_fst (fields : PVStructure) :
    (PVField.entries fields).map Prod.fst = (fields.map Prod.fst).map Object.str := by
  induction fields with
  | nil => rfl
  | cons field rest ih => simp only [PVField.entries, List.map_cons, ih]

theorem entries_nodup {fields : PVStructure} (h : (fields.map Prod.fst).Nodup) :
    ((PVField.entries fields).map Prod.fst).Nodup := by
  rw [entries_map_fst]
  exact h.map fun _ _ hstr => Object.str.inj hstr

/-- Where the members are some of the fields in their order, the object is the same as the map
exactly where they are all of them. -/
theorem sameTree_object_iff {fields : PVStructure} {members : List (String × Json)}
    (hnodup : (fields.map Prod.fst).Nodup)
    (hsub : (members.map Prod.fst).Sublist (fields.map Prod.fst)) :
    SameTree (.map (PVField.entries fields)) (.object members) ↔ Aligned fields members := by
  constructor
  case mp =>
    rintro ⟨hlength, _, hmembers, hsame⟩
    have hnames : members.map Prod.fst = fields.map Prod.fst := by
      apply hsub.eq_of_length
      rw [List.length_map, List.length_map, ← hlength, PVField.entries_length]
    exact (@sameEntries_iff fields [] members (by simpa using hmembers) hnames).1 hsame
  case mpr =>
    intro h
    have hlength := h.length_eq
    have hnames : members.map Prod.fst = fields.map Prod.fst := by
      apply hsub.eq_of_length
      rw [List.length_map, List.length_map, hlength]
    refine ⟨by rw [PVField.entries_length, hlength], entries_nodup hnodup, hnames ▸ hnodup, ?_⟩
    exact (@sameEntries_iff fields [] members (by simpa [hnames] using hnodup) hnames).2 h

/-! ## What a field sets -/

/-- Nothing is set, or the key; under the empty key never an object. -/
def Sets (key : String) (jsonObject result : JsonObject) : Prop :=
  result = jsonObject ∨ ∃ json, result = Json.set key json jsonObject ∧
    (key = "" → ∀ members, json ≠ .object members)

theorem Sets.trans {key : String} {first second third : JsonObject} (h : Sets key first second)
    (h' : Sets key second third) : Sets key first third := by
  cases h' with
  | inl hsame => exact hsame ▸ h
  | inr hset =>
    obtain ⟨json, rfl, hjson⟩ := hset
    cases h with
    | inl hsame => exact .inr ⟨json, hsame ▸ rfl, hjson⟩
    | inr hset =>
      obtain ⟨other, rfl, _⟩ := hset
      exact .inr ⟨json, Json.set_set .., hjson⟩

theorem scalarJson_ne_object (type : ScalarType) (value : type.Value)
    (members : List (String × Json)) : scalarJson type value ≠ .object members := by
  cases type with
  | pvFloat | pvDouble =>
    rw [scalarJson]
    split <;> exact nofun
  | _ => exact nofun

def Unioned : PVField → Prop
  | .union _ _ | .unionArray _ _ => True
  | _ => False

/-- A child that is no union is set under its name. -/
theorem processChildren_cons {name key : String} {field : PVField} {rest : PVStructure}
    {structObj jsonObject : JsonObject} (h : ¬Unioned field) :
    processChildren ((name, field) :: rest) key structObj jsonObject = (do
      let structObj ← processField field name structObj
      processChildren rest key structObj jsonObject) := by
  cases field
  case union | unionArray => exact absurd trivial h
  all_goals rfl

/-- A union changes the object around the structure at most. -/
theorem processChildren_union {name key : String} {field : PVField} {rest : PVStructure}
    {structObj jsonObject : JsonObject} {result : JsonObject × JsonObject} (h : Unioned field)
    (hchildren : processChildren ((name, field) :: rest) key structObj jsonObject = .ok result) :
    ∃ next, processChildren rest key structObj next = .ok result := by
  cases field
  case union members selected =>
    cases selected with
    | none => exact ⟨jsonObject, hchildren⟩
    | some selected =>
      obtain ⟨next, _, hrest⟩ := Failure.bind_eq_ok.1 hchildren
      exact ⟨next, hrest⟩
  case unionArray => exact ⟨jsonObject, hchildren⟩
  all_goals exact absurd h id

mutual

theorem processField_sets : ∀ (field : PVField) (key : String) (jsonObject result : JsonObject),
    processField field key jsonObject = .ok result → Sets key jsonObject result
  | .scalar type value, _, _, _, h => by
      cases h
      exact .inr ⟨_, rfl, fun _ => scalarJson_ne_object type value⟩
  | .scalarArray _ _, _, _, _, h => by
      cases h
      exact .inr ⟨_, rfl, fun _ => nofun⟩
  | .structure fields, key, jsonObject, result, h => by
      obtain ⟨objects, hchildren, h⟩ := Failure.bind_eq_ok.1 h
      have hsets := processChildren_sets fields key [] jsonObject objects.1 objects.2 hchildren
      cases h
      split
      case isTrue => exact hsets
      case isFalse hkey => exact hsets.trans (.inr ⟨_, rfl, fun hempty => absurd hempty hkey⟩)
  | .structureArray _ elements, _, _, _, h => by
      obtain ⟨arrayObj, _, h⟩ := Failure.bind_eq_ok.1 h
      cases h
      exact .inr ⟨_, rfl, fun _ => nofun⟩
  | .union _ none, _, _, _, h => absurd h nofun
  | .union _ (some (_, subField)), key, jsonObject, result, h =>
    processField_sets subField key jsonObject result h
  | .unionArray _ _, _, _, _, h => by
      cases h
      exact .inl rfl

theorem processChildren_sets : ∀ (fields : List (String × PVField)) (key : String)
    (structObj jsonObject structResult result : JsonObject),
    processChildren fields key structObj jsonObject = .ok (structResult, result) →
      Sets key jsonObject result
  | [], _, _, _, _, _, h => by
      cases h
      exact .inl rfl
  | (_, .union _ none) :: rest, key, structObj, jsonObject, structResult, result, h =>
    processChildren_sets rest key structObj jsonObject structResult result h
  | (_, .union _ (some (_, field))) :: rest, key, structObj, jsonObject, structResult, result,
      h => by
      obtain ⟨next, hnext, h⟩ := Failure.bind_eq_ok.1 h
      exact (processField_sets field key jsonObject next hnext).trans
        (processChildren_sets rest key structObj next structResult result h)
  | (_, .unionArray _ _) :: rest, key, structObj, jsonObject, structResult, result, h =>
    processChildren_sets rest key structObj jsonObject structResult result h
  | (_, .scalar _ _) :: rest, key, structObj, jsonObject, structResult, result, h
  | (_, .scalarArray _ _) :: rest, key, structObj, jsonObject, structResult, result, h
  | (_, .structure _) :: rest, key, structObj, jsonObject, structResult, result, h
  | (_, .structureArray _ _) :: rest, key, structObj, jsonObject, structResult, result, h => by
      obtain ⟨next, _, h⟩ := Failure.bind_eq_ok.1 h
      exact processChildren_sets rest key next jsonObject structResult result h

end

/-! ## Agreement of what is written -/

/-- The elements of a structure array have lost their fields. -/
theorem elements_of_same {type : Structure} {elements : List (Option PVStructure)}
    {arrayObj : List Json} (htype : ValidNames (type.map Prod.fst))
    (hwf : PVField.ElementsWellFormed type elements) (h : processElements elements = .ok arrayObj)
    (hsame : SameItems (PVField.structureObjects elements) arrayObj) :
    ∀ element ∈ elements, element = some [] := by
  induction elements generalizing arrayObj with
  | nil => exact List.forall_mem_nil _
  | cons element rest ih =>
    cases element with
    | none => cases h
    | some fields =>
      obtain ⟨objects, hchildren, h⟩ := Failure.bind_eq_ok.1 h
      obtain ⟨others, hothers, h⟩ := Failure.bind_eq_ok.1 h
      cases h
      refine List.forall_mem_cons.2 ⟨?_, ih hwf.2.2 hothers hsame.2⟩
      cases fields with
      | nil => rfl
      | cons field fields =>
        exfalso
        have hsets := processChildren_sets _ "" [] [] objects.1 objects.2 hchildren
        obtain ⟨hlength, _, _, hentries⟩ := hsame.1
        cases hsets with
        | inl hempty =>
          rw [hempty] at hlength
          cases hlength
        | inr hset =>
          obtain ⟨json, hset, _⟩ := hset
          obtain ⟨⟨_, hlookup, _⟩, _⟩ := hentries
          rw [hset, Json.set, List.lookup_cons] at hlookup
          have hvalid : validFieldName field.1 = true := by
            apply htype.valid field.1
            rw [← hwf.1, PVField.types_map_fst]
            exact List.mem_cons_self ..
          have hne : (field.1 == "") = false := by
            rw [beq_eq_false_iff_ne]
            intro heq
            rw [heq] at hvalid
            exact absurd hvalid (by decide)
          rw [hne] at hlookup
          cases hlookup

mutual

/-- A field that is no union sets its key, and only a field that agrees sets the same tree. -/
theorem agrees_of_processField : ∀ (field : PVField) (key : String)
    (jsonObject result : JsonObject), key ≠ "" → field.WellFormed → ¬Unioned field →
    processField field key jsonObject = .ok result →
      ∃ json, result = Json.set key json jsonObject ∧ (SameTree field.object json → field.Agrees)
  | .scalar type value, _, _, _, _, _, _, h => by
      cases h
      exact ⟨_, rfl, (sameTree_scalar type value).1⟩
  | .scalarArray elementType values, _, _, _, _, _, _, h => by
      cases h
      exact ⟨_, rfl, (sameItems_elements elementType values).1⟩
  | .structure fields, key, jsonObject, result, hkey, hwf, _, h => by
      obtain ⟨objects, hchildren, h⟩ := Failure.bind_eq_ok.1 h
      have hsets := processChildren_sets fields key [] jsonObject objects.1 objects.2 hchildren
      obtain ⟨members, hmembers, hsub, hagree⟩ := agree_of_processChildren fields key [] jsonObject
        objects.1 objects.2 hwf.2 hwf.1.valid (by simpa using hwf.1.nodup) hchildren
      rw [List.nil_append] at hmembers
      have hresult : result = Json.set key (.object objects.1) objects.2 := by
        simp only [if_neg hkey] at h
        cases h
        rfl
      refine ⟨.object objects.1, ?_, ?_⟩
      · rw [hresult]
        cases hsets with
        | inl hsame => rw [hsame]
        | inr hset =>
          obtain ⟨json, hset, _⟩ := hset
          rw [hset, Json.set_set]
      · intro hsame
        rw [hmembers] at hsame
        exact hagree ((sameTree_object_iff hwf.1.nodup hsub).1 hsame)
  | .structureArray _ elements, _, _, _, _, hwf, _, h => by
      obtain ⟨arrayObj, harray, h⟩ := Failure.bind_eq_ok.1 h
      cases h
      exact ⟨_, rfl, elements_of_same hwf.1.1 hwf.2 harray⟩
  | .union _ _, _, _, _, _, _, hunion, _ => absurd trivial hunion
  | .unionArray _ _, _, _, _, _, _, hunion, _ => absurd trivial hunion

/-- The children add members, some of the fields in their order. -/
theorem agree_of_processChildren : ∀ (fields : List (String × PVField)) (key : String)
    (structObj jsonObject structResult result : JsonObject), PVField.AllWellFormed fields →
    (∀ name ∈ fields.map Prod.fst, validFieldName name = true) →
    (structObj.map Prod.fst ++ fields.map Prod.fst).Nodup →
    processChildren fields key structObj jsonObject = .ok (structResult, result) →
      ∃ members, structResult = structObj ++ members ∧
        (members.map Prod.fst).Sublist (fields.map Prod.fst) ∧
        (Aligned fields members → PVField.FieldsAgree fields)
  | [], _, _, _, _, _, _, _, _, h => by
      cases h
      exact ⟨[], (List.append_nil _).symm, List.Sublist.slnil, fun _ => trivial⟩
  | (name, field) :: rest, key, structObj, jsonObject, structResult, result, hwf, hvalid, hnodup,
      h => by
      rw [List.map_cons] at hnodup
      by_cases hunion : Unioned field
      case pos =>
        obtain ⟨next, hrest⟩ := processChildren_union hunion h
        have hnodupRest : (structObj.map Prod.fst ++ rest.map Prod.fst).Nodup :=
          hnodup.sublist ((List.sublist_cons_self ..).append_left _)
        obtain ⟨members, hmembers, hsub, _⟩ := agree_of_processChildren rest key structObj next
          structResult result hwf.2 (fun n hn => hvalid n (List.mem_cons_of_mem _ hn)) hnodupRest
          hrest
        refine ⟨members, hmembers, hsub.cons _, ?_⟩
        -- the union has no member, so there are fewer members than fields
        intro haligned
        have hlength := haligned.length_eq
        have hle := hsub.length_le
        rw [List.length_map, List.length_map] at hle
        rw [List.length_cons] at hlength
        omega
      case neg =>
        rw [processChildren_cons hunion] at h
        obtain ⟨next, hfield, hrest⟩ := Failure.bind_eq_ok.1 h
        have hname : validFieldName name = true := hvalid name (List.mem_cons_self ..)
        have hempty : name ≠ "" := by
          rintro rfl
          exact absurd hname (by decide)
        obtain ⟨json, hnext, hagree⟩ :=
          agrees_of_processField field name structObj next hempty hwf.1 hunion hfield
        have hfresh : name ∉ structObj.map Prod.fst := fun hmem =>
          (List.nodup_append.1 hnodup).2.2 _ hmem _ (List.mem_cons_self ..) rfl
        rw [Json.set_of_not_mem hfresh] at hnext
        obtain ⟨members, hmembers, hsub, hagreeRest⟩ := agree_of_processChildren rest key next
          jsonObject structResult result hwf.2 (fun n hn => hvalid n (List.mem_cons_of_mem _ hn))
          (by simpa [hnext] using hnodup) hrest
        refine ⟨(name, json) :: members, ?_, hsub.cons_cons _, ?_⟩
        · rw [hmembers, hnext, List.append_assoc, List.singleton_append]
        · intro haligned
          have hboth := aligned_cons.1 haligned
          exact ⟨hagree hboth.1.2, hagreeRest hboth.2⟩

end

theorem not_unioned_of_agrees {field : PVField} (h : field.Agrees) : ¬Unioned field := by
  cases field
  case union | unionArray => exact absurd h id
  all_goals exact id

theorem processElements_nil {elements : List (Option PVStructure)}
    (h : ∀ element ∈ elements, element = some []) :
    ∃ arrayObj, processElements elements = .ok arrayObj ∧
      SameItems (PVField.structureObjects elements) arrayObj := by
  induction elements with
  | nil => exact ⟨[], rfl, trivial⟩
  | cons element rest ih =>
    have hall := List.forall_mem_cons.1 h
    obtain ⟨arrayObj, harray, hsame⟩ := ih hall.2
    rw [hall.1]
    refine ⟨.object [] :: arrayObj, ?_, ⟨⟨rfl, List.nodup_nil, List.nodup_nil, trivial⟩, hsame⟩⟩
    rw [processElements, harray]
    rfl

mutual

/-- A field that agrees is set under its key, as the same tree. -/
theorem processField_of_agrees : ∀ (field : PVField) (key : String), key ≠ "" →
    field.WellFormed → field.Agrees → ∃ json, SameTree field.object json ∧
      ∀ jsonObject, processField field key jsonObject = .ok (Json.set key json jsonObject)
  | .scalar type value, _, _, _, h => ⟨_, (sameTree_scalar type value).2 h, fun _ => rfl⟩
  | .scalarArray elementType values, _, _, _, h =>
    ⟨.array (values.map (elementJson elementType)), (sameItems_elements elementType values).2 h,
      fun _ => rfl⟩
  | .structure fields, key, hkey, hwf, h => by
      obtain ⟨members, hsub, haligned, hchildren⟩ :=
        processChildren_of_agree fields key [] hwf.2 hwf.1.valid (by simpa using hwf.1.nodup) h
      refine ⟨.object members, (sameTree_object_iff hwf.1.nodup hsub).2 haligned, ?_⟩
      intro jsonObject
      rw [processField, hchildren]
      simp only [bind, Except.bind, if_neg hkey]
      rfl
  | .structureArray _ elements, key, _, _, h => by
      obtain ⟨arrayObj, harray, hsame⟩ := processElements_nil h
      refine ⟨.array arrayObj, hsame, ?_⟩
      intro jsonObject
      rw [processField, harray]
      rfl
  | .union _ _, _, _, _, h => absurd h id
  | .unionArray _ _, _, _, _, h => absurd h id

theorem processChildren_of_agree : ∀ (fields : List (String × PVField)) (key : String)
    (structObj : JsonObject), PVField.AllWellFormed fields →
    (∀ name ∈ fields.map Prod.fst, validFieldName name = true) →
    (structObj.map Prod.fst ++ fields.map Prod.fst).Nodup → PVField.FieldsAgree fields →
      ∃ members : List (String × Json), (members.map Prod.fst).Sublist (fields.map Prod.fst) ∧
        Aligned fields members ∧ ∀ jsonObject, processChildren fields key structObj jsonObject =
          .ok (structObj ++ members, jsonObject)
  | [], _, structObj, _, _, _, _ =>
    ⟨[], List.Sublist.slnil, .nil, fun _ => by rw [List.append_nil]; rfl⟩
  | (name, field) :: rest, key, structObj, hwf, hvalid, hnodup, h => by
      rw [List.map_cons] at hnodup
      have hname : validFieldName name = true := hvalid name (List.mem_cons_self ..)
      have hempty : name ≠ "" := by
        rintro rfl
        exact absurd hname (by decide)
      obtain ⟨json, hsame, hfield⟩ := processField_of_agrees field name hempty hwf.1 h.1
      have hfresh : name ∉ structObj.map Prod.fst := fun hmem =>
        (List.nodup_append.1 hnodup).2.2 _ hmem _ (List.mem_cons_self ..) rfl
      obtain ⟨members, hsub, haligned, hrest⟩ := processChildren_of_agree rest key
        (structObj ++ [(name, json)]) hwf.2 (fun n hn => hvalid n (List.mem_cons_of_mem _ hn))
        (by simpa using hnodup) h.2
      refine ⟨(name, json) :: members, hsub.cons_cons _,
        aligned_cons.2 ⟨⟨rfl, hsame⟩, haligned⟩, ?_⟩
      intro jsonObject
      rw [processChildren_cons (not_unioned_of_agrees h.1), hfield, Json.set_of_not_mem hfresh]
      simp only [bind, Except.bind, hrest, List.append_assoc, List.singleton_append]

end

end JsonSerializer

/-! ## The Msgpack message -/

namespace MsgPackSerializer

/-- The pair of the reply id, where there is one. -/
def replyEntries (replyId : String) : List (Object × Object) :=
  if replyId = "" then [] else [(.str keyReplyId, .str replyId)]

/-- The message as one object. -/
def messageObject (pvName replyId : String) (pvStruct : PVStructure) : Object :=
  .map (replyEntries replyId ++ [(.str pvName, .map (PVField.entries pvStruct))])

theorem serialize_object {pvName replyId : String} {pvStruct : PVStructure}
    (hwf : pvStruct.WellFormed) (hname : pvName.utf8ByteSize < 2 ^ 32)
    (hreply : replyId.utf8ByteSize < 2 ^ 32) (hbelow : PVField.FieldsBelow (2 ^ 32) pvStruct)
    (hpackable : PVField.FieldsPackable pvStruct) :
    serialize ⟨pvName, some pvStruct⟩ replyId =
      .ok (messageObject pvName replyId pvStruct).tokens := by
  have hstruct := MsgpackEpicsConverter.epicsToMsgpack_object hwf hbelow hpackable
  rw [serialize, serializeInto, messageObject, replyEntries]
  simp only [packString_of_lt hname, packString_of_lt hreply, hstruct, bind, Except.bind, pure,
    Except.pure]
  rw [packMap_of_lt (show 1 < 2 ^ 32 by decide), packMap_of_lt (show 2 < 2 ^ 32 by decide)]
  split <;> simp [Object.tokens, Object.entryTokens]

/-- A message that has been packed, and is one object, has kept all lengths. -/
theorem lengths_of_serialize {pvName replyId : String} {pvStruct : PVStructure}
    {tokens : List Token} (h : serialize ⟨pvName, some pvStruct⟩ replyId = .ok tokens) :
    pvName.utf8ByteSize < 2 ^ 32 ∧ replyId.utf8ByteSize < 2 ^ 32 ∧
      PVField.FieldsPackable pvStruct ∧
      Counts (-1) (PVField.FieldsBelow (2 ^ 32) pvStruct) tokens := by
  have hpair : ∀ {pair : List Token}, serializeInto ⟨pvName, some pvStruct⟩ = .ok pair →
      pvName.utf8ByteSize < 2 ^ 32 ∧ PVField.FieldsPackable pvStruct ∧
        Counts (-2) (PVField.FieldsBelow (2 ^ 32) pvStruct) pair := by
    intro pair hpair
    obtain ⟨name, hname, hpair⟩ := Failure.bind_eq_ok.1 hpair
    obtain ⟨value, hvalue, hpair⟩ := Failure.bind_eq_ok.1 hpair
    cases hpair
    have hcounts := (MsgpackEpicsConverter.counts_of_packString hname).append
      (MsgpackEpicsConverter.counts_of_epicsToMsgpack hvalue)
    exact ⟨(lt_of_packString hname).1,
      (MsgpackEpicsConverter.packable_of_epicsToMsgpack hvalue).1, hcounts.mono And.right⟩
  rw [serialize] at h
  split at h
  case isTrue hempty =>
    obtain ⟨pair, hser, h⟩ := Failure.bind_eq_ok.1 h
    cases h
    obtain ⟨hname, hpackable, hcounts⟩ := hpair hser
    refine ⟨hname, by rw [hempty]; decide, hpackable, ?_⟩
    exact ((Msgpack.counts_packMap 1).append hcounts).mono And.right
  case isFalse =>
    obtain ⟨id, hid, h⟩ := Failure.bind_eq_ok.1 h
    obtain ⟨pair, hser, h⟩ := Failure.bind_eq_ok.1 h
    cases h
    obtain ⟨hname, hpackable, hcounts⟩ := hpair hser
    refine ⟨hname, (lt_of_packString hid).1, hpackable, ?_⟩
    have hkey : Counts (-1) True [Token.str keyReplyId] := ⟨by decide, fun _ => trivial⟩
    have hall := (Msgpack.counts_packMap 2).append
      (hkey.append ((MsgpackEpicsConverter.counts_of_packString hid).append hcounts))
    exact hall.mono fun h => h.2.2.2

end MsgPackSerializer

/-! ## The two encodings -/

open JsonSerializer

/-- The Msgpack message is one object, the JSON object is the same tree, and its text is one of the
grammar of JSON. -/
def SameEncodings (message : ChannelData PVStructure) (replyId : String) : Prop :=
  ∃ tokens object json, MsgPackSerializer.serialize message replyId = .ok tokens ∧
    unpack tokens = some (object, []) ∧ JsonSerializer.serialize message replyId = .ok json ∧
    SameTree object (.object json) ∧ ∀ format, Json.IsValue (Json.print format (.object json))

/-- The fields agree, all lengths fit Msgpack, the PV has a name, and the name is not the key of the
reply id of the message. -/
structure Comparable (pvName replyId : String) (pvStruct : PVStructure) : Prop where
  agree : PVField.FieldsAgree pvStruct
  packable : PVField.FieldsPackable pvStruct
  below : PVField.FieldsBelow (2 ^ 32) pvStruct
  name_lt : pvName.utf8ByteSize < 2 ^ 32
  replyId_lt : replyId.utf8ByteSize < 2 ^ 32
  name_ne : pvName ≠ ""
  apart : replyId = "" ∨ pvName ≠ keyReplyId

theorem object_of_sameTree_map {entries : List (Object × Object)} {json : Json}
    (h : SameTree (.map entries) json) : ∃ members, json = .object members := by
  cases json with
  | object members => exact ⟨members, rfl⟩
  | _ => exact absurd h id

theorem sameTree_named {name : String} {value : Object} {json : Json} :
    SameTree (.map [(.str name, value)]) (.object [(name, json)]) ↔ SameTree value json := by
  have hlookup : [(name, json)].lookup name = some json := by
    rw [List.lookup_cons, beq_self_eq_true]
  constructor
  case mp =>
    rintro ⟨_, _, _, ⟨other, hother, hsame⟩, _⟩
    rw [hlookup] at hother
    cases hother
    exact hsame
  case mpr =>
    intro h
    exact ⟨rfl, List.nodup_singleton _, List.nodup_singleton _, ⟨json, hlookup, h⟩, trivial⟩

theorem sameTree_named_reply {name replyId : String} {value : Object} {json : Json}
    (h : name ≠ keyReplyId) :
    SameTree (.map [(.str keyReplyId, .str replyId), (.str name, value)])
      (.object [(name, json), (keyReplyId, .string replyId)]) ↔ SameTree value json := by
  have hname : [(name, json), (keyReplyId, .string replyId)].lookup name = some json := by
    rw [List.lookup_cons, beq_self_eq_true]
  have hreply : [(name, json), (keyReplyId, .string replyId)].lookup keyReplyId =
      some (.string replyId) := by
    rw [List.lookup_cons, beq_eq_false_iff_ne.2 (Ne.symm h), List.lookup_cons, beq_self_eq_true]
  constructor
  case mp =>
    rintro ⟨_, _, _, _, ⟨other, hother, hsame⟩, _⟩
    rw [hname] at hother
    cases hother
    exact hsame
  case mpr =>
    intro hsame
    refine ⟨rfl, ?_, ?_, ⟨_, hreply, rfl⟩, ⟨json, hname, hsame⟩, trivial⟩
    · refine List.nodup_cons.2 ⟨?_, List.nodup_singleton _⟩
      intro hmem
      exact h (Object.str.inj (List.mem_singleton.1 hmem)).symm
    · refine List.nodup_cons.2 ⟨?_, List.nodup_singleton _⟩
      intro hmem
      exact h (List.mem_singleton.1 hmem)

/-- The JSON message with the structure under the name of the PV. -/
theorem sameTree_message_iff {pvName replyId : String} {pvStruct : PVStructure} {json : Json} :
    SameTree (MsgPackSerializer.messageObject pvName replyId pvStruct)
      (.object (if replyId = "" then [(pvName, json)]
        else Json.set keyReplyId (.string replyId) [(pvName, json)])) ↔
      (replyId = "" ∨ pvName ≠ keyReplyId) ∧ SameTree (.map (PVField.entries pvStruct)) json := by
  rw [MsgPackSerializer.messageObject, MsgPackSerializer.replyEntries]
  by_cases hreply : replyId = ""
  case pos =>
    rw [if_pos hreply, if_pos hreply, List.nil_append, sameTree_named]
    exact ⟨fun h => ⟨.inl hreply, h⟩, And.right⟩
  case neg =>
    rw [if_neg hreply, if_neg hreply, List.singleton_append, Json.set]
    by_cases hname : pvName = keyReplyId
    case pos =>
      -- the reply id has taken the place of the structure
      rw [if_pos hname]
      refine ⟨fun h => absurd h.1 (Nat.succ_ne_self 1), fun h => ?_⟩
      exact (h.1.elim hreply fun hne => hne hname).elim
    case neg =>
      rw [if_neg hname, Json.set, sameTree_named_reply hname]
      exact ⟨fun h => ⟨.inr hname, h⟩, And.right⟩

/-- Without a name no object is written. -/
theorem not_sameTree_unnamed {replyId : String} {pvStruct : PVStructure} {jsonObject : JsonObject}
    (h : Sets "" [] jsonObject) :
    ¬SameTree (MsgPackSerializer.messageObject "" replyId pvStruct)
      (.object (if replyId = "" then jsonObject
        else Json.set keyReplyId (.string replyId) jsonObject)) := by
  cases h with
  | inl hempty =>
    rintro ⟨hlength, _⟩
    rw [hempty, MsgPackSerializer.replyEntries] at hlength
    split at hlength <;> exact absurd hlength (by simp [Json.set])
  | inr hset =>
    obtain ⟨json, rfl, hjson⟩ := hset
    intro hsame
    obtain ⟨members, hmembers⟩ := object_of_sameTree_map (sameTree_message_iff.1 hsame).2
    exact hjson rfl members hmembers

/-- JSON and Msgpack write the same tree exactly where the structure is comparable. -/
theorem sameEncodings_iff {pvStruct : PVStructure} (hwf : pvStruct.WellFormed)
    (pvName replyId : String) :
    SameEncodings ⟨pvName, some pvStruct⟩ replyId ↔ Comparable pvName replyId pvStruct := by
  constructor
  case mp =>
    rintro ⟨tokens, object, json, htokens, hunpack, hjson, hsame, _⟩
    have hserialize := htokens
    obtain ⟨hname, hreply, hpackable, hcounts⟩ := MsgPackSerializer.lengths_of_serialize htokens
    have hbelow := hcounts.2 (Msgpack.unpack_surplus hunpack)
    rw [MsgPackSerializer.serialize_object hwf hname hreply hbelow hpackable] at hserialize
    cases hserialize
    rw [Msgpack.unpack_tokens_nil] at hunpack
    cases hunpack
    obtain ⟨jsonObject, hobject, hjson⟩ := Failure.bind_eq_ok.1 hjson
    cases hjson
    have hne : pvName ≠ "" := by
      rintro rfl
      exact not_sameTree_unnamed (processField_sets _ _ _ _ hobject) hsame
    obtain ⟨json, rfl, hagree⟩ :=
      agrees_of_processField (.structure pvStruct) pvName [] jsonObject hne hwf id hobject
    have hboth := sameTree_message_iff.1 hsame
    exact ⟨hagree hboth.2, hpackable, hbelow, hname, hreply, hne, hboth.1⟩
  case mpr =>
    intro h
    obtain ⟨json, hsame, hjson⟩ :=
      processField_of_agrees (.structure pvStruct) pvName h.name_ne hwf h.agree
    refine ⟨_, _, _, MsgPackSerializer.serialize_object hwf h.name_lt h.replyId_lt h.below
      h.packable, Msgpack.unpack_tokens_nil _, ?_, sameTree_message_iff.2 ⟨h.apart, hsame⟩,
      fun format => Json.print_isValue format _⟩
    have hobject : serializeInto ⟨pvName, some pvStruct⟩ [] = .ok [(pvName, json)] := hjson []
    rw [JsonSerializer.serialize, hobject]
    rfl

theorem sameEncodings_iff_waveform :
    SameEncodings ⟨"pv", some [("value", .scalarArray .pvShort [(1 : Int16), (127 : Int16)])]⟩
      "" := by
  have hwf : PVStructure.WellFormed
      [("value", .scalarArray .pvShort [(1 : Int16), (127 : Int16)])] :=
    ⟨⟨by decide, by decide, by decide⟩, trivial, trivial⟩
  refine (sameEncodings_iff hwf "pv" "").2
    { agree := ⟨List.forall_mem_cons.2 ⟨?_, List.forall_mem_singleton.2 ?_⟩, trivial⟩
      packable := ⟨by decide, fun _ _ => trivial, trivial⟩
      below := ⟨(by decide : 2 < 2 ^ 32), trivial⟩
      name_lt := by decide
      replyId_lt := by decide
      name_ne := by decide
      apart := .inl rfl }
  · exact (by decide : 0 ≤ (1 : Int16).toInt ∧ (1 : Int16).toInt < 2 ^ 7)
  · exact (by decide : 0 ≤ (127 : Int16).toInt ∧ (127 : Int16).toInt < 2 ^ 7)

/-- The element 200 of an array of shorts is 200 in Msgpack and -56 in JSON. -/
theorem not_sameEncodings_short :
    ¬SameEncodings ⟨"pv", some [("value", .scalarArray .pvShort [(200 : Int16)])]⟩ "" := by
  rintro ⟨tokens, object, json, htokens, hunpack, hjson, hsame, _⟩
  cases htokens
  cases hunpack
  cases hjson
  obtain ⟨_, _, _, ⟨_, hlookup, hstruct⟩, _⟩ := hsame
  cases hlookup
  obtain ⟨_, _, _, ⟨_, hlookup, harray⟩, _⟩ := hstruct
  cases hlookup
  exact absurd harray.1 (by decide : ¬(200 : Int) = -56)

end K2eg
