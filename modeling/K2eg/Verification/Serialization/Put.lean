import K2eg.Model.PutOperation
import K2eg.Verification.Serialization.RoundTrip
import K2eg.Verification.Structures.Fields

/-! # What a put sends

A put is to send, for each key of the put object, the value that the object gives for it. It does
where every key names a field at its own level, every value is of the kind of its field, and none
of the fields is a union; elsewhere it rejects some objects, and for the others it sends values
that they do not carry. -/

namespace K2eg.PutOperation

open Msgpack (Object)
open MsgpackEpicsConverter

variable {schema build : Structure} {root : PVStructure} {type : FieldType} {name : String}
  {entries : List (Object × Object)} {object value : Object} {path : List String}
  {field : PVField} {tosend : List (List String)}

/-! ## What the put object says -/

mutual

/-- The value that an object carries for a field of the type, if it is of the kind of the field:
one that converts for a scalar, an array for an array, a map with names of fields for a structure,
and a map with the name of one member for a union. -/
def valueOf : Object → FieldType → Option PVField
  | object, .scalar type => (unpackScalar type object).toOption.map (.scalar type)
  | .array items, .scalarArray elementType =>
    (unpackScalars elementType items).toOption.map (.scalarArray elementType)
  | .map entries, .structure schema =>
    (valuesOf entries schema (FieldType.createPVStructure schema)).map .structure
  | .array items, .structureArray schema =>
    (structuresOf items schema).map (.structureArray schema)
  | .map [(key, value)], .union members =>
    (asString key).toOption.bind fun name =>
      (members.lookup name).bind fun type =>
        (valueOf value type).map fun field => .union members (some (name, field))
  | .array items, .unionArray members => (unionsOf items members).map (.unionArray members)
  | _, _ => none

def valuesOf : List (Object × Object) → Structure → PVStructure → Option PVStructure
  | [], _, fields => some fields
  | (key, value) :: rest, schema, fields =>
    (asString key).toOption.bind fun name =>
      (schema.lookup name).bind fun type =>
        (valueOf value type).bind fun field =>
          valuesOf rest schema (PVField.copyTo name field fields)

def structuresOf : List Object → Structure → Option (List (Option PVStructure))
  | [], _ => some []
  | .map entries :: rest, schema =>
    (valuesOf entries schema (FieldType.createPVStructure schema)).bind fun element =>
      (structuresOf rest schema).map fun others => some element :: others
  | _ :: _, _ => none

def unionsOf : List Object → Structure → Option (List (Option (Option (String × PVField))))
  | [], _ => some []
  | .map [(key, value)] :: rest, members =>
    (asString key).toOption.bind fun name =>
      (members.lookup name).bind fun type =>
        (valueOf value type).bind fun field =>
          (unionsOf rest members).map fun others => some (some (name, field)) :: others
  | _ :: _, _ => none

end

/-- A key of the put object, at a level that `collectFieldOffsets` reaches. -/
inductive PutKey where
  | dangling (key : Object)
  | leaf (path : List String) (type : FieldType) (value : Object)

mutual

/-- The keys of an object for the structure at this path. A map goes on in the structure that its
key names. -/
def putKeys (root : PVStructure) (path : List String) : Object → List PutKey
  | .map entries => entryKeys root path entries
  | _ => []

def entryKeys (root : PVStructure) (path : List String) : List (Object × Object) → List PutKey
  | [] => []
  | (key, .map inner) :: rest =>
    (match (asString key).toOption.bind (locate root) with
      | some (names, .structure subStruct) => entryKeys subStruct (path ++ names) inner
      | some (names, field) => [.leaf (path ++ names) field.type (.map inner)]
      | none => [.dangling key]) ++ entryKeys root path rest
  | (key, value) :: rest =>
    (match (asString key).toOption.bind (locate root) with
      | some (names, field) => [.leaf (path ++ names) field.type value]
      | none => [.dangling key]) ++ entryKeys root path rest

end

/-- The key names no field, or its value is not of the kind of the field. -/
def PutKey.Unfit : PutKey → Prop
  | .dangling _ => True
  | .leaf _ type value => valueOf value type = none

/-- What is asked of `putBuild`: where it returns, a field whose bit is set holds what the put
object carries for it, each key of a field has its bit set, and no other bit is; it throws where a
key or a value does not fit, and never does anything that is not defined. -/
structure Meets (build : Structure) (object : Object) : Prop where
  defined : putBuild build object ≠ .error .undefined
  holds : ∀ args, putBuild build object = .ok args → ∀ path type value,
    .leaf path type value ∈ putKeys (FieldType.createPVStructure build) [] object →
      path ∈ args.tosend →
        ∃ field, valueOf value type = some field ∧ PVField.follow args.root path = some field
  sent : ∀ args, putBuild build object = .ok args → ∀ path type value,
    .leaf path type value ∈ putKeys (FieldType.createPVStructure build) [] object →
      path ∈ args.tosend
  only : ∀ args, putBuild build object = .ok args → ∀ path ∈ args.tosend, ∃ type value,
    .leaf path type value ∈ putKeys (FieldType.createPVStructure build) [] object
  rejects : (∃ key ∈ putKeys (FieldType.createPVStructure build) [] object, key.Unfit) →
    putBuild build object = .error .thrown

/-! ## The condition -/

/-- The value of the last pair with this key. -/
def lastEntry (name : String) : List (Object × Object) → Option Object
  | [] => none
  | (key, value) :: rest =>
    match lastEntry name rest with
    | some later => some later
    | none => if (asString key).toOption = some name then some value else none

/-- The value that the pairs without dots leave in the field: the last one for it converts to the
value, or there is none and the value is the default. -/
def LeftBy (type : FieldType) (field : PVField) :
    List String → List (Object × Object) → Prop
  | [], _ => False
  | [name], entries =>
    match lastEntry name entries with
    | none => field = type.createPVField
    | some value => unpackMsgpackToPVField value type = .ok (some field)
  | name :: next :: rest, entries =>
    match lastEntry name entries with
    | some (.map inner) => LeftBy type field (next :: rest) inner
    | _ => field = type.createPVField

/-- The key names a field, its value is of the kind of the field and no map, and the pairs without
dots leave this value in the field. -/
def Carried (entries : List (Object × Object)) : PutKey → Prop
  | .dangling _ => False
  | .leaf _ _ (.map _) => False
  | .leaf path type value =>
    ∃ field, valueOf value type = some field ∧ LeftBy type field path entries

/-- The bit of a key: a map sets none. -/
def PutKey.bit : PutKey → Option (List String)
  | .dangling _ => none
  | .leaf _ _ (.map _) => none
  | .leaf path _ _ => some path

/-- What makes `putBuild` throw: the object is no map, a key is no string, no key sets a bit, or
the values cannot be converted. -/
def Rejected (build : Structure) (object : Object) : Prop :=
  let keys := putKeys (FieldType.createPVStructure build) [] object
  (∀ entries, object ≠ .map entries) ∨
    (∃ key, .dangling key ∈ keys ∧ asString key = .error .thrown) ∨
    keys.filterMap PutKey.bit = [] ∨
    msgpackToEpics object build = .error .thrown

/-- The object can be read, and all of its keys carry over. -/
def Faithful (build : Structure) (object : Object) : Prop :=
  ∃ entries root, object = .map entries ∧ msgpackToEpics object build = .ok root ∧
    ∀ key ∈ putKeys (FieldType.createPVStructure build) [] object, Carried entries key

/-! ## The bits -/

/-- The bits of the keys, or a key that is no string. -/
def Collected (result : Except Failure (List (List String))) (keys : List PutKey) : Prop :=
  match result with
  | .ok tosend => tosend = keys.filterMap PutKey.bit ∧
      ∀ key, .dangling key ∈ keys → ∃ name, asString key = .ok name
  | .error failure =>
      failure = .thrown ∧ ∃ key, .dangling key ∈ keys ∧ asString key = .error .thrown

theorem asString_error {key : Object} {failure : Failure} (h : asString key = .error failure) :
    failure = .thrown := by
  rw [asString.eq_def] at h
  split at h
  · cases h
  · cases h
  · exact (Except.error.inj h).symm

theorem Collected.append {first second : Except Failure (List (List String))}
    {keys others : List PutKey} (hfirst : Collected first keys)
    (hsecond : Collected second others) :
    Collected (do let bits ← first; let more ← second; return bits ++ more) (keys ++ others) := by
  cases first with
  | error failure =>
      obtain ⟨rfl, key, hmem, hkey⟩ := hfirst
      exact ⟨rfl, key, List.mem_append_left _ hmem, hkey⟩
  | ok bits =>
      cases second with
      | error failure =>
          obtain ⟨rfl, key, hmem, hkey⟩ := hsecond
          exact ⟨rfl, key, List.mem_append_right _ hmem, hkey⟩
      | ok more =>
          obtain ⟨rfl, hnames⟩ := hfirst
          obtain ⟨rfl, hothers⟩ := hsecond
          refine ⟨(List.filterMap_append ..).symm, fun key hmem => ?_⟩
          rcases List.mem_append.1 hmem with hmem | hmem
          · exact hnames key hmem
          · exact hothers key hmem

/-- A key that is no string ends the collection. -/
theorem Collected.of_error {key : Object} {failure : Failure} {keys : List PutKey}
    (h : asString key = .error failure) : Collected (.error failure) (.dangling key :: keys) := by
  obtain rfl := asString_error h
  exact ⟨rfl, key, List.mem_cons_self, h⟩

/-- A pair whose value is no map. -/
theorem collectEntry_spec {key : Object} {rest : List (Object × Object)}
    (hvalue : ∀ inner, value ≠ .map inner)
    (hrest : Collected (collectEntries root path rest) (entryKeys root path rest)) :
    Collected (collectEntries root path ((key, value) :: rest))
      (entryKeys root path ((key, value) :: rest)) := by
  rw [collectEntries, entryKeys]
  · cases hname : asString key with
    | error failure => exact Collected.of_error hname
    | ok name =>
        simp only [bind, Except.bind, Except.toOption, Option.bind_some]
        cases locate root name with
        | none =>
            have hnone : Collected (.ok []) [.dangling key] := ⟨rfl, by simp [hname]⟩
            exact hnone.append hrest
        | some found =>
            have hbit : PutKey.bit (.leaf (path ++ found.1) found.2.type value) =
                some (path ++ found.1) := by
              cases value <;> simp_all [PutKey.bit]
            have hsome : Collected (.ok [path ++ found.1])
                [.leaf (path ++ found.1) found.2.type value] := ⟨by simp [hbit], by simp⟩
            exact hsome.append hrest
  all_goals simpa using hvalue

mutual

theorem collectFieldOffsets_spec (root : PVStructure) (path : List String) : (object : Object) →
    Collected (collectFieldOffsets root path object) (putKeys root path object)
  | .map entries => by
      rw [collectFieldOffsets, putKeys]
      exact collectEntries_spec root path entries
  | .nil | .boolean _ | .int _ | .float32 _ | .float64 _ | .str _ | .bin _ | .ext | .array _ => by
      rw [collectFieldOffsets, putKeys]
      · exact ⟨rfl, by simp⟩
      all_goals simp

theorem collectEntries_spec (root : PVStructure) (path : List String) :
    (entries : List (Object × Object)) →
      Collected (collectEntries root path entries) (entryKeys root path entries)
  | [] => by
      rw [collectEntries, entryKeys]
      exact ⟨rfl, by simp⟩
  | (key, .map inner) :: rest => by
      rw [collectEntries, entryKeys]
      cases hname : asString key with
      | error failure => exact Collected.of_error hname
      | ok name =>
          simp only [Except.toOption, Option.bind_some]
          refine Collected.append ?_ (collectEntries_spec root path rest)
          cases locate root name with
          | none => exact ⟨rfl, by simp [hname]⟩
          | some found =>
              obtain ⟨names, field⟩ := found
              cases field with
              | «structure» fields => exact collectEntries_spec fields (path ++ names) inner
              | scalar | scalarArray | structureArray | union | unionArray =>
                  exact ⟨rfl, by simp⟩
  | (key, .nil) :: rest | (key, .boolean _) :: rest | (key, .int _) :: rest
  | (key, .float32 _) :: rest | (key, .float64 _) :: rest | (key, .str _) :: rest
  | (key, .bin _) :: rest | (key, .ext) :: rest | (key, .array _) :: rest => by
      exact collectEntry_spec (by simp) (collectEntries_spec root path rest)

end

/-! ## The fields of the keys -/

theorem follow_ne_nil {fields : PVStructure} (h : PVField.follow fields path = some field) :
    path ≠ [] := by
  rintro rfl
  rw [PVField.follow] at h
  cases h

/-- The way goes on from a structure on it. -/
theorem follow_append {fields inner : PVStructure} {names rest : List String}
    (h : PVField.follow fields names = some (.structure inner)) (hrest : rest ≠ []) :
    PVField.follow fields (names ++ rest) = PVField.follow inner rest := by
  induction names generalizing fields with
  | nil => exact absurd rfl (follow_ne_nil h)
  | cons name others ih =>
      cases others with
      | nil =>
          obtain ⟨next, rest, rfl⟩ := List.exists_cons_of_ne_nil hrest
          rw [PVField.follow] at h
          rw [List.singleton_append, PVField.follow, h]
          simp
      | cons next others =>
          rw [PVField.follow] at h
          · rw [List.cons_append, PVField.follow]
            · cases hlookup : fields.lookup name with
              | none => simp [hlookup] at h
              | some field =>
                  cases field with
                  | «structure» below =>
                      simp only [hlookup] at h ⊢
                      exact ih h
                  | scalar | scalarArray | structureArray | union | unionArray =>
                      simp [hlookup] at h
            · simp
          · simp

/-- A leaf is at the path of a field of its type. No structure is a leaf with a map. -/
def LeafAt (root : PVStructure) (path : List String) : PutKey → Prop
  | .dangling _ => True
  | .leaf leafPath type value => ∃ names field, leafPath = path ++ names ∧
      PVField.follow root names = some field ∧ field.type = type ∧
      ∀ inner fields, value = .map inner → field ≠ .structure fields

theorem follow_of_locate {key : String} {names : List String}
    (h : locate root key = some (names, field)) :
    PVField.follow root names = some field := by
  obtain ⟨others, -, h⟩ := Option.bind_eq_some_iff.1 h
  obtain ⟨found, hfound, h⟩ := Option.map_eq_some_iff.1 h
  cases h
  exact hfound

/-- The leaves below a structure are leaves of the structure around it. -/
theorem LeafAt.below {inner : PVStructure} {names : List String} {key : PutKey}
    (hnames : PVField.follow root names = some (.structure inner))
    (h : LeafAt inner (path ++ names) key) : LeafAt root path key := by
  cases key with
  | dangling key => trivial
  | leaf leafPath type value =>
      obtain ⟨others, field, rfl, hfield, htype, hmap⟩ := h
      refine ⟨names ++ others, field, List.append_assoc .., ?_, htype, hmap⟩
      rwa [follow_append hnames (follow_ne_nil hfield)]

/-- The key of a pair whose value is no map. -/
theorem entryKeys_leafAt {key : Object} {rest : List (Object × Object)}
    (hvalue : ∀ inner, value ≠ .map inner)
    (hrest : ∀ other ∈ entryKeys root path rest, LeafAt root path other) :
    ∀ other ∈ entryKeys root path ((key, value) :: rest), LeafAt root path other := by
  intro other hother
  rw [entryKeys] at hother
  · rcases List.mem_append.1 hother with hhead | htail
    · cases hfound : (asString key).toOption.bind (locate root) with
      | none =>
          rw [hfound] at hhead
          obtain rfl := List.mem_singleton.1 hhead
          trivial
      | some found =>
          rw [hfound] at hhead
          obtain rfl := List.mem_singleton.1 hhead
          obtain ⟨name, -, hlocate⟩ := Option.bind_eq_some_iff.1 hfound
          exact ⟨found.1, found.2, rfl, follow_of_locate hlocate, rfl,
            fun inner _ hinner => absurd hinner (hvalue inner)⟩
    · exact hrest other htail
  all_goals simpa using hvalue

mutual

theorem putKeys_leafAt (root : PVStructure) (path : List String) : (object : Object) →
    ∀ key ∈ putKeys root path object, LeafAt root path key
  | .map entries => by
      rw [putKeys]
      exact entriesKeys_leafAt root path entries
  | .nil | .boolean _ | .int _ | .float32 _ | .float64 _ | .str _ | .bin _ | .ext | .array _ => by
      rw [putKeys]
      all_goals simp

theorem entriesKeys_leafAt (root : PVStructure) (path : List String) :
    (entries : List (Object × Object)) → ∀ key ∈ entryKeys root path entries, LeafAt root path key
  | [] => by
      rw [entryKeys]
      simp
  | (key, .map inner) :: rest => by
      rw [entryKeys]
      intro other hother
      rcases List.mem_append.1 hother with hhead | htail
      · cases hfound : (asString key).toOption.bind (locate root) with
        | none =>
            rw [hfound] at hhead
            obtain rfl := List.mem_singleton.1 hhead
            trivial
        | some found =>
            rw [hfound] at hhead
            obtain ⟨name, -, hlocate⟩ := Option.bind_eq_some_iff.1 hfound
            obtain ⟨names, field⟩ := found
            have hfollow := follow_of_locate hlocate
            cases field with
            | «structure» fields =>
                exact (entriesKeys_leafAt fields (path ++ names) inner other hhead).below hfollow
            | scalar | scalarArray | structureArray | union | unionArray =>
                obtain rfl := List.mem_singleton.1 hhead
                exact ⟨names, _, rfl, hfollow, rfl, fun _ _ _ => nofun⟩
      · exact entriesKeys_leafAt root path rest other htail
  | (key, .nil) :: rest | (key, .boolean _) :: rest | (key, .int _) :: rest
  | (key, .float32 _) :: rest | (key, .float64 _) :: rest | (key, .str _) :: rest
  | (key, .bin _) :: rest | (key, .ext) :: rest | (key, .array _) :: rest => by
      exact entryKeys_leafAt (by simp) (entriesKeys_leafAt root path rest)

end

/-! ## What the pairs leave in a field -/

/-- The loop over the pairs leaves in a field what the last pair for it gives. -/
theorem unpackEntries_lookup {fields result : PVStructure}
    (h : unpackEntries entries schema fields = .ok result) (htype : schema.lookup name = some type)
    (hunion : ∀ members, type ≠ .union members) (hsome : (fields.lookup name).isSome) :
    match lastEntry name entries with
    | none => result.lookup name = fields.lookup name
    | some value => ∃ field, unpackMsgpackToPVField value type = .ok (some field) ∧
        result.lookup name = some field := by
  induction entries generalizing fields with
  | nil =>
      rw [unpackEntries] at h
      obtain rfl := Except.ok.inj h
      rfl
  | cons pair rest ih =>
      obtain ⟨key, value⟩ := pair
      rw [unpackEntries] at h
      obtain ⟨other, hkey, h⟩ := Failure.bind_eq_ok.1 h
      have htoOption : (asString key).toOption = some other := by
        rw [hkey]
        rfl
      rw [lastEntry, htoOption]
      by_cases heq : other = name
      · subst heq
        rw [if_pos rfl]
        simp only [htype] at h
        obtain ⟨read, hread, h⟩ := Failure.bind_eq_ok.1 h
        cases read with
        | none =>
            obtain ⟨members, rfl⟩ := union_of_unpack_none hread
            exact absurd rfl (hunion members)
        | some field =>
            have hcopy := lookup_copyTo_self field hsome
            have hlast := ih h (by rw [hcopy]; rfl)
            cases hlater : lastEntry other rest with
            | none =>
                rw [hlater] at hlast
                exact ⟨field, hread, hlast.trans hcopy⟩
            | some later =>
                rw [hlater] at hlast
                exact hlast
      · have hne : ¬ some other = some name := fun hsame => heq (Option.some.inj hsame)
        rw [if_neg hne]
        have hnext : ∃ next, unpackEntries rest schema next = .ok result ∧
            next.lookup name = fields.lookup name := by
          cases hother : schema.lookup other with
          | none =>
              simp only [hother] at h
              exact ⟨fields, h, rfl⟩
          | some type =>
              simp only [hother] at h
              obtain ⟨read, -, h⟩ := Failure.bind_eq_ok.1 h
              cases read with
              | none => exact ⟨fields, h, rfl⟩
              | some field => exact ⟨_, h, lookup_copyTo_of_ne (Ne.symm heq)⟩
        obtain ⟨next, hrest, hsame⟩ := hnext
        have hlast := ih hrest (hsame ▸ hsome)
        rw [hsame] at hlast
        cases hlater : lastEntry name rest with
        | none =>
            rw [hlater] at hlast
            exact hlast
        | some later =>
            rw [hlater] at hlast
            exact hlast

theorem structure_of_createPVField {fields : PVStructure}
    (h : type.createPVField = .structure fields) :
    ∃ inner, type = .structure inner ∧ fields = FieldType.createPVStructure inner := by
  cases type with
  | «structure» inner =>
      rw [FieldType.createPVField] at h
      exact ⟨inner, rfl, (PVField.structure.inj h).symm⟩
  | scalar | scalarArray | structureArray | union | unionArray =>
      rw [FieldType.createPVField] at h
      cases h

theorem leftBy_nil {next : String} {others : List String} :
    LeftBy type field (next :: others) [] ↔ field = type.createPVField := by
  cases others <;> rfl

/-- A field of the root holds just what the pairs leave in it. -/
theorem follow_iff_leftBy {initial : PVField}
    (h : unpackEntries entries schema (FieldType.createPVStructure schema) = .ok root)
    (hfield : PVField.follow (FieldType.createPVStructure schema) path = some initial)
    (htype : initial.type = type) (hunion : ∀ members, type ≠ .union members) :
    PVField.follow root path = some field ↔ LeftBy type field path entries := by
  induction path generalizing entries schema root with
  | nil => exact absurd rfl (follow_ne_nil hfield)
  | cons name rest ih =>
      cases rest with
      | nil =>
          rw [PVField.follow, lookup_createPVStructure] at hfield
          obtain ⟨other, hlookup, rfl⟩ := Option.map_eq_some_iff.1 hfield
          obtain rfl : other = type := (createPVField_type other).symm.trans htype
          have hdefault : (FieldType.createPVStructure schema).lookup name =
              some other.createPVField := by rw [lookup_createPVStructure, hlookup]; rfl
          have hlast := unpackEntries_lookup h hlookup hunion (by rw [hdefault]; rfl)
          rw [PVField.follow, LeftBy]
          cases hentry : lastEntry name entries with
          | none =>
              rw [hentry] at hlast
              rw [hlast, hdefault, Option.some_inj, eq_comm]
          | some value =>
              rw [hentry] at hlast
              obtain ⟨found, hread, hroot⟩ := hlast
              simp only [hroot, hread, Option.some_inj, Except.ok.injEq]
      | cons next others =>
          rw [PVField.follow] at hfield
          · cases hlookup : (FieldType.createPVStructure schema).lookup name with
            | none => simp [hlookup] at hfield
            | some found =>
                rw [hlookup] at hfield
                cases found with
                | scalar | scalarArray | structureArray | union | unionArray => simp at hfield
                | «structure» below =>
                    rw [lookup_createPVStructure] at hlookup
                    obtain ⟨found, hschema, hfound⟩ := Option.map_eq_some_iff.1 hlookup
                    obtain ⟨inner, rfl, rfl⟩ := structure_of_createPVField hfound
                    simp only at hfield
                    have hdefault : (FieldType.createPVStructure schema).lookup name =
                        some (.structure (FieldType.createPVStructure inner)) := by
                      rw [lookup_createPVStructure, hschema, Option.map_some, hfound]
                    have hlast := unpackEntries_lookup h hschema nofun (by rw [hdefault]; rfl)
                    -- below a structure that no map sets, all fields have their default
                    have hnone : PVField.follow (FieldType.createPVStructure inner)
                        (next :: others) = some field ↔ field = type.createPVField :=
                      (ih rfl hfield).trans leftBy_nil
                    rw [PVField.follow, LeftBy]
                    · cases hentry : lastEntry name entries with
                      | none =>
                          rw [hentry] at hlast
                          rw [hlast, hdefault]
                          exact hnone
                      | some value =>
                          rw [hentry] at hlast
                          obtain ⟨found, hread, hroot⟩ := hlast
                          rw [unpackMsgpackToPVField_structure] at hread
                          rw [hroot]
                          cases hstruct : msgpackToEpics value inner with
                          | error failure =>
                              rw [hstruct] at hread
                              cases hread
                          | ok pvStruct =>
                              rw [hstruct] at hread
                              cases hread
                              cases value with
                              | map pairs => exact ih hstruct hfield
                              | nil | boolean | int | float32 | float64 | str | bin | ext | array =>
                                  cases hstruct
                                  exact hnone
                    · simp
          · simp

/-! ## When a put meets what is asked of it -/

/-- The value of a union is a map. -/
theorem map_of_valueOf_union {members : Structure}
    (h : valueOf object (.union members) = some field) :
    ∃ inner, object = .map inner := by
  cases object with
  | map inner => exact ⟨inner, rfl⟩
  | nil | boolean | int | float32 | float64 | str | bin | ext | array => simp [valueOf] at h

/-- A map is of the kind of a structure or of a union only. -/
theorem union_of_valueOf_map {inner : List (Object × Object)}
    (h : valueOf (.map inner) type = some field) :
    (∃ members, type = .union members) ∨ ∃ schema, type = .structure schema := by
  cases type with
  | union members => exact .inl ⟨members, rfl⟩
  | «structure» schema => exact .inr ⟨schema, rfl⟩
  | scalar type =>
      have hthrown : unpackScalar type (.map inner) = .error .thrown := by cases type <;> rfl
      rw [valueOf, hthrown] at h
      cases h
  | scalarArray | structureArray | unionArray => simp [valueOf] at h

theorem thrown_of_rejected (h : Rejected build object) :
    putBuild build object = .error .thrown := by
  cases object with
  | map entries =>
      have hspec := collectFieldOffsets_spec (FieldType.createPVStructure build) [] (.map entries)
      rw [putBuild]
      cases hcollect :
        collectFieldOffsets (FieldType.createPVStructure build) [] (.map entries) with
      | error failure =>
          rw [hcollect] at hspec
          obtain ⟨rfl, -⟩ := hspec
          rfl
      | ok tosend =>
          rw [hcollect] at hspec
          obtain ⟨rfl, hstrings⟩ := hspec
          rcases h with hmap | ⟨key, hkey, hthrown⟩ | hempty | hread
          · exact absurd rfl (hmap entries)
          · obtain ⟨name, hname⟩ := hstrings key hkey
            rw [hname] at hthrown
            cases hthrown
          · rw [hempty]
            rfl
          · simp only [bind, Except.bind, hread]
            split <;> rfl
  | nil | boolean | int | float32 | float64 | str | bin | ext | array => rfl

/-- An object that is not rejected is converted, and its bits are those of its keys. -/
theorem putBuild_of_not_rejected (h : ¬ Rejected build object) :
    ∃ entries, object = .map entries ∧
      putBuild build object = (msgpackToEpics object build).map fun root =>
        ⟨(putKeys (FieldType.createPVStructure build) [] object).filterMap PutKey.bit, root⟩ := by
  simp only [Rejected, not_or, not_forall, not_not] at h
  obtain ⟨⟨entries, rfl⟩, hstrings, hbits, -⟩ := h
  refine ⟨entries, rfl, ?_⟩
  have hspec := collectFieldOffsets_spec (FieldType.createPVStructure build) [] (.map entries)
  rw [putBuild]
  cases hcollect : collectFieldOffsets (FieldType.createPVStructure build) [] (.map entries) with
  | error failure =>
      rw [hcollect] at hspec
      exact absurd hspec.2 hstrings
  | ok tosend =>
      rw [hcollect] at hspec
      obtain ⟨rfl, -⟩ := hspec
      simp only [bind, Except.bind, List.isEmpty_iff, if_neg hbits]
      cases msgpackToEpics (.map entries) build <;> rfl

/-- The bit of a leaf, and no other key at its path has a union. -/
theorem bit_eq_some {key : PutKey} (h : key.bit = some path) :
    ∃ type value, key = .leaf path type value ∧ ∀ inner, value ≠ .map inner := by
  cases key with
  | dangling key => cases h
  | leaf leafPath type value =>
      cases value with
      | map inner => cases h
      | nil | boolean | int | float32 | float64 | str | bin | ext | array =>
          obtain rfl : leafPath = path := Option.some.inj h
          exact ⟨type, _, rfl, by simp⟩

theorem bit_of_not_map (h : ∀ inner, value ≠ .map inner) :
    PutKey.bit (.leaf path type value) = some path := by
  cases value with
  | map inner => exact absurd rfl (h inner)
  | nil | boolean | int | float32 | float64 | str | bin | ext | array => rfl

/-- Two leaves at one path have the type of the same field. -/
theorem type_unique {other : FieldType} {value' : Object}
    (h : .leaf path type value ∈ putKeys root [] object)
    (h' : .leaf path other value' ∈ putKeys root [] object) : type = other := by
  obtain ⟨names, field, rfl, hfollow, rfl, -⟩ := putKeys_leafAt root [] object _ h
  obtain ⟨names', field', hpath, hfollow', rfl, -⟩ := putKeys_leafAt root [] object _ h'
  obtain rfl : path = names' := hpath
  rw [hfollow] at hfollow'
  rw [Option.some.inj hfollow']

/-- The root holds the value of a leaf just where the pairs leave it there. -/
theorem follow_leaf_iff (hread : msgpackToEpics (.map entries) build = .ok root)
    (h : .leaf path type value ∈ putKeys (FieldType.createPVStructure build) [] object)
    (hvalue : ∀ inner, value ≠ .map inner) {carried : PVField}
    (hcarried : valueOf value type = some carried) :
    PVField.follow root path = some field ↔ LeftBy type field path entries := by
  obtain ⟨names, initial, rfl, hfollow, htype, -⟩ := putKeys_leafAt _ _ _ _ h
  apply follow_iff_leftBy hread hfollow htype
  rintro members rfl
  obtain ⟨inner, rfl⟩ := map_of_valueOf_union hcarried
  exact hvalue inner rfl

/-- An object whose keys carry over is put as it says. -/
theorem meets_of_faithful (hrejected : ¬ Rejected build object) (h : Faithful build object) :
    Meets build object := by
  obtain ⟨entries, root, rfl, hread, hkeys⟩ := h
  obtain ⟨-, -, hput⟩ := putBuild_of_not_rejected hrejected
  have hok : putBuild build (.map entries) = .ok
      ⟨(putKeys (FieldType.createPVStructure build) [] (.map entries)).filterMap PutKey.bit,
        root⟩ := by
    rw [hput, hread]
    rfl
  -- a leaf that carries over is no map
  have hleaf : ∀ {path type value}, .leaf path type value ∈
      putKeys (FieldType.createPVStructure build) [] (.map entries) →
        (∀ inner, value ≠ .map inner) ∧
        ∃ field, valueOf value type = some field ∧ LeftBy type field path entries := by
    intro path type value hmem
    have hcarried := hkeys _ hmem
    cases value with
    | map inner => exact hcarried.elim
    | nil | boolean | int | float32 | float64 | str | bin | ext | array =>
        exact ⟨by simp, hcarried⟩
  constructor
  case defined =>
    rw [hok]
    nofun
  case holds =>
    intro args hargs path type value hmem _
    cases hok.symm.trans hargs
    obtain ⟨hvalue, field, hfield, hleft⟩ := hleaf hmem
    exact ⟨field, hfield, (follow_leaf_iff hread hmem hvalue hfield).2 hleft⟩
  case sent =>
    intro args hargs path type value hmem
    cases hok.symm.trans hargs
    exact List.mem_filterMap.2 ⟨_, hmem, bit_of_not_map (hleaf hmem).1⟩
  case only =>
    intro args hargs path hpath
    cases hok.symm.trans hargs
    obtain ⟨key, hmem, hbit⟩ := List.mem_filterMap.1 hpath
    obtain ⟨type, value, rfl, -⟩ := bit_eq_some hbit
    exact ⟨type, value, hmem⟩
  case rejects =>
    rintro ⟨key, hmem, hunfit⟩
    cases key with
    | dangling key => exact (hkeys _ hmem).elim
    | leaf path type value =>
        obtain ⟨-, field, hfield, -⟩ := hleaf hmem
        exact absurd (hfield.symm.trans hunfit) nofun

/-- An object that is put as it says has no key that does not carry over. -/
theorem faithful_of_meets (hrejected : ¬ Rejected build object) (h : Meets build object) :
    Faithful build object := by
  obtain ⟨entries, rfl, hput⟩ := putBuild_of_not_rejected hrejected
  obtain ⟨root, hread⟩ : ∃ root, msgpackToEpics (.map entries) build = .ok root := by
    cases hread : msgpackToEpics (.map entries) build with
    | ok root => exact ⟨root, rfl⟩
    | error failure =>
        rw [hread] at hput
        cases failure with
        | thrown => exact absurd (.inr (.inr (.inr hread))) hrejected
        | undefined => exact absurd hput h.defined
  rw [hread] at hput
  have hfits : ∀ key ∈ putKeys (FieldType.createPVStructure build) [] (.map entries),
      ¬ key.Unfit := by
    intro key hmem hunfit
    have hthrown := h.rejects ⟨key, hmem, hunfit⟩
    rw [hput] at hthrown
    cases hthrown
  refine ⟨entries, root, rfl, hread, fun key hmem => ?_⟩
  cases key with
  | dangling key => exact absurd trivial (hfits _ hmem)
  | leaf path type value =>
      have hsent := h.sent _ hput path type value hmem
      obtain ⟨field, hfield, hroot⟩ := h.holds _ hput path type value hmem hsent
      have hvalue : ∀ inner, value ≠ .map inner := by
        rintro inner rfl
        -- a map is a leaf for a union only, and then the bit of the union is that of no map
        obtain ⟨key, hother, hbit⟩ := List.mem_filterMap.1 hsent
        obtain ⟨otherType, other, rfl, hnotMap⟩ := bit_eq_some hbit
        obtain rfl := type_unique hmem hother
        obtain ⟨names, initial, -, -, htype, hstructure⟩ := putKeys_leafAt _ _ _ _ hmem
        rcases union_of_valueOf_map hfield with ⟨members, rfl⟩ | ⟨schema, rfl⟩
        · cases hotherField : valueOf other (.union members) with
          | none => exact hfits _ hother hotherField
          | some otherValue =>
              obtain ⟨inner', hmap⟩ := map_of_valueOf_union hotherField
              exact hnotMap inner' hmap
        · cases initial with
          | «structure» fields => exact hstructure inner fields rfl rfl
          | scalar | scalarArray | structureArray | union | unionArray => cases htype
      have hleft := (follow_leaf_iff hread hmem hvalue hfield).1 hroot
      cases value with
      | map inner => exact absurd rfl (hvalue inner)
      | nil | boolean | int | float32 | float64 | str | bin | ext | array =>
          exact ⟨field, hfield, hleft⟩

/-- `putBuild` meets what is asked of it just where it throws, or each key carries over. -/
theorem meets_iff (build : Structure) (object : Object) :
    Meets build object ↔ Rejected build object ∨ Faithful build object := by
  by_cases hrejected : Rejected build object
  · refine ⟨fun _ => .inl hrejected, fun _ => ?_⟩
    have hthrown := thrown_of_rejected hrejected
    exact {
      defined := by rw [hthrown]; nofun
      holds := by rw [hthrown]; nofun
      sent := by rw [hthrown]; nofun
      only := by rw [hthrown]; nofun
      rejects := fun _ => hthrown }
  · refine ⟨fun h => .inr (faithful_of_meets hrejected h), fun h => ?_⟩
    exact meets_of_faithful hrejected (h.resolve_left hrejected)

/-- A dotted key: its bit is set, and the default of the field is sent. -/
theorem not_meets_dotted :
    ¬ Meets [("a", .structure [("b", .scalar .pvString)])] (.map [(.str "a.b", .str "on")]) := by
  intro h
  have hpath : namePath "a.b" = some ["a", "b"] := rfl
  have hput : putBuild [("a", .structure [("b", .scalar .pvString)])]
      (.map [(.str "a.b", .str "on")]) =
        .ok ⟨[["a", "b"]], [("a", .structure [("b", .scalar .pvString "")])]⟩ := by
    simp [putBuild, collectFieldOffsets, collectEntries, asString, locate, hpath,
      FieldType.createPVStructure, FieldType.createPVField, PVField.follow, msgpackToEpics,
      unpackEntries, List.lookup_cons, bind, Except.bind, ScalarType.default, pure, Except.pure]
  have hleaf : PutKey.leaf ["a", "b"] (.scalar .pvString) (.str "on") ∈
      putKeys (FieldType.createPVStructure [("a", .structure [("b", .scalar .pvString)])]) []
        (.map [(.str "a.b", .str "on")]) := by
    simp [putKeys, entryKeys, asString, locate, hpath, FieldType.createPVStructure,
      FieldType.createPVField, PVField.follow, Except.toOption, PVField.type]
  obtain ⟨field, hvalue, hroot⟩ := h.holds _ hput _ _ _ hleaf (by simp)
  have hdefault : field = .scalar .pvString "" := (Option.some.inj hroot).symm
  have hcarried : field = .scalar .pvString "on" := (Option.some.inj hvalue).symm
  have hvalues : ("" : String) = "on" := by
    injection hdefault.symm.trans hcarried with _ hvalues
  exact absurd hvalues (by decide)

end K2eg.PutOperation
