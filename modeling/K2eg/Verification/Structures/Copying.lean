import K2eg.Model.PVStructureMerger
import K2eg.Verification.Structures.Fields

/-! # Copying values

A copy to a structure writes the fields of the source one after the other, each to the field of its
name. What is written under different names does not meet. -/

namespace K2eg

variable {name : String} {field : PVField} {fields dest after : PVStructure}

/-! ## Structures and their fields -/

theorem names_copyTo (name : String) (value : PVField) (fields : PVStructure) :
    (PVField.copyTo name value fields).map Prod.fst = fields.map Prod.fst := by
  induction fields with
  | nil => rfl
  | cons head rest ih =>
      rw [PVField.copyTo]
      by_cases heq : head.1 = name
      · rw [if_pos heq, List.map_cons, List.map_cons, heq]
      · rw [if_neg heq, List.map_cons, List.map_cons, ih]

/-- Structures with the same names, each once, are told apart by their fields. -/
theorem eq_of_lookup {β : Type*} {first second : List (String × β)}
    (hnames : first.map Prod.fst = second.map Prod.fst) (hnodup : (second.map Prod.fst).Nodup)
    (hlookup : ∀ name value, second.lookup name = some value → first.lookup name = some value) :
    first = second := by
  induction second generalizing first with
  | nil => exact List.map_eq_nil_iff.mp hnames
  | cons head rest ih =>
      cases first with
      | nil => cases hnames
      | cons head' rest' =>
          obtain ⟨hhead, hrest⟩ := List.cons.inj hnames
          obtain ⟨hnotMem, hnodup⟩ := List.nodup_cons.mp hnodup
          have hvalue := hlookup head.1 head.2 List.lookup_cons_self
          rw [← hhead, List.lookup_cons_self] at hvalue
          have heq : head' = head := Prod.ext hhead (Option.some.inj hvalue)
          rw [heq, ih hrest hnodup]
          intro name value hmem
          have hne : name ≠ head.1 := by
            rintro rfl
            exact hnotMem (lookup_isSome_iff.mp (hmem ▸ rfl))
          have := hlookup name value (by rw [List.lookup_cons, beq_eq_false_iff_ne.mpr hne, hmem])
          rwa [List.lookup_cons, hhead, beq_eq_false_iff_ne.mpr hne] at this

theorem lookup_of_mem {β : Type*} {entries : List (String × β)}
    (hnodup : (entries.map Prod.fst).Nodup) {entry : String × β} (hmem : entry ∈ entries) :
    entries.lookup entry.1 = some entry.2 := by
  induction entries with
  | nil => cases hmem
  | cons head rest ih =>
      obtain ⟨hnotMem, hnodup⟩ := List.nodup_cons.mp hnodup
      rcases List.mem_cons.mp hmem with rfl | hmem
      · exact List.lookup_cons_self
      · have hne : entry.1 ≠ head.1 := fun heq => hnotMem (heq ▸ List.mem_map_of_mem hmem)
        rw [List.lookup_cons, beq_eq_false_iff_ne.mpr hne]
        exact ih hnodup hmem

theorem mem_of_lookup {β : Type*} {entries : List (String × β)} {value : β}
    (h : entries.lookup name = some value) : (name, value) ∈ entries := by
  obtain ⟨before, rest, heq, -⟩ := List.lookup_eq_some_iff.mp h
  rw [heq]
  exact List.mem_append_right _ List.mem_cons_self

theorem wellFormed_of_mem (h : PVField.AllWellFormed fields) {entry : String × PVField}
    (hmem : entry ∈ fields) : entry.2.WellFormed := by
  induction fields with
  | nil => cases hmem
  | cons head rest ih =>
      rcases List.mem_cons.mp hmem with rfl | hmem
      · exact h.1
      · exact ih h.2 hmem

/-- The values under a name, in order. -/
def writtenTo (name : String) (entries : List (String × PVField)) : List PVField :=
  entries.filterMap fun entry => if entry.1 = name then some entry.2 else none

theorem writtenTo_cons_self (name : String) (field : PVField) (rest : List (String × PVField)) :
    writtenTo name ((name, field) :: rest) = field :: writtenTo name rest := by
  simp [writtenTo]

theorem writtenTo_cons_of_ne {entry : String × PVField} (h : entry.1 ≠ name)
    (rest : List (String × PVField)) : writtenTo name (entry :: rest) = writtenTo name rest := by
  simp [writtenTo, h]

theorem writtenTo_eq_nil {entries : List (String × PVField)} (h : name ∉ entries.map Prod.fst) :
    writtenTo name entries = [] := by
  rw [writtenTo, List.filterMap_eq_nil_iff]
  intro entry hmem
  rw [if_neg]
  rintro rfl
  exact h (List.mem_map_of_mem hmem)

/-- In a structure there is one value under a name. -/
theorem writtenTo_of_lookup (hnodup : (fields.map Prod.fst).Nodup)
    (h : fields.lookup name = some field) : writtenTo name fields = [field] := by
  induction fields with
  | nil => cases h
  | cons head rest ih =>
      obtain ⟨other, value⟩ := head
      obtain ⟨hnotMem, hnodup⟩ := List.nodup_cons.mp hnodup
      by_cases heq : other = name
      · subst heq
        rw [List.lookup_cons_self] at h
        obtain rfl := Option.some.inj h
        rw [writtenTo_cons_self, writtenTo_eq_nil hnotMem]
      · rw [List.lookup_cons, beq_eq_false_iff_ne.mpr (Ne.symm heq)] at h
        rw [writtenTo_cons_of_ne heq]
        exact ih hnodup h

/-- The first of them is found under the name. -/
theorem writtenTo_eq_cons {entries : List (String × PVField)}
    (h : entries.lookup name = some field) :
    writtenTo name entries = field :: (writtenTo name entries).tail := by
  induction entries with
  | nil => cases h
  | cons head rest ih =>
      obtain ⟨other, value⟩ := head
      by_cases heq : other = name
      · subst heq
        rw [List.lookup_cons_self] at h
        rw [writtenTo_cons_self, List.tail_cons, Option.some.inj h]
      · rw [List.lookup_cons, beq_eq_false_iff_ne.mpr (Ne.symm heq)] at h
        rw [writtenTo_cons_of_ne heq]
        exact ih h

theorem mem_writtenTo {entries : List (String × PVField)} :
    field ∈ writtenTo name entries ↔ (name, field) ∈ entries := by
  simp only [writtenTo, List.mem_filterMap, Option.ite_none_right_eq_some, Option.some.injEq]
  constructor
  · rintro ⟨⟨_, _⟩, hmem, rfl, rfl⟩
    exact hmem
  · intro hmem
    exact ⟨_, hmem, rfl, rfl⟩

/-! ## The writes of a copy -/

namespace PVStructureMerger

variable {copyUnchecked : CopyUnchecked}

/-- One write: to the field of this name, if the destination has one. -/
def writeField (copyUnchecked : CopyUnchecked) (dest : PVStructure) (entry : String × PVField) :
    Except Failure PVStructure :=
  match dest.lookup entry.1 with
  | none => .ok dest
  | some destField =>
    (copyFieldValue copyUnchecked destField entry.2).map fun copied =>
      PVField.copyTo entry.1 copied dest

theorem writeField_eq_ok {entry : String × PVField} {destField : PVField}
    (hdest : dest.lookup entry.1 = some destField) :
    writeField copyUnchecked dest entry = .ok after ↔
      ∃ copied, copyFieldValue copyUnchecked destField entry.2 = .ok copied ∧
        PVField.copyTo entry.1 copied dest = after := by
  simp only [writeField, hdest]
  cases copyFieldValue copyUnchecked destField entry.2 <;> simp [Except.map]

theorem copyStructureValue_eq_foldlM {src : PVStructure}
    (hvalid : ∀ name ∈ src.map Prod.fst, validFieldName name = true) (dest : PVStructure) :
    copyStructureValue copyUnchecked dest src = src.foldlM (writeField copyUnchecked) dest := by
  induction src generalizing dest with
  | nil => rw [copyStructureValue]; rfl
  | cons head rest ih =>
      obtain ⟨name, field⟩ := head
      rw [List.map_cons, List.forall_mem_cons] at hvalid
      rw [copyStructureValue, List.foldlM_cons, getSubField_of_valid hvalid.1]
      cases hdest : dest.lookup name with
      | none =>
          simp only [writeField, hdest]
          exact ih hvalid.2 dest
      | some destField =>
          simp only [writeField, hdest]
          cases copyFieldValue copyUnchecked destField field with
          | error failure => rfl
          | ok copied => exact ih hvalid.2 _

/-- The writes that go through leave the names, and each field has what was written under its name,
one value after the other. -/
theorem foldlM_writeField {entries : List (String × PVField)}
    (h : entries.foldlM (writeField copyUnchecked) dest = .ok after) :
    after.map Prod.fst = dest.map Prod.fst ∧
      ∀ name destField, dest.lookup name = some destField →
        ∃ value, (writtenTo name entries).foldlM (copyFieldValue copyUnchecked) destField =
          .ok value ∧ after.lookup name = some value := by
  induction entries generalizing dest with
  | nil =>
      obtain rfl := Except.ok.inj h
      exact ⟨rfl, fun name destField hdest => ⟨destField, rfl, hdest⟩⟩
  | cons entry rest ih =>
      obtain ⟨other, field⟩ := entry
      rw [List.foldlM_cons] at h
      cases hother : dest.lookup other with
      | none =>
          simp only [writeField, hother] at h
          obtain ⟨hnames, hvalues⟩ := ih h
          refine ⟨hnames, fun name destField hdest => ?_⟩
          have hne : other ≠ name := by
            rintro rfl
            rw [hother] at hdest
            cases hdest
          rw [writtenTo_cons_of_ne hne]
          exact hvalues name destField hdest
      | some otherField =>
          cases hwrite : writeField copyUnchecked dest (other, field) with
          | error failure => rw [hwrite] at h; cases h
          | ok mid =>
              rw [hwrite] at h
              obtain ⟨copied, hcopied, rfl⟩ := (writeField_eq_ok hother).mp hwrite
              obtain ⟨hnames, hvalues⟩ := ih h
              refine ⟨hnames.trans (names_copyTo _ _ _), fun name destField hdest => ?_⟩
              by_cases heq : other = name
              · subst heq
                obtain rfl := Option.some.inj (hother.symm.trans hdest)
                rw [writtenTo_cons_self, List.foldlM_cons, hcopied]
                exact hvalues other copied (lookup_copyTo_self copied (hother ▸ rfl))
              · rw [writtenTo_cons_of_ne heq]
                refine hvalues name destField ?_
                rw [lookup_copyTo_of_ne (Ne.symm heq), hdest]

/-- The writes go through where each field takes what is written under its name. -/
theorem exists_foldlM_writeField {entries : List (String × PVField)}
    (h : ∀ name destField, dest.lookup name = some destField →
      ∃ value, (writtenTo name entries).foldlM (copyFieldValue copyUnchecked) destField =
        .ok value) :
    ∃ after, entries.foldlM (writeField copyUnchecked) dest = .ok after := by
  induction entries generalizing dest with
  | nil => exact ⟨dest, rfl⟩
  | cons entry rest ih =>
      obtain ⟨other, field⟩ := entry
      simp only [List.foldlM_cons]
      cases hother : dest.lookup other with
      | none =>
          simp only [writeField, hother]
          refine ih fun name destField hdest => ?_
          have hne : other ≠ name := by
            rintro rfl
            rw [hother] at hdest
            cases hdest
          have hvalue := h name destField hdest
          rwa [writtenTo_cons_of_ne hne] at hvalue
      | some otherField =>
          obtain ⟨value, hvalue⟩ := h other otherField hother
          rw [writtenTo_cons_self, List.foldlM_cons] at hvalue
          cases hcopied : copyFieldValue copyUnchecked otherField field with
          | error failure => rw [hcopied] at hvalue; cases hvalue
          | ok copied =>
              rw [hcopied] at hvalue
              rw [(writeField_eq_ok hother).mpr ⟨copied, hcopied, rfl⟩]
              refine ih fun name destField hdest => ?_
              by_cases heq : other = name
              · subst heq
                rw [lookup_copyTo_self copied (hother ▸ rfl)] at hdest
                obtain rfl := Option.some.inj hdest
                exact ⟨value, hvalue⟩
              · rw [lookup_copyTo_of_ne (Ne.symm heq)] at hdest
                have hname := h name destField hdest
                rwa [writtenTo_cons_of_ne heq] at hname

/-! ## A copy to a field of the same type -/

theorem lookup_types (fields : PVStructure) (name : String) :
    (PVField.types fields).lookup name = (fields.lookup name).map PVField.type := by
  induction fields with
  | nil => rfl
  | cons head rest ih =>
      rw [PVField.types, List.lookup_cons, List.lookup_cons]
      cases name == head.1 with
      | true => rfl
      | false => exact ih

theorem exists_structure_of_kind : {field : PVField} → field.type.kind = .structure →
    ∃ fields, field = .structure fields
  | .structure fields, _ => ⟨fields, rfl⟩
  | .scalar _ _, h | .scalarArray _ _, h | .structureArray _ _, h | .union _ _, h
  | .unionArray _ _, h => by simp [PVField.type, FieldType.kind] at h

@[simp] theorem kind_structure (fields : PVStructure) :
    (PVField.structure fields).type.kind = .structure := by
  rw [PVField.type, FieldType.kind]

/-- A field that is no structure is left to the client library. -/
theorem copyFieldValue_of_kind : {src : PVField} → src.type.kind ≠ .structure → (dest : PVField) →
    copyFieldValue copyUnchecked dest src =
      if src.type.kind = dest.type.kind then copyUnchecked.copy dest src else .error .thrown
  | .structure fields, h, _ => absurd (kind_structure fields) h
  | .scalar _ _, _, _ | .scalarArray _ _, _, _ | .structureArray _ _, _, _ | .union _ _, _, _
  | .unionArray _ _, _, _ => by
      rw [copyFieldValue]
      exact nofun

theorem copyFieldValue_of_type {dest src : PVField} (hkind : src.type.kind ≠ .structure)
    (htype : dest.type = src.type) (hwf : src.WellFormed) :
    copyFieldValue copyUnchecked dest src = .ok src := by
  rw [copyFieldValue_of_kind hkind, htype, if_pos rfl]
  exact copyUnchecked.same_type hkind htype hwf

/-- Structures of one type have fields of the same type under each name. -/
theorem exists_lookup_of_types {destFields : PVStructure}
    (htypes : PVField.types destFields = PVField.types fields) {destField : PVField}
    (hdest : destFields.lookup name = some destField) :
    ∃ field, fields.lookup name = some field ∧ destField.type = field.type := by
  have hlookup := congrArg (List.lookup name) htypes
  rw [lookup_types, lookup_types, hdest] at hlookup
  obtain ⟨field, hfield, htype⟩ := Option.map_eq_some_iff.mp hlookup.symm
  exact ⟨field, hfield, htype.symm⟩

/-- Where each field takes the value of the source, so does the structure. -/
theorem copyStructureValue_of_fields {destFields : PVStructure}
    (hwf : PVStructure.WellFormed fields)
    (htypes : PVField.types destFields = PVField.types fields)
    (hcopy : ∀ entry ∈ fields, ∀ dest : PVField, dest.type = entry.2.type →
      copyFieldValue copyUnchecked dest entry.2 = .ok entry.2) :
    copyStructureValue copyUnchecked destFields fields = .ok fields := by
  obtain ⟨hvalid, -⟩ := hwf
  have hnames := congrArg (List.map Prod.fst) htypes
  rw [PVField.types_map_fst, PVField.types_map_fst] at hnames
  have hchain : ∀ name destField field, destFields.lookup name = some destField →
      fields.lookup name = some field → destField.type = field.type →
      (writtenTo name fields).foldlM (copyFieldValue copyUnchecked) destField = .ok field := by
    intro name destField field hdest hfield htype
    rw [writtenTo_of_lookup hvalid.nodup hfield, List.foldlM_cons,
      hcopy (name, field) (mem_of_lookup hfield) destField htype]
    rfl
  rw [copyStructureValue_eq_foldlM hvalid.valid]
  have hexists : ∀ name destField, destFields.lookup name = some destField →
      ∃ value, (writtenTo name fields).foldlM (copyFieldValue copyUnchecked) destField =
        .ok value := by
    intro name destField hdest
    obtain ⟨field, hfield, htype⟩ := exists_lookup_of_types htypes hdest
    exact ⟨field, hchain name destField field hdest hfield htype⟩
  obtain ⟨after, hafter⟩ := exists_foldlM_writeField hexists
  obtain ⟨hafterNames, hvalues⟩ := foldlM_writeField hafter
  rw [hafter]
  congr 1
  refine eq_of_lookup (hafterNames.trans hnames) hvalid.nodup fun name field hfield => ?_
  obtain ⟨destField, hdest, htype⟩ := exists_lookup_of_types htypes.symm hfield
  obtain ⟨value, hvalue, hlookup⟩ := hvalues name destField hdest
  rw [hchain name destField field hdest hfield htype.symm] at hvalue
  rw [hlookup, ← Except.ok.inj hvalue]

mutual

/-- A field takes the value of a source of its type. -/
theorem copyFieldValue_same_type : (src : PVField) → src.WellFormed → (dest : PVField) →
    dest.type = src.type → copyFieldValue copyUnchecked dest src = .ok src
  | .structure fields, hwf, dest, htype => by
      obtain ⟨destFields, rfl⟩ := exists_structure_of_kind (htype ▸ kind_structure fields)
      have htypes : PVField.types destFields = PVField.types fields := by
        simpa only [PVField.type, FieldType.structure.injEq] using htype
      rw [copyFieldValue, copyStructureValue_of_fields hwf htypes
        (copyFields_same_type fields hwf.2)]
      rfl
  | .scalar _ _, hwf, dest, htype | .scalarArray _ _, hwf, dest, htype
  | .structureArray _ _, hwf, dest, htype | .union _ _, hwf, dest, htype
  | .unionArray _ _, hwf, dest, htype => by
      exact copyFieldValue_of_type (by simp [PVField.type, FieldType.kind]) htype hwf

theorem copyFields_same_type : (fields : PVStructure) → PVField.AllWellFormed fields →
    ∀ entry ∈ fields, ∀ dest : PVField, dest.type = entry.2.type →
      copyFieldValue copyUnchecked dest entry.2 = .ok entry.2
  | [], _, _, hmem => nomatch hmem
  | (name, field) :: rest, hwf, entry, hmem => by
      rcases List.mem_cons.mp hmem with rfl | hmem
      · exact copyFieldValue_same_type field hwf.1
      · exact copyFields_same_type rest hwf.2 entry hmem

end

/-! ## Values that later copies leave -/

mutual

/-- The fields that are copied here later leave the value. Later structures write to the fields of a
structure, in order; another field takes later fields of its kind from the client library. -/
def Restored (copyUnchecked : CopyUnchecked) : PVField → List PVField → Prop
  | .structure fields, laters => ∃ sources : List PVStructure,
    laters = sources.map .structure ∧ AllRestored copyUnchecked fields sources.flatten
  | field, laters => (∀ later ∈ laters, later.type.kind = field.type.kind) ∧
    laters.foldlM copyUnchecked.copy field = .ok field

def AllRestored (copyUnchecked : CopyUnchecked) : PVStructure → List (String × PVField) → Prop
  | [], _ => True
  | (name, field) :: rest, entries =>
    Restored copyUnchecked field (writtenTo name entries) ∧ AllRestored copyUnchecked rest entries

end

theorem copyFieldValue_of_ne {dest src : PVField} (h : src.type.kind ≠ dest.type.kind) :
    copyFieldValue copyUnchecked dest src = .error .thrown := by
  by_cases hsrc : src.type.kind = .structure
  · obtain ⟨fields, rfl⟩ := exists_structure_of_kind hsrc
    rw [copyFieldValue.eq_def]
    split
    · rename_i heq
      cases heq
      split
      · exact absurd hsrc (fun _ => h (by simp))
      · rfl
    · rename_i hne
      exact absurd rfl (hne fields)
  · rw [copyFieldValue_of_kind hsrc, if_neg h]

/-- What later fields leave of a field that is no structure is up to the client library. -/
theorem foldlM_copyFieldValue_of_kind {dest value : PVField} {laters : List PVField}
    (hdest : dest.type.kind ≠ .structure) :
    laters.foldlM (copyFieldValue copyUnchecked) dest = .ok value ↔
      (∀ later ∈ laters, later.type.kind = dest.type.kind) ∧
        laters.foldlM copyUnchecked.copy dest = .ok value := by
  induction laters generalizing dest with
  | nil => simp
  | cons later rest ih =>
      rw [List.foldlM_cons, List.foldlM_cons, List.forall_mem_cons]
      by_cases hkind : later.type.kind = dest.type.kind
      · rw [copyFieldValue_of_kind (hkind ▸ hdest), if_pos hkind]
        cases hcopy : copyUnchecked.copy dest later with
        | error failure => exact ⟨nofun, fun h => nomatch h.2⟩
        | ok mid =>
            have htype := copyUnchecked.keeps_type hcopy
            refine (ih (htype ▸ hdest)).trans ?_
            rw [htype]
            exact ⟨fun h => ⟨⟨hkind, h.1⟩, h.2⟩, fun h => ⟨h.1.2, h.2⟩⟩
      · rw [copyFieldValue_of_ne hkind]
        exact ⟨nofun, fun h => absurd h.1.1 hkind⟩

/-- Later structures write their fields one after the other. -/
theorem foldlM_copyFieldValue_structures {sources : List PVStructure}
    (hvalid : ∀ src ∈ sources, ∀ name ∈ src.map Prod.fst, validFieldName name = true)
    (dest : PVStructure) :
    (sources.map PVField.structure).foldlM (copyFieldValue copyUnchecked) (.structure dest) =
      (sources.flatten.foldlM (writeField copyUnchecked) dest).map .structure := by
  induction sources generalizing dest with
  | nil => rfl
  | cons src rest ih =>
      rw [List.forall_mem_cons] at hvalid
      rw [List.map_cons, List.foldlM_cons, List.flatten_cons, List.foldlM_append, copyFieldValue,
        copyStructureValue_eq_foldlM hvalid.1]
      cases src.foldlM (writeField copyUnchecked) dest with
      | error failure => rfl
      | ok mid => exact ih hvalid.2 mid

/-- Only structures can be copied to a structure. -/
theorem exists_sources {laters : List PVField} {value : PVField}
    (h : laters.foldlM (copyFieldValue copyUnchecked) (.structure dest) = .ok value) :
    ∃ sources : List PVStructure, laters = sources.map .structure := by
  induction laters generalizing dest with
  | nil => exact ⟨[], rfl⟩
  | cons later rest ih =>
      rw [List.foldlM_cons] at h
      by_cases hkind : later.type.kind = (PVField.structure dest).type.kind
      · obtain ⟨src, rfl⟩ := exists_structure_of_kind (hkind.trans (kind_structure dest))
        rw [copyFieldValue] at h
        cases hsrc : copyStructureValue copyUnchecked dest src with
        | error failure => rw [hsrc] at h; cases h
        | ok mid =>
            rw [hsrc] at h
            obtain ⟨sources, rfl⟩ := ih h
            exact ⟨src :: sources, rfl⟩
      · rw [copyFieldValue_of_ne hkind] at h
        cases h

/-- A structure is left just if all its fields are. -/
theorem foldlM_writeField_eq_self_iff {entries : List (String × PVField)}
    (hnodup : (fields.map Prod.fst).Nodup) :
    entries.foldlM (writeField copyUnchecked) fields = .ok fields ↔
      ∀ entry ∈ fields, (writtenTo entry.1 entries).foldlM (copyFieldValue copyUnchecked) entry.2 =
        .ok entry.2 := by
  constructor
  case mp =>
    intro h entry hmem
    have hlookup := lookup_of_mem hnodup hmem
    obtain ⟨value, hvalue, hafter⟩ := (foldlM_writeField h).2 entry.1 entry.2 hlookup
    rw [hvalue, Option.some.inj (hafter.symm.trans hlookup)]
  case mpr =>
    intro h
    obtain ⟨after, hafter⟩ : ∃ after,
        entries.foldlM (writeField copyUnchecked) fields = .ok after :=
      exists_foldlM_writeField fun name field hfield => ⟨field, h _ (mem_of_lookup hfield)⟩
    obtain ⟨hnames, hvalues⟩ := foldlM_writeField hafter
    rw [hafter]
    congr 1
    refine eq_of_lookup hnames hnodup fun name field hfield => ?_
    obtain ⟨value, hvalue, hlookup⟩ := hvalues name field hfield
    rw [hlookup, ← Except.ok.inj ((h _ (mem_of_lookup hfield)).symm.trans hvalue)]

mutual

theorem foldlM_eq_self_iff : (field : PVField) → field.WellFormed → (laters : List PVField) →
    (∀ later ∈ laters, later.WellFormed) →
    (laters.foldlM (copyFieldValue copyUnchecked) field = .ok field ↔
      Restored copyUnchecked field laters)
  | .structure fields, hwf, laters, hlaters => by
      have hall := allRestored_iff fields hwf.2
      rw [Restored]
      constructor
      case mp =>
        intro h
        obtain ⟨sources, rfl⟩ := exists_sources h
        rw [List.forall_mem_map] at hlaters
        rw [foldlM_copyFieldValue_structures fun src hmem => (hlaters src hmem).1.valid] at h
        refine ⟨sources, rfl, (hall _ ?_).mp ((foldlM_writeField_eq_self_iff hwf.1.nodup).mp ?_)⟩
        · intro entry hmem
          obtain ⟨src, hsrc, hentry⟩ := List.mem_flatten.mp hmem
          exact wellFormed_of_mem (hlaters src hsrc).2 hentry
        · cases hwrites : sources.flatten.foldlM (writeField copyUnchecked) fields with
          | error failure => rw [hwrites] at h; cases h
          | ok after =>
              rw [hwrites] at h
              rw [PVField.structure.inj (Except.ok.inj h)]
      case mpr =>
        rintro ⟨sources, rfl, hrestored⟩
        rw [List.forall_mem_map] at hlaters
        rw [foldlM_copyFieldValue_structures fun src hmem => (hlaters src hmem).1.valid]
        rw [(foldlM_writeField_eq_self_iff hwf.1.nodup).mpr ((hall _ ?_).mpr hrestored)]
        · rfl
        · intro entry hmem
          obtain ⟨src, hsrc, hentry⟩ := List.mem_flatten.mp hmem
          exact wellFormed_of_mem (hlaters src hsrc).2 hentry
  | .scalar _ _, _, _, _ | .scalarArray _ _, _, _, _ | .structureArray _ _, _, _, _
  | .union _ _, _, _, _ | .unionArray _ _, _, _, _ => by
      rw [Restored]
      · exact foldlM_copyFieldValue_of_kind (by simp [PVField.type, FieldType.kind])
      · exact nofun

theorem allRestored_iff : (fields : PVStructure) → PVField.AllWellFormed fields →
    (entries : List (String × PVField)) → (∀ entry ∈ entries, entry.2.WellFormed) →
    ((∀ entry ∈ fields, (writtenTo entry.1 entries).foldlM (copyFieldValue copyUnchecked) entry.2 =
      .ok entry.2) ↔ AllRestored copyUnchecked fields entries)
  | [], _, _, _ => by simp [AllRestored]
  | (name, field) :: rest, hwf, entries, hentries => by
      rw [List.forall_mem_cons, AllRestored, allRestored_iff rest hwf.2 entries hentries,
        foldlM_eq_self_iff field hwf.1 (writtenTo name entries)
          fun later hmem => hentries _ (mem_writtenTo.mp hmem)]

end

/-- Later fields with the same value leave it. -/
theorem restored_of_eq (hwf : field.WellFormed) {laters : List PVField}
    (h : ∀ later ∈ laters, later = field) : Restored copyUnchecked field laters := by
  refine (foldlM_eq_self_iff field hwf laters fun later hmem => h later hmem ▸ hwf).mp ?_
  induction laters with
  | nil => rfl
  | cons later rest ih =>
      obtain ⟨rfl, hrest⟩ := List.forall_mem_cons.mp h
      rw [List.foldlM_cons, copyFieldValue_same_type _ hwf _ rfl]
      exact ih hrest

end PVStructureMerger

end K2eg
