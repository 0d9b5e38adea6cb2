import K2eg.Model.PVData

/-! # The fields of a structure

What is found under a name in a structure that was made from its type, and in one that a field was
copied to. -/

namespace K2eg

variable {src : PVStructure} {name : String} {field : PVField}

/-! ## Names -/

theorem splitOn_of_not_mem (h : '.' ∉ name.toList) : name.toList.splitOn '.' = [name.toList] := by
  apply List.splitOnP_eq_singleton
  intro c hc
  rw [beq_eq_false_iff_ne]
  rintro rfl
  exact h hc

/-- The name of a field has neither dots nor blanks. -/
theorem namePath_of_valid (hname : validFieldName name = true) : namePath name = some [name] := by
  have hchars : name ≠ "" ∧ '.' ∉ name.toList ∧ ' ' ∉ name.toList := by
    rw [validFieldName] at hname
    cases hlist : name.toList with
    | nil => simp [hlist] at hname
    | cons first rest =>
        simp only [hlist, Bool.and_eq_true, Bool.or_eq_true, List.all_eq_true,
          decide_eq_true_eq] at hname
        refine ⟨?_, ?_, ?_⟩
        · rintro rfl
          simp at hlist
        · intro hdot
          rcases List.mem_cons.1 hdot with rfl | hmem
          · exact absurd hname.1 (by decide)
          · exact absurd (hname.2 _ hmem) (by decide)
        · intro hblank
          rcases List.mem_cons.1 hblank with rfl | hmem
          · exact absurd hname.1 (by decide)
          · exact absurd (hname.2 _ hmem) (by decide)
  obtain ⟨hne, hdot, hblank⟩ := hchars
  simp [namePath, splitOn_of_not_mem hdot, hne, hblank]

theorem getSubField_of_valid (hname : validFieldName name = true) :
    getSubField src name = src.lookup name := by
  rw [getSubField, namePath_of_valid hname]
  rfl

theorem lookup_isSome_iff {β : Type*} {entries : List (String × β)} {name : String} :
    (entries.lookup name).isSome ↔ name ∈ entries.map Prod.fst := by
  induction entries with
  | nil => simp
  | cons head rest ih =>
      rw [List.lookup_cons, List.map_cons, List.mem_cons]
      by_cases heq : name = head.1
      · simp [heq]
      · simp [heq, beq_eq_false_iff_ne.2 heq, ih]

/-! ## Fields that were made or copied -/

theorem lookup_copyTo_self (field : PVField) {fields : PVStructure}
    (h : (fields.lookup name).isSome) :
    (PVField.copyTo name field fields).lookup name = some field := by
  induction fields with
  | nil => simp at h
  | cons head rest ih =>
      rw [PVField.copyTo]
      by_cases heq : head.1 = name
      · rw [if_pos heq, List.lookup_cons, beq_self_eq_true]
      · have hne : (name == head.1) = false := beq_eq_false_iff_ne.2 (Ne.symm heq)
        rw [List.lookup_cons, hne] at h
        rw [if_neg heq, List.lookup_cons, hne]
        exact ih h

theorem lookup_copyTo_of_ne {fields : PVStructure} {other : String} (h : other ≠ name) :
    (PVField.copyTo name field fields).lookup other = fields.lookup other := by
  induction fields with
  | nil => rfl
  | cons head rest ih =>
      rw [PVField.copyTo]
      by_cases heq : head.1 = name
      · have hne : (other == name) = false := beq_eq_false_iff_ne.2 h
        rw [if_pos heq, List.lookup_cons, List.lookup_cons, heq, hne]
      · rw [if_neg heq, List.lookup_cons, List.lookup_cons, ih]

theorem lookup_createPVStructure (schema : Structure) (name : String) :
    (FieldType.createPVStructure schema).lookup name =
      (schema.lookup name).map FieldType.createPVField := by
  induction schema with
  | nil => rfl
  | cons head rest ih =>
      rw [FieldType.createPVStructure, List.lookup_cons, List.lookup_cons]
      cases name == head.1 with
      | true => rfl
      | false => exact ih

mutual

theorem createPVField_type : (type : FieldType) → type.createPVField.type = type
  | .scalar _ | .scalarArray _ | .structureArray _ | .union _ | .unionArray _ => by
      simp only [FieldType.createPVField, PVField.type]
  | .structure fields => by
      rw [FieldType.createPVField, PVField.type, createPVStructure_types fields]

theorem createPVStructure_types : (fields : List (String × FieldType)) →
    PVField.types (FieldType.createPVStructure fields) = fields
  | [] => rfl
  | (name, type) :: rest => by
      rw [FieldType.createPVStructure, PVField.types, createPVField_type type,
        createPVStructure_types rest]

end

end K2eg
