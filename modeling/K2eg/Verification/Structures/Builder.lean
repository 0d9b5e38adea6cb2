import K2eg.Verification.Structures.Copying
import Mathlib.Data.List.Induction
import Mathlib.Data.List.Nodup

/-! # The passes of the merger

Both passes go over the requested fields that the structures have. The builder of the first pass
takes the first field of each name. -/

namespace K2eg

/-! ## Types that the builder makes again -/

namespace Introspection

def isUnion : Introspection → Bool
  | .union _ _ | .unionArray _ _ => true
  | _ => false

mutual

/-- The builder has no IDs and no bounds for a field, and no union for a member of a union. -/
def Plain : Introspection → Prop
  | .scalar _ maxLength => maxLength = none
  | .scalarArray _ size => size = .variable
  | .structure id fields | .structureArray id fields =>
    id = PVStructureMerger.structureId ∧ AllPlain fields
  | .union id members | .unionArray id members =>
    id = PVStructureMerger.unionId members ∧ AllPlainMembers members

def AllPlain : List (String × Introspection) → Prop
  | [] => True
  | (_, field) :: rest => Plain field ∧ AllPlain rest

def AllPlainMembers : List (String × Introspection) → Prop
  | [] => True
  | (_, member) :: rest => (member.isUnion = false ∧ Plain member) ∧ AllPlainMembers rest

end

end Introspection

namespace PVStructureMerger

open Introspection

theorem map_eq_ok {α β : Type*} {f : α → β} {result : Except Failure α} {value : β} :
    result.map f = .ok value ↔ ∃ inner, result = .ok inner ∧ f inner = value := by
  cases result <;> simp [Except.map]

/-- Of a member of a union the builder makes what it makes of a field, unless it is a union. -/
theorem copyMemberDefinition_eq_ok {member copied : Introspection} :
    copyMemberDefinition member = .ok copied ↔
      member.isUnion = false ∧ copyDefinition member = .ok copied := by
  cases member <;> simp [copyMemberDefinition, copyDefinition, isUnion]

/-- A list is copied as it is where its head and its tail are. -/
theorem bind_cons_eq_ok {head : Except Failure Introspection}
    {tail : Except Failure (List (String × Introspection))} {name : String} {field : Introspection}
    {rest : List (String × Introspection)} :
    (do let copied ← head; let others ← tail; return (name, copied) :: others) =
      (.ok ((name, field) :: rest) : Except Failure _) ↔ head = .ok field ∧ tail = .ok rest := by
  cases head with
  | error failure => exact ⟨nofun, fun h => nomatch h.1⟩
  | ok copied =>
      cases tail with
      | error failure => exact ⟨nofun, fun h => nomatch h.2⟩
      | ok others =>
          constructor
          · intro h
            cases h
            exact ⟨rfl, rfl⟩
          · rintro ⟨h, h'⟩
            cases h
            cases h'
            rfl

mutual

theorem copyDefinition_eq_self_iff : (field : Introspection) →
    (copyDefinition field = .ok field ↔ field.Plain)
  | .scalar _ _ | .scalarArray _ _ => by
      simp [copyDefinition, Plain, eq_comm]
  | .structure id fields | .structureArray id fields => by
      rw [copyDefinition, Plain, map_eq_ok, ← copyStructureDefinition_eq_self_iff fields]
      constructor
      · rintro ⟨_, hcopied, heq⟩
        cases heq
        exact ⟨rfl, hcopied⟩
      · rintro ⟨rfl, hcopied⟩
        exact ⟨fields, hcopied, rfl⟩
  | .union id members | .unionArray id members => by
      rw [copyDefinition, Plain, map_eq_ok, ← copyUnionDefinition_eq_self_iff members]
      constructor
      · rintro ⟨_, hcopied, heq⟩
        cases heq
        exact ⟨rfl, hcopied⟩
      · rintro ⟨rfl, hcopied⟩
        exact ⟨members, hcopied, rfl⟩

theorem copyStructureDefinition_eq_self_iff : (fields : List (String × Introspection)) →
    (copyStructureDefinition fields = .ok fields ↔ AllPlain fields)
  | [] => by simp [copyStructureDefinition, AllPlain]
  | (name, field) :: rest => by
      rw [copyStructureDefinition, AllPlain, ← copyDefinition_eq_self_iff field,
        ← copyStructureDefinition_eq_self_iff rest]
      exact bind_cons_eq_ok

theorem copyUnionDefinition_eq_self_iff : (members : List (String × Introspection)) →
    (copyUnionDefinition members = .ok members ↔ AllPlainMembers members)
  | [] => by simp [copyUnionDefinition, AllPlainMembers]
  | (name, member) :: rest => by
      rw [copyUnionDefinition, AllPlainMembers, ← copyDefinition_eq_self_iff member,
        ← copyUnionDefinition_eq_self_iff rest, ← copyMemberDefinition_eq_ok]
      exact bind_cons_eq_ok

end

/-! ## The requested fields -/

/-- The fields that are requested of a structure and that it has. -/
def requestedOf (source : IntrospectedStructure) (fieldNames : List String) :
    List (String × Introspection × PVField) :=
  fieldNames.filterMap fun name =>
    match source.introspection.lookup name, source.fields.lookup name with
    | some introspection, some field => some (name, introspection, field)
    | _, _ => none

/-- The fields that are requested of the structures and that these have, in order. -/
def requested (items : List PVStructureToMerge) : List (String × Introspection × PVField) :=
  items.flatMap fun item =>
    match item.structurePtr with
    | none => []
    | some source => requestedOf source item.fieldNames

/-- The values of the requested fields. -/
def valuesOf (entries : List (String × Introspection × PVField)) : List (String × PVField) :=
  entries.map fun entry => (entry.1, entry.2.2)

/-- The values of the requested fields of this name after the first. -/
def laterValues (items : List PVStructureToMerge) (name : String) : List PVField :=
  (writtenTo name (valuesOf (requested items))).tail

/-- No requested name has a dot. -/
def ImmediateNames (items : List PVStructureToMerge) : Prop :=
  ∀ item ∈ items, ∀ name ∈ item.fieldNames, '.' ∉ name.toList

theorem namePath_of_immediate {name : String} (h : '.' ∉ name.toList) :
    namePath name = none ∨ namePath name = some [name] := by
  rw [namePath, splitOn_of_not_mem h, List.map_singleton, String.ofList_toList]
  split
  · exact .inr rfl
  · exact .inl rfl

theorem lookup_introspection_types (fields : List (String × Introspection)) (name : String) :
    (Introspection.types fields).lookup name = (fields.lookup name).map Introspection.type := by
  induction fields with
  | nil => rfl
  | cons head rest ih =>
      rw [Introspection.types, List.lookup_cons, List.lookup_cons]
      cases name == head.1 with
      | true => rfl
      | false => exact ih

theorem introspection_types_map_fst (fields : List (String × Introspection)) :
    (Introspection.types fields).map Prod.fst = fields.map Prod.fst := by
  induction fields with
  | nil => rfl
  | cons head rest ih => rw [Introspection.types, List.map_cons, List.map_cons, ih]

section Source

variable (source : IntrospectedStructure) {name : String}

/-- The introspection has what the structure has. -/
theorem map_lookup_eq (name : String) :
    (source.introspection.lookup name).map Introspection.type =
      (source.fields.lookup name).map PVField.type := by
  rw [← lookup_introspection_types, ← lookup_types, source.types_eq]

theorem validFieldName_of_lookup {field : PVField}
    (h : source.fields.lookup name = some field) : validFieldName name = true :=
  source.wellFormed.1.valid name (lookup_isSome_iff.mp (h ▸ rfl))

theorem getSubField_of_immediate (h : '.' ∉ name.toList) :
    getSubField source.fields name = source.fields.lookup name := by
  cases hlookup : source.fields.lookup name with
  | some field => rw [getSubField_of_valid (validFieldName_of_lookup source hlookup), hlookup]
  | none =>
      rw [getSubField]
      rcases namePath_of_immediate h with hpath | hpath
      · rw [hpath]
        rfl
      · rw [hpath]
        exact hlookup

theorem getSubField_introspection_of_immediate (h : '.' ∉ name.toList) :
    Introspection.getSubField source.introspection name = source.introspection.lookup name := by
  rw [Introspection.getSubField]
  rcases namePath_of_immediate h with hpath | hpath
  · have hnone : source.fields.lookup name = none := by
      rw [← getSubField_of_immediate source h, getSubField, hpath]
      rfl
    have hmap := map_lookup_eq source name
    rw [hnone, Option.map_none, Option.map_eq_none_iff] at hmap
    rw [hpath, hmap]
    rfl
  · rw [hpath]
    rfl

end Source

/-- A requested field is of its type, and its name is the name of a field. -/
theorem spec_of_mem_requested {items : List PVStructureToMerge}
    {entry : String × Introspection × PVField} (h : entry ∈ requested items) :
    validFieldName entry.1 = true ∧ entry.2.2.type = entry.2.1.type ∧ entry.2.2.WellFormed := by
  obtain ⟨item, -, hentry⟩ := List.mem_flatMap.mp h
  split at hentry
  · cases hentry
  · rename_i source hsource
    obtain ⟨name, -, hname⟩ := List.mem_filterMap.mp hentry
    split at hname
    · rename_i introspection field hintrospection hfield
      obtain rfl := Option.some.inj hname
      have hmap := map_lookup_eq source name
      rw [hintrospection, hfield] at hmap
      exact ⟨validFieldName_of_lookup source hfield, (Option.some.inj hmap).symm,
        wellFormed_of_mem source.wellFormed.2 (mem_of_lookup hfield)⟩
    · cases hname

/-! ## The passes -/

/-- What the first pass does with a requested field. -/
def addRequested (builder : Builder) (entry : String × Introspection × PVField) :
    Except Failure Builder :=
  if builder.addedFields.contains entry.1 then .ok builder
  else addFieldToBuilder builder entry.1 entry.2.1

theorem addFields_eq (source : IntrospectedStructure) {names : List String}
    (hnames : ∀ name ∈ names, '.' ∉ name.toList) (builder : Builder) :
    addFields source names builder = (requestedOf source names).foldlM addRequested builder := by
  induction names generalizing builder with
  | nil => rfl
  | cons name rest ih =>
      obtain ⟨hname, hrest⟩ := List.forall_mem_cons.mp hnames
      have hmap := map_lookup_eq source name
      rw [addFields, getSubField_introspection_of_immediate source hname, requestedOf,
        List.filterMap_cons]
      cases hintrospection : source.introspection.lookup name with
      | none =>
          simp only [ite_self]
          exact ih hrest builder
      | some introspection =>
          rw [hintrospection, Option.map_some] at hmap
          obtain ⟨field, hfield, -⟩ := Option.map_eq_some_iff.mp hmap.symm
          simp only [hfield, List.foldlM_cons, addRequested]
          split
          · exact ih hrest builder
          · cases addFieldToBuilder builder name introspection with
            | error failure => rfl
            | ok builder' => exact ih hrest builder'

theorem addAllFields_eq {items : List PVStructureToMerge} (hnames : ImmediateNames items)
    (builder : Builder) :
    addAllFields items builder = (requested items).foldlM addRequested builder := by
  induction items generalizing builder with
  | nil => rfl
  | cons item rest ih =>
      obtain ⟨hitem, hrest⟩ := List.forall_mem_cons.mp hnames
      rw [addAllFields, requested, List.flatMap_cons, List.foldlM_append]
      cases item.structurePtr with
      | none => exact ih hrest builder
      | some source =>
          simp only [addFields_eq source hitem]
          cases (requestedOf source item.fieldNames).foldlM addRequested builder with
          | error failure => rfl
          | ok builder' => exact ih hrest builder'

variable {copyUnchecked : CopyUnchecked}

theorem copyFields_eq (source : IntrospectedStructure) {names : List String}
    (hnames : ∀ name ∈ names, '.' ∉ name.toList) (dest : PVStructure) :
    copyFields copyUnchecked source names dest =
      (valuesOf (requestedOf source names)).foldlM (writeField copyUnchecked) dest := by
  induction names generalizing dest with
  | nil => rfl
  | cons name rest ih =>
      obtain ⟨hname, hrest⟩ := List.forall_mem_cons.mp hnames
      have hmap := map_lookup_eq source name
      rw [copyFields, getSubField_of_immediate source hname, requestedOf, List.filterMap_cons]
      cases hfield : source.fields.lookup name with
      | none =>
          rw [hfield, Option.map_none, Option.map_eq_none_iff] at hmap
          simp only [hmap]
          exact ih hrest dest
      | some field =>
          rw [hfield, Option.map_some] at hmap
          obtain ⟨introspection, hintrospection, -⟩ := Option.map_eq_some_iff.mp hmap
          rw [getSubField_of_valid (validFieldName_of_lookup source hfield)]
          simp only [hintrospection, valuesOf, List.map_cons, List.foldlM_cons, writeField]
          cases dest.lookup name with
          | none => exact ih hrest dest
          | some destField =>
              simp only
              cases copyFieldValue copyUnchecked destField field with
              | error failure => rfl
              | ok copied => exact ih hrest _

theorem copyAllFields_eq {items : List PVStructureToMerge} (hnames : ImmediateNames items)
    (dest : PVStructure) : copyAllFields copyUnchecked items dest =
      (valuesOf (requested items)).foldlM (writeField copyUnchecked) dest := by
  induction items generalizing dest with
  | nil => rfl
  | cons item rest ih =>
      obtain ⟨hitem, hrest⟩ := List.forall_mem_cons.mp hnames
      rw [copyAllFields, requested, List.flatMap_cons, valuesOf, List.map_append,
        List.foldlM_append]
      cases item.structurePtr with
      | none => exact ih hrest dest
      | some source =>
          simp only [copyFields_eq source hitem]
          rw [valuesOf]
          cases ((requestedOf source item.fieldNames).map fun entry =>
              (entry.1, entry.2.2)).foldlM (writeField copyUnchecked) dest with
          | error failure => rfl
          | ok dest' => exact ih hrest dest'

/-! ## The first pass -/

/-- The builder has a copy of the first field of each name. -/
structure Built (past : List (String × Introspection × PVField)) (builder : Builder) : Prop where
  added : ∀ name, name ∈ builder.addedFields ↔ name ∈ past.map Prod.fst
  names : builder.fields.map Prod.fst = (past.map Prod.fst).eraseDups
  nodup : (builder.fields.map Prod.fst).Nodup
  field : ∀ name first, past.lookup name = some first →
    ∃ copied, copyDefinition first.1 = .ok copied ∧ builder.fields.lookup name = some copied

theorem eraseDups_concat (names : List String) (name : String) : (names ++ [name]).eraseDups =
    if name ∈ names then names.eraseDups else names.eraseDups ++ [name] := by
  rw [List.eraseDups_append]
  by_cases h : name ∈ names
  · simp [h, List.removeAll]
  · simp [h, List.removeAll, List.eraseDups_cons]

theorem lookup_concat_of_mem {β : Type*} {past : List (String × β)} {entry : String × β}
    (h : entry.1 ∈ past.map Prod.fst) (name : String) :
    (past ++ [entry]).lookup name = past.lookup name := by
  rw [List.lookup_append]
  by_cases heq : name = entry.1
  · subst heq
    rw [Option.or_of_isSome (lookup_isSome_iff.mpr h)]
  · rw [List.lookup_cons, beq_eq_false_iff_ne.mpr heq, List.lookup_nil, Option.or_none]

theorem lookup_concat_of_not_mem {β : Type*} {past : List (String × β)} {entry : String × β}
    (h : entry.1 ∉ past.map Prod.fst) (name : String) :
    (past ++ [entry]).lookup name = if name = entry.1 then some entry.2 else past.lookup name := by
  rw [List.lookup_append, List.lookup_cons]
  by_cases heq : name = entry.1
  · subst heq
    have hnone : past.lookup entry.1 = none := by
      rw [← Option.not_isSome_iff_eq_none, lookup_isSome_iff]
      exact h
    simp [hnone]
  · simp [heq, beq_eq_false_iff_ne.mpr heq]

theorem Built.concat {past : List (String × Introspection × PVField)} {builder after : Builder}
    (h : Built past builder) {entry : String × Introspection × PVField}
    (hadd : addRequested builder entry = .ok after) : Built (past ++ [entry]) after := by
  rw [addRequested] at hadd
  by_cases hmem : entry.1 ∈ past.map Prod.fst
  · rw [List.contains_iff_mem.mpr ((h.added _).mpr hmem), if_pos rfl] at hadd
    obtain rfl := Except.ok.inj hadd
    refine ⟨fun name => ?_, ?_, h.nodup, fun name first hfirst => ?_⟩
    · rw [h.added, List.map_append, List.mem_append, List.map_singleton, List.mem_singleton]
      exact ⟨.inl, fun hor => hor.elim id fun heq => heq ▸ hmem⟩
    · rw [h.names, List.map_append, List.map_singleton, eraseDups_concat, if_pos hmem]
    · rw [lookup_concat_of_mem hmem] at hfirst
      exact h.field name first hfirst
  · have hfresh : entry.1 ∉ builder.fields.map Prod.fst := by
      rwa [h.names, List.mem_eraseDups]
    have hnot : ¬ builder.addedFields.contains entry.1 = true := by
      rwa [List.contains_iff_mem, h.added]
    rw [if_neg hnot, addFieldToBuilder] at hadd
    obtain ⟨copied, hcopied, hadd⟩ := Failure.bind_eq_ok.mp hadd
    obtain rfl := Except.ok.inj hadd
    refine ⟨fun name => ?_, ?_, ?_, fun name first hfirst => ?_⟩
    · rw [List.mem_cons, h.added, List.map_append, List.mem_append, List.map_singleton,
        List.mem_singleton]
      exact or_comm
    · rw [List.map_append, h.names, List.map_append, List.map_singleton, List.map_singleton,
        eraseDups_concat, if_neg hmem]
    · rw [List.map_append, List.map_singleton, ← List.concat_eq_append]
      exact h.nodup.concat hfresh
    · rw [lookup_concat_of_not_mem hmem] at hfirst
      rw [lookup_concat_of_not_mem hfresh]
      by_cases heq : name = entry.1
      · rw [if_pos heq] at hfirst ⊢
        obtain rfl := Option.some.inj hfirst
        exact ⟨copied, hcopied, rfl⟩
      · rw [if_neg heq] at hfirst ⊢
        exact h.field name first hfirst

theorem built_of_foldlM {past : List (String × Introspection × PVField)} {builder : Builder}
    (h : past.foldlM addRequested {} = .ok builder) : Built past builder := by
  induction past using List.reverseRecOn generalizing builder with
  | nil =>
      obtain rfl := Except.ok.inj h
      exact ⟨fun _ => Iff.rfl, rfl, List.nodup_nil, nofun⟩
  | append_singleton past entry ih =>
      rw [List.foldlM_append] at h
      obtain ⟨before, hbefore, hadd⟩ := Failure.bind_eq_ok.mp h
      rw [List.foldlM_cons] at hadd
      obtain ⟨after, hafter, hnil⟩ := Failure.bind_eq_ok.mp hadd
      obtain rfl := Except.ok.inj hnil
      exact (ih hbefore).concat hafter

/-- The first pass goes through where the first field of each name can be copied. -/
theorem exists_builder {past : List (String × Introspection × PVField)}
    (h : ∀ name first, past.lookup name = some first →
      ∃ copied, copyDefinition first.1 = .ok copied) :
    ∃ builder, past.foldlM addRequested {} = .ok builder := by
  induction past using List.reverseRecOn with
  | nil => exact ⟨{}, rfl⟩
  | append_singleton past entry ih =>
      have hpast : ∀ name first, past.lookup name = some first →
          ∃ copied, copyDefinition first.1 = .ok copied := by
        intro name first hfirst
        refine h name first ?_
        rw [List.lookup_append, hfirst]
        rfl
      obtain ⟨builder, hbuilder⟩ := ih hpast
      have hbuilt := built_of_foldlM hbuilder
      have hadd : ∃ after, addRequested builder entry = .ok after := by
        rw [addRequested]
        by_cases hmem : entry.1 ∈ past.map Prod.fst
        · exact ⟨builder, by rw [List.contains_iff_mem.mpr ((hbuilt.added _).mpr hmem), if_pos rfl]⟩
        · have hnot : ¬ builder.addedFields.contains entry.1 = true := by
            rwa [List.contains_iff_mem, hbuilt.added]
          obtain ⟨copied, hcopied⟩ := h entry.1 entry.2 (by
            rw [lookup_concat_of_not_mem hmem, if_pos rfl])
          rw [if_neg hnot, addFieldToBuilder, hcopied]
          exact ⟨_, rfl⟩
      obtain ⟨after, hafter⟩ := hadd
      refine ⟨after, ?_⟩
      rw [List.foldlM_append, hbuilder]
      change List.foldlM addRequested builder [entry] = _
      rw [List.foldlM_cons, hafter]
      rfl

theorem Built.createStructure {items : List PVStructureToMerge} {builder : Builder}
    (h : Built (requested items) builder) : builder.createStructure = .ok builder.fields := by
  rw [Builder.createStructure, if_pos]
  refine ⟨List.all_eq_true.mpr fun field hmem => ?_, h.nodup⟩
  have hname := List.mem_map_of_mem (f := Prod.fst) hmem
  rw [h.names, List.mem_eraseDups] at hname
  obtain ⟨entry, hentry, heq⟩ := List.mem_map.mp hname
  rw [← heq]
  exact (spec_of_mem_requested hentry).1

end PVStructureMerger

end K2eg
