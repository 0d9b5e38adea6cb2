import K2eg.Verification.Structures.Builder

/-! # What a merged structure has

The first field of a name gives the type; the value is that of the first unless the later ones
leave another. -/

namespace K2eg.PVStructureMerger

open Introspection

variable {copyUnchecked : CopyUnchecked}

/-! ## The merged structure -/

/-- The structure has each requested field that exists once, in the order in which they are first
requested, with the type and the value of the first. -/
structure Merges (items : List PVStructureToMerge) (merged : MergedStructure) : Prop where
  names : merged.introspection.map Prod.fst = ((requested items).map Prod.fst).eraseDups
  introspection : ∀ name,
    merged.introspection.lookup name = ((requested items).lookup name).map Prod.fst
  fieldNames : merged.fields.map Prod.fst = merged.introspection.map Prod.fst
  value : ∀ name, merged.fields.lookup name = ((requested items).lookup name).map Prod.snd

/-- There is a structure to merge, the builder makes the type of the first field of each name again,
and the later fields of the name leave its value. -/
structure Mergeable (copyUnchecked : CopyUnchecked) (items : List PVStructureToMerge) : Prop where
  nonempty : items ≠ []
  plain : ∀ name first, (requested items).lookup name = some first → first.1.Plain
  restored : ∀ name first, (requested items).lookup name = some first →
    Restored copyUnchecked first.2 (laterValues items name)

theorem mergeStructureAndValue_eq_ok {items : List PVStructureToMerge} {merged : MergedStructure}
    (hnames : ImmediateNames items) (hne : items ≠ []) :
    mergeStructureAndValue copyUnchecked items = .ok (some merged) ↔
      ∃ builder, (requested items).foldlM addRequested {} = .ok builder ∧
        builder.fields = merged.introspection ∧
        (valuesOf (requested items)).foldlM (writeField copyUnchecked)
          (FieldType.createPVStructure (Introspection.types builder.fields)) =
            .ok merged.fields := by
  rw [mergeStructureAndValue.eq_def]
  split
  · exact absurd rfl hne
  · rw [addAllFields_eq hnames]
    simp only [copyAllFields_eq hnames]
    constructor
    case mp =>
      intro h
      obtain ⟨builder, hbuilder, h⟩ := Failure.bind_eq_ok.mp h
      obtain ⟨introspection, hintrospection, h⟩ := Failure.bind_eq_ok.mp h
      obtain ⟨fields, hfields, h⟩ := Failure.bind_eq_ok.mp h
      rw [(built_of_foldlM hbuilder).createStructure] at hintrospection
      cases hintrospection
      cases h
      exact ⟨builder, hbuilder, rfl, hfields⟩
    case mpr =>
      rintro ⟨builder, hbuilder, hintrospection, hfields⟩
      refine Failure.bind_eq_ok.mpr ⟨builder, hbuilder, ?_⟩
      refine Failure.bind_eq_ok.mpr
        ⟨builder.fields, (built_of_foldlM hbuilder).createStructure, ?_⟩
      refine Failure.bind_eq_ok.mpr ⟨merged.fields, hfields, ?_⟩
      rw [hintrospection]
      rfl

theorem lookup_valuesOf (entries : List (String × Introspection × PVField)) (name : String) :
    (valuesOf entries).lookup name = (entries.lookup name).map Prod.snd := by
  induction entries with
  | nil => rfl
  | cons head rest ih =>
      rw [valuesOf, List.map_cons, List.lookup_cons, List.lookup_cons]
      cases name == head.1 with
      | true => rfl
      | false => exact ih

/-- After the first field of a name its value is there, the later ones are copied to it. -/
theorem foldlM_requested {items : List PVStructureToMerge} {name : String}
    {first : Introspection × PVField} (hfirst : (requested items).lookup name = some first)
    {dest : PVField} (hdest : dest.type = first.1.type) :
    (writtenTo name (valuesOf (requested items))).foldlM (copyFieldValue copyUnchecked) dest =
      (laterValues items name).foldlM (copyFieldValue copyUnchecked) first.2 := by
  obtain ⟨-, htype, hwf⟩ := spec_of_mem_requested (mem_of_lookup hfirst)
  have hvalue : (valuesOf (requested items)).lookup name = some first.2 := by
    rw [lookup_valuesOf, hfirst]
    rfl
  rw [writtenTo_eq_cons hvalue, List.foldlM_cons,
    copyFieldValue_same_type first.2 hwf dest (hdest.trans htype.symm)]
  rfl

/-- The later values of a name leave the first just if they are restored. -/
theorem foldlM_laterValues_iff {items : List PVStructureToMerge} {name : String}
    {first : Introspection × PVField} (hfirst : (requested items).lookup name = some first) :
    (laterValues items name).foldlM (copyFieldValue copyUnchecked) first.2 = .ok first.2 ↔
      Restored copyUnchecked first.2 (laterValues items name) := by
  refine foldlM_eq_self_iff first.2 (spec_of_mem_requested (mem_of_lookup hfirst)).2.2 _ ?_
  intro later hlater
  obtain ⟨entry, hentry, heq⟩ := List.mem_map.mp (mem_writtenTo.mp (List.mem_of_mem_tail hlater))
  obtain ⟨-, rfl⟩ := Prod.mk.inj heq
  exact (spec_of_mem_requested hentry).2.2

theorem names_createPVStructure (schema : Structure) :
    (FieldType.createPVStructure schema).map Prod.fst = schema.map Prod.fst := by
  rw [← PVField.types_map_fst, createPVStructure_types]

theorem lookup_eq_none_of_names {β γ : Type*} {first : List (String × β)}
    {second : List (String × γ)}
    (h : ∀ name, name ∈ first.map Prod.fst → name ∈ second.map Prod.fst)
    {name : String} (hnone : second.lookup name = none) : first.lookup name = none := by
  rw [← Option.not_isSome_iff_eq_none, lookup_isSome_iff] at hnone ⊢
  exact fun hmem => hnone (h name hmem)

theorem requestedOf_sublist (source : IntrospectedStructure) (names : List String) :
    ((requestedOf source names).map Prod.fst).Sublist names := by
  induction names with
  | nil => exact .slnil
  | cons name rest ih =>
      rw [requestedOf, List.filterMap_cons]
      split
      · exact ih.cons name
      · rename_i entry hentry
        split at hentry
        · obtain rfl := Option.some.inj hentry
          exact ih.cons_cons name
        · cases hentry

theorem requested_sublist (items : List PVStructureToMerge) :
    ((requested items).map Prod.fst).Sublist (items.flatMap (·.fieldNames)) := by
  induction items with
  | nil => exact .slnil
  | cons item rest ih =>
      rw [requested, List.flatMap_cons, List.flatMap_cons, List.map_append]
      refine List.Sublist.append ?_ ih
      split
      · exact List.nil_sublist _
      · exact requestedOf_sublist _ _

/-- With no name requested twice, as for the two monitors of a CA channel, no value is written
over. -/
theorem mergeable_of_nodup {items : List PVStructureToMerge} (hne : items ≠ [])
    (hplain : ∀ name first, (requested items).lookup name = some first → first.1.Plain)
    (hnodup : (items.flatMap (·.fieldNames)).Nodup) : Mergeable copyUnchecked items := by
  refine ⟨hne, hplain, fun name first hfirst => ?_⟩
  have hvalues : ((valuesOf (requested items)).map Prod.fst).Nodup := by
    rw [valuesOf, List.map_map]
    exact (requested_sublist items).nodup hnodup
  have hlookup : (valuesOf (requested items)).lookup name = some first.2 := by
    rw [lookup_valuesOf, hfirst]
    rfl
  rw [laterValues, writtenTo_of_lookup hvalues hlookup]
  exact restored_of_eq (spec_of_mem_requested (mem_of_lookup hfirst)).2.2
    fun _ hlater => absurd hlater List.not_mem_nil

/-- The field of a name as the second pass finds it. -/
theorem lookup_dest {fields : List (String × Introspection)} {name : String}
    {introspection : Introspection} (h : fields.lookup name = some introspection) :
    (FieldType.createPVStructure (Introspection.types fields)).lookup name =
      some introspection.type.createPVField := by
  rw [lookup_createPVStructure, lookup_introspection_types, h]
  rfl

theorem mergeable_of_merges {items : List PVStructureToMerge} {merged : MergedStructure}
    (hnames : ImmediateNames items)
    (hmerge : mergeStructureAndValue copyUnchecked items = .ok (some merged))
    (hmerges : Merges items merged) : Mergeable copyUnchecked items := by
  have hne : items ≠ [] := by
    rintro rfl
    cases hmerge
  obtain ⟨builder, hbuilder, hintrospection, hfields⟩ :=
    (mergeStructureAndValue_eq_ok hnames hne).mp hmerge
  have hlookup : ∀ name first, (requested items).lookup name = some first →
      builder.fields.lookup name = some first.1 := by
    intro name first hfirst
    rw [hintrospection, hmerges.introspection, hfirst]
    rfl
  refine ⟨hne, fun name first hfirst => ?_, fun name first hfirst => ?_⟩
  · obtain ⟨copied, hcopied, hbuilt⟩ := (built_of_foldlM hbuilder).field name first hfirst
    obtain rfl := Option.some.inj (hbuilt.symm.trans (hlookup name first hfirst))
    exact (copyDefinition_eq_self_iff _).mp hcopied
  · obtain ⟨value, hvalue, hafter⟩ :=
      (foldlM_writeField hfields).2 name _ (lookup_dest (hlookup name first hfirst))
    rw [hmerges.value, hfirst, Option.map_some] at hafter
    rw [foldlM_requested hfirst (createPVField_type _), ← Option.some.inj hafter] at hvalue
    exact (foldlM_laterValues_iff hfirst).mp hvalue

/-- Where the first fields are made again, the builder has exactly their types. -/
theorem Built.lookup_eq {past : List (String × Introspection × PVField)} {builder : Builder}
    (h : Built past builder)
    (hplain : ∀ name first, past.lookup name = some first → first.1.Plain) (name : String) :
    builder.fields.lookup name = (past.lookup name).map Prod.fst := by
  cases hfirst : past.lookup name with
  | none =>
      refine lookup_eq_none_of_names (fun name hmem => ?_) hfirst
      rwa [h.names, List.mem_eraseDups] at hmem
  | some first =>
      obtain ⟨copied, hcopied, hlookup⟩ := h.field name first hfirst
      have hself := (copyDefinition_eq_self_iff _).mpr (hplain name first hfirst)
      rw [hlookup, Except.ok.inj (hcopied.symm.trans hself)]
      rfl

theorem merges_of_mergeable {items : List PVStructureToMerge} (hnames : ImmediateNames items)
    (h : Mergeable copyUnchecked items) :
    ∃ merged, mergeStructureAndValue copyUnchecked items = .ok (some merged) ∧
      Merges items merged := by
  obtain ⟨builder, hbuilder⟩ := exists_builder fun name first hfirst =>
    ⟨first.1, (copyDefinition_eq_self_iff _).mpr (h.plain name first hfirst)⟩
  have hbuilt := built_of_foldlM hbuilder
  have hlookup := hbuilt.lookup_eq h.plain
  have hchain : ∀ name destField,
      (FieldType.createPVStructure (Introspection.types builder.fields)).lookup name =
        some destField → ∃ first, (requested items).lookup name = some first ∧
          (writtenTo name (valuesOf (requested items))).foldlM (copyFieldValue copyUnchecked)
            destField = .ok first.2 := by
    intro name destField hdest
    cases hfirst : (requested items).lookup name with
    | none =>
        rw [lookup_createPVStructure, lookup_introspection_types, hlookup, hfirst] at hdest
        cases hdest
    | some first =>
        rw [lookup_dest ((hlookup name).trans (congrArg (Option.map Prod.fst) hfirst))] at hdest
        obtain rfl := Option.some.inj hdest
        rw [foldlM_requested hfirst (createPVField_type _)]
        exact ⟨first, rfl, (foldlM_laterValues_iff hfirst).mpr (h.restored name first hfirst)⟩
  obtain ⟨fields, hfields⟩ := exists_foldlM_writeField fun name destField hdest =>
    let ⟨first, _, hchained⟩ := hchain name destField hdest
    ⟨first.2, hchained⟩
  obtain ⟨hfieldNames, hvalues⟩ := foldlM_writeField hfields
  rw [names_createPVStructure, introspection_types_map_fst] at hfieldNames
  refine ⟨⟨builder.fields, fields⟩,
    (mergeStructureAndValue_eq_ok hnames h.nonempty).mpr ⟨builder, hbuilder, rfl, hfields⟩,
    hbuilt.names, hlookup, hfieldNames, fun name => ?_⟩
  cases hfirst : (requested items).lookup name with
  | none =>
      refine lookup_eq_none_of_names (fun name hmem => ?_) hfirst
      rwa [hfieldNames, hbuilt.names, List.mem_eraseDups] at hmem
  | some first =>
      have hdest := lookup_dest ((hlookup name).trans (congrArg (Option.map Prod.fst) hfirst))
      obtain ⟨value, hvalue, hafter⟩ := hvalues name _ hdest
      obtain ⟨first', hfirst', hchained⟩ := hchain name _ hdest
      obtain rfl := Option.some.inj (hfirst.symm.trans hfirst')
      rw [hafter, Except.ok.inj (hvalue.symm.trans hchained)]
      rfl

/-- The merger gives a structure with exactly the requested fields, just where the structures can be
merged. -/
theorem merges_iff (copyUnchecked : CopyUnchecked) {items : List PVStructureToMerge}
    (hnames : ImmediateNames items) :
    (∃ merged, mergeStructureAndValue copyUnchecked items = .ok (some merged) ∧
      Merges items merged) ↔ Mergeable copyUnchecked items :=
  ⟨fun ⟨_, hmerge, hmerges⟩ => mergeable_of_merges hnames hmerge hmerges,
    merges_of_mergeable hnames⟩

/-- A client library that converts no scalars; arrays and unions take what the source holds. -/
private def copyHeld : CopyUnchecked where
  copy
    | .scalar type _, .scalar srcType value =>
      if h : srcType = type then .ok (.scalar type (h ▸ value)) else .error .thrown
    | .scalarArray type _, .scalarArray srcType values =>
      if h : srcType = type then .ok (.scalarArray type (h ▸ values)) else .error .thrown
    | .structureArray type _, .structureArray _ elements => .ok (.structureArray type elements)
    | .union members _, .union _ selected => .ok (.union members selected)
    | .unionArray members _, .unionArray _ elements => .ok (.unionArray members elements)
    | _, _ => .error .thrown
  keeps_type := by
    intro dest src after h
    split at h
    all_goals try split at h
    all_goals cases h
    all_goals simp [PVField.type]
  same_type := by
    intro dest src hkind htype _
    cases src
    all_goals cases dest
    all_goals simp_all [PVField.type, FieldType.kind]

private theorem validNames_value : ValidNames ["value"] :=
  ⟨by decide +kernel, by decide, by decide⟩

private theorem validNames_display : ValidNames ["display", "value"] :=
  ⟨by decide +kernel, by decide, by decide⟩

private def valueSource (value : Int32) : IntrospectedStructure where
  introspection := [("value", .scalar .pvInt none)]
  fields := [("value", .scalar .pvInt value)]
  types_eq := rfl
  wellFormed := ⟨validNames_value, trivial, trivial⟩

private def displaySource (display : String) (value : Int32) : IntrospectedStructure where
  introspection := [("display", .scalar .pvString none), ("value", .scalar .pvInt none)]
  fields := [("display", .scalar .pvString display), ("value", .scalar .pvInt value)]
  types_eq := rfl
  wellFormed := ⟨validNames_display, trivial, trivial, trivial⟩

/-- A principal structure that has no "alarm", and an additional one of the same value. -/
private def principalAndDisplay (additional : Int32) : List PVStructureToMerge :=
  [⟨some (valueSource 3), ["value", "alarm"]⟩,
    ⟨some (displaySource "mm" additional), ["display", "value"]⟩]

private theorem immediateNames_principalAndDisplay (additional : Int32) :
    ImmediateNames (principalAndDisplay additional) := by
  intro item hitem
  simp only [principalAndDisplay, List.mem_cons, List.not_mem_nil, or_false] at hitem
  have hnames : ∀ name ∈ ["value", "alarm", "display"], '.' ∉ name.toList := by decide +kernel
  rcases hitem with rfl | rfl
  · exact fun name hname => hnames name (by simp at hname ⊢; tauto)
  · exact fun name hname => hnames name (by simp at hname ⊢; tauto)

private theorem requested_principalAndDisplay (additional : Int32) :
    requested (principalAndDisplay additional) =
      [("value", .scalar .pvInt none, .scalar .pvInt (3 : Int32)),
        ("display", .scalar .pvString none, .scalar .pvString "mm"),
        ("value", .scalar .pvInt none, .scalar .pvInt additional)] := rfl

/-- The value that both structures have is written twice. -/
theorem merges_iff_display :
    ∃ merged, mergeStructureAndValue copyHeld (principalAndDisplay 3) = .ok (some merged) ∧
      Merges (principalAndDisplay 3) merged := by
  refine (merges_iff copyHeld (immediateNames_principalAndDisplay 3)).mpr
    ⟨List.cons_ne_nil _ _, fun name first hfirst => ?_, fun name first hfirst => ?_⟩
  · rw [requested_principalAndDisplay] at hfirst
    have hmem := mem_of_lookup hfirst
    simp only [List.mem_cons, List.not_mem_nil, or_false, Prod.mk.injEq] at hmem
    rcases hmem with ⟨-, rfl⟩ | ⟨-, rfl⟩ | ⟨-, rfl⟩ <;> simp [Plain]
  · have hmem := mem_of_lookup hfirst
    have hwf := (spec_of_mem_requested hmem).2.2
    rw [requested_principalAndDisplay] at hmem
    simp only [List.mem_cons, List.not_mem_nil, or_false, Prod.mk.injEq] at hmem
    have hlater : laterValues (principalAndDisplay 3) "value" = [.scalar .pvInt (3 : Int32)] := rfl
    rcases hmem with ⟨rfl, rfl⟩ | ⟨rfl, rfl⟩ | ⟨rfl, rfl⟩
    · exact restored_of_eq hwf (hlater ▸ fun _ => List.mem_singleton.mp)
    · exact restored_of_eq hwf fun _ hmem => absurd hmem List.not_mem_nil
    · exact restored_of_eq hwf (hlater ▸ fun _ => List.mem_singleton.mp)

/-- The additional structure has another value, and the merged one takes it. -/
theorem not_merges_overlap :
    ¬ ∀ items : List PVStructureToMerge, ImmediateNames items →
      ∃ merged, mergeStructureAndValue copyHeld items = .ok (some merged) ∧
        Merges items merged := by
  intro hall
  have hnames := immediateNames_principalAndDisplay 4
  obtain ⟨merged, hmerge, hmerges⟩ := hall _ hnames
  have hmergeable := mergeable_of_merges hnames hmerge hmerges
  have hrestored := hmergeable.restored "value"
    (.scalar .pvInt none, .scalar .pvInt (3 : Int32)) rfl
  rw [Restored] at hrestored
  · have hvalue := Except.ok.inj hrestored.2
    cases hvalue
  · exact nofun

end K2eg.PVStructureMerger
