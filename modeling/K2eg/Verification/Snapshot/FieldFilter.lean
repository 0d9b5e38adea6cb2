import K2eg.Model.BackTimedSnapshot
import K2eg.Verification.Structures.Fields

/-! # When the field filter returns

`filterPVField` throws unless every requested field is a field of the structure itself: it asks
with `getSubFieldT`, and a name with dots is no name of a field of the structure that it makes. -/

namespace K2eg

variable {src : PVStructure} {name : String} {fields : List String}

/-- The structure of the event, if there is one, has the fields. -/
def hasFields (fields : List String) (event : MonitorEvent PVStructure) : Bool :=
  match event.channelData.data with
  | none => true
  | some src => fields.all fun name => validFieldName name && (src.lookup name).isSome

theorem getSubFieldT_eq_ok {field : PVField} :
    getSubFieldT src name = .ok field ↔ getSubField src name = some field := by
  rw [getSubFieldT]
  cases getSubField src name with
  | none => simp
  | some other => simp

/-- The fields that are added have the requested names. -/
theorem addFields_eq_ok {added : Structure} (h : addFields src fields = .ok added) :
    added.map Prod.fst = fields ∧ ∀ name ∈ fields, (getSubField src name).isSome := by
  induction fields generalizing added with
  | nil =>
      obtain rfl := Except.ok.inj h
      exact ⟨rfl, by simp⟩
  | cons name rest ih =>
      obtain ⟨field, hfield, h⟩ := Failure.bind_eq_ok.1 h
      obtain ⟨others, hothers, h⟩ := Failure.bind_eq_ok.1 h
      obtain rfl := Except.ok.inj h
      obtain ⟨hnames, hsome⟩ := ih hothers
      refine ⟨by rw [List.map_cons, hnames], ?_⟩
      rintro other (_ | ⟨_, hother⟩)
      · rw [getSubFieldT_eq_ok.1 hfield]
        rfl
      · exact hsome other hother

theorem addFields_ok (h : ∀ name ∈ fields, (getSubField src name).isSome) :
    ∃ added, addFields src fields = .ok added := by
  induction fields with
  | nil => exact ⟨[], rfl⟩
  | cons name rest ih =>
      obtain ⟨field, hfield⟩ := Option.isSome_iff_exists.1 (h name List.mem_cons_self)
      obtain ⟨others, hothers⟩ := ih fun other hother => h other (List.mem_cons_of_mem _ hother)
      refine ⟨(name, field.type) :: others, ?_⟩
      rw [addFields, getSubFieldT_eq_ok.2 hfield, hothers]
      rfl

theorem copyFields_ok (h : ∀ name ∈ fields, (getSubField src name).isSome)
    (filtered : PVStructure) : ∃ result, copyFields src fields filtered = .ok result := by
  induction fields generalizing filtered with
  | nil => exact ⟨filtered, rfl⟩
  | cons name rest ih =>
      obtain ⟨field, hfield⟩ := Option.isSome_iff_exists.1 (h name List.mem_cons_self)
      have hrest : ∀ other ∈ rest, (getSubField src other).isSome :=
        fun other hother => h other (List.mem_cons_of_mem _ hother)
      rw [copyFields, getSubFieldT_eq_ok.2 hfield]
      cases hdst : getSubField filtered name with
      | none =>
          obtain ⟨result, hresult⟩ := ih hrest filtered
          exact ⟨result, by simpa [bind, Except.bind, hdst] using hresult⟩
      | some dst =>
          obtain ⟨result, hresult⟩ := ih hrest (PVField.copyTo name field filtered)
          exact ⟨result, by simpa [bind, Except.bind, hdst] using hresult⟩

theorem createStructure_eq_ok {type result : Structure} :
    createStructure type = .ok result ↔
      type = result ∧ (∀ name ∈ type.map Prod.fst, validFieldName name = true) ∧
        (type.map Prod.fst).Nodup := by
  rw [createStructure]
  split
  case isTrue h =>
    have hvalid : ∀ name ∈ type.map Prod.fst, validFieldName name = true := by
      simpa using h.1
    exact ⟨fun heq => ⟨Except.ok.inj heq, hvalid, h.2⟩, fun heq => congrArg _ heq.1⟩
  case isFalse h =>
    refine ⟨fun heq => absurd heq nofun, fun heq => absurd ⟨?_, heq.2.2⟩ h⟩
    simpa using heq.2.1

/-- An event whose structure has the fields is filtered. -/
theorem filterEvent_ok {event : MonitorEvent PVStructure} (hfields : hasFields fields event = true)
    (hnodup : fields.Nodup) : ∃ filtered, filterEvent fields event = .ok (some filtered) := by
  obtain ⟨data, hdata⟩ : ∃ data, filterPVField event.channelData.data fields = .ok data := by
    rw [hasFields] at hfields
    rw [filterPVField.eq_def]
    cases hsrc : event.channelData.data with
    | none => exact ⟨none, rfl⟩
    | some src =>
        simp only [hsrc, List.all_eq_true, Bool.and_eq_true] at hfields
        have hsome : ∀ name ∈ fields, (getSubField src name).isSome := by
          intro name hname
          rw [getSubField_of_valid (hfields name hname).1]
          exact (hfields name hname).2
        obtain ⟨added, hadded⟩ := addFields_ok hsome
        have hnames := (addFields_eq_ok hadded).1
        have hcreated : createStructure added = .ok added := by
          apply createStructure_eq_ok.2
          rw [hnames]
          exact ⟨rfl, fun name hname => (hfields name hname).1, hnodup⟩
        obtain ⟨result, hresult⟩ := copyFields_ok hsome (FieldType.createPVStructure added)
        refine ⟨some result, ?_⟩
        simp only [hadded, bind, Except.bind, hcreated, hresult]
        rfl
  refine ⟨⟨event.type, event.message, ⟨event.channelData.pvName, data⟩⟩, ?_⟩
  rw [filterEvent, hdata]
  rfl

/-- An event that is filtered has the fields. -/
theorem hasFields_of_filterEvent {event : MonitorEvent PVStructure}
    {filtered : Option (MonitorEvent PVStructure)} (h : filterEvent fields event = .ok filtered) :
    hasFields fields event = true := by
  obtain ⟨data, hdata, -⟩ := Failure.bind_eq_ok.1 h
  rw [hasFields]
  rw [filterPVField.eq_def] at hdata
  cases hsrc : event.channelData.data with
  | none => rfl
  | some src =>
      simp only [hsrc] at hdata
      obtain ⟨type, htype, -⟩ := Failure.bind_eq_ok.1 hdata
      obtain ⟨added, hadded, hcreated⟩ := Failure.bind_eq_ok.1 htype
      obtain ⟨hnames, hsome⟩ := addFields_eq_ok hadded
      obtain ⟨-, hvalid, -⟩ := createStructure_eq_ok.1 hcreated
      rw [hnames] at hvalid
      simp only [List.all_eq_true, Bool.and_eq_true]
      intro name hname
      refine ⟨hvalid name hname, ?_⟩
      rw [← getSubField_of_valid (hvalid name hname)]
      exact hsome name hname

end K2eg
