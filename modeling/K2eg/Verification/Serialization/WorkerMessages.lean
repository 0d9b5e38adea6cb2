import K2eg.Model.WorkerMessages
import K2eg.Verification.Serialization.Compact
import K2eg.Verification.Serialization.JsonAgreement

/-! # What a reader gets from a message

When the message of a worker is read as one object from which every part of its content is
recovered. -/

namespace K2eg

open Msgpack (Token Object unpack packMap packMap_of_lt packArray_of_lt Counts)

/-! ## The content of a message -/

namespace MessagePair

def key : MessagePair → String
  | .int key _ => key
  | .text key _ => key
  | .pvData data => data.pvName

/-- An empty text is recovered where its key is missing. -/
def EmptyText : MessagePair → Prop
  | .text _ value => value = ""
  | _ => False

/-- The value of a pair in Msgpack; `payload` is what the serializer of the PV data writes. -/
def object (payload : PVStructure → Object) : MessagePair → Object
  | .int _ value => .int value
  | .text _ value => .str value
  | .pvData data =>
    match data.data with
    | none => .nil
    | some pvStruct => payload pvStruct

/-- The value of a pair in JSON: for PV data the object that its serializer sets in a message of
its own. -/
def IsJson : MessagePair → Json → Prop
  | .int _ value, json => json = .int value
  | .text _ value, json => json = .string value
  | .pvData data, json => ∃ structObj, json = .object structObj ∧
    JsonSerializer.serializeInto data [] = .ok [(data.pvName, .object structObj)]

end MessagePair

/-- The error, the reply id, the message, the topic, the iteration, the timestamp and the PV data of
a message. -/
def WorkerMessage.content : WorkerMessage → List MessagePair
  | commandReply reply => reply.pairs
  | snapshotCommandReply reply data => reply.pairs ++ [.pvData data]
  | snapshotFaultyCommandReply reply message => reply.pairs ++ [.text "message" message]
  | continuousSnapshotCommandReply reply message topic =>
    reply.pairs ++ [.text "message" message, .text "publishing_topic" topic]
  | monitorCommandReply reply message => reply.pairs ++ [.text "message" message]
  | repeatingSnapshotHeader name timestamp iteration =>
    [.text "snapshot_name" name, .int "timestamp" timestamp.toInt,
      .int "iter_index" iteration.toInt]
  | repeatingSnapshotData timestamp iteration data =>
    [.int "timestamp" timestamp.toInt, .int "iter_index" iteration.toInt, .pvData data]
  | repeatingSnapshotCompletion error message name timestamp iteration =>
    [.int "error" error.toInt, .text "error_message" message, .text "snapshot_name" name,
      .int "timestamp" timestamp.toInt, .int "iter_index" iteration.toInt]

/-- The values under a key of a Msgpack map. -/
def valuesOf (key : String) (entries : List (Object × Object)) : List Object :=
  entries.filterMap fun entry =>
    match entry.1 with
    | .str other => if other = key then some entry.2 else none
    | _ => none

/-- The values under a key of a JSON object. -/
def membersOf (key : String) (members : JsonObject) : List Json :=
  members.filterMap fun member => if member.1 = key then some member.2 else none

/-- What the serializer of the PV data writes for a structure. -/
def payload : SerializationType → PVStructure → Object
  | .msgpackCompact, pvStruct =>
    .array ((PVField.fieldLeaves pvStruct).map Leaf.convertedObject)
  | _, pvStruct => .map (PVField.entries pvStruct)

/-- A part of the content is the only value under its key, or it is an empty text and there is no
value. -/
def CarriesObject (type : SerializationType) (entries : List (Object × Object))
    (pair : MessagePair) : Prop :=
  valuesOf pair.key entries = [pair.object (payload type)] ∨
    pair.EmptyText ∧ valuesOf pair.key entries = []

def CarriesJson (members : JsonObject) (pair : MessagePair) : Prop :=
  (∃ json, membersOf pair.key members = [json] ∧ pair.IsJson json) ∨
    pair.EmptyText ∧ membersOf pair.key members = []

/-- The message is read as exactly one object, and all of its content is recovered. -/
def WorkerMessage.RecoveredFrom (message : WorkerMessage) (type : SerializationType) :
    SerializedMessage → Prop
  | .json members => (∀ format, Json.IsValue (Json.print format (.object members))) ∧
    ∀ pair ∈ message.content, CarriesJson members pair
  | .msgpack tokens => ∃ entries, unpack tokens = some (.map entries, []) ∧
    ∀ pair ∈ message.content, CarriesObject type entries pair

/-! ## The condition -/

/-- No length in the PV data is cut by its serializer; JSON needs a name to write it under. -/
def DataFits : SerializationType → ChannelData PVStructure → Prop
  | .json, data => data.pvName ≠ ""
  | .msgpackCompact, data => ∀ pvStruct, data.data = some pvStruct →
    (PVField.fieldLeaves pvStruct).length < 2 ^ 32 ∧
      ∀ leaf ∈ PVField.fieldLeaves pvStruct, leaf.Short
  | _, data => ∀ pvStruct, data.data = some pvStruct → PVField.FieldsBelow (2 ^ 32) pvStruct

/-- The messages and serializations whose content is recovered: a PV is not named as a key of its
message, and the compact serialization has no topic or monitor message to lose. -/
def WorkerMessage.Sound : WorkerMessage → SerializationType → Prop
  | snapshotCommandReply _ data, type =>
    data.pvName ∉ ["error", keyReplyId] ∧ DataFits type data
  | repeatingSnapshotData _ _ data, .json =>
    data.pvName ∉ ["iter_index", "timestamp"] ∧ DataFits .json data
  | repeatingSnapshotData _ _ data, type =>
    data.pvName ∉ ["message_type", "iter_index", "timestamp"] ∧ DataFits type data
  | continuousSnapshotCommandReply _ _ topic, .msgpackCompact => topic = ""
  | monitorCommandReply _ message, .msgpackCompact => message = ""
  | _, _ => True

/-- The structures in a message are ones that pvData can hold. -/
def WorkerMessage.WellFormed : WorkerMessage → Prop
  | snapshotCommandReply _ data | repeatingSnapshotData _ _ data =>
    ∀ pvStruct, data.data = some pvStruct → pvStruct.WellFormed
  | _ => True

/-! ## Msgpack -/

/-- What the rules below need of the serializer of the PV data: a pair of which the header of an
array has lost a part has a smaller surplus, and any other is its name with its payload. -/
structure PacksData (packPVData : ChannelData PVStructure → Except Failure (List Token))
    (type : SerializationType) (data : ChannelData PVStructure) : Prop where
  counts : ∀ tokens, packPVData data = .ok tokens → Counts (-2) (DataFits type data) tokens
  object : ∀ tokens, packPVData data = .ok tokens → DataFits type data →
    tokens = Object.tokens (.str data.pvName) ++
      ((MessagePair.pvData data).object (payload type)).tokens

/-- The part of a message that is PV data. -/
def MessagePair.Data (P : ChannelData PVStructure → Prop) : MessagePair → Prop
  | .pvData data => P data
  | _ => True

def MessagePair.entry (type : SerializationType) (pair : MessagePair) : Object × Object :=
  (.str pair.key, pair.object (payload type))

section Packing

variable {packPVData : ChannelData PVStructure → Except Failure (List Token)}
  {type : SerializationType}

theorem packPair_counts {pair : MessagePair} {tokens : List Token}
    (hdata : pair.Data (PacksData packPVData type)) (h : packPair packPVData pair = .ok tokens) :
    Counts (-2) (pair.Data (DataFits type)) tokens := by
  cases pair with
  | int key value =>
    cases h
    exact ⟨Int.le_refl (-2), fun _ => trivial⟩
  | text key value =>
    obtain ⟨text, htext, h⟩ := Failure.bind_eq_ok.1 h
    cases h
    have hkey : Counts (-1) True [Token.str key] := ⟨Int.le_refl (-1), fun _ => trivial⟩
    exact (hkey.append (MsgpackEpicsConverter.counts_of_packString htext)).mono fun _ => trivial
  | pvData data => exact hdata.counts tokens h

theorem packPair_object {pair : MessagePair} {tokens : List Token}
    (hdata : pair.Data (PacksData packPVData type)) (hfits : pair.Data (DataFits type))
    (h : packPair packPVData pair = .ok tokens) :
    tokens = (pair.entry type).1.tokens ++ (pair.entry type).2.tokens := by
  cases pair with
  | int key value =>
    cases h
    rfl
  | text key value =>
    obtain ⟨text, htext, h⟩ := Failure.bind_eq_ok.1 h
    cases h
    rw [packString_of_lt (lt_of_packString htext).1] at htext
    cases htext
    rfl
  | pvData data => exact hdata.object tokens h hfits

theorem packPairs_counts {pairs : List MessagePair} {tokens : List Token}
    (hdata : ∀ pair ∈ pairs, pair.Data (PacksData packPVData type))
    (h : packPairs packPVData pairs = .ok tokens) :
    Counts (-2 * pairs.length) (∀ pair ∈ pairs, pair.Data (DataFits type)) tokens := by
  induction pairs generalizing tokens with
  | nil =>
    cases h
    exact Msgpack.counts_nil.mono fun _ => List.forall_mem_nil _
  | cons pair rest ih =>
    have hall := List.forall_mem_cons.1 hdata
    obtain ⟨first, hfirst, h⟩ := Failure.bind_eq_ok.1 h
    obtain ⟨others, hothers, h⟩ := Failure.bind_eq_ok.1 h
    cases h
    rw [List.length_cons, show (-2 * ((rest.length + 1 : ℕ) : Int)) =
      -2 + -2 * rest.length by omega]
    exact ((packPair_counts hall.1 hfirst).append (ih hall.2 hothers)).mono
      List.forall_mem_cons.2

theorem packPairs_object {pairs : List MessagePair} {tokens : List Token}
    (hdata : ∀ pair ∈ pairs, pair.Data (PacksData packPVData type))
    (hfits : ∀ pair ∈ pairs, pair.Data (DataFits type))
    (h : packPairs packPVData pairs = .ok tokens) :
    tokens = Object.entryTokens (pairs.map (MessagePair.entry type)) := by
  induction pairs generalizing tokens with
  | nil =>
    cases h
    rfl
  | cons pair rest ih =>
    have hall := List.forall_mem_cons.1 hdata
    have hallFits := List.forall_mem_cons.1 hfits
    obtain ⟨first, hfirst, h⟩ := Failure.bind_eq_ok.1 h
    obtain ⟨others, hothers, h⟩ := Failure.bind_eq_ok.1 h
    cases h
    rw [packPair_object hall.1 hallFits.1 hfirst, ih hall.2 hallFits.2 hothers]
    rfl

/-- A message whose map declares no more pairs than it writes is one object exactly where it
declares all of them and no length is cut; the object has the pairs. -/
theorem unpack_message_iff {size : ℕ} {pairs : List MessagePair} {tokens : List Token}
    {P : List (Object × Object) → Prop} (hsize : size < 2 ^ 32) (hle : size ≤ pairs.length)
    (hdata : ∀ pair ∈ pairs, pair.Data (PacksData packPVData type))
    (h : packMessage packPVData (size, pairs) = .ok tokens) :
    (∃ entries, unpack tokens = some (.map entries, []) ∧ P entries) ↔
      size = pairs.length ∧ (∀ pair ∈ pairs, pair.Data (DataFits type)) ∧
        P (pairs.map (MessagePair.entry type)) := by
  obtain ⟨body, hbody, h⟩ := Failure.bind_eq_ok.1 h
  cases h
  have hcounts := packPairs_counts hdata hbody
  have hobject : size = pairs.length → (∀ pair ∈ pairs, pair.Data (DataFits type)) →
      packMap size :: body = (Object.map (pairs.map (MessagePair.entry type))).tokens := by
    intro hlength hfits
    rw [packPairs_object hdata hfits hbody, packMap_of_lt hsize, Object.tokens, List.length_map,
      hlength]
  constructor
  case mp =>
    rintro ⟨entries, hunpack, hP⟩
    have hsurplus := Msgpack.unpack_surplus hunpack
    rw [Msgpack.surplus_cons, packMap_of_lt hsize, Token.surplus] at hsurplus
    have hbound := hcounts.1
    have hlength : size = pairs.length := by omega
    have hfits := hcounts.2 (by omega)
    rw [hobject hlength hfits, Msgpack.unpack_tokens_nil] at hunpack
    cases hunpack
    exact ⟨hlength, hfits, hP⟩
  case mpr =>
    rintro ⟨hlength, hfits, hP⟩
    rw [hobject hlength hfits]
    exact ⟨_, Msgpack.unpack_tokens_nil _, hP⟩

end Packing

theorem packsData_msgpack {data : ChannelData PVStructure}
    (hwf : ∀ pvStruct, data.data = some pvStruct → pvStruct.WellFormed) :
    PacksData MsgPackSerializer.serializeInto .msgpack data := by
  obtain ⟨pvName, pvData⟩ := data
  cases pvData with
  | none =>
    have hnone : ∀ tokens, MsgPackSerializer.serializeInto ⟨pvName, none⟩ ≠ .ok tokens := by
      intro tokens h
      obtain ⟨_, _, h⟩ := Failure.bind_eq_ok.1 h
      exact absurd h nofun
    exact ⟨fun tokens h => absurd h (hnone tokens), fun tokens h => absurd h (hnone tokens)⟩
  | some pvStruct =>
    constructor
    case counts =>
      intro tokens h
      obtain ⟨name, hname, h⟩ := Failure.bind_eq_ok.1 h
      obtain ⟨value, hvalue, h⟩ := Failure.bind_eq_ok.1 h
      cases h
      have hboth := (MsgpackEpicsConverter.counts_of_packString hname).append
        (MsgpackEpicsConverter.counts_of_epicsToMsgpack hvalue)
      exact hboth.mono fun h other hother => by cases hother; exact h.2
    case object =>
      intro tokens h hfits
      obtain ⟨name, hname, h⟩ := Failure.bind_eq_ok.1 h
      obtain ⟨value, hvalue, h⟩ := Failure.bind_eq_ok.1 h
      cases h
      have hpackable := (MsgpackEpicsConverter.packable_of_epicsToMsgpack hvalue).1
      rw [packString_of_lt (lt_of_packString hname).1] at hname
      rw [MsgpackEpicsConverter.epicsToMsgpack_object (hwf pvStruct rfl) (hfits pvStruct rfl)
        hpackable] at hvalue
      cases hname
      cases hvalue
      rfl

theorem packsData_compact (data : ChannelData PVStructure) :
    PacksData MsgpackCompactSerializer.serializeInto .msgpackCompact data := by
  obtain ⟨pvName, pvData⟩ := data
  cases pvData with
  | none => exact ⟨fun tokens h => absurd h nofun, fun tokens h => absurd h nofun⟩
  | some pvStruct =>
    constructor
    case counts =>
      intro tokens h
      obtain ⟨values, hscan, h⟩ := Failure.bind_eq_ok.1 h
      obtain ⟨name, hname, h⟩ := Failure.bind_eq_ok.1 h
      obtain ⟨body, hbody, h⟩ := Failure.bind_eq_ok.1 h
      cases h
      obtain ⟨_, rfl⟩ := (MsgpackCompactSerializer.scannStructure_iff pvStruct values).1 hscan
      have hall := (MsgpackEpicsConverter.counts_of_packString hname).append
        ((Msgpack.counts_packArray (PVField.fieldLeaves pvStruct).length).append
          (MsgpackCompactSerializer.counts_of_processLeaves hbody))
      rw [show (-1 + ((PVField.fieldLeaves pvStruct).length - 1 +
        -(PVField.fieldLeaves pvStruct).length) : Int) = -2 by omega] at hall
      exact hall.mono fun h other hother => by cases hother; exact h.2
    case object =>
      intro tokens h hfits
      obtain ⟨values, hscan, h⟩ := Failure.bind_eq_ok.1 h
      obtain ⟨name, hname, h⟩ := Failure.bind_eq_ok.1 h
      obtain ⟨body, hbody, h⟩ := Failure.bind_eq_ok.1 h
      cases h
      obtain ⟨_, rfl⟩ := (MsgpackCompactSerializer.scannStructure_iff pvStruct values).1 hscan
      have hpackable := (MsgpackCompactSerializer.packable_of_processLeaves hbody).1
      obtain ⟨hlength, hshort⟩ := hfits pvStruct rfl
      rw [packString_of_lt (lt_of_packString hname).1] at hname
      rw [MsgpackCompactSerializer.processLeaves_object hshort hpackable] at hbody
      cases hname
      cases hbody
      rw [packArray_of_lt hlength]
      simp only [MessagePair.object, payload, Object.tokens, List.length_map]

/-! ## JSON -/

namespace JsonSerializer

mutual

/-- Whether a field can be written does not depend on the object it is written into. -/
theorem processField_other : ∀ (field : PVField) (key : String) (jsonObject result : JsonObject),
    processField field key jsonObject = .ok result →
      ∀ other, ∃ result, processField field key other = .ok result
  | .scalar _ _, _, _, _, _ | .scalarArray _ _, _, _, _, _ | .unionArray _ _, _, _, _, _ =>
    fun _ => ⟨_, rfl⟩
  | .structure fields, key, jsonObject, _, h => by
      intro other
      obtain ⟨objects, hchildren, _⟩ := Failure.bind_eq_ok.1 h
      obtain ⟨next, hnext⟩ :=
        processChildren_other fields key [] jsonObject objects.1 objects.2 hchildren other
      exact ⟨_, Failure.bind_eq_ok.2 ⟨_, hnext, rfl⟩⟩
  | .structureArray _ _, _, _, _, h => by
      intro other
      obtain ⟨arrayObj, harray, _⟩ := Failure.bind_eq_ok.1 h
      exact ⟨_, Failure.bind_eq_ok.2 ⟨_, harray, rfl⟩⟩
  | .union _ none, _, _, _, h => absurd h nofun
  | .union _ (some (_, subField)), key, jsonObject, result, h =>
    processField_other subField key jsonObject result h

theorem processChildren_other : ∀ (fields : List (String × PVField)) (key : String)
    (structObj jsonObject structResult result : JsonObject),
    processChildren fields key structObj jsonObject = .ok (structResult, result) →
      ∀ other, ∃ result, processChildren fields key structObj other = .ok (structResult, result)
  | [], _, _, _, _, _, h => by
      intro other
      cases h
      exact ⟨other, rfl⟩
  | (_, .union _ none) :: rest, key, structObj, jsonObject, structResult, result, h =>
    processChildren_other rest key structObj jsonObject structResult result h
  | (_, .union _ (some (_, field))) :: rest, key, structObj, jsonObject, structResult, result,
      h => by
      intro other
      obtain ⟨next, hnext, h⟩ := Failure.bind_eq_ok.1 h
      obtain ⟨otherNext, hother⟩ := processField_other field key jsonObject next hnext other
      obtain ⟨final, hfinal⟩ :=
        processChildren_other rest key structObj next structResult result h otherNext
      exact ⟨final, Failure.bind_eq_ok.2 ⟨_, hother, hfinal⟩⟩
  | (_, .unionArray _ _) :: rest, key, structObj, jsonObject, structResult, result, h =>
    processChildren_other rest key structObj jsonObject structResult result h
  | (_, .scalar _ _) :: rest, key, structObj, jsonObject, structResult, result, h
  | (_, .scalarArray _ _) :: rest, key, structObj, jsonObject, structResult, result, h
  | (_, .structure _) :: rest, key, structObj, jsonObject, structResult, result, h
  | (_, .structureArray _ _) :: rest, key, structObj, jsonObject, structResult, result, h => by
      intro other
      obtain ⟨next, hnext, h⟩ := Failure.bind_eq_ok.1 h
      obtain ⟨final, hfinal⟩ :=
        processChildren_other rest key next jsonObject structResult result h other
      exact ⟨final, Failure.bind_eq_ok.2 ⟨_, hnext, hfinal⟩⟩

end

/-- Under a name, the PV data sets one object, whatever the message has already. -/
theorem serializeInto_named {data : ChannelData PVStructure} {jsonObject result : JsonObject}
    (hname : data.pvName ≠ "") (h : serializeInto data jsonObject = .ok result) :
    ∃ structObj, result = Json.set data.pvName (.object structObj) jsonObject ∧
      serializeInto data [] = .ok [(data.pvName, .object structObj)] := by
  obtain ⟨pvName, pvData⟩ := data
  cases pvData with
  | none => exact absurd h nofun
  | some pvStruct =>
    obtain ⟨objects, hchildren, h⟩ := Failure.bind_eq_ok.1 h
    simp only [if_neg hname] at h
    cases h
    have hset : ∀ first second : JsonObject, Sets pvName first second →
        Json.set pvName (.object objects.1) second =
          Json.set pvName (.object objects.1) first := by
      intro first second hsets
      cases hsets with
      | inl hsame => rw [hsame]
      | inr hset =>
        obtain ⟨json, hset, _⟩ := hset
        rw [hset, Json.set_set]
    obtain ⟨next, hnext⟩ :=
      processChildren_other pvStruct pvName [] jsonObject objects.1 objects.2 hchildren []
    refine ⟨objects.1, hset _ _ (processChildren_sets _ _ _ _ _ _ hchildren),
      Failure.bind_eq_ok.2 ⟨_, hnext, ?_⟩⟩
    simp only [if_neg hname, hset _ _ (processChildren_sets _ _ _ _ _ _ hnext)]
    rfl

/-- Without a name no object is set. -/
theorem serializeInto_unnamed {data : ChannelData PVStructure} {jsonObject result : JsonObject}
    (hname : data.pvName = "") (h : serializeInto data jsonObject = .ok result) :
    Sets "" jsonObject result := by
  obtain ⟨pvName, pvData⟩ := data
  cases pvData with
  | none => exact absurd h nofun
  | some pvStruct =>
    cases hname
    exact processField_sets _ _ _ _ h

end JsonSerializer

/-! ## The keys of a message -/

@[simp] theorem valuesOf_nil (key : String) : valuesOf key [] = [] := rfl

@[simp] theorem valuesOf_entry (type : SerializationType) (key : String) (pair : MessagePair)
    (rest : List (Object × Object)) :
    valuesOf key (pair.entry type :: rest) =
      if pair.key = key then pair.object (payload type) :: valuesOf key rest
      else valuesOf key rest := by
  rw [valuesOf, List.filterMap_cons]
  simp only [MessagePair.entry]
  split <;> simp_all [valuesOf]

attribute [simp] MessagePair.key MessagePair.EmptyText MessagePair.Data

@[simp] theorem membersOf_nil (key : String) : membersOf key [] = [] := rfl

@[simp] theorem membersOf_cons (key : String) (member : String × Json) (rest : JsonObject) :
    membersOf key (member :: rest) =
      if member.1 = key then member.2 :: membersOf key rest else membersOf key rest := by
  rw [membersOf, List.filterMap_cons]
  split <;> simp_all [membersOf]

/-- The pairs of a Msgpack message carry the content exactly where the message is sound. -/
theorem keys_msgpack_iff (message : WorkerMessage) :
    (message.serializeMsgpack.1 = message.serializeMsgpack.2.length ∧
      (∀ pair ∈ message.serializeMsgpack.2, pair.Data (DataFits .msgpack)) ∧
      ∀ pair ∈ message.content,
        CarriesObject .msgpack (message.serializeMsgpack.2.map (MessagePair.entry .msgpack)) pair) ↔
      message.Sound .msgpack := by
  cases message with
  | commandReply reply =>
    simp [WorkerMessage.serializeMsgpack, WorkerMessage.content, WorkerMessage.Sound,
      CommandReply.pairs, CarriesObject, keyReplyId]
  | snapshotCommandReply reply data =>
    simp [WorkerMessage.serializeMsgpack, WorkerMessage.content, WorkerMessage.Sound,
      CommandReply.pairs, CarriesObject, keyReplyId]
    grind
  | snapshotFaultyCommandReply reply message | monitorCommandReply reply message =>
    by_cases h : message = "" <;>
      simp [WorkerMessage.serializeMsgpack, WorkerMessage.content, WorkerMessage.Sound,
        CommandReply.pairs, CarriesObject, keyReplyId, optionalText, optionalSize, h]
  | continuousSnapshotCommandReply reply message topic =>
    by_cases h : message = "" <;> by_cases h' : topic = "" <;>
      simp [WorkerMessage.serializeMsgpack, WorkerMessage.content, WorkerMessage.Sound,
        CommandReply.pairs, CarriesObject, keyReplyId, optionalText, optionalSize, h, h']
  | repeatingSnapshotHeader name timestamp iteration =>
    simp [WorkerMessage.serializeMsgpack, WorkerMessage.content, WorkerMessage.Sound,
      CarriesObject]
  | repeatingSnapshotData timestamp iteration data =>
    simp [WorkerMessage.serializeMsgpack, WorkerMessage.content, WorkerMessage.Sound,
      CarriesObject]
    grind
  | repeatingSnapshotCompletion error message name timestamp iteration =>
    by_cases h : message = "" <;>
      simp [WorkerMessage.serializeMsgpack, WorkerMessage.content, WorkerMessage.Sound,
        CarriesObject, optionalText, h]

/-- The pairs of a compact message carry the content exactly where the message is sound. -/
theorem keys_compact_iff {message : WorkerMessage} {size : ℕ} {pairs : List MessagePair}
    (h : message.serializeMsgpackCompact = some (size, pairs)) :
    (size = pairs.length ∧ (∀ pair ∈ pairs, pair.Data (DataFits .msgpackCompact)) ∧
      ∀ pair ∈ message.content,
        CarriesObject .msgpackCompact (pairs.map (MessagePair.entry .msgpackCompact)) pair) ↔
      message.Sound .msgpackCompact := by
  cases message with
  | commandReply reply =>
    cases h
    simp [WorkerMessage.content, WorkerMessage.Sound, CommandReply.pairs, CarriesObject,
      keyReplyId]
  | snapshotCommandReply reply data =>
    cases h
    simp [WorkerMessage.content, WorkerMessage.Sound, CommandReply.pairs, CarriesObject,
      keyReplyId]
    grind
  | snapshotFaultyCommandReply reply message =>
    cases h
    by_cases h : message = "" <;>
      simp [WorkerMessage.content, WorkerMessage.Sound, CommandReply.pairs, CarriesObject,
        keyReplyId, optionalText, optionalSize, h]
  | continuousSnapshotCommandReply reply message topic =>
    cases h
    by_cases h : message = "" <;> by_cases h' : topic = "" <;>
      simp [WorkerMessage.content, WorkerMessage.Sound, CommandReply.pairs, CarriesObject,
        keyReplyId, optionalText, optionalSize, h, h']
  | monitorCommandReply reply message =>
    cases h
    simp [WorkerMessage.content, WorkerMessage.Sound, CommandReply.pairs, CarriesObject,
      keyReplyId]
  | repeatingSnapshotHeader | repeatingSnapshotData | repeatingSnapshotCompletion =>
    exact absurd h nofun

theorem assignPairs_pvData {jsonObject members : JsonObject} {data : ChannelData PVStructure}
    (h : assignPairs jsonObject [.pvData data] = .ok members) :
    JsonSerializer.serializeInto data jsonObject = .ok members := by
  obtain ⟨next, hnext, h⟩ := Failure.bind_eq_ok.1 h
  cases h
  exact hnext

theorem membersOf_eq_nil {key : String} {members : JsonObject}
    (h : key ∉ members.map Prod.fst) : membersOf key members = [] := by
  induction members with
  | nil => rfl
  | cons member rest ih =>
    rw [List.map_cons, List.mem_cons, not_or] at h
    rw [membersOf_cons, if_neg (Ne.symm h.1), ih h.2]

theorem membersOf_set_self {key : String} {value : Json} {members : JsonObject}
    (h : (members.map Prod.fst).Nodup) : membersOf key (Json.set key value members) = [value] := by
  induction members with
  | nil => simp [Json.set]
  | cons member rest ih =>
    rw [List.map_cons, List.nodup_cons] at h
    rw [Json.set]
    split
    case isTrue heq =>
      rw [membersOf_cons, if_pos rfl, membersOf_eq_nil (heq ▸ h.1)]
    case isFalse hne => rw [membersOf_cons, if_neg hne, ih h.2]

theorem membersOf_set_of_ne {key other : String} {value : Json} {members : JsonObject}
    (h : other ≠ key) : membersOf key (Json.set other value members) = membersOf key members := by
  induction members with
  | nil => simp [Json.set, h]
  | cons member rest ih =>
    rw [Json.set]
    split
    case isTrue heq =>
      rw [membersOf_cons, membersOf_cons, if_neg h, if_neg (heq ▸ h)]
    case isFalse => rw [membersOf_cons, membersOf_cons, ih]

theorem not_isJson_unnamed {data : ChannelData PVStructure} (hname : data.pvName = "")
    (json : Json) : ¬(MessagePair.pvData data).IsJson json := by
  rintro ⟨structObj, _, hserialize⟩
  rw [hname] at hserialize
  cases JsonSerializer.serializeInto_unnamed hname hserialize with
  | inl hempty => exact absurd hempty nofun
  | inr hset =>
    obtain ⟨other, hset, hother⟩ := hset
    injection hset with hmember _
    injection hmember with _ hobject
    exact hother rfl structObj hobject.symm

/-- The PV data of a JSON message with the other parts of the content, which are neither empty
texts nor objects: no part may have the name of the PV as its key. -/
theorem carries_pvData_iff {fixed members : JsonObject} {data : ChannelData PVStructure}
    {others : List MessagePair} (hnodup : (fixed.map Prod.fst).Nodup)
    (hfixed : ∀ pair ∈ others, CarriesJson fixed pair)
    (hobject : ∀ pair ∈ others, ∀ structObj, ¬pair.IsJson (.object structObj))
    (h : JsonSerializer.serializeInto data fixed = .ok members) :
    (∀ pair ∈ others ++ [.pvData data], CarriesJson members pair) ↔
      data.pvName ∉ others.map MessagePair.key ∧ data.pvName ≠ "" := by
  by_cases hname : data.pvName = ""
  case pos =>
    refine ⟨fun hall => ?_, fun hcond => absurd hname hcond.2⟩
    cases hall (.pvData data) (List.mem_append_right _ (List.mem_singleton_self _)) with
    | inl hcarries =>
      obtain ⟨json, _, hjson⟩ := hcarries
      exact absurd hjson (not_isJson_unnamed hname json)
    | inr hempty => exact absurd hempty.1 id
  case neg =>
    obtain ⟨structObj, hmembers, hserialize⟩ := JsonSerializer.serializeInto_named hname h
    have hself : membersOf data.pvName members = [.object structObj] :=
      hmembers ▸ membersOf_set_self hnodup
    constructor
    case mp =>
      intro hall
      refine ⟨?_, hname⟩
      intro hmem
      obtain ⟨pair, hpair, hkey⟩ := List.mem_map.1 hmem
      have hcarries := hall pair (List.mem_append_left _ hpair)
      rw [CarriesJson, hkey, hself] at hcarries
      cases hcarries with
      | inl hcarries =>
        obtain ⟨json, hsame, hjson⟩ := hcarries
        cases hsame
        exact hobject pair hpair structObj hjson
      | inr hempty => exact absurd hempty.2 nofun
    case mpr =>
      rintro ⟨hapart, _⟩ pair hpair
      cases List.mem_append.1 hpair with
      | inl hother =>
        have hne : data.pvName ≠ pair.key := fun heq =>
          hapart (heq ▸ List.mem_map_of_mem hother)
        have hcarries := hfixed pair hother
        rwa [CarriesJson, ← @membersOf_set_of_ne pair.key data.pvName (.object structObj) fixed hne,
          ← hmembers] at hcarries
      | inr hdata =>
        cases List.mem_singleton.1 hdata
        exact .inl ⟨_, hself, structObj, rfl, hserialize⟩

theorem assignPairs_append {jsonObject : JsonObject} {first second : List MessagePair} :
    assignPairs jsonObject (first ++ second) = (do
      let next ← assignPairs jsonObject first
      assignPairs next second) := by
  induction first generalizing jsonObject with
  | nil => rfl
  | cons pair rest ih =>
    rw [List.cons_append, assignPairs, assignPairs, bind_assoc]
    exact bind_congr fun next => ih

/-- The member a pair without PV data becomes. -/
def MessagePair.member : MessagePair → String × Json
  | .int key value => (key, .int value)
  | .text key value => (key, .string value)
  | .pvData data => (data.pvName, .null)

def MessagePair.IsPlain : MessagePair → Prop
  | .pvData _ => False
  | _ => True

theorem assignPair_plain {pair : MessagePair} {jsonObject : JsonObject} (hplain : pair.IsPlain)
    (hfresh : pair.key ∉ jsonObject.map Prod.fst) :
    assignPair jsonObject pair = .ok (jsonObject ++ [pair.member]) := by
  cases pair with
  | int key value => exact congrArg Except.ok (Json.set_of_not_mem hfresh)
  | text key value => exact congrArg Except.ok (Json.set_of_not_mem hfresh)
  | pvData data => exact absurd hplain id

/-- Pairs with keys of their own become members in their order. -/
theorem assignPairs_plain {pairs : List MessagePair} :
    ∀ {jsonObject : JsonObject}, (∀ pair ∈ pairs, pair.IsPlain) →
      (jsonObject.map Prod.fst ++ pairs.map MessagePair.key).Nodup →
      assignPairs jsonObject pairs = .ok (jsonObject ++ pairs.map MessagePair.member) := by
  induction pairs with
  | nil =>
    intro jsonObject _ _
    rw [List.map_nil, List.append_nil]
    rfl
  | cons pair rest ih =>
    intro jsonObject hplain hnodup
    have hall := List.forall_mem_cons.1 hplain
    have hfresh : pair.key ∉ jsonObject.map Prod.fst := fun hmem =>
      (List.nodup_append.1 hnodup).2.2 _ hmem _ (List.mem_cons_self ..) rfl
    have hkey : pair.member.1 = pair.key := by cases pair <;> rfl
    have hrest := @ih (jsonObject ++ [pair.member]) hall.2 (by simpa [hkey] using hnodup)
    rw [List.append_assoc, List.singleton_append] at hrest
    rw [assignPairs, assignPair_plain hall.1 hfresh, List.map_cons]
    exact hrest

theorem assignPairs_message {pairs : List MessagePair} (hplain : ∀ pair ∈ pairs, pair.IsPlain)
    (hnodup : (pairs.map MessagePair.key).Nodup) :
    assignPairs [] pairs = .ok (pairs.map MessagePair.member) :=
  assignPairs_plain hplain hnodup

theorem membersOf_map_member {pairs : List MessagePair} {pair : MessagePair}
    (hnodup : (pairs.map MessagePair.key).Nodup) (h : pair ∈ pairs) :
    membersOf pair.key (pairs.map MessagePair.member) = [pair.member.2] := by
  have hkey : ∀ other : MessagePair, other.member.1 = other.key := fun other => by
    cases other <;> rfl
  have hnames : ∀ others : List MessagePair,
      (others.map MessagePair.member).map Prod.fst = others.map MessagePair.key := fun others => by
    rw [List.map_map]
    exact List.map_congr_left fun other _ => hkey other
  induction pairs with
  | nil => exact absurd h List.not_mem_nil
  | cons first rest ih =>
    rw [List.map_cons, List.nodup_cons] at hnodup
    rw [List.map_cons, membersOf_cons, hkey]
    cases List.mem_cons.1 h with
    | inl hsame =>
      rw [hsame, if_pos rfl, membersOf_eq_nil (hnames rest ▸ hnodup.1)]
    | inr hmem =>
      have hne : first.key ≠ pair.key := fun heq =>
        hnodup.1 (heq ▸ List.mem_map_of_mem hmem)
      rw [if_neg hne, ih hnodup.2 hmem]

/-- A pair that is written is carried. -/
theorem carriesJson_of_mem {pairs : List MessagePair} {pair : MessagePair}
    (hplain : ∀ pair ∈ pairs, pair.IsPlain) (hnodup : (pairs.map MessagePair.key).Nodup)
    (h : pair ∈ pairs) : CarriesJson (pairs.map MessagePair.member) pair := by
  refine .inl ⟨pair.member.2, membersOf_map_member hnodup h, ?_⟩
  have hpair := hplain pair h
  cases pair with
  | int key value => rfl
  | text key value => rfl
  | pvData data => exact absurd hpair id

/-- A text that may be left out is carried, as it is left out where it is empty only. -/
theorem carriesJson_optional {pairs : List MessagePair} {key text : String}
    (hplain : ∀ pair ∈ pairs, pair.IsPlain) (hnodup : (pairs.map MessagePair.key).Nodup)
    (hmem : text ≠ "" → .text key text ∈ pairs)
    (hkey : text = "" → key ∉ pairs.map MessagePair.key) :
    CarriesJson (pairs.map MessagePair.member) (.text key text) := by
  by_cases h : text = ""
  case pos =>
    refine .inr ⟨h, membersOf_eq_nil ?_⟩
    intro hmember
    rw [List.map_map] at hmember
    obtain ⟨pair, hpair, hname⟩ := List.mem_map.1 hmember
    refine hkey h (List.mem_map.2 ⟨pair, hpair, ?_⟩)
    cases pair <;> exact hname
  case neg => exact carriesJson_of_mem hplain hnodup (hmem h)

theorem keys_json_faulty {reply : CommandReply} {message : String} {members : JsonObject}
    (h : assignPairs [] (WorkerMessage.serializeJson (.snapshotFaultyCommandReply reply message)) =
      .ok members) :
    ∀ pair ∈ WorkerMessage.content (.snapshotFaultyCommandReply reply message),
      CarriesJson members pair := by
  have hplain : ∀ pair ∈ reply.pairs ++ optionalText "message" message, pair.IsPlain := by
    grind [CommandReply.pairs, optionalText, MessagePair.IsPlain]
  have hnodup : ((reply.pairs ++ optionalText "message" message).map MessagePair.key).Nodup := by
    by_cases hm : message = "" <;> simp [CommandReply.pairs, optionalText, keyReplyId, hm]
  rw [WorkerMessage.serializeJson, assignPairs_message hplain hnodup] at h
  cases h
  refine List.forall_mem_append.2 ⟨?_, List.forall_mem_singleton.2 ?_⟩
  · intro pair hpair
    exact carriesJson_of_mem hplain hnodup (List.mem_append_left _ hpair)
  · refine carriesJson_optional hplain hnodup ?_ ?_ <;> intro hm <;>
      simp [CommandReply.pairs, optionalText, keyReplyId, hm]

theorem keys_json_continuous {reply : CommandReply} {message topic : String}
    {members : JsonObject}
    (h : assignPairs [] (WorkerMessage.serializeJson
      (.continuousSnapshotCommandReply reply message topic)) = .ok members) :
    ∀ pair ∈ WorkerMessage.content (.continuousSnapshotCommandReply reply message topic),
      CarriesJson members pair := by
  have hplain : ∀ pair ∈ reply.pairs ++ optionalText "message" message ++
      optionalText "publishing_topic" topic, pair.IsPlain := by
    grind [CommandReply.pairs, optionalText, MessagePair.IsPlain]
  have hnodup : ((reply.pairs ++ optionalText "message" message ++
      optionalText "publishing_topic" topic).map MessagePair.key).Nodup := by
    by_cases hm : message = "" <;> by_cases ht : topic = "" <;>
      simp [CommandReply.pairs, optionalText, keyReplyId, hm, ht]
  rw [WorkerMessage.serializeJson, assignPairs_message hplain hnodup] at h
  cases h
  refine List.forall_mem_append.2 ⟨?_, List.forall_mem_cons.2 ⟨?_, List.forall_mem_singleton.2 ?_⟩⟩
  · intro pair hpair
    exact carriesJson_of_mem hplain hnodup
      (List.mem_append_left _ (List.mem_append_left _ hpair))
  · refine carriesJson_optional hplain hnodup ?_ ?_ <;> intro hm
    · simp [optionalText, hm]
    · by_cases ht : topic = "" <;> simp [CommandReply.pairs, optionalText, keyReplyId, hm, ht]
  · refine carriesJson_optional hplain hnodup ?_ ?_ <;> intro ht
    · simp [optionalText, ht]
    · by_cases hm : message = "" <;> simp [CommandReply.pairs, optionalText, keyReplyId, hm, ht]

theorem keys_json_snapshot {reply : CommandReply} {data : ChannelData PVStructure}
    {members : JsonObject}
    (h : assignPairs [] (WorkerMessage.serializeJson (.snapshotCommandReply reply data)) =
      .ok members) :
    (∀ pair ∈ WorkerMessage.content (.snapshotCommandReply reply data),
      CarriesJson members pair) ↔ WorkerMessage.Sound (.snapshotCommandReply reply data) .json := by
  rw [WorkerMessage.serializeJson, CommandReply.pairs, assignPairs_append, assignPairs_plain
    (by simp [MessagePair.IsPlain]) (by simp [keyReplyId])] at h
  rw [WorkerMessage.content, carries_pvData_iff ?_ ?_ ?_ (assignPairs_pvData h)]
  · rfl
  · simp [MessagePair.member, keyReplyId]
  · simp [CommandReply.pairs, CarriesJson, MessagePair.member, MessagePair.IsJson, keyReplyId]
  · simp [CommandReply.pairs, MessagePair.IsJson]

theorem keys_json_data {timestamp iteration : Int64} {data : ChannelData PVStructure}
    {members : JsonObject}
    (h : assignPairs [] (WorkerMessage.serializeJson
      (.repeatingSnapshotData timestamp iteration data)) = .ok members) :
    (∀ pair ∈ WorkerMessage.content (.repeatingSnapshotData timestamp iteration data),
      CarriesJson members pair) ↔
      WorkerMessage.Sound (.repeatingSnapshotData timestamp iteration data) .json := by
  have happend : WorkerMessage.serializeJson (.repeatingSnapshotData timestamp iteration data) =
      [.int "message_type" 1, .int "iter_index" iteration.toInt,
        .int "timestamp" timestamp.toInt] ++ [.pvData data] := rfl
  have hcontent : WorkerMessage.content (.repeatingSnapshotData timestamp iteration data) =
      [.int "timestamp" timestamp.toInt, .int "iter_index" iteration.toInt] ++
        [.pvData data] := rfl
  rw [happend, assignPairs_append, assignPairs_plain (by simp [MessagePair.IsPlain])
    (by simp)] at h
  rw [hcontent, carries_pvData_iff ?_ ?_ ?_ (assignPairs_pvData h)]
  · simp [WorkerMessage.Sound, DataFits]
    grind
  · simp [MessagePair.member]
  · simp [CarriesJson, MessagePair.member, MessagePair.IsJson]
  · simp [MessagePair.IsJson]

/-- The members of a JSON message carry the content exactly where the message is sound. -/
theorem keys_json_iff {message : WorkerMessage} {members : JsonObject}
    (h : assignPairs [] message.serializeJson = .ok members) :
    (∀ pair ∈ message.content, CarriesJson members pair) ↔ message.Sound .json := by
  cases message with
  | commandReply reply =>
    rw [WorkerMessage.serializeJson, CommandReply.pairs, assignPairs_plain
      (by simp [MessagePair.IsPlain]) (by simp [keyReplyId])] at h
    cases h
    simp [WorkerMessage.content, WorkerMessage.Sound, CommandReply.pairs, CarriesJson,
      MessagePair.member, MessagePair.IsJson, keyReplyId]
  | snapshotCommandReply reply data => exact keys_json_snapshot h
  | snapshotFaultyCommandReply reply message | monitorCommandReply reply message =>
    exact ⟨fun _ => trivial, fun _ => keys_json_faulty h⟩
  | continuousSnapshotCommandReply reply message topic =>
    exact ⟨fun _ => trivial, fun _ => keys_json_continuous h⟩
  | repeatingSnapshotHeader name timestamp iteration =>
    rw [WorkerMessage.serializeJson, assignPairs_plain (by simp [MessagePair.IsPlain])
      (by simp)] at h
    cases h
    simp [WorkerMessage.content, WorkerMessage.Sound, CarriesJson, MessagePair.member,
      MessagePair.IsJson]
  | repeatingSnapshotData timestamp iteration data => exact keys_json_data h
  | repeatingSnapshotCompletion error message name timestamp iteration =>
    rw [WorkerMessage.serializeJson, assignPairs_plain (by simp [MessagePair.IsPlain])
      (by simp)] at h
    cases h
    simp [WorkerMessage.content, WorkerMessage.Sound, CarriesJson, MessagePair.member,
      MessagePair.IsJson]

/-! ## Every message -/

theorem WorkerMessage.packsData_msgpack {message : WorkerMessage} (hwf : message.WellFormed) :
    ∀ pair ∈ message.serializeMsgpack.2,
      pair.Data (PacksData MsgPackSerializer.serializeInto .msgpack) := by
  cases message with
  | snapshotCommandReply reply data =>
    have hdata := K2eg.packsData_msgpack hwf
    simp [WorkerMessage.serializeMsgpack, CommandReply.pairs, hdata]
  | repeatingSnapshotData timestamp iteration data =>
    have hdata := K2eg.packsData_msgpack hwf
    simp [WorkerMessage.serializeMsgpack, hdata]
  | _ =>
    simp only [WorkerMessage.serializeMsgpack, CommandReply.pairs, optionalText]
    grind [MessagePair.Data]

theorem WorkerMessage.size_msgpack (message : WorkerMessage) :
    message.serializeMsgpack.1 < 2 ^ 32 ∧
      message.serializeMsgpack.1 ≤ message.serializeMsgpack.2.length := by
  cases message <;>
    simp only [WorkerMessage.serializeMsgpack, CommandReply.pairs, optionalText, optionalSize] <;>
    grind

theorem WorkerMessage.size_compact {message : WorkerMessage} {size : ℕ}
    {pairs : List MessagePair} (h : message.serializeMsgpackCompact = some (size, pairs)) :
    size < 2 ^ 32 ∧ size ≤ pairs.length ∧
      ∀ pair ∈ pairs, pair.Data (PacksData MsgpackCompactSerializer.serializeInto
        .msgpackCompact) := by
  have hdata := packsData_compact
  cases message with
  | repeatingSnapshotHeader | repeatingSnapshotData | repeatingSnapshotCompletion =>
    exact absurd h nofun
  | _ =>
    cases h
    simp only [CommandReply.pairs, optionalText, optionalSize]
    grind [MessagePair.Data]

/-- Where `serialize` returns a message, all of the content is recovered from it exactly where the
message is sound. -/
theorem WorkerMessage.recoveredFrom_iff {message : WorkerMessage} (hwf : message.WellFormed)
    {type : SerializationType} {serialized : SerializedMessage}
    (h : message.serialize type = .ok (some serialized)) :
    message.RecoveredFrom type serialized ↔ message.Sound type := by
  cases type with
  | unknown => exact absurd h nofun
  | json =>
    obtain ⟨members, hmembers, h⟩ := Failure.bind_eq_ok.1 h
    cases h
    rw [← keys_json_iff hmembers]
    exact ⟨And.right, fun h => ⟨fun format => Json.print_isValue format _, h⟩⟩
  | msgpack =>
    obtain ⟨tokens, htokens, h⟩ := Failure.bind_eq_ok.1 h
    cases h
    have hsize := message.size_msgpack
    rw [← keys_msgpack_iff, WorkerMessage.RecoveredFrom]
    exact unpack_message_iff hsize.1 hsize.2 (packsData_msgpack hwf) htokens
  | msgpackCompact =>
    rw [WorkerMessage.serialize] at h
    cases hpairs : message.serializeMsgpackCompact with
    | none =>
      rw [hpairs] at h
      exact absurd h nofun
    | some pairs =>
      rw [hpairs] at h
      obtain ⟨tokens, htokens, h⟩ := Failure.bind_eq_ok.1 h
      cases h
      obtain ⟨hsize, hle, hdata⟩ := size_compact hpairs
      rw [← keys_compact_iff hpairs, WorkerMessage.RecoveredFrom]
      exact unpack_message_iff hsize hle hdata htokens

theorem WorkerMessage.recoveredFrom_iff_snapshot :
    ∃ serialized, (snapshotCommandReply ⟨0, "id"⟩
        ⟨"ioc:pv", some [("value", .scalar .pvInt (5 : Int32))]⟩).serialize .msgpack =
          .ok (some serialized) ∧
      (snapshotCommandReply ⟨0, "id"⟩
        ⟨"ioc:pv", some [("value", .scalar .pvInt (5 : Int32))]⟩).RecoveredFrom .msgpack
          serialized := by
  refine ⟨_, rfl, (recoveredFrom_iff ?_ rfl).2 ⟨by decide, ?_⟩⟩
  · rintro pvStruct ⟨⟩
    exact ⟨⟨by decide, by decide, by decide⟩, trivial, trivial⟩
  · rintro pvStruct ⟨⟩
    exact ⟨trivial, trivial⟩

/-- The compact reply to a start with a topic declares two pairs and writes three. -/
theorem WorkerMessage.not_recoveredFrom_topic :
    ∃ serialized, (continuousSnapshotCommandReply ⟨0, "id"⟩ "" "topic").serialize
        .msgpackCompact = .ok (some serialized) ∧
      ¬(continuousSnapshotCommandReply ⟨0, "id"⟩ "" "topic").RecoveredFrom .msgpackCompact
        serialized := by
  refine ⟨_, rfl, ?_⟩
  rintro ⟨entries, hunpack, _⟩
  have hread : (some (Object.map [(.str "error", .int 0), (.str keyReplyId, .str "id")],
      [Token.str "publishing_topic", .str "topic"]) : Option (Object × List Token)) =
      some (.map entries, []) := hunpack
  exact absurd hread nofun

end K2eg
