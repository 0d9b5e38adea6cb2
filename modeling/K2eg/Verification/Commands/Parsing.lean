import K2eg.Model.CMDController

/-! # Every object is parsed or answered

A field that `checkFields` has found has its kind, so no cast of a field throws. What throws is the
reading of a command name that is no string, and the client of such a message is not answered. -/

namespace K2eg

namespace MapToCommand

/-! ## The fields -/

theorem mem_of_lookup {members : JsonObject} {key : String} {value : Json}
    (h : members.lookup key = some value) : (key, value) ∈ members := by
  obtain ⟨before, after, rfl, -⟩ := List.lookup_eq_some_iff.1 h
  exact List.mem_append_right _ List.mem_cons_self

theorem mem_foundFields {obj : JsonObject} {requiredFields : List (String × JsonKind)}
    {key : String} {value : Json} (h : (key, value) ∈ foundFields obj requiredFields) :
    obj.lookup key = some value := by
  obtain ⟨field, -, hfield⟩ := List.mem_filterMap.1 h
  cases hlookup : obj.lookup field.1 with
  | none => simp [hlookup] at hfield
  | some found =>
      simp only [hlookup] at hfield
      split at hfield
      · obtain ⟨rfl, rfl⟩ := Prod.mk.inj (Option.some.inj hfield)
        exact hlookup
      · cases hfield

/-- A field that was required is found with its kind. -/
theorem lookup_of_checkFields {obj fields : JsonObject}
    {requiredFields : List (String × JsonKind)} {key : String} {kind : JsonKind}
    (h : checkFields obj requiredFields = some fields) (hmem : (key, kind) ∈ requiredFields) :
    ∃ value, fields.lookup key = some value ∧ jsonKind value = kind := by
  rw [checkFields] at h
  split at h
  case isFalse => cases h
  case isTrue hlength =>
    obtain rfl := Option.some.inj h
    have hall := List.filterMap_length_eq_length.1 hlength.symm (key, kind) hmem
    cases hlookup : obj.lookup key with
    | none => simp [hlookup] at hall
    | some value =>
        simp only [hlookup] at hall
        split at hall
        case isFalse => cases hall
        case isTrue hkind =>
          have hpair : (key, value) ∈ foundFields obj requiredFields := by
            refine List.mem_filterMap.2 ⟨(key, kind), hmem, ?_⟩
            simp only [hlookup]
            exact if_pos hkind
          -- the first pair with the key has the same value, which is that of the object
          cases hfirst : (foundFields obj requiredFields).lookup key with
          | none =>
              have habsent := List.lookup_eq_none_iff.1 hfirst (key, value) hpair
              simp at habsent
          | some first =>
              have hfound := mem_foundFields (mem_of_lookup hfirst)
              obtain rfl := Option.some.inj (hlookup.symm.trans hfound)
              exact ⟨value, rfl, hkind.1⟩

theorem valueToString_of_kind {value : Json} (h : jsonKind value = .string) :
    ∃ text, valueToString value = .ok text := by
  cases value with
  | string text => exact ⟨text, rfl⟩
  | int value =>
      rw [jsonKind] at h
      split at h <;> cases h
  | _ => cases h

theorem valueToArray_of_kind {value : Json} (h : jsonKind value = .array) :
    ∃ items, valueToArray value = .ok items := by
  cases value with
  | array items => exact ⟨items, rfl⟩
  | int value =>
      rw [jsonKind] at h
      split at h <;> cases h
  | _ => cases h

section Casts

variable {obj fields : JsonObject} {requiredFields : List (String × JsonKind)} {key : String}

theorem anyCast_string (h : checkFields obj requiredFields = some fields)
    (hmem : (key, .string) ∈ requiredFields) :
    ∃ text, anyCast fields key valueToString = .ok text := by
  obtain ⟨value, hlookup, hkind⟩ := lookup_of_checkFields h hmem
  obtain ⟨text, htext⟩ := valueToString_of_kind hkind
  exact ⟨text, by rw [anyCast, hlookup]; exact htext⟩

theorem anyCast_array (h : checkFields obj requiredFields = some fields)
    (hmem : (key, .array) ∈ requiredFields) :
    ∃ items, anyCast fields key valueToArray = .ok items := by
  obtain ⟨value, hlookup, hkind⟩ := lookup_of_checkFields h hmem
  obtain ⟨items, hitems⟩ := valueToArray_of_kind hkind
  exact ⟨items, by rw [anyCast, hlookup]; exact hitems⟩

end Casts

/-! ## The nine grammars -/

/-- The computation does not throw. -/
def Returns {α : Type} (result : Except Failure α) : Prop := ∃ value, result = .ok value

theorem Returns.bind {α β : Type} {first : Except Failure α} {rest : α → Except Failure β}
    (hfirst : Returns first) (hrest : ∀ value, Returns (rest value)) :
    Returns (first >>= rest) := by
  obtain ⟨value, rfl⟩ := hfirst
  exact hrest value

theorem Returns.pure {α : Type} (value : α) : Returns (Pure.pure value) := ⟨value, rfl⟩

variable (obj : JsonObject)

theorem parseMonitor_returns : Returns (parseMonitor obj) := by
  rw [parseMonitor]
  split
  · exact .pure none
  · split
    · exact .pure none
    · rename_i fields hfields
      exact .bind (anyCast_string hfields (by simp)) fun _ => .pure _

theorem parseMultiMonitor_returns : Returns (parseMultiMonitor obj) := by
  rw [parseMultiMonitor]
  split
  · exact .pure none
  · rename_i fields hfields
    exact .bind (anyCast_array hfields (by simp)) fun _ => .pure _

theorem parseGet_returns : Returns (parseGet obj) := by
  rw [parseGet]
  split
  · exact .pure none
  · rename_i fields hfields
    exact .bind (anyCast_string hfields (by simp)) fun _ => .pure _

theorem parsePut_returns : Returns (parsePut obj) := by
  rw [parsePut]
  split
  · exact .pure none
  · rename_i fields hfields
    exact .bind (anyCast_string hfields (by simp)) fun _ =>
      .bind (anyCast_string hfields (by simp)) fun _ => .pure _

theorem parseInfo_returns : Returns (parseInfo obj) := by
  rw [parseInfo]
  split
  · exact .pure none
  · rename_i fields hfields
    exact .bind (anyCast_string hfields (by simp)) fun _ => .pure _

theorem parseSnapshot_returns : Returns (parseSnapshot obj) := by
  rw [parseSnapshot]
  split
  · exact .pure none
  · rename_i fields hfields
    exact .bind (anyCast_array hfields (by simp)) fun _ => .pure _

theorem parseRepeatingSnapshot_returns : Returns (parseRepeatingSnapshot obj) := by
  rw [parseRepeatingSnapshot]
  split
  · exact .pure none
  · rename_i fields hfields
    exact .bind (anyCast_array hfields (by simp)) fun _ => .pure _

theorem parseRepeatingSnapshotStop_returns : Returns (parseRepeatingSnapshotStop obj) := by
  rw [parseRepeatingSnapshotStop]
  split <;> exact ⟨_, rfl⟩

theorem parseRepeatingSnapshotTrigger_returns : Returns (parseRepeatingSnapshotTrigger obj) := by
  rw [parseRepeatingSnapshotTrigger]
  split <;> exact ⟨_, rfl⟩

theorem getCMDType_returns_iff :
    Returns (getCMDType obj) ↔ ∀ value, obj.lookup keyCommand = some value →
      jsonKind value = .string := by
  rw [getCMDType]
  cases hlookup : obj.lookup keyCommand with
  | none => exact ⟨fun _ value h => absurd h nofun, fun _ => Returns.pure CommandType.unknown⟩
  | some value =>
      constructor
      case mp =>
        rintro ⟨type, htype⟩ found hfound
        obtain rfl := Option.some.inj hfound
        obtain ⟨cmd, hcmd, -⟩ := Failure.bind_eq_ok.1 htype
        cases value with
        | string text => rfl
        | _ => cases hcmd
      case mpr =>
        intro h
        exact .bind (valueToString_of_kind (h value rfl)) fun _ => .pure _

/-- Only the reading of the command name throws. -/
theorem parse_returns_iff :
    Returns (parse obj) ↔ ∀ value, obj.lookup keyCommand = some value →
      jsonKind value = .string := by
  rw [← getCMDType_returns_iff, parse]
  constructor
  case mp =>
    rintro ⟨result, hresult⟩
    obtain ⟨type, htype, -⟩ := Failure.bind_eq_ok.1 hresult
    exact ⟨type, htype⟩
  case mpr =>
    intro h
    refine h.bind fun type => ?_
    cases type with
    | monitor => exact parseMonitor_returns obj
    | multiMonitor => exact parseMultiMonitor_returns obj
    | get => exact parseGet_returns obj
    | put => exact parsePut_returns obj
    | info => exact parseInfo_returns obj
    | snapshot => exact parseSnapshot_returns obj
    | repeatingSnapshot => exact parseRepeatingSnapshot_returns obj
    | repeatingSnapshotStop => exact parseRepeatingSnapshotStop_returns obj
    | repeatingSnapshotTrigger => exact parseRepeatingSnapshotTrigger_returns obj
    | unknown => exact .pure none

/-! ## What a command has from its object -/

/-- The computation yields null, or a command with the base fields of the object. -/
def FromObject (result : Except Failure (Option ConstCommand)) : Prop :=
  ∀ cmd, result = .ok (some cmd) → cmd.command = command obj

theorem FromObject.null : FromObject obj (.ok none) := nofun

theorem FromObject.some {cmd : ConstCommand} (h : cmd.command = command obj) :
    FromObject obj (.ok (some cmd)) := by
  rintro found hfound
  obtain rfl := Option.some.inj (Except.ok.inj hfound)
  exact h

theorem FromObject.bind {α : Type} {first : Except Failure α}
    {rest : α → Except Failure (Option ConstCommand)} (h : ∀ value, FromObject obj (rest value)) :
    FromObject obj (first >>= rest) := by
  intro cmd hcmd
  obtain ⟨value, -, hvalue⟩ := Failure.bind_eq_ok.1 hcmd
  exact h value cmd hvalue

theorem FromObject.ite {empty : Prop} [Decidable empty] {cmd : ConstCommand}
    (h : cmd.command = command obj) :
    FromObject obj (Pure.pure (if empty then none else Option.some cmd)) := by
  split
  · exact .null obj
  · exact .some obj h

/-- Every command has the topic and the id of the reply, and the serialization, of its object. -/
theorem command_of_parse : FromObject obj (parse obj) := by
  refine .bind obj fun type => ?_
  cases type with
  | monitor =>
      simp only [parseMonitor]
      split
      · exact .null obj
      · split
        · exact .null obj
        · exact .bind obj fun _ => .some obj rfl
  | multiMonitor =>
      simp only [parseMultiMonitor]
      split
      · exact .null obj
      · exact .bind obj fun _ => .ite obj rfl
  | get =>
      simp only [parseGet]
      split
      · exact .null obj
      · exact .bind obj fun _ => .some obj rfl
  | put =>
      simp only [parsePut]
      split
      · exact .null obj
      · exact .bind obj fun _ => .bind obj fun _ => .some obj rfl
  | info =>
      simp only [parseInfo]
      split
      · exact .null obj
      · exact .bind obj fun _ => .some obj rfl
  | snapshot =>
      simp only [parseSnapshot]
      split
      · exact .null obj
      · exact .bind obj fun _ => .ite obj rfl
  | repeatingSnapshot =>
      simp only [parseRepeatingSnapshot]
      split
      · exact .null obj
      · exact .bind obj fun _ => .ite obj rfl
  | repeatingSnapshotStop =>
      simp only [parseRepeatingSnapshotStop]
      split
      · exact .null obj
      · exact .some obj rfl
  | repeatingSnapshotTrigger =>
      simp only [parseRepeatingSnapshotTrigger]
      split
      · exact .null obj
      · exact .some obj rfl
  | unknown => exact .null obj

/-! ## The error reply -/

/-- A reply of a command is serialized in the types that a command has. -/
theorem serialize_commandReply {replyId : String} (hsize : replyId.utf8ByteSize < 2 ^ 32)
    {serType : SerializationType} (htype : serType = .json ∨ serType = .msgpack) :
    ∃ message, (WorkerMessage.commandReply ⟨-1, replyId⟩).serialize serType =
      .ok (some message) := by
  rcases htype with rfl | rfl
  · exact ⟨_, rfl⟩
  · simp only [WorkerMessage.serialize, WorkerMessage.serializeMsgpack, CommandReply.pairs,
      packMessage, packPairs, packPair, packString, if_pos hsize]
    exact ⟨_, rfl⟩

end MapToCommand

namespace CMDController

open MapToCommand

variable {bjParse : String → ParsedText}

/-- The loop over a batch collects what each message leads to. -/
theorem parseBatch_from (bjParse : String → ParsedText) (batch : List String)
    (result : List ConstCommand × List (PublishMessage SerializedMessage)) :
    batch.foldl
      (fun result message =>
        (result.1 ++ (onMessage bjParse message).command.toList,
          result.2 ++ (onMessage bjParse message).replies)) result =
      (result.1 ++ batch.flatMap fun message => (onMessage bjParse message).command.toList,
        result.2 ++ batch.flatMap fun message => (onMessage bjParse message).replies) := by
  induction batch generalizing result with
  | nil => simp
  | cons message rest ih => simp [ih, List.append_assoc]

theorem parseBatch_eq (bjParse : String → ParsedText) (batch : List String) :
    parseBatch bjParse batch =
      (batch.flatMap fun message => (onMessage bjParse message).command.toList,
        batch.flatMap fun message => (onMessage bjParse message).replies) := by
  rw [parseBatch, parseBatch_from]
  rfl

/-- The object is parsed to a command or to null; null is answered with one error reply where the
topic and the id of the reply are there; and a message with the object leaves the other messages of
its batch as they are. -/
structure Answered (bjParse : String → ParsedText) (obj : CommandObject) : Prop where
  total : ∃ result, parse obj.members = .ok result
  answered : ∀ message ≠ "", bjParse message = .object obj → parse obj.members = .ok none →
    ∀ replyTopic ≠ "", obj.members.lookup keyReplyTopic = some (.string replyTopic) →
    ∀ replyId ≠ "", obj.members.lookup keyReplyId = some (.string replyId) →
      ∃ reply, (onMessage bjParse message).replies = [reply] ∧ reply.queue = replyTopic ∧
        (WorkerMessage.commandReply ⟨-1, replyId⟩).serialize
          (checkForSerialization obj.members .msgpack) = .ok (some reply.payload)
  others : ∀ before message after, bjParse message = .object obj →
    parseBatch bjParse (before ++ message :: after) =
      ((parseBatch bjParse before).1 ++ (onMessage bjParse message).command.toList ++
          (parseBatch bjParse after).1,
        (parseBatch bjParse before).2 ++ (onMessage bjParse message).replies ++
          (parseBatch bjParse after).2)

theorem checkJsonField_string {obj : JsonObject} {key text : String}
    (h : obj.lookup key = some (.string text)) :
    checkJsonField obj key valueToString "" = text := by
  rw [checkJsonField, h]
  rfl

/-- The reply id of an object is a string of the object, or empty. -/
theorem checkForReplyId_size (obj : CommandObject) :
    (checkForReplyId obj.members).utf8ByteSize < 2 ^ 32 := by
  rw [checkForReplyId, checkJsonField]
  cases hlookup : obj.members.lookup keyReplyId with
  | none => exact Nat.two_pow_pos 32
  | some value =>
      cases value with
      | string text =>
          have hle := obj.strings keyReplyId text hlookup
          exact Nat.lt_of_le_of_lt hle (by decide)
      | _ => exact Nat.two_pow_pos 32

/-- An object that is parsed to null is answered once, where it says to whom. -/
theorem replies_of_null {obj : CommandObject} {message : String} (hmessage : message ≠ "")
    (hparse : bjParse message = .object obj) (hnull : parse obj.members = .ok none)
    {replyTopic replyId : String} (htopic : replyTopic ≠ "")
    (hlookupTopic : obj.members.lookup keyReplyTopic = some (.string replyTopic))
    (hid : replyId ≠ "") (hlookupId : obj.members.lookup keyReplyId = some (.string replyId)) :
    ∃ reply, (onMessage bjParse message).replies = [reply] ∧ reply.queue = replyTopic ∧
      (WorkerMessage.commandReply ⟨-1, replyId⟩).serialize
        (checkForSerialization obj.members .msgpack) = .ok (some reply.payload) := by
  have hreply : checkForReplyId obj.members = replyId := checkJsonField_string hlookupId
  have hsize : replyId.utf8ByteSize < 2 ^ 32 := hreply ▸ checkForReplyId_size obj
  obtain ⟨serialized, hserialized⟩ :=
    serialize_commandReply hsize (checkForSerialization_mem obj.members)
  have htopicOf : checkReplyTopic obj.members = replyTopic := checkJsonField_string hlookupTopic
  have hfail : returnFailCommandParsing obj.members = .ok
      [{ queue := replyTopic, reqType := "comand-parse-error-reply"
         distributionKey := "comand-parse-error-reply", payload := serialized
         serType := serializationToString (checkForSerialization obj.members .msgpack) }] := by
    simp only [returnFailCommandParsing, hreply, htopicOf, hid, htopic, or_self, if_false,
      hserialized]
    rfl
  have honMessage : (onMessage bjParse message).replies =
      [{ queue := replyTopic, reqType := "comand-parse-error-reply"
         distributionKey := "comand-parse-error-reply", payload := serialized
         serType := serializationToString (checkForSerialization obj.members .msgpack) }] := by
    rw [onMessage, if_neg hmessage, hparse]
    simp only [onObject, hnull, hfail]
  exact ⟨_, honMessage, rfl, hserialized⟩

/-- Every object is parsed or answered if and only if its command, where there is one, is a
string. -/
theorem answered_iff (bjParse : String → ParsedText) (obj : CommandObject) :
    Answered bjParse obj ↔
      ∀ value, obj.members.lookup keyCommand = some value → jsonKind value = .string := by
  constructor
  case mp => exact fun h => (parse_returns_iff obj.members).1 h.total
  case mpr =>
    intro h
    exact {
      total := (parse_returns_iff obj.members).2 h
      answered := fun message hmessage hparse hnull replyTopic htopic hlookupTopic replyId hid
          hlookupId => replies_of_null hmessage hparse hnull htopic hlookupTopic hid hlookupId
      others := by
        intro before message after _
        simp [parseBatch_eq] }

/-- `{"command": 5, "reply_topic": "t", "reply_id": "r"}` -/
def numberedCommand : CommandObject where
  members := [(keyCommand, .int 5), (keyReplyTopic, .string "t"), (keyReplyId, .string "r")]
  keys_nodup := by decide
  strings := by
    intro key text h
    have hmem := mem_of_lookup h
    simp only [List.mem_cons, Prod.mk.injEq, reduceCtorEq, and_false, Json.string.injEq,
      List.not_mem_nil, or_false, false_or] at hmem
    rcases hmem with ⟨-, rfl⟩ | ⟨-, rfl⟩ <;> decide

/-- The object whose command is a number is not parsed, and nothing is sent to its client. -/
theorem not_answered_number :
    ¬ Answered (fun _ => .object numberedCommand) numberedCommand ∧
      (onMessage (fun _ => .object numberedCommand) "{}").replies = [] := by
  have hthrown : parse numberedCommand.members = .error .thrown := rfl
  refine ⟨fun h => ?_, ?_⟩
  · obtain ⟨result, hresult⟩ := h.total
    rw [hthrown] at hresult
    cases hresult
  · rw [onMessage, if_neg (by decide)]
    simp only [onObject, hthrown]

end CMDController

end K2eg
