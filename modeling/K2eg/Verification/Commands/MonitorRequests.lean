import K2eg.Verification.Commands.Parsing

/-! # The documented monitor request

The grammar of the message format document, and what `parse` makes of its requests: the topic of
the events is looked for under another name, and a list of PVs under another name and another
command. -/

namespace K2eg

/-- `"json|msgpack"` -/
inductive RequestSerialization where
  | json | msgpack
  deriving DecidableEq, Repr

namespace RequestSerialization

def text : RequestSerialization → String
  | json => "json"
  | msgpack => "msgpack"

def type : RequestSerialization → SerializationType
  | json => .json
  | msgpack => .msgpack

/-- The texts are compared without case, and have none but small letters. -/
theorem text_toLower (serialization : RequestSerialization) :
    serialization.text.map Char.toLower = serialization.text := by
  apply String.toList_injective
  rw [String.toList_map]
  cases serialization <;> decide

end RequestSerialization

/-- The member `pv_name`: a PV, or a list of PVs that is not empty. -/
inductive RequestPvName where
  | single (pvName : String)
  | list (first : String) (rest : List String)
  deriving DecidableEq, Repr

namespace RequestPvName

def pvNames : RequestPvName → List String
  | single pvName => [pvName]
  | list first rest => first :: rest

def json : RequestPvName → Json
  | single pvName => .string pvName
  | list first rest => .array ((first :: rest).map .string)

end RequestPvName

/-- A request of the document. One of its members names the topic of the events. -/
structure MonitorCommandRequest where
  pvName : RequestPvName
  monitorDestinationTopic : Option String := none
  replyTopic : Option String := none
  replyId : Option String := none
  serialization : Option RequestSerialization := none
  namesTopic : monitorDestinationTopic.getD (replyTopic.getD "") ≠ ""

/-- The member as the document names it. -/
def keyMonitorDestinationTopic : String := "monitor_destination_topic"

namespace MonitorCommandRequest

variable (request : MonitorCommandRequest)

/-- `monitor_destination_topic`; if it is omitted, `reply_topic`. -/
def destination : String := request.monitorDestinationTopic.getD (request.replyTopic.getD "")

/-- A member that may be absent. -/
def optionalMember (key : String) (text : Option String) : JsonObject :=
  (text.map fun text => (key, Json.string text)).toList

def members : JsonObject :=
  [(keyCommand, .string "monitor"), (keyPvName, request.pvName.json)] ++
    optionalMember keySerialization (request.serialization.map RequestSerialization.text) ++
    optionalMember keyReplyTopic request.replyTopic ++
    optionalMember keyReplyId request.replyId ++
    optionalMember keyMonitorDestinationTopic request.monitorDestinationTopic

/-- The object has the members of the request, in any order, and no others. -/
def WrittenAs (obj : JsonObject) : Prop :=
  ∀ key, obj.lookup key = request.members.lookup key

theorem lookup_optionalMember (key other : String) (text : Option String) :
    (optionalMember key text).lookup other = if other = key then text.map .string else none := by
  cases text with
  | none => exact (ite_self none).symm
  | some text =>
      by_cases hkey : other = key
      · subst hkey
        simp [optionalMember]
      · simp [optionalMember, hkey]

/-- The members of the names that are not the command or the PV. -/
theorem members_lookup {key : String} (hcommand : key ≠ keyCommand) (hpvName : key ≠ keyPvName) :
    request.members.lookup key =
      ((((if key = keySerialization then
              (request.serialization.map RequestSerialization.text).map Json.string else none).or
            (if key = keyReplyTopic then request.replyTopic.map .string else none)).or
          (if key = keyReplyId then request.replyId.map .string else none)).or
        (if key = keyMonitorDestinationTopic then
          request.monitorDestinationTopic.map .string else none)) := by
  have hfirst : List.lookup key [(keyCommand, Json.string "monitor"),
      (keyPvName, request.pvName.json)] = none := by
    simp [List.lookup_cons, beq_eq_false_iff_ne.2 hcommand, beq_eq_false_iff_ne.2 hpvName]
  simp only [members, List.lookup_append, hfirst, lookup_optionalMember, Option.none_or]

end MonitorCommandRequest

namespace ConstCommand

/-- The PVs that a command asks to monitor. -/
def monitoredPvs : ConstCommand → List String
  | monitor cmd => [cmd.pvName]
  | multiMonitor cmd => cmd.pvNameList
  | _ => []

/-- The topic that a command names for the events. A multi monitor names none. -/
def eventTopic : ConstCommand → Option String
  | monitor cmd => some cmd.monitorDestinationTopic
  | _ => none

end ConstCommand

/-- The command is the one that the document describes for the request. -/
structure MonitorCommandRequest.Means (request : MonitorCommandRequest) (cmd : ConstCommand) :
    Prop where
  pvNames : ∀ pvName, pvName ∈ cmd.monitoredPvs ↔ pvName ∈ request.pvName.pvNames
  destination : cmd.eventTopic = some request.destination
  replyTopic : cmd.command.replyTopic = request.replyTopic.getD ""
  replyId : cmd.command.replyId = request.replyId.getD ""
  serialization : cmd.command.serialization =
    (request.serialization.map RequestSerialization.type).getD .msgpack

namespace MapToCommand

/-! ## The members that are read -/

section Lookups

variable {request : MonitorCommandRequest} {obj : JsonObject} (h : request.WrittenAs obj)
include h

theorem lookup_command : obj.lookup keyCommand = some (.string "monitor") := by
  rw [h]
  rfl

theorem lookup_pvName : obj.lookup keyPvName = some request.pvName.json := by
  rw [h]
  rfl

theorem lookup_serialization :
    obj.lookup keySerialization =
      (request.serialization.map RequestSerialization.text).map .string := by
  rw [h, request.members_lookup (by decide) (by decide)]
  simp [keySerialization, keyReplyTopic, keyReplyId, keyMonitorDestinationTopic]

theorem lookup_replyTopic : obj.lookup keyReplyTopic = request.replyTopic.map .string := by
  rw [h, request.members_lookup (by decide) (by decide)]
  simp [keySerialization, keyReplyTopic, keyReplyId, keyMonitorDestinationTopic]

theorem lookup_replyId : obj.lookup keyReplyId = request.replyId.map .string := by
  rw [h, request.members_lookup (by decide) (by decide)]
  simp [keySerialization, keyReplyTopic, keyReplyId, keyMonitorDestinationTopic]

/-- The parser looks for the topic of the events under a name that the document does not have. -/
theorem lookup_monitorDestTopic : obj.lookup keyMonitorDestTopic = none := by
  rw [h, request.members_lookup (by decide) (by decide)]
  simp [keyMonitorDestTopic, keySerialization, keyReplyTopic, keyReplyId,
    keyMonitorDestinationTopic]

/-! ## The fields of the command -/

theorem checkReplyTopic_eq : checkReplyTopic obj = request.replyTopic.getD "" := by
  rw [checkReplyTopic, checkJsonField, lookup_replyTopic h]
  cases request.replyTopic <;> rfl

theorem checkForReplyId_eq : checkForReplyId obj = request.replyId.getD "" := by
  rw [checkForReplyId, checkJsonField, lookup_replyId h]
  cases request.replyId <;> rfl

theorem checkForSerialization_eq :
    checkForSerialization obj .msgpack =
      (request.serialization.map RequestSerialization.type).getD .msgpack := by
  rw [checkForSerialization, lookup_serialization h]
  cases request.serialization with
  | none => rfl
  | some serialization =>
      simp only [Option.map_some, Option.getD_some, serialization.text_toLower]
      cases serialization <;> rfl

theorem eventDestinationTopic_eq : eventDestinationTopic obj = request.replyTopic.getD "" := by
  rw [eventDestinationTopic, lookup_monitorDestTopic h]
  exact checkReplyTopic_eq h

theorem parse_eq_parseMonitor : parse obj = parseMonitor obj := by
  have htype : getCMDType obj = .ok .monitor := by
    rw [getCMDType, lookup_command h]
    rfl
  rw [parse, htype]
  rfl

/-- Without a reply topic the request is rejected, also where it names another topic. -/
theorem parse_of_no_replyTopic (htopic : request.replyTopic.getD "" = "") :
    parse obj = .ok none := by
  rw [parse_eq_parseMonitor h, parseMonitor, eventDestinationTopic_eq h, if_pos htopic]

/-- A list of PVs is rejected. -/
theorem parse_of_list {first : String} {rest : List String}
    (hlist : request.pvName = .list first rest) : parse obj = .ok none := by
  have hfields : checkFields obj [(keyPvName, .string)] = none := by
    simp [checkFields, foundFields, lookup_pvName h, hlist, RequestPvName.json, jsonKind]
  rw [parse_eq_parseMonitor h, parseMonitor, hfields]
  split <;> rfl

/-- A single PV is monitored, with its events on the reply topic. -/
theorem parse_of_single {pvName : String} (hsingle : request.pvName = .single pvName)
    (htopic : request.replyTopic.getD "" ≠ "") :
    parse obj = .ok (some (.monitor { command obj with
      pvName, monitorDestinationTopic := request.replyTopic.getD "" })) := by
  have hfields : checkFields obj [(keyPvName, .string)] =
      some [(keyPvName, .string pvName)] := by
    simp [checkFields, foundFields, lookup_pvName h, hsingle, RequestPvName.json, jsonKind]
  rw [parse_eq_parseMonitor h, parseMonitor, hfields]
  simp only [eventDestinationTopic_eq h, if_neg htopic]
  rfl

end Lookups

/-- The request is parsed to the command that the document describes. -/
def ParsesAs (obj : JsonObject) (request : MonitorCommandRequest) : Prop :=
  ∃ cmd, parse obj = .ok (some cmd) ∧ request.Means cmd

/-- The documented requests that are parsed as documented: one PV, and no topic of the events
besides the reply topic. -/
theorem parsesAs_iff {request : MonitorCommandRequest} {obj : JsonObject}
    (h : request.WrittenAs obj) :
    ParsesAs obj request ↔
      (∃ pvName, request.pvName = .single pvName) ∧
        (request.monitorDestinationTopic = none ∨
          request.monitorDestinationTopic = request.replyTopic) := by
  constructor
  case mp =>
    rintro ⟨cmd, hcmd, hmeans⟩
    cases hpv : request.pvName with
    | list first rest =>
        rw [parse_of_list h hpv] at hcmd
        cases hcmd
    | single pvName =>
        refine ⟨⟨pvName, rfl⟩, ?_⟩
        by_cases htopic : request.replyTopic.getD "" = ""
        · rw [parse_of_no_replyTopic h htopic] at hcmd
          cases hcmd
        · rw [parse_of_single h hpv htopic] at hcmd
          obtain rfl := Option.some.inj (Except.ok.inj hcmd)
          have hdestination := Option.some.inj hmeans.destination
          rw [MonitorCommandRequest.destination] at hdestination
          cases htopics : request.monitorDestinationTopic with
          | none => exact .inl rfl
          | some topic =>
              rw [htopics, Option.getD_some] at hdestination
              cases hreply : request.replyTopic with
              | none => exact absurd (by rw [hreply]; rfl) htopic
              | some replyTopic =>
                  rw [hreply, Option.getD_some] at hdestination
                  exact .inr (congrArg some hdestination.symm)
  case mpr =>
    rintro ⟨⟨pvName, hpv⟩, htopics⟩
    have hdestination : request.destination = request.replyTopic.getD "" := by
      rw [MonitorCommandRequest.destination]
      rcases htopics with hnone | hsame
      · rw [hnone, Option.getD_none]
      · rw [hsame]
        cases request.replyTopic <;> rfl
    have htopic : request.replyTopic.getD "" ≠ "" := hdestination ▸ request.namesTopic
    refine ⟨_, parse_of_single h hpv htopic, ?_⟩
    exact {
      pvNames := fun name => by rw [hpv]; rfl
      destination := congrArg some hdestination.symm
      replyTopic := checkReplyTopic_eq h
      replyId := checkForReplyId_eq h
      serialization := checkForSerialization_eq h }

/-- A request for the events of one PV on the topic `"events"`. -/
def eventsRequest : MonitorCommandRequest where
  pvName := .single "pva://channel:a"
  monitorDestinationTopic := some "events"
  replyTopic := some "replies"
  namesTopic := by decide

/-- The same events on the reply topic. -/
def repliesRequest : MonitorCommandRequest where
  pvName := .single "pva://channel:a"
  replyTopic := some "replies"
  serialization := some .json
  namesTopic := by decide

theorem parsesAs_repliesRequest : ParsesAs repliesRequest.members repliesRequest :=
  (parsesAs_iff fun _ => rfl).2 ⟨⟨_, rfl⟩, .inl rfl⟩

/-- The member `monitor_destination_topic` is ignored, and a list of PVs is not understood. -/
theorem not_parsesAs_eventsRequest :
    ¬ ParsesAs eventsRequest.members eventsRequest ∧
      parse ({ eventsRequest with pvName := .list "pva://a" ["pva://b"] }).members =
        .ok none := by
  refine ⟨?_, rfl⟩
  rintro ⟨cmd, hcmd, hmeans⟩
  have hparse : parse eventsRequest.members = .ok (some (.monitor
      { command eventsRequest.members with
        pvName := "pva://channel:a", monitorDestinationTopic := "replies" })) := rfl
  rw [hparse] at hcmd
  obtain rfl := Option.some.inj (Except.ok.inj hcmd)
  have hdestination := hmeans.destination
  revert hdestination
  decide

end MapToCommand

end K2eg
