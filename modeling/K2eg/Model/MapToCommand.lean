import K2eg.Model.JsonSerialization
import K2eg.Model.SnapshotCommand
import K2eg.Model.WorkerMessages
import Mathlib.Data.List.Dedup

/-! # Parsing of the commands

`MapToCommand`: the JSON object of a message becomes a command. What `value_to`, `as_string` and
`any_cast` throw on a value of another kind is `Failure.thrown`. -/

namespace K2eg

/-- `boost::json::kind` -/
inductive JsonKind where
  | null | bool | int64 | uint64 | double | string | array | object
  deriving DecidableEq, Repr

/-- The kind that the JSON parser gives to a value. -/
def jsonKind : Json → JsonKind
  | .null => .null
  | .bool _ => .bool
  | .int value => if -2 ^ 63 ≤ value ∧ value < 2 ^ 63 then .int64 else .uint64
  | .double _ => .double
  | .string _ => .string
  | .array _ => .array
  | .object _ => .object

/-- An object that a message holds: its keys differ, and its strings have at most
`string::max_size()` bytes. -/
structure CommandObject where
  members : JsonObject
  keys_nodup : (members.map Prod.fst).Nodup
  strings : ∀ key text, members.lookup key = some (.string text) →
    text.utf8ByteSize ≤ 0x7ffffffe

/-- `CommandType` -/
inductive CommandType where
  | monitor | multiMonitor | get | put | info | snapshot
  | repeatingSnapshot | repeatingSnapshotStop | repeatingSnapshotTrigger | unknown
  deriving DecidableEq, Repr

structure MonitorCommand extends Command where
  pvName : String
  monitorDestinationTopic : String

structure MultiMonitorCommand extends Command where
  pvNameList : List String

structure GetCommand extends Command where
  pvName : String

structure PutCommand extends Command where
  pvName : String
  value : String

structure InfoCommand extends Command where
  pvName : String

structure SnapshotCommand extends Command where
  pvNameList : List String
  timeWindowMsec : Int

/-- What a `ConstCommandShrdPtr` points to. A trigger has its tags beside it. -/
inductive ConstCommand where
  | monitor (cmd : MonitorCommand)
  | multiMonitor (cmd : MultiMonitorCommand)
  | get (cmd : GetCommand)
  | put (cmd : PutCommand)
  | info (cmd : InfoCommand)
  | snapshot (cmd : SnapshotCommand)
  | repeatingSnapshot (cmd : RepeatingSnapshotCommand)
  | repeatingSnapshotStop (cmd : RepeatingSnapshotStopCommand)
  | repeatingSnapshotTrigger (cmd : RepeatingSnapshotTriggerCommand)
      (triggerTag : List (String × String))

/-- The fields of the base class. -/
def ConstCommand.command : ConstCommand → Command
  | monitor cmd => cmd.toCommand
  | multiMonitor cmd => cmd.toCommand
  | get cmd => cmd.toCommand
  | put cmd => cmd.toCommand
  | info cmd => cmd.toCommand
  | snapshot cmd => cmd.toCommand
  | repeatingSnapshot cmd => cmd.toCommand
  | repeatingSnapshotStop cmd => cmd.toCommand
  | repeatingSnapshotTrigger cmd _ => cmd.toCommand

def keyCommand : String := "command"
def keySerialization : String := "serialization"
def keyType : String := "type"
def keyPvName : String := "pv_name"
def keyPvNameList : String := "pv_name_list"
def keyPvFieldFilterList : String := "pv_field_filter_list"
def keyReplyTopic : String := "reply_topic"
def keyMonitorDestTopic : String := "monitor_dest_topic"
def keyValue : String := "value"
def keySnapshotName : String := "snapshot_name"
def keyRepeatDelayMsec : String := "repeat_delay_msec"
def keyTimeWindowMsec : String := "time_window_msec"
def keyTriggered : String := "triggered"
def ketTags : String := "tags"
def keySubPushDelayMsec : String := "sub_push_delay_msec"

/-- `c_str()`, read up to the first null character. -/
def cString (text : String) : String := String.ofList (text.toList.takeWhile (· ≠ '\x00'))

/-- `snapshot_type_from_string` -/
def snapshotTypeFromString (st : String) : SnapshotType :=
  if st.map Char.toLower = "normal" then .normal
  else if st.map Char.toLower = "timedbuffered" then .timedBuffered
  else .unknown

/-! ## Values of a type -/

/-- `value_to<std::string>` -/
def valueToString : Json → Except Failure String
  | .string value => .ok value
  | _ => .error .thrown

/-- `value_to<bool>` -/
def valueToBool : Json → Except Failure Bool
  | .bool value => .ok value
  | _ => .error .thrown

/-- `value_to<boost::json::array>` -/
def valueToArray : Json → Except Failure (List Json)
  | .array items => .ok items
  | _ => .error .thrown

/-- `value_to<int32_t>`: a number of any kind that is exactly one of the type. -/
def valueToInt32 : Json → Except Failure Int
  | .int value => if -2 ^ 31 ≤ value ∧ value < 2 ^ 31 then .ok value else .error .thrown
  | .double value =>
    if -2147483648.0 ≤ value && value ≤ 2147483647.0 && value.toInt32.toFloat == value then
      .ok value.toInt32.toInt
    else .error .thrown
  | _ => .error .thrown

/-- `check_json_field`: an exception leaves the default value. -/
def checkJsonField {T : Type} (obj : JsonObject) (key : String) (valueTo : Json → Except Failure T)
    (defaultValue : T) : T :=
  match obj.lookup key with
  | none => defaultValue
  | some value =>
    match valueTo value with
    | .ok result => result
    | .error _ => defaultValue

/-- `check_json_field_for_map`: the members of the object that are strings. -/
def checkJsonFieldForMap (obj : JsonObject) (key : String) : List (String × String) :=
  match obj.lookup key with
  | some (.object members) =>
    members.filterMap fun member =>
      match member.2 with
      | .string text => some (member.1, cString text)
      | _ => none
  | _ => []

def checkReplyTopic (obj : JsonObject) : String :=
  checkJsonField obj keyReplyTopic valueToString ""

def checkForReplyId (obj : JsonObject) : String :=
  checkJsonField obj keyReplyId valueToString ""

def checkForSerialization (obj : JsonObject) (defaultType : SerializationType) :
    SerializationType :=
  match obj.lookup keySerialization with
  | some (.string text) =>
    if text.map Char.toLower = "msgpack" then .msgpack
    else if text.map Char.toLower = "json" then .json
    else defaultType
  | _ => defaultType

theorem checkForSerialization_mem (obj : JsonObject) :
    checkForSerialization obj .msgpack = .json ∨ checkForSerialization obj .msgpack = .msgpack := by
  rw [checkForSerialization]
  split
  · split
    · exact .inr rfl
    · split
      · exact .inl rfl
      · exact .inr rfl
  · exact .inr rfl

/-- The strings of an array, as an unordered set. -/
def stringSet (items : List Json) : List String :=
  (items.filterMap fun
    | .string text => some text
    | _ => none).dedup

namespace MapToCommand

/-- `getCMDType`: `as_string` throws on a member of another kind. -/
def getCMDType (obj : JsonObject) : Except Failure CommandType :=
  match obj.lookup keyCommand with
  | none => .ok .unknown
  | some value => do
    let cmd ← valueToString value
    return match cmd with
      | "monitor" => .monitor
      | "multi-monitor" => .multiMonitor
      | "get" => .get
      | "put" => .put
      | "info" => .info
      | "snapshot" => .snapshot
      | "repeating_snapshot" => .repeatingSnapshot
      | "repeating_snapshot_stop" => .repeatingSnapshotStop
      | "repeating_snapshot_trigger" => .repeatingSnapshotTrigger
      | _ => .unknown

/-- The fields that are there with their kind; null and objects are never taken. -/
def foundFields (obj : JsonObject) (requiredFields : List (String × JsonKind)) : JsonObject :=
  requiredFields.filterMap fun field =>
    match obj.lookup field.1 with
    | none => none
    | some value =>
      if jsonKind value = field.2 ∧ field.2 ≠ .null ∧ field.2 ≠ .object then some (field.1, value)
      else none

/-- `checkFields`: null unless all fields are there. -/
def checkFields (obj : JsonObject) (requiredFields : List (String × JsonKind)) :
    Option JsonObject :=
  if requiredFields.length = (foundFields obj requiredFields).length then
    some (foundFields obj requiredFields)
  else none

/-- `std::any_cast<T>(fields->find(key)->second)`. -/
def anyCast {T : Type} (fields : JsonObject) (key : String) (valueTo : Json → Except Failure T) :
    Except Failure T :=
  match fields.lookup key with
  | none => .error .undefined
  | some value => valueTo value

/-- The fields of `Command` from the object. -/
def command (obj : JsonObject) : Command where
  serialization := checkForSerialization obj .msgpack
  serializable := checkForSerialization_mem obj
  replyTopic := checkReplyTopic obj
  replyId := checkForReplyId obj

/-- The topic of the events of a monitor: by default the reply topic. -/
def eventDestinationTopic (obj : JsonObject) : String :=
  match obj.lookup keyMonitorDestTopic with
  | some (.string topic) => topic
  | _ => checkReplyTopic obj

def parseMonitor (obj : JsonObject) : Except Failure (Option ConstCommand) :=
  if eventDestinationTopic obj = "" then .ok none
  else
    match checkFields obj [(keyPvName, .string)] with
    | none => .ok none
    | some fields => do
      let pvName ← anyCast fields keyPvName valueToString
      return some (.monitor { command obj with
        pvName, monitorDestinationTopic := eventDestinationTopic obj })

def parseMultiMonitor (obj : JsonObject) : Except Failure (Option ConstCommand) :=
  match checkFields obj [(keyPvNameList, .array)] with
  | none => .ok none
  | some fields => do
    let jsonArray ← anyCast fields keyPvNameList valueToArray
    return if stringSet jsonArray = [] then none
      else some (.multiMonitor { command obj with pvNameList := stringSet jsonArray })

def parseGet (obj : JsonObject) : Except Failure (Option ConstCommand) :=
  match checkFields obj [(keyPvName, .string), (keyReplyTopic, .string)] with
  | none => .ok none
  | some fields => do
    let pvName ← anyCast fields keyPvName valueToString
    return some (.get { command obj with pvName })

def parsePut (obj : JsonObject) : Except Failure (Option ConstCommand) :=
  match checkFields obj [(keyPvName, .string), (keyValue, .string)] with
  | none => .ok none
  | some fields => do
    let pvName ← anyCast fields keyPvName valueToString
    let value ← anyCast fields keyValue valueToString
    return some (.put { command obj with pvName, value })

def parseInfo (obj : JsonObject) : Except Failure (Option ConstCommand) :=
  match checkFields obj [(keyPvName, .string), (keyReplyTopic, .string)] with
  | none => .ok none
  | some fields => do
    let pvName ← anyCast fields keyPvName valueToString
    return some (.info { command obj with pvName })

def parseSnapshot (obj : JsonObject) : Except Failure (Option ConstCommand) :=
  match checkFields obj
      [(keyPvNameList, .array), (keyReplyTopic, .string), (keyReplyId, .string)] with
  | none => .ok none
  | some fields => do
    let timeWindowMsec := checkJsonField obj keyTimeWindowMsec valueToInt32 1000
    let jsonArray ← anyCast fields keyPvNameList valueToArray
    return if stringSet jsonArray = [] then none
      else some (.snapshot { command obj with pvNameList := stringSet jsonArray, timeWindowMsec })

def parseRepeatingSnapshot (obj : JsonObject) : Except Failure (Option ConstCommand) :=
  match checkFields obj
      [(keyPvNameList, .array), (keyReplyTopic, .string), (keyReplyId, .string)] with
  | none => .ok none
  | some fields => do
    let typeName := checkJsonField obj keyType valueToString "normal"
    let jsonArray ← anyCast fields keyPvNameList valueToArray
    let jsonArrayFieldFilter := checkJsonField obj keyPvFieldFilterList valueToArray []
    return if stringSet jsonArray = [] then none
      else some (.repeatingSnapshot { command obj with
        snapshotName := checkJsonField obj keySnapshotName valueToString ""
        pvNameList := stringSet jsonArray
        pvNameList_nodup := List.nodup_dedup _
        repeatDelayMsec := checkJsonField obj keyRepeatDelayMsec valueToInt32 0
        timeWindowMsec := checkJsonField obj keyTimeWindowMsec valueToInt32 1000
        subPushDelayMsec := checkJsonField obj keySubPushDelayMsec valueToInt32 0
        triggered := checkJsonField obj keyTriggered valueToBool false
        type := snapshotTypeFromString (cString typeName)
        pvFieldFilterList := stringSet jsonArrayFieldFilter
        pvFieldFilterList_nodup := List.nodup_dedup _ })

def parseRepeatingSnapshotStop (obj : JsonObject) : Except Failure (Option ConstCommand) :=
  match checkFields obj [(keyReplyTopic, .string), (keyReplyId, .string)] with
  | none => .ok none
  | some _ =>
    .ok (some (.repeatingSnapshotStop { command obj with
      snapshotName := checkJsonField obj keySnapshotName valueToString "" }))

def parseRepeatingSnapshotTrigger (obj : JsonObject) : Except Failure (Option ConstCommand) :=
  match checkFields obj [(keyReplyTopic, .string), (keyReplyId, .string)] with
  | none => .ok none
  | some _ =>
    .ok (some (.repeatingSnapshotTrigger
      { command obj with snapshotName := checkJsonField obj keySnapshotName valueToString "" }
      (checkJsonFieldForMap obj ketTags)))

/-- `parse`: a command, or the null pointer. -/
def parse (obj : JsonObject) : Except Failure (Option ConstCommand) := do
  match ← getCMDType obj with
  | .monitor => parseMonitor obj
  | .multiMonitor => parseMultiMonitor obj
  | .get => parseGet obj
  | .put => parsePut obj
  | .info => parseInfo obj
  | .snapshot => parseSnapshot obj
  | .repeatingSnapshot => parseRepeatingSnapshot obj
  | .repeatingSnapshotStop => parseRepeatingSnapshotStop obj
  | .repeatingSnapshotTrigger => parseRepeatingSnapshotTrigger obj
  | .unknown => return none

/-- `returnFailCommandParsing`: the messages that it pushes. -/
def returnFailCommandParsing (obj : JsonObject) :
    Except Failure (List (PublishMessage SerializedMessage)) :=
  let replyId := checkForReplyId obj
  let replyTopic := checkReplyTopic obj
  let serType := checkForSerialization obj .msgpack
  if replyId = "" ∨ replyTopic = "" then .ok []
  else do
    let serializedMessage ← (WorkerMessage.commandReply ⟨-1, replyId⟩).serialize serType
    return (replyPushableMessage replyTopic "comand-parse-error-reply" "comand-parse-error-reply"
      serializedMessage (serializationToString serType)).toList

end MapToCommand

end K2eg
