import K2eg.Model.EpicsData
import Mathlib.Data.List.Nodup
import Mathlib.Data.String.Basic

/-! # Repeating snapshot commands, replies and messages -/

namespace K2eg

/-- `SnapshotType`. -/
inductive SnapshotType where
  | unknown | normal | timedBuffered
  deriving DecidableEq, Repr

theorem msgpack_serializable :
    SerializationType.msgpack = .json ∨ SerializationType.msgpack = .msgpack := .inr rfl

/-- `Command`: `check_for_serialization` reads JSON or Msgpack. -/
structure Command where
  serialization : SerializationType := .msgpack
  serializable : serialization = .json ∨ serialization = .msgpack := by
    first | exact msgpack_serializable | decide
  replyTopic : String
  replyId : String

/-- `RepeatingSnapshotCommand`; the PV names and the field names are unordered sets. -/
structure RepeatingSnapshotCommand extends Command where
  snapshotName : String
  pvNameList : List String
  pvNameList_nodup : pvNameList.Nodup := by
    first | exact List.nodup_nil | exact List.nodup_singleton _ | decide
  repeatDelayMsec : Int := 0
  timeWindowMsec : Int := 0
  subPushDelayMsec : Int := 0
  triggered : Bool := false
  type : SnapshotType := .normal
  pvFieldFilterList : List String := []
  pvFieldFilterList_nodup : pvFieldFilterList.Nodup := by
    first | exact List.nodup_nil | exact List.nodup_singleton _ | decide

instance : Inhabited RepeatingSnapshotCommand :=
  ⟨{ replyTopic := "", replyId := "", snapshotName := "", pvNameList := [] }⟩

/-- `RepeatingSnapshotStopCommand`. -/
structure RepeatingSnapshotStopCommand extends Command where
  snapshotName : String

/-- `RepeatingSnapshotTriggerCommand`. -/
structure RepeatingSnapshotTriggerCommand extends Command where
  snapshotName : String

/-- `GET_QUEUE_FROM_SNAPSHOT_NAME`: every byte that is no ASCII letter, digit or dash becomes
an underscore, and letters become lower case. -/
def getQueueFromSnapshotName (snapshotName : String) : String :=
  String.ofList (snapshotName.toList.flatMap fun c =>
    if c.isAlphanum || c == '-' then [c.toLower] else List.replicate c.utf8Size '_')

example : getQueueFromSnapshotName "Beam Loss-1" = "beam_loss-1" := by decide

/-- `ContinuousSnapshotCommandReply`. -/
structure ContinuousSnapshotCommandReply where
  error : Int
  replyId : String
  message : String
  publishingTopic : String
  deriving DecidableEq, Repr

/-- The reply that `manageReply` pushes to the reply topic of the command. -/
def manageReply (error : Int) (message : String) (cmd : Command) (publishingTopic : String) :
    PublishMessage ContinuousSnapshotCommandReply where
  queue := cmd.replyTopic
  reqType := "repeating-snapshot-events"
  distributionKey := "repeating-snapshot-events"
  payload := { error, replyId := cmd.replyId, message, publishingTopic }
  serType := serializationToString cmd.serialization

/-- The messages of a snapshot: `RepeatingSnapshotHeader`, `RepeatingSnapshotData` and
`RepeatingSnapshotCompletion`. -/
inductive SnapshotMessage (V : Type*) where
  | header (snapshotName : String) (iterationId : ℕ)
  | data (iterationId : ℕ) (channelData : ChannelData V)
  | completion (error : Int) (errorMessage snapshotName : String) (iterationId : ℕ)
  deriving DecidableEq

namespace SnapshotMessage

variable {V : Type*}

def iterationId : SnapshotMessage V → ℕ
  | .header _ iterationId => iterationId
  | .data iterationId _ => iterationId
  | .completion _ _ _ iterationId => iterationId

def isTail : SnapshotMessage V → Bool
  | .completion .. => true
  | _ => false

end SnapshotMessage

end K2eg
