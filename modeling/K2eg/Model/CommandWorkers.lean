import K2eg.Model.MapToCommand
import K2eg.Model.MonitorOperation
import K2eg.Model.PVName

/-! # The put and the get worker

`PutCommandWorker` and `GetCommandWorker`: an EPICS operation is started, and a task of the pool
that submits itself again looks at it until it is done or the time is over. Times are
nanoseconds of the steady clock. -/

namespace K2eg

open Msgpack (Object)

/-! ## Replies -/

/-- `PutCommandReply`; `GetFaultyCommandReply` has the same serializers. -/
structure PutCommandReply extends CommandReply where
  message : String

structure GetCommandReply extends CommandReply where
  pvData : ChannelData PVStructure

/-- `serialize(reply, type)` of a reply with these pairs. -/
def serializePairs (pairs : List MessagePair) (size : ℕ) :
    SerializationType → Except Failure (Option SerializedMessage)
  | .unknown => .ok none
  | .json => do
    let object ← assignPairs [] pairs
    return some (.json object)
  | .msgpack => do
    let tokens ← packMessage MsgPackSerializer.serializeInto (size, pairs)
    return some (.msgpack tokens)
  | .msgpackCompact => do
    let tokens ← packMessage MsgpackCompactSerializer.serializeInto (size, pairs)
    return some (.msgpack tokens)

def PutCommandReply.serialize (reply : PutCommandReply) :
    SerializationType → Except Failure (Option SerializedMessage) :=
  serializePairs (reply.pairs ++ optionalText "message" reply.message)
    (optionalSize reply.message + 2)

def GetCommandReply.serialize (reply : GetCommandReply) :
    SerializationType → Except Failure (Option SerializedMessage) :=
  serializePairs (reply.pairs ++ [.pvData reply.pvData]) 3

/-! ## Payloads -/

/-- `boost::beast::detail::base64`. -/
structure Base64Codec where
  decodedSize : ℕ → ℕ
  decode : String → List UInt8

def isValidBase64Char (c : Char) : Bool :=
  c.isAlphanum || c == '+' || c == '/' || c == '='

/-- `Base64::decode`: the bytes are written into a vector of the decoded size. -/
def base64Decode (codec : Base64Codec) (encoded : String) : Except Failure (List UInt8) :=
  if encoded = "" then .ok []
  else if !encoded.toList.all isValidBase64Char then .ok []
  else if codec.decodedSize encoded.utf8ByteSize = 0 then .ok []
  else if codec.decodedSize encoded.utf8ByteSize < (codec.decode encoded).length then
    .error .undefined
  else .ok (codec.decode encoded)

/-- `boost::beast::detail::base64` with its encoder. -/
structure Base64Library extends Base64Codec where
  encodedSize : ℕ → ℕ
  encode : List UInt8 → String

/-- `Base64::encode`: the text is written into a string of the encoded size. -/
def base64Encode (library : Base64Library) (data : List UInt8) : Except Failure String :=
  if data = [] then .ok ""
  else if library.encodedSize data.length < (library.encode data).utf8ByteSize then
    .error .undefined
  else .ok (library.encode data)

/-- `unpack_msgpack_object`: the pointer is not null; `unpack` is `msgpack::unpack`. -/
def unpackMsgpackObject (unpack : List UInt8 → Except Failure Object) (data : List UInt8) :
    Except Failure (Option Object) := do
  let object ← unpack data
  return some object

/-! ## Operations -/

/-- `event_t` of a `PutEvent` or a `GetEvent`. -/
inductive OperationEvent where
  | fail | cancel | success
  deriving DecidableEq, Repr

/-- `PutEvent` and `GetEvent`; a put has no value. -/
structure OperationState where
  event : OperationEvent := .fail
  message : String := ""
  message_size : message.utf8ByteSize < 2 ^ 32 := by decide
  value : Option PVStructure := none

/-- What EPICS tells a single operation. -/
inductive OperationNotice where
  | done (state : OperationState)
  | connect (connected : Bool)

/-- `PutOperation`, and `SingleGetOperation`. -/
structure SingleOperation where
  pvName : String
  requestedFields : List String := []
  evt : OperationState := {}
  isDone : Bool := false

namespace SingleOperation

/-- `putDone` or `getDone`, and `connectEvent`: a connection starts the request. -/
def notify (op : SingleOperation) : OperationNotice → SingleOperation
  | .done evt => { op with evt, isDone := true }
  | .connect true => op
  | .connect false =>
    { op with evt := { op.evt with
        event := .fail, message := "Connection Error", message_size := by decide } }

def getChannelData (op : SingleOperation) : ChannelData PVStructure := ⟨op.pvName, op.evt.value⟩

end SingleOperation

/-- `GetOperation` -/
inductive GetOperation where
  | single (op : SingleOperation)
  | combined (getOpA getOpB : SingleOperation)

/-- What EPICS tells a get: a combined one has two requests. -/
structure GetNotice where
  additional : Bool := false
  notice : OperationNotice

/-- `PVStructureMerger::mergeStructureAndValue` of two structures, which may be null, with their
fields. -/
abbrev GetMerger :=
  Option PVStructure × List String → Option PVStructure × List String → Except Failure PVStructure

namespace GetOperation

def notify : GetOperation → GetNotice → GetOperation
  | single op, notice => single (op.notify notice.notice)
  | combined getOpA getOpB, notice =>
    if notice.additional then combined getOpA (getOpB.notify notice.notice)
    else combined (getOpA.notify notice.notice) getOpB

def isDone : GetOperation → Bool
  | single op => op.isDone
  | combined getOpA getOpB => getOpA.isDone && getOpB.isDone

/-- `getState`; of two, the bad one. -/
def getState : GetOperation → OperationState
  | single op => op.evt
  | combined getOpA getOpB =>
    if getOpA.evt.event = getOpB.evt.event then getOpA.evt
    else if getOpA.evt.event = .fail ∨ getOpA.evt.event = .cancel then getOpA.evt
    else getOpB.evt

/-- `getChannelData`; the null pointer is `none`. -/
def getChannelData (merge : GetMerger) :
    GetOperation → Except Failure (Option (ChannelData PVStructure))
  | single op => .ok (some op.getChannelData)
  | combined getOpA getOpB =>
    if !(combined getOpA getOpB).isDone then .ok none
    else if (combined getOpA getOpB).getState.event ≠ .success then .ok none
    else do
      let merged ← merge (getOpA.evt.value, getOpA.requestedFields)
        (getOpB.evt.value, getOpB.requestedFields)
      return some ⟨getOpA.pvName, some merged⟩

end GetOperation

/-- `EpicsChannel::get`: a CA channel requests the additional fields on their own. -/
def epicsChannelGet (provider pvName : String) : GetOperation :=
  if provider = "ca" then
    .combined { pvName, requestedFields := ["value", "timeStamp", "alarm"] }
      { pvName, requestedFields := ["display", "control", "valueAlarm"] }
  else .single { pvName }

/-- `SELECT_PROVIDER` -/
def selectProvider (protocol : String) : String := if protocol = "pva" then "pva" else "ca"

/-- `EpicsServiceManager::getChannelData`; the map has the providers of the channels in use. -/
def getChannelData (channelMap : String → Option String) (pvNameUri : String) :
    Option GetOperation :=
  (sanitizePVName pvNameUri).map fun pv =>
    epicsChannelGet ((channelMap pv.name).getD (selectProvider pv.protocol)) pv.name

/-- `EpicsServiceManager::putChannelData` -/
def putChannelData (pvNameUri : String) : Option SingleOperation :=
  (sanitizePVName pvNameUri).map fun pv => { pvName := pv.name }

/-! ## Polling -/

structure WorkerAsyncOperation where
  timeoutMs : Int := 10000
  begin : Int

/-- `isTimeout`; begin is renewed after a timeout. -/
def WorkerAsyncOperation.isTimeout (op : WorkerAsyncOperation) (now : Int) :
    Bool × WorkerAsyncOperation :=
  if now - op.begin > op.timeoutMs * 1000000 then (true, { op with begin := now }) else (false, op)

/-- One run of the task: when it looks at the clock, and what EPICS tells the operation before the
task looks at it. -/
structure Poll (Notice : Type) where
  now : Int
  notices : List Notice

/-- The task that submits itself again until the operation is done or the time is over; `none`, when
it is still in the pool. -/
def checkCompletion {Op Notice Result : Type} (notify : Op → Notice → Op) (isDone : Op → Bool)
    (onTimeout : Result) (onDone : Op → Result) (info : WorkerAsyncOperation) :
    Op → List (Poll Notice) → Option Result
  | _, [] => none
  | op, poll :: rest =>
    if (info.isTimeout poll.now).1 then some onTimeout
    else if isDone (poll.notices.foldl notify op) then
      some (onDone (poll.notices.foldl notify op))
    else
      checkCompletion notify isDone onTimeout onDone (info.isTimeout poll.now).2
        (poll.notices.foldl notify op) rest

/-- The messages that a command leads to, unless an exception leaves its task. -/
abbrev Replies := Except Failure (List (PublishMessage SerializedMessage))

namespace PutCommandWorker

def manageReply (errorCode : Int8) (errorMessage : String) (cmd : PutCommand) : Replies :=
  if cmd.replyTopic = "" ∨ cmd.replyId = "" then .ok []
  else do
    let serializedMessage ← PutCommandReply.serialize
      { error := errorCode, replyId := cmd.replyId, message := errorMessage } cmd.serialization
    return (replyPushableMessage cmd.replyTopic "put-operation" cmd.pvName serializedMessage
      (serializationToString cmd.serialization)).toList

/-- What is replied when the operation is done. -/
def doneReply (cmd : PutCommand) (op : SingleOperation) : Replies :=
  match op.evt.event with
  | .fail => manageReply (-2) op.evt.message cmd
  | .cancel => manageReply (-2) "Put operation has been cancelled" cmd
  | .success => manageReply 0 "Successfull operation" cmd

def checkPutCompletion (cmd : PutCommand) (info : WorkerAsyncOperation) (op : SingleOperation)
    (polls : List (Poll OperationNotice)) : Option Replies :=
  checkCompletion SingleOperation.notify SingleOperation.isDone
    (manageReply (-3) "Timeout operation" cmd) (doneReply cmd) info op polls

/-- `processCommand`, with the task that it submits. -/
def processCommand (codec : Base64Codec) (unpack : List UInt8 → Except Failure Object)
    (cmd : PutCommand) (now : Int) (polls : List (Poll OperationNotice)) : Option Replies :=
  match base64Decode codec cmd.value with
  | .error failure => some (.error failure)
  | .ok [] => some (manageReply (-1) "Base64 decode error during put command processing" cmd)
  | .ok b64Decode =>
    match unpackMsgpackObject unpack b64Decode with
    | .error failure => some (.error failure)
    | .ok none =>
      some (manageReply (-2) "Unpack msgpack object error during put command processing" cmd)
    | .ok (some (.map _)) =>
      match putChannelData cmd.pvName with
      | none => some (manageReply (-4) "PV name malformed" cmd)
      | some putOp => checkPutCompletion cmd { begin := now } putOp polls
    | .ok (some _) => some (manageReply (-3) "Msgpack object need to be a map" cmd)

end PutCommandWorker

namespace GetCommandWorker

def manageFaultyReply (errorCode : Int8) (errorMessage : String) (cmd : GetCommand) : Replies :=
  if cmd.replyTopic = "" then .ok []
  else do
    let serializedMessage ← PutCommandReply.serialize
      { error := errorCode, replyId := cmd.replyId, message := errorMessage } cmd.serialization
    return (replyPushableMessage cmd.replyTopic "put-operation" cmd.pvName serializedMessage
      (serializationToString cmd.serialization)).toList

/-- What is replied when the operation has succeeded. -/
def successReply (merge : GetMerger) (cmd : GetCommand) (op : GetOperation) : Replies := do
  match ← op.getChannelData merge with
  | none => return []
  | some channelData =>
    let serializedMessage ← GetCommandReply.serialize
      { error := 0, replyId := cmd.replyId, pvData := channelData } cmd.serialization
    return (replyPushableMessage cmd.replyTopic "get-reply-message" cmd.pvName serializedMessage
      (serializationToString cmd.serialization)).toList

/-- What is replied when the operation is done. -/
def doneReply (merge : GetMerger) (cmd : GetCommand) (op : GetOperation) : Replies :=
  match op.getState.event with
  | .fail => manageFaultyReply (-2) op.getState.message cmd
  | .cancel => manageFaultyReply (-2) "Operaton cancelled" cmd
  | .success => successReply merge cmd op

def checkGetCompletion (merge : GetMerger) (cmd : GetCommand) (info : WorkerAsyncOperation)
    (op : GetOperation) (polls : List (Poll GetNotice)) : Option Replies :=
  checkCompletion GetOperation.notify GetOperation.isDone
    (manageFaultyReply (-3) "Timeout operation" cmd) (doneReply merge cmd) info op polls

/-- `processCommand`, with the task that it submits. -/
def processCommand (merge : GetMerger) (channelMap : String → Option String) (cmd : GetCommand)
    (now : Int) (polls : List (Poll GetNotice)) : Option Replies :=
  match getChannelData channelMap cmd.pvName with
  | none => some (manageFaultyReply (-1) "PV name malformed" cmd)
  | some getOp => checkGetCompletion merge cmd { begin := now } getOp polls

end GetCommandWorker

end K2eg
