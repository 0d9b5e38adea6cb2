import K2eg.Model.CommandWorkers
import K2eg.Model.HandlerAttempts
import K2eg.Model.MonitorSystem

/-! # The monitor commands

`MonitorCommandWorker::processCommand` runs on the threads of the processing pool, several calls at
a time, beside the startup task, the scans of the checker and the handlers. -/

namespace K2eg

/-- `static_cast<std::uint8_t>` of a serialization. -/
def SerializationType.toByte : SerializationType → UInt8
  | .unknown => 0
  | .msgpack => 1
  | .msgpackCompact => 2
  | .json => 3

/-- Where a call of `processCommand` stands. -/
inductive MonitorCallPhase where
  /-- before `starting_up` is read -/
  | received
  /-- before `op_mux` is taken in `storeMonitorData` -/
  | registering
  /-- in the broadcasts of `storeMonitorData`, with the number of its call -/
  | broadcasting (call : ℕ)
  /-- the exception of a broadcast has left it -/
  | thrown
  /-- replied to before `storeMonitorData` -/
  | refused (replies : Replies)
  /-- replied to behind it -/
  | activated (replies : Replies)

/-- The messages that have been pushed. -/
def MonitorCallPhase.messages : MonitorCallPhase → List (PublishMessage SerializedMessage)
  | .refused (.ok messages) | .activated (.ok messages) => messages
  | _ => []

structure MonitorCall where
  cmd : ConstCommand
  phase : MonitorCallPhase := .received

/-- The worker with the messages that its calls have pushed. -/
structure MonitorCommandWorker where
  system : MonitorSystem
  startingUp : Bool := true
  calls : List MonitorCall := []
  published : List (ℕ × PublishMessage SerializedMessage) := []

inductive MonitorWorkerStep where
  /-- `processCommand` is called -/
  | receive (cmd : ConstCommand)
  /-- up to the reply of a command that is refused, or to `storeMonitorData` -/
  | processCommand (i : ℕ)
  /-- the part of `storeMonitorData` under `op_mux` -/
  | storeMonitorData (i : ℕ)
  /-- an exception leaves the handler of a Start, and with it the call -/
  | throwStart (i : ℕ)
  /-- `manageReply` behind the broadcasts -/
  | manageReply (i : ℕ)
  /-- an execution of the startup task that finds no row -/
  | startupCompleted
  /-- the rest of the checker and the handlers -/
  | system (step : SystemStep)

namespace MonitorCommandWorker

def manageReply (errorCode : Int8) (errorMessage : String) (cmd : Command) : Replies :=
  if cmd.replyTopic = "" ∨ cmd.replyId = "" then .ok []
  else do
    let serializedMessage ←
      (WorkerMessage.monitorCommandReply ⟨errorCode, cmd.replyId⟩ errorMessage).serialize
        cmd.serialization
    return (replyPushableMessage cmd.replyTopic "monitor-operation" "monitor-error-key"
      serializedMessage (serializationToString cmd.serialization)).toList

/-- What `storeMonitorData` is given, and the text of the reply behind it. The name of a single
monitor is not looked at; of several, those that cannot be sanitized are left out. -/
def requested : ConstCommand → Option (List ChannelMonitorType × String)
  | .monitor cmd =>
    if cmd.monitorDestinationTopic = "" then none
    else some ([{
      pvName := cmd.pvName
      eventSerialization := cmd.serialization.toByte
      channelDestination := cmd.monitorDestinationTopic }], "Monitor activated for " ++ cmd.pvName)
  | .multiMonitor cmd =>
    some (cmd.pvNameList.filterMap fun pvName => (sanitizePVName pvName).map fun pv => {
      pvName
      eventSerialization := cmd.serialization.toByte
      channelDestination := AttemptedHandlers.getQueueForPv pv.name }, "Monitor activated")
  | _ => none

/-- What the command is told that is not stored; the worker has no branch for other commands. -/
def refusal (hasSerializationForType : SerializationType → Bool) (startingUp : Bool)
    (cmd : ConstCommand) : Option Replies :=
  if startingUp then
    some (manageReply (-2) "Command cannot be executed, k2eg monitor worker is starting"
      cmd.command)
  else if hasSerializationForType cmd.command.serialization = false then
    some (manageReply (-3) "No serializer found" cmd.command)
  else
    match cmd with
    | .monitor single =>
      if single.monitorDestinationTopic = "" then
        some (manageReply (-1) "Empty destination topic" single.toCommand)
      else none
    | .multiMonitor _ => none
    | _ => some (.ok [])

def setPhase (s : MonitorCommandWorker) (i : ℕ) (call : MonitorCall) (phase : MonitorCallPhase) :
    MonitorCommandWorker :=
  { s with calls := s.calls.set i { call with phase } }

/-- The call ends, with the messages of its reply. -/
def finish (s : MonitorCommandWorker) (i : ℕ) (call : MonitorCall) (phase : MonitorCallPhase) :
    MonitorCommandWorker :=
  { s.setPhase i call phase with
    published := s.published ++ phase.messages.map fun message => (i, message) }

/-- Something throws in this part of a Start: `operator[]`, `push_back`, or `createQueue` and
`monitorChannel` behind it. -/
def throwsIn : HandlerPhase → Bool
  | .received | .pushing _ | .activating => true
  | _ => false

/-- The broadcast that is under way is left by an exception, and so are those behind it. -/
def throwStart (s : MonitorCommandWorker) (i : ℕ) (call : MonitorCall) (storing : ℕ)
    (handler : ℕ) (handling : HandlerCall) : MonitorCommandWorker :=
  { s.setPhase i call .thrown with
    system := { s.system with
      checker := { s.system.checker with
        starts := Function.update s.system.checker.starts storing [] }
      handlers := s.system.handlers.setPhase handler handling .ended } }

/-- The step of a call; `none` where it is not enabled. -/
def next (hasSerializationForType : SerializationType → Bool) (s : MonitorCommandWorker) :
    MonitorWorkerStep → Option MonitorCommandWorker
  | .receive cmd => some { s with calls := s.calls ++ [{ cmd }] }
  | .processCommand i =>
    match s.calls[i]? with
    | some ⟨cmd, .received⟩ =>
      match refusal hasSerializationForType s.startingUp cmd with
      | some replies => some (s.finish i ⟨cmd, .received⟩ (.refused replies))
      | none => some (s.setPhase i ⟨cmd, .received⟩ .registering)
    | _ => none
  | .storeMonitorData i =>
    match s.calls[i]? with
    | some ⟨cmd, .registering⟩ =>
      match requested cmd with
      | none => none
      | some (descriptions, _) =>
        (s.system.next (.checker (.storeRegister descriptions))).map fun system =>
          { s.setPhase i ⟨cmd, .registering⟩ (.broadcasting s.system.checker.calls) with system }
    | _ => none
  | .throwStart i =>
    match s.calls[i]? with
    | some ⟨cmd, .broadcasting storing⟩ =>
      match s.system.storing storing with
      | none => none
      | some handler =>
        match s.system.handlers.calls[handler]? with
        | none => none
        | some handling =>
          if throwsIn handling.phase then
            some (s.throwStart i ⟨cmd, .broadcasting storing⟩ storing handler handling)
          else none
    | _ => none
  | .manageReply i =>
    match s.calls[i]? with
    | some ⟨cmd, .broadcasting storing⟩ =>
      match requested cmd, s.system.checker.starts storing with
      | some (_, errorMessage), [] =>
        if s.system.returned (s.system.storing storing) then
          some (s.finish i ⟨cmd, .broadcasting storing⟩
            (.activated (manageReply 0 errorMessage cmd.command)))
        else none
      | _, _ => none
    | _ => none
  | .startupCompleted => if s.startingUp then some { s with startingUp := false } else none
  | .system (.checker (.storeRegister _)) => none
  | .system step => (s.system.next step).map fun system => { s with system }

/-- The worker of a node without monitors. -/
def start (configuration : MonitorCheckerConfiguration) (clock : Int) : MonitorCommandWorker where
  system := .initial configuration clock

end MonitorCommandWorker

end K2eg
