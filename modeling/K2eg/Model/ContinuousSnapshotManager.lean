import K2eg.Model.PVName
import K2eg.Model.SnapshotPipeline

/-! # The continuous snapshot manager

Start, stop and trigger commands run on the threads of the command pool, beside the checker and
the submitting threads. -/

namespace K2eg

variable {V : Type*}

/-- Where a command stands. `ended` names the operation that a start has started. -/
inductive CommandPhase where
  | absent
  | startReceived (cmd : RepeatingSnapshotCommand) (created : Int)
  | startChecked (cmd : RepeatingSnapshotCommand) (created : Int)
  | startPrepared (cmd : RepeatingSnapshotCommand) (created : Int)
  | startQueueCreated (cmd : RepeatingSnapshotCommand) (created : Int)
  | startDescribed (cmd : RepeatingSnapshotCommand) (created : Int)
  /-- registered, with the URIs whose monitor is not yet enabled -/
  | startActivating (op : ℕ) (uris : List String)
  | stopReceived (cmd : RepeatingSnapshotStopCommand)
  | stopWaiting (cmd : RepeatingSnapshotStopCommand) (op : ℕ)
  | triggerReceived (cmd : RepeatingSnapshotTriggerCommand)
  | ended (started : Option ℕ)

/-- `ContinuousSnapshotManager`: the pipeline with the PV map, the references its PVs have in
the EPICS manager and the commands. `startedBy` is the command that has registered an
operation, `replies` are the replies with the command they answer. -/
structure ContinuousSnapshotManager (V : Type*) extends SnapshotPipeline V where
  startedBy : ℕ → ℕ := fun _ => 0
  pvSnapshotMap : List (String × ℕ) := []
  channelRefs : String → ℕ := fun _ => 0
  commands : ℕ → CommandPhase := fun _ => .absent
  replies : List (ℕ × PublishMessage ContinuousSnapshotCommandReply) := []

/-- One step of a command, of the checker or of a submitting thread. -/
inductive SnapshotStep (V : Type*) where
  | receiveStart (command : ℕ) (cmd : RepeatingSnapshotCommand) (created : Int)
  | receiveStop (command : ℕ) (cmd : RepeatingSnapshotStopCommand)
  | receiveTrigger (command : ℕ) (cmd : RepeatingSnapshotTriggerCommand)
  | startCheck (command : ℕ)
  | startPrepare (command : ℕ)
  | startCreateQueue (command : ℕ) (returns : Bool)
  | startGetQueueMetadata (command : ℕ) (returns : Bool)
  | startRegister (command : ℕ)
  | startActivate (command : ℕ)
  | startReply (command : ℕ)
  | stopMark (command : ℕ)
  | stopReply (command : ℕ)
  | trigger (command : ℕ)
  | checkerScan (now : Int) (order : List String)
  | checkerVisit (events : List (MonitorEvent V))
  | checkerRemove
  | checkerSchedule
  | checkerAcquire
  | checkerSleep
  | dequeue
  | task (op index : ℕ)

namespace ContinuousSnapshotManager

def setCommand (manager : ContinuousSnapshotManager V) (command : ℕ) (phase : CommandPhase) :
    ContinuousSnapshotManager V :=
  { manager with commands := Function.update manager.commands command phase }

def setPipeline (manager : ContinuousSnapshotManager V) (pipeline : SnapshotPipeline V) :
    ContinuousSnapshotManager V :=
  { manager with toSnapshotPipeline := pipeline }

/-- A command that pushes its reply and ends. -/
def replyAndEnd (manager : ContinuousSnapshotManager V) (command : ℕ)
    (reply : PublishMessage ContinuousSnapshotCommandReply) (started : Option ℕ) :
    ContinuousSnapshotManager V :=
  { manager.setCommand command (.ended started) with
    replies := manager.replies ++ [(command, reply)] }

/-! ## Start commands -/

/-- The URIs of a list as PV names. -/
def sanitizedNames (uris : List String) : List String :=
  uris.filterMap fun uri => (sanitizePVName uri).map PV.name

/-- The checks of `startSnapshot` on the command itself, in their order. -/
def prepareError (op : SnapshotOpInfo) : Option (Int × String) :=
  let cmd := op.cmd
  if cmd.pvNameList = [] then
    some (-2, "PV name list is empty for snapshot " ++ cmd.snapshotName)
  else if cmd.repeatDelayMsec < 0 then
    some (-3, "The repeat delay is not valid " ++ cmd.snapshotName)
  else if cmd.timeWindowMsec < 0 then
    some (-4, "The time window is not valid " ++ cmd.snapshotName)
  else if cmd.snapshotName = "" then
    some (-5, "The snapshot name is not valid " ++ cmd.snapshotName)
  else
    match cmd.pvNameList.find? fun uri => (sanitizePVName uri).isNone with
    | some uri => some (-6, "The pv uri " ++ uri ++ " is not parsable")
    | none =>
      if op.init (sanitizedNames cmd.pvNameList) then none
      else some (-7, "The snapshot " ++ cmd.snapshotName ++ " is not valid")

/-- The type switch and the locked test for a duplicate. -/
def startCheck (manager : ContinuousSnapshotManager V) (command : ℕ)
    (cmd : RepeatingSnapshotCommand) (created : Int) : ContinuousSnapshotManager V :=
  if cmd.type = .unknown then
    manager.replyAndEnd command
      (manageReply (-1) "The snapshot type Unknown is not supported" cmd.toCommand "") none
  else if (manager.findRunning (getQueueFromSnapshotName cmd.snapshotName)).isSome then
    manager.replyAndEnd command
      (manageReply 0 ("Snapshot " ++ cmd.snapshotName ++ " is already running") cmd.toCommand "")
      none
  else manager.setCommand command (.startChecked cmd created)

def startPrepare (manager : ContinuousSnapshotManager V) (command : ℕ)
    (cmd : RepeatingSnapshotCommand) (created : Int) : ContinuousSnapshotManager V :=
  match prepareError (.ofCommand cmd created) with
  | some (error, message) =>
    manager.replyAndEnd command (manageReply error message cmd.toCommand "") none
  | none => manager.setCommand command (.startPrepared cmd created)

/-- The locked registration, in `snapshot_running_` and in `pv_snapshot_map_`. -/
def startRegister (manager : ContinuousSnapshotManager V) (command : ℕ)
    (cmd : RepeatingSnapshotCommand) (created : Int) : ContinuousSnapshotManager V :=
  let id := manager.opCount
  { manager with
    toSnapshotPipeline := manager.register (.ofCommand cmd created)
    startedBy := Function.update manager.startedBy id command
    pvSnapshotMap := manager.pvSnapshotMap ++
      (sanitizedNames cmd.pvNameList).map fun pvName => (pvName, id)
    commands := Function.update manager.commands command (.startActivating id cmd.pvNameList) }

/-- `monitorChannel`: the references of a PV, which removing saturates at zero. -/
def monitorChannel (manager : ContinuousSnapshotManager V) (uri : String) (activate : Bool) :
    ContinuousSnapshotManager V :=
  match sanitizePVName uri with
  | none => manager
  | some pv =>
    { manager with
      channelRefs := Function.update manager.channelRefs pv.name
        (if activate then manager.channelRefs pv.name + 1
          else manager.channelRefs pv.name - 1) }

def startReply (manager : ContinuousSnapshotManager V) (command id : ℕ) :
    ContinuousSnapshotManager V :=
  let op := manager.ops id
  manager.replyAndEnd command
    (manageReply 0 ("The snapshot '" ++ op.cmd.snapshotName ++ "' has been started")
      op.cmd.toCommand op.queueName) (some id)

/-! ## Stop and trigger commands -/

/-- The locked part of `stopSnapshot`. A second `get_future` throws: the command ends without
a reply. -/
def stopMark (manager : ContinuousSnapshotManager V) (command : ℕ)
    (cmd : RepeatingSnapshotStopCommand) : ContinuousSnapshotManager V :=
  if cmd.snapshotName = "" then
    manager.replyAndEnd command (manageReply (-1) "The snapshot name is empty" cmd.toCommand "")
      none
  else
    match manager.findRunning (getQueueFromSnapshotName cmd.snapshotName) with
    | none =>
      manager.replyAndEnd command
        (manageReply 0 ("Snapshot '" ++ cmd.snapshotName ++ "' is already stopped")
          cmd.toCommand "") none
    | some id =>
      let op := manager.ops id
      if op.futureRetrieved then manager.setCommand command (.ended none)
      else
        (manager.setPipeline (manager.setOp id
          { op with futureRetrieved := true, isRunning := false })).setCommand
            command (.stopWaiting cmd id)

def stopReply (manager : ContinuousSnapshotManager V) (command : ℕ)
    (cmd : RepeatingSnapshotStopCommand) : ContinuousSnapshotManager V :=
  manager.replyAndEnd command
    (manageReply 0 ("Snapshot '" ++ cmd.snapshotName ++ "' has been stopped") cmd.toCommand "")
    none

def triggerSnapshot (manager : ContinuousSnapshotManager V) (command : ℕ)
    (cmd : RepeatingSnapshotTriggerCommand) : ContinuousSnapshotManager V :=
  if cmd.snapshotName = "" then
    manager.replyAndEnd command (manageReply (-1) "The snapshot name is empty" cmd.toCommand "")
      none
  else
    match manager.findRunning (getQueueFromSnapshotName cmd.snapshotName) with
    | some id =>
      (manager.setPipeline (manager.setOp id
        { manager.ops id with requestToTrigger := true })).replyAndEnd command
          (manageReply 0 ("Snapshot '" ++ cmd.snapshotName ++ "' has been armed")
            cmd.toCommand "") none
    | none =>
      manager.replyAndEnd command
        (manageReply (-2) ("Snapshot '" ++ cmd.snapshotName ++ "' has not been found")
          cmd.toCommand "") none

/-- Take one URI of a stopped operation out of `pv_snapshot_map_`, and give its reference
back. -/
def removeUri (manager : ContinuousSnapshotManager V) (id : ℕ) (uri : String) :
    ContinuousSnapshotManager V :=
  { manager with
    pvSnapshotMap :=
      match sanitizePVName uri with
      | none => manager.pvSnapshotMap
      | some pv => manager.pvSnapshotMap.erase (pv.name, id) }.monitorChannel uri false

/-! ## Events -/

/-- The operations that `pv_snapshot_map_.equal_range` yields for a PV. -/
def equalRange (manager : ContinuousSnapshotManager V) (pvName : String) : List ℕ :=
  (manager.pvSnapshotMap.filter fun link => link.1 == pvName).map Prod.snd

/-- The calls of `addData` that `epicsMonitorEvent` makes for a batch, by operation and event. They
are made under the shared lock, while the checker sleeps. -/
def epicsMonitorEvent (manager : ContinuousSnapshotManager V)
    (eventData : List (MonitorEvent V)) : List (ℕ × MonitorEvent V) :=
  eventData.flatMap fun event =>
    (manager.equalRange event.channelData.pvName).map fun op => (op, event)

/-! ## Steps -/

/-- The step of a party. The locked parts of the commands wait until the checker sleeps. -/
def next (threads : ℕ) (manager : ContinuousSnapshotManager V) :
    SnapshotStep V → Option (ContinuousSnapshotManager V)
  | .receiveStart command cmd created =>
    match manager.commands command with
    | .absent => some (manager.setCommand command (.startReceived cmd created))
    | _ => none
  | .receiveStop command cmd =>
    match manager.commands command with
    | .absent => some (manager.setCommand command (.stopReceived cmd))
    | _ => none
  | .receiveTrigger command cmd =>
    match manager.commands command with
    | .absent => some (manager.setCommand command (.triggerReceived cmd))
    | _ => none
  | .startCheck command =>
    match manager.commands command, manager.checker with
    | .startReceived cmd created, .sleeping => some (manager.startCheck command cmd created)
    | _, _ => none
  | .startPrepare command =>
    match manager.commands command with
    | .startChecked cmd created => some (manager.startPrepare command cmd created)
    | _ => none
  | .startCreateQueue command returns =>
    match manager.commands command with
    | .startPrepared cmd created =>
      some (manager.setCommand command
        (if returns then .startQueueCreated cmd created else .ended none))
    | _ => none
  | .startGetQueueMetadata command returns =>
    match manager.commands command with
    | .startQueueCreated cmd created =>
      some (manager.setCommand command
        (if returns then .startDescribed cmd created else .ended none))
    | _ => none
  | .startRegister command =>
    match manager.commands command, manager.checker with
    | .startDescribed cmd created, .sleeping => some (manager.startRegister command cmd created)
    | _, _ => none
  | .startActivate command =>
    match manager.commands command with
    | .startActivating op (uri :: uris) =>
      some ((manager.monitorChannel uri true).setCommand command (.startActivating op uris))
    | _ => none
  | .startReply command =>
    match manager.commands command with
    | .startActivating op [] => some (manager.startReply command op)
    | _ => none
  | .stopMark command =>
    match manager.commands command, manager.checker with
    | .stopReceived cmd, .sleeping => some (manager.stopMark command cmd)
    | _, _ => none
  | .stopReply command =>
    match manager.commands command with
    | .stopWaiting cmd op =>
      if (manager.ops op).removalSet then some (manager.stopReply command cmd) else none
    | _ => none
  | .trigger command =>
    match manager.commands command, manager.checker with
    | .triggerReceived cmd, .sleeping => some (manager.triggerSnapshot command cmd)
    | _, _ => none
  | .checkerScan now order =>
    match manager.checker with
    | .sleeping =>
      if order.Perm (manager.snapshotRunning.map Prod.fst) then
        some (manager.setPipeline (manager.setChecker (.scanning now order)))
      else none
    | _ => none
  | .checkerVisit events =>
    match manager.checker with
    | .scanning now (queueName :: todo) =>
      (manager.findRunning queueName).map fun id =>
        manager.setPipeline (manager.visit now todo id events)
    | _ => none
  | .checkerRemove =>
    match manager.checker with
    | .removing now todo op submission (uri :: uris) =>
      some ((manager.removeUri op uri).setPipeline
        (manager.setChecker (.removing now todo op submission uris)))
    | .removing now todo op submission [] =>
      some (manager.setPipeline
        ((manager.eraseRunning op).setChecker (.scheduling now todo op submission true)))
    | _ => none
  | .checkerSchedule =>
    match manager.checker with
    | .scheduling now todo op submission lastSubmission =>
      some (manager.setPipeline (manager.schedule now todo op submission lastSubmission))
    | _ => none
  | .checkerAcquire =>
    match manager.checker with
    | .acquiring now todo op submission lastSubmission =>
      if (manager.iterationSync (manager.nameOf op)).iterationInProgress then none
      else
        some (manager.setPipeline
          (manager.reserveAndSubmit now todo op submission lastSubmission))
    | _ => none
  | .checkerSleep =>
    match manager.checker with
    | .scanning _ [] => some (manager.setPipeline (manager.setChecker .sleeping))
    | _ => none
  | .dequeue => (manager.toSnapshotPipeline.dequeue threads).map manager.setPipeline
  | .task id index => (manager.stepTask id index).map manager.setPipeline

end ContinuousSnapshotManager

end K2eg
