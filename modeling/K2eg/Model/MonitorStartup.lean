import K2eg.Model.ChannelSweep
import K2eg.Model.HandlerAttempts

/-! # The startup of the monitors

The constructor of `MonitorCommandWorker` schedules a task that starts the monitors of the stored
configuration again, some in each execution. Commands are refused until it has completed. -/

namespace K2eg

/-- The exception of an attempt leaves `handleMonitorCheckEvents`, and with it the broadcast. -/
def AttemptedHandlers.throws (s : AttemptedHandlers) (attempt : HandlerAttempt) : Bool :=
  match sanitizePVName attempt.event.monitorType.pvName with
  | none => false
  | some pv =>
    match attempt.fault with
    | none => false
    | some .lookup => true
    | some _ => (TopicHandlers.find (s.handlers.registrations pv.name) attempt.event).isNone

/-- The worker with the properties of its startup task. `restarted` and `failed` are the rows whose
Start broadcast has returned or thrown. -/
structure MonitorStartup where
  node : NodeConfiguration
  handlers : AttemptedHandlers := {}
  startingUp : Bool := true
  runAsap : Bool := false
  completed : Bool := false
  periodicTasks : ℕ := 0
  refused : ℕ := 0
  restarted : List ChannelMonitorType := []
  failed : List ChannelMonitorType := []

inductive StartupStep where
  /-- an execution of the startup task, with the order in which the names are found and what throws
  in a broadcast -/
  | restartTask (names : List String) (faults : ℕ → Option HandlerFault)
  | processCommand

namespace MonitorStartup

/-- The worker of a node that has loaded its configuration. -/
def start (node : NodeConfiguration) : MonitorStartup where
  node := node.loadNodeConfiguration.resetAllChannelMonitorCheck

def rows (s : MonitorStartup) : List ChannelMonitorType := s.node.channelRepository.rows

/-- The Start broadcast of a row. -/
def broadcast (s : MonitorStartup) (row : ChannelMonitorType) (fault : Option HandlerFault) :
    Bool × MonitorStartup :=
  let attempt : HandlerAttempt := ⟨⟨.start, row⟩, fault⟩
  let handlers := s.handlers.handleMonitorCheckEvents attempt
  if s.handlers.throws attempt then (false, { s with handlers, failed := s.failed ++ [row] })
  else (true, { s with handlers, restarted := s.restarted ++ [row] })

/-- The row is tagged as processed; the handler has left the flag of its timestamp 0. -/
def tag (s : MonitorStartup) (row : ChannelMonitorType) : MonitorStartup :=
  { s with node := { s.node with
    channelRepository := s.node.channelRepository.setProcessStateChannel row.id true } }

variable (faults : ℕ → Option HandlerFault) (elementToProcess : ℕ)

/-- The inner loop of `iterateAllChannelMonitorForAction`, without a count where a handler
throws. -/
def processName (pvName : String) (s : MonitorStartup) (processed : ℕ) :
    Option ℕ × MonitorStartup :=
  match s.node.channelRepository.getNextChannelMonitorToProcess pvName with
  | none => (some processed, s)
  | some row =>
    if processed + 1 > elementToProcess then (some (processed + 1), s)
    else
      match s.broadcast row (faults (s.restarted.length + s.failed.length)) with
      | (false, s) => (none, s)
      | (true, s) => processName pvName (s.tag row) (processed + 1)
termination_by elementToProcess - processed

/-- The outer loop, over the names. -/
def processNames : List String → MonitorStartup → ℕ → Option ℕ × MonitorStartup
  | [], s, processed => (some processed, s)
  | pvName :: names, s, processed =>
    match processName faults elementToProcess pvName s processed with
    | (none, s) => (none, s)
    | (some processed, s) => processNames names s processed

/-- `scanForRestart`, with its default limit. -/
def scanForRestart (names : List String) (s : MonitorStartup) : Option ℕ × MonitorStartup :=
  processNames faults 10 names s 0

/-- `handleRestartMonitorTask`: an exception leaves the properties of the task as they were. -/
def handleRestartMonitorTask (names : List String) (s : MonitorStartup) : MonitorStartup :=
  match scanForRestart faults names s with
  | (none, s) => s
  | (some processed, s) => { s with
      startingUp := processed != 0
      completed := processed == 0
      runAsap := true
      periodicTasks := if processed = 0 then s.periodicTasks + 1 else s.periodicTasks }

/-- The scheduler drops the task once it has completed. A command is refused until then; what it
does afterwards is not part of the startup. -/
def next (s : MonitorStartup) : StartupStep → Option MonitorStartup
  | .restartTask names faults =>
    if s.completed = false ∧
        names.Perm s.node.channelRepository.getDistinctByNameProtocol then
      some (handleRestartMonitorTask faults names s)
    else none
  | .processCommand =>
    if s.startingUp then some { s with refused := s.refused + 1 } else none

end MonitorStartup

end K2eg
