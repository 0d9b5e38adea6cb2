import K2eg.Model.MonitorChecker
import K2eg.Model.PVData

/-! # Sweeps over the channel monitors

`NodeConfiguration::iterateAllChannelMonitorForAction` hands the unprocessed rows of the repository
to a handler, a limited number of them in each call. -/

namespace K2eg

/-- What a call of a handler leaves: `purge_ts_set_flag`, the node, and what else it works on. -/
structure HandlerReturn (σ : Type*) where
  purgeTsSetFlag : Int := 0
  node : NodeConfiguration
  state : σ

/-- `ChannelMonitorTypeHandler`. -/
abbrev ChannelMonitorTypeHandler (σ : Type*) :=
  ChannelMonitorType → NodeConfiguration → σ → HandlerReturn σ

/-- A call of the handler: its row, the flag, the system clock behind the call in seconds, and the
row as the call has left it, where it is still there. -/
structure HandledRow where
  row : ChannelMonitorType
  purgeTsSetFlag : Int
  now : Int
  left : Option ChannelMonitorType
  deriving DecidableEq, Repr

/-- A node whose rows are swept, with the calls of the handler so far. -/
structure ChannelSweep (σ : Type*) where
  node : NodeConfiguration
  state : σ
  handled : List HandledRow := []

namespace NodeConfiguration

def findRow (node : NodeConfiguration) (id : Int) : Option ChannelMonitorType :=
  node.channelRepository.rows.find? fun row => decide (row.id = id)

def hasRow (node : NodeConfiguration) (id : Int) : Bool := (node.findRow id).isSome

/-- An update of the repository that reads the row first; `get` throws where there is none. -/
def updateExisting (node : NodeConfiguration) (id : Int) (repository : ChannelRepository) :
    Except Failure NodeConfiguration :=
  if node.hasRow id then .ok { node with channelRepository := repository } else .error .thrown

/-- The purge timestamp behind the handler: 0 leaves it, 1 sets it, -1 resets it. -/
def updatePurgeTimeStamp (node : NodeConfiguration) (id purgeTsSetFlag now : Int) :
    Except Failure NodeConfiguration :=
  if purgeTsSetFlag = -1 then
    node.updateExisting id (node.channelRepository.resetStartPurgeTimeStamp id)
  else if purgeTsSetFlag = 1 then
    node.updateExisting id (node.channelRepository.setStartPurgeTimeStamp id now)
  else .ok node

end NodeConfiguration

namespace ChannelSweep

variable {σ : Type*}

def rows (sweep : ChannelSweep σ) : List ChannelMonitorType := sweep.node.channelRepository.rows

variable (handler : ChannelMonitorTypeHandler σ) (clock : ℕ → Int)

/-- The body of the inner loop. -/
def handle (sweep : ChannelSweep σ) (row : ChannelMonitorType) :
    Except Failure (ChannelSweep σ) :=
  let outcome := handler row sweep.node sweep.state
  let now := clock sweep.handled.length
  match outcome.node.updatePurgeTimeStamp row.id outcome.purgeTsSetFlag now with
  | .error failure => .error failure
  | .ok node =>
    .ok {
      node := { node with
        channelRepository := node.channelRepository.setProcessStateChannel row.id true }
      state := outcome.state
      handled := sweep.handled ++
        [⟨row, outcome.purgeTsSetFlag, now, outcome.node.findRow row.id⟩] }

/-- The inner loop, over the unprocessed rows of one PV. -/
def processName (elementToProcess : ℕ) (pvName : String) (sweep : ChannelSweep σ)
    (processed : ℕ) : Except Failure (ℕ × ChannelSweep σ) :=
  match sweep.node.channelRepository.getNextChannelMonitorToProcess pvName with
  | none => .ok (processed, sweep)
  | some row =>
    if processed + 1 > elementToProcess then .ok (processed + 1, sweep)
    else
      match sweep.handle handler clock row with
      | .error failure => .error failure
      | .ok sweep => processName elementToProcess pvName sweep (processed + 1)
termination_by elementToProcess - processed

/-- The outer loop, over the PV names. -/
def processNames (elementToProcess : ℕ) :
    List String → ChannelSweep σ → ℕ → Except Failure (ℕ × ChannelSweep σ)
  | [], sweep, processed => .ok (processed, sweep)
  | pvName :: names, sweep, processed =>
    match processName handler clock elementToProcess pvName sweep processed with
    | .error failure => .error failure
    | .ok (processed, sweep) => processNames elementToProcess names sweep processed

/-- `iterateAllChannelMonitorForAction`, for the names in the order in which
`getDistinctByNameProtocol` yields them. -/
def iterateAllChannelMonitorForAction (elementToProcess : ℕ) (names : List String)
    (sweep : ChannelSweep σ) : Except Failure (ℕ × ChannelSweep σ) :=
  processNames handler clock elementToProcess names sweep 0

def resetAllChannelMonitorCheck (sweep : ChannelSweep σ) : ChannelSweep σ :=
  { sweep with node := sweep.node.resetAllChannelMonitorCheck }

end ChannelSweep

/-! ## The handler of the purge -/

/-- The handler of `scanForMonitorToStop`, in one piece. Its calls are numbered: the metadata of the
topic, the system clock and whether `deleteQueue` throws come from outside. -/
def MonitorChecker.purgeHandler (metadata : ℕ → Option (List SubscriberGroup)) (now : ℕ → Int)
    (throws : ℕ → Bool) : ChannelMonitorTypeHandler (ℕ × MonitorChecker) :=
  fun row node state =>
    let handled := { state.2 with node }.scanHandle 0 [] 0 row (metadata state.1) (now state.1)
    match handled.scan with
    | .stopping .. =>
      let stopped := handled.scanDelete 0 [] 0 row (throws state.1)
      { node := stopped.node, state := (state.1 + 1, stopped) }
    | .flagging _ _ _ _ purgeTsSetFlag =>
      { purgeTsSetFlag, node := handled.node, state := (state.1 + 1, handled) }
    | _ => { node := handled.node, state := (state.1 + 1, handled) }

end K2eg
