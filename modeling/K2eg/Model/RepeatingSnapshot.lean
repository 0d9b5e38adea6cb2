import K2eg.Model.SnapshotOpInfo

/-! # Normal snapshot operations

`SnapshotRepeatingOpInfo` keeps the last event of each of its PVs. Deliveries hold
`snapshot_running_mutex_` shared while they call `addData`; a round of the checker holds it
exclusively while it calls `isTimeout` and `getData`. Their calls are cut at the accesses to the
atomic flag and the atomic cells. -/

namespace K2eg

variable {V : Type*}

/-- `SnapshotRepeatingOpInfo`. The pairs of `element_data`, with a null pointer in a cell that no
event has reached, are in the order in which the map is iterated. -/
structure SnapshotRepeatingOpInfo (V : Type*) extends SnapshotOpInfo where
  elementData : List (String × Option (MonitorEvent V)) := []
  takingData : Bool := true

namespace SnapshotRepeatingOpInfo

/-- The constructor. -/
def make (cmd : RepeatingSnapshotCommand) (now : Int) : SnapshotRepeatingOpInfo V where
  toSnapshotOpInfo := .ofCommand cmd now

/-- `init`: a name that comes twice has one cell. -/
def init (op : SnapshotRepeatingOpInfo V) (sanitizedPvNameList : List String) :
    SnapshotRepeatingOpInfo V :=
  { op with elementData := sanitizedPvNameList.dedup.map fun name => (name, none) }

def isTimeout (op : SnapshotRepeatingOpInfo V) (now : Int) : Bool × SnapshotRepeatingOpInfo V :=
  let (timeout, info) := op.toSnapshotOpInfo.baseTimeout now
  (timeout, { op with toSnapshotOpInfo := info })

/-- `addData` behind its test of the flag: the cell of the PV, if there is one, takes the event. -/
def store (op : SnapshotRepeatingOpInfo V) (event : MonitorEvent V) : SnapshotRepeatingOpInfo V :=
  { op with
    elementData := op.elementData.map fun (name, cell) =>
      if name = event.channelData.pvName then (name, some event) else (name, cell) }

/-- The submission of `getData` for the events that it has loaded. -/
def submission (result : List (MonitorEvent V)) : SnapshotSubmission V :=
  ⟨⟨true, true, true⟩, result, 0⟩

end SnapshotRepeatingOpInfo

/-! ## Interleavings -/

/-- Where a thread stands that runs a task of `epicsMonitorEvent`. -/
inductive DeliveryPhase (V : Type*) where
  | unlocked
  /-- with the lock, before `addData` of the first event loads `taking_data` -/
  | delivering (events : List (MonitorEvent V))
  /-- in `addData`, which has found `taking_data` set -/
  | storing (event : MonitorEvent V) (events : List (MonitorEvent V))

/-- Where the checker stands with the operation. -/
inductive RoundPhase (V : Type*) where
  | unlocked
  /-- with the lock, before `isTimeout` -/
  | locked (now : Int)
  /-- before `getData` -/
  | expired
  /-- in the loop of `getData`, with the cells that it has not loaded -/
  | loading (names : List String) (result : List (MonitorEvent V))
  /-- behind `getData` -/
  | submitted

/-- What happened to the operation: `addData` of an event stored it or turned it away, and `getData`
returned a submission. -/
inductive RepeatingRecord (V : Type*) where
  | delivered (event : MonitorEvent V)
  | dropped (event : MonitorEvent V)
  | submitted (submission : SnapshotSubmission V)
  deriving DecidableEq

inductive RepeatingStep (V : Type*) where
  | deliverLock (thread : ℕ) (events : List (MonitorEvent V))
  | deliverLoad (thread : ℕ)
  | deliverStore (thread : ℕ)
  | deliverUnlock (thread : ℕ)
  | roundLock (now : Int)
  | roundTimeout
  | roundStop
  | roundLoad
  | roundResume
  | roundUnlock
  | trigger
  | stop

/-- An operation with the threads that deliver to it and the checker. -/
structure RepeatingRun (V : Type*) where
  op : SnapshotRepeatingOpInfo V
  deliveries : List (DeliveryPhase V)
  round : RoundPhase V := .unlocked
  history : List (RepeatingRecord V) := []

def DeliveryPhase.isUnlocked : DeliveryPhase V → Bool
  | .unlocked => true
  | _ => false

def RoundPhase.isUnlocked : RoundPhase V → Bool
  | .unlocked => true
  | _ => false

namespace RepeatingRun

/-- The snapshot is registered, and so many threads deliver events. -/
def start (cmd : RepeatingSnapshotCommand) (sanitizedPvNameList : List String) (now : Int)
    (threads : ℕ) : RepeatingRun V where
  op := (SnapshotRepeatingOpInfo.make cmd now).init sanitizedPvNameList
  deliveries := List.replicate threads .unlocked

def setDelivery (run : RepeatingRun V) (thread : ℕ) (phase : DeliveryPhase V) : RepeatingRun V :=
  { run with deliveries := run.deliveries.set thread phase }

/-- Nobody holds the lock. -/
def isFree (run : RepeatingRun V) : Bool :=
  run.round.isUnlocked && run.deliveries.all DeliveryPhase.isUnlocked

/-- `taking_data.store(false)` and the begin of the loop of `getData`. -/
def stopTaking (run : RepeatingRun V) : RepeatingRun V :=
  { run with
    op := { run.op with takingData := false }
    round := .loading (run.op.elementData.map Prod.fst) [] }

/-- `taking_data.store(true)`, and `getData` returns. -/
def resumeTaking (run : RepeatingRun V) (result : List (MonitorEvent V)) : RepeatingRun V :=
  { run with
    op := { run.op with takingData := true }
    round := .submitted
    history := run.history ++ [.submitted (SnapshotRepeatingOpInfo.submission result)] }

/-- The lock is granted shared while the checker does not hold it, and exclusively while nobody
does. -/
def next (run : RepeatingRun V) : RepeatingStep V → Option (RepeatingRun V)
  | .deliverLock thread events =>
    match run.deliveries[thread]?, run.round with
    | some .unlocked, .unlocked => some (run.setDelivery thread (.delivering events))
    | _, _ => none
  | .deliverLoad thread =>
    match run.deliveries[thread]? with
    | some (.delivering (event :: events)) =>
      if run.op.takingData then some (run.setDelivery thread (.storing event events))
      else some { run.setDelivery thread (.delivering events) with
        history := run.history ++ [.dropped event] }
    | _ => none
  | .deliverStore thread =>
    match run.deliveries[thread]? with
    | some (.storing event events) =>
      some { run.setDelivery thread (.delivering events) with
        op := run.op.store event
        history := run.history ++ [.delivered event] }
    | _ => none
  | .deliverUnlock thread =>
    match run.deliveries[thread]? with
    | some (.delivering []) => some (run.setDelivery thread .unlocked)
    | _ => none
  | .roundLock now => if run.isFree then some { run with round := .locked now } else none
  | .roundTimeout =>
    match run.round with
    | .locked now =>
      let (timeout, op) := run.op.isTimeout now
      some { run with op, round := if timeout then .expired else .submitted }
    | _ => none
  | .roundStop =>
    match run.round with
    | .expired => some run.stopTaking
    | _ => none
  | .roundLoad =>
    match run.round with
    | .loading (name :: names) result =>
      some { run with
        round := .loading names (result ++ ((run.op.elementData.lookup name).join).toList) }
    | _ => none
  | .roundResume =>
    match run.round with
    | .loading [] result => some (run.resumeTaking result)
    | _ => none
  | .roundUnlock =>
    match run.round with
    | .submitted => some { run with round := .unlocked }
    | _ => none
  | .trigger =>
    if run.isFree then some { run with op := { run.op with requestToTrigger := true } } else none
  | .stop =>
    match run.round with
    | .unlocked => some { run with op := { run.op with isRunning := false } }
    | _ => none

end RepeatingRun

end K2eg
