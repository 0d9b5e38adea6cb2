import K2eg.Model.PVData
import K2eg.Model.SnapshotOpInfo
import K2eg.Model.TimeWindowEventBuffer

/-! # Back timed snapshot operations

`BackTimedBufferedSnapshotOpInfo`: monitor events go to the acquiring buffer, `isTimeout` swaps
it with the processing buffer, and `getData` submits what the processing buffer holds. -/

namespace K2eg

instance {V : Type*} : Inhabited (MonitorEvent V) := ⟨⟨.timeout, "", ⟨"", none⟩⟩⟩

/-- The loop of `filterPVField` that adds the requested fields. -/
def addFields (src : PVStructure) : List String → Except Failure Structure
  | [] => .ok []
  | field :: rest => do
    let pvField ← getSubFieldT src field
    let added ← addFields src rest
    return (field, pvField.type) :: added

/-- The loop of `filterPVField` that copies the values. -/
def copyFields (src : PVStructure) : List String → PVStructure → Except Failure PVStructure
  | [], filtered => .ok filtered
  | field :: rest, filtered => do
    let srcField ← getSubFieldT src field
    match getSubField filtered field with
    | some _ => copyFields src rest (PVField.copyTo field srcField filtered)
    | none => copyFields src rest filtered

/-- `filterPVField`. -/
def filterPVField (src : Option PVStructure) (fieldsToInclude : List String) :
    Except Failure (Option PVStructure) :=
  match src with
  | none => .ok none
  | some src => do
    let filteredStruct ← addFields src fieldsToInclude >>= createStructure
    let filtered ← copyFields src fieldsToInclude (FieldType.createPVStructure filteredStruct)
    return some filtered

/-- What `getData` makes of an event where fields are filtered. -/
def filterEvent (fieldsToInclude : List String) (event : MonitorEvent PVStructure) :
    Except Failure (Option (MonitorEvent PVStructure)) := do
  let data ← filterPVField event.channelData.data fieldsToInclude
  return some ⟨event.type, event.message, ⟨event.channelData.pvName, data⟩⟩

/-- `BackTimedBufferedSnapshotOpInfo`. -/
structure BackTimedBufferedSnapshotOpInfo extends SnapshotOpInfo where
  acquiringBuffer : TimeWindowEventBuffer (MonitorEvent PVStructure)
  processingBuffer : TimeWindowEventBuffer (MonitorEvent PVStructure)
  allPvs : List String := []
  pvsNoEvents : List String := []
  pendingPvsWithoutEvents : List String := []
  pendingPvsWithoutEventsReady : Bool := false

namespace BackTimedBufferedSnapshotOpInfo

/-- The constructor, with the default reserve and growth of the buffers. -/
def make (cmd : RepeatingSnapshotCommand) (now : Int) : BackTimedBufferedSnapshotOpInfo where
  toSnapshotOpInfo := .ofCommand cmd now
  acquiringBuffer := .make cmd.timeWindowMsec 1024 2
  processingBuffer := .make cmd.timeWindowMsec 1024 2

def init (op : BackTimedBufferedSnapshotOpInfo) (sanitizedPvNameList : List String) :
    BackTimedBufferedSnapshotOpInfo :=
  { op with
    allPvs := sanitizedPvNameList.dedup
    pvsNoEvents := sanitizedPvNameList.dedup
    pendingPvsWithoutEvents := []
    pendingPvsWithoutEventsReady := false }

/-- `onWindowTimeout`. -/
def onWindowTimeout (op : BackTimedBufferedSnapshotOpInfo) : BackTimedBufferedSnapshotOpInfo :=
  { op with pvsNoEvents := op.allPvs }

/-- What `isTimeout` does with the PVs without events, in timed mode. -/
def collectSilentPvs (op : BackTimedBufferedSnapshotOpInfo) (expired : Bool) :
    BackTimedBufferedSnapshotOpInfo :=
  if expired then
    onWindowTimeout { op with
      pendingPvsWithoutEvents := op.pvsNoEvents
      pendingPvsWithoutEventsReady := true }
  else { op with pendingPvsWithoutEvents := [], pendingPvsWithoutEventsReady := false }

/-- `std::swap` of the buffers. -/
def swapBuffers (op : BackTimedBufferedSnapshotOpInfo) : BackTimedBufferedSnapshotOpInfo :=
  { op with acquiringBuffer := op.processingBuffer, processingBuffer := op.acquiringBuffer }

def isTimeout (op : BackTimedBufferedSnapshotOpInfo) (now : Int) :
    Bool × BackTimedBufferedSnapshotOpInfo :=
  let (expired, info) := op.toSnapshotOpInfo.baseTimeout now
  let op := { op with toSnapshotOpInfo := { info with winTimeExpired := expired } }
  if op.cmd.triggered then
    if expired then (true, op.swapBuffers) else (false, op)
  else
    let forceFastExpire := decide ((now - op.lastForcedExpire).tdiv
      SnapshotOpInfo.nanosecondsPerMsec ≥ op.fastExpireTimeMsec)
    if expired || forceFastExpire then
      (true, ({ op with lastForcedExpire := now }.collectSilentPvs expired).swapBuffers)
    else (false, op)

/-- `addData`; `now` is the clock that it reads. -/
def addData (op : BackTimedBufferedSnapshotOpInfo) (event : MonitorEvent PVStructure)
    (now : Int) : BackTimedBufferedSnapshotOpInfo :=
  { op with
    acquiringBuffer := op.acquiringBuffer.push event now
    pvsNoEvents := op.pvsNoEvents.filter (· != event.channelData.pvName) }

/-- The events that `getData` fetches. -/
def fetchEvents (op : BackTimedBufferedSnapshotOpInfo) :
    Except Failure (List (MonitorEvent PVStructure)) :=
  if op.cmd.pvFieldFilterList.length > 0 then
    op.processingBuffer.fetchMapWindow (filterEvent op.cmd.pvFieldFilterList)
  else .ok op.processingBuffer.fetchWindow

/-- `getData`. Where a filter throws, the header counts as sent and the processing buffer keeps
its events. -/
def getData (op : BackTimedBufferedSnapshotOpInfo) :
    Except Failure (SnapshotSubmission PVStructure) × BackTimedBufferedSnapshotOpInfo :=
  match op.fetchEvents with
  | .error failure => (.error failure, { op with headerSent := true })
  | .ok result =>
    let tail := op.winTimeExpired || !op.isRunning
    (.ok ⟨⟨!op.headerSent, !result.isEmpty, tail⟩, result, 0⟩,
      { op with processingBuffer := op.processingBuffer.reset, headerSent := !tail })

def getPVsWithoutEvents (op : BackTimedBufferedSnapshotOpInfo) :
    List String × BackTimedBufferedSnapshotOpInfo :=
  if op.pendingPvsWithoutEventsReady then
    (op.pendingPvsWithoutEvents,
      { op with pendingPvsWithoutEvents := [], pendingPvsWithoutEventsReady := false })
  else (op.pvsNoEvents, op)

/-- The operation as the pipeline sees it: `isTimeout` and `getData` of the base class, whatever
the buffers hold. -/
theorem isTimeout_toSnapshotOpInfo (op : BackTimedBufferedSnapshotOpInfo) (now : Int)
    (htype : op.cmd.type = .timedBuffered) :
    ((op.isTimeout now).1, (op.isTimeout now).2.toSnapshotOpInfo) =
      op.toSnapshotOpInfo.isTimeout now := by
  simp only [isTimeout, SnapshotOpInfo.isTimeout, htype]
  cases hexpired : (op.toSnapshotOpInfo.baseTimeout now).1 with
  | false => split <;> split <;> simp_all [swapBuffers, collectSilentPvs]
  | true => split <;> split <;> simp_all [swapBuffers, collectSilentPvs, onWindowTimeout]

theorem getData_toSnapshotOpInfo (op : BackTimedBufferedSnapshotOpInfo)
    {events : List (MonitorEvent PVStructure)} (htype : op.cmd.type = .timedBuffered)
    (hevents : op.fetchEvents = .ok events) :
    op.getData.1 = .ok (op.toSnapshotOpInfo.getData events).1 ∧
      op.getData.2.toSnapshotOpInfo = (op.toSnapshotOpInfo.getData events).2 := by
  simp only [getData, SnapshotOpInfo.getData, hevents, htype]
  exact ⟨trivial, trivial⟩

end BackTimedBufferedSnapshotOpInfo

/-! ## Runs

The monitor events that reach an operation, the rounds of the expiration checker on it, and the
commands that trigger and stop it. -/

inductive BackTimedStep where
  | addData (event : MonitorEvent PVStructure) (now : Int)
  | checkerRound (now : Int)
  | trigger
  | stop

/-- An event that `addData` was given. Its number tells it from every other. -/
structure Arrival where
  number : ℕ
  event : MonitorEvent PVStructure
  time : Int

/-- What happened: an event arrived, or the buffers were swapped, with what `getData` returned and
the PVs without events. -/
inductive BackTimedRecord where
  | arrival (arrival : Arrival)
  | swap (now : Int) (result : Except Failure (SnapshotSubmission PVStructure))
      (nonUpdatedPvs : List String)

/-- The events that arrived. -/
def arrivals (history : List BackTimedRecord) : List Arrival :=
  history.filterMap fun
    | .arrival arrival => some arrival
    | .swap .. => none

/-- What `getData` returned, swap by swap. -/
def swaps (history : List BackTimedRecord) :
    List (Except Failure (SnapshotSubmission PVStructure)) :=
  history.filterMap fun
    | .arrival _ => none
    | .swap _ result _ => some result

/-- The state of a run. Nothing catches what `getData` throws, so it ends the process. -/
structure BackTimedRun where
  op : BackTimedBufferedSnapshotOpInfo
  clock : Int
  terminated : Bool := false
  history : List BackTimedRecord := []

namespace BackTimedRun

/-- The snapshot is registered: it is made and has its PVs. -/
def start (cmd : RepeatingSnapshotCommand) (sanitizedPvNameList : List String) (now : Int) :
    BackTimedRun where
  op := (BackTimedBufferedSnapshotOpInfo.make cmd now).init sanitizedPvNameList
  clock := now

/-- One pass of `expirationCheckerLoop` over the operation. -/
def checkerRound (run : BackTimedRun) (now : Int) : BackTimedRun :=
  let (timeout, op) := run.op.isTimeout now
  if timeout then
    match op.getData with
    | (.error failure, op) =>
      { run with
        op
        clock := now
        terminated := true
        history := run.history ++ [.swap now (.error failure) []] }
    | (.ok submission, op) =>
      let (nonUpdatedPvs, op) := op.getPVsWithoutEvents
      { run with
        op
        clock := now
        history := run.history ++ [.swap now (.ok submission) nonUpdatedPvs] }
  else { run with op, clock := now }

/-- The clock does not go back. -/
def next (run : BackTimedRun) (step : BackTimedStep) : Option BackTimedRun :=
  if run.terminated then none
  else
    match step with
    | .addData event now =>
      if now < run.clock then none
      else some { run with
        op := run.op.addData event now
        clock := now
        history := run.history ++ [.arrival ⟨(arrivals run.history).length, event, now⟩] }
    | .checkerRound now => if now < run.clock then none else some (run.checkerRound now)
    | .trigger => some { run with op := { run.op with requestToTrigger := true } }
    | .stop => some { run with op := { run.op with isRunning := false } }

end BackTimedRun

end K2eg
