import K2eg.Model.NodeConfiguration

/-! # The monitor checker

`MonitorChecker` registers requested monitors and stops those whose topic nobody reads.
`scanForMonitorToStop` is cut at the points where `op_mux` is taken and released. -/

namespace K2eg

/-- A consumer group of a topic, as `getQueueMetadata` reports it. -/
structure SubscriberGroup where
  name : String
  subscribers : ℕ
  deriving DecidableEq, Repr

/-- `MonitorCheckerConfiguration`; `excludeConsumer` is whether one of `filter_out_regex` matches
the name of a consumer group. -/
structure MonitorCheckerConfiguration where
  monitorExpirationTimeout : Int
  purgeQueueOnMonitorTimeout : Bool
  excludeConsumer : String → Bool

/-- Where `scanForMonitorToStop` stands; `names` are the PV names that are left and `processed`
the rows that have been counted. -/
inductive ScanPhase where
  | idle
  /-- before the next row of the first name is fetched -/
  | fetching (elementToProcess : ℕ) (names : List String) (processed : ℕ)
  /-- before the purge handler -/
  | handling (elementToProcess : ℕ) (names : List String) (processed : ℕ)
    (row : ChannelMonitorType)
  /-- in the purge handler under `op_mux`, with Stop broadcast -/
  | stopping (elementToProcess : ℕ) (names : List String) (processed : ℕ)
    (row : ChannelMonitorType)
  /-- behind the purge handler, with `purge_ts_set_flag` -/
  | flagging (elementToProcess : ℕ) (names : List String) (processed : ℕ)
    (row : ChannelMonitorType) (purgeTsSetFlag : Int)
  /-- before the row is tagged as processed -/
  | tagging (elementToProcess : ℕ) (names : List String) (processed : ℕ)
    (row : ChannelMonitorType)
  deriving DecidableEq

/-- What the calls of the checker have done, for a PV and a destination. -/
inductive CheckerEvent where
  | timeoutSet (value : Int)
  | stored (pvName destination : String)
  | subscriberCounted (pvName destination : String)
  | purgeStarted (pvName destination : String) (now : Int)
  | startBroadcast (monitor : ChannelMonitorType)
  | stopBroadcast (monitor : ChannelMonitorType) (now : Int)
  | queueDeleted (destination : String)
  deriving DecidableEq

/-- `MonitorChecker`. `starts` are the Start broadcasts that a call of `storeMonitorData` has left,
`clock` the last reading of the system clock in seconds and `history` what has happened. -/
structure MonitorChecker where
  configuration : MonitorCheckerConfiguration
  node : NodeConfiguration
  expirationTimeout : Int
  scan : ScanPhase := .idle
  calls : ℕ := 0
  starts : ℕ → List ChannelMonitorType := fun _ => []
  clock : Int
  history : List CheckerEvent := []

/-- The steps of the calls: the system clock, the metadata of the topic and the outcome of
`deleteQueue` come from outside. Metadata are absent where `getQueueMetadata` throws. -/
inductive CheckerStep where
  | setPurgeTimeout (value : Int)
  | resetMonitorToProcess
  | storeRegister (descriptions : List ChannelMonitorType)
  | storeBroadcast (call : ℕ)
  | scanBegin (elementToProcess : ℕ) (names : List String)
  | scanFetch
  | scanHandle (metadata : Option (List SubscriberGroup)) (now : Int)
  | scanDelete (throws : Bool)
  | scanFlag (now : Int)
  | scanTag

namespace MonitorChecker

/-- The checker of a node without monitors. -/
def initial (configuration : MonitorCheckerConfiguration) (clock : Int) : MonitorChecker where
  configuration
  node := ⟨{}, .empty, []⟩
  expirationTimeout := configuration.monitorExpirationTimeout
  clock

def setScan (checker : MonitorChecker) (scan : ScanPhase) : MonitorChecker :=
  { checker with scan }

def record (checker : MonitorChecker) (events : List CheckerEvent) : MonitorChecker :=
  { checker with history := checker.history ++ events }

/-- The groups that the scan does not count: excluded ones, and those without a subscriber. -/
def filteredOut (checker : MonitorChecker) (groups : List SubscriberGroup) : ℕ :=
  groups.countP fun group =>
    checker.configuration.excludeConsumer group.name || group.subscribers == 0

/-- `setPurgeTimeout`: for a negative value the parameter of the same name is assigned. -/
def setPurgeTimeout (checker : MonitorChecker) (value : Int) : MonitorChecker :=
  { checker with expirationTimeout := if value < 0 then checker.expirationTimeout else value }

/-- `isTimeoutExperid`. -/
def isTimeoutExpired (checker : MonitorChecker) (monitor : ChannelMonitorType) (now : Int) : Bool :=
  if monitor.startPurgeTs = -1 then false
  else decide (now - monitor.startPurgeTs > checker.expirationTimeout)

/-- The part of `storeMonitorData` under `op_mux`. -/
def storeRegister (checker : MonitorChecker) (descriptions : List ChannelMonitorType) :
    MonitorChecker :=
  { checker with
    node := (checker.node.addChannelMonitor descriptions).2
    calls := checker.calls + 1
    starts := Function.update checker.starts checker.calls descriptions }.record
      (descriptions.map fun (description : ChannelMonitorType) =>
        .stored description.pvName description.channelDestination)

/-- The purge handler up to the Stop broadcast. -/
def scanHandle (checker : MonitorChecker) (elementToProcess : ℕ) (names : List String)
    (processed : ℕ) (row : ChannelMonitorType) (metadata : Option (List SubscriberGroup))
    (now : Int) : MonitorChecker :=
  match metadata with
  | none => checker.setScan (.flagging elementToProcess names processed row 0)
  | some groups =>
    if groups.length - checker.filteredOut groups ≠ 0 then
      (checker.setScan (.flagging elementToProcess names processed row (-1))).record
        [.subscriberCounted row.pvName row.channelDestination]
    else if row.startPurgeTs = -1 then
      checker.setScan (.flagging elementToProcess names processed row 1)
    else if checker.isTimeoutExpired row now then
      (checker.setScan (.stopping elementToProcess names processed row)).record
        [.stopBroadcast row now]
    else checker.setScan (.flagging elementToProcess names processed row 0)

/-- The rest of the purge handler. Where `deleteQueue` throws, the row stays. -/
def scanDelete (checker : MonitorChecker) (elementToProcess : ℕ) (names : List String)
    (processed : ℕ) (row : ChannelMonitorType) (throws : Bool) : MonitorChecker :=
  let checker := checker.setScan (.flagging elementToProcess names processed row 0)
  if checker.configuration.purgeQueueOnMonitorTimeout then
    if throws then checker
    else { checker with node := checker.node.removeChannelMonitor [row] }.record
      [.queueDeleted row.channelDestination]
  else { checker with node := checker.node.removeChannelMonitor [row] }

/-- The writing of the purge timestamp behind the purge handler. -/
def scanFlag (checker : MonitorChecker) (row : ChannelMonitorType) (purgeTsSetFlag now : Int) :
    MonitorChecker :=
  if purgeTsSetFlag = -1 then
    { checker with node := { checker.node with
      channelRepository := checker.node.channelRepository.resetStartPurgeTimeStamp row.id } }
  else if purgeTsSetFlag = 1 then
    { checker with node := { checker.node with
      channelRepository :=
        checker.node.channelRepository.setStartPurgeTimeStamp row.id now } }.record
        [.purgeStarted row.pvName row.channelDestination now]
  else checker

/-- The step of a call; `none` where it is not enabled. A registration waits for `op_mux`, and the
scans and resets of the periodic task exclude each other. -/
def next (checker : MonitorChecker) : CheckerStep → Option MonitorChecker
  | .setPurgeTimeout value => some ((checker.setPurgeTimeout value).record [.timeoutSet value])
  | .resetMonitorToProcess =>
    match checker.scan with
    | .idle => some { checker with node := checker.node.resetAllChannelMonitorCheck }
    | _ => none
  | .storeRegister descriptions =>
    match checker.scan with
    | .stopping .. => none
    | _ => some (checker.storeRegister descriptions)
  | .storeBroadcast call =>
    match checker.starts call with
    | [] => none
    | monitor :: rest =>
      some ({ checker with starts := Function.update checker.starts call rest }.record
        [.startBroadcast monitor])
  | .scanBegin elementToProcess names =>
    match checker.scan with
    | .idle =>
      if names.Perm checker.node.channelRepository.getDistinctByNameProtocol then
        some (checker.setScan (.fetching elementToProcess names 0))
      else none
    | _ => none
  | .scanFetch =>
    match checker.scan with
    | .fetching _ [] _ => some (checker.setScan .idle)
    | .fetching elementToProcess (name :: names) processed =>
      match checker.node.channelRepository.getNextChannelMonitorToProcess name with
      | none => some (checker.setScan (.fetching elementToProcess names processed))
      | some row =>
        if processed + 1 > elementToProcess then
          some (checker.setScan (.fetching elementToProcess names (processed + 1)))
        else
          some (checker.setScan
            (.handling elementToProcess (name :: names) (processed + 1) row))
    | _ => none
  | .scanHandle metadata now =>
    match checker.scan with
    | .handling elementToProcess names processed row =>
      if checker.clock ≤ now then
        some ({ checker with clock := now }.scanHandle elementToProcess names processed row
          metadata now)
      else none
    | _ => none
  | .scanDelete throws =>
    match checker.scan with
    | .stopping elementToProcess names processed row =>
      some (checker.scanDelete elementToProcess names processed row throws)
    | _ => none
  | .scanFlag now =>
    match checker.scan with
    | .flagging elementToProcess names processed row purgeTsSetFlag =>
      if checker.clock ≤ now then
        some (({ checker with clock := now }.scanFlag row purgeTsSetFlag now).setScan
          (.tagging elementToProcess names processed row))
      else none
    | _ => none
  | .scanTag =>
    match checker.scan with
    | .tagging elementToProcess names processed row =>
      some ({ checker with node := { checker.node with
        channelRepository := checker.node.channelRepository.setProcessStateChannel row.id true }
          }.setScan (.fetching elementToProcess names processed))
    | _ => none

end MonitorChecker

end K2eg
