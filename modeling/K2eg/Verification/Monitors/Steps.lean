import K2eg.Model.MonitorChecker
import K2eg.Verification.Monitors.Rows

/-! # What the steps of the checker do to the rows

Whatever the interleaving, a step tags rows, registers a request or removes the channel that the
purge handler has stopped. The scan holds a row that stays in the repository until then. -/

namespace K2eg

open ChannelRepository

/-- The repository after a step. -/
inductive RepositoryMove (checker : MonitorChecker) : CheckerStep → ChannelRepository → Prop where
  | tagged {step update} (keeps : KeepsKey update) : RepositoryMove checker step
      { checker.node.channelRepository with
        rows := checker.node.channelRepository.rows.map update }
  | registered (descriptions : List ChannelMonitorType) :
      RepositoryMove checker (.storeRegister descriptions)
        (checker.node.addLoop descriptions).2.channelRepository
  | removed {elementToProcess names processed row}
      (stopping : checker.scan = .stopping elementToProcess names processed row) (throws : Bool)
      (returned : checker.configuration.purgeQueueOnMonitorTimeout = true → throws = false) :
      RepositoryMove checker (.scanDelete throws) (checker.node.channelRepository.remove row)

namespace ChannelRepository

variable {repository : ChannelRepository}

theorem KeepsKey.id : KeepsKey fun row => row := fun _ => ⟨rfl, rfl, rfl⟩

theorem map_id (repository : ChannelRepository) :
    { repository with rows := repository.rows.map fun row => row } = repository := by
  rw [List.map_id']

theorem KeepsKey.comp {first second : ChannelMonitorType → ChannelMonitorType}
    (hsecond : KeepsKey second) (hfirst : KeepsKey first) : KeepsKey (second ∘ first) := by
  intro row
  obtain ⟨hid, hpv, hdest⟩ := hsecond (first row)
  obtain ⟨hid', hpv', hdest'⟩ := hfirst row
  exact ⟨hid.trans hid', hpv.trans hpv', hdest.trans hdest'⟩

theorem resetProcessStateChannels_eq_map (pvNames : List String) (repository : ChannelRepository) :
    ∃ update, KeepsKey update ∧
      pvNames.foldl ChannelRepository.resetProcessStateChannel repository =
        { repository with rows := repository.rows.map update } := by
  induction pvNames generalizing repository with
  | nil => exact ⟨_, KeepsKey.id, (map_id repository).symm⟩
  | cons pvName rest ih =>
      obtain ⟨update, hkeeps, heq⟩ := ih (repository.resetProcessStateChannel pvName)
      have hreset : KeepsKey fun row : ChannelMonitorType =>
          if row.pvName = pvName then { row with processed := false } else row :=
        (keepsKey_processed false).ite fun row => row.pvName = pvName
      refine ⟨_, hkeeps.comp hreset, ?_⟩
      rw [List.foldl_cons, heq, ← List.map_map]
      rfl

/-- A row of the same id and channel. -/
def Keeps (repository : ChannelRepository) (row : ChannelMonitorType) : Prop :=
  ∃ current ∈ repository.rows, current.id = row.id ∧ current.pvName = row.pvName ∧
    current.channelDestination = row.channelDestination

theorem Keeps.map {row : ChannelMonitorType} (h : repository.Keeps row)
    {update : ChannelMonitorType → ChannelMonitorType} (hkeeps : KeepsKey update) :
    { repository with rows := repository.rows.map update }.Keeps row := by
  obtain ⟨current, hcurrent, hid, hpv, hdest⟩ := h
  obtain ⟨hid', hpv', hdest'⟩ := hkeeps current
  exact ⟨_, List.mem_map_of_mem hcurrent, hid'.trans hid, hpv'.trans hpv, hdest'.trans hdest⟩

end ChannelRepository

/-! ## Registrations -/

namespace NodeConfiguration

theorem addOne_repository (node : NodeConfiguration) (description : ChannelMonitorType) :
    (node.addOne description).2.channelRepository = node.channelRepository ∧
        node.nodeConfiguration.isPresent description.pvName (infoOf description) = true ∨
      (node.addOne description).2.channelRepository =
        (node.channelRepository.insert description).2 := by
  rw [addOne]
  split
  · exact .inl ⟨rfl, ‹_›⟩
  · exact .inr rfl

theorem keyed_addLoop {node : NodeConfiguration} (h : node.channelRepository.Keyed)
    (descriptions : List ChannelMonitorType) :
    (node.addLoop descriptions).2.channelRepository.Keyed := by
  induction descriptions generalizing node with
  | nil => exact h
  | cons description rest ih =>
      have hadd : (node.addOne description).2.channelRepository.Keyed := by
        rcases node.addOne_repository description with ⟨heq, -⟩ | heq <;> rw [heq]
        · exact h
        · exact h.insert description
      exact ih hadd

theorem keeps_addLoop {node : NodeConfiguration} {row : ChannelMonitorType}
    (h : node.channelRepository.Keeps row) (descriptions : List ChannelMonitorType) :
    (node.addLoop descriptions).2.channelRepository.Keeps row := by
  induction descriptions generalizing node with
  | nil => exact h
  | cons description rest ih =>
      have hadd : (node.addOne description).2.channelRepository.Keeps row := by
        rcases node.addOne_repository description with ⟨heq, -⟩ | heq
        · rwa [heq]
        · rw [heq]
          obtain ⟨current, hcurrent, hid, hpv, hdest⟩ := h
          obtain ⟨kept, hkept, hid', hpv', hdest'⟩ :=
            (exists_insert node.channelRepository description).1 current hcurrent
          exact ⟨kept, hkept, hid'.trans hid, hpv'.trans hpv, hdest'.trans hdest⟩
      exact ih hadd

end NodeConfiguration

/-! ## The steps -/

/-- What a step needs of the checker, and what it makes of it. -/
inductive CheckerTransition (checker : MonitorChecker) : CheckerStep → MonitorChecker → Prop where
  | setPurgeTimeout (value : Int) : CheckerTransition checker (.setPurgeTimeout value)
      ((checker.setPurgeTimeout value).record [.timeoutSet value])
  | resetMonitorToProcess (idle : checker.scan = .idle) :
      CheckerTransition checker .resetMonitorToProcess
        { checker with node := checker.node.resetAllChannelMonitorCheck }
  | storeRegister (descriptions : List ChannelMonitorType)
      (free : ∀ elementToProcess names processed row,
        checker.scan ≠ .stopping elementToProcess names processed row) :
      CheckerTransition checker (.storeRegister descriptions) (checker.storeRegister descriptions)
  | storeBroadcast {call monitor rest} (pending : checker.starts call = monitor :: rest) :
      CheckerTransition checker (.storeBroadcast call)
        ({ checker with starts := Function.update checker.starts call rest }.record
          [.startBroadcast monitor])
  | scanBegin {names} (elementToProcess : ℕ) (idle : checker.scan = .idle)
      (distinct : names.Perm checker.node.channelRepository.getDistinctByNameProtocol) :
      CheckerTransition checker (.scanBegin elementToProcess names)
        (checker.setScan (.fetching elementToProcess names 0))
  | scanEnd {elementToProcess processed}
      (fetching : checker.scan = .fetching elementToProcess [] processed) :
      CheckerTransition checker .scanFetch (checker.setScan .idle)
  | skipName {elementToProcess name names processed processed'}
      (fetching : checker.scan = .fetching elementToProcess (name :: names) processed)
      (skipped : checker.node.channelRepository.getNextChannelMonitorToProcess name = none ∧
          processed' = processed ∨
        processed + 1 > elementToProcess ∧ processed' = processed + 1) :
      CheckerTransition checker .scanFetch
        (checker.setScan (.fetching elementToProcess names processed'))
  | takeRow {elementToProcess name names processed row}
      (fetching : checker.scan = .fetching elementToProcess (name :: names) processed)
      (found : checker.node.channelRepository.getNextChannelMonitorToProcess name = some row)
      (room : processed + 1 ≤ elementToProcess) :
      CheckerTransition checker .scanFetch
        (checker.setScan (.handling elementToProcess (name :: names) (processed + 1) row))
  | scanHandle {elementToProcess names processed row now}
      (handling : checker.scan = .handling elementToProcess names processed row)
      (metadata : Option (List SubscriberGroup)) (later : checker.clock ≤ now) :
      CheckerTransition checker (.scanHandle metadata now)
        ({ checker with clock := now }.scanHandle elementToProcess names processed row metadata now)
  | scanDelete {elementToProcess names processed row}
      (stopping : checker.scan = .stopping elementToProcess names processed row) (throws : Bool) :
      CheckerTransition checker (.scanDelete throws)
        (checker.scanDelete elementToProcess names processed row throws)
  | scanFlag {elementToProcess names processed row purgeTsSetFlag now}
      (flagging : checker.scan = .flagging elementToProcess names processed row purgeTsSetFlag)
      (later : checker.clock ≤ now) :
      CheckerTransition checker (.scanFlag now)
        (({ checker with clock := now }.scanFlag row purgeTsSetFlag now).setScan
          (.tagging elementToProcess names processed row))
  | scanTag {elementToProcess names processed row}
      (tagging : checker.scan = .tagging elementToProcess names processed row) :
      CheckerTransition checker .scanTag
        ({ checker with node := { checker.node with
          channelRepository := checker.node.channelRepository.setProcessStateChannel row.id true }
            }.setScan (.fetching elementToProcess names processed))

namespace MonitorChecker

variable {checker checker' : MonitorChecker} {step : CheckerStep}

theorem transition_of_next (hnext : checker.next step = some checker') :
    CheckerTransition checker step checker' := by
  cases step with
  | setPurgeTimeout value =>
      cases hnext
      exact .setPurgeTimeout value
  | resetMonitorToProcess =>
      rw [next] at hnext
      split at hnext <;> cases hnext
      exact .resetMonitorToProcess ‹_›
  | storeRegister descriptions =>
      rw [next] at hnext
      split at hnext <;> cases hnext
      exact .storeRegister descriptions ‹_›
  | storeBroadcast call =>
      rw [next] at hnext
      split at hnext <;> cases hnext
      exact .storeBroadcast ‹_›
  | scanBegin elementToProcess names =>
      rw [next] at hnext
      split at hnext
      · split at hnext <;> cases hnext
        exact .scanBegin elementToProcess ‹_› ‹_›
      · cases hnext
  | scanFetch =>
      rw [next] at hnext
      split at hnext
      · cases hnext
        exact .scanEnd ‹_›
      · rename_i hscan
        split at hnext
        · cases hnext
          exact .skipName hscan (.inl ⟨‹_›, rfl⟩)
        · split at hnext <;> cases hnext
          · exact .skipName hscan (.inr ⟨‹_›, rfl⟩)
          · exact .takeRow hscan ‹_› (Nat.le_of_not_gt ‹_›)
      · cases hnext
  | scanHandle metadata now =>
      rw [next] at hnext
      split at hnext
      · split at hnext <;> cases hnext
        exact .scanHandle ‹_› metadata ‹_›
      · cases hnext
  | scanDelete throws =>
      rw [next] at hnext
      split at hnext <;> cases hnext
      exact .scanDelete ‹_› throws
  | scanFlag now =>
      rw [next] at hnext
      split at hnext
      · split at hnext <;> cases hnext
        exact .scanFlag ‹_› ‹_›
      · cases hnext
  | scanTag =>
      rw [next] at hnext
      split at hnext <;> cases hnext
      exact .scanTag ‹_›

/-- A step that leaves the repository alone. -/
theorem move_of_eq {repository : ChannelRepository}
    (h : repository = checker.node.channelRepository) : RepositoryMove checker step repository := by
  rw [h, ← map_id checker.node.channelRepository]
  exact .tagged KeepsKey.id

theorem scanHandle_node (elementToProcess : ℕ) (names : List String) (processed : ℕ)
    (row : ChannelMonitorType) (metadata : Option (List SubscriberGroup)) (now : Int) :
    (checker.scanHandle elementToProcess names processed row metadata now).node = checker.node := by
  cases metadata with
  | none => rfl
  | some groups =>
      simp only [scanHandle]
      split
      · rfl
      split
      · rfl
      split <;> rfl

theorem move_of_next (hnext : checker.next step = some checker') :
    RepositoryMove checker step checker'.node.channelRepository := by
  cases transition_of_next hnext with
  | resetMonitorToProcess =>
      obtain ⟨update, hkeeps, heq⟩ := resetProcessStateChannels_eq_map
        checker.node.channelRepository.getDistinctByNameProtocol checker.node.channelRepository
      rw [NodeConfiguration.resetAllChannelMonitorCheck]
      dsimp only
      rw [heq]
      exact .tagged hkeeps
  | storeRegister descriptions => exact .registered descriptions
  | scanHandle =>
      exact move_of_eq (congrArg NodeConfiguration.channelRepository (scanHandle_node ..))
  | scanDelete stopping throws =>
      rw [scanDelete]
      split
      · split
        · exact move_of_eq rfl
        · exact .removed stopping throws fun _ => by simp_all
      · exact .removed stopping throws fun hpurge => absurd hpurge (by assumption)
  | @scanFlag _ _ _ _ _ now =>
      rw [scanFlag]
      split
      · exact .tagged ((keepsKey_startPurgeTs (-1)).ite _)
      split
      · exact .tagged ((keepsKey_startPurgeTs now).ite _)
      · exact move_of_eq rfl
  | scanTag => exact .tagged ((keepsKey_processed true).ite _)
  | setPurgeTimeout | storeBroadcast | scanBegin | scanEnd | skipName | takeRow =>
      exact move_of_eq rfl

theorem keyed_of_next (h : checker.node.channelRepository.Keyed)
    (hnext : checker.next step = some checker') : checker'.node.channelRepository.Keyed := by
  have hmove := move_of_next hnext
  revert hmove
  generalize checker'.node.channelRepository = repository
  intro hmove
  cases hmove with
  | tagged keeps => exact h.map keeps
  | registered descriptions => exact NodeConfiguration.keyed_addLoop h descriptions
  | removed => exact h.remove _

end MonitorChecker

/-! ## The row in hand -/

/-- The row that the scan holds until it is removed. -/
def ScanPhase.held : ScanPhase → Option ChannelMonitorType
  | .handling _ _ _ row => some row
  | .stopping _ _ _ row => some row
  | _ => none

namespace MonitorChecker

variable {checker checker' : MonitorChecker} {step : CheckerStep} {row : ChannelMonitorType}

theorem held_scanHandle {elementToProcess processed : ℕ} {names : List String}
    {current : ChannelMonitorType} {metadata : Option (List SubscriberGroup)} {now : Int}
    (h : (checker.scanHandle elementToProcess names processed current metadata now).scan.held =
      some row) : current = row := by
  cases metadata with
  | none => cases h
  | some groups =>
      simp only [scanHandle] at h
      split at h
      · cases h
      split at h
      · cases h
      split at h <;> cases h
      rfl

/-- A held row was held before, or it has just been fetched. -/
theorem held_of_next (hnext : checker.next step = some checker')
    (hheld : checker'.scan.held = some row) :
    (∀ throws, step ≠ .scanDelete throws) ∧
      (checker.scan.held = some row ∨ row ∈ checker.node.channelRepository.rows) := by
  cases transition_of_next hnext with
  | setPurgeTimeout | resetMonitorToProcess | storeRegister | storeBroadcast =>
      exact ⟨by simp, .inl hheld⟩
  | takeRow _ found =>
      cases hheld
      exact ⟨by simp, .inr (List.mem_of_find?_eq_some found)⟩
  | scanHandle handling =>
      refine ⟨by simp, .inl ?_⟩
      rw [handling, ScanPhase.held, held_scanHandle hheld]
  | scanDelete =>
      rw [scanDelete] at hheld
      split at hheld
      · split at hheld <;> cases hheld
      · cases hheld
  | scanBegin | scanEnd | skipName | scanFlag | scanTag => cases hheld

theorem keeps_of_next
    (h : ∀ row, checker.scan.held = some row → checker.node.channelRepository.Keeps row)
    (hnext : checker.next step = some checker') (hheld : checker'.scan.held = some row) :
    checker'.node.channelRepository.Keeps row := by
  obtain ⟨hdelete, hbefore⟩ := held_of_next hnext hheld
  have hkeeps : checker.node.channelRepository.Keeps row := by
    rcases hbefore with hbefore | hmem
    · exact h row hbefore
    · exact ⟨row, hmem, rfl, rfl, rfl⟩
  have hmove := move_of_next hnext
  revert hmove
  generalize checker'.node.channelRepository = repository
  intro hmove
  cases hmove with
  | tagged keeps => exact hkeeps.map keeps
  | registered descriptions => exact NodeConfiguration.keeps_addLoop hkeeps descriptions
  | removed _ throws => exact absurd rfl (hdelete throws)

end MonitorChecker

/-- The purge handler stops the row: no subscriber is counted, and the timeout has expired. -/
def MonitorChecker.stopsNow (checker : MonitorChecker) (row : ChannelMonitorType)
    (metadata : Option (List SubscriberGroup)) (now : Int) : Bool :=
  match metadata with
  | none => false
  | some groups => groups.length - checker.filteredOut groups == 0 &&
    checker.isTimeoutExpired row now

/-! ## Broadcasts -/

/-- The row that has been stopped and is about to be removed. -/
def ScanPhase.stopped : ScanPhase → Option ChannelMonitorType
  | .stopping _ _ _ row => some row
  | _ => none

/-- The steps that neither register, remove nor broadcast a monitor. -/
def CheckerStep.isQuiet : CheckerStep → Bool
  | .storeRegister _ | .storeBroadcast _ | .scanHandle .. | .scanDelete _ => false
  | _ => true

namespace MonitorChecker

variable {checker checker' : MonitorChecker} {step : CheckerStep}

theorem stopped_scanHandle (elementToProcess : ℕ) (names : List String) (processed : ℕ)
    (row : ChannelMonitorType) (metadata : Option (List SubscriberGroup)) (now : Int) :
    (checker.scanHandle elementToProcess names processed row metadata now).scan.stopped =
      if checker.stopsNow row metadata now then some row else none := by
  cases metadata with
  | none => rfl
  | some groups =>
      simp only [scanHandle, stopsNow]
      split
      · rename_i hcounted
        simp [record, setScan, ScanPhase.stopped, hcounted]
      split
      · rename_i hts
        simp [setScan, ScanPhase.stopped, isTimeoutExpired, hts]
      split <;> simp_all [record, setScan, ScanPhase.stopped]

theorem scanHandle_starts (elementToProcess : ℕ) (names : List String) (processed : ℕ)
    (row : ChannelMonitorType) (metadata : Option (List SubscriberGroup)) (now : Int) :
    (checker.scanHandle elementToProcess names processed row metadata now).starts =
        checker.starts ∧
      (checker.scanHandle elementToProcess names processed row metadata now).calls =
        checker.calls := by
  cases metadata with
  | none => exact ⟨rfl, rfl⟩
  | some groups =>
      simp only [scanHandle]
      split
      · exact ⟨rfl, rfl⟩
      split
      · exact ⟨rfl, rfl⟩
      split <;> exact ⟨rfl, rfl⟩

theorem scanDelete_starts (elementToProcess : ℕ) (names : List String) (processed : ℕ)
    (row : ChannelMonitorType) (throws : Bool) :
    (checker.scanDelete elementToProcess names processed row throws).starts = checker.starts ∧
      (checker.scanDelete elementToProcess names processed row throws).calls = checker.calls ∧
      (checker.scanDelete elementToProcess names processed row throws).scan.stopped = none := by
  simp only [scanDelete]
  split
  · split <;> exact ⟨rfl, rfl, rfl⟩
  · exact ⟨rfl, rfl, rfl⟩

/-- What a step does to the broadcasts to come and to the row that is stopped. -/
inductive BroadcastMove (checker checker' : MonitorChecker) : CheckerStep → Prop where
  | registers (descriptions : List ChannelMonitorType)
      (starts : checker'.starts = Function.update checker.starts checker.calls descriptions)
      (calls : checker'.calls = checker.calls + 1) (scan : checker'.scan = checker.scan)
      (free : checker.scan.stopped = none) :
      BroadcastMove checker checker' (.storeRegister descriptions)
  | starts {call monitor rest} (pending : checker.starts call = monitor :: rest)
      (starts : checker'.starts = Function.update checker.starts call rest)
      (calls : checker'.calls = checker.calls) (scan : checker'.scan = checker.scan) :
      BroadcastMove checker checker' (.storeBroadcast call)
  | handles {metadata now row} (held : checker.scan.held = some row)
      (free : checker.scan.stopped = none)
      (starts : checker'.starts = checker.starts) (calls : checker'.calls = checker.calls)
      (stopped : checker'.scan.stopped =
        if checker.stopsNow row metadata now then some row else none) :
      BroadcastMove checker checker' (.scanHandle metadata now)
  | deletes {throws row} (stopped : checker.scan.stopped = some row)
      (starts : checker'.starts = checker.starts) (calls : checker'.calls = checker.calls)
      (closed : checker'.scan.stopped = none) :
      BroadcastMove checker checker' (.scanDelete throws)
  | quiet {other : CheckerStep} (quiet : other.isQuiet = true)
      (starts : checker'.starts = checker.starts) (calls : checker'.calls = checker.calls)
      (stopped : checker'.scan.stopped = checker.scan.stopped) :
      BroadcastMove checker checker' other

theorem broadcastMove_of_next (hnext : checker.next step = some checker') :
    BroadcastMove checker checker' step := by
  cases transition_of_next hnext with
  | setPurgeTimeout | resetMonitorToProcess => exact .quiet rfl rfl rfl rfl
  | storeRegister descriptions free =>
      refine .registers descriptions rfl rfl rfl ?_
      cases hscan : checker.scan <;> first | rfl | exact absurd hscan (free _ _ _ _)
  | storeBroadcast pending => exact .starts pending rfl rfl rfl
  | scanBegin _ hscan | scanEnd hscan | skipName hscan | takeRow hscan | scanTag hscan =>
      exact .quiet rfl rfl rfl (by rw [hscan]; rfl)
  | scanHandle handling =>
      exact .handles (by rw [handling]; rfl) (by rw [handling]; rfl) (scanHandle_starts ..).1
        (scanHandle_starts ..).2 (stopped_scanHandle ..)
  | scanDelete stopping =>
      exact .deletes (by rw [stopping]; rfl) (scanDelete_starts ..).1 (scanDelete_starts ..).2.1
        (scanDelete_starts ..).2.2
  | scanFlag flagging =>
      refine .quiet rfl ?_ ?_ (by rw [flagging]; rfl)
      · rw [scanFlag]
        split
        · rfl
        split <;> rfl
      · rw [scanFlag]
        split
        · rfl
        split <;> rfl

/-- Where `deleteQueue` returns, the stopped row is removed. -/
theorem removed_of_next {throws : Bool} (hnext : checker.next (.scanDelete throws) = some checker')
    (hreturns : checker.configuration.purgeQueueOnMonitorTimeout = true → throws = false) :
    ∃ row, checker.scan.held = some row ∧ checker.scan.stopped = some row ∧
      checker'.node.channelRepository = checker.node.channelRepository.remove row := by
  cases transition_of_next hnext with
  | @scanDelete _ _ _ row stopping =>
      refine ⟨row, by rw [stopping]; rfl, by rw [stopping]; rfl, ?_⟩
      simp only [scanDelete]
      split
      · rename_i hpurge
        rw [if_neg (by simp [hreturns hpurge])]
        rfl
      · rfl

end MonitorChecker

end K2eg
