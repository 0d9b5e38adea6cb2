import K2eg.Foundation.History
import K2eg.Foundation.Interleaving
import K2eg.Model.MonitorChecker
import K2eg.Verification.Monitors.Steps

/-! # The grace period

A monitor is stopped when nobody has read its topic, and nobody has requested it again, for longer
than the timeout. The purge timestamp of its row stands for this period. -/

namespace K2eg

open ChannelRepository History Interleaving

/-- The timeout that the calls of `setPurgeTimeout` ask for. -/
def effectiveTimeout (configured : Int) (history : List CheckerEvent) : Int :=
  history.foldl (fun timeout event =>
    match event with
    | .timeoutSet value => if value < 0 then configured else value
    | _ => timeout) configured

/-- A new request of a channel, or a subscriber that a scan has counted. -/
def CheckerEvent.Disturbs (pvName destination : String) (event : CheckerEvent) : Prop :=
  event = .stored pvName destination ∨ event = .subscriberCounted pvName destination

/-- The purge timestamp of a row was set, and its channel has been left alone since. -/
def StartedAt (history : List CheckerEvent) (row : ChannelMonitorType) : Prop :=
  Since (.purgeStarted row.pvName row.channelDestination row.startPurgeTs)
    (CheckerEvent.Disturbs row.pvName row.channelDestination) history

/-- A Stop comes after a grace period longer than the timeout. -/
def Justified (configured : Int) (past : List CheckerEvent) (event : CheckerEvent) : Prop :=
  ∀ monitor now, event = .stopBroadcast monitor now →
    StartedAt past monitor ∧ now - monitor.startPurgeTs > effectiveTimeout configured past

/-- Every Stop that the checker has broadcast comes after its grace period. -/
def StopsAfterGrace (checker : MonitorChecker) : Prop :=
  Throughout (Justified checker.configuration.monitorExpirationTimeout) checker.history

theorem justified_of_ne {configured : Int} {past : List CheckerEvent} {event : CheckerEvent}
    (h : ∀ monitor now, event ≠ .stopBroadcast monitor now) : Justified configured past event :=
  fun monitor now heq => absurd heq (h monitor now)

theorem effectiveTimeout_append {configured : Int} {history later : List CheckerEvent}
    (h : ∀ value, CheckerEvent.timeoutSet value ∉ later) :
    effectiveTimeout configured (history ++ later) = effectiveTimeout configured history := by
  rw [effectiveTimeout, List.foldl_append]
  induction later generalizing history with
  | nil => rfl
  | cons event rest ih =>
      rw [List.foldl_cons]
      have hrest : ∀ value, CheckerEvent.timeoutSet value ∉ rest := fun value hmem =>
        h value (List.mem_cons_of_mem _ hmem)
      cases event with
      | timeoutSet value => exact absurd List.mem_cons_self (h value)
      | _ => exact ih hrest

/-! ## Registrations -/

namespace NodeConfiguration

/-- A request of a monitor that the configuration has finds no purge timestamp to reset: the
repository is not asked in this case. -/
def Refreshes (node : NodeConfiguration) : List ChannelMonitorType → Prop
  | [] => True
  | description :: rest =>
    (node.nodeConfiguration.isPresent description.pvName (infoOf description) = true →
      ∀ row ∈ node.channelRepository.rows, row.sameChannel description = true →
        row.startPurgeTs = -1) ∧ (node.addOne description).2.Refreshes rest

instance decidableRefreshes : (node : NodeConfiguration) →
    (descriptions : List ChannelMonitorType) → Decidable (node.Refreshes descriptions)
  | _, [] => .isTrue trivial
  | node, description :: rest =>
    have := decidableRefreshes (node.addOne description).2 rest
    inferInstanceAs (Decidable ((node.nodeConfiguration.isPresent description.pvName
      (infoOf description) = true → ∀ row ∈ node.channelRepository.rows,
        row.sameChannel description = true → row.startPurgeTs = -1) ∧
          (node.addOne description).2.Refreshes rest))

/-- A purge timestamp that is still set belongs to another channel. -/
theorem startPurgeTs_addLoop {node : NodeConfiguration} (h : node.channelRepository.Keyed)
    {descriptions : List ChannelMonitorType} (hrefreshes : node.Refreshes descriptions)
    {row : ChannelMonitorType} (hrow : row ∈ (node.addLoop descriptions).2.channelRepository.rows)
    (hset : row.startPurgeTs ≠ -1) :
    row ∈ node.channelRepository.rows ∧
      ∀ description ∈ descriptions, row.sameChannel description = false := by
  induction descriptions generalizing node with
  | nil => exact ⟨hrow, by simp⟩
  | cons description rest ih =>
      obtain ⟨hrefresh, hrest⟩ := hrefreshes
      rw [List.forall_mem_cons]
      rcases node.addOne_repository description with ⟨heq, hpresent⟩ | heq
      · obtain ⟨hmem, hothers⟩ := ih (heq ▸ h) hrest hrow
        rw [heq] at hmem
        refine ⟨hmem, ?_, hothers⟩
        by_contra hsame
        exact hset (hrefresh hpresent row hmem (by simpa using hsame))
      · obtain ⟨hmem, hothers⟩ := ih (heq ▸ h.insert description) hrest hrow
        rw [heq] at hmem
        rcases h.mem_insert hmem with ⟨hmem, hother⟩ | ⟨-, hreset⟩
        · exact ⟨hmem, hother, hothers⟩
        · exact absurd hreset hset

end NodeConfiguration

/-! ## Conditions -/

namespace MonitorChecker

/-- The calls are made one after the other. -/
def Sequential (checker : MonitorChecker) : CheckerStep → Prop
  | .setPurgeTimeout _ | .storeRegister _ => checker.scan = .idle
  | _ => True

instance (checker : MonitorChecker) : (step : CheckerStep) → Decidable (checker.Sequential step)
  | .setPurgeTimeout _ | .storeRegister _ => inferInstanceAs (Decidable (checker.scan = .idle))
  | .resetMonitorToProcess | .storeBroadcast _ | .scanBegin .. | .scanFetch | .scanHandle ..
  | .scanDelete _ | .scanFlag _ | .scanTag => .isTrue trivial

/-- The timeout falls back only where it is the default already, and the monitors of a request
that the configuration has are not in their grace period. -/
def Regular (checker : MonitorChecker) : CheckerStep → Prop
  | .setPurgeTimeout value =>
    value < 0 → checker.expirationTimeout = checker.configuration.monitorExpirationTimeout
  | .storeRegister descriptions => checker.node.Refreshes descriptions
  | _ => True

instance (checker : MonitorChecker) : (step : CheckerStep) → Decidable (checker.Regular step)
  | .setPurgeTimeout value => inferInstanceAs (Decidable (value < 0 →
      checker.expirationTimeout = checker.configuration.monitorExpirationTimeout))
  | .storeRegister descriptions =>
    inferInstanceAs (Decidable (checker.node.Refreshes descriptions))
  | .resetMonitorToProcess | .storeBroadcast _ | .scanBegin .. | .scanFetch | .scanHandle ..
  | .scanDelete _ | .scanFlag _ | .scanTag => .isTrue trivial

end MonitorChecker

/-! ## The invariant -/

/-- The row whose purge timestamp is about to be reset. -/
def ScanPhase.resetting : ScanPhase → Option Int
  | .flagging _ _ _ row purgeTsSetFlag => if purgeTsSetFlag = -1 then some row.id else none
  | _ => none

/-- The row that the scan has in hand is in the repository. -/
def ScanPhase.InHand (repository : ChannelRepository) : ScanPhase → Prop
  | .handling _ _ _ row => row ∈ repository.rows
  | .flagging _ _ _ row purgeTsSetFlag => purgeTsSetFlag = 1 → ∃ current ∈ repository.rows,
    current.id = row.id ∧ current.pvName = row.pvName ∧
      current.channelDestination = row.channelDestination
  | _ => True

/-- The purge timestamps tell when the grace periods have begun. -/
structure Graceful (checker : MonitorChecker) : Prop where
  timeout : checker.expirationTimeout =
    effectiveTimeout checker.configuration.monitorExpirationTimeout checker.history
  keyed : checker.node.channelRepository.Keyed
  started : ∀ row ∈ checker.node.channelRepository.rows, row.startPurgeTs ≠ -1 →
    checker.scan.resetting ≠ some row.id → StartedAt checker.history row
  inHand : checker.scan.InHand checker.node.channelRepository
  stops : StopsAfterGrace checker

namespace Graceful

variable {checker checker' : MonitorChecker}

theorem initial (configuration : MonitorCheckerConfiguration) (clock : Int) :
    Graceful (.initial configuration clock) where
  timeout := rfl
  keyed := keyed_empty
  started := by simp [MonitorChecker.initial]
  inHand := trivial
  stops := .nil

/-- What the purge timestamp of a row stood for, it stands for after an update of other columns. -/
theorem startedAt_of_had (h : Graceful checker) {row : ChannelMonitorType}
    (hhad : checker.node.channelRepository.Had row) (hset : row.startPurgeTs ≠ -1)
    (hresetting : checker.scan.resetting ≠ some row.id) : StartedAt checker.history row := by
  obtain ⟨old, hold, hid, hpv, hdest, hts⟩ := hhad
  have hstarted := h.started old hold (hts ▸ hset) (hid ▸ hresetting)
  rwa [StartedAt, hpv, hdest, hts] at hstarted

/-- The rows that keep their purge timestamp keep what it stands for. -/
theorem advance (h : Graceful checker)
    (hconfiguration : checker'.configuration = checker.configuration)
    (htimeout : checker'.expirationTimeout = checker.expirationTimeout)
    {later : List CheckerEvent} (hhistory : checker'.history = checker.history ++ later)
    (hnoTimeout : ∀ value, CheckerEvent.timeoutSet value ∉ later)
    (hnoStop : ∀ event ∈ later, ∀ monitor now, event ≠ .stopBroadcast monitor now)
    (hkeyed : checker'.node.channelRepository.Keyed)
    (hrows : ∀ row ∈ checker'.node.channelRepository.rows, row.startPurgeTs ≠ -1 →
      checker'.scan.resetting ≠ some row.id → StartedAt checker'.history row ∨
        (checker.scan.resetting ≠ some row.id ∧ checker.node.channelRepository.Had row ∧
          ∀ event ∈ later, ¬event.Disturbs row.pvName row.channelDestination))
    (hinHand : checker'.scan.InHand checker'.node.channelRepository) : Graceful checker' := by
  refine ⟨?_, hkeyed, fun row hrow hset hresetting => ?_, hinHand, ?_⟩
  · rw [htimeout, hconfiguration, hhistory, effectiveTimeout_append hnoTimeout, h.timeout]
  · rcases hrows row hrow hset hresetting with hstarted | ⟨hbefore, hhad, hquiet⟩
    · exact hstarted
    · rw [StartedAt, hhistory]
      exact (h.startedAt_of_had hhad hset hbefore).append hquiet
  · rw [StopsAfterGrace, hconfiguration, hhistory]
    exact h.stops.append fun past event hevent => justified_of_ne (hnoStop event hevent)

/-! ## The calls -/

theorem setPurgeTimeout (h : Graceful checker) (hidle : checker.scan = .idle) {value : Int}
    (hregular : value < 0 →
      checker.expirationTimeout = checker.configuration.monitorExpirationTimeout) :
    Graceful ((checker.setPurgeTimeout value).record [.timeoutSet value]) := by
  refine ⟨?_, h.keyed, fun row hrow hset _ => ?_, ?_, ?_⟩
  · rw [MonitorChecker.record, effectiveTimeout, List.foldl_append]
    by_cases hneg : value < 0
    · simpa [MonitorChecker.setPurgeTimeout, hneg] using hregular hneg
    · simp [MonitorChecker.setPurgeTimeout, hneg]
  · have hstarted := h.started row hrow hset (by simp [hidle, ScanPhase.resetting])
    exact hstarted.append (by simp [CheckerEvent.Disturbs])
  · show ScanPhase.InHand _ checker.scan
    rw [hidle]
    trivial
  · exact h.stops.snoc (justified_of_ne (by simp))

theorem resetMonitorToProcess (h : Graceful checker) (hidle : checker.scan = .idle) :
    Graceful { checker with node := checker.node.resetAllChannelMonitorCheck } := by
  refine h.advance rfl rfl (List.append_nil _).symm (by simp) (by simp)
    (h.keyed.resetProcessStateChannels _) ?_ ?_
  · intro row hrow _ hresetting
    exact .inr ⟨hresetting, had_of_mem_resets _ hrow, by simp⟩
  · show ScanPhase.InHand _ checker.scan
    rw [hidle]
    trivial

theorem storeRegister (h : Graceful checker) (hidle : checker.scan = .idle)
    {descriptions : List ChannelMonitorType} (hrefreshes : checker.node.Refreshes descriptions) :
    Graceful (checker.storeRegister descriptions) := by
  refine h.advance rfl rfl rfl (by simp) (by simp) (NodeConfiguration.keyed_addLoop h.keyed _) ?_ ?_
  · intro row hrow hset hresetting
    obtain ⟨hmem, hothers⟩ :=
      NodeConfiguration.startPurgeTs_addLoop h.keyed hrefreshes hrow hset
    refine .inr ⟨hresetting, had_of_mem hmem, ?_⟩
    rw [List.forall_mem_map]
    intro description hdescription
    have := hothers description hdescription
    simp only [ChannelMonitorType.sameChannel, decide_eq_false_iff_not] at this
    simpa [CheckerEvent.Disturbs, eq_comm] using this
  · show ScanPhase.InHand _ checker.scan
    rw [hidle]
    trivial

/-! ## The scan -/

theorem storeBroadcast (h : Graceful checker) {call : ℕ} {rest : List ChannelMonitorType}
    (monitor : ChannelMonitorType) :
    Graceful ({ checker with starts := Function.update checker.starts call rest }.record
      [.startBroadcast monitor]) := by
  refine h.advance rfl rfl rfl (by simp) (by simp) h.keyed ?_ h.inHand
  intro row hrow _ hresetting
  exact .inr ⟨hresetting, had_of_mem hrow, by simp [CheckerEvent.Disturbs]⟩

/-- The scan goes on without a write. -/
theorem setScan (h : Graceful checker) (scan : ScanPhase)
    (hresetting : checker.scan.resetting = none)
    (hinHand : scan.InHand checker.node.channelRepository) : Graceful (checker.setScan scan) := by
  refine h.advance rfl rfl (List.append_nil _).symm (by simp) (by simp) h.keyed ?_ hinHand
  intro row hrow _ _
  exact .inr ⟨by simp [hresetting], had_of_mem hrow, by simp⟩

theorem scanHandle (h : Graceful checker) {elementToProcess processed : ℕ} {names : List String}
    {row : ChannelMonitorType}
    (hscan : checker.scan = .handling elementToProcess names processed row)
    (metadata : Option (List SubscriberGroup)) (now : Int) :
    Graceful (checker.scanHandle elementToProcess names processed row metadata now) := by
  have hmem : row ∈ checker.node.channelRepository.rows := by
    have := h.inHand
    rwa [hscan] at this
  have hnone : checker.scan.resetting = none := by rw [hscan]; rfl
  cases metadata with
  | none => exact h.setScan (.flagging _ _ _ _ 0) hnone (by simp [ScanPhase.InHand])
  | some groups =>
      simp only [MonitorChecker.scanHandle]
      split
      · -- a subscriber is counted: the purge timestamp of this row alone stands for nothing now
        refine h.advance rfl rfl rfl (by simp) (by simp) h.keyed ?_
          fun hset => absurd hset (by decide)
        intro other hother _ hresetting
        refine .inr ⟨by simp [hnone], had_of_mem hother, ?_⟩
        simp only [List.mem_singleton, forall_eq, CheckerEvent.Disturbs, reduceCtorEq, false_or,
          CheckerEvent.subscriberCounted.injEq, not_and]
        intro hpv hdest
        have heq := h.keyed.eq_of_channel hmem hother hpv hdest
        exact hresetting (by rw [heq]; rfl)
      split
      · exact h.setScan _ hnone fun _ => ⟨row, hmem, rfl, rfl, rfl⟩
      split
      · rename_i hset hexpired
        have hstarted := h.started row hmem hset (by simp [hnone])
        refine ⟨?_, h.keyed, fun other hother hotherSet _ => ?_, trivial, ?_⟩
        · rw [MonitorChecker.record, effectiveTimeout_append (by simp)]
          exact h.timeout
        · exact (h.started other hother hotherSet (by simp [hnone])).append
            (by simp [CheckerEvent.Disturbs])
        · refine h.stops.snoc fun monitor now' heq => ?_
          obtain ⟨rfl, rfl⟩ := CheckerEvent.stopBroadcast.inj heq
          refine ⟨hstarted, ?_⟩
          rw [MonitorChecker.isTimeoutExpired, if_neg hset, decide_eq_true_eq,
            h.timeout] at hexpired
          exact hexpired
      · exact h.setScan _ hnone (by simp [ScanPhase.InHand])

theorem scanDelete (h : Graceful checker) {elementToProcess processed : ℕ} {names : List String}
    {row : ChannelMonitorType}
    (hscan : checker.scan = .stopping elementToProcess names processed row) (throws : Bool) :
    Graceful (checker.scanDelete elementToProcess names processed row throws) := by
  have hnone : checker.scan.resetting = none := by rw [hscan]; rfl
  have hflag : ScanPhase.InHand checker.node.channelRepository
      (.flagging elementToProcess names processed row 0) := by simp [ScanPhase.InHand]
  have hremoved : ∀ other ∈ (checker.node.channelRepository.remove row).rows,
      checker.node.channelRepository.Had other := fun other hother =>
    had_of_mem (mem_remove.mp hother).1
  rw [MonitorChecker.scanDelete]
  split
  · split
    · exact h.setScan _ hnone hflag
    · refine h.advance rfl rfl rfl (by simp) (by simp) (h.keyed.remove row) ?_
        (by simp [ScanPhase.InHand, MonitorChecker.record, MonitorChecker.setScan])
      intro other hother _ _
      exact .inr ⟨by simp [hnone], hremoved other hother, by simp [CheckerEvent.Disturbs]⟩
  · refine h.advance rfl rfl (List.append_nil _).symm (by simp) (by simp) (h.keyed.remove row) ?_
      (by simp [ScanPhase.InHand, MonitorChecker.setScan])
    intro other hother _ _
    exact .inr ⟨by simp [hnone], hremoved other hother, by simp⟩

theorem scanFlag (h : Graceful checker) {elementToProcess processed : ℕ} {names : List String}
    {row : ChannelMonitorType} {purgeTsSetFlag : Int}
    (hscan : checker.scan = .flagging elementToProcess names processed row purgeTsSetFlag)
    (now : Int) :
    Graceful ((checker.scanFlag row purgeTsSetFlag now).setScan
      (.tagging elementToProcess names processed row)) := by
  have hinHand := h.inHand
  rw [hscan] at hinHand
  rw [MonitorChecker.scanFlag]
  split
  · rename_i hreset
    refine h.advance rfl rfl (List.append_nil _).symm (by simp) (by simp)
      (h.keyed.updateRow _ (keepsKey_startPurgeTs (-1))) ?_ trivial
    intro current hcurrent hset _
    obtain ⟨old, hold, rfl⟩ := mem_updateRow.mp hcurrent
    split at hset
    · exact absurd rfl hset
    · rename_i hid
      rw [if_neg hid]
      refine .inr ⟨?_, had_of_mem hold, by simp⟩
      simpa [hscan, ScanPhase.resetting, hreset] using Ne.symm hid
  split
  · rename_i hstart
    refine h.advance rfl rfl rfl (by simp) (by simp)
      (h.keyed.updateRow _ (keepsKey_startPurgeTs now)) ?_ trivial
    intro current hcurrent hset _
    obtain ⟨old, hold, rfl⟩ := mem_updateRow.mp hcurrent
    by_cases hid : old.id = row.id
    · obtain ⟨known, hknown, hknownId, hpv, hdest⟩ := hinHand hstart
      obtain rfl := h.keyed.eq_of_id hold hknown (hid.trans hknownId.symm)
      rw [if_pos hid]
      left
      rw [StartedAt]
      dsimp only
      rw [hpv, hdest]
      exact since_snoc_self _ _
    · rw [if_neg hid]
      exact .inr ⟨by simp [hscan, ScanPhase.resetting, hstart], had_of_mem hold,
        by simp [CheckerEvent.Disturbs]⟩
  · rename_i hreset _
    exact h.setScan _ (by simp [hscan, ScanPhase.resetting, hreset]) trivial

theorem scanTag (h : Graceful checker) {elementToProcess processed : ℕ} {names : List String}
    {row : ChannelMonitorType}
    (hscan : checker.scan = .tagging elementToProcess names processed row) :
    Graceful ({ checker with node := { checker.node with
      channelRepository := checker.node.channelRepository.setProcessStateChannel row.id true }
        }.setScan (.fetching elementToProcess names processed)) := by
  refine h.advance rfl rfl (List.append_nil _).symm (by simp) (by simp)
    (h.keyed.updateRow _ (keepsKey_processed true)) ?_ trivial
  intro current hcurrent _ _
  obtain ⟨old, hold, rfl⟩ := mem_updateRow.mp hcurrent
  refine .inr ⟨by simp [hscan, ScanPhase.resetting], ⟨old, hold, ?_⟩, by simp⟩
  split <;> exact ⟨rfl, rfl, rfl, rfl⟩

/-- The clock alone moves. -/
theorem setClock (h : Graceful checker) (clock : Int) : Graceful { checker with clock } :=
  ⟨h.timeout, h.keyed, h.started, h.inHand, h.stops⟩

theorem next (h : Graceful checker) {step : CheckerStep} (hsequential : checker.Sequential step)
    (hregular : checker.Regular step) (hnext : checker.next step = some checker') :
    Graceful checker' := by
  cases MonitorChecker.transition_of_next hnext with
  | setPurgeTimeout => exact h.setPurgeTimeout hsequential hregular
  | resetMonitorToProcess idle => exact h.resetMonitorToProcess idle
  | storeRegister => exact h.storeRegister hsequential hregular
  | storeBroadcast => exact h.storeBroadcast _
  | scanBegin _ hscan | scanEnd hscan | skipName hscan =>
      exact h.setScan _ (by rw [hscan]; rfl) trivial
  | takeRow fetching found =>
      exact h.setScan _ (by rw [fetching]; rfl) (List.mem_of_find?_eq_some found)
  | @scanHandle _ _ _ _ now handling metadata =>
      exact (h.setClock now).scanHandle handling metadata now
  | scanDelete stopping throws => exact h.scanDelete stopping throws
  | @scanFlag _ _ _ _ _ now flagging => exact (h.setClock now).scanFlag flagging now
  | scanTag tagging => exact h.scanTag tagging

end Graceful

/-! ## Runs -/

namespace MonitorTrace

/-- A monitor of a topic that nobody reads. -/
def unread : ChannelMonitorType where
  pvName := "pva://a"
  eventSerialization := 0
  channelDestination := "a"

/-- A scan of this monitor, up to the purge handler. -/
def handle (now : Int) : List CheckerStep :=
  [.scanBegin 10 ["pva://a"], .scanFetch, .scanHandle (some []) now]

/-- The rest of the scan. -/
def finish (now : Int) : List CheckerStep := [.scanFlag now, .scanTag, .scanFetch, .scanFetch]

end MonitorTrace

namespace MonitorChecker

open MonitorTrace

/-- As long as the timeout falls back only where it is the default already, and a monitor is
requested again only while its purge timestamp is not set or its serialization is new, every Stop
comes after its grace period. -/
theorem stopsAfterGrace_of_run (configuration : MonitorCheckerConfiguration) (clock : Int)
    {steps : List CheckerStep} {checker : MonitorChecker}
    (h : Run next (fun checker step => checker.Sequential step ∧ checker.Regular step)
      (initial configuration clock) steps checker) : StopsAfterGrace checker := by
  have hgraceful : Graceful checker :=
    h.invariant (I := fun _ checker => Graceful checker) (Graceful.initial configuration clock)
      fun hbefore hallowed hnext => hbefore.next hallowed.1 hallowed.2 hnext
  exact hgraceful.stops

/-- Nobody reads the topic of a monitor: it is stopped behind its grace period. -/
theorem stopsAfterGrace_of_run_unread : ∃ steps checker,
    Run next (fun checker step => checker.Sequential step ∧ checker.Regular step)
        (initial ⟨3600, true, fun _ => false⟩ 0) steps checker ∧
      .stopBroadcast { unread with id := 1, startPurgeTs := 20 } 40 ∈ checker.history ∧
      StopsAfterGrace checker := by
  obtain ⟨checker, hrun, hstopped⟩ := exists_run next
    (fun checker step => checker.Sequential step ∧ checker.Regular step)
    (initial ⟨3600, true, fun _ => false⟩ 0)
    ([.setPurgeTimeout 10, .storeRegister [unread]] ++ handle 20 ++ finish 20 ++
      [.resetMonitorToProcess] ++ handle 40)
    (fun checker => .stopBroadcast { unread with id := 1, startPurgeTs := 20 } 40 ∈ checker.history)
    (by decide +kernel)
  exact ⟨_, checker, hrun, of_decide_eq_true hstopped, stopsAfterGrace_of_run _ _ hrun⟩

/-- A negative value keeps the shorter timeout that was set before. -/
theorem not_stopsAfterGrace_fallback : ¬∀ (configuration : MonitorCheckerConfiguration)
    (clock : Int) (steps : List CheckerStep) (checker : MonitorChecker),
    Run next Sequential (initial configuration clock) steps checker → StopsAfterGrace checker := by
  intro h
  let past : List CheckerEvent := [.timeoutSet 10, .timeoutSet (-1), .stored "pva://a" "a",
    .purgeStarted "pva://a" "a" 20]
  let stopped : ChannelMonitorType := { unread with id := 1, startPurgeTs := 20 }
  obtain ⟨checker, hrun, hhistory⟩ := exists_run next Sequential
    (initial ⟨3600, true, fun _ => false⟩ 0)
    ([.setPurgeTimeout 10, .setPurgeTimeout (-1), .storeRegister [unread]] ++ handle 20 ++
      finish 20 ++ [.resetMonitorToProcess] ++ handle 40)
    (fun checker => checker.history = past ++ [.stopBroadcast stopped 40] ∧
      checker.configuration.monitorExpirationTimeout = 3600)
    (by decide +kernel)
  obtain ⟨hhistory, hconfigured⟩ := of_decide_eq_true hhistory
  obtain ⟨-, hlate⟩ := h _ _ _ checker hrun past (.stopBroadcast stopped 40) [] hhistory _ _ rfl
  rw [hconfigured] at hlate
  exact absurd hlate (by decide)

/-- A monitor that is requested again in its grace period is stopped at the end of this period. -/
theorem not_stopsAfterGrace_requested : ¬∀ (configuration : MonitorCheckerConfiguration)
    (clock : Int) (steps : List CheckerStep) (checker : MonitorChecker),
    Run next Sequential (initial configuration clock) steps checker → StopsAfterGrace checker := by
  intro h
  let past : List CheckerEvent := [.stored "pva://a" "a", .purgeStarted "pva://a" "a" 20,
    .stored "pva://a" "a"]
  let stopped : ChannelMonitorType := { unread with id := 1, startPurgeTs := 20 }
  obtain ⟨checker, hrun, hhistory⟩ := exists_run next Sequential
    (initial ⟨10, true, fun _ => false⟩ 0)
    ([.storeRegister [unread]] ++ handle 20 ++ finish 20 ++
      [.resetMonitorToProcess, .storeRegister [unread]] ++ handle 40)
    (fun checker => checker.history = past ++ [.stopBroadcast stopped 40]) (by decide +kernel)
  obtain ⟨⟨before, after, hsplit, hquiet⟩, -⟩ := h _ _ _ checker hrun past
    (.stopBroadcast stopped 40) [] (of_decide_eq_true hhistory) _ _ rfl
  rcases before with _ | ⟨_, _ | ⟨_, _ | ⟨_, before⟩⟩⟩ <;>
    simp [past, stopped, unread, CheckerEvent.Disturbs] at hsplit hquiet
  rw [← hsplit.2] at hquiet
  simp at hquiet

end MonitorChecker

end K2eg
