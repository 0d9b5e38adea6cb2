import K2eg.Verification.Monitors.GracePeriod

/-! # Deleted topics

A topic is deleted with the row of one monitor. It is safe to do so while every topic belongs to a
single PV. -/

namespace K2eg

open ChannelRepository Interleaving

/-- Every topic belongs to one PV. -/
def ChannelRepository.Unshared (repository : ChannelRepository) : Prop :=
  ∀ a ∈ repository.rows, ∀ b ∈ repository.rows,
    a.channelDestination = b.channelDestination → a.pvName = b.pvName

/-- The requests name no destination that a row of another PV has. -/
def NodeConfiguration.OwnTopics (node : NodeConfiguration) : List ChannelMonitorType → Prop
  | [] => True
  | description :: rest =>
    (∀ row ∈ node.channelRepository.rows,
      row.channelDestination = description.channelDestination →
        row.pvName = description.pvName) ∧ (node.addOne description).2.OwnTopics rest

instance NodeConfiguration.decidableOwnTopics : (node : NodeConfiguration) →
    (descriptions : List ChannelMonitorType) → Decidable (node.OwnTopics descriptions)
  | _, [] => .isTrue trivial
  | node, description :: rest =>
    have := decidableOwnTopics (node.addOne description).2 rest
    inferInstanceAs (Decidable ((∀ row ∈ node.channelRepository.rows,
      row.channelDestination = description.channelDestination →
        row.pvName = description.pvName) ∧ (node.addOne description).2.OwnTopics rest))

/-- Where `deleteQueue` is called for a row, no other row has its destination. -/
def DeletesAlone (checker : MonitorChecker) : Prop :=
  ∀ elementToProcess names processed row,
    checker.scan = .stopping elementToProcess names processed row →
      checker.configuration.purgeQueueOnMonitorTimeout = true →
        ∀ other ∈ checker.node.channelRepository.rows,
          other.channelDestination = row.channelDestination → other.id = row.id

/-! ## Rows and topics -/

namespace ChannelRepository

variable {repository : ChannelRepository}

theorem Unshared.map (h : repository.Unshared) {update : ChannelMonitorType → ChannelMonitorType}
    (hkeeps : KeepsKey update) :
    { repository with rows := repository.rows.map update }.Unshared := by
  intro a ha b hb hdest
  obtain ⟨a', ha', rfl⟩ := List.mem_map.mp ha
  obtain ⟨b', hb', rfl⟩ := List.mem_map.mp hb
  rw [(hkeeps a').2.2, (hkeeps b').2.2] at hdest
  rw [(hkeeps a').2.1, (hkeeps b').2.1]
  exact h a' ha' b' hb' hdest

theorem Unshared.remove (h : repository.Unshared) (description : ChannelMonitorType) :
    (repository.remove description).Unshared := fun a ha b hb =>
  h a (mem_remove.mp ha).1 b (mem_remove.mp hb).1

theorem Unshared.insert (h : repository.Unshared) (hkeyed : repository.Keyed)
    {description : ChannelMonitorType}
    (hown : ∀ row ∈ repository.rows, row.channelDestination = description.channelDestination →
      row.pvName = description.pvName) : (repository.insert description).2.Unshared := by
  have hpv : ∀ row ∈ (repository.insert description).2.rows,
      row.channelDestination = description.channelDestination →
        row.pvName = description.pvName := by
    intro row hrow hdest
    rcases hkeyed.mem_insert hrow with ⟨hmem, -⟩ | ⟨hsame, -⟩
    · exact hown row hmem hdest
    · exact (of_decide_eq_true hsame).1
  intro a ha b hb hdest
  rcases hkeyed.mem_insert ha with ⟨ha', -⟩ | ⟨hsame, -⟩
  · rcases hkeyed.mem_insert hb with ⟨hb', -⟩ | ⟨hsame, -⟩
    · exact h a ha' b hb' hdest
    · have hb' := of_decide_eq_true hsame
      exact (hpv a ha (hdest.trans hb'.2)).trans hb'.1.symm
  · have ha' := of_decide_eq_true hsame
    exact ha'.1.trans (hpv b hb (hdest.symm.trans ha'.2)).symm

end ChannelRepository

theorem NodeConfiguration.unshared_addLoop {node : NodeConfiguration}
    (h : node.channelRepository.Unshared) (hkeyed : node.channelRepository.Keyed)
    {descriptions : List ChannelMonitorType} (hown : node.OwnTopics descriptions) :
    (node.addLoop descriptions).2.channelRepository.Unshared := by
  induction descriptions generalizing node with
  | nil => exact h
  | cons description rest ih =>
      obtain ⟨hfirst, hrest⟩ := hown
      have hadd : (node.addOne description).2.channelRepository.Unshared ∧
          (node.addOne description).2.channelRepository.Keyed := by
        rcases node.addOne_repository description with ⟨heq, -⟩ | heq
        · rw [heq]
          exact ⟨h, hkeyed⟩
        · rw [heq]
          exact ⟨h.insert hkeyed hfirst, hkeyed.insert description⟩
      exact ih hadd.1 hadd.2 hrest

/-! ## Runs -/

/-- Every topic belongs to one PV, and the scan holds a row of the repository. -/
structure Separate (checker : MonitorChecker) : Prop where
  keyed : checker.node.channelRepository.Keyed
  unshared : checker.node.channelRepository.Unshared
  held : ∀ row, checker.scan.held = some row → checker.node.channelRepository.Keeps row

namespace Separate

variable {checker checker' : MonitorChecker}

theorem deletesAlone (h : Separate checker) : DeletesAlone checker := by
  intro elementToProcess names processed row hscan _ other hother hdest
  obtain ⟨current, hcurrent, hid, hpv, hdest'⟩ := h.held row (by rw [hscan]; rfl)
  have hsamePv := h.unshared other hother current hcurrent (hdest.trans hdest'.symm)
  have heq := h.keyed.eq_of_channel hother hcurrent hsamePv (hdest.trans hdest'.symm)
  rw [heq, hid]

theorem next (h : Separate checker) {step : CheckerStep}
    (hown : ∀ descriptions, step = .storeRegister descriptions →
      checker.node.OwnTopics descriptions)
    (hnext : checker.next step = some checker') : Separate checker' := by
  refine ⟨MonitorChecker.keyed_of_next h.keyed hnext, ?_,
    fun row hheld => MonitorChecker.keeps_of_next h.held hnext hheld⟩
  have hmove := MonitorChecker.move_of_next hnext
  revert hmove
  generalize checker'.node.channelRepository = repository
  intro hmove
  cases hmove with
  | tagged keeps => exact h.unshared.map keeps
  | registered descriptions =>
      exact NodeConfiguration.unshared_addLoop h.unshared h.keyed (hown descriptions rfl)
  | removed => exact h.unshared.remove _

end Separate

namespace MonitorChecker

/-- A step registers only requests whose destinations belong to their PVs. -/
def RegistersOwnTopics (checker : MonitorChecker) : CheckerStep → Prop
  | .storeRegister descriptions => checker.node.OwnTopics descriptions
  | _ => True

instance (checker : MonitorChecker) : (step : CheckerStep) →
    Decidable (checker.RegistersOwnTopics step)
  | .storeRegister descriptions =>
    inferInstanceAs (Decidable (checker.node.OwnTopics descriptions))
  | .setPurgeTimeout _ | .resetMonitorToProcess | .storeBroadcast _ | .scanBegin .. | .scanFetch
  | .scanHandle .. | .scanDelete _ | .scanFlag _ | .scanTag => .isTrue trivial

/-- While no request names the topic of another PV, a deleted topic has no other row. -/
theorem deletesAlone_of_run (configuration : MonitorCheckerConfiguration) (clock : Int)
    {steps : List CheckerStep} {checker : MonitorChecker}
    (h : Run next RegistersOwnTopics (initial configuration clock) steps checker) :
    DeletesAlone checker := by
  have hseparate : Separate checker := by
    refine h.invariant (I := fun _ checker => Separate checker) ?_ ?_
    · exact ⟨keyed_empty, by simp [initial, Unshared], by simp [initial, ScanPhase.held]⟩
    · intro labels s step t hbefore hallowed hnext
      refine hbefore.next ?_ hnext
      rintro descriptions rfl
      exact hallowed
  exact hseparate.deletesAlone

open MonitorTrace in
/-- The only monitor of a topic is stopped. -/
theorem deletesAlone_of_run_unread : ∃ steps checker,
    Run next RegistersOwnTopics (initial ⟨10, true, fun _ => false⟩ 0) steps checker ∧
      checker.scan = .stopping 10 ["pva://a"] 1 { unread with id := 1, startPurgeTs := 20 } ∧
      DeletesAlone checker := by
  obtain ⟨checker, hrun, hstopping⟩ := exists_run next RegistersOwnTopics
    (initial ⟨10, true, fun _ => false⟩ 0)
    ([.storeRegister [unread]] ++ handle 20 ++ finish 20 ++ [.resetMonitorToProcess] ++ handle 40)
    (fun checker =>
      checker.scan = .stopping 10 ["pva://a"] 1 { unread with id := 1, startPurgeTs := 20 })
    (by decide +kernel)
  exact ⟨_, checker, hrun, of_decide_eq_true hstopping, deletesAlone_of_run _ _ hrun⟩

open MonitorTrace in
/-- Two PVs share a topic; the first of them to be stopped takes it from the other. -/
theorem not_deletesAlone_shared : ¬∀ (configuration : MonitorCheckerConfiguration) (clock : Int)
    (steps : List CheckerStep) (checker : MonitorChecker),
    Run next Sequential (initial configuration clock) steps checker → DeletesAlone checker := by
  intro h
  let other : ChannelMonitorType := { unread with pvName := "pva://b" }
  obtain ⟨checker, hrun, hcheck⟩ := exists_run next Sequential
    (initial ⟨10, true, fun _ => false⟩ 0)
    ([.storeRegister [unread], .storeRegister [other],
      .scanBegin 10 ["pva://a", "pva://b"], .scanFetch, .scanHandle (some []) 20, .scanFlag 20,
      .scanTag, .scanFetch, .scanFetch, .scanHandle (some []) 20, .scanFlag 20, .scanTag,
      .scanFetch, .scanFetch, .resetMonitorToProcess,
      .scanBegin 10 ["pva://a", "pva://b"], .scanFetch, .scanHandle (some []) 40])
    (fun checker =>
      checker.scan = .stopping 10 ["pva://a", "pva://b"] 1
        { unread with id := 1, startPurgeTs := 20 } ∧
      checker.configuration.purgeQueueOnMonitorTimeout = true ∧
      { other with id := 2, startPurgeTs := 20 } ∈ checker.node.channelRepository.rows)
    (by decide +kernel)
  obtain ⟨hscan, hpurge, hother⟩ := of_decide_eq_true hcheck
  exact absurd (h _ _ _ checker hrun _ _ _ _ hscan hpurge _ hother rfl) (by decide)

end MonitorChecker

end K2eg
