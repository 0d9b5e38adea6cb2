import Mathlib.Data.List.Induction
import K2eg.Verification.Configuration.Channels

/-! # Agreement of the stored configuration with the repository

A reload rebuilds the repository from the stored document. It agrees with the live
repository exactly when every removal takes all entries of the channels it removes. -/

namespace K2eg

/-- A call of the two operations that change the monitors of a node. -/
inductive ConfigCall where
  | addChannelMonitor (descriptions : List ChannelMonitorType)
  | removeChannelMonitor (descriptions : List ChannelMonitorType)

namespace NodeConfiguration

def perform (node : NodeConfiguration) : ConfigCall → NodeConfiguration
  | .addChannelMonitor descriptions => (node.addChannelMonitor descriptions).2
  | .removeChannelMonitor descriptions => node.removeChannelMonitor descriptions

def performAll (node : NodeConfiguration) (calls : List ConfigCall) : NodeConfiguration :=
  calls.foldl perform node

/-- A restart yields exactly the rows the repository holds. -/
def Agrees (node : NodeConfiguration) : Prop :=
  ∀ pvName destination serialization,
    node.loadNodeConfiguration.channelRepository.Holds pvName destination serialization ↔
      node.channelRepository.Holds pvName destination serialization

/-- A removal names every configured entry of its channels, as often as it is configured. -/
def Covers (node : NodeConfiguration) (descriptions : List ChannelMonitorType) : Prop :=
  ∀ description ∈ descriptions, ∀ serialization,
    (node.nodeConfiguration.equalRange description.pvName).count
        ⟨description.channelDestination, serialization⟩ ≤
      descriptions.countP fun other => decide (other.pvName = description.pvName ∧
        infoOf other = ⟨description.channelDestination, serialization⟩)

/-! ## What a reload yields -/

/-- The stored document denotes the configuration in memory, and no channel has two rows. -/
structure Consistent (node : NodeConfiguration) : Prop where
  stored : configFromJson node.stored = node.nodeConfiguration
  unique : node.channelRepository.Unique

/-- The configuration and the repository give each channel the same serialization. -/
def SameChannels (node : NodeConfiguration) : Prop :=
  ∀ pvName destination,
    node.nodeConfiguration.serializationOf pvName destination =
      node.channelRepository.serializationOf pvName destination

private theorem insertEntries_spec (entries : List (String × PVMonitorInfo)) :
    ∀ {repository : ChannelRepository}, repository.Unique →
      (insertEntries repository entries).Unique ∧
      ∀ pvName destination,
        (insertEntries repository entries).serializationOf pvName destination =
          (repository.serializationOf pvName destination).or
            ((entries.find? fun entry => decide (entry.1 = pvName ∧
              entry.2.pvDestinationTopic = destination)).map
                fun entry => entry.2.eventSerialization) := by
  induction entries with
  | nil => exact fun h => ⟨h, by simp [insertEntries]⟩
  | cons entry rest ih =>
      intro repository h
      obtain ⟨hunique, hrest⟩ :=
        ih (ChannelRepository.unique_insert h (entryDescription entry))
      refine ⟨hunique, fun pvName destination => ?_⟩
      calc (insertEntries repository (entry :: rest)).serializationOf pvName destination
          = ((repository.insert (entryDescription entry)).2.serializationOf
              pvName destination).or _ := hrest pvName destination
        _ = _ := by
          rw [ChannelRepository.serializationOf_insert, Option.or_assoc]
          congr 1
          by_cases hsame : entry.1 = pvName ∧ entry.2.pvDestinationTopic = destination
          · simp [entryDescription, hsame]
          · simp [entryDescription, hsame]

/-- The first entry of a channel in the whole map is the first one in its key's range. -/
theorem serializationOf_eq_find? (config : PVMonitorInfoMap) (pvName destination : String) :
    config.serializationOf pvName destination =
      (config.entries.find? fun entry => decide (entry.1 = pvName ∧
        entry.2.pvDestinationTopic = destination)).map
          fun entry => entry.2.eventSerialization := by
  simp only [PVMonitorInfoMap.serializationOf, Multimap.equalRange, List.find?_map,
    List.find?_filter, Option.map_map, Function.comp_def, Bool.decide_and, Bool.decide_eq_true]

theorem serializationOf_load (node : NodeConfiguration) (pvName destination : String) :
    node.loadNodeConfiguration.channelRepository.serializationOf pvName destination =
      (configFromJson node.stored).serializationOf pvName destination := by
  obtain ⟨-, hload⟩ := insertEntries_spec (configFromJson node.stored).entries
    node.channelRepository.unique_removeAll
  rw [serializationOf_eq_find?]
  exact hload pvName destination

theorem unique_load (node : NodeConfiguration) :
    node.loadNodeConfiguration.channelRepository.Unique :=
  (insertEntries_spec _ node.channelRepository.unique_removeAll).1

theorem consistent_load (node : NodeConfiguration) : node.loadNodeConfiguration.Consistent :=
  ⟨rfl, node.unique_load⟩

theorem sameChannels_load (node : NodeConfiguration) :
    node.loadNodeConfiguration.SameChannels :=
  fun pvName destination => (node.serializationOf_load pvName destination).symm

/-- A restart agrees if and only if configuration and repository agree channel by channel. -/
theorem Consistent.agrees_iff {node : NodeConfiguration} (h : node.Consistent) :
    node.Agrees ↔ node.SameChannels := by
  have hload : ∀ pvName destination,
      node.loadNodeConfiguration.channelRepository.serializationOf pvName destination =
        node.nodeConfiguration.serializationOf pvName destination := by
    intro pvName destination
    rw [serializationOf_load, h.stored]
  constructor
  · intro hagrees pvName destination
    apply Option.ext
    intro serialization
    have hrow := hagrees pvName destination serialization
    rwa [ChannelRepository.holds_iff node.unique_load, ChannelRepository.holds_iff h.unique,
      hload] at hrow
  · intro hsame pvName destination serialization
    rw [ChannelRepository.holds_iff node.unique_load, ChannelRepository.holds_iff h.unique,
      hload, hsame]

/-! ## Additions -/

theorem addOne_spec {node : NodeConfiguration} (hunique : node.channelRepository.Unique)
    (hsame : node.SameChannels) (description : ChannelMonitorType) :
    (node.addOne description).2.channelRepository.Unique ∧
      (node.addOne description).2.SameChannels := by
  unfold addOne
  split
  · exact ⟨hunique, hsame⟩
  · refine ⟨ChannelRepository.unique_insert hunique description, ?_⟩
    intro pvName destination
    have hchannel := hsame pvName destination
    simp only [PVMonitorInfoMap.serializationOf_insert, ChannelRepository.serializationOf_insert,
      hchannel, infoOf]

theorem addLoop_spec (descriptions : List ChannelMonitorType) :
    ∀ {node : NodeConfiguration}, node.channelRepository.Unique → node.SameChannels →
      (node.addLoop descriptions).2.channelRepository.Unique ∧
        (node.addLoop descriptions).2.SameChannels := by
  induction descriptions with
  | nil => exact fun hunique hsame => ⟨hunique, hsame⟩
  | cons description rest ih =>
      intro node hunique hsame
      obtain ⟨hunique', hsame'⟩ := addOne_spec hunique hsame description
      exact ih hunique' hsame'

theorem consistent_store {node : NodeConfiguration} (h : node.channelRepository.Unique) :
    node.store.Consistent :=
  ⟨configFromJson_configToJson node.nodeConfiguration, h⟩

theorem addChannelMonitor_spec {node : NodeConfiguration} (h : node.Consistent)
    (hsame : node.SameChannels) (descriptions : List ChannelMonitorType) :
    (node.addChannelMonitor descriptions).2.Consistent ∧
      (node.addChannelMonitor descriptions).2.SameChannels := by
  obtain ⟨hunique, hsame'⟩ := addLoop_spec descriptions h.unique hsame
  exact ⟨consistent_store hunique, hsame'⟩

/-! ## Removals -/

theorem unique_removeLoop (descriptions : List ChannelMonitorType) :
    ∀ {node : NodeConfiguration}, node.channelRepository.Unique →
      (descriptions.foldl removeOne node).channelRepository.Unique := by
  induction descriptions with
  | nil => exact id
  | cons description rest ih =>
      exact fun h => ih (ChannelRepository.unique_remove h description)

/-- The loop takes one configured entry for each description that names it. -/
theorem count_removeLoop (descriptions : List ChannelMonitorType) (pvName : String)
    (info : PVMonitorInfo) :
    ∀ node : NodeConfiguration,
      ((descriptions.foldl removeOne node).nodeConfiguration.equalRange pvName).count info =
        (node.nodeConfiguration.equalRange pvName).count info -
          descriptions.countP fun other => decide (other.pvName = pvName ∧
            infoOf other = info) := by
  induction descriptions with
  | nil => simp
  | cons description rest ih =>
      intro node
      rw [List.foldl_cons, ih, List.countP_cons]
      simp only [removeOne, PVMonitorInfoMap.count_removeFromKey, decide_eq_true_eq]
      omega

/-- A channel that no description names keeps its serialization on both sides. -/
theorem serializationOf_removeLoop_of_ne {pvName destination : String} :
    ∀ {descriptions : List ChannelMonitorType},
      (∀ description ∈ descriptions, ¬ (description.pvName = pvName ∧
        description.channelDestination = destination)) →
      ∀ node : NodeConfiguration,
        (descriptions.foldl removeOne node).nodeConfiguration.serializationOf
            pvName destination = node.nodeConfiguration.serializationOf pvName destination ∧
        (descriptions.foldl removeOne node).channelRepository.serializationOf
            pvName destination = node.channelRepository.serializationOf pvName destination := by
  intro descriptions
  induction descriptions with
  | nil => exact fun _ node => ⟨rfl, rfl⟩
  | cons description rest ih =>
      intro h node
      have hhead := h description (by simp)
      obtain ⟨hconfig, hrepository⟩ :=
        ih (fun other hother => h other (by simp [hother])) (removeOne node description)
      refine ⟨hconfig.trans ?_, hrepository.trans ?_⟩
      · exact PVMonitorInfoMap.serializationOf_removeFromKey_of_ne _ hhead
      · exact ChannelRepository.serializationOf_remove_of_ne _ hhead

/-- A removed channel has no row, and no later description brings one back. -/
theorem serializationOf_removeLoop_of_mem {description : ChannelMonitorType} :
    ∀ {descriptions : List ChannelMonitorType}, description ∈ descriptions →
      ∀ node : NodeConfiguration,
        (descriptions.foldl removeOne node).channelRepository.serializationOf
          description.pvName description.channelDestination = none := by
  intro descriptions
  -- Last description first: either it names the channel or it leaves the row away.
  induction descriptions using List.reverseRecOn with
  | nil => simp
  | append_singleton rest last ih =>
      intro hmem node
      rw [List.foldl_append, List.foldl_cons, List.foldl_nil]
      change (ChannelRepository.remove _ last).serializationOf _ _ = none
      by_cases hsame : last.pvName = description.pvName ∧
          last.channelDestination = description.channelDestination
      · rw [← hsame.1, ← hsame.2]
        exact ChannelRepository.serializationOf_remove_self _ last
      · rw [ChannelRepository.serializationOf_remove_of_ne _ hsame]
        rcases List.mem_append.mp hmem with hrest | hlast
        · exact ih hrest node
        · rw [List.mem_singleton] at hlast
          exact absurd ⟨by rw [hlast], by rw [hlast]⟩ hsame

theorem sameChannels_removeChannelMonitor_iff {node : NodeConfiguration}
    (hsame : node.SameChannels) (descriptions : List ChannelMonitorType) :
    (node.removeChannelMonitor descriptions).SameChannels ↔ node.Covers descriptions := by
  have hnamed : ∀ description ∈ descriptions,
      ((descriptions.foldl removeOne node).nodeConfiguration.serializationOf
          description.pvName description.channelDestination = none ↔
        ∀ serialization, (node.nodeConfiguration.equalRange description.pvName).count
            ⟨description.channelDestination, serialization⟩ ≤
          descriptions.countP fun other => decide (other.pvName = description.pvName ∧
            infoOf other = ⟨description.channelDestination, serialization⟩)) := by
    intro description _
    simp only [PVMonitorInfoMap.serializationOf_eq_none_iff, count_removeLoop,
      Nat.sub_eq_zero_iff_le]
  constructor
  · intro hafter description hmem
    refine (hnamed description hmem).mp ?_
    exact (hafter _ _).trans (serializationOf_removeLoop_of_mem hmem node)
  · intro hcovers pvName destination
    by_cases hmem : ∃ description ∈ descriptions, description.pvName = pvName ∧
        description.channelDestination = destination
    · obtain ⟨description, hmem, rfl, rfl⟩ := hmem
      have hconfig := (hnamed description hmem).mpr (hcovers description hmem)
      exact hconfig.trans (serializationOf_removeLoop_of_mem hmem node).symm
    · obtain ⟨hconfig, hrepository⟩ := serializationOf_removeLoop_of_ne
        (fun description hd heq => hmem ⟨description, hd, heq⟩) node
      exact hconfig.trans ((hsame pvName destination).trans hrepository.symm)

/-! ## Runs of calls -/

theorem consistent_perform {node : NodeConfiguration} (h : node.Consistent)
    (hsame : node.SameChannels) (call : ConfigCall) : (node.perform call).Consistent := by
  cases call with
  | addChannelMonitor descriptions => exact (addChannelMonitor_spec h hsame descriptions).1
  | removeChannelMonitor descriptions =>
      exact consistent_store (unique_removeLoop descriptions h.unique)

private theorem runAgrees_iff (calls : List ConfigCall) :
    ∀ {node : NodeConfiguration}, node.Consistent → node.SameChannels →
      ((∀ past future, past ++ future = calls → (node.performAll past).Agrees) ↔
        ∀ past descriptions future,
          past ++ .removeChannelMonitor descriptions :: future = calls →
            (node.performAll past).Covers descriptions) := by
  induction calls with
  | nil =>
      intro node h hsame
      refine ⟨fun _ past descriptions future heq => by simp at heq, fun _ past future heq => ?_⟩
      obtain ⟨rfl, rfl⟩ := List.append_eq_nil_iff.mp heq
      exact h.agrees_iff.mpr hsame
  | cons call rest ih =>
      intro node h hsame
      have hnext := consistent_perform h hsame call
      -- The first call agrees exactly when it is an addition or a removal that covers.
      have hcall : (node.perform call).SameChannels ↔
          ∀ descriptions, call = .removeChannelMonitor descriptions →
            node.Covers descriptions := by
        cases call with
        | addChannelMonitor descriptions =>
            simpa [perform] using (addChannelMonitor_spec h hsame descriptions).2
        | removeChannelMonitor descriptions =>
            simpa [perform] using sameChannels_removeChannelMonitor_iff hsame descriptions
      constructor
      · intro hagrees past descriptions future heq
        have hsame' : (node.perform call).SameChannels :=
          hnext.agrees_iff.mp (hagrees [call] rest rfl)
        cases past with
        | nil =>
            obtain ⟨rfl, rfl⟩ := List.cons.inj heq
            exact hcall.mp hsame' descriptions rfl
        | cons first past =>
            obtain ⟨rfl, htail⟩ := List.cons.inj heq
            refine (ih hnext hsame').mp ?_ past descriptions future htail
            exact fun past future h => hagrees (first :: past) future (by rw [← h]; rfl)
      · intro hcovers past future heq
        have hsame' : (node.perform call).SameChannels := by
          refine hcall.mpr fun descriptions hcall => hcovers [] descriptions rest ?_
          rw [hcall]
          rfl
        cases past with
        | nil => exact h.agrees_iff.mpr hsame
        | cons first past =>
            obtain ⟨rfl, htail⟩ := List.cons.inj heq
            refine (ih hnext hsame').mpr ?_ past future htail
            exact fun past descriptions future h =>
              hcovers (first :: past) descriptions future (by rw [← h]; rfl)

/-- From a freshly loaded node, a restart agrees after every call if and only if every removal
covers the channels it names. -/
theorem agreesThroughout_iff (node : NodeConfiguration) (calls : List ConfigCall) :
    (∀ past future, past ++ future = calls →
        (node.loadNodeConfiguration.performAll past).Agrees) ↔
      ∀ past descriptions future,
        past ++ .removeChannelMonitor descriptions :: future = calls →
          (node.loadNodeConfiguration.performAll past).Covers descriptions :=
  runAgrees_iff calls node.consistent_load node.sameChannels_load

/-- A PV is monitored to one destination with two serializations and one of them is removed.
The repository has dropped the channel; a restart brings it back. -/
theorem not_agrees_afterOneRemoval :
    ¬ ∀ (node : NodeConfiguration) (calls : List ConfigCall),
      (node.loadNodeConfiguration.performAll calls).Agrees := by
  intro hall
  let json : ChannelMonitorType :=
    { pvName := "pv", eventSerialization := 1, channelDestination := "topic" }
  let msgpack : ChannelMonitorType :=
    { pvName := "pv", eventSerialization := 2, channelDestination := "topic" }
  have hagrees := hall ⟨{}, .empty, []⟩
    [.addChannelMonitor [json, msgpack], .removeChannelMonitor [json]] "pv" "topic" 2
  obtain ⟨row, hrow, -⟩ := hagrees.mp (by unfold ChannelRepository.Holds; decide)
  exact List.not_mem_nil hrow

end NodeConfiguration

end K2eg
