import K2eg.Foundation.Interleaving
import K2eg.Foundation.Journal
import K2eg.Model.ConsulNodeConfiguration
import K2eg.Verification.Configuration.Agreement
import K2eg.Verification.Configuration.Document

/-! # Durability of the configuration

Whatever throws, is refused by the Consul server or ends the process: the document denotes the edits
up to the last write that the server has taken, and a restart goes on from there. -/

namespace K2eg

open Interleaving

namespace ConfigEdit

/-- What an edit does to a configuration. -/
def apply : ConfigEdit → PVMonitorInfoMap → PVMonitorInfoMap
  | .add description, config =>
    let info := NodeConfiguration.infoOf description
    if config.isPresent description.pvName info then config
    else config.insert description.pvName info
  | .remove description, config =>
    config.removeFromKey description.pvName (NodeConfiguration.infoOf description)

/-- The configuration that a history of edits leaves. -/
def replay (edits : List ConfigEdit) : PVMonitorInfoMap :=
  edits.foldl (fun config edit => edit.apply config) .empty

theorem addOne_nodeConfiguration (node : NodeConfiguration) (description : ChannelMonitorType) :
    (node.addOne description).2.nodeConfiguration =
      (ConfigEdit.add description).apply node.nodeConfiguration := by
  rw [NodeConfiguration.addOne, apply]
  split <;> rfl

@[simp] theorem replay_append_singleton (edits : List ConfigEdit) (edit : ConfigEdit) :
    replay (edits ++ [edit]) = edit.apply (replay edits) :=
  List.foldl_append

end ConfigEdit

/-- A node with the history of its edits. -/
structure JournaledNode where
  consul : ConsulNode
  journal : Journal ConfigEdit := {}

namespace JournaledNode

variable {s t : JournaledNode} {step : ConsulStep}

/-- What a step does to the history. -/
def moveOf (s : ConsulNode) : ConsulStep → Option (Journal.Move ConfigEdit)
  | .create true _ => some .erase
  | .edit =>
    match s.phase with
    | .editing (edit :: _) => some (.record edit)
    | _ => none
  | .throwEdit =>
    match s.phase with
    | .editing (.add description :: _) => some (.record (.add description))
    | _ => none
  | .setNodeConfiguration true => some .flush
  | .crash => some .lose
  | _ => none

def next (s : JournaledNode) (step : ConsulStep) : Option JournaledNode :=
  (s.consul.next step).map fun consul =>
    { consul, journal := (moveOf s.consul step).elim s.journal s.journal.perform }

def start (channelRepository : ChannelRepository) : JournaledNode :=
  ⟨.start channelRepository, {}⟩

/-- The process has loaded the configuration. -/
def runs (s : JournaledNode) : Prop :=
  match s.consul.phase with
  | .running | .editing _ => True
  | .down | .created => False

/-- The steps that do not reset the configuration. -/
def Keeping (_ : JournaledNode) : ConsulStep → Prop
  | .create resetOnStart _ => resetOnStart = false
  | _ => True

/-! ## The invariant -/

/-- The document denotes the durable edits, and the copy in memory all of them. -/
structure Durable (s : JournaledNode) : Prop where
  stored : s.consul.node.stored = configToJson (ConfigEdit.replay s.journal.durable)
  absent : s.consul.keyPresent = false → s.journal.durable = []
  memory : s.runs → s.consul.keyPresent = true ∧
    s.consul.node.nodeConfiguration = ConfigEdit.replay s.journal.applied
  stopped : ¬ s.runs → s.journal.pending = []

theorem Durable.start (channelRepository : ChannelRepository) :
    Durable (start channelRepository) where
  stored := rfl
  absent := fun _ => rfl
  memory := fun hruns => hruns.elim
  stopped := fun _ => rfl

/-- The document is read as what it denotes. -/
theorem Durable.getNodeConfiguration (h : Durable s) (hpresent : s.consul.keyPresent = true) :
    s.consul.getNodeConfiguration = .ok (ConfigEdit.replay s.journal.durable) := by
  rw [ConsulNode.getNodeConfiguration, if_pos hpresent, h.stored]
  exact ConfigurationDocument.configFromJson_of_configToJson _

theorem edit_stored (s : ConsulNode) (edit : ConfigEdit) :
    (s.edit edit).node.stored = s.node.stored := by
  cases edit with
  | add description =>
      rw [ConsulNode.edit, NodeConfiguration.addOne]
      split <;> rfl
  | remove description => rfl

theorem edit_keyPresent (s : ConsulNode) (edit : ConfigEdit) :
    (s.edit edit).keyPresent = s.keyPresent := by
  cases edit <;> rfl

theorem edit_nodeConfiguration (s : ConsulNode) (edit : ConfigEdit) :
    (s.edit edit).node.nodeConfiguration = edit.apply s.node.nodeConfiguration := by
  cases edit with
  | add description => exact ConfigEdit.addOne_nodeConfiguration s.node description
  | remove description => rfl

/-! ## Steps -/

/-- The constructor leaves a key with the empty configuration, if it has to write one. -/
theorem Durable.create (h : Durable s) (hphase : s.consul.phase = .down)
    (resetOnStart stored : Bool) :
    Durable ⟨s.consul.create resetOnStart stored,
      (moveOf s.consul (.create resetOnStart stored)).elim s.journal s.journal.perform⟩ := by
  have hpending : s.journal.pending = [] := h.stopped (by rw [runs, hphase]; exact id)
  cases resetOnStart with
  | true =>
      refine ⟨?_, fun _ => rfl, fun hruns => hruns.elim, fun _ => rfl⟩
      cases stored <;> rfl
  | false =>
      cases hpresent : s.consul.keyPresent with
      | true =>
          have hsame : s.consul.create false stored = { s.consul with phase := .created } := by
            simp [ConsulNode.create, hpresent]
          rw [hsame]
          exact ⟨h.stored, h.absent, fun hruns => hruns.elim, fun _ => hpending⟩
      | false =>
          have hnil := h.absent hpresent
          have hsame : s.consul.create false stored =
              { s.consul.put .empty stored with phase := .created } := by
            simp [ConsulNode.create, hpresent]
          rw [hsame]
          refine ⟨?_, fun _ => hnil, fun hruns => hruns.elim, fun _ => hpending⟩
          have hstored := h.stored
          rw [hnil] at hstored
          change (s.consul.put .empty stored).node.stored =
            configToJson (ConfigEdit.replay s.journal.durable)
          rw [hnil]
          cases stored with
          | true => rfl
          | false => exact hstored

/-- What the configuration is loaded as, where there is one. -/
theorem Durable.loadNodeConfiguration (h : Durable s) (hpresent : s.consul.keyPresent = true) :
    s.consul.loadNodeConfiguration =
      { s.consul with node := s.consul.node.loadNodeConfiguration, phase := .running } := by
  have hconfig : configFromJson s.consul.node.stored =
      ConfigEdit.replay s.journal.durable := by
    rw [h.stored]
    exact configFromJson_configToJson _
  rw [ConsulNode.loadNodeConfiguration, h.getNodeConfiguration hpresent]
  simp only [NodeConfiguration.loadNodeConfiguration, hconfig]

theorem Durable.load (h : Durable s) (hphase : s.consul.phase = .created) :
    Durable ⟨s.consul.loadNodeConfiguration, s.journal⟩ := by
  have hpending : s.journal.pending = [] := h.stopped (by rw [runs, hphase]; exact id)
  cases hpresent : s.consul.keyPresent with
  | true =>
      rw [h.loadNodeConfiguration hpresent]
      refine ⟨h.stored, h.absent, fun _ => ⟨hpresent, ?_⟩, fun hstopped => hpending⟩
      change configFromJson s.consul.node.stored = _
      rw [h.stored, configFromJson_configToJson, Journal.applied, hpending, List.append_nil]
  | false =>
      have hthrown : s.consul.getNodeConfiguration = .error .thrown := by
        rw [ConsulNode.getNodeConfiguration, hpresent]
        rfl
      rw [ConsulNode.loadNodeConfiguration, hthrown]
      exact ⟨h.stored, h.absent, fun hruns => hruns.elim, fun _ => hpending⟩

/-- The copy in memory is changed by an edit. -/
theorem Durable.record (h : Durable s) (hruns : s.runs) {consul : ConsulNode}
    (hstored : consul.node.stored = s.consul.node.stored)
    (hpresent : consul.keyPresent = s.consul.keyPresent) (edit : ConfigEdit)
    (hmemory : consul.node.nodeConfiguration = edit.apply s.consul.node.nodeConfiguration)
    (hafter : runs ⟨consul, s.journal.perform (.record edit)⟩) :
    Durable ⟨consul, s.journal.perform (.record edit)⟩ := by
  obtain ⟨hkey, hbefore⟩ := h.memory hruns
  refine ⟨hstored.trans h.stored, fun habsent => ?_, fun _ => ⟨hpresent.trans hkey, ?_⟩,
    fun hstopped => absurd hafter hstopped⟩
  · exact h.absent (hpresent.symm.trans habsent)
  · rw [hmemory, hbefore, Journal.applied_record, ConfigEdit.replay_append_singleton]

/-- A call begins, or an exception leaves it. -/
theorem Durable.rephase (h : Durable s) (hruns : s.runs) {phase : NodePhase}
    (hafter : runs ⟨{ s.consul with phase }, s.journal⟩) :
    Durable ⟨{ s.consul with phase }, s.journal⟩ :=
  ⟨h.stored, h.absent, fun _ => h.memory hruns, fun hstopped => absurd hafter hstopped⟩

theorem Durable.edit (h : Durable s) {edit : ConfigEdit} {rest : List ConfigEdit}
    (hphase : s.consul.phase = .editing (edit :: rest)) :
    Durable ⟨{ s.consul.edit edit with phase := .editing rest },
      s.journal.perform (.record edit)⟩ := by
  refine h.record (by rw [runs, hphase]; trivial) ?_ ?_ edit ?_ trivial
  · exact edit_stored s.consul edit
  · exact edit_keyPresent s.consul edit
  · exact edit_nodeConfiguration s.consul edit

/-- An addition that the database refuses is in the copy in memory all the same. -/
theorem Durable.throwAdd (h : Durable s) {description : ChannelMonitorType}
    {rest : List ConfigEdit} (hphase : s.consul.phase = .editing (.add description :: rest))
    {consul : ConsulNode} (hthrow : s.consul.throwEdit (.add description) = some consul) :
    Durable ⟨{ consul with phase := .running },
      s.journal.perform (.record (.add description))⟩ := by
  obtain ⟨habsent, heq⟩ := Option.ite_none_left_eq_some.mp hthrow
  obtain rfl := Option.some.inj heq
  refine h.record (by rw [runs, hphase]; trivial) ?_ ?_ (.add description) ?_ trivial
  · rfl
  · rfl
  · exact (if_neg habsent).symm

/-- The call ends with a write, or with one that is refused. -/
theorem Durable.setNodeConfiguration (h : Durable s)
    (hphase : s.consul.phase = .editing []) (stored : Bool) :
    Durable ⟨{ s.consul.put s.consul.node.nodeConfiguration stored with phase := .running },
      (moveOf s.consul (.setNodeConfiguration stored)).elim s.journal s.journal.perform⟩ := by
  obtain ⟨hkey, hmemory⟩ := h.memory (by rw [runs, hphase]; trivial)
  cases stored with
  | true =>
      refine ⟨congrArg configToJson hmemory, fun habsent => ?_, fun _ => ⟨rfl, ?_⟩,
        fun hstopped => (hstopped trivial).elim⟩
      · cases habsent
      · exact hmemory.trans (congrArg _ s.journal.applied_flush.symm)
  | false => exact h.rephase (by rw [runs, hphase]; trivial) trivial

theorem Durable.next (h : Durable s) (hnext : s.next step = some t) : Durable t := by
  obtain ⟨consul, hconsul, rfl⟩ := Option.map_eq_some_iff.mp hnext
  cases step with
  | create resetOnStart stored =>
      rw [ConsulNode.next] at hconsul
      split at hconsul
      case h_1 hphase =>
        obtain rfl := Option.some.inj hconsul
        exact h.create hphase resetOnStart stored
      case h_2 => cases hconsul
  | loadNodeConfiguration =>
      rw [ConsulNode.next] at hconsul
      split at hconsul
      case h_1 hphase =>
        obtain rfl := Option.some.inj hconsul
        exact h.load hphase
      case h_2 => cases hconsul
  | addChannelMonitor descriptions =>
      rw [ConsulNode.next] at hconsul
      split at hconsul
      case h_1 hphase =>
        obtain rfl := Option.some.inj hconsul
        exact h.rephase (by rw [runs, hphase]; trivial) trivial
      case h_2 => cases hconsul
  | removeChannelMonitor descriptions =>
      rw [ConsulNode.next] at hconsul
      split at hconsul
      case h_1 hphase =>
        obtain rfl := Option.some.inj hconsul
        exact h.rephase (by rw [runs, hphase]; trivial) trivial
      case h_2 => cases hconsul
  | edit =>
      rw [ConsulNode.next] at hconsul
      split at hconsul
      case h_1 edit rest hphase =>
        obtain rfl := Option.some.inj hconsul
        have hmove : moveOf s.consul .edit = some (.record edit) := by rw [moveOf, hphase]
        rw [hmove]
        exact h.edit hphase
      case h_2 => cases hconsul
  | throwEdit =>
      rw [ConsulNode.next] at hconsul
      split at hconsul
      case h_1 edit rest hphase =>
        obtain ⟨thrown, hthrow, rfl⟩ := Option.map_eq_some_iff.mp hconsul
        cases edit with
        | add description =>
            have hmove : moveOf s.consul .throwEdit = some (.record (.add description)) := by
              rw [moveOf, hphase]
            rw [hmove]
            exact h.throwAdd hphase hthrow
        | remove description =>
            have hmove : moveOf s.consul .throwEdit = none := by rw [moveOf, hphase]
            obtain rfl := Option.some.inj hthrow
            rw [hmove]
            exact h.rephase (by rw [runs, hphase]; trivial) trivial
      case h_2 => cases hconsul
  | setNodeConfiguration stored =>
      rw [ConsulNode.next] at hconsul
      split at hconsul
      case h_1 hphase =>
        obtain rfl := Option.some.inj hconsul
        exact h.setNodeConfiguration hphase stored
      case h_2 => cases hconsul
  | crash =>
      have hdown : consul = { s.consul with phase := .down } := by
        cases hphase : s.consul.phase <;> simp_all [ConsulNode.next]
      rw [hdown]
      exact ⟨h.stored, h.absent, fun hruns => hruns.elim, fun _ => rfl⟩

/-! ## Runs -/

theorem Durable.of_run (channelRepository : ChannelRepository) {steps : List ConsulStep}
    (hrun : AnyRun JournaledNode.next (JournaledNode.start channelRepository) steps s) :
    Durable s :=
  hrun.invariant (I := fun _ s => Durable s) (.start channelRepository)
    fun h _ hnext => h.next hnext

theorem moveOf_ne_erase (hkeeping : Keeping s step) : moveOf s.consul step ≠ some .erase := by
  cases step with
  | create resetOnStart stored =>
      obtain rfl : resetOnStart = false := hkeeping
      simp [moveOf]
  | setNodeConfiguration stored => cases stored <;> simp [moveOf]
  | edit =>
      rw [moveOf]
      split <;> simp
  | throwEdit =>
      rw [moveOf]
      split <;> simp
  | _ => simp [moveOf]

theorem durable_prefix_of_next (hkeeping : Keeping s step) (hnext : s.next step = some t) :
    s.journal.durable <+: t.journal.durable := by
  obtain ⟨consul, -, rfl⟩ := Option.map_eq_some_iff.mp hnext
  cases hmove : moveOf s.consul step with
  | none => exact List.prefix_refl _
  | some move =>
      apply Journal.durable_prefix
      rintro rfl
      exact moveOf_ne_erase hkeeping hmove

theorem durable_prefix_of_run {future : List ConsulStep}
    (hrun : Run next Keeping s future t) : s.journal.durable <+: t.journal.durable :=
  hrun.invariant (I := fun _ t => s.journal.durable <+: t.journal.durable) (List.prefix_refl _)
    fun hbefore hkeeping hnext => hbefore.trans (durable_prefix_of_next hkeeping hnext)

/-- The process has started again: the copy in memory has the durable edits, and the local database
has the same channels. -/
structure Restarted (s t : JournaledNode) : Prop where
  running : t.consul.phase = .running
  journal : t.journal = s.journal
  memory : t.consul.node.nodeConfiguration = ConfigEdit.replay s.journal.durable
  channels : t.consul.node.SameChannels
  consistent : t.consul.node.Consistent

theorem Durable.restarted (h : Durable s) (hpresent : s.consul.keyPresent = true) :
    Restarted s ⟨s.consul.loadNodeConfiguration, s.journal⟩ := by
  rw [h.loadNodeConfiguration hpresent]
  refine ⟨rfl, rfl, ?_, s.consul.node.sameChannels_load, s.consul.node.consistent_load⟩
  change configFromJson s.consul.node.stored = _
  rw [h.stored]
  exact configFromJson_configToJson _

/-- Where the server takes the first write, the process starts. -/
theorem Durable.restarts (h : Durable s) (hdown : s.consul.phase = .down) :
    ∃ created t, s.next (.create false true) = some created ∧
      created.next .loadNodeConfiguration = some t ∧ Restarted s t := by
  have hcreated : s.next (.create false true) =
      some ⟨s.consul.create false true, s.journal⟩ := by
    rw [JournaledNode.next, ConsulNode.next, hdown]
    rfl
  have hpresent : (s.consul.create false true).keyPresent = true := by
    cases hkey : s.consul.keyPresent <;> simp [ConsulNode.create, ConsulNode.put, hkey]
  have hloaded := (h.next hcreated).restarted hpresent
  exact ⟨_, _, hcreated, rfl, hloaded.running, hloaded.journal, hloaded.memory, hloaded.channels,
    hloaded.consistent⟩

/-- Whatever throws in the database, is refused by the Consul server, or ends the process and where:
the document denotes the edits up to the last write that was taken, and the copy in memory all edits
since the start, also those whose write was refused. A write that is taken makes all of them
durable, without a reset no durable edit gets lost, and the process can always start again, with the
durable edits in memory and in the local database. -/
theorem durable_of_run (channelRepository : ChannelRepository) {steps : List ConsulStep}
    (hrun : AnyRun next (start channelRepository) steps s) :
    Durable s ∧
    (∀ t, s.next (.setNodeConfiguration true) = some t →
      t.journal.durable = s.journal.applied) ∧
    (∀ (future : List ConsulStep) (t : JournaledNode), Run next Keeping s future t →
      s.journal.durable <+: t.journal.durable) ∧
    (s.consul.phase = .down → ∃ created t, s.next (.create false true) = some created ∧
      created.next .loadNodeConfiguration = some t ∧ Restarted s t) := by
  have h := Durable.of_run channelRepository hrun
  refine ⟨h, fun t hnext => ?_, fun _ _ => durable_prefix_of_run, h.restarts⟩
  obtain ⟨consul, -, rfl⟩ := Option.map_eq_some_iff.mp hnext
  rfl

/-- A monitor of a PV of the serialization 1. -/
private def monitorOf (pvName : String) : ChannelMonitorType where
  pvName
  eventSerialization := 1
  channelDestination := "a"

/-- The second of two calls is refused by the server, and the process ends in the third. -/
def refusedThenCrash : List ConsulStep :=
  [.create false true, .loadNodeConfiguration,
    .addChannelMonitor [monitorOf "pva://x"], .edit, .setNodeConfiguration true,
    .addChannelMonitor [monitorOf "pva://y"], .edit, .setNodeConfiguration false,
    .removeChannelMonitor [monitorOf "pva://x"], .edit, .crash]

theorem durable_of_run_refusedThenCrash :
    ∃ s, AnyRun next (start {}) refusedThenCrash s ∧ s.journal.durable.length = 1 ∧ Durable s := by
  obtain ⟨s, hrun, hcheck⟩ := exists_run next (fun _ _ => True) (start {}) refusedThenCrash
    (fun s => s.journal.durable.length == 1) (by decide +kernel)
  exact ⟨s, hrun, beq_iff_eq.mp hcheck, (durable_of_run {} hrun).1⟩

end JournaledNode

end K2eg
