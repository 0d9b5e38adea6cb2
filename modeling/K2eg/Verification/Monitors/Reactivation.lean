import K2eg.Verification.Configuration.Durability
import K2eg.Verification.Monitors.Startup

/-! # Monitors across restarts

What the Consul server has taken is what a restarted node monitors: a monitor that was added and not
removed is registered again once the startup has completed. -/

namespace K2eg

open Interleaving

namespace ConfigEdit

variable {config : PVMonitorInfoMap} {description : ChannelMonitorType} {edit : ConfigEdit}

/-- The entry of a description. -/
def entryOf (description : ChannelMonitorType) : String × PVMonitorInfo :=
  (description.pvName, NodeConfiguration.infoOf description)

/-- The edit takes an entry of the description out. -/
def Removes (description : ChannelMonitorType) : ConfigEdit → Prop
  | .add _ => False
  | .remove other => entryOf other = entryOf description

theorem mem_insert_iff {key : String} {info : PVMonitorInfo} {entry : String × PVMonitorInfo} :
    entry ∈ (config.insert key info).entries ↔ entry = (key, info) ∨ entry ∈ config.entries := by
  rw [← List.mem_cons]
  exact (Multimap.insertEntry_perm (key, info) config.entries).mem_iff

/-- An addition leaves its entry, also where it was there. -/
theorem mem_apply_add (config : PVMonitorInfoMap) (description : ChannelMonitorType) :
    entryOf description ∈ ((ConfigEdit.add description).apply config).entries := by
  rw [apply]
  split
  case isTrue hpresent =>
    obtain ⟨info, hmem, hsame⟩ := List.any_eq_true.mp hpresent
    obtain ⟨hserialization, htopic⟩ := of_decide_eq_true hsame
    obtain ⟨entry, hentry, rfl⟩ := List.mem_map.mp hmem
    obtain ⟨hentry, hkey⟩ := List.mem_filter.mp hentry
    have heq : entry = entryOf description := by
      obtain ⟨key, topic, serialization⟩ := entry
      simp_all [entryOf, NodeConfiguration.infoOf]
    exact heq ▸ hentry
  case isFalse => exact mem_insert_iff.mpr (.inl rfl)

theorem mem_apply (hmem : entryOf description ∈ config.entries)
    (hkept : ¬ edit.Removes description) : entryOf description ∈ (edit.apply config).entries := by
  cases edit with
  | add other =>
      rw [apply]
      split
      case isTrue => exact hmem
      case isFalse => exact mem_insert_iff.mpr (.inr hmem)
  | remove other =>
      apply (List.mem_erase_of_ne _).mpr hmem
      exact fun heq => hkept heq.symm

/-- The history adds the description, and does not remove it later. -/
def Leaves (edits : List ConfigEdit) (description : ChannelMonitorType) : Prop :=
  ∃ before after, edits = before ++ .add description :: after ∧
    ∀ edit ∈ after, ¬ edit.Removes description

theorem mem_replay {edits : List ConfigEdit} (h : Leaves edits description) :
    entryOf description ∈ (replay edits).entries := by
  obtain ⟨before, after, rfl, hkept⟩ := h
  induction after using List.reverseRecOn with
  | nil =>
      rw [replay_append_singleton]
      exact mem_apply_add _ description
  | append_singleton after edit ih =>
      have hbefore := ih fun other hother => hkept other (List.mem_append_left _ hother)
      rw [← List.cons_append, ← List.append_assoc, replay_append_singleton]
      exact mem_apply hbefore (hkept edit (List.mem_append_right _ List.mem_cons_self))

end ConfigEdit

namespace JournaledNode

variable {s : JournaledNode} {worker : MonitorStartup}

/-- A process that is started on the Consul server after any history of edits, refused writes,
exceptions and crashes: when the startup of its monitors has completed, whatever has thrown in it,
the registrations are those of the durable edits, and so each monitor that was added and not removed
is registered. -/
theorem reactivated_of_run (channelRepository : ChannelRepository) {steps : List ConsulStep}
    (hrun : AnyRun next (start channelRepository) steps s)
    (hphase : s.consul.phase = .created) (hpresent : s.consul.keyPresent = true)
    {startup : List StartupStep}
    (hstartup : AnyRun MonitorStartup.next (MonitorStartup.start s.consul.node) startup worker)
    (hcompleted : worker.completed = true) :
    (∃ t, s.next .loadNodeConfiguration = some t ∧
      t.consul.node = s.consul.node.loadNodeConfiguration) ∧
    (∀ name destination, worker.handlers.handlers.Registered name destination ↔
      ∃ entry ∈ (ConfigEdit.replay s.journal.durable).entries,
        registeredName entry.1 = some name ∧ entry.2.pvDestinationTopic = destination) ∧
    ∀ description name, ConfigEdit.Leaves s.journal.durable description →
      registeredName description.pvName = some name →
        worker.handlers.handlers.Registered name description.channelDestination := by
  have h := Durable.of_run channelRepository hrun
  have hrestored : MonitorStartup.Restored s.consul.node worker :=
    (hstartup.invariant
      (I := fun _ worker =>
        MonitorStartup.Restoring (MonitorStartup.start s.consul.node).rows worker)
      (MonitorStartup.restoring_start s.consul.node) fun hs _ hnext => hs.next hnext).restored
  have hconfig : configFromJson s.consul.node.stored = ConfigEdit.replay s.journal.durable := by
    rw [h.stored]
    exact configFromJson_configToJson _
  have hregistered (name destination : String) :
      worker.handlers.handlers.Registered name destination ↔
        ∃ entry ∈ (ConfigEdit.replay s.journal.durable).entries,
          registeredName entry.1 = some name ∧ entry.2.pvDestinationTopic = destination := by
    rw [← hconfig]
    exact ⟨hrestored.configured name destination,
      (hrestored.restored hcompleted).2 name destination⟩
  refine ⟨⟨⟨s.consul.loadNodeConfiguration, s.journal⟩, ?_, ?_⟩, hregistered, ?_⟩
  · rw [JournaledNode.next, ConsulNode.next, hphase]
    rfl
  · rw [h.loadNodeConfiguration hpresent]
  · intro description name hleaves hname
    apply (hregistered name _).mpr
    exact ⟨ConfigEdit.entryOf description, ConfigEdit.mem_replay hleaves, hname, rfl⟩

/-- A monitor of the topic `"a"`. -/
private def monitored (pvName : String) : ChannelMonitorType where
  pvName
  eventSerialization := 1
  channelDestination := "a"

/-- Of two monitors one is removed, and is added again in a call that the process does not end. -/
private def removedThenCrash : List ConsulStep :=
  [.create false true, .loadNodeConfiguration,
    .addChannelMonitor [monitored "pva://x", monitored "pva://y"], .edit, .edit,
    .setNodeConfiguration true,
    .removeChannelMonitor [monitored "pva://y"], .edit, .setNodeConfiguration true,
    .addChannelMonitor [monitored "pva://y"], .edit, .crash, .create false true]

/-- The topic cannot be created at first. -/
private def startupTasks : List StartupStep :=
  [.restartTask ["pva://x"] fun i => if i = 0 then some .createQueue else none,
    .restartTask ["pva://x"] fun _ => none, .restartTask ["pva://x"] fun _ => none]

theorem reactivated_of_run_removedThenCrash : ∃ s worker,
    AnyRun next (start {}) removedThenCrash s ∧
      AnyRun MonitorStartup.next (MonitorStartup.start s.consul.node) startupTasks worker ∧
      worker.failed.length = 1 ∧ worker.handlers.handlers.Registered "x" "a" ∧
      ¬ worker.handlers.handlers.Registered "y" "a" := by
  let edits : List ConfigEdit :=
    [.add (monitored "pva://x"), .add (monitored "pva://y"), .remove (monitored "pva://y")]
  obtain ⟨s, hrun, hcheck⟩ := exists_run next (fun _ _ => True) (start {}) removedThenCrash
    (fun s => decide (s.consul.phase = .created) && s.consul.keyPresent &&
      decide (s.journal.durable = edits) &&
      (execute MonitorStartup.next (fun _ _ => True) (MonitorStartup.start s.consul.node)
        startupTasks).any fun worker => worker.completed && worker.failed.length == 1)
    (by decide +kernel)
  simp only [Bool.and_eq_true, decide_eq_true_eq] at hcheck
  obtain ⟨⟨⟨hphase, hpresent⟩, hdurable⟩, hstartup⟩ := hcheck
  obtain ⟨worker, hstartup, hcheck⟩ := exists_run _ _ _ _ _ hstartup
  simp only [Bool.and_eq_true, beq_iff_eq] at hcheck
  obtain ⟨-, hregistered, hleaves⟩ :=
    reactivated_of_run {} hrun hphase hpresent hstartup hcheck.1
  rw [hdurable] at hregistered hleaves
  refine ⟨s, worker, hrun, hstartup, hcheck.2, ?_, ?_⟩
  · apply hleaves (monitored "pva://x") "x"
    · exact ⟨[], _, rfl, by simp [ConfigEdit.Removes, ConfigEdit.entryOf, monitored]⟩
    · decide +kernel
  · rw [hregistered]
    decide +kernel

end JournaledNode

end K2eg
