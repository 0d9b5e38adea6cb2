import K2eg.Model.BackTimedSnapshot
import K2eg.Verification.Snapshot.References

/-! # Delivery of events to the snapshots

An event goes to an operation once for each of its links with the PV. The links follow the URIs of
the operations, so an event is delivered once where the URIs name different PVs and every registered
operation is in `snapshot_running_`. -/

namespace K2eg

open Interleaving

namespace ContinuousSnapshotManager

open SnapshotPipeline

variable {V : Type*} {threads : ℕ} {m t : ContinuousSnapshotManager V}

/-! ## Links -/

/-- The calls of `addData` of an operation for a batch. -/
def callsTo (m : ContinuousSnapshotManager V) (eventData : List (MonitorEvent V)) (o : ℕ) :
    List (MonitorEvent V) :=
  ((m.epicsMonitorEvent eventData).filter fun call => call.1 == o).map Prod.snd

theorem calls_of_event (event : MonitorEvent V) (o : ℕ) :
    (((m.equalRange event.channelData.pvName).map fun op => (op, event)).filter
        fun call => call.1 == o).map Prod.snd =
      List.replicate (m.pvSnapshotMap.count (event.channelData.pvName, o)) event := by
  rw [equalRange]
  induction m.pvSnapshotMap with
  | nil => rfl
  | cons link links ih =>
      obtain ⟨pvName, op⟩ := link
      by_cases hname : pvName = event.channelData.pvName
      · by_cases hop : op = o
        · simp [hname, hop, List.replicate_succ] at ih ⊢
          exact ih
        · have hne : ((event.channelData.pvName, op) == (event.channelData.pvName, o)) = false := by
            simpa using hop
          simp [hname, hop] at ih ⊢
          exact ih
      · simp [hname] at ih ⊢
        exact ih

/-- An event is added once for each link. -/
theorem callsTo_eq (eventData : List (MonitorEvent V)) (o : ℕ) :
    m.callsTo eventData o = eventData.flatMap fun event =>
      List.replicate (m.pvSnapshotMap.count (event.channelData.pvName, o)) event := by
  induction eventData with
  | nil => rfl
  | cons event rest ih =>
      rw [callsTo] at ih
      rw [callsTo, epicsMonitorEvent, List.flatMap_cons, List.filter_append, List.map_append,
        calls_of_event, List.flatMap_cons, ← ih]
      rfl

/-- The links are those of the URIs that have not been taken out. -/
def Linking (m : ContinuousSnapshotManager V) : Prop :=
  ∀ pvName o, m.pvSnapshotMap.count (pvName, o) = (sanitizedNames (m.remaining o)).count pvName

theorem Linking.initial : Linking ({} : ContinuousSnapshotManager V) :=
  fun _ _ => by simp [remaining, listed, Running, sanitizedNames]

/-! ## Commands that are checked -/

/-- A start behind its checks has passed them. -/
def Prepared : CommandPhase → Prop
  | .startPrepared cmd created | .startQueueCreated cmd created | .startDescribed cmd created =>
    prepareError (.ofCommand cmd created) = none
  | _ => True

theorem prepared_startPrepare (command : ℕ) (cmd : RepeatingSnapshotCommand) (created : Int) :
    Prepared ((m.startPrepare command cmd created).commands command) := by
  rw [startPrepare]
  split
  · simp [replyAndEnd, setCommand, Prepared]
  · rename_i hchecked
    simpa [setCommand, Prepared] using hchecked

theorem prepared_next {label : SnapshotStep V} (h : ∀ command, Prepared (m.commands command))
    (hnext : next threads m label = some t) : ∀ command, Prepared (t.commands command) := by
  intro command
  by_cases hlabel : commandOf label = some command
  · cases transition_of_next hnext with
    | receiveStart | receiveStop | receiveTrigger =>
        cases hlabel
        simp [setCommand, Prepared]
    | startCheck =>
        cases hlabel
        rw [startCheck]
        split_ifs <;> simp [replyAndEnd, setCommand, Prepared]
    | startPrepare =>
        cases hlabel
        exact prepared_startPrepare ..
    | startCreateQueue hcommand returns | startGetQueueMetadata hcommand returns =>
        cases hlabel
        have hbefore := h command
        rw [hcommand] at hbefore
        cases returns with
        | true => simpa [setCommand, Prepared] using hbefore
        | false => simp [setCommand, Prepared]
    | startRegister | startActivate =>
        cases hlabel
        simp [startRegister, setCommand, Prepared]
    | startReply | stopReply =>
        cases hlabel
        simp [startReply, stopReply, replyAndEnd, setCommand, Prepared]
    | stopMark =>
        cases hlabel
        rw [stopMark]
        split
        · simp [replyAndEnd, setCommand, Prepared]
        · split
          · simp [replyAndEnd, setCommand, Prepared]
          · dsimp only
            split <;> simp [setCommand, Prepared]
    | trigger =>
        cases hlabel
        rw [triggerSnapshot]
        split
        · simp [replyAndEnd, setCommand, Prepared]
        · split <;> simp [replyAndEnd, setCommand, Prepared]
    | checkerScan | checkerVisit | removeUri | leave | checkerSchedule | checkerAcquire
    | checkerSleep | dequeue | task => cases hlabel
  · rw [(next_others hnext hlabel).1]
    exact h command

/-- A command that has passed its checks names a PV. -/
theorem sanitizedNames_ne_nil {cmd : RepeatingSnapshotCommand} {created : Int}
    (h : prepareError (.ofCommand cmd created) = none) : sanitizedNames cmd.pvNameList ≠ [] := by
  rw [prepareError] at h
  cases hlist : cmd.pvNameList with
  | nil => simp [SnapshotOpInfo.ofCommand, hlist] at h
  | cons uri uris =>
      cases huri : sanitizePVName uri with
      | none =>
          have hfind :
              cmd.pvNameList.find? (fun uri => (sanitizePVName uri).isNone) = some uri := by
            simp [hlist, huri]
          simp only [SnapshotOpInfo.ofCommand, hfind] at h
          split_ifs at h
      | some pv => simp [sanitizedNames, huri]

/-! ## Registration -/

/-- A registration finds its queue free, and its URIs name different PVs. -/
def RegistersAlone (m : ContinuousSnapshotManager V) (label : SnapshotStep V) : Prop :=
  ∀ cmd ∈ m.registered? label,
    m.findRunning (getQueueFromSnapshotName cmd.snapshotName) = none ∧
      (sanitizedNames cmd.pvNameList).Nodup

instance (m : ContinuousSnapshotManager V) (label : SnapshotStep V) :
    Decidable (m.RegistersAlone label) :=
  inferInstanceAs (Decidable (∀ cmd ∈ m.registered? label,
    m.findRunning (getQueueFromSnapshotName cmd.snapshotName) = none ∧
      (sanitizedNames cmd.pvNameList).Nodup))

/-- The links are those of the URIs, and the URIs of an operation name different PVs. -/
structure LinkedOnce (m : ContinuousSnapshotManager V) : Prop where
  registry : Registry m.toSnapshotPipeline
  linking : Linking m
  distinct : ∀ o, (sanitizedNames (m.remaining o)).Nodup
  prepared : ∀ command, Prepared (m.commands command)

namespace LinkedOnce

theorem initial : LinkedOnce ({} : ContinuousSnapshotManager V) where
  registry := .init
  linking := .initial
  distinct o := by simp [remaining, listed, Running, sanitizedNames]
  prepared _ := trivial

theorem next (h : LinkedOnce m) {label : SnapshotStep V} (hallowed : m.RegistersAlone label)
    (hnext : next threads m label = some t) : LinkedOnce t := by
  suffices hlinks : Linking t ∧ ∀ o, (sanitizedNames (t.remaining o)).Nodup from
    ⟨next_keeps hnext (fun h hmoves => h.moves hmoves) h.registry, hlinks.1, hlinks.2,
      prepared_next h.prepared hnext⟩
  cases next_booked h.registry hnext with
  | same starts pending startedBy links refs count remaining =>
      refine ⟨fun pvName o => ?_, fun o => ?_⟩
      · rw [links, remaining]
        exact h.linking pvName o
      · rw [remaining]
        exact h.distinct o
  | @register command cmd created described sleeping =>
      obtain ⟨hfree, hnodup⟩ := hallowed cmd (by simp [registered?, described])
      have hremaining : ∀ o, (m.startRegister command cmd created).remaining o =
          if o = m.opCount then cmd.pvNameList else m.remaining o :=
        remaining_register sleeping hfree
      have hnew : m.remaining m.opCount = [] :=
        remaining_eq_nil h.registry (by rw [sleeping]; exact id) le_rfl
      refine ⟨fun pvName o => ?_, fun o => ?_⟩
      · rw [count_register, hremaining, h.linking]
        split
        · rename_i heq
          rw [heq, hnew]
          simp [sanitizedNames]
        · rw [Nat.add_zero]
      · rw [hremaining]
        split
        · exact hnodup
        · exact h.distinct o
  | @activate command o uri uris activating =>
      obtain ⟨-, -, hlinks, -⟩ := m.monitorChannel_same uri true
      have hremaining (other : ℕ) : ((m.monitorChannel uri true).setCommand command
          (.startActivating o uris)).remaining other = m.remaining other := by
        rw [setCommand_pipeline, monitorChannel_pipeline]
      refine ⟨fun pvName other => ?_, fun other => ?_⟩
      · rw [hremaining]
        exact (congrArg _ hlinks).trans (h.linking pvName other)
      · rw [hremaining]
        exact h.distinct other
  | @remove now todo o submission uri uris removing =>
      refine ⟨fun pvName other => links_removeUri removing (h.linking pvName other),
        fun other => ?_⟩
      change (sanitizedNames ((m.setChecker (.removing now todo o submission uris)).remaining
        other)).Nodup
      rw [remaining_removing removing]
      split
      · rename_i heq
        have hbefore := h.distinct other
        rw [heq, remaining, removing] at hbefore
        simp only [if_true] at hbefore
        exact hbefore.sublist ((List.sublist_cons_self uri uris).filterMap _)
      · exact h.distinct other

end LinkedOnce

/-! ## Delivery -/

/-- The events of a batch whose PV is in the list of a running snapshot. -/
def dueTo (m : ContinuousSnapshotManager V) (eventData : List (MonitorEvent V)) (o : ℕ) :
    List (MonitorEvent V) :=
  if Running m.toSnapshotPipeline o then
    eventData.filter fun event =>
      (sanitizedNames (m.ops o).cmd.pvNameList).contains event.channelData.pvName
  else []

/-- Every event is added once to each running snapshot that has its PV, and to no other one; the
buffers of a snapshot take in each of the calls. -/
structure DeliversOnce (m : ContinuousSnapshotManager PVStructure) : Prop where
  calls : ∀ eventData o, m.callsTo eventData o = m.dueTo eventData o
  arrives : ∀ eventData o now run run',
    AnyRun BackTimedRun.next run
        ((m.callsTo eventData o).map fun event => .addData event now) run' →
      (arrivals run'.history).map Arrival.event =
        (arrivals run.history).map Arrival.event ++ m.dueTo eventData o

theorem LinkedOnce.callsTo (h : LinkedOnce m) (hsleeping : m.checker = .sleeping)
    (eventData : List (MonitorEvent V)) (o : ℕ) : m.callsTo eventData o = m.dueTo eventData o := by
  have hidle : ¬CheckerRemoves m.checker := by
    rw [hsleeping]
    exact id
  have hcount (pvName : String) : m.pvSnapshotMap.count (pvName, o) =
      if Running m.toSnapshotPipeline o ∧
        (sanitizedNames (m.ops o).cmd.pvNameList).contains pvName = true then 1 else 0 := by
    have hnodup := h.distinct o
    rw [remaining_of_idle hidle, listed] at hnodup
    rw [h.linking, remaining_of_idle hidle, listed]
    by_cases hrunning : Running m.toSnapshotPipeline o
    · rw [if_pos hrunning] at hnodup ⊢
      rw [hnodup.count]
      simp [hrunning]
    · simp [hrunning, sanitizedNames]
  rw [callsTo_eq, dueTo]
  induction eventData with
  | nil => simp
  | cons event rest ih =>
      rw [List.flatMap_cons, ih, hcount]
      split_ifs <;> simp_all

/-- The history of a buffered snapshot has each event that was added. -/
theorem arrivals_of_addData {run run' : BackTimedRun} {now : Int}
    {events : List (MonitorEvent PVStructure)}
    (h : AnyRun BackTimedRun.next run (events.map fun event => .addData event now) run') :
    (arrivals run'.history).map Arrival.event =
      (arrivals run.history).map Arrival.event ++ events := by
  induction events using List.reverseRecOn generalizing run' with
  | nil => rw [h.eq_of_nil, List.append_nil]
  | append_singleton events event ih =>
      rw [List.map_append, List.map_singleton] at h
      obtain ⟨before, hbefore, -, hnext⟩ := h.of_snoc
      rw [← List.append_assoc, ← ih hbefore]
      simp only [BackTimedRun.next] at hnext
      split_ifs at hnext
      obtain rfl := Option.some.inj hnext
      simp [arrivals]

theorem LinkedOnce.deliversOnce {m : ContinuousSnapshotManager PVStructure} (h : LinkedOnce m)
    (hsleeping : m.checker = .sleeping) : m.DeliversOnce where
  calls := h.callsTo hsleeping
  arrives eventData o now run run' hrun := by
    rw [← h.callsTo hsleeping]
    exact arrivals_of_addData hrun

/-- After another registration an event of some PV is added too often. -/
theorem LinkedOnce.not_callsTo (h : LinkedOnce m) {command : ℕ} {cmd : RepeatingSnapshotCommand}
    {created : Int} (hcommand : m.commands command = .startDescribed cmd created)
    (hsleeping : m.checker = .sleeping)
    (hnot : ¬(m.findRunning (getQueueFromSnapshotName cmd.snapshotName) = none ∧
      (sanitizedNames cmd.pvNameList).Nodup)) (message : String) (data : Option V) :
    ∃ event : MonitorEvent V, (m.startRegister command cmd created).callsTo [event] m.opCount ≠
      (m.startRegister command cmd created).dueTo [event] m.opCount := by
  have hlength (pvName : String) : ((m.startRegister command cmd created).callsTo
      [⟨.data, message, ⟨pvName, data⟩⟩] m.opCount).length =
        (sanitizedNames cmd.pvNameList).count pvName := by
    rw [callsTo_eq, List.flatMap_cons, List.flatMap_nil, List.append_nil, List.length_replicate,
      count_register, if_pos rfl, h.linking,
      remaining_eq_nil h.registry (by rw [hsleeping]; exact id) le_rfl]
    simp [sanitizedNames]
  by_cases hnodup : (sanitizedNames cmd.pvNameList).Nodup
  · -- the queue is taken, and the operation is out of reach
    have hprepared := h.prepared command
    rw [hcommand] at hprepared
    have hne := sanitizedNames_ne_nil hprepared
    obtain ⟨pvName, rest, hnames⟩ := List.exists_cons_of_ne_nil hne
    refine ⟨⟨.data, message, ⟨pvName, data⟩⟩, fun heq => ?_⟩
    have hout : ¬Running (m.startRegister command cmd created).toSnapshotPipeline m.opCount := by
      intro hrunning
      have htaken : (m.findRunning (getQueueFromSnapshotName cmd.snapshotName)).isSome = true := by
        rw [Option.isSome_iff_ne_none]
        exact fun hnone => hnot ⟨hnone, hnodup⟩
      have hsame : (m.startRegister command cmd created).snapshotRunning = m.snapshotRunning :=
        if_pos htaken
      rw [Running, hsame] at hrunning
      exact absurd (h.registry.entries _ hrunning).1 (lt_irrefl _)
    have hcalls := hlength pvName
    rw [heq, dueTo, if_neg hout, hnames] at hcalls
    simp at hcalls
  · obtain ⟨pvName, hcount⟩ : ∃ pvName, 1 < (sanitizedNames cmd.pvNameList).count pvName := by
      simpa [List.nodup_iff_count_le_one] using hnodup
    refine ⟨⟨.data, message, ⟨pvName, data⟩⟩, fun heq => ?_⟩
    have hcalls := hlength pvName
    rw [heq, dueTo] at hcalls
    have hle : ((if Running (m.startRegister command cmd created).toSnapshotPipeline m.opCount then
        [(⟨.data, message, ⟨pvName, data⟩⟩ : MonitorEvent V)].filter fun event =>
          (sanitizedNames ((m.startRegister command cmd created).ops
            m.opCount).cmd.pvNameList).contains event.channelData.pvName
        else []).length) ≤ 1 := by
      split
      · exact List.length_filter_le _ _
      · exact Nat.zero_le 1
    omega

/-! ## Runs -/

/-- Whenever the checker sleeps, every event is delivered once, just if each registration finds its
queue free and its URIs name different PVs. -/
theorem deliversOnce_iff {m : ContinuousSnapshotManager PVStructure}
    {labels : List (SnapshotStep PVStructure)} (h : AnyRun (next threads) {} labels m) :
    Always (next threads) {} labels (fun m => m.checker = .sleeping → m.DeliversOnce) ↔
      Run (next threads) RegistersAlone {} labels m := by
  refine Run.always_iff (I := LinkedOnce) .initial (fun m hinv hsleeping =>
    hinv.deliversOnce hsleeping) (fun {m label t} hinv hnext => ⟨fun hallowed =>
      hinv.next hallowed hnext, fun hnot hdelivers => ?_⟩) h
  cases transition_of_next hnext with
  | startRegister described sleeping =>
      simp only [RegistersAlone, registered?, described, Option.mem_some_iff, forall_eq'] at hnot
      obtain ⟨event, hevent⟩ := hinv.not_callsTo described sleeping hnot "" none
      exact hevent ((hdelivers sleeping).calls [event] m.opCount)
  | _ => exact hnot (by simp [RegistersAlone, registered?])

/-- A start that finds nothing in its way. -/
private def startOf (command : ℕ) (cmd : RepeatingSnapshotCommand) :
    List (SnapshotStep PVStructure) :=
  [.receiveStart command cmd 0, .startCheck command, .startPrepare command,
    .startCreateQueue command true, .startGetQueueMetadata command true, .startRegister command] ++
    cmd.pvNameList.map (fun _ => .startActivate command) ++ [.startReply command]

/-- A snapshot whose list overlaps with that of `SnapshotTrace.normal`. -/
private def overlapping : RepeatingSnapshotCommand :=
  { SnapshotTrace.buffered with
    snapshotName := "b"
    pvNameList := ["ca://y", "pva://x.VAL"]
    pvNameList_nodup := by decide }

/-- Two snapshots share a PV, and an event of it is added once to each. -/
theorem deliversOnce_iff_overlapping :
    ∃ labels m, Always (next 1) {} labels (fun m => m.checker = .sleeping → m.DeliversOnce) ∧
      AnyRun (next (V := PVStructure) 1) {} labels m ∧
      (m.epicsMonitorEvent [⟨.data, "", ⟨"x", none⟩⟩]).map Prod.fst = [0, 1] := by
  obtain ⟨m, hrun, hcheck⟩ := exists_run (next (V := PVStructure) 1) RegistersAlone {}
    (startOf 0 SnapshotTrace.normal ++ startOf 1 overlapping)
    (fun m => decide ((m.epicsMonitorEvent [⟨.data, "", ⟨"x", none⟩⟩]).map Prod.fst = [0, 1]))
    (by decide +kernel)
  exact ⟨_, m, (deliversOnce_iff hrun.any).mpr hrun, hrun.any, of_decide_eq_true hcheck⟩

instance (checker : CheckerPhase V) : Decidable (checker = .sleeping) :=
  match checker with
  | .sleeping => .isTrue rfl
  | .scanning .. | .removing .. | .scheduling .. | .acquiring .. => .isFalse nofun

/-- Two URIs of one PV. -/
private def aliases : RepeatingSnapshotCommand :=
  { SnapshotTrace.buffered with
    pvNameList := ["pva://x", "ca://x"]
    pvNameList_nodup := by decide }

/-- An event is added twice to a snapshot that names its PV by two URIs. -/
theorem not_deliversOnce_aliases :
    ¬ ∀ (labels : List (SnapshotStep PVStructure)) (m : ContinuousSnapshotManager PVStructure),
      AnyRun (next 1) {} labels m → m.checker = .sleeping → m.DeliversOnce := by
  intro hall
  obtain ⟨m, hrun, hcheck⟩ := exists_run (next (V := PVStructure) 1) (fun _ _ => True) {}
    (startOf 0 aliases)
    (fun m => decide (m.checker = .sleeping ∧
      (m.callsTo [⟨.data, "", ⟨"x", none⟩⟩] 0).length = 2)) (by decide +kernel)
  obtain ⟨hsleeping, hlength⟩ := of_decide_eq_true hcheck
  rw [(hall _ m hrun hsleeping).calls, dueTo] at hlength
  have hle : (([⟨.data, "", ⟨"x", none⟩⟩] : List (MonitorEvent PVStructure)).filter fun event =>
      (sanitizedNames (m.ops 0).cmd.pvNameList).contains event.channelData.pvName).length ≤ 1 :=
    List.length_filter_le _ _
  split at hlength
  · omega
  · cases hlength

end ContinuousSnapshotManager

end K2eg
