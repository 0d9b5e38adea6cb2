import K2eg.Model.MonitorStartup
import K2eg.Verification.Configuration.Agreement
import K2eg.Verification.Monitors.Recovery
import K2eg.Verification.Monitors.Rows
import K2eg.Verification.Monitors.Sweeps

/-! # The startup of the monitors

Whatever throws in the handlers, the startup task gives each row of the stored configuration one
Start that returns, and completes when there is none left: the registrations are then those of the
stored configuration. -/

namespace K2eg

open Interleaving

/-! ## A Start -/

namespace AttemptedHandlers

variable {s t : AttemptedHandlers} {row : ChannelMonitorType} {fault : Option HandlerFault}

/-- What a Start of the row leaves: at most the row is registered, and it is where the Start
returns. -/
structure Starts (s : AttemptedHandlers) (row : ChannelMonitorType) (returns : Bool)
    (t : AttemptedHandlers) : Prop where
  wired : Wired t.handlers
  registrations : ∀ name, t.handlers.registrations name = s.handlers.registrations name ∨
    registeredName row.pvName = some name ∧
      ¬s.handlers.Registered name row.channelDestination ∧
      t.handlers.registrations name = s.handlers.registrations name ++ [row]
  registered : returns = true → ∀ name, registeredName row.pvName = some name →
    t.handlers.Registered name row.channelDestination

/-- The registrations are as before. -/
theorem Starts.of_same {returns : Bool} (hwired : Wired t.handlers)
    (hsame : ∀ name, t.handlers.registrations name = s.handlers.registrations name)
    (hregistered : returns = true → ∀ name, registeredName row.pvName = some name →
      s.handlers.Registered name row.channelDestination) : Starts s row returns t where
  wired := hwired
  registrations := fun name => .inl (hsame name)
  registered := fun hreturns name hname =>
    (TopicHandlers.Registered.congr hsame _ _).mpr (hregistered hreturns name hname)

/-- The row has been registered. -/
theorem Starts.of_pushed (returns : Bool) (h : Wired s.handlers) {name : String}
    (hname : registeredName row.pvName = some name)
    (habsent : ¬s.handlers.Registered name row.channelDestination) (hwired : Wired t.handlers)
    (hpushed : ∀ other, t.handlers.registrations other =
      (s.pushed name ⟨.start, row⟩).registrations other) : Starts s row returns t where
  wired := hwired
  registrations := by
    intro other
    rw [hpushed, registrations_pushed h]
    by_cases hother : other = name
    · subst hother
      exact .inr ⟨hname, habsent, if_pos rfl⟩
    · exact .inl (if_neg hother)
  registered := by
    intro _ other hother
    obtain rfl := Option.some.inj (hname.symm.trans hother)
    refine ⟨row, ?_, rfl⟩
    rw [hpushed, registrations_pushed h, if_pos rfl]
    exact List.mem_append_right _ (List.mem_singleton_self row)

theorem Wired.pushed (h : Wired s.handlers) (name : String) (event : MonitorHandlerData) :
    Wired (s.pushed name event) := (h.lookup name).setCmdVec _ _

theorem starts_of_handle (h : Wired s.handlers) (row : ChannelMonitorType)
    (fault : Option HandlerFault) :
    Starts s row (!s.throws ⟨⟨.start, row⟩, fault⟩)
      (s.handleMonitorCheckEvents ⟨⟨.start, row⟩, fault⟩) := by
  rw [handleMonitorCheckEvents, throws]
  cases hpv : sanitizePVName row.pvName with
  | none =>
      refine .of_same h (fun _ => rfl) fun _ name hname => ?_
      simp [registeredName, hpv] at hname
  | some pv =>
      have hname : registeredName row.pvName = some pv.name := by simp [registeredName, hpv]
      simp only
      have hlookup := TopicHandlers.registrations_lookup h.fresh pv.name
      by_cases hregistered : s.handlers.Registered pv.name row.channelDestination
      · have hkept (returns : Bool) : returns = true → ∀ name,
            registeredName row.pvName = some name →
              s.handlers.Registered name row.channelDestination := by
          intro _ name hother
          obtain rfl := Option.some.inj (hname.symm.trans hother)
          exact hregistered
        by_cases hfault : fault = some .lookup
        · rw [start, if_pos hfault]
          exact .of_same h (fun _ => rfl) (hkept _)
        · rw [start_of_registered h hregistered hfault]
          exact .of_same (h.lookup _) hlookup (hkept _)
      · have hfind := (find_eq_none_iff s.handlers pv.name ⟨.start, row⟩).2 hregistered
        have hpushed := h.pushed pv.name ⟨.start, row⟩
        rw [start_of_absent h hregistered]
        cases fault with
        | none =>
            exact .of_pushed true h hname hregistered (hpushed.monitorChannel _ _) fun _ => rfl
        | some fault =>
            cases fault with
            | lookup =>
                refine .of_same h (fun _ => rfl) ?_
                intro hreturns
                cases hreturns
            | pushBack =>
                refine .of_same (h.lookup _) hlookup ?_
                simp [hfind]
            | createQueue => exact .of_pushed _ h hname hregistered hpushed fun _ => rfl
            | monitorChannel => exact .of_pushed _ h hname hregistered hpushed fun _ => rfl

theorem Starts.keeps {returns : Bool} (h : Starts s row returns t) {name destination : String}
    (hregistered : s.handlers.Registered name destination) :
    t.handlers.Registered name destination := by
  rcases h.registrations name with hsame | ⟨-, -, hpushed⟩
  · rwa [TopicHandlers.Registered, hsame]
  · obtain ⟨info, hinfo, hdestination⟩ := hregistered
    rw [TopicHandlers.Registered, hpushed]
    exact ⟨info, List.mem_append_left _ hinfo, hdestination⟩

/-- A Start that returns has its channel opened, unless it was registered. -/
theorem Backed.returned (h : Backed s) (hreturns : s.throws ⟨⟨.start, row⟩, fault⟩ = false) :
    Backed (s.handleMonitorCheckEvents ⟨⟨.start, row⟩, fault⟩) := by
  rw [throws] at hreturns
  rw [handleMonitorCheckEvents]
  cases hpv : sanitizePVName row.pvName with
  | none => exact h
  | some pv =>
      simp only [hpv] at hreturns ⊢
      refine h.start (by simp [registeredName, hpv]) ?_
      rintro ⟨rfl | rfl, habsent⟩ <;>
        simp [(find_eq_none_iff s.handlers pv.name ⟨.start, row⟩).2 habsent] at hreturns

end AttemptedHandlers

namespace MonitorStartup

open AttemptedHandlers

variable {s t : MonitorStartup} {stored : List ChannelMonitorType} {row : ChannelMonitorType}
  {faults : ℕ → Option HandlerFault} {elementToProcess : ℕ} {pvName : String}

/-! ## The invariant -/

/-- The stored rows have been restarted or are waiting, and what is registered is stored. -/
structure Restores (stored : List ChannelMonitorType) (s : MonitorStartup) : Prop where
  ids : UniqueIds s.rows
  wired : Wired s.handlers.handlers
  visited : (s.restarted ++ unprocessed s.rows).Perm stored
  stored : ∀ name, ∀ row ∈ s.handlers.handlers.registrations name,
    row ∈ stored ∧ registeredName row.pvName = some name
  single : ∀ name,
    ((s.handlers.handlers.registrations name).map ChannelMonitorType.channelDestination).Nodup
  registered : ∀ row ∈ s.restarted, ∀ name, registeredName row.pvName = some name →
    s.handlers.handlers.Registered name row.channelDestination
  backed : s.failed = [] → Backed s.handlers

namespace Restores

/-- The Start of a waiting row leaves it waiting. -/
theorem started (h : Restores stored s) (hrow : row ∈ s.rows) (hwaiting : row.processed = false)
    {handlers : AttemptedHandlers} {returns : Bool}
    (hstarts : Starts s.handlers row returns handlers)
    {failed : List ChannelMonitorType} (hbacked : failed = [] → Backed handlers) :
    Restores stored { s with handlers, failed } where
  ids := h.ids
  wired := hstarts.wired
  visited := h.visited
  stored := by
    intro name other hother
    rcases hstarts.registrations name with hsame | ⟨hname, -, hpushed⟩
    · exact h.stored name other (hsame ▸ hother)
    · dsimp only at hother
      rw [hpushed, List.mem_append, List.mem_singleton] at hother
      rcases hother with hother | rfl
      · exact h.stored name other hother
      · have hmem : other ∈ unprocessed s.rows := List.mem_filter.mpr ⟨hrow, by simp [hwaiting]⟩
        exact ⟨h.visited.subset (List.mem_append_right _ hmem), hname⟩
  single := by
    intro name
    dsimp only
    rcases hstarts.registrations name with hsame | ⟨-, habsent, hpushed⟩
    · rw [hsame]
      exact h.single name
    · rw [hpushed, List.map_append]
      apply (h.single name).append (List.nodup_singleton _)
      apply List.disjoint_singleton.mpr
      intro hmem
      exact habsent (List.mem_map.mp hmem)
  registered := fun other hother name hname => hstarts.keeps (h.registered other hother name hname)
  backed := hbacked

theorem visit_tag (hids : UniqueIds s.rows) (hrow : row ∈ s.rows)
    (hwaiting : row.processed = false) :
    Visit s.rows ⟨row, 0, 0, some row⟩ (s.tag row).rows where
  found := hrow
  waiting := hwaiting
  gone := by
    intro hgone
    cases hgone
  after := by
    refine ⟨some { row with processed := true }, ?_, ?_, rfl⟩
    · change s.rows.map _ = _
      rw [← List.filterMap_eq_map]
      refine List.filterMap_congr fun other hother => ?_
      by_cases hid : other.id = row.id
      · obtain rfl := hids.eq_of_id hother hrow hid
        simp [replaceRow]
      · simp [replaceRow, hid]
    · intro own hown
      obtain rfl := Option.some.inj hown
      refine ⟨rfl, rfl, ⟨row, rfl, rfl⟩, ?_, ?_, ?_⟩
      · intro hflag
        cases hflag
      · intro hflag
        cases hflag
      · intro _ _ left hleft
        rw [Option.some.inj hleft]

/-- A row that has been restarted is tagged. -/
theorem tagged (h : Restores stored s) (hrow : row ∈ s.rows) (hwaiting : row.processed = false)
    (hregistered : ∀ name, registeredName row.pvName = some name →
      s.handlers.handlers.Registered name row.channelDestination) :
    Restores stored { s.tag row with restarted := s.restarted ++ [row] } := by
  have hvisit := visit_tag h.ids hrow hwaiting
  refine ⟨hvisit.uniqueIds h.ids, h.wired, ?_, h.stored, h.single, ?_, h.backed⟩
  · refine List.Perm.trans ?_ h.visited
    change ((s.restarted ++ [row]) ++ unprocessed (s.tag row).rows).Perm _
    rw [List.append_assoc]
    exact (hvisit.perm h.ids).append_left _
  · intro other hother
    rcases List.mem_append.mp hother with hother | hother
    · exact h.registered other hother
    · obtain rfl := List.mem_singleton.mp hother
      exact hregistered

/-- A broadcast that throws. -/
theorem thrown (h : Restores stored s) (hrow : row ∈ s.rows) (hwaiting : row.processed = false)
    {fault : Option HandlerFault} {between : MonitorStartup}
    (hbroadcast : s.broadcast row fault = (false, between)) : Restores stored between := by
  rw [broadcast] at hbroadcast
  split at hbroadcast
  · obtain rfl := (Prod.mk.inj hbroadcast).2
    exact h.started hrow hwaiting (starts_of_handle h.wired row fault) (by simp)
  · cases (Prod.mk.inj hbroadcast).1

/-- A broadcast that returns. -/
theorem returned (h : Restores stored s) (hrow : row ∈ s.rows) (hwaiting : row.processed = false)
    {fault : Option HandlerFault} {between : MonitorStartup}
    (hbroadcast : s.broadcast row fault = (true, between)) : Restores stored (between.tag row) := by
  have hstarts := starts_of_handle h.wired row fault
  rw [broadcast] at hbroadcast
  split at hbroadcast
  · cases (Prod.mk.inj hbroadcast).1
  · rename_i hthrows
    obtain rfl := (Prod.mk.inj hbroadcast).2
    have hreturns := Bool.eq_false_iff.mpr hthrows
    rw [hreturns] at hstarts
    have hstarted := h.started hrow hwaiting hstarts fun hnone => (h.backed hnone).returned hreturns
    exact hstarted.tagged hrow hwaiting (hstarts.registered rfl)

variable (faults elementToProcess) in
/-- What throws ends the loop, and leaves the rows that it has not come to. -/
theorem processName (h : Restores stored s) (pvName : String) (processed : ℕ) :
    Restores stored (processName faults elementToProcess pvName s processed).2 := by
  induction s, processed using processName.induct faults elementToProcess pvName with
  | case1 s processed hnone =>
      rw [MonitorStartup.processName, hnone]
      exact h
  | case2 s processed row hsome hlimit =>
      rw [MonitorStartup.processName, hsome]
      simp only [if_pos hlimit]
      exact h
  | case3 s processed row hsome hlimit between hbroadcast =>
      obtain ⟨hrow, hwaiting⟩ := ChannelSweep.waiting_of_next hsome
      rw [MonitorStartup.processName, hsome]
      simp only [if_neg hlimit, hbroadcast]
      exact h.thrown hrow hwaiting hbroadcast
  | case4 s processed row hsome hlimit between hbroadcast ih =>
      obtain ⟨hrow, hwaiting⟩ := ChannelSweep.waiting_of_next hsome
      rw [MonitorStartup.processName, hsome]
      simp only [if_neg hlimit, hbroadcast]
      exact ih (h.returned hrow hwaiting hbroadcast)

variable (faults elementToProcess) in
theorem processNames (h : Restores stored s) (names : List String) (processed : ℕ) :
    Restores stored (processNames faults elementToProcess names s processed).2 := by
  induction names generalizing s processed with
  | nil => exact h
  | cons pvName names ih =>
      have hname := h.processName faults elementToProcess pvName processed
      rw [MonitorStartup.processNames]
      cases hresult : MonitorStartup.processName faults elementToProcess pvName s processed with
      | mk counted between =>
          rw [hresult] at hname
          cases counted with
          | none => exact hname
          | some processed => exact ih hname processed

end Restores

/-! ## The loops -/

variable (faults elementToProcess) in
/-- The loop counts what it visits, and counts nothing where nothing of the PV is waiting. -/
theorem processName_counts (pvName : String) (s : MonitorStartup) (processed : ℕ) :
    ∀ {counted t}, processName faults elementToProcess pvName s processed = (some counted, t) →
      processed < counted ∨ counted = processed ∧ t = s ∧
        s.node.channelRepository.getNextChannelMonitorToProcess pvName = none := by
  induction s, processed using processName.induct faults elementToProcess pvName with
  | case1 s processed hnone =>
      intro counted t hresult
      rw [processName, hnone] at hresult
      obtain ⟨hcounted, rfl⟩ := Prod.mk.inj hresult
      exact .inr ⟨(Option.some.inj hcounted).symm, rfl, hnone⟩
  | case2 s processed row hsome hlimit =>
      intro counted t hresult
      rw [processName, hsome] at hresult
      simp only [if_pos hlimit] at hresult
      have hcounted := Option.some.inj (Prod.mk.inj hresult).1
      exact .inl (by omega)
  | case3 s processed row hsome hlimit between hbroadcast =>
      intro counted t hresult
      rw [processName, hsome] at hresult
      simp only [if_neg hlimit, hbroadcast] at hresult
      cases hresult
  | case4 s processed row hsome hlimit between hbroadcast ih =>
      intro counted t hresult
      rw [processName, hsome] at hresult
      simp only [if_neg hlimit, hbroadcast] at hresult
      rcases ih hresult with hlt | ⟨heq, -⟩
      · exact .inl (by omega)
      · exact .inl (by omega)

theorem processNames_counts (names : List String) (s : MonitorStartup) (processed : ℕ)
    {counted : ℕ}
    (hresult : processNames faults elementToProcess names s processed = (some counted, t)) :
    processed < counted ∨ counted = processed ∧ t = s ∧ ∀ pvName ∈ names,
      s.node.channelRepository.getNextChannelMonitorToProcess pvName = none := by
  induction names generalizing s processed with
  | nil =>
      obtain ⟨hcounted, rfl⟩ := Prod.mk.inj hresult
      exact .inr ⟨(Option.some.inj hcounted).symm, rfl, by simp⟩
  | cons pvName names ih =>
      rw [processNames] at hresult
      cases hname : processName faults elementToProcess pvName s processed with
      | mk first between =>
          rw [hname] at hresult
          cases first with
          | none => cases hresult
          | some first =>
              have hfirst := processName_counts faults elementToProcess pvName s processed hname
              have hrest := ih between first hresult
              rcases hfirst with hlt | ⟨rfl, rfl, hnone⟩
              · exact .inl (by omega)
              · rcases hrest with hlt | ⟨rfl, rfl, hnames⟩
                · exact .inl hlt
                · refine .inr ⟨rfl, rfl, fun other hother => ?_⟩
                  rcases List.mem_cons.mp hother with rfl | hother
                  · exact hnone
                  · exact hnames other hother

/-- What the loops leave alone: the properties of the task, which its execution leaves to the end,
and the names of the rows. -/
structure SameTask (s t : MonitorStartup) : Prop where
  startingUp : t.startingUp = s.startingUp
  completed : t.completed = s.completed
  periodicTasks : t.periodicTasks = s.periodicTasks
  pvNames : t.rows.map ChannelMonitorType.pvName = s.rows.map ChannelMonitorType.pvName

theorem SameTask.trans {r : MonitorStartup} (h : SameTask r s) (h' : SameTask s t) :
    SameTask r t where
  startingUp := h'.startingUp.trans h.startingUp
  completed := h'.completed.trans h.completed
  periodicTasks := h'.periodicTasks.trans h.periodicTasks
  pvNames := h'.pvNames.trans h.pvNames

theorem sameTask_tag (s : MonitorStartup) (row : ChannelMonitorType) : SameTask s (s.tag row) := by
  refine ⟨rfl, rfl, rfl, ?_⟩
  change (s.rows.map _).map _ = _
  rw [List.map_map]
  refine List.map_congr_left fun other _ => ?_
  simp only [Function.comp_apply]
  split <;> rfl

theorem sameTask_broadcast (s : MonitorStartup) (row : ChannelMonitorType)
    (fault : Option HandlerFault) : SameTask s (s.broadcast row fault).2 := by
  rw [broadcast]
  split <;> exact ⟨rfl, rfl, rfl, rfl⟩

variable (faults elementToProcess) in
theorem sameTask_processName (pvName : String) (s : MonitorStartup) (processed : ℕ) :
    SameTask s (processName faults elementToProcess pvName s processed).2 := by
  induction s, processed using processName.induct faults elementToProcess pvName with
  | case1 s processed hnone =>
      rw [processName, hnone]
      exact ⟨rfl, rfl, rfl, rfl⟩
  | case2 s processed row hsome hlimit =>
      rw [processName, hsome]
      simp only [if_pos hlimit]
      exact ⟨rfl, rfl, rfl, rfl⟩
  | case3 s processed row hsome hlimit between hbroadcast =>
      have hsame := sameTask_broadcast s row (faults (s.restarted.length + s.failed.length))
      rw [processName, hsome]
      simp only [if_neg hlimit, hbroadcast] at hsame ⊢
      exact hsame
  | case4 s processed row hsome hlimit between hbroadcast ih =>
      have hsame := sameTask_broadcast s row (faults (s.restarted.length + s.failed.length))
      rw [processName, hsome]
      simp only [if_neg hlimit, hbroadcast] at hsame ⊢
      exact (hsame.trans (sameTask_tag between row)).trans ih

variable (faults elementToProcess) in
theorem sameTask_processNames (names : List String) (s : MonitorStartup) (processed : ℕ) :
    SameTask s (processNames faults elementToProcess names s processed).2 := by
  induction names generalizing s processed with
  | nil => exact ⟨rfl, rfl, rfl, rfl⟩
  | cons pvName names ih =>
      have hname := sameTask_processName faults elementToProcess pvName s processed
      rw [processNames]
      cases hresult : processName faults elementToProcess pvName s processed with
      | mk first between =>
          rw [hresult] at hname
          cases first with
          | none => exact hname
          | some first => exact hname.trans (ih between first)

/-- Where no name has a row left, no row is waiting. -/
theorem unprocessed_eq_nil {names : List String}
    (hnames : names.Perm s.node.channelRepository.getDistinctByNameProtocol)
    (hnone : ∀ pvName ∈ names,
      s.node.channelRepository.getNextChannelMonitorToProcess pvName = none) :
    unprocessed s.rows = [] := by
  refine List.filter_eq_nil_iff.mpr fun row hrow hwaiting => ?_
  have hname : row.pvName ∈ names := by
    rw [hnames.mem_iff, ChannelRepository.getDistinctByNameProtocol, List.mem_eraseDups]
    exact List.mem_map_of_mem hrow
  have hall := List.find?_eq_none.mp (hnone _ hname) row hrow
  simp only [decide_true, Bool.true_and] at hall
  exact hall hwaiting

/-! ## Executions -/

/-- Between two executions: the task is refusing commands until it has restarted every row. -/
structure Restoring (stored : List ChannelMonitorType) (s : MonitorStartup) : Prop
    extends Restores stored s where
  startingUp : s.startingUp = !s.completed
  done : s.completed = true → unprocessed s.rows = []
  periodicTasks : s.periodicTasks = if s.completed then 1 else 0

theorem Restoring.restartTask (h : Restoring stored s) (hopen : s.completed = false)
    {names : List String}
    (hnames : names.Perm s.node.channelRepository.getDistinctByNameProtocol) :
    Restoring stored (handleRestartMonitorTask faults names s) := by
  have hrestores := h.toRestores.processNames faults 10 names 0
  have hsame := sameTask_processNames faults 10 names s 0
  rw [handleRestartMonitorTask, scanForRestart]
  cases hresult : processNames faults 10 names s 0 with
  | mk counted t =>
      rw [hresult] at hrestores hsame
      have hopen' : t.completed = false := hsame.completed.trans hopen
      have hperiodic : t.periodicTasks = 0 := by
        rw [hsame.periodicTasks, h.periodicTasks, hopen]
        rfl
      cases counted with
      | none =>
          refine ⟨hrestores, ?_, fun hdone => ?_, ?_⟩
          · rw [hsame.startingUp, hsame.completed, h.startingUp]
          · rw [hopen'] at hdone
            cases hdone
          · rw [hperiodic, hopen']
            rfl
      | some counted =>
          have hrestores' : Restores stored { t with
              startingUp := counted != 0, completed := counted == 0, runAsap := true
              periodicTasks := if counted = 0 then t.periodicTasks + 1 else t.periodicTasks } :=
            ⟨hrestores.ids, hrestores.wired, hrestores.visited, hrestores.stored,
              hrestores.single, hrestores.registered, hrestores.backed⟩
          refine ⟨hrestores', rfl, fun hdone => ?_, ?_⟩
          · rcases processNames_counts names s 0 hresult with hlt | ⟨-, rfl, hnone⟩
            · rw [beq_iff_eq] at hdone
              omega
            · exact unprocessed_eq_nil hnames hnone
          · by_cases hzero : counted = 0 <;> simp [hzero, hperiodic]

theorem Restoring.next (h : Restoring stored s) {step : StartupStep}
    (hnext : s.next step = some t) : Restoring stored t := by
  cases step with
  | restartTask names faults =>
      obtain ⟨⟨hopen, hnames⟩, heq⟩ := Option.ite_none_right_eq_some.mp hnext
      obtain rfl := Option.some.inj heq
      exact h.restartTask hopen hnames
  | processCommand =>
      obtain ⟨-, heq⟩ := Option.ite_none_right_eq_some.mp hnext
      obtain rfl := Option.some.inj heq
      exact { h with }

/-! ## Executions in which nothing throws -/

/-- The handler of the restart, as a handler of a sweep. -/
def restartHandler : ChannelMonitorTypeHandler (AttemptedHandlers × List ChannelMonitorType) :=
  fun row node state => {
    node
    state := (state.1.handleMonitorCheckEvents ⟨⟨.start, row⟩, none⟩, state.2 ++ [row]) }

theorem confined_restartHandler {clock : ℕ → Int}
    {sweep : ChannelSweep (AttemptedHandlers × List ChannelMonitorType)}
    (hids : UniqueIds sweep.rows) : ChannelSweep.Confined restartHandler clock sweep := by
  refine ChannelSweep.confined_of_ids (fun sweep hids row hrow _ => ?_) hids
  refine ⟨some row, ?_, by simp, by simp⟩
  rw [ChannelSweep.replace_self hids hrow]
  rfl

/-- The worker, seen as a sweep. -/
def sweep (s : MonitorStartup) (handled : List HandledRow) :
    ChannelSweep (AttemptedHandlers × List ChannelMonitorType) :=
  ⟨s.node, (s.handlers, s.restarted), handled⟩

variable (clock : ℕ → Int)

/-- A Start that nothing throws in is a call of the handler. -/
theorem handle_sweep (s : MonitorStartup) (handled : List HandledRow) (row : ChannelMonitorType) :
    ∃ between handled', s.broadcast row none = (true, between) ∧
      (s.sweep handled).handle restartHandler clock row =
        .ok ((between.tag row).sweep handled') := by
  have hreturns : s.handlers.throws ⟨⟨.start, row⟩, none⟩ = false := by
    rw [throws]
    cases sanitizePVName row.pvName <;> rfl
  refine ⟨{ s with
      handlers := s.handlers.handleMonitorCheckEvents ⟨⟨.start, row⟩, none⟩
      restarted := s.restarted ++ [row] },
    handled ++ [⟨row, 0, clock handled.length, s.node.findRow row.id⟩], ?_, rfl⟩
  rw [broadcast, hreturns]
  rfl

variable (elementToProcess) in
theorem processName_sweep (pvName : String) (s : MonitorStartup) (processed : ℕ) :
    ∀ handled, ∃ counted t handled',
      processName (fun _ => none) elementToProcess pvName s processed = (some counted, t) ∧
      (s.sweep handled).processName restartHandler clock elementToProcess pvName processed =
        .ok (counted, t.sweep handled') := by
  induction s, processed using processName.induct (fun _ => none) elementToProcess pvName with
  | case1 s processed hnone =>
      intro handled
      rw [processName, ChannelSweep.processName, hnone]
      simp only [sweep, hnone]
      exact ⟨_, _, _, rfl, rfl⟩
  | case2 s processed row hsome hlimit =>
      intro handled
      rw [processName, ChannelSweep.processName, hsome]
      simp only [sweep, hsome, if_pos hlimit]
      exact ⟨_, _, _, rfl, rfl⟩
  | case3 s processed row hsome hlimit between hbroadcast =>
      obtain ⟨returned, -, hreturned, -⟩ := handle_sweep clock s [] row
      cases hreturned.symm.trans hbroadcast
  | case4 s processed row hsome hlimit between hbroadcast ih =>
      intro handled
      obtain ⟨returned, handled', hreturned, hhandle⟩ := handle_sweep clock s handled row
      obtain rfl := (Prod.mk.inj (hreturned.symm.trans hbroadcast)).2
      have hsome' : (s.sweep handled).node.channelRepository.getNextChannelMonitorToProcess
          pvName = some row := hsome
      rw [processName, ChannelSweep.processName, hsome, hsome']
      simp only [if_neg hlimit, hbroadcast, hhandle]
      exact ih handled'

variable (elementToProcess) in
theorem processNames_sweep (names : List String) (s : MonitorStartup) (processed : ℕ)
    (handled : List HandledRow) : ∃ counted t handled',
      processNames (fun _ => none) elementToProcess names s processed = (some counted, t) ∧
      ChannelSweep.processNames restartHandler clock elementToProcess names (s.sweep handled)
        processed = .ok (counted, t.sweep handled') := by
  induction names generalizing s processed handled with
  | nil => exact ⟨_, _, _, rfl, rfl⟩
  | cons pvName names ih =>
      obtain ⟨first, between, handled', hname, hname'⟩ :=
        processName_sweep elementToProcess clock pvName s processed handled
      rw [processNames, ChannelSweep.processNames, hname, hname']
      exact ih between first handled'

/-- An execution in which nothing throws restarts as many rows as it may, and is the last one where
there is none. -/
theorem restartTask_of_faultless (hids : UniqueIds s.rows) {names : List String}
    (hnames : names.Perm s.node.channelRepository.getDistinctByNameProtocol) :
    (unprocessed (handleRestartMonitorTask (fun _ => none) names s).rows).length =
        (unprocessed s.rows).length - 10 ∧
      ((handleRestartMonitorTask (fun _ => none) names s).completed = true ↔
        unprocessed s.rows = []) := by
  obtain ⟨counted, t, handled, hscan, hsweep⟩ :=
    processNames_sweep 10 (fun _ => 0) names s 0 []
  have hids' : UniqueIds (s.sweep []).rows := hids
  have hconfined : ChannelSweep.Confined restartHandler (fun _ => 0) (s.sweep []) :=
    confined_restartHandler hids'
  obtain ⟨returned, sweep', log, hcall, -, -, hcalled⟩ :=
    ChannelSweep.iterate_spec hconfined hids' (Nat.le_add_left 1 9) hnames
  obtain ⟨rfl, rfl⟩ := Prod.mk.inj (Except.ok.inj (hsweep.symm.trans hcall))
  have hlength := hcalled.visited.length_eq
  rw [List.length_append, List.length_map, hcalled.count] at hlength
  rw [handleRestartMonitorTask, scanForRestart, hscan]
  constructor
  · change min 10 (unprocessed s.rows).length + (unprocessed t.rows).length =
      (unprocessed s.rows).length at hlength
    change (unprocessed t.rows).length = _
    omega
  · exact beq_iff_eq.trans hcalled.returned

/-- An execution keeps the names of the rows. -/
theorem names_restartTask (faults : ℕ → Option HandlerFault) (names : List String)
    (s : MonitorStartup) :
    (handleRestartMonitorTask faults names s).node.channelRepository.getDistinctByNameProtocol =
      s.node.channelRepository.getDistinctByNameProtocol := by
  have hsame := (sameTask_processNames faults 10 names s 0).pvNames
  have hpvNames : (handleRestartMonitorTask faults names s).rows.map ChannelMonitorType.pvName =
      s.rows.map ChannelMonitorType.pvName := by
    rw [handleRestartMonitorTask, scanForRestart]
    cases hresult : processNames faults 10 names s 0 with
    | mk counted t =>
        rw [hresult] at hsame
        cases counted with
        | none => exact hsame
        | some counted => exact hsame
  exact congrArg List.eraseDups hpvNames

/-- Executions in which nothing throws complete the startup, whatever the orders are in which they
find the names: one for ten waiting rows each, and one more. -/
theorem exists_completed {stored : List ChannelMonitorType} {s : MonitorStartup}
    (h : Restoring stored s) (hopen : s.completed = false) {executions : List (List String)}
    (hcount : executions.length = ((unprocessed s.rows).length + 9) / 10 + 1)
    (hnames : ∀ names ∈ executions,
      names.Perm s.node.channelRepository.getDistinctByNameProtocol) :
    ∃ t, AnyRun next s (executions.map fun names => .restartTask names fun _ => none) t ∧
      t.completed = true := by
  induction executions generalizing s with
  | nil => cases hcount
  | cons names executions ih =>
      obtain ⟨hfirst, hrest⟩ := List.forall_mem_cons.mp hnames
      have hnext : s.next (.restartTask names fun _ => none) =
          some (handleRestartMonitorTask (fun _ => none) names s) := if_pos ⟨hopen, hfirst⟩
      obtain ⟨hleft, hcompleted⟩ := restartTask_of_faultless h.ids hfirst
      rw [← List.length_eq_zero_iff] at hcompleted
      rw [List.length_cons] at hcount
      cases hdone : (handleRestartMonitorTask (fun _ => none) names s).completed with
      | true =>
          have hnone := hcompleted.mp hdone
          obtain rfl : executions = [] := List.length_eq_zero_iff.mp (by omega)
          exact ⟨_, .cons trivial hnext .nil, hdone⟩
      | false =>
          have hsome : (unprocessed s.rows).length ≠ 0 := fun hzero => by
            rw [hcompleted.mpr hzero] at hdone
            cases hdone
          obtain ⟨t, hrun, hend⟩ := ih (h.next hnext) hdone (by omega) (by
            rw [names_restartTask]
            exact hrest)
          exact ⟨t, .cons trivial hnext hrun, hend⟩

/-! ## The stored configuration -/

theorem keyed_insertEntries {repository : ChannelRepository} (h : repository.Keyed)
    (entries : List (String × PVMonitorInfo)) :
    (NodeConfiguration.insertEntries repository entries).Keyed := by
  induction entries generalizing repository with
  | nil => exact h
  | cons entry rest ih => exact ih (h.insert _)

variable (node : NodeConfiguration)

theorem restoring_start : Restoring (start node).rows (start node) := by
  let loaded : ChannelSweep Unit := ⟨node.loadNodeConfiguration, (), []⟩
  obtain ⟨hall, hsame⟩ := loaded.unprocessed_resetAll
  have hempty : node.channelRepository.removeAll.Keyed :=
    ⟨.nil, .nil, by simp [ChannelRepository.removeAll]⟩
  have hkeyed := keyed_insertEntries hempty (configFromJson node.stored).entries
  have hids : UniqueIds (start node).rows := by
    change (loaded.resetAllChannelMonitorCheck.rows.map ChannelMonitorType.id).Nodup
    rw [hsame]
    exact List.pairwise_map.mpr hkeyed.ids
  have hvisited : unprocessed (start node).rows = (start node).rows := hall
  exact {
    ids := hids
    wired := backed_empty.wired
    visited := by rw [hvisited]; exact .refl _
    stored := nofun
    single := fun _ => .nil
    registered := nofun
    backed := fun _ => backed_empty
    startingUp := rfl
    done := nofun
    periodicTasks := rfl }

/-- The stored configuration has an entry that is registered under the name. -/
def Configured (name destination : String) : Prop :=
  ∃ entry ∈ (configFromJson node.stored).entries,
    registeredName entry.1 = some name ∧ entry.2.pvDestinationTopic = destination

/-- The loaded rows are those of the entries. -/
theorem exists_row_iff (pvName destination : String) :
    (∃ row ∈ (start node).rows, row.pvName = pvName ∧ row.channelDestination = destination) ↔
      ∃ entry ∈ (configFromJson node.stored).entries,
        entry.1 = pvName ∧ entry.2.pvDestinationTopic = destination := by
  have hload := node.serializationOf_load pvName destination
  rw [NodeConfiguration.serializationOf_eq_find?, ChannelRepository.serializationOf] at hload
  have hsome := congrArg Option.isSome hload
  rw [Option.isSome_map, Option.isSome_map, Bool.eq_iff_iff, List.find?_isSome,
    List.find?_isSome] at hsome
  simp only [decide_eq_true_eq] at hsome
  rw [← hsome]
  let loaded : ChannelSweep Unit := ⟨node.loadNodeConfiguration, (), []⟩
  change (∃ row ∈ loaded.resetAllChannelMonitorCheck.rows, _) ↔ _
  rw [loaded.rows_resetAll]
  simp only [List.mem_map, exists_exists_and_eq_and]
  rfl

theorem configured_iff (name destination : String) :
    Configured node name destination ↔ ∃ row ∈ (start node).rows,
      registeredName row.pvName = some name ∧ row.channelDestination = destination := by
  constructor
  · rintro ⟨entry, hentry, hname, hdestination⟩
    obtain ⟨row, hrow, hpv, hdest⟩ :=
      (exists_row_iff node entry.1 destination).mpr ⟨entry, hentry, rfl, hdestination⟩
    exact ⟨row, hrow, hpv ▸ hname, hdest⟩
  · rintro ⟨row, hrow, hname, hdestination⟩
    obtain ⟨entry, hentry, hpv, hdest⟩ :=
      (exists_row_iff node row.pvName destination).mp ⟨row, hrow, rfl, hdestination⟩
    exact ⟨entry, hentry, hpv ▸ hname, hdest⟩

/-! ## Runs -/

/-- Commands are refused until every stored row has been restarted once. Then the registrations are
those of the stored configuration, and the periodic task is scheduled once. -/
structure Restored (node : NodeConfiguration) (s : MonitorStartup) : Prop where
  startingUp : s.startingUp = !s.completed
  periodicTasks : s.periodicTasks = if s.completed then 1 else 0
  once : s.restarted.Subperm (start node).rows
  single : ∀ name,
    ((s.handlers.handlers.registrations name).map ChannelMonitorType.channelDestination).Nodup
  configured : ∀ name destination, s.handlers.handlers.Registered name destination →
    Configured node name destination
  restored : s.completed = true → s.restarted.Perm (start node).rows ∧
    ∀ name destination, Configured node name destination →
      s.handlers.handlers.Registered name destination
  backed : s.failed = [] → Backed s.handlers

theorem Restoring.restored (h : Restoring (start node).rows s) : Restored node s where
  startingUp := h.startingUp
  periodicTasks := h.periodicTasks
  once := h.visited.subperm_left.mp (List.sublist_append_left _ _).subperm
  single := h.single
  configured := by
    intro name destination hregistered
    obtain ⟨row, hrow, hdestination⟩ := hregistered
    obtain ⟨hstored, hname⟩ := h.stored name row hrow
    exact (configured_iff node name destination).mpr ⟨row, hstored, hname, hdestination⟩
  restored := by
    intro hdone
    have hall := h.visited
    rw [h.done hdone, List.append_nil] at hall
    refine ⟨hall, fun name destination hconfigured => ?_⟩
    obtain ⟨row, hrow, hname, rfl⟩ := (configured_iff node name destination).mp hconfigured
    exact h.registered row (hall.symm.subset hrow) name hname
  backed := h.backed

variable {node} in
/-- Whatever throws in the broadcasts of the startup task, and however often: no command is taken
before the monitors of the stored configuration are registered again, each once, and from every
state executions in which nothing throws complete the startup, in whatever orders the names are
found. -/
theorem restored_of_run {steps : List StartupStep} (h : AnyRun next (start node) steps s) :
    Restored node s ∧ (s.completed = false → ∀ executions : List (List String),
      executions.length = ((start node).rows.length - s.restarted.length + 9) / 10 + 1 →
      (∀ names ∈ executions, names.Perm s.node.channelRepository.getDistinctByNameProtocol) →
        ∃ t, AnyRun next s (executions.map fun names => .restartTask names fun _ => none) t ∧
          t.completed = true) := by
  have hs : Restoring (start node).rows s :=
    h.invariant (I := fun _ s => Restoring (start node).rows s) (restoring_start node)
      fun hs _ hnext => hs.next hnext
  refine ⟨hs.restored, fun hopen executions hcount hnames => ?_⟩
  have hlength := hs.visited.length_eq
  rw [List.length_append] at hlength
  have hwaiting : (start node).rows.length - s.restarted.length = (unprocessed s.rows).length := by
    omega
  rw [hwaiting] at hcount
  exact exists_completed hs hopen hcount hnames

/-- Two stored monitors. -/
private def twoMonitors : NodeConfiguration :=
  ⟨{}, .empty, [⟨"pva://x", "a", 1⟩, ⟨"pva://y", "a", 1⟩]⟩

/-- The topic of the second one cannot be created at first. -/
theorem restored_of_run_twoMonitors : ∃ steps s, AnyRun next (start twoMonitors) steps s ∧
    s.refused = 1 ∧ s.failed.length = 1 ∧ s.completed = true ∧ Restored twoMonitors s := by
  obtain ⟨s, hrun, hcheck⟩ := exists_run next (fun _ _ => True) (start twoMonitors)
    [.restartTask ["pva://x", "pva://y"] fun i => if i = 1 then some .createQueue else none,
      .processCommand, .restartTask ["pva://y", "pva://x"] fun _ => none,
      .restartTask ["pva://x", "pva://y"] fun _ => none]
    (fun s => s.refused == 1 && s.failed.length == 1 && s.completed)
    (by decide +kernel)
  simp only [Bool.and_eq_true, beq_iff_eq] at hcheck
  exact ⟨_, s, hrun, hcheck.1.1, hcheck.1.2, hcheck.2, (restored_of_run hrun).1⟩

end MonitorStartup

end K2eg
