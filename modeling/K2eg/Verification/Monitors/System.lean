import K2eg.Model.MonitorSystem
import K2eg.Verification.Monitors.GracePeriod
import K2eg.Verification.Monitors.Persisted

/-! # Persisted and registered monitors

The repository and the map of the worker are kept in step by broadcasts only. They agree whenever
nothing is under way, as long as no broadcast is lost, overtaken or sent for a channel that has
another row. -/

namespace K2eg

open ChannelRepository Interleaving TopicHandlers

namespace MonitorSystem

/-- Nothing is under way. -/
structure Quiescent (system : MonitorSystem) : Prop where
  scan : system.checker.scan = .idle
  starts : ∀ call < system.checker.calls, system.checker.starts call = []
  handlers : system.handlers.Quiescent

/-- Every row is registered under the PV name of its URI, and every registration has a row. -/
structure InStep (system : MonitorSystem) : Prop where
  active : ∀ row ∈ system.checker.node.channelRepository.rows,
    ∃ name, registeredName row.pvName = some name ∧
      system.handlers.Registered name row.channelDestination
  scanned : ∀ name destination, system.handlers.Registered name destination →
    system.checker.node.channelRepository.Persisted name destination

end MonitorSystem

/-! ## Conditions -/

/-- The call is a Start for the channel that has not yet registered it. -/
def HandlerCall.Starts (call : HandlerCall) (name destination : String) : Prop :=
  call.event.action = .start ∧ call.name = name ∧
    call.event.monitorType.channelDestination = destination ∧
      match call.phase with
      | .received | .searching _ | .pushing _ => True
      | _ => False

instance (phase : HandlerPhase) :
    Decidable (match phase with | .received | .searching _ | .pushing _ => True | _ => False) :=
  match phase with
  | .received | .searching _ | .pushing _ => inferInstanceAs (Decidable True)
  | .activating | .erasing .. | .deactivating _ | .measuring _ | .removing | .ended =>
    inferInstanceAs (Decidable False)

instance (call : HandlerCall) (name destination : String) :
    Decidable (call.Starts name destination) := by
  unfold HandlerCall.Starts
  infer_instance

namespace MonitorSystem

/-- A Start for the channel is still to be broadcast or handled. -/
def Awaits (system : MonitorSystem) (name destination : String) : Prop :=
  (∃ call < system.checker.calls, ∃ monitor ∈ system.checker.starts call,
    monitor.Is name destination) ∨
    ∃ call ∈ system.handlers.calls, call.Starts name destination

instance (system : MonitorSystem) (name destination : String) :
    Decidable (system.Awaits name destination) :=
  inferInstanceAs (Decidable ((∃ call < system.checker.calls,
    ∃ monitor ∈ system.checker.starts call, monitor.Is name destination) ∨
      ∃ call ∈ system.handlers.calls, call.Starts name destination))

/-- Requests are admitted, a row is stopped when its Start has been handled, `deleteQueue` returns
and the calls of the handler act on time. -/
def Orderly (system : MonitorSystem) : SystemStep → Prop
  | .checker (.storeRegister descriptions) => system.checker.node.Admits descriptions
  | .checker (.scanHandle metadata now) => ∀ row ∈ system.checker.scan.held,
    system.checker.stopsNow row metadata now = true →
      ∀ name ∈ registeredName row.pvName, ¬system.Awaits name row.channelDestination
  | .checker (.scanDelete throws) =>
    system.checker.configuration.purgeQueueOnMonitorTimeout = true → throws = false
  | .handler call => system.handlers.OnTime (.run call)
  | _ => True

end MonitorSystem

/-! ## The parts of a call -/

/-- The call is a Stop that has not yet looked or erased. -/
def HandlerPhase.Finds : HandlerPhase → Prop
  | .received | .searching _ | .erasing .. => True
  | _ => False

namespace TopicHandlers

variable {handlers : TopicHandlers} {call : HandlerCall} {name destination : String}

theorem lookup_calls (handlers : TopicHandlers) (name : String) :
    (handlers.lookup name).2.calls = handlers.calls := by
  rw [lookup]
  split <;> rfl

theorem advance_calls (handlers : TopicHandlers) (call : HandlerCall) :
    (handlers.advance call).2.calls = handlers.calls := by
  rw [advance]
  cases call.phase with
  | received => exact lookup_calls handlers call.name
  | searching cmdVec =>
      dsimp only
      split <;> rfl
  | _ => rfl

/-- A call that awaits registration has awaited it before. -/
theorem starts_of_advance
    (h : HandlerCall.Starts { call with phase := (handlers.advance call).1 } name destination) :
    call.Starts name destination := by
  obtain ⟨haction, hname, hdest, hphase⟩ := h
  dsimp only at haction hname hdest hphase
  refine ⟨haction, hname, hdest, ?_⟩
  rw [advance] at hphase
  cases hcall : call.phase with
  | measuring cmdVec =>
      rw [hcall] at hphase
      by_cases hempty : (handlers.cmdVecs cmdVec).isEmpty = true <;> simp [hempty] at hphase
  | _ => simp_all

/-- A call awaits registration until the channel is registered. -/
theorem Kept.starts_advance (h : Kept handlers) {i : ℕ} (hcall : handlers.calls[i]? = some call)
    (hopen : call.phase ≠ .ended) (htime : handlers.ActsOnTime call)
    (hstarts : call.Starts name destination) :
    HandlerCall.Starts { call with phase := (handlers.advance call).1 } name destination ∨
      (handlers.run i call).Registered
        name destination := by
  obtain ⟨haction, rfl, rfl, hphase⟩ := hstarts
  rw [h.registered_run hcall hopen htime]
  rw [ActsOnTime] at htime
  cases hcase : call.phase with
  | received => exact .inl ⟨haction, rfl, rfl, by simp [advance, hcase]⟩
  | searching cmdVec =>
      rw [hcase] at htime
      cases hfind : find (handlers.cmdVecs cmdVec) call.event with
      | none => exact .inl ⟨haction, rfl, rfl, by simp [advance, hcase, haction, hfind]⟩
      | some position =>
          right
          obtain ⟨hlt, hfound, -⟩ := List.findIdx?_eq_some_iff_getElem.mp hfind
          refine ⟨_, ?_, of_decide_eq_true hfound⟩
          rw [registrations_of_some htime]
          exact List.getElem_mem hlt
  | pushing cmdVec => exact .inr (.inr ⟨rfl, rfl⟩)
  | _ => simp [hcase] at hphase

/-- A Stop that ends its search has nothing to erase. -/
theorem Kept.finds_advance (h : Kept handlers) {i : ℕ} (hcall : handlers.calls[i]? = some call)
    (hopen : call.phase ≠ .ended) (htime : handlers.ActsOnTime call)
    (haction : call.event.action = .stop) (hfinds : call.phase.Finds) :
    (handlers.advance call).1.Finds ∨
      ¬(handlers.run i call).Registered
        call.name call.event.monitorType.channelDestination := by
  rw [h.registered_run hcall hopen htime]
  rw [ActsOnTime] at htime
  cases hcase : call.phase with
  | received => exact .inl (by simp [advance, hcase, HandlerPhase.Finds])
  | searching cmdVec =>
      rw [hcase] at htime
      cases hfind : find (handlers.cmdVecs cmdVec) call.event with
      | none =>
          right
          rintro ⟨info, hinfo, hdest⟩
          rw [registrations_of_some htime] at hinfo
          exact find_eq_none.mp hfind info hinfo hdest
      | some position =>
          exact .inl (by simp [advance, hcase, haction, hfind, HandlerPhase.Finds])
  | erasing cmdVec position seen => exact .inr fun hregistered => hregistered.2 ⟨rfl, rfl⟩
  | _ => simp [hcase, HandlerPhase.Finds] at hfinds

end TopicHandlers

/-! ## The invariant -/

namespace MonitorSystem

/-- The scan has stopped a row of the channel and not yet removed it. -/
def Stops (system : MonitorSystem) (name destination : String) : Prop :=
  ∃ row, system.checker.scan.stopped = some row ∧ row.Is name destination

/-- A persisted monitor is registered, unless a broadcast is still to do it or has undone it. -/
structure Synced (system : MonitorSystem) : Prop where
  kept : Kept system.handlers
  keyed : system.checker.node.channelRepository.Keyed
  plain : system.checker.node.channelRepository.Plain
  held : ∀ row, system.checker.scan.held = some row →
    system.checker.node.channelRepository.Keeps row
  bounded : ∀ call, system.checker.calls ≤ call → system.checker.starts call = []
  active : ∀ name destination,
    system.checker.node.channelRepository.Persisted name destination →
      system.handlers.Registered name destination ∨ system.Awaits name destination ∨
        system.Stops name destination
  scanned : ∀ name destination, system.handlers.Registered name destination →
    system.checker.node.channelRepository.Persisted name destination
  requested : ∀ name destination, system.Awaits name destination →
    system.checker.node.channelRepository.Persisted name destination
  stops : ∀ i call, system.handlers.calls[i]? = some call → call.event.action = .stop →
    call.phase ≠ .ended → system.purging = some i ∧
      system.checker.scan.stopped = some call.event.monitorType
  stopping : ∀ row, system.checker.scan.stopped = some row → ∃ i call,
    system.purging = some i ∧ system.handlers.calls[i]? = some call ∧
      call.event = ⟨.stop, row⟩ ∧ registeredName row.pvName = some call.name ∧
      (call.phase.Finds ∨
        ¬system.handlers.Registered call.name row.channelDestination) ∧
      ¬system.Awaits call.name row.channelDestination

variable {system system' : MonitorSystem}

namespace Synced

theorem initial (configuration : MonitorCheckerConfiguration) (clock : Int) :
    Synced (.initial configuration clock) where
  kept := .initial
  keyed := keyed_empty
  plain := ⟨by simp [MonitorSystem.initial, MonitorChecker.initial],
    by simp [MonitorSystem.initial, MonitorChecker.initial]⟩
  held := by simp [MonitorSystem.initial, MonitorChecker.initial, ScanPhase.held]
  bounded := fun _ _ => rfl
  active := by simp [MonitorSystem.initial, MonitorChecker.initial, Persisted]
  scanned := by simp [MonitorSystem.initial, Registered, registrations]
  requested := by simp [MonitorSystem.initial, MonitorChecker.initial, Awaits]
  stops := by simp [MonitorSystem.initial]
  stopping := by simp [MonitorSystem.initial, MonitorChecker.initial, ScanPhase.stopped]

/-! ### Steps of a call -/

theorem run (h : Synced system) {i : ℕ} {call : HandlerCall}
    (hcall : system.handlers.calls[i]? = some call) (hopen : call.phase ≠ .ended)
    (htime : system.handlers.ActsOnTime call) :
    Synced { system with handlers := system.handlers.run i call } := by
  have hregistered := h.kept.registered_run hcall hopen htime
  have hmem := List.mem_of_getElem? hcall
  have hcalls : (system.handlers.run i call).calls =
        system.handlers.calls.set i { call with phase := (system.handlers.advance call).1 } := by
    rw [TopicHandlers.run, setPhase, advance_calls]
  have hself : (system.handlers.run i call).calls[i]? =
        some { call with phase := (system.handlers.advance call).1 } := by
    rw [hcalls, List.getElem?_set_self (List.getElem?_eq_some_iff.mp hcall).1]
  have hotherCall : ∀ j ≠ i,
      (system.handlers.run i call).calls[j]? = system.handlers.calls[j]? := by
    intro j hj
    rw [hcalls, List.getElem?_set_ne hj.symm]
  -- what is awaited afterwards was awaited before
  have hawaits : ∀ name destination,
      Awaits { system with handlers := system.handlers.run i call } name destination →
        system.Awaits name destination := by
    rintro name destination (hpending | ⟨other, hother, hstarts⟩)
    · exact .inl hpending
    · rw [hcalls] at hother
      rcases List.mem_or_eq_of_mem_set hother with hother | rfl
      · exact .inr ⟨other, hother, hstarts⟩
      · exact .inr ⟨call, hmem, starts_of_advance hstarts⟩
  -- a registration that appears was awaited
  have hold : ∀ name destination, (system.handlers.run i call).Registered name destination →
        system.handlers.Registered name destination ∨ system.Awaits name destination := by
    intro name destination hnew
    rw [hregistered] at hnew
    cases hphase : call.phase with
    | pushing cmdVec =>
        rw [hphase] at hnew
        rcases hnew with hnew | ⟨rfl, rfl⟩
        · exact .inl hnew
        · have hfits := h.kept.fits call hmem
          rw [HandlerCall.Fits, hphase] at hfits
          exact .inr (.inr ⟨call, hmem, hfits, rfl, rfl, by rw [hphase]; trivial⟩)
    | erasing cmdVec position seen =>
        rw [hphase] at hnew
        exact .inl hnew.1
    | _ =>
        rw [hphase] at hnew
        exact .inl hnew
  refine ⟨h.kept.run hcall hopen htime, h.keyed, h.plain, h.held, h.bounded, ?_, ?_, ?_, ?_, ?_⟩
  · intro name destination hpersisted
    rcases h.active name destination hpersisted with hreg | hawaited | hstopped
    · by_cases hnew : (system.handlers.run i call).Registered name destination
      · exact .inl hnew
      · -- Stop has taken it away
        rw [hregistered] at hnew
        cases hphase : call.phase with
        | erasing cmdVec position seen =>
            rw [hphase] at hnew
            obtain ⟨rfl, rfl⟩ := not_not.mp fun hne => hnew ⟨hreg, hne⟩
            have hfits := h.kept.fits call hmem
            rw [HandlerCall.Fits, hphase] at hfits
            have hstop := h.stops i call hcall hfits.1 hopen
            exact .inr (.inr ⟨_, hstop.2, h.kept.sanitized call hmem hopen, rfl⟩)
        | pushing cmdVec =>
            rw [hphase] at hnew
            exact absurd (.inl hreg) hnew
        | _ =>
            rw [hphase] at hnew
            exact absurd hreg hnew
    · rcases hawaited with hpending | ⟨other, hother, hstarts⟩
      · exact .inr (.inl (.inl hpending))
      · obtain ⟨j, hj⟩ := List.getElem?_of_mem hother
        by_cases hij : j = i
        · subst hij
          obtain rfl := Option.some.inj (hcall.symm.trans hj)
          rcases h.kept.starts_advance hcall hopen htime hstarts with hstarts | hreg
          · exact .inr (.inl (.inr ⟨_, List.mem_of_getElem? hself, hstarts⟩))
          · exact .inl hreg
        · exact .inr (.inl (.inr ⟨other, List.mem_of_getElem? ((hotherCall j hij).trans hj),
            hstarts⟩))
    · exact .inr (.inr hstopped)
  · intro name destination hnew
    rcases hold name destination hnew with hreg | hawaited
    · exact h.scanned name destination hreg
    · exact h.requested name destination hawaited
  · exact fun name destination hawaited =>
      h.requested name destination (hawaits name destination hawaited)
  · intro j other hj haction hphase
    by_cases hij : j = i
    · subst hij
      obtain rfl := Option.some.inj (hself.symm.trans hj)
      exact h.stops j call hcall haction hopen
    · exact h.stops j other ((hotherCall j hij).symm.trans hj) haction hphase
  · intro row hrow
    obtain ⟨j, stop, hpurging, hj, hevent, hname, hfinds, hnot⟩ := h.stopping row hrow
    have hgone : ¬system.handlers.Registered stop.name row.channelDestination →
        ¬(system.handlers.run i call).Registered stop.name row.channelDestination :=
      fun hreg hnew => (hold _ _ hnew).elim hreg hnot
    by_cases hij : j = i
    · subst hij
      obtain rfl := Option.some.inj (hcall.symm.trans hj)
      refine ⟨j, _, hpurging, hself, hevent, hname, ?_, fun hawaited => hnot (hawaits _ _ hawaited)⟩
      rcases hfinds with hfinds | hreg
      · have hstep := h.kept.finds_advance hcall hopen htime (by rw [hevent]) hfinds
        rwa [hevent] at hstep
      · exact .inr (hgone hreg)
    · refine ⟨j, stop, hpurging, (hotherCall j hij).trans hj, hevent, hname, ?_,
        fun hawaited => hnot (hawaits _ _ hawaited)⟩
      exact hfinds.imp_right hgone

/-! ### Steps of the checker -/

/-- A step that keeps the channels, the broadcasts and the row that is stopped. -/
theorem keep (h : Synced system) {checker' : MonitorChecker}
    {update : ChannelMonitorType → ChannelMonitorType} (hkeeps : KeepsKey update)
    (hrows : checker'.node.channelRepository = { system.checker.node.channelRepository with
      rows := system.checker.node.channelRepository.rows.map update })
    (hstarts : checker'.starts = system.checker.starts)
    (hcalls : checker'.calls = system.checker.calls)
    (hstopped : checker'.scan.stopped = system.checker.scan.stopped)
    (hheld : ∀ row, checker'.scan.held = some row → checker'.node.channelRepository.Keeps row) :
    Synced { system with checker := checker' } := by
  have hpersisted : ∀ name destination,
      checker'.node.channelRepository.Persisted name destination ↔
        system.checker.node.channelRepository.Persisted name destination := fun _ _ => by
    rw [hrows, persisted_map hkeeps]
  have hawaits : ∀ name destination, Awaits { system with checker := checker' } name destination ↔
      system.Awaits name destination := fun _ _ => by
    simp only [Awaits, hstarts, hcalls]
  refine ⟨h.kept, by rw [hrows]; exact h.keyed.map hkeeps, by rw [hrows]; exact h.plain.map hkeeps,
    hheld, ?_, ?_, ?_, ?_, ?_, ?_⟩
  · rw [hstarts, hcalls]
    exact h.bounded
  · intro name destination hrow
    rw [hawaits, Stops, hstopped]
    exact h.active name destination ((hpersisted _ _).mp hrow)
  · exact fun name destination hreg => (hpersisted _ _).mpr (h.scanned name destination hreg)
  · exact fun name destination hawaited =>
      (hpersisted _ _).mpr (h.requested name destination ((hawaits _ _).mp hawaited))
  · rw [hstopped]
    exact h.stops
  · intro row hrow
    rw [hstopped] at hrow
    obtain ⟨i, call, hpurging, hcall, hevent, hname, hfinds, hnot⟩ := h.stopping row hrow
    exact ⟨i, call, hpurging, hcall, hevent, hname, hfinds,
      fun hawaited => hnot ((hawaits _ _).mp hawaited)⟩

/-- A request persists its channels and leaves their Start broadcasts to be made. -/
theorem register (h : Synced system) {checker' : MonitorChecker}
    {descriptions : List ChannelMonitorType}
    (hadmits : system.checker.node.Admits descriptions)
    (hrows : checker'.node.channelRepository =
      (system.checker.node.addLoop descriptions).2.channelRepository)
    (hstarts : checker'.starts =
      Function.update system.checker.starts system.checker.calls descriptions)
    (hcalls : checker'.calls = system.checker.calls + 1)
    (hfree : system.checker.scan.stopped = none) (hscan : checker'.scan = system.checker.scan) :
    Synced { system with checker := checker' } := by
  obtain ⟨hplain, hpersisted⟩ :=
    NodeConfiguration.persisted_addLoop h.plain h.keyed hadmits
  rw [← hrows] at hplain hpersisted
  have hawaits : ∀ name destination, Awaits { system with checker := checker' } name destination ↔
      system.Awaits name destination ∨ ∃ monitor ∈ descriptions, monitor.Is name destination := by
    intro name destination
    simp only [Awaits, hstarts, hcalls]
    constructor
    · rintro (⟨call, hlt, monitor, hmonitor, his⟩ | hhandler)
      · rcases Nat.lt_succ_iff_lt_or_eq.mp hlt with hlt | rfl
        · rw [Function.update_of_ne hlt.ne] at hmonitor
          exact .inl (.inl ⟨call, hlt, monitor, hmonitor, his⟩)
        · rw [Function.update_self] at hmonitor
          exact .inr ⟨monitor, hmonitor, his⟩
      · exact .inl (.inr hhandler)
    · rintro ((⟨call, hlt, monitor, hmonitor, his⟩ | hhandler) | ⟨monitor, hmonitor, his⟩)
      · refine .inl ⟨call, Nat.lt_succ_of_lt hlt, monitor, ?_, his⟩
        rwa [Function.update_of_ne hlt.ne]
      · exact .inr hhandler
      · refine .inl ⟨system.checker.calls, Nat.lt_succ_self _, monitor, ?_, his⟩
        rwa [Function.update_self]
  refine ⟨h.kept, ?_, hplain, ?_, ?_, ?_, ?_, ?_, ?_, ?_⟩
  · rw [hrows]
    exact NodeConfiguration.keyed_addLoop h.keyed descriptions
  · intro row hrow
    rw [hrows]
    rw [hscan] at hrow
    exact NodeConfiguration.keeps_addLoop (h.held row hrow) descriptions
  · intro call hle
    rw [hcalls] at hle
    rw [hstarts, Function.update_of_ne (by omega)]
    exact h.bounded call (by omega)
  · intro name destination hrow
    rw [hawaits, Stops, hscan]
    rcases (hpersisted name destination).mp hrow with hold | hnew
    · rcases h.active name destination hold with hreg | hawaited | hstopped
      · exact .inl hreg
      · exact .inr (.inl (.inl hawaited))
      · exact .inr (.inr hstopped)
    · exact .inr (.inl (.inr hnew))
  · exact fun name destination hreg =>
      (hpersisted _ _).mpr (.inl (h.scanned name destination hreg))
  · intro name destination hawaited
    rw [hpersisted]
    exact ((hawaits _ _).mp hawaited).imp_left (h.requested name destination)
  · rw [hscan]
    exact h.stops
  · rw [hscan, hfree]
    simp

/-- A Start is broadcast. -/
theorem start (h : Synced system) {checker' : MonitorChecker} {call : ℕ}
    {monitor : ChannelMonitorType} {rest : List ChannelMonitorType} (storing : ℕ → Option ℕ)
    (hpending : system.checker.starts call = monitor :: rest)
    (hrows : checker'.node.channelRepository = system.checker.node.channelRepository)
    (hstarts : checker'.starts = Function.update system.checker.starts call rest)
    (hcalls : checker'.calls = system.checker.calls) (hscan : checker'.scan = system.checker.scan) :
    Synced { system with
      checker := checker'
      handlers := system.handlers.receive ⟨.start, monitor⟩
      storing } := by
  obtain ⟨new, hnew, hevent, hphase⟩ := receive_calls system.handlers ⟨.start, monitor⟩
  have hlt : call < system.checker.calls := by
    by_contra hle
    simp [h.bounded call (Nat.le_of_not_lt hle)] at hpending
  have hawaits : ∀ name destination, Awaits { system with
      checker := checker', handlers := system.handlers.receive ⟨.start, monitor⟩, storing }
        name destination ↔ system.Awaits name destination := by
    intro name destination
    simp only [Awaits, hstarts, hcalls, hnew]
    constructor
    · rintro (⟨other, hother, pending, hmem, his⟩ | ⟨other, hother, hother_starts⟩)
      · by_cases heq : other = call
        · subst heq
          rw [Function.update_self] at hmem
          exact .inl ⟨other, hother, pending, hpending ▸ List.mem_cons_of_mem _ hmem, his⟩
        · rw [Function.update_of_ne heq] at hmem
          exact .inl ⟨other, hother, pending, hmem, his⟩
      · rcases List.mem_append.mp hother with hother | hother
        · exact .inr ⟨other, hother, hother_starts⟩
        · obtain rfl := List.mem_singleton.mp hother
          obtain ⟨-, hname, hdest, hstarts⟩ := hother_starts
          rcases hphase with ⟨-, hregistered⟩ | ⟨-, hended⟩
          · refine .inl ⟨call, hlt, monitor, hpending ▸ List.mem_cons_self, ?_, ?_⟩
            · rw [← hname]
              exact hregistered
            · rw [← hdest, hevent]
          · simp [hended] at hstarts
    · rintro (⟨other, hother, pending, hmem, his⟩ | ⟨other, hother, hstarts⟩)
      · by_cases heq : other = call
        · subst heq
          rw [hpending] at hmem
          rcases List.mem_cons.mp hmem with rfl | hmem
          · refine .inr ⟨new, List.mem_append_right _ (List.mem_singleton_self _), ?_⟩
            rcases hphase with ⟨hreceived, hregistered⟩ | ⟨hnone, -⟩
            · refine ⟨by rw [hevent], ?_, by rw [hevent]; exact his.2, by rw [hreceived]; trivial⟩
              exact Option.some.inj (hregistered.symm.trans his.1)
            · exact absurd (hnone.symm.trans his.1) (by simp)
          · refine .inl ⟨other, hother, pending, ?_, his⟩
            rwa [Function.update_self]
        · refine .inl ⟨other, hother, pending, ?_, his⟩
          rwa [Function.update_of_ne heq]
      · exact .inr ⟨other, List.mem_append_left _ hother, hstarts⟩
  refine ⟨h.kept.receive _, hrows ▸ h.keyed, hrows ▸ h.plain, ?_, ?_, ?_, ?_, ?_, ?_, ?_⟩
  · rw [hscan, hrows]
    exact h.held
  · intro other hle
    rw [hcalls] at hle
    rw [hstarts, Function.update_of_ne (by omega)]
    exact h.bounded other hle
  · intro name destination hrow
    rw [hrows] at hrow
    rw [hawaits, Stops, hscan]
    exact h.active name destination hrow
  · rw [hrows]
    exact h.scanned
  · intro name destination hawaited
    rw [hrows]
    exact h.requested name destination ((hawaits _ _).mp hawaited)
  · intro i other hother haction hopen
    rw [hscan]
    rw [hnew, List.getElem?_append] at hother
    split at hother
    · exact h.stops i other hother haction hopen
    · have hmem := List.mem_singleton.mp (List.mem_of_getElem? hother)
      rw [hmem, hevent] at haction
      cases haction
  · intro row hrow
    rw [hscan] at hrow
    obtain ⟨i, stop, hpurging, hstop, hstopEvent, hname, hfinds, hnot⟩ := h.stopping row hrow
    refine ⟨i, stop, hpurging, ?_, hstopEvent, hname, hfinds,
      fun hawaited => hnot ((hawaits _ _).mp hawaited)⟩
    rw [hnew, List.getElem?_append_left (List.getElem?_eq_some_iff.mp hstop).1]
    exact hstop

/-- The scan broadcasts Stop for the row in hand. -/
theorem stop (h : Synced system) {checker' : MonitorChecker} {row : ChannelMonitorType}
    (hheld : system.checker.scan.held = some row)
    (hawaited : ∀ name ∈ registeredName row.pvName,
      ¬system.Awaits name row.channelDestination)
    (hrows : checker'.node.channelRepository = system.checker.node.channelRepository)
    (hstarts : checker'.starts = system.checker.starts)
    (hcalls : checker'.calls = system.checker.calls)
    (hfree : system.checker.scan.stopped = none) (hstopped : checker'.scan.stopped = some row)
    (hheld' : ∀ row, checker'.scan.held = some row → checker'.node.channelRepository.Keeps row) :
    Synced { system with
      checker := checker'
      handlers := system.handlers.receive ⟨.stop, row⟩
      purging := some system.handlers.calls.length } := by
  obtain ⟨new, hnew, hevent, hphase⟩ := receive_calls system.handlers ⟨.stop, row⟩
  obtain ⟨name, hname⟩ : ∃ name, registeredName row.pvName = some name := by
    obtain ⟨current, hcurrent, -, hpv, -⟩ := h.held row hheld
    exact Option.isSome_iff_exists.mp (hpv ▸ h.plain.named current hcurrent)
  obtain ⟨hreceived, hregistered⟩ : new.phase = .received ∧
      registeredName row.pvName = some new.name := by
    rcases hphase with hphase | ⟨hnone, -⟩
    · exact hphase
    · exact absurd (hnone.symm.trans hname) (by simp)
  have hawaits : ∀ name destination, Awaits { system with
      checker := checker', handlers := system.handlers.receive ⟨.stop, row⟩
      purging := some system.handlers.calls.length } name destination ↔
        system.Awaits name destination := by
    intro name destination
    simp only [Awaits, hstarts, hcalls, hnew]
    refine or_congr_right ⟨?_, ?_⟩
    · rintro ⟨other, hother, hstarts⟩
      rcases List.mem_append.mp hother with hother | hother
      · exact ⟨other, hother, hstarts⟩
      · have haction := hstarts.1
        rw [List.mem_singleton.mp hother, hevent] at haction
        cases haction
    · rintro ⟨other, hother, hstarts⟩
      exact ⟨other, List.mem_append_left _ hother, hstarts⟩
  refine ⟨h.kept.receive _, hrows ▸ h.keyed, hrows ▸ h.plain, hheld', ?_, ?_, ?_, ?_, ?_, ?_⟩
  · rw [hstarts, hcalls]
    exact h.bounded
  · intro name destination hrow
    rw [hrows] at hrow
    rw [hawaits]
    rcases h.active name destination hrow with hreg | hawaited | ⟨other, hother, -⟩
    · exact .inl hreg
    · exact .inr (.inl hawaited)
    · exact absurd (hfree.symm.trans hother) (by simp)
  · rw [hrows]
    exact h.scanned
  · intro name destination hawaited
    rw [hrows]
    exact h.requested name destination ((hawaits _ _).mp hawaited)
  · intro i other hother haction hopen
    rw [hnew] at hother
    by_cases hlt : i < system.handlers.calls.length
    · rw [List.getElem?_append_left hlt] at hother
      exact absurd (hfree.symm.trans (h.stops i other hother haction hopen).2) (by simp)
    · rw [List.getElem?_append_right (Nat.le_of_not_lt hlt)] at hother
      have hi : i = system.handlers.calls.length := by
        have := (List.getElem?_eq_some_iff.mp hother).1
        rw [List.length_singleton] at this
        omega
      have hmem := List.mem_singleton.mp (List.mem_of_getElem? hother)
      exact ⟨congrArg some hi.symm, by rw [hmem, hevent]; exact hstopped⟩
  · intro other hother
    obtain rfl := Option.some.inj (hstopped.symm.trans hother)
    refine ⟨_, new, rfl, by rw [hnew, List.getElem?_concat_length], hevent, hregistered,
      .inl (by rw [hreceived]; trivial), fun hwaits => ?_⟩
    exact hawaited new.name hregistered ((hawaits _ _).mp hwaits)

/-- The stopped row is removed when its Stop has been handled. -/
theorem delete (h : Synced system) {checker' : MonitorChecker} {row : ChannelMonitorType}
    (hreturned : system.returned system.purging = true)
    (hstopped : system.checker.scan.stopped = some row)
    (hheld : system.checker.scan.held = some row)
    (hrows : checker'.node.channelRepository = system.checker.node.channelRepository.remove row)
    (hstarts : checker'.starts = system.checker.starts)
    (hcalls : checker'.calls = system.checker.calls) (hclosed : checker'.scan.stopped = none)
    (hheld' : ∀ row, checker'.scan.held = some row → checker'.node.channelRepository.Keeps row) :
    Synced { system with checker := checker' } := by
  obtain ⟨i, call, hpurging, hcall, hevent, hname, hfinds, hnot⟩ := h.stopping row hstopped
  have hended : call.phase = .ended := by
    simpa [returned, hpurging, hcall] using hreturned
  have hgone : ¬system.handlers.Registered call.name row.channelDestination := by
    apply hfinds.resolve_left
    rw [hended]
    exact id
  have hpersisted : ∀ name destination,
      checker'.node.channelRepository.Persisted name destination ↔
        system.checker.node.channelRepository.Persisted name destination ∧
          ¬row.Is name destination := fun _ _ => by
    rw [hrows, h.plain.persisted_remove (h.held row hheld)]
  have hawaits : ∀ name destination, Awaits { system with checker := checker' } name destination ↔
      system.Awaits name destination := fun _ _ => by
    simp only [Awaits, hstarts, hcalls]
  refine ⟨h.kept, by rw [hrows]; exact h.keyed.remove row, by rw [hrows]; exact h.plain.remove row,
    hheld', ?_, ?_, ?_, ?_, ?_, ?_⟩
  · rw [hstarts, hcalls]
    exact h.bounded
  · intro name destination hrow
    obtain ⟨hold, hother⟩ := (hpersisted _ _).mp hrow
    rw [hawaits]
    rcases h.active name destination hold with hreg | hawaited | ⟨other, hotherStopped, his⟩
    · exact .inl hreg
    · exact .inr (.inl hawaited)
    · obtain rfl := Option.some.inj (hstopped.symm.trans hotherStopped)
      exact absurd his hother
  · intro name destination hreg
    refine (hpersisted _ _).mpr ⟨h.scanned name destination hreg, fun his => hgone ?_⟩
    obtain rfl := Option.some.inj (hname.symm.trans his.1)
    rwa [his.2]
  · intro name destination hawaited
    have hbefore := (hawaits _ _).mp hawaited
    refine (hpersisted _ _).mpr ⟨h.requested name destination hbefore, fun his => hnot ?_⟩
    obtain rfl := Option.some.inj (hname.symm.trans his.1)
    rwa [his.2]
  · intro j other hother haction hopen
    obtain ⟨hpurging', -⟩ := h.stops j other hother haction hopen
    obtain rfl := Option.some.inj (hpurging.symm.trans hpurging')
    obtain rfl := Option.some.inj (hcall.symm.trans hother)
    exact absurd hended hopen
  · rw [hclosed]
    simp

/-! ### All steps -/

/-- A step without a broadcast that is neither a registration nor a removal. -/
theorem quiet (h : Synced system) {checker' : MonitorChecker} {step : CheckerStep}
    (hnext : system.checker.next step = some checker')
    (hregister : ∀ descriptions, step ≠ .storeRegister descriptions)
    (hdelete : ∀ throws, step ≠ .scanDelete throws)
    (hstarts : checker'.starts = system.checker.starts)
    (hcalls : checker'.calls = system.checker.calls)
    (hstopped : checker'.scan.stopped = system.checker.scan.stopped) :
    Synced { system with checker := checker' } := by
  have hmove := MonitorChecker.move_of_next hnext
  generalize hrepository : checker'.node.channelRepository = repository at hmove
  cases hmove with
  | tagged keeps =>
      exact h.keep keeps hrepository hstarts hcalls hstopped
        fun row hheld => MonitorChecker.keeps_of_next h.held hnext hheld
  | registered descriptions => exact absurd rfl (hregister descriptions)
  | removed _ throws => exact absurd rfl (hdelete throws)

theorem nextChecker_of_isQuiet {step : CheckerStep} (h : step.isQuiet = true) :
    system.nextChecker step =
      (system.checker.next step).map fun checker => { system with checker } := by
  cases step <;> first | rfl | cases h

theorem nextChecker (h : Synced system) {step : CheckerStep}
    (horderly : system.Orderly (.checker step)) (hnext : system.nextChecker step = some system') :
    Synced system' := by
  have hheld : ∀ {checker'}, system.checker.next step = some checker' →
      ∀ row, checker'.scan.held = some row → checker'.node.channelRepository.Keeps row :=
    fun hstep row hheld => MonitorChecker.keeps_of_next h.held hstep hheld
  by_cases hquiet : step.isQuiet = true
  · rw [nextChecker_of_isQuiet hquiet] at hnext
    obtain ⟨checker', hstep, rfl⟩ := Option.map_eq_some_iff.mp hnext
    have hmove := MonitorChecker.broadcastMove_of_next hstep
    cases hmove with
    | quiet _ starts calls stopped =>
        exact h.quiet hstep (by rintro _ rfl; cases hquiet) (by rintro _ rfl; cases hquiet) starts
          calls stopped
    | _ => cases hquiet
  cases step with
  | storeRegister descriptions =>
      obtain ⟨checker', hstep, rfl⟩ := Option.map_eq_some_iff.mp hnext
      cases MonitorChecker.broadcastMove_of_next hstep with
      | registers _ starts calls scan free =>
          refine h.register horderly ?_ starts calls free scan
          cases MonitorChecker.transition_of_next hstep
          rfl
      | quiet quiet => cases quiet
  | storeBroadcast call =>
      rw [MonitorSystem.nextChecker] at hnext
      split at hnext
      · cases hnext
      · rename_i monitor rest hpending
        split at hnext
        · obtain ⟨checker', hstep, rfl⟩ := Option.map_eq_some_iff.mp hnext
          cases MonitorChecker.broadcastMove_of_next hstep with
          | starts pending starts calls scan =>
              obtain ⟨rfl, rfl⟩ := List.cons.inj (hpending.symm.trans pending)
              refine h.start _ hpending ?_ starts calls scan
              cases MonitorChecker.transition_of_next hstep
              rfl
          | quiet quiet => cases quiet
        · cases hnext
  | scanHandle metadata now =>
      obtain ⟨checker', hstep, heq⟩ := Option.map_eq_some_iff.mp hnext
      cases MonitorChecker.broadcastMove_of_next hstep with
      | handles held free starts calls stopped =>
          split at heq
          · rename_i hscan
            rw [hscan, ScanPhase.stopped] at stopped
            split at stopped
            · rename_i hstops
              obtain rfl := Option.some.inj stopped
              subst heq
              refine h.stop held (horderly _ held hstops) ?_ starts calls free (by rw [hscan]; rfl)
                (hheld hstep)
              cases MonitorChecker.transition_of_next hstep
              exact congrArg NodeConfiguration.channelRepository
                (MonitorChecker.scanHandle_node ..)
            · cases stopped
          · rename_i hscan
            subst heq
            apply h.quiet hstep (by simp) (by simp) starts calls
            rw [free]
            cases hcase : checker'.scan <;> first | rfl | exact absurd hcase (hscan _ _ _ _)
      | quiet quiet => cases quiet
  | scanDelete throws =>
      rw [MonitorSystem.nextChecker] at hnext
      split at hnext
      · rename_i hreturned
        obtain ⟨checker', hstep, rfl⟩ := Option.map_eq_some_iff.mp hnext
        obtain ⟨row, hrow, hstopped, hrows⟩ := MonitorChecker.removed_of_next hstep horderly
        cases MonitorChecker.broadcastMove_of_next hstep with
        | deletes stopped starts calls closed =>
            exact h.delete hreturned hstopped hrow hrows starts calls closed (hheld hstep)
        | quiet quiet => cases quiet
      · cases hnext
  | _ => exact absurd rfl hquiet

theorem next (h : Synced system) {step : SystemStep} (horderly : system.Orderly step)
    (hnext : system.next step = some system') : Synced system' := by
  cases step with
  | checker step => exact h.nextChecker horderly hnext
  | handler i =>
      obtain ⟨handlers', hstep, rfl⟩ := Option.map_eq_some_iff.mp hnext
      rw [TopicHandlers.next] at hstep
      split at hstep
      · cases hstep
      · rename_i call hcall
        split at hstep <;> cases hstep
        exact h.run hcall ‹_› (horderly call hcall)

/-- In a quiescent state nothing is awaited and no row is being removed. -/
theorem inStep (h : Synced system) (hquiescent : system.Quiescent) : system.InStep := by
  refine ⟨fun row hrow => ?_, h.scanned⟩
  obtain ⟨name, hname⟩ := Option.isSome_iff_exists.mp (h.plain.named row hrow)
  refine ⟨name, hname, ?_⟩
  rcases h.active name row.channelDestination ⟨row, hrow, hname, rfl⟩ with hreg | hawaited | hstops
  · exact hreg
  · rcases hawaited with ⟨call, hlt, monitor, hmonitor, -⟩ | ⟨call, hcall, -, -, -, hphase⟩
    · rw [hquiescent.starts call hlt] at hmonitor
      cases hmonitor
    · simp [hquiescent.handlers call hcall] at hphase
  · obtain ⟨other, hstopped, -⟩ := hstops
    rw [hquiescent.scan] at hstopped
    cases hstopped

end Synced

/-! ## Runs -/

instance (system : MonitorSystem) : (step : SystemStep) → Decidable (system.Orderly step)
  | .checker (.storeRegister descriptions) =>
    inferInstanceAs (Decidable (system.checker.node.Admits descriptions))
  | .checker (.scanHandle metadata now) =>
    inferInstanceAs (Decidable (∀ row ∈ system.checker.scan.held,
      system.checker.stopsNow row metadata now = true →
        ∀ name ∈ registeredName row.pvName, ¬system.Awaits name row.channelDestination))
  | .checker (.scanDelete throws) => inferInstanceAs (Decidable
      (system.checker.configuration.purgeQueueOnMonitorTimeout = true → throws = false))
  | .handler call => inferInstanceAs (Decidable (system.handlers.OnTime (.run call)))
  | .checker (.setPurgeTimeout _) | .checker .resetMonitorToProcess | .checker (.storeBroadcast _)
  | .checker (.scanBegin ..) | .checker .scanFetch | .checker (.scanFlag _)
  | .checker .scanTag => .isTrue trivial

/-- In every quiescent state of an orderly run the rows and the registrations agree. -/
theorem inStep_of_run (configuration : MonitorCheckerConfiguration) (clock : Int)
    {steps : List SystemStep} {system : MonitorSystem}
    (h : Run next Orderly (initial configuration clock) steps system)
    (hquiescent : system.Quiescent) : system.InStep := by
  have hsynced : Synced system :=
    h.invariant (I := fun _ system => Synced system) (Synced.initial configuration clock)
      fun hbefore horderly hnext => hbefore.next horderly hnext
  exact hsynced.inStep hquiescent

namespace SystemTrace

open MonitorTrace

/-- A request with its Start broadcast and the call that handles it. -/
def store (call handler : ℕ) : List SystemStep :=
  [.checker (.storeRegister [unread]), .checker (.storeBroadcast call)] ++
    List.replicate 4 (.handler handler)

/-- A scan that sets the purge timestamp, and one that stops the monitor. -/
def purge (handler : ℕ) (throws : Bool) : List SystemStep :=
  (handle 20 ++ finish 20 ++ [CheckerStep.resetMonitorToProcess] ++ handle 40).map
      SystemStep.checker ++
    List.replicate 6 (.handler handler) ++
    ([CheckerStep.scanDelete throws] ++ finish 40).map SystemStep.checker

/-- `Quiescent`, with the number of rows. -/
def settledWith (rows : ℕ) (system : MonitorSystem) : Bool :=
  decide (system.checker.scan = .idle) &&
    decide (∀ call < system.checker.calls, system.checker.starts call = []) &&
    decide (∀ call ∈ system.handlers.calls, call.phase = .ended) &&
    decide (system.checker.node.channelRepository.rows.length = rows)

theorem quiescent_of_settledWith {rows : ℕ} {system : MonitorSystem}
    (h : settledWith rows system = true) :
    system.Quiescent ∧ system.checker.node.channelRepository.rows.length = rows := by
  simp only [settledWith, Bool.and_eq_true, decide_eq_true_eq] at h
  exact ⟨⟨h.1.1.1, h.1.1.2, h.1.2⟩, h.2⟩

end SystemTrace

open SystemTrace

/-- A monitor is requested, stopped by the purge scan and requested again. -/
theorem inStep_of_run_again : ∃ steps system,
    Run next Orderly (initial ⟨10, true, fun _ => false⟩ 0) steps system ∧
      system.checker.node.channelRepository.rows.length = 1 ∧ system.InStep := by
  obtain ⟨system, hrun, hcheck⟩ := exists_run next Orderly
    (initial ⟨10, true, fun _ => false⟩ 0) (store 0 0 ++ purge 1 false ++ store 1 2)
    (settledWith 1) (by decide +kernel)
  obtain ⟨hquiescent, hrows⟩ := quiescent_of_settledWith hcheck
  exact ⟨_, system, hrun, hrows, inStep_of_run _ _ hrun hquiescent⟩

/-- `deleteQueue` throws behind the Stop: the row stays, the registration is gone. -/
theorem not_inStep_throws : ¬∀ (configuration : MonitorCheckerConfiguration) (clock : Int)
    (steps : List SystemStep) (system : MonitorSystem),
    AnyRun next (initial configuration clock) steps system → system.Quiescent →
      system.InStep := by
  intro h
  obtain ⟨system, hrun, hcheck⟩ := exists_run next (fun _ _ => True)
    (initial ⟨10, true, fun _ => false⟩ 0) (store 0 0 ++ purge 1 true)
    (fun system => settledWith 1 system && (system.handlers.channelTopicsMap "a").isNone &&
      decide (system.checker.node.channelRepository.rows.map ChannelMonitorType.pvName =
        ["pva://a"])) (by decide +kernel)
  simp only [Bool.and_eq_true, decide_eq_true_eq, Option.isNone_iff_eq_none] at hcheck
  obtain ⟨⟨hsettled, hmap⟩, hrows⟩ := hcheck
  obtain ⟨row, hrow, hpv⟩ : ∃ row ∈ system.checker.node.channelRepository.rows,
      row.pvName = "pva://a" := List.mem_map.mp (by rw [hrows]; exact List.mem_singleton_self _)
  obtain ⟨name, hname, info, hinfo, -⟩ :=
    (h _ _ _ system hrun (quiescent_of_settledWith hsettled).1).active row hrow
  obtain rfl : name = "a" := by
    rw [hpv, show registeredName "pva://a" = some "a" by decide] at hname
    exact (Option.some.inj hname).symm
  rw [registrations, hmap] at hinfo
  cases hinfo

end MonitorSystem

end K2eg
