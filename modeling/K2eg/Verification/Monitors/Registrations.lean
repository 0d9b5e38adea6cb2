import K2eg.Verification.Monitors.Requests

/-! # The PVs of a command that is told of success

As long as the handlers act on time and nothing throws, they are registered, unless the scan has
stopped them since. -/

namespace K2eg

open Interleaving

namespace MonitorCommandWorker

open MonitorSystem RequestTrace

variable {R : MonitorSystem → ℕ → ℕ → ChannelMonitorType → Prop}
  {hasSerializationForType : SerializationType → Bool} {s t : MonitorCommandWorker}
  {system system' : MonitorSystem} {cmd : ConstCommand} {phase : MonitorCallPhase} {i : ℕ}

/-- The PV of the Start is registered, if it will not be registered by the Start yet, or a Stop has
been broadcast for it since. -/
def Registers (system : MonitorSystem) (since i : ℕ) (description : ChannelMonitorType) : Prop :=
  ∀ name, registeredName description.pvName = some name →
    (∃ call, system.handlers.calls[i]? = some call ∧
      call.Starts name description.channelDestination) ∨
    system.handlers.Registered name description.channelDestination ∨
    system.StoppedSince since fun row => row.Is name description.channelDestination

/-- The registrations are kept, and at most the Stop of the scan is under way. -/
structure Timely (system : MonitorSystem) : Prop where
  kept : TopicHandlers.Kept system.handlers
  stops : ∀ i call, system.handlers.calls[i]? = some call → call.event.action = .stop →
    call.phase ≠ .ended → system.purging = some i ∧
      system.checker.scan.stopped = some call.event.monitorType

/-- The handlers act on time. -/
def StepsOnTime (system : MonitorSystem) : SystemStep → Prop
  | .handler call => system.handlers.OnTime (.run call)
  | .checker _ => True

theorem Timely.receive (h : Timely system) {event : MonitorHandlerData}
    (hhandlers : system'.handlers = system.handlers.receive event)
    (hold : ∀ i call, system.handlers.calls[i]? = some call → call.event.action = .stop →
      call.phase ≠ .ended → system'.purging = some i ∧
        system'.checker.scan.stopped = some call.event.monitorType)
    (hnew : event.action = .stop → system'.purging = some system.handlers.calls.length ∧
      system'.checker.scan.stopped = some event.monitorType) : Timely system' where
  kept := hhandlers ▸ h.kept.receive event
  stops := by
    intro i call hcall hstop hopen
    obtain ⟨new, hcalls, rfl, -⟩ := TopicHandlers.receive_calls system.handlers event
    rw [hhandlers, hcalls, History.getElem?_snoc] at hcall
    split at hcall
    · obtain rfl := Option.some.inj hcall
      subst i
      exact hnew hstop
    · exact hold i call hcall hstop hopen

theorem Timely.next (h : Timely system) {step : SystemStep} (htime : StepsOnTime system step)
    (hnext : system.next step = some system') : Timely system' := by
  cases move_of_next hnext with
  | @runs k run checker storing purging =>
      obtain ⟨call, hcall, hopen, hrun⟩ := TopicHandlers.run_of_next run
      refine ⟨hrun ▸ h.kept.run hcall hopen (htime call hcall), ?_⟩
      intro i other hother hstop hother'
      rw [purging, checker]
      rw [hrun, TopicHandlers.calls_run] at hother
      by_cases hi : i = k
      · subst hi
        rw [List.getElem?_set_self (List.getElem?_eq_some_iff.mp hcall).1] at hother
        obtain rfl := Option.some.inj hother
        exact h.stops i call hcall hstop hopen
      · rw [List.getElem?_set_ne (Ne.symm hi)] at hother
        exact h.stops i other hother hstop hother'
  | broadcasts hstep pending returned handlers storing purging =>
      cases MonitorChecker.broadcastMove_of_next hstep with
      | starts _ _ _ scan =>
          refine h.receive handlers ?_ (by simp)
          rw [purging, scan]
          exact h.stops
      | quiet quiet => cases quiet
  | @stops metadata now row hstep stopped handlers storing purging =>
      cases MonitorChecker.broadcastMove_of_next hstep with
      | handles held free =>
          refine h.receive handlers ?_ fun _ => ⟨purging, stopped⟩
          intro i call hcall hstop hopen
          have hstopped := (h.stops i call hcall hstop hopen).2
          rw [free] at hstopped
          cases hstopped
      | quiet quiet => cases quiet
  | deletes hstep returned handlers storing purging =>
      refine ⟨handlers ▸ h.kept, ?_⟩
      intro i call hcall hstop hopen
      rw [handlers] at hcall
      have hpurging := (h.stops i call hcall hstop hopen).1
      rw [hpurging, MonitorSystem.returned, hcall] at returned
      exact absurd (of_decide_eq_true returned) hopen
  | quiet hstep silent stopped handlers storing purging =>
      refine ⟨handlers ▸ h.kept, ?_⟩
      rw [handlers, purging, stopped]
      exact h.stops

/-- A registration goes by the Stop that the scan has broadcast. -/
theorem Timely.registered (h : Timely system) {step : SystemStep} (htime : StepsOnTime system step)
    (hnext : system.next step = some system') {name destination : String}
    (hregistered : system.handlers.Registered name destination) :
    system'.handlers.Registered name destination ∨
      ∃ row, system.checker.scan.stopped = some row ∧ row.Is name destination := by
  cases move_of_next hnext with
  | @runs k run checker storing purging =>
      obtain ⟨call, hcall, hopen, hrun⟩ := TopicHandlers.run_of_next run
      have hmem := List.mem_of_getElem? hcall
      rw [hrun, h.kept.registered_run hcall hopen (htime call hcall)]
      cases hphase : call.phase with
      | pushing cmdVec => exact .inl (.inl hregistered)
      | erasing cmdVec position seen =>
          by_cases hown : name = call.name ∧ destination = call.event.monitorType.channelDestination
          · obtain ⟨rfl, rfl⟩ := hown
            have hfits := h.kept.fits call hmem
            rw [HandlerCall.Fits, hphase] at hfits
            exact .inr ⟨call.event.monitorType, (h.stops k call hcall hfits.1 hopen).2,
              h.kept.sanitized call hmem hopen, rfl⟩
          · exact .inl ⟨hregistered, hown⟩
      | _ => exact .inl hregistered
  | broadcasts _ _ _ handlers | stops _ _ handlers =>
      rw [handlers]
      exact .inl hregistered
  | deletes _ _ handlers | quiet _ _ _ handlers =>
      rw [handlers]
      exact .inl hregistered

/-- A Start goes on until it has registered its channel. -/
theorem Timely.starts (h : Timely system) {step : SystemStep} (htime : StepsOnTime system step)
    (hnext : system.next step = some system') {call : HandlerCall} {name destination : String}
    (hcall : system.handlers.calls[i]? = some call) (hstarts : call.Starts name destination) :
    (∃ call', system'.handlers.calls[i]? = some call' ∧ call'.Starts name destination) ∨
      system'.handlers.Registered name destination := by
  have hreceived {event : MonitorHandlerData}
      (hhandlers : system'.handlers = system.handlers.receive event) :
      system'.handlers.calls[i]? = some call := by
    rw [hhandlers, TopicHandlers.receive,
      List.getElem?_append_left (List.getElem?_eq_some_iff.mp hcall).1, hcall]
  cases move_of_next hnext with
  | @runs k run checker storing purging =>
      obtain ⟨other, hother, hopen, hrun⟩ := TopicHandlers.run_of_next run
      rw [hrun, TopicHandlers.calls_run]
      by_cases hi : i = k
      · subst hi
        obtain rfl := Option.some.inj (hcall.symm.trans hother)
        rw [List.getElem?_set_self (List.getElem?_eq_some_iff.mp hcall).1]
        rcases h.kept.starts_advance hcall hopen (htime call hcall) hstarts with hgoes | hregistered
        · exact .inl ⟨_, rfl, hgoes⟩
        · exact .inr hregistered
      · rw [List.getElem?_set_ne (Ne.symm hi)]
        exact .inl ⟨call, hcall, hstarts⟩
  | broadcasts _ _ _ handlers | stops _ _ handlers => exact .inl ⟨call, hreceived handlers, hstarts⟩
  | deletes _ _ handlers | quiet _ _ _ handlers =>
      rw [handlers]
      exact .inl ⟨call, hcall, hstarts⟩

theorem Timely.carries (h : Timely system) {step : SystemStep} (htime : StepsOnTime system step)
    (hnext : system.next step = some system') : Carries Registers system system' where
  kept := by
    intro descriptions since hstored i description hR name hname
    rcases hR name hname with ⟨call, hcall, hstarts⟩ | hregistered | hstopped
    · rcases h.starts htime hnext hcall hstarts with hgoes | hregistered
      · exact .inl hgoes
      · exact .inr (.inl hregistered)
    · rcases h.registered htime hnext hregistered with hkept | ⟨row, hrow, his⟩
      · exact .inr (.inl hkept)
      · obtain ⟨other, now, hmem, rfl⟩ := (hstored.stopping row hrow).moved (moved_of_next hnext)
        exact .inr (.inr ⟨other, now, hmem, his⟩)
    · exact .inr (.inr (hstopped.moved (moved_of_next hnext)))
  born := by
    intro since monitor hreceive name hname
    obtain ⟨call, hcalls, hevent, hphase⟩ :=
      TopicHandlers.receive_calls system.handlers ⟨.start, monitor⟩
    rcases hphase with ⟨hreceived, hregistered⟩ | ⟨hnone, -⟩
    · refine .inl ⟨call, ?_, ?_, ?_, ?_, ?_⟩
      · rw [hreceive, hcalls, List.getElem?_concat_length]
      · rw [hevent]
      · exact Option.some.inj (hregistered.symm.trans hname)
      · rw [hevent]
      · rw [hreceived]
        trivial
    · rw [hname] at hnone
      cases hnone

/-- Nothing throws, and the handlers act on time. -/
def OnTime (s : MonitorCommandWorker) : MonitorWorkerStep → Prop
  | .throwStart _ => False
  | .system step => StepsOnTime s.system step
  | _ => True

instance (system : MonitorSystem) : (step : SystemStep) → Decidable (StepsOnTime system step)
  | .handler call => inferInstanceAs (Decidable (system.handlers.OnTime (.run call)))
  | .checker _ => .isTrue trivial

instance (s : MonitorCommandWorker) : (step : MonitorWorkerStep) → Decidable (s.OnTime step)
  | .throwStart _ => .isFalse id
  | .system step => inferInstanceAs (Decidable (StepsOnTime s.system step))
  | .receive _ | .processCommand _ | .storeMonitorData _ | .manageReply _ | .startupCompleted =>
    .isTrue trivial

theorem Timely.worker (h : Timely s.system) {step : MonitorWorkerStep} (htime : s.OnTime step)
    (hnext : s.next hasSerializationForType step = some t) :
    Timely t.system ∧ Carries Registers s.system t.system := by
  cases transition_of_next hnext with
  | receives | refuses | admits | replies | startupCompleted => exact ⟨h, carries_same rfl⟩
  | @stores i cmd descriptions errorMessage system registering requested hstep =>
      have htime : StepsOnTime s.system (.checker (.storeRegister descriptions)) := trivial
      exact ⟨h.next htime hstep, h.carries htime hstep⟩
  | throws => exact htime.elim
  | system hstep => exact ⟨h.next htime hstep, h.carries htime hstep⟩

theorem Answering.registered (h : Answering Registers hasSerializationForType s) {replies : Replies}
    (hcall : s.calls[i]? = some ⟨cmd, .activated replies⟩) :
    ∃ descriptions errorMessage since, requested cmd = some (descriptions, errorMessage) ∧
      s.system.Stored descriptions since ∧
      ∀ description ∈ descriptions, ∀ name, registeredName description.pvName = some name →
        s.system.handlers.Registered name description.channelDestination ∨
          s.system.StoppedSince since fun row => row.Is name description.channelDestination := by
  have hserves : Serves Registers hasSerializationForType s.system cmd (.activated replies) :=
    h.serves i _ hcall
  generalize hphase : MonitorCallPhase.activated replies = phase at hserves
  cases hserves with
  | @activated descriptions errorMessage since handled requested stored started =>
      refine ⟨descriptions, errorMessage, since, requested, stored, ?_⟩
      intro description hmem name hname
      obtain ⟨j, hj, rfl⟩ := List.getElem_of_mem hmem
      obtain ⟨hregisters, call, hcall, hevent, hended | hnone⟩ :=
        started.starts.get (started.starts.length_eq ▸ hj) hj
      · rcases hregisters name hname with ⟨other, hother, -, -, -, hphase⟩ | hregistered
        · obtain rfl := Option.some.inj (hcall.symm.trans hother)
          simp [hended] at hphase
        · exact hregistered
      · cases hnone
  | _ => cases hphase

/-- The answers of a worker whose handlers act on time. -/
structure AnsweringOnTime (hasSerializationForType : SerializationType → Bool)
    (s : MonitorCommandWorker) : Prop where
  answering : Answering Registers hasSerializationForType s
  timely : Timely s.system

theorem AnsweringOnTime.start (configuration : MonitorCheckerConfiguration) (clock : Int) :
    AnsweringOnTime hasSerializationForType (start configuration clock) where
  answering := .start configuration clock
  timely := ⟨.initial, by simp [MonitorCommandWorker.start, MonitorSystem.initial]⟩

theorem AnsweringOnTime.next (h : AnsweringOnTime hasSerializationForType s)
    {step : MonitorWorkerStep} (htime : s.OnTime step)
    (hnext : s.next hasSerializationForType step = some t) :
    AnsweringOnTime hasSerializationForType t := by
  obtain ⟨htimely, hcarries⟩ := h.timely.worker htime hnext
  exact ⟨h.answering.next hcarries hnext, htimely⟩

/-- A command that is told of success: its PVs are registered, unless a Stop has been broadcast for
them since it was stored. -/
theorem registered_of_run (configuration : MonitorCheckerConfiguration) (clock : Int)
    {steps : List MonitorWorkerStep} {replies : Replies}
    (hrun : Run (next hasSerializationForType) OnTime (start configuration clock) steps s)
    (hcall : s.calls[i]? = some ⟨cmd, .activated replies⟩) :
    ∃ descriptions errorMessage since, requested cmd = some (descriptions, errorMessage) ∧
      s.system.Stored descriptions since ∧
      ∀ description ∈ descriptions, ∀ name, registeredName description.pvName = some name →
        s.system.handlers.Registered name description.channelDestination ∨
          s.system.StoppedSince since fun row => row.Is name description.channelDestination := by
  have h : AnsweringOnTime hasSerializationForType s :=
    hrun.invariant (I := fun _ s => AnsweringOnTime hasSerializationForType s)
      (.start configuration clock) fun h htime hnext => h.next htime hnext
  exact h.answering.registered hcall

/-- Both PVs that have a name are registered. -/
private def bothServed : List MonitorWorkerStep :=
  .startupCompleted :: served several 0 ++ served single 1 ++
    List.replicate 3 (.system (.handler 1)) ++ [.manageReply 1] ++
    List.replicate 3 (.system (.handler 0)) ++ [.manageReply 0]

/-- The command of a call that has been told of success. -/
private def activatedBy (call : MonitorCall) : Option ConstCommand :=
  match call.phase with
  | .activated _ => some call.cmd
  | _ => none

theorem registered_of_run_bothServed : ∃ s,
    Run (next fun _ => true) OnTime (start ⟨10, true, fun _ => false⟩ 0) bothServed s ∧
      (s.messagesOf 0).length = 1 ∧ s.system.handlers.Registered "a:b" "a_b" := by
  let first : ChannelMonitorType := ⟨-1, "pva://a:b", 1, "a_b", false, 1, -1⟩
  let second : ChannelMonitorType := ⟨-1, "pva://c", 1, "topic", false, 1, -1⟩
  obtain ⟨s, hrun, hcheck⟩ := exists_run (next fun _ => true) OnTime
    (start ⟨10, true, fun _ => false⟩ 0) bothServed
    (fun s => (s.messagesOf 0).length == 1 &&
      decide (((s.calls[0]?).bind activatedBy).bind requested =
        some ([first], "Monitor activated")) &&
      decide (s.system.checker.history = [.stored "pva://a:b" "a_b", .startBroadcast first,
        .stored "pva://c" "topic", .startBroadcast second]))
    (by decide +kernel)
  simp only [Bool.and_eq_true, beq_iff_eq, decide_eq_true_eq, Option.bind_eq_some_iff] at hcheck
  obtain ⟨⟨hone, cmd, ⟨⟨other, phase⟩, hcall, hcmd⟩, hrequested⟩, hhistory⟩ := hcheck
  cases phase with
  | activated replies =>
      obtain rfl := Option.some.inj hcmd
      obtain ⟨descriptions, errorMessage, since, hrequested', -, hregistered⟩ :=
        registered_of_run _ _ hrun hcall
      obtain ⟨rfl, -⟩ := Prod.mk.inj (Option.some.inj (hrequested'.symm.trans hrequested))
      rcases hregistered first List.mem_cons_self "a:b" (by decide +kernel) with hdone | hstopped
      · exact ⟨s, hrun, hone, hdone⟩
      · obtain ⟨row, now, hmem, -⟩ := hstopped
        have hnone := List.mem_of_mem_drop hmem
        simp [hhistory] at hnone
  | _ => cases hcmd

end MonitorCommandWorker

end K2eg
