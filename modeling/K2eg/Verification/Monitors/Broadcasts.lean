import K2eg.Verification.Monitors.Reactivation
import K2eg.Verification.Monitors.System

/-! # The broadcasts of a request

A call of `storeMonitorData` writes its descriptions to the configuration and has their Starts
handled one after the other. What it has done stays done beside the other calls and the scans, but
for what the scan stops. -/

namespace K2eg

open Interleaving

/-! ## The configuration -/

namespace NodeConfiguration

variable {node : NodeConfiguration} {description : ChannelMonitorType}
  {descriptions : List ChannelMonitorType}

theorem configured_addOne (h : ConfigEdit.entryOf description ∈ node.nodeConfiguration.entries)
    (other : ChannelMonitorType) :
    ConfigEdit.entryOf description ∈ (node.addOne other).2.nodeConfiguration.entries := by
  rw [ConfigEdit.addOne_nodeConfiguration]
  exact ConfigEdit.mem_apply h fun hremoves => hremoves

theorem configured_addLoop (h : ConfigEdit.entryOf description ∈ node.nodeConfiguration.entries)
    (descriptions : List ChannelMonitorType) :
    ConfigEdit.entryOf description ∈ (node.addLoop descriptions).2.nodeConfiguration.entries := by
  induction descriptions generalizing node with
  | nil => exact h
  | cons other rest ih => exact ih (configured_addOne h other)

theorem configured_of_mem (node : NodeConfiguration) (h : description ∈ descriptions) :
    ConfigEdit.entryOf description ∈ (node.addLoop descriptions).2.nodeConfiguration.entries := by
  induction descriptions generalizing node with
  | nil => cases h
  | cons other rest ih =>
      rcases List.mem_cons.mp h with rfl | hrest
      · have hadded : ConfigEdit.entryOf description ∈
            (node.addOne description).2.nodeConfiguration.entries := by
          rw [ConfigEdit.addOne_nodeConfiguration]
          exact ConfigEdit.mem_apply_add _ description
        exact configured_addLoop hadded rest
      · exact ih _ hrest

end NodeConfiguration

/-! ## The checker -/

namespace MonitorChecker

variable {checker checker' : MonitorChecker} {step : CheckerStep} {row : ChannelMonitorType}

theorem history_scanHandle (checker : MonitorChecker) (elementToProcess : ℕ)
    (names : List String) (processed : ℕ) (row : ChannelMonitorType)
    (metadata : Option (List SubscriberGroup)) (now : Int) :
    ∃ events, (checker.scanHandle elementToProcess names processed row metadata now).history =
        checker.history ++ events ∧
      (checker.stopsNow row metadata now = true → CheckerEvent.stopBroadcast row now ∈ events) := by
  cases metadata with
  | none => exact ⟨[], (List.append_nil _).symm, by simp [stopsNow]⟩
  | some groups =>
      simp only [scanHandle, stopsNow]
      split
      · exact ⟨_, rfl, by simp_all⟩
      split
      · exact ⟨[], (List.append_nil _).symm, by simp_all [isTimeoutExpired]⟩
      split
      · exact ⟨_, rfl, by simp⟩
      · exact ⟨[], (List.append_nil _).symm, by simp_all⟩

theorem history_of_next (hnext : checker.next step = some checker') :
    checker.history <+: checker'.history := by
  cases transition_of_next hnext with
  | setPurgeTimeout | storeRegister | storeBroadcast => exact List.prefix_append _ _
  | resetMonitorToProcess | scanBegin | scanEnd | skipName | takeRow | scanTag =>
      exact List.prefix_refl _
  | @scanHandle elementToProcess names processed row now handling metadata later =>
      obtain ⟨events, hevents, -⟩ := history_scanHandle { checker with clock := now }
        elementToProcess names processed row metadata now
      rw [hevents]
      exact List.prefix_append _ _
  | scanDelete =>
      rw [scanDelete]
      split
      · split
        · exact List.prefix_refl _
        · exact List.prefix_append _ _
      · exact List.prefix_refl _
  | scanFlag =>
      rw [scanFlag]
      split
      · exact List.prefix_refl _
      split
      · exact List.prefix_append _ _
      · exact List.prefix_refl _

/-- An entry of the configuration stays until its row has been stopped. -/
theorem configured_of_next (hnext : checker.next step = some checker')
    {description : ChannelMonitorType}
    (h : ConfigEdit.entryOf description ∈ checker.node.nodeConfiguration.entries) :
    ConfigEdit.entryOf description ∈ checker'.node.nodeConfiguration.entries ∨
      ∃ row, checker.scan.stopped = some row ∧
        ConfigEdit.entryOf row = ConfigEdit.entryOf description := by
  cases transition_of_next hnext with
  | storeRegister descriptions =>
      exact .inl (NodeConfiguration.configured_addLoop h descriptions)
  | scanHandle =>
      rw [scanHandle_node]
      exact .inl h
  | @scanDelete _ _ _ row stopping throws =>
      by_cases hremoved : ConfigEdit.entryOf row = ConfigEdit.entryOf description
      · exact .inr ⟨row, by rw [stopping]; rfl, hremoved⟩
      · have hkept : ConfigEdit.entryOf description ∈
            ((ConfigEdit.remove row).apply checker.node.nodeConfiguration).entries :=
          ConfigEdit.mem_apply h hremoved
        left
        rw [scanDelete]
        split
        · split
          · exact h
          · exact hkept
        · exact hkept
  | scanFlag =>
      left
      rw [scanFlag]
      split
      · exact h
      split <;> exact h
  | _ => exact .inl h

/-- A row that is stopped has been in a Stop broadcast. -/
theorem stopping_of_next (hnext : checker.next step = some checker')
    (hstopped : checker'.scan.stopped = some row) : checker.scan.stopped = some row ∨
      ∃ now, CheckerEvent.stopBroadcast row now ∈
        checker'.history.drop checker.history.length := by
  cases broadcastMove_of_next hnext with
  | registers _ _ _ scan | starts _ _ _ scan => exact .inl (scan ▸ hstopped)
  | deletes _ _ _ closed =>
      rw [closed] at hstopped
      cases hstopped
  | quiet _ _ _ stopped => exact .inl (stopped ▸ hstopped)
  | @handles metadata now held hheld free starts calls stopped =>
      right
      rw [stopped] at hstopped
      obtain ⟨hstops, heq⟩ := Option.ite_none_right_eq_some.mp hstopped
      obtain rfl := Option.some.inj heq
      cases transition_of_next hnext with
      | @scanHandle elementToProcess names processed current _ handling =>
          rw [handling, ScanPhase.held, Option.some.injEq] at hheld
          subst hheld
          obtain ⟨events, hevents, hstop⟩ := history_scanHandle { checker with clock := now }
            elementToProcess names processed current metadata now
          rw [hevents, List.drop_left]
          exact ⟨now, hstop hstops⟩

end MonitorChecker

/-! ## The calls of the handlers -/

namespace TopicHandlers

variable {handlers handlers' : TopicHandlers}

/-- The calls go on, and those that have ended stay so. -/
def Grows (handlers handlers' : TopicHandlers) : Prop :=
  ∀ (i : ℕ) (call : HandlerCall), handlers.calls[i]? = some call →
    ∃ call' : HandlerCall, handlers'.calls[i]? = some call' ∧ call'.event = call.event ∧
      (call.phase = .ended → call'.phase = .ended)

theorem grows_of_calls (h : handlers'.calls = handlers.calls) : Grows handlers handlers' :=
  fun i call hcall => ⟨call, by rw [h, hcall], rfl, fun hended => hended⟩

theorem grows_receive (handlers : TopicHandlers) (event : MonitorHandlerData) :
    Grows handlers (handlers.receive event) := by
  intro i call hcall
  obtain ⟨hlt, -⟩ := List.getElem?_eq_some_iff.mp hcall
  refine ⟨call, ?_, rfl, fun hended => hended⟩
  rw [receive, List.getElem?_append_left hlt, hcall]

/-- A call that has not ended goes on to another phase. -/
theorem grows_of_set {i : ℕ} {call : HandlerCall} {phase : HandlerPhase}
    (hcall : handlers.calls[i]? = some call) (hopen : call.phase ≠ .ended)
    (hcalls : handlers'.calls = handlers.calls.set i { call with phase }) :
    Grows handlers handlers' := by
  intro j other hother
  by_cases hj : j = i
  · subst hj
    obtain rfl := Option.some.inj (hcall.symm.trans hother)
    refine ⟨{ call with phase }, ?_, rfl, fun hended => absurd hended hopen⟩
    rw [hcalls, List.getElem?_set_self (List.getElem?_eq_some_iff.mp hcall).1]
  · refine ⟨other, ?_, rfl, fun hended => hended⟩
    rw [hcalls, List.getElem?_set_ne (Ne.symm hj), hother]

theorem run_of_next {i : ℕ} (hnext : handlers.next (.run i) = some handlers') :
    ∃ call, handlers.calls[i]? = some call ∧ call.phase ≠ .ended ∧
      handlers' = handlers.run i call := by
  rw [next] at hnext
  split at hnext
  · cases hnext
  · split at hnext <;> cases hnext
    exact ⟨_, ‹_›, ‹_›, rfl⟩

theorem calls_run (handlers : TopicHandlers) (i : ℕ) (call : HandlerCall) :
    (handlers.run i call).calls =
      handlers.calls.set i { call with phase := (handlers.advance call).1 } := by
  rw [run, setPhase, advance_calls]

theorem grows_of_run {i : ℕ} (hnext : handlers.next (.run i) = some handlers') :
    Grows handlers handlers' := by
  obtain ⟨call, hcall, hopen, rfl⟩ := run_of_next hnext
  exact grows_of_set hcall hopen (calls_run handlers i call)

end TopicHandlers

/-! ## The system -/

namespace MonitorSystem

variable {system system' : MonitorSystem} {since : ℕ} {descriptions : List ChannelMonitorType}
  {handled : List ℕ} {call : ℕ} {R R' : ℕ → ChannelMonitorType → Prop}

/-- A Stop of such a row has been broadcast behind so many events. -/
def StoppedSince (system : MonitorSystem) (since : ℕ) (P : ChannelMonitorType → Prop) : Prop :=
  ∃ row now, CheckerEvent.stopBroadcast row now ∈ system.checker.history.drop since ∧ P row

/-- `storeMonitorData` has registered the descriptions behind so many events: they are in the
configuration but for those that have been stopped since. -/
structure Stored (system : MonitorSystem) (descriptions : List ChannelMonitorType)
    (since : ℕ) : Prop where
  reached : since ≤ system.checker.history.length
  logged : (descriptions.map fun (description : ChannelMonitorType) =>
    CheckerEvent.stored description.pvName description.channelDestination) <+:
      system.checker.history.drop since
  configured : ∀ description ∈ descriptions,
    ConfigEdit.entryOf description ∈ system.checker.node.nodeConfiguration.entries ∨
      system.StoppedSince since fun row =>
        ConfigEdit.entryOf row = ConfigEdit.entryOf description
  stopping : ∀ row, system.checker.scan.stopped = some row → system.StoppedSince since (· = row)

/-- The Starts of the descriptions have been handled in this order, each in a call of its own,
and `R` holds of each; `current` is the one that may be under way. -/
structure Started (R : ℕ → ChannelMonitorType → Prop) (system : MonitorSystem)
    (descriptions : List ChannelMonitorType) (handled : List ℕ) (current : Option ℕ) : Prop where
  increasing : handled.Pairwise (· < ·)
  starts : List.Forall₂ (fun i description => R i description ∧
    ∃ call, system.handlers.calls[i]? = some call ∧ call.event = ⟨.start, description⟩ ∧
      (call.phase = .ended ∨ current = some i)) handled descriptions

/-- What a step leaves of what has been done. -/
structure Moved (system system' : MonitorSystem) : Prop where
  history : system.checker.history <+: system'.checker.history
  configured : ∀ description : ChannelMonitorType,
    ConfigEdit.entryOf description ∈ system.checker.node.nodeConfiguration.entries →
      ConfigEdit.entryOf description ∈ system'.checker.node.nodeConfiguration.entries ∨
        ∃ row, system.checker.scan.stopped = some row ∧
          ConfigEdit.entryOf row = ConfigEdit.entryOf description
  stopping : ∀ row, system'.checker.scan.stopped = some row →
    system.checker.scan.stopped = some row ∨ ∃ now, CheckerEvent.stopBroadcast row now ∈
      system'.checker.history.drop system.checker.history.length
  handlers : TopicHandlers.Grows system.handlers system'.handlers

theorem StoppedSince.moved {P : ChannelMonitorType → Prop} (h : system.StoppedSince since P)
    (hmoved : Moved system system') : system'.StoppedSince since P := by
  obtain ⟨row, now, hmem, hrow⟩ := h
  exact ⟨row, now, (hmoved.history.drop since).subset hmem, hrow⟩

theorem Stored.moved (h : system.Stored descriptions since) (hmoved : Moved system system') :
    system'.Stored descriptions since where
  reached := h.reached.trans hmoved.history.length_le
  logged := h.logged.trans (hmoved.history.drop since)
  configured := by
    intro description hmem
    rcases h.configured description hmem with hentry | hstopped
    · rcases hmoved.configured description hentry with hentry | ⟨row, hrow, heq⟩
      · exact .inl hentry
      · obtain ⟨other, now, hmem, rfl⟩ := (h.stopping row hrow).moved hmoved
        exact .inr ⟨other, now, hmem, heq⟩
    · exact .inr (hstopped.moved hmoved)
  stopping := by
    intro row hrow
    rcases hmoved.stopping row hrow with hbefore | ⟨now, hmem⟩
    · exact (h.stopping row hbefore).moved hmoved
    · refine ⟨row, now, ?_, rfl⟩
      rw [← Nat.add_sub_cancel' h.reached, ← List.drop_drop] at hmem
      exact List.mem_of_mem_drop hmem

theorem Started.moved {current : Option ℕ} (h : system.Started R descriptions handled current)
    (hmoved : Moved system system')
    (hR : ∀ i description, R i description → R' i description) :
    system'.Started R' descriptions handled current where
  increasing := h.increasing
  starts := h.starts.imp fun i description ⟨hstart, call, hcall, hevent, hphase⟩ => by
    obtain ⟨call', hcall', hevent', hended⟩ := hmoved.handlers i call hcall
    exact ⟨hR i description hstart, call', hcall', hevent'.trans hevent, hphase.imp_left hended⟩

/-- What a step does to the calls of the handlers, and to the calls that have made them. -/
inductive SystemMove (system system' : MonitorSystem) : SystemStep → Prop where
  | runs {i} (run : system.handlers.next (.run i) = some system'.handlers)
      (checker : system'.checker = system.checker) (storing : system'.storing = system.storing)
      (purging : system'.purging = system.purging) : SystemMove system system' (.handler i)
  | broadcasts {call monitor}
      (next : system.checker.next (.storeBroadcast call) = some system'.checker)
      (pending : system.checker.starts call = monitor :: system'.checker.starts call)
      (returned : system.returned (system.storing call) = true)
      (handlers : system'.handlers = system.handlers.receive ⟨.start, monitor⟩)
      (storing : system'.storing =
        Function.update system.storing call (some system.handlers.calls.length))
      (purging : system'.purging = system.purging) :
      SystemMove system system' (.checker (.storeBroadcast call))
  | stops {metadata now row}
      (next : system.checker.next (.scanHandle metadata now) = some system'.checker)
      (stopped : system'.checker.scan.stopped = some row)
      (handlers : system'.handlers = system.handlers.receive ⟨.stop, row⟩)
      (storing : system'.storing = system.storing)
      (purging : system'.purging = some system.handlers.calls.length) :
      SystemMove system system' (.checker (.scanHandle metadata now))
  | deletes {throws}
      (next : system.checker.next (.scanDelete throws) = some system'.checker)
      (returned : system.returned system.purging = true)
      (handlers : system'.handlers = system.handlers)
      (storing : system'.storing = system.storing) (purging : system'.purging = system.purging) :
      SystemMove system system' (.checker (.scanDelete throws))
  | quiet {step} (next : system.checker.next step = some system'.checker)
      (silent : ∀ storing, step ≠ .storeBroadcast storing)
      (stopped : system'.checker.scan.stopped = system.checker.scan.stopped)
      (handlers : system'.handlers = system.handlers)
      (storing : system'.storing = system.storing) (purging : system'.purging = system.purging) :
      SystemMove system system' (.checker step)

theorem move_of_next {step : SystemStep} (hnext : system.next step = some system') :
    SystemMove system system' step := by
  cases step with
  | handler i =>
      obtain ⟨handlers', hstep, rfl⟩ := Option.map_eq_some_iff.mp hnext
      exact .runs hstep rfl rfl rfl
  | checker step =>
      by_cases hquiet : step.isQuiet = true
      · rw [next, Synced.nextChecker_of_isQuiet hquiet] at hnext
        obtain ⟨checker', hstep, rfl⟩ := Option.map_eq_some_iff.mp hnext
        cases MonitorChecker.broadcastMove_of_next hstep with
        | quiet _ _ _ stopped =>
            exact .quiet hstep (by rintro _ rfl; cases hquiet) stopped rfl rfl rfl
        | _ => cases hquiet
      cases step with
      | storeRegister descriptions =>
          obtain ⟨checker', hstep, rfl⟩ := Option.map_eq_some_iff.mp hnext
          cases MonitorChecker.broadcastMove_of_next hstep with
          | registers _ _ _ scan =>
              exact .quiet hstep (by simp) (congrArg ScanPhase.stopped scan) rfl rfl rfl
          | quiet quiet => cases quiet
      | storeBroadcast storing =>
          rw [next, nextChecker] at hnext
          split at hnext
          · cases hnext
          · rename_i monitor rest hpending
            split at hnext
            · obtain ⟨checker', hstep, rfl⟩ := Option.map_eq_some_iff.mp hnext
              cases MonitorChecker.broadcastMove_of_next hstep with
              | starts pending starts =>
                  obtain ⟨rfl, rfl⟩ := List.cons.inj (hpending.symm.trans pending)
                  refine .broadcasts hstep ?_ ‹_› rfl rfl rfl
                  rw [hpending, starts, Function.update_self]
              | quiet quiet => cases quiet
            · cases hnext
      | scanHandle metadata now =>
          obtain ⟨checker', hstep, heq⟩ := Option.map_eq_some_iff.mp hnext
          cases MonitorChecker.broadcastMove_of_next hstep with
          | handles held free starts calls stopped =>
              split at heq <;> subst heq
              · rename_i hscan
                exact .stops hstep (by rw [hscan]; rfl) rfl rfl rfl
              · rename_i hscan
                refine .quiet hstep (by simp) ?_ rfl rfl rfl
                rw [free]
                cases hcase : checker'.scan <;> first | rfl | exact absurd hcase (hscan _ _ _ _)
          | quiet quiet => cases quiet
      | scanDelete throws =>
          rw [next, nextChecker] at hnext
          split at hnext
          · obtain ⟨checker', hstep, rfl⟩ := Option.map_eq_some_iff.mp hnext
            exact .deletes hstep ‹_› rfl rfl rfl
          · cases hnext
      | _ => exact absurd rfl hquiet

theorem moved_of_checker {step : CheckerStep}
    (hnext : system.checker.next step = some system'.checker)
    (hhandlers : TopicHandlers.Grows system.handlers system'.handlers) : Moved system system' :=
  ⟨MonitorChecker.history_of_next hnext,
    fun _ hentry => MonitorChecker.configured_of_next hnext hentry,
    fun _ hstopped => MonitorChecker.stopping_of_next hnext hstopped, hhandlers⟩

theorem moved_of_next {step : SystemStep} (hnext : system.next step = some system') :
    Moved system system' := by
  cases move_of_next hnext with
  | runs run checker =>
      refine ⟨?_, ?_, ?_, TopicHandlers.grows_of_run run⟩
      · rw [checker]
      · rw [checker]
        exact fun _ hentry => .inl hentry
      · rw [checker]
        exact fun _ hstopped => .inl hstopped
  | broadcasts hstep _ _ handlers | stops hstep _ handlers =>
      exact moved_of_checker hstep (handlers ▸ TopicHandlers.grows_receive _ _)
  | deletes hstep _ handlers | quiet hstep _ _ handlers =>
      exact moved_of_checker hstep (TopicHandlers.grows_of_calls (by rw [handlers]))

/-! ### The broadcasts of a call -/

/-- The calls to come have not begun. -/
def Fresh (system : MonitorSystem) : Prop :=
  ∀ call, system.checker.calls ≤ call →
    system.checker.starts call = [] ∧ system.storing call = none

/-- A call of `storeMonitorData` has made some of its broadcasts. -/
structure Broadcasts (R : ℕ → ChannelMonitorType → Prop) (system : MonitorSystem)
    (descriptions : List ChannelMonitorType) (call : ℕ) (handled : List ℕ) : Prop where
  begun : call < system.checker.calls
  last : system.storing call = handled.getLast?
  started : ∃ done, done ++ system.checker.starts call = descriptions ∧
    system.Started R done handled (system.storing call)

/-- What a step does to a call of `storeMonitorData`. -/
inductive BroadcastStep (system system' : MonitorSystem) (call : ℕ) : Prop where
  | same (starts : system'.checker.starts call = system.checker.starts call)
      (storing : system'.storing call = system.storing call)
  | next {monitor}
      (starts : system.checker.starts call = monitor :: system'.checker.starts call)
      (storing : system'.storing call = some system.handlers.calls.length)
      (returned : system.returned (system.storing call) = true)
      (handlers : system'.handlers = system.handlers.receive ⟨.start, monitor⟩)

/-- A step that broadcasts no Start leaves those to come, but for a call that registers. -/
theorem starts_of_silent {checker checker' : MonitorChecker} {step : CheckerStep}
    (hnext : checker.next step = some checker') (hsilent : ∀ call, step ≠ .storeBroadcast call) :
    checker.calls ≤ checker'.calls ∧ ∀ call, call < checker.calls ∨ checker'.calls ≤ call →
      checker'.starts call = checker.starts call := by
  cases MonitorChecker.broadcastMove_of_next hnext with
  | registers descriptions starts calls =>
      rw [starts, calls]
      refine ⟨Nat.le_succ _, fun call hcall => Function.update_of_ne ?_ _ _⟩
      omega
  | starts => exact absurd rfl (hsilent _)
  | handles _ _ starts calls | deletes _ starts calls | quiet _ starts calls =>
      rw [starts, calls]
      exact ⟨le_rfl, fun _ _ => rfl⟩

theorem broadcastStep_of_next {step : SystemStep} (hnext : system.next step = some system')
    (hcall : call < system.checker.calls ∨ system'.checker.calls ≤ call) :
    system.checker.calls ≤ system'.checker.calls ∧ BroadcastStep system system' call := by
  cases move_of_next hnext with
  | runs _ checker storing =>
      exact ⟨by rw [checker], .same (by rw [checker]) (by rw [storing])⟩
  | @broadcasts other monitor hstep pending returned handlers storing =>
      cases MonitorChecker.broadcastMove_of_next hstep with
      | starts pending' starts calls =>
          refine ⟨calls.ge, ?_⟩
          by_cases hother : call = other
          · subst hother
            exact .next pending (by rw [storing, Function.update_self]) returned handlers
          · refine .same ?_ ?_
            · rw [starts, Function.update_of_ne hother]
            · rw [storing, Function.update_of_ne hother]
      | quiet quiet => cases quiet
  | stops hstep _ _ storing =>
      obtain ⟨hcalls, hstarts⟩ := starts_of_silent hstep (by simp)
      exact ⟨hcalls, .same (hstarts call hcall) (by rw [storing])⟩
  | deletes hstep _ _ storing =>
      obtain ⟨hcalls, hstarts⟩ := starts_of_silent hstep (by simp)
      exact ⟨hcalls, .same (hstarts call hcall) (by rw [storing])⟩
  | quiet hstep silent _ _ storing =>
      obtain ⟨hcalls, hstarts⟩ := starts_of_silent hstep silent
      exact ⟨hcalls, .same (hstarts call hcall) (by rw [storing])⟩

theorem Fresh.next (h : system.Fresh) {step : SystemStep}
    (hnext : system.next step = some system') : system'.Fresh := by
  intro call hcall
  obtain ⟨hcalls, hstep⟩ := broadcastStep_of_next hnext (.inr hcall)
  obtain ⟨hstarts, hstoring⟩ := h call (hcalls.trans hcall)
  cases hstep with
  | same starts storing => exact ⟨starts.trans hstarts, storing.trans hstoring⟩
  | next starts =>
      rw [hstarts] at starts
      cases starts

/-- Where the last call has returned, all have. -/
theorem Started.returned {current : Option ℕ} (h : system.Started R descriptions handled current)
    (hreturned : system.returned current = true) :
    system.Started R descriptions handled none where
  increasing := h.increasing
  starts := h.starts.imp fun i description ⟨hstart, call, hcall, hevent, hphase⟩ => by
    refine ⟨hstart, call, hcall, hevent, .inl ?_⟩
    rcases hphase with hended | rfl
    · exact hended
    · rw [MonitorSystem.returned, hcall] at hreturned
      exact of_decide_eq_true hreturned

theorem Started.lt_length {current : Option ℕ} (h : system.Started R descriptions handled current)
    {i : ℕ} (hi : i ∈ handled) : i < system.handlers.calls.length := by
  obtain ⟨j, hj, rfl⟩ := List.getElem_of_mem hi
  obtain ⟨-, call, hcall, -⟩ := h.starts.get hj (h.starts.length_eq ▸ hj)
  exact (List.getElem?_eq_some_iff.mp hcall).1

theorem Broadcasts.same (h : system.Broadcasts R descriptions call handled)
    (hmoved : Moved system system') (hcalls : system.checker.calls ≤ system'.checker.calls)
    (hstarts : system'.checker.starts call = system.checker.starts call)
    (hstoring : system'.storing call = system.storing call)
    (hR : ∀ i description, R i description → R' i description) :
    system'.Broadcasts R' descriptions call handled := by
  obtain ⟨done, hdone, hstarted⟩ := h.started
  refine ⟨h.begun.trans_le hcalls, hstoring.trans h.last, done, ?_, ?_⟩
  · rw [hstarts, hdone]
  · rw [hstoring]
    exact hstarted.moved hmoved hR

theorem Broadcasts.next (h : system.Broadcasts R descriptions call handled) {step : SystemStep}
    (hnext : system.next step = some system')
    (hR : ∀ i description, R i description → R' i description)
    (hborn : ∀ monitor, system'.handlers = system.handlers.receive ⟨.start, monitor⟩ →
      R' system.handlers.calls.length monitor) :
    ∃ handled', system'.Broadcasts R' descriptions call handled' := by
  have hmoved := moved_of_next hnext
  obtain ⟨hcalls, hstep⟩ := broadcastStep_of_next hnext (.inl h.begun)
  obtain ⟨done, hdone, hstarted⟩ := h.started
  cases hstep with
  | same starts storing => exact ⟨handled, h.same hmoved hcalls starts storing hR⟩
  | @next monitor starts storing returned handlers =>
      refine ⟨handled ++ [system.handlers.calls.length], h.begun.trans_le hcalls, ?_,
        done ++ [monitor], ?_, ?_, ?_⟩
      · rw [storing, List.getLast?_append_of_ne_nil _ (by simp)]
        rfl
      · rw [← hdone, starts, List.append_assoc]
        rfl
      · refine List.pairwise_append.mpr ⟨hstarted.increasing, List.pairwise_singleton _ _, ?_⟩
        intro i hi j hj
        rw [List.mem_singleton.mp hj]
        exact hstarted.lt_length hi
      · have hbefore := ((hstarted.returned returned).moved hmoved hR).starts
        refine List.rel_append (hbefore.imp fun i description hi => ?_) (.cons ?_ .nil)
        · obtain ⟨hstart, call, hcall, hevent, hended | hnone⟩ := hi
          · exact ⟨hstart, call, hcall, hevent, .inl hended⟩
          · cases hnone
        · obtain ⟨call, hcalls, hevent, -⟩ :=
            TopicHandlers.receive_calls system.handlers ⟨.start, monitor⟩
          refine ⟨hborn monitor handlers, call, ?_, hevent, .inr storing⟩
          rw [handlers, hcalls, List.getElem?_concat_length]

/-- Behind `storeRegister`. -/
theorem stored_of_register (hnext : system.next (.checker (.storeRegister descriptions)) =
      some system') :
    system'.Stored descriptions system.checker.history.length := by
  obtain ⟨checker', hstep, rfl⟩ := Option.map_eq_some_iff.mp hnext
  have hstopped : checker'.scan.stopped = none := by
    cases MonitorChecker.broadcastMove_of_next hstep with
    | registers _ _ _ scan free => rw [scan, free]
    | quiet quiet => cases quiet
  cases MonitorChecker.transition_of_next hstep
  refine ⟨?_, ?_, ?_, ?_⟩
  · exact (List.prefix_append _ _).length_le
  · simp only [MonitorChecker.storeRegister, MonitorChecker.record, List.drop_left]
    exact List.prefix_refl _
  · exact fun description hmem => .inl (NodeConfiguration.configured_of_mem _ hmem)
  · intro row hrow
    rw [hstopped] at hrow
    cases hrow

theorem broadcasts_of_register (hfresh : system.Fresh)
    (hnext : system.next (.checker (.storeRegister descriptions)) = some system') :
    system'.Broadcasts R descriptions system.checker.calls [] := by
  obtain ⟨checker', hstep, rfl⟩ := Option.map_eq_some_iff.mp hnext
  cases MonitorChecker.broadcastMove_of_next hstep with
  | registers _ starts calls =>
      refine ⟨?_, (hfresh _ le_rfl).2, [], ?_, .nil, .nil⟩
      · exact (Nat.lt_succ_self _).trans_eq calls.symm
      · rw [List.nil_append, starts, Function.update_self]
  | quiet quiet => cases quiet

end MonitorSystem

end K2eg
