import K2eg.Foundation.Interleaving
import K2eg.Model.ThrottledChannels
import K2eg.Verification.Throttling.Statistics

/-! # The channels and their throttles

The throttles never hold the manager up before it has polled often enough for a counter to
overflow: every run of the manager with fewer polls goes through with them, and every throttle
keeps to its bounds. -/

namespace K2eg

open Interleaving

/-- The polls of all channels. -/
def polls (steps : List ManagerStep) : ℕ :=
  steps.countP fun step => match step with
    | .poll _ _ => true
    | _ => false

/-- The configuration with the given bounds. -/
def ThrottlingBounds.config (bounds : ThrottlingBounds) : EpicsServiceManagerConfig :=
  ⟨bounds.minUs, bounds.maxUs, bounds.threshold⟩

theorem config_ofChannel : ThrottlingBounds.ofChannel.config = {} := rfl

namespace ThrottledChannels

variable {bounds : ThrottlingBounds} {s : ThrottledChannels} {steps : List ManagerStep}
  {manager : EpicsServiceManager}

/-- Every throttle tracks some calls, no more than there were polls. -/
def Served (bounds : ThrottlingBounds) (count : ℕ) (throttles : ℕ → ThrottlingManager) : Prop :=
  ∀ id, ∃ calls : List ThrottlingCall, calls.length ≤ count ∧ bounds.Tracks calls (throttles id)

variable {count : ℕ} {throttles : ℕ → ThrottlingManager}

theorem Served.initial : Served bounds 0 (initial bounds.config).throttles := by
  intro id
  exact ⟨[], le_rfl, .initial⟩

theorem Served.mono {more : ℕ} (h : Served bounds count throttles) (hle : count ≤ more) :
    Served bounds more throttles := by
  intro id
  obtain ⟨calls, hlength, htracks⟩ := h id
  exact ⟨calls, hlength.trans hle, htracks⟩

/-- Another throttle takes the place of one of them. -/
theorem Served.update (h : Served bounds count throttles) (id : ℕ) {throttle : ThrottlingManager}
    {calls : List ThrottlingCall} (hlength : calls.length ≤ count)
    (htracks : bounds.Tracks calls throttle) :
    Served bounds count (Function.update throttles id throttle) := by
  intro other
  by_cases hother : other = id
  · subst hother
    rw [Function.update_self]
    exact ⟨calls, hlength, htracks⟩
  · rw [Function.update_of_ne hother]
    exact h other

theorem Served.addChannel (h : Served bounds count s.throttles) (uri : String) :
    Served bounds count (s.addChannel bounds.config uri).throttles := by
  unfold ThrottledChannels.addChannel
  cases sanitizePVName uri with
  | none => exact h
  | some pv =>
      simp only
      cases s.manager.channelMap pv.name with
      | some id => exact h
      | none => exact h.update _ (Nat.zero_le _) .initial

theorem addChannel_manager (config : EpicsServiceManagerConfig) (uri : String) :
    (s.addChannel config uri).manager = s.manager.addChannel uri := by
  unfold addChannel
  cases sanitizePVName uri with
  | none => rfl
  | some pv =>
      simp only
      cases s.manager.channelMap pv.name <;> rfl

/-- A poll is followed by an update that goes through. -/
theorem Served.poll (hcap : bounds.maxUs.toInt < 2 ^ 30) (h : Served bounds count s.throttles)
    (hcount : count + 1 < 2 ^ 31) {chain : ℕ} {received : Option Bool}
    (hnext : s.manager.next (.poll chain received) = some manager) :
    ∃ t, s.poll chain received = some t ∧ t.manager = manager ∧
      Served bounds (count + 1) t.throttles := by
  let id := (s.manager.chains chain).entry
  obtain ⟨calls, hlength, htracks⟩ := h id
  have hlonger : (calls ++ [ThrottlingCall.update received.isSome]).length ≤ count + 1 := by
    simpa using hlength
  obtain ⟨after, hcall, hafter⟩ :=
    htracks.exists_perform (bounds.inRange_of_length hcap (hlonger.trans_lt hcount))
  obtain ⟨updated, hupdate, rfl⟩ := Option.map_eq_some_iff.mp hcall
  refine ⟨⟨manager, Function.update s.throttles id updated.1⟩, ?_, rfl, ?_⟩
  · simp [ThrottledChannels.poll, hnext, hupdate, id]
  · exact (h.mono (Nat.le_succ _)).update _ hlonger hafter

/-- Every step of the manager is a step with the throttles, as long as no counter is full. -/
theorem Served.next (hcap : bounds.maxUs.toInt < 2 ^ 30) (h : Served bounds count s.throttles)
    {step : ManagerStep} (hcount : count + polls [step] < 2 ^ 31)
    (hnext : s.manager.next step = some manager) :
    ∃ t, s.next bounds.config step = some t ∧ t.manager = manager ∧
      Served bounds (count + polls [step]) t.throttles := by
  cases step with
  | addChannel uri =>
      obtain rfl := Option.some.inj hnext
      exact ⟨_, rfl, addChannel_manager _ uri, h.addChannel uri⟩
  | poll chain received => exact h.poll hcap hcount hnext
  | detachTask _ | removeChannel _ | dequeue _ | readKeepAlive _ | cleanupAndErase _ | resubmit _ =>
      exact ⟨⟨manager, s.throttles⟩, by simp [ThrottledChannels.next, hnext], rfl, h⟩

/-- Every run of the manager is a run with the throttles, as long as no counter is full. -/
theorem exists_run_served (bounds : ThrottlingBounds) (hcap : bounds.maxUs.toInt < 2 ^ 30)
    (hrun : AnyRun EpicsServiceManager.next {} steps manager) (hpolls : polls steps < 2 ^ 31) :
    ∃ throttles, AnyRun (next bounds.config) (initial bounds.config) steps ⟨manager, throttles⟩ ∧
      Served bounds (polls steps) throttles := by
  induction hrun with
  | nil => exact ⟨_, .nil, .initial⟩
  | snoc _ _ hnext ih =>
      rw [polls, List.countP_append] at hpolls ⊢
      have hbefore := Nat.lt_of_le_of_lt (Nat.le_add_right _ _) hpolls
      obtain ⟨throttles, hthrottled, hserved⟩ := ih hbefore
      obtain ⟨⟨_, after⟩, hstep, rfl, hafter⟩ :=
        hserved.next (s := ⟨_, throttles⟩) hcap hpolls hnext
      exact ⟨after, hthrottled.snoc trivial hstep, hafter⟩

/-- No more events are counted than there were polls, so that the counter has not wrapped. -/
theorem Served.events (h : Served bounds count throttles) (id : ℕ) :
    0 ≤ (throttles id).getStats.totalEventsProcessed.toInt ∧
      (throttles id).getStats.totalEventsProcessed.toInt ≤ count := by
  obtain ⟨calls, hlength, htracks⟩ := h id
  have hevents : (throttles id).getStats.totalEventsProcessed.toInt = eventUpdates calls :=
    htracks.events
  have hle : eventUpdates calls ≤ calls.length := History.countSince_le_length
  omega

/-- Before `2 ^ 31` polls no throttle has stopped the manager or left its bounds, and no counter of
events has wrapped. -/
theorem exists_run_bounded (hrun : AnyRun EpicsServiceManager.next {} steps manager)
    (hpolls : polls steps < 2 ^ 31) :
    ∃ throttles, AnyRun (next {}) (initial {}) steps ⟨manager, throttles⟩ ∧
      ∀ id, (50 ≤ (throttles id).getStats.throttleUs ∧
          (throttles id).getStats.throttleUs ≤ 50000) ∧
        0 ≤ (throttles id).getStats.totalEventsProcessed.toInt ∧
          (throttles id).getStats.totalEventsProcessed.toInt ≤ polls steps := by
  obtain ⟨throttles, hthrottled, hserved⟩ :=
    exists_run_served .ofChannel (by decide) hrun hpolls
  rw [config_ofChannel] at hthrottled
  refine ⟨throttles, hthrottled, fun id => ?_⟩
  obtain ⟨_, _, htracks⟩ := hserved id
  exact ⟨htracks.meets.bounded, hserved.events id⟩

/-- A channel is polled without an event. -/
theorem exists_run_bounded_poll : ∃ manager throttles,
    AnyRun (next {}) (initial {}) [.addChannel "pva://a", .detachTask 0, .dequeue 0,
      .readKeepAlive 0, .poll 0 none] ⟨manager, throttles⟩ ∧
      ∀ id, (50 ≤ (throttles id).getStats.throttleUs ∧
          (throttles id).getStats.throttleUs ≤ 50000) ∧
        0 ≤ (throttles id).getStats.totalEventsProcessed.toInt ∧
          (throttles id).getStats.totalEventsProcessed.toInt ≤ 1 := by
  obtain ⟨manager, hrun, -⟩ := exists_run EpicsServiceManager.next (fun _ _ => True) {}
    [.addChannel "pva://a", .detachTask 0, .dequeue 0, .readKeepAlive 0, .poll 0 none]
    (fun _ => true) (by decide)
  obtain ⟨throttles, hthrottled, hbounded⟩ := exists_run_bounded hrun (by decide)
  exact ⟨manager, throttles, hthrottled, hbounded⟩

end ThrottledChannels

end K2eg
