import K2eg.Foundation.Interleaving
import K2eg.Model.ForcedUpdate

/-! # Data events carry a structure

The monitor yields structures. A get that is done need not have one, and `poll` takes what it has.
-/

namespace K2eg

variable {V : Type*}

open Interleaving

/-! ## Gets that succeed -/

namespace SingleGetOperation

@[simp] theorem succeeded_getDone (get : SingleGetOperation V) (completion : GetCompletion V) :
    (get.getDone completion.event).succeeded = completion.isSuccess := by
  cases completion <;> rfl

@[simp] theorem succeeded_connectEvent (get : SingleGetOperation V) (connected : Bool) :
    (get.connectEvent connected).succeeded = get.succeeded := by
  cases connected <;> rfl

end SingleGetOperation

namespace ForcedMonitor

/-- The operation with a get that succeeds. -/
def view (op : ForcedMonitor V) : MonitorOperationImpl V :=
  { op.monitor with
    getOp := op.getOp.map fun get => if get.isDone then get.evt.value else none }

/-- Where a get that is done has succeeded, `poll` is that of `MonitorOperationImpl`. -/
theorem view_pollForced (op : ForcedMonitor V) (fetched : ℕ)
    (h : ∀ get ∈ op.getOp, get.isDone = true → get.succeeded = true) :
    (op.pollForced fetched).view = (op.view.pollForced fetched).2 := by
  rw [pollForced, MonitorOperationImpl.pollForced]
  by_cases hforced : fetched = 0 ∧ op.monitor.forceUpdate = true
  · have hforced' : fetched = 0 ∧ op.view.forceUpdate = true := hforced
    rw [if_pos hforced, if_pos hforced']
    cases hget : op.getOp with
    | none => simp [view, hget]
    | some get =>
        cases hdone : get.isDone with
        | false => simp [view, hget, hdone]
        | true =>
            obtain ⟨value, hvalue⟩ := Option.isSome_iff_exists.mp (h get hget hdone)
            simp [view, hget, hdone, hvalue, pushGet, onMonitor, SingleGetOperation.getChannelData,
              MonitorOperationImpl.pushData, MonitorOperationImpl.dataEvent]
  · have hforced' : ¬(fetched = 0 ∧ op.view.forceUpdate = true) := hforced
    rw [if_neg hforced, if_neg hforced']

end ForcedMonitor

/-! ## The events -/

/-- Every data event has a structure. -/
def EventReceived.NonNull (received : EventReceived V) : Prop :=
  ∀ event ∈ received.eventData, event.channelData.data.isSome = true

theorem EventReceived.NonNull.append {received : EventReceived V} (h : received.NonNull)
    {events : List (MonitorEvent V)}
    (hevents : ∀ event ∈ events, event.channelData.data.isSome = true) :
    ({ received with eventData := received.eventData ++ events } : EventReceived V).NonNull := by
  intro event hmem
  rcases List.mem_append.mp hmem with hmem | hmem
  · exact h event hmem
  · exact hevents event hmem

namespace MonitorOperationImpl

variable {monitor : MonitorOperationImpl V}

theorem nonNull_pollQueue (h : monitor.receivedEvent.NonNull) (elementToFetch : ℕ) :
    (monitor.pollQueue elementToFetch).2.receivedEvent.NonNull := by
  refine h.append fun event hmem => ?_
  obtain ⟨value, -, rfl⟩ := List.mem_map.mp hmem
  rfl

theorem nonNull_connectEvent (h : monitor.receivedEvent.NonNull) (connected : Bool) :
    (monitor.connectEvent connected).receivedEvent.NonNull := by
  rw [connectEvent]
  split <;> exact h

theorem nonNull_monitorEvent (h : monitor.receivedEvent.NonNull) (event : EventType)
    (message : String) : (monitor.monitorEvent event message).receivedEvent.NonNull := by
  unfold monitorEvent
  split
  · exact h
  · split <;> exact h
  · exact h
  · exact h
  · exact h

end MonitorOperationImpl

namespace MonitorRun

variable {run run' : MonitorRun V}

/-- Every event that was ever in `event_data` has a structure. -/
structure NonNull (run : MonitorRun V) : Prop where
  buffered : run.op.monitor.receivedEvent.NonNull
  handedOver : ∀ received ∈ run.handedOver, received.NonNull

/-- A get whose data `poll` takes has succeeded. -/
def TakesSuccess (run : MonitorRun V) : MonitorStep V → Prop
  | .pollForced => run.polling = some 0 → run.op.monitor.forceUpdate = true →
      ∀ get ∈ run.op.getOp, get.isDone = true → get.succeeded = true
  | _ => True

instance (run : MonitorRun V) (step : MonitorStep V) : Decidable (run.TakesSuccess step) := by
  unfold TakesSuccess
  split <;> infer_instance

theorem nonNull_start (pvName : String) : (start pvName : MonitorRun V).NonNull :=
  ⟨nofun, nofun⟩

/-- The second part of `poll` takes a structure just if the get has one. -/
theorem nonNull_pollForced (h : run.op.monitor.receivedEvent.NonNull) {fetched : ℕ}
    (hpolling : run.polling = some fetched) :
    (run.op.pollForced fetched).monitor.receivedEvent.NonNull ↔ run.TakesSuccess .pollForced := by
  rw [TakesSuccess, hpolling, ForcedMonitor.pollForced]
  by_cases hforced : fetched = 0 ∧ run.op.monitor.forceUpdate = true
  · obtain ⟨rfl, hforce⟩ := hforced
    rw [if_pos ⟨rfl, hforce⟩]
    cases hget : run.op.getOp with
    | none => simpa using h
    | some get =>
        cases hdone : get.isDone with
        | false => simpa [hdone] using h
        | true =>
            simp only [forall_const, hforce, Option.mem_def, Option.some.injEq, forall_eq', hdone]
            constructor
            · intro hall
              exact hall ⟨.data, "", ⟨run.op.monitor.pvName, get.evt.value⟩⟩ (by
                simp [ForcedMonitor.pushGet, ForcedMonitor.onMonitor,
                  SingleGetOperation.getChannelData])
            · intro hsucceeded
              refine h.append fun event hmem => ?_
              obtain rfl := List.mem_singleton.mp hmem
              exact hsucceeded
  · rw [if_neg hforced]
    refine ⟨fun _ hzero hforce => absurd ⟨Option.some.inj hzero, hforce⟩ hforced, fun _ => h⟩

theorem nonNull_next {step : MonitorStep V} (h : run.NonNull) (hnext : run.next step = some run') :
    (run.TakesSuccess step → run'.NonNull) ∧ (¬run.TakesSuccess step → ¬run'.NonNull) := by
  obtain ⟨hbuffered, hhandedOver⟩ := h
  cases step <;> simp only [next] at hnext
  case connectEvent connected =>
    obtain rfl := Option.some.inj hnext
    exact ⟨fun _ => ⟨MonitorOperationImpl.nonNull_connectEvent hbuffered connected, hhandedOver⟩,
      fun hnot => absurd trivial hnot⟩
  case monitorEvent event message =>
    obtain rfl := Option.some.inj hnext
    exact ⟨fun _ => ⟨MonitorOperationImpl.nonNull_monitorEvent hbuffered event message,
      hhandedOver⟩, fun hnot => absurd trivial hnot⟩
  case monitorData queue =>
    obtain ⟨-, hnext⟩ := Option.ite_none_right_eq_some.mp hnext
    obtain rfl := Option.some.inj hnext
    exact ⟨fun _ => ⟨hbuffered, hhandedOver⟩, fun hnot => absurd trivial hnot⟩
  case forceUpdate =>
    obtain rfl := Option.some.inj hnext
    exact ⟨fun _ => ⟨hbuffered, hhandedOver⟩, fun hnot => absurd trivial hnot⟩
  case getConnectEvent | getDone =>
    obtain ⟨get, -, rfl⟩ := Option.map_eq_some_iff.mp hnext
    exact ⟨fun _ => ⟨hbuffered, hhandedOver⟩, fun hnot => absurd trivial hnot⟩
  case poll elementToFetch =>
    split at hnext
    · obtain rfl := Option.some.inj hnext
      exact ⟨fun _ => ⟨MonitorOperationImpl.nonNull_pollQueue hbuffered elementToFetch,
        hhandedOver⟩, fun hnot => absurd trivial hnot⟩
    · cases hnext
  case pollForced =>
    obtain ⟨fetched, hpolling, rfl⟩ := Option.map_eq_some_iff.mp hnext
    have hiff := nonNull_pollForced hbuffered hpolling
    exact ⟨fun hallowed => ⟨hiff.mpr hallowed, hhandedOver⟩,
      fun hnot hall => hnot (hiff.mp hall.buffered)⟩
  case getEventData =>
    obtain rfl := Option.some.inj hnext
    refine ⟨fun _ => ⟨nofun, fun received hmem => ?_⟩, fun hnot => absurd trivial hnot⟩
    rcases List.mem_append.mp hmem with hmem | hmem
    · exact hhandedOver received hmem
    · obtain rfl := List.mem_singleton.mp hmem
      exact hbuffered

/-- Every event that is ever in `event_data` has a structure, just if each get whose data `poll`
takes has succeeded. -/
theorem nonNull_iff {pvName : String} {steps : List (MonitorStep V)}
    (h : AnyRun next (start pvName) steps run) :
    Always next (start pvName) steps NonNull ↔ Run next TakesSuccess (start pvName) steps run :=
  Run.always_iff (nonNull_start pvName) (fun _ => id) nonNull_next h

/-- A forced update, a get that succeeds, and the poll that takes its data. -/
theorem nonNull_iff_success :
    Always next (start "x") [.forceUpdate, .poll 10, .pollForced, .getDone (.success 7), .poll 10,
      .pollForced, .getEventData] (NonNull (V := ℕ)) := by
  obtain ⟨run, hrun, -⟩ := exists_run (next (V := ℕ)) TakesSuccess (start "x")
    [.forceUpdate, .poll 10, .pollForced, .getDone (.success 7), .poll 10, .pollForced,
      .getEventData] (fun _ => true) (by decide +kernel)
  exact (nonNull_iff hrun.any).mpr hrun

/-- The get fails, and `poll` makes a data event without a structure. -/
theorem not_nonNull_fail :
    ¬ ∀ (pvName : String) (steps : List (MonitorStep ℕ)) (run : MonitorRun ℕ),
      AnyRun next (start pvName) steps run → run.NonNull := by
  intro hall
  obtain ⟨run, hrun, hcheck⟩ := exists_run (next (V := ℕ)) (fun _ _ => True) (start "x")
    [.forceUpdate, .poll 10, .pollForced, .getDone (.fail "timeout"), .poll 10, .pollForced]
    (fun run => decide (run.op.monitor.receivedEvent.eventData = [⟨.data, "", ⟨"x", none⟩⟩]))
    (by decide +kernel)
  have hnull := (hall "x" _ run hrun).buffered ⟨.data, "", ⟨"x", none⟩⟩
    (by rw [of_decide_eq_true hcheck]; exact List.mem_singleton_self _)
  cases hnull

end MonitorRun

end K2eg
