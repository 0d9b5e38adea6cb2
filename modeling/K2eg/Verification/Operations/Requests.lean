import K2eg.Model.MonitorOperation
import Mathlib.Data.List.Basic
import Mathlib.Tactic.Tauto

/-! # What reaches a request

Each part of a `MonitorOperationImpl` that EPICS or `poll` runs adds events behind those of the
buffer. -/

namespace K2eg

variable {V : Type*}

/-! ## Buffers -/

namespace EventReceived

instance : Append (EventReceived V) where
  append first second :=
    { eventTimeout := first.eventTimeout ++ second.eventTimeout
      eventData := first.eventData ++ second.eventData
      eventFail := first.eventFail ++ second.eventFail
      eventDisconnect := first.eventDisconnect ++ second.eventDisconnect
      eventCancel := first.eventCancel ++ second.eventCancel }

@[simp] theorem eventTimeout_append (first second : EventReceived V) :
    (first ++ second).eventTimeout = first.eventTimeout ++ second.eventTimeout := rfl

@[simp] theorem eventData_append (first second : EventReceived V) :
    (first ++ second).eventData = first.eventData ++ second.eventData := rfl

@[simp] theorem eventFail_append (first second : EventReceived V) :
    (first ++ second).eventFail = first.eventFail ++ second.eventFail := rfl

@[simp] theorem eventDisconnect_append (first second : EventReceived V) :
    (first ++ second).eventDisconnect = first.eventDisconnect ++ second.eventDisconnect := rfl

@[simp] theorem eventCancel_append (first second : EventReceived V) :
    (first ++ second).eventCancel = first.eventCancel ++ second.eventCancel := rfl

theorem ext_append {received first second : EventReceived V}
    (timeout : received.eventTimeout = first.eventTimeout ++ second.eventTimeout)
    (data : received.eventData = first.eventData ++ second.eventData)
    (fail : received.eventFail = first.eventFail ++ second.eventFail)
    (disconnect : received.eventDisconnect = first.eventDisconnect ++ second.eventDisconnect)
    (cancel : received.eventCancel = first.eventCancel ++ second.eventCancel) :
    received = first ++ second := by
  cases received
  subst timeout data fail disconnect cancel
  rfl

@[simp] theorem append_empty (received : EventReceived V) : received ++ {} = received :=
  (ext_append (by simp) (by simp) (by simp) (by simp) (by simp)).symm

@[simp] theorem empty_append (received : EventReceived V) : {} ++ received = received :=
  (ext_append rfl rfl rfl rfl rfl).symm

/-- There is a failure, a disconnect or a cancel. -/
def hasReports (received : EventReceived V) : Bool :=
  !received.eventFail.isEmpty || !received.eventDisconnect.isEmpty || !received.eventCancel.isEmpty

end EventReceived

namespace MonitorOperationImpl

/-- The request with another buffer. -/
def withBuffer (op : MonitorOperationImpl V) (received : EventReceived V) :
    MonitorOperationImpl V :=
  { op with receivedEvent := received }

@[simp] theorem receivedEvent_withBuffer (op : MonitorOperationImpl V)
    (received : EventReceived V) : (op.withBuffer received).receivedEvent = received := rfl

theorem eq_withBuffer {op after : MonitorOperationImpl V} {earlier : EventReceived V}
    (hrest : after = op.withBuffer after.receivedEvent)
    (hbuffer : after.receivedEvent = earlier ++ op.receivedEvent) :
    after = op.withBuffer (earlier ++ op.receivedEvent) := by
  rw [← hbuffer]
  exact hrest

/-- What reaches a request goes behind the buffered events, and does not depend on them. -/
structure Receives (f : MonitorOperationImpl V → MonitorOperationImpl V) : Prop where
  buffer : ∀ op earlier, f (op.withBuffer (earlier ++ op.receivedEvent)) =
    (f op).withBuffer (earlier ++ (f op).receivedEvent)
  requestedFields : ∀ op, (f op).requestedFields = op.requestedFields
  timeout : ∀ op, (f op).receivedEvent.eventTimeout = op.receivedEvent.eventTimeout

theorem Receives.exists_append {f : MonitorOperationImpl V → MonitorOperationImpl V}
    (h : Receives f) (op : MonitorOperationImpl V) :
    ∃ added, (f op).receivedEvent = op.receivedEvent ++ added := by
  have hbuffer := h.buffer (op.withBuffer {}) op.receivedEvent
  rw [receivedEvent_withBuffer, EventReceived.append_empty] at hbuffer
  exact ⟨_, congrArg receivedEvent hbuffer⟩

theorem receives_connectEvent (connected : Bool) :
    Receives fun op : MonitorOperationImpl V => op.connectEvent connected := by
  cases connected with
  | true => exact ⟨fun _ _ => rfl, fun _ => rfl, fun _ => rfl⟩
  | false =>
      refine ⟨fun op earlier => ?_, fun _ => rfl, fun _ => rfl⟩
      refine eq_withBuffer rfl (EventReceived.ext_append rfl rfl ?_ rfl rfl)
      exact List.append_assoc ..

theorem receives_monitorEvent (event : EventType) (message : String) :
    Receives fun op : MonitorOperationImpl V => op.monitorEvent event message := by
  cases event with
  | timeout | data => exact ⟨fun _ _ => rfl, fun _ => rfl, fun _ => rfl⟩
  | fail =>
      refine ⟨fun op earlier => ?_, fun _ => rfl, fun _ => rfl⟩
      refine eq_withBuffer rfl (EventReceived.ext_append rfl rfl ?_ rfl rfl)
      exact List.append_assoc ..
  | disconnec =>
      refine ⟨fun op earlier => ?_, fun _ => rfl, fun _ => rfl⟩
      refine eq_withBuffer rfl (EventReceived.ext_append rfl rfl rfl ?_ rfl)
      exact List.append_assoc ..
  | cancel =>
      constructor
      case buffer =>
        intro op earlier
        cases hvalid : op.valid with
        | false => simp [monitorEvent, withBuffer, hvalid]
        | true =>
            refine eq_withBuffer (by simp [monitorEvent, withBuffer, hvalid]) ?_
            refine EventReceived.ext_append ?_ ?_ ?_ ?_ ?_
            all_goals simp [monitorEvent, withBuffer, hvalid]
      case requestedFields =>
        intro op
        simp only [monitorEvent]
        split <;> rfl
      case timeout =>
        intro op
        simp only [monitorEvent]
        split <;> rfl

theorem receives_queue (queue : List V) :
    Receives fun op : MonitorOperationImpl V => { op with queue } :=
  ⟨fun _ _ => rfl, fun _ => rfl, fun _ => rfl⟩

theorem receives_forceUpdate :
    Receives fun op : MonitorOperationImpl V => { op with forceUpdate := true } :=
  ⟨fun _ _ => rfl, fun _ => rfl, fun _ => rfl⟩

theorem receives_getOp (value : V) :
    Receives fun op : MonitorOperationImpl V => { op with getOp := some (some value) } :=
  ⟨fun _ _ => rfl, fun _ => rfl, fun _ => rfl⟩

theorem withBuffer_pushData (op : MonitorOperationImpl V) (earlier : EventReceived V)
    (values : List V) : (op.withBuffer (earlier ++ op.receivedEvent)).pushData values =
      (op.pushData values).withBuffer (earlier ++ (op.pushData values).receivedEvent) := by
  refine eq_withBuffer rfl (EventReceived.ext_append rfl ?_ rfl rfl rfl)
  exact List.append_assoc ..

theorem receives_pollQueue (elementToFetch : ℕ) :
    Receives fun op : MonitorOperationImpl V => (op.pollQueue elementToFetch).2 := by
  constructor
  case buffer =>
    intro op earlier
    have hpush := op.withBuffer_pushData earlier (op.queue.take elementToFetch)
    exact congrArg (fun after : MonitorOperationImpl V =>
      { after with queue := op.queue.drop elementToFetch }) hpush
  case requestedFields => exact fun _ => rfl
  case timeout => exact fun _ => rfl

theorem receives_pollForced (fetched : ℕ) :
    Receives fun op : MonitorOperationImpl V => (op.pollForced fetched).2 := by
  constructor
  case buffer =>
    intro op earlier
    by_cases hforced : fetched = 0 ∧ op.forceUpdate = true
    · rcases hget : op.getOp with _ | _ | value
      · simp [pollForced, withBuffer, hforced, hget]
      · simp [pollForced, withBuffer, hforced, hget]
      · have hpush := op.withBuffer_pushData earlier [value]
        have hafter := congrArg (fun after : MonitorOperationImpl V =>
          { after with getOp := none, forceUpdate := false }) hpush
        simpa [pollForced, withBuffer, hforced, hget] using hafter
    · simp [pollForced, withBuffer, hforced]
  case requestedFields =>
    intro op
    by_cases hforced : fetched = 0 ∧ op.forceUpdate = true
    · rcases hget : op.getOp with _ | _ | value <;> simp [pollForced, pushData, hforced, hget]
    · simp [pollForced, hforced]
  case timeout =>
    intro op
    by_cases hforced : fetched = 0 ∧ op.forceUpdate = true
    · rcases hget : op.getOp with _ | _ | value <;> simp [pollForced, pushData, hforced, hget]
    · simp [pollForced, hforced]

/-! ## Reports -/

/-- The event goes to the failures, the disconnects or the cancels. -/
def reports (op : MonitorOperationImpl V) : EventType → Bool
  | .fail | .disconnec => true
  | .cancel => op.valid
  | .timeout | .data => false

theorem hasReports_connectEvent (op : MonitorOperationImpl V) (connected : Bool) :
    (op.connectEvent connected).receivedEvent.hasReports =
      (op.receivedEvent.hasReports || !connected) := by
  cases connected <;> simp [connectEvent, EventReceived.hasReports]

theorem hasReports_monitorEvent (op : MonitorOperationImpl V) (event : EventType)
    (message : String) : (op.monitorEvent event message).receivedEvent.hasReports =
      (op.receivedEvent.hasReports || op.reports event) := by
  cases event with
  | cancel => cases hvalid : op.valid <;>
      simp [monitorEvent, reports, EventReceived.hasReports, hvalid]
  | fail | disconnec | timeout | data =>
      simp [monitorEvent, reports, EventReceived.hasReports]

@[simp] theorem hasReports_pollQueue (op : MonitorOperationImpl V) (elementToFetch : ℕ) :
    (op.pollQueue elementToFetch).2.receivedEvent.hasReports = op.receivedEvent.hasReports := rfl

@[simp] theorem hasReports_pollForced (op : MonitorOperationImpl V) (fetched : ℕ) :
    (op.pollForced fetched).2.receivedEvent.hasReports = op.receivedEvent.hasReports := by
  by_cases hforced : fetched = 0 ∧ op.forceUpdate = true
  · rcases hget : op.getOp with _ | _ | value <;>
      simp [pollForced, pushData, EventReceived.hasReports, hforced, hget]
  · simp [pollForced, hforced]

theorem hasEvents_eq {op : MonitorOperationImpl V} (h : op.receivedEvent.eventTimeout = []) :
    op.hasEvents = (op.receivedEvent.hasReports || op.hasData) := by
  rw [Bool.eq_iff_iff]
  simp [hasEvents, hasData, EventReceived.hasReports, EventReceived.size, h]
  tauto

theorem receivedEvent_of_not_hasEvents {op : MonitorOperationImpl V}
    (h : op.hasEvents = false) : op.receivedEvent = {} := by
  have hsize : op.receivedEvent.size = 0 := by simpa [hasEvents] using h
  simp only [EventReceived.size, Nat.add_eq_zero_iff, List.length_eq_zero_iff] at hsize
  obtain ⟨⟨⟨⟨hdata, hcancel⟩, hdisconnect⟩, hfail⟩, htimeout⟩ := hsize
  exact (EventReceived.ext_append htimeout hdata hfail hdisconnect hcancel :
    op.receivedEvent = {} ++ {})

end MonitorOperationImpl

end K2eg
