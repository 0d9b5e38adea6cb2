import K2eg.Foundation.Interleaving
import K2eg.Model.CombinedMonitor
import K2eg.Verification.Operations.Requests
import Mathlib.Data.List.Forall2

/-! # No principal event is lost

The principal request is compared with one from which nothing is ever taken: each of its events is
in one result, in the call under way, or still buffered. -/

namespace K2eg

variable {V : Type*}

open Interleaving

/-! ## Joining -/

namespace CombinedMonitorOperation

variable {merge : FallibleMerger V} {op : CombinedMonitorOperation V}

/-- The joined event carries the structure of the principal event, merged with that of the latest
additional data. -/
def JoinedBy (merge : FallibleMerger V) (op : CombinedMonitorOperation V)
    (latest : Option (MonitorEvent V)) (event joined : MonitorEvent V) : Prop :=
  ∃ additional merged, latest = some additional ∧
    merge (event.channelData.data, op.principal.requestedFields)
      (additional.channelData.data, op.additional.requestedFields) = .ok merged ∧
    joined = ⟨event.type, "", ⟨event.channelData.pvName, some merged⟩⟩

theorem joinEvent_eq_ok {event joined : MonitorEvent V} :
    op.joinEvent merge event = .ok joined ↔ op.JoinedBy merge op.lastAdditional event joined := by
  cases hlast : op.lastAdditional with
  | none => simp [joinEvent, JoinedBy, hlast]
  | some additional =>
      cases hmerge : merge (event.channelData.data, op.principal.requestedFields)
          (additional.channelData.data, op.additional.requestedFields) with
      | error failure => simp [joinEvent, JoinedBy, hlast, hmerge, Except.map]
      | ok merged => simp [joinEvent, JoinedBy, hlast, hmerge, Except.map, eq_comm]

theorem joinData_eq_ok {events joined : List (MonitorEvent V)} :
    op.joinData merge events = .ok joined ↔
      List.Forall₂ (op.JoinedBy merge op.lastAdditional) events joined := by
  induction events generalizing joined with
  | nil =>
      simp only [joinData, Except.ok.injEq, List.forall₂_nil_left_iff]
      exact eq_comm
  | cons event rest ih =>
      simp only [joinData]
      cases hevent : op.joinEvent merge event with
      | error failure =>
          refine ⟨nofun, fun h => ?_⟩
          cases h with
          | cons hhead htail => rw [joinEvent_eq_ok.mpr hhead] at hevent; cases hevent
      | ok head =>
          constructor
          case mp =>
            intro h
            cases htail : op.joinData merge rest with
            | error failure => rw [htail] at h; cases h
            | ok tail =>
                rw [htail] at h
                obtain rfl := Except.ok.inj h
                exact .cons (joinEvent_eq_ok.mp hevent) (ih.mp htail)
          case mpr =>
            intro h
            cases h with
            | cons hhead htail =>
                obtain rfl := Except.ok.inj (hevent.symm.trans (joinEvent_eq_ok.mpr hhead))
                rw [ih.mpr htail]
                rfl

/-- All data are joined just if each event can be. -/
theorem exists_joinData {events : List (MonitorEvent V)} :
    (∃ joined, op.joinData merge events = .ok joined) ↔
      ∀ event ∈ events, ∃ joined, op.JoinedBy merge op.lastAdditional event joined := by
  induction events with
  | nil => simp [joinData]
  | cons event rest ih =>
      rw [List.forall_mem_cons, ← ih]
      constructor
      case mp =>
        rintro ⟨joined, h⟩
        cases joinData_eq_ok.mp h with
        | cons hhead htail => exact ⟨⟨_, hhead⟩, _, joinData_eq_ok.mpr htail⟩
      case mpr =>
        rintro ⟨⟨head, hhead⟩, tail, htail⟩
        exact ⟨head :: tail, joinData_eq_ok.mpr (.cons hhead (joinData_eq_ok.mp htail))⟩

section Total

/-! `MonitorOperation` has the merger succeed. -/

variable {total : StructureMerger V} (htotal : ∀ value fields added fields',
  merge (some value, fields) (some added, fields') = .ok (total (value, fields) (added, fields')))

include htotal

theorem joinData_of_total {events : List (MonitorEvent V)}
    (hdata : ∀ event ∈ events, event.channelData.data.isSome = true)
    (hlast : (op.lastAdditional.bind (·.channelData.data)).isSome = true) :
    op.joinData merge events = .ok (events.map fun event =>
      ⟨event.type, "", ⟨event.channelData.pvName, op.mergedData total event⟩⟩) := by
  refine joinData_eq_ok.mpr (List.forall₂_map_right_iff.mpr (List.forall₂_same.mpr ?_))
  intro event hmem
  obtain ⟨value, hvalue⟩ := Option.isSome_iff_exists.mp (hdata event hmem)
  obtain ⟨added, hadded⟩ := Option.isSome_iff_exists.mp hlast
  obtain ⟨additional, hadditional, hstructure⟩ := Option.bind_eq_some_iff.mp hadded
  refine ⟨additional, total (value, op.principal.requestedFields)
    (added, op.additional.requestedFields), hadditional, ?_,
    by simp only [mergedData, hvalue, hadded]⟩
  rw [hvalue, hstructure]
  exact htotal ..

/-- With an additional event, the two parts of a call are `getEventData`. -/
theorem joinEvents_of_total {taken : EventReceived V} {op' : CombinedMonitorOperation V}
    (htake : op.takePrincipal = (some taken, op'))
    (hdata : ∀ event ∈ taken.eventData, event.channelData.data.isSome = true)
    (hlast : (op'.refreshAdditional.lastAdditional.bind (·.channelData.data)).isSome = true) :
    op'.joinEvents merge taken = (.ok (op.getEventData total).1, (op.getEventData total).2) := by
  rw [takePrincipal] at htake
  split at htake
  · cases (Prod.mk.inj htake).1
  · rename_i hguard
    obtain ⟨htaken, rfl⟩ := Prod.mk.inj htake
    obtain rfl := Option.some.inj htaken
    rw [joinEvents, joinData_of_total htotal hdata hlast, getEventData, if_neg hguard]
    rfl

end Total

/-- Joining depends on the fields that the two requests ask for. -/
theorem joinedBy_congr {op' : CombinedMonitorOperation V}
    (hprincipal : op'.principal.requestedFields = op.principal.requestedFields)
    (hadditional : op'.additional.requestedFields = op.additional.requestedFields) :
    op'.JoinedBy merge = op.JoinedBy merge := by
  funext latest event joined
  simp only [JoinedBy, hprincipal, hadditional]

theorem joinedBy_onRequest {f : MonitorOperationImpl V → MonitorOperationImpl V}
    (hf : MonitorOperationImpl.Receives f) (request : MonitorRequest) :
    (op.onRequest request f).JoinedBy merge = op.JoinedBy merge := by
  cases request with
  | principal => exact joinedBy_congr (hf.requestedFields _) rfl
  | additional => exact joinedBy_congr rfl (hf.requestedFields _)

@[simp] theorem refreshAdditional_requestedFields (op : CombinedMonitorOperation V) :
    op.refreshAdditional.additional.requestedFields = op.additional.requestedFields := by
  rw [refreshAdditional]
  split <;> rfl

theorem joinedBy_refreshAdditional : op.refreshAdditional.JoinedBy merge = op.JoinedBy merge :=
  joinedBy_congr (by simp) (by simp)

/-- The last additional event is that of all additional data that ever were in `arrived`. -/
def KeepsLast (op : CombinedMonitorOperation V) (arrived : MonitorOperationImpl V) : Prop :=
  ∃ earlier : EventReceived V,
    arrived = op.additional.withBuffer (earlier ++ op.additional.receivedEvent) ∧
      op.lastAdditional = earlier.eventData.getLast?

theorem KeepsLast.refreshAdditional {arrived : MonitorOperationImpl V} (h : op.KeepsLast arrived) :
    op.refreshAdditional.KeepsLast arrived ∧
      op.refreshAdditional.lastAdditional = arrived.receivedEvent.eventData.getLast? := by
  obtain ⟨earlier, rfl, hlast⟩ := h
  cases hdata : op.additional.hasData with
  | false =>
      have hnil : op.additional.receivedEvent.eventData = [] := by
        simpa [MonitorOperationImpl.hasData] using hdata
      have hsame : op.refreshAdditional = op := by
        rw [CombinedMonitorOperation.refreshAdditional, hdata, if_neg Bool.false_ne_true]
      rw [hsame]
      refine ⟨⟨earlier, rfl, hlast⟩, ?_⟩
      rw [hlast, MonitorOperationImpl.receivedEvent_withBuffer, EventReceived.eventData_append,
        hnil, List.append_nil]
  | true =>
      have hne : op.additional.receivedEvent.eventData ≠ [] := by
        simpa [MonitorOperationImpl.hasData] using hdata
      have hlast' : op.additional.receivedEvent.eventData.getLast? =
          (earlier ++ op.additional.receivedEvent).eventData.getLast? := by
        rw [EventReceived.eventData_append, List.getLast?_append_of_ne_nil _ hne]
      rw [CombinedMonitorOperation.refreshAdditional, hdata, if_pos rfl]
      refine ⟨⟨earlier ++ op.additional.receivedEvent, ?_, hlast'⟩, hlast'⟩
      exact congrArg op.additional.withBuffer (EventReceived.append_empty _).symm

theorem KeepsLast.isSome {arrived : MonitorOperationImpl V} (h : op.KeepsLast arrived) :
    (op.additional.hasData || op.lastAdditional.isSome) =
      arrived.receivedEvent.eventData.getLast?.isSome := by
  obtain ⟨earlier, rfl, hlast⟩ := h
  rw [hlast, Bool.eq_iff_iff]
  simp [MonitorOperationImpl.hasData, or_comm]

end CombinedMonitorOperation

/-! ## The account -/

/-- The result has the events that were taken, its data are joined with the latest data. -/
structure JoinedResult.Joins
    (joinedBy : Option (MonitorEvent V) → MonitorEvent V → MonitorEvent V → Prop)
    (result : JoinedResult V) (taken : EventReceived V) : Prop where
  timeout : result.received.eventTimeout = taken.eventTimeout
  data : List.Forall₂ (joinedBy result.latest) taken.eventData result.received.eventData
  fail : result.received.eventFail = taken.eventFail
  disconnect : result.received.eventDisconnect = taken.eventDisconnect
  cancel : result.received.eventCancel = taken.eventCancel

namespace CombinedRun

variable {merge : FallibleMerger V} {run run' : CombinedRun V}

/-- The principal events that the results have: all that had arrived for the last one. -/
def returned : List (JoinedResult V) → EventReceived V
  | [] => {}
  | result :: _ => result.arrived

/-- Each result has the events that arrived since the one before. -/
def Answered (joinedBy : Option (MonitorEvent V) → MonitorEvent V → MonitorEvent V → Prop) :
    List (JoinedResult V) → Prop
  | [] => True
  | result :: earlier =>
    (∃ taken, result.arrived = returned earlier ++ taken ∧ result.Joins joinedBy taken) ∧
      Answered joinedBy earlier

/-- The events of the call under way. -/
def inFlight (run : CombinedRun V) : EventReceived V := (run.joining.map (·.taken)).getD {}

/-- A principal event is buffered that a result can have now. Only data wait for additional
data. -/
def Deliverable (run : CombinedRun V) : Prop :=
  run.op.principal.receivedEvent.hasReports = true ∨
    (run.op.principal.hasData = true ∧ run.latest.isSome = true)

/-- No event is lost or returned twice, none is held back, and no missing event is followed.
`hasEvents` waits for a call of `getEventData` that is under way. -/
structure Accounted (merge : FallibleMerger V) (run : CombinedRun V) : Prop where
  running : run.crashed = false
  answered : Answered (run.op.JoinedBy merge) run.results
  pending : run.arrived.principal.receivedEvent =
    returned run.results ++ run.inFlight ++ run.op.principal.receivedEvent
  hasEvents : run.joining = none → run.Deliverable → run.op.hasEvents = true

/-- What holds of the events whether or not `hasEvents` shows them. -/
structure Tracked (merge : FallibleMerger V) (run : CombinedRun V) : Prop where
  running : run.crashed = false
  answered : Answered (run.op.JoinedBy merge) run.results
  principal : run.arrived.principal = run.op.principal.withBuffer
    (returned run.results ++ run.inFlight ++ run.op.principal.receivedEvent)
  call : ∀ call ∈ run.joining, call.arrived = returned run.results ++ call.taken
  additional : run.op.KeepsLast run.arrived.additional
  timeout : run.arrived.principal.receivedEvent.eventTimeout = []

/-- A report is buffered only once there have been additional data. -/
def Reported (run : CombinedRun V) : Prop :=
  run.joining = none → run.op.principal.receivedEvent.hasReports = true →
    run.latest.isSome = true

theorem tracked_start (merge : FallibleMerger V) (pvName : String)
    (principalFields additionalFields : List String) :
    (start pvName principalFields additionalFields).Tracked merge where
  running := rfl
  answered := trivial
  principal := rfl
  call := nofun
  additional := ⟨{}, rfl, rfl⟩
  timeout := rfl

namespace Tracked

theorem received (h : run.Tracked merge) : run.arrived.principal.receivedEvent =
    returned run.results ++ run.inFlight ++ run.op.principal.receivedEvent := by
  rw [h.principal, MonitorOperationImpl.receivedEvent_withBuffer]

theorem timeout_append (h : run.Tracked merge) : run.inFlight.eventTimeout = [] ∧
    run.op.principal.receivedEvent.eventTimeout = [] := by
  have htimeout := h.timeout
  rw [h.received, EventReceived.eventTimeout_append, EventReceived.eventTimeout_append,
    List.append_eq_nil_iff, List.append_eq_nil_iff] at htimeout
  exact ⟨htimeout.1.2, htimeout.2⟩

theorem hasEvents_eq (h : run.Tracked merge) : run.op.hasEvents =
    ((run.op.principal.receivedEvent.hasReports || run.op.principal.hasData) &&
      run.latest.isSome) := by
  rw [CombinedMonitorOperation.hasEvents, h.additional.isSome,
    MonitorOperationImpl.hasEvents_eq h.timeout_append.2]
  rfl

/-- Where the events are tracked, `hasEvents` can only miss a report. -/
theorem accounted_iff_reported (h : run.Tracked merge) : run.Accounted merge ↔ run.Reported := by
  constructor
  case mp =>
    intro haccounted hidle hreports
    have hevents := haccounted.hasEvents hidle (.inl hreports)
    rw [h.hasEvents_eq, Bool.and_eq_true] at hevents
    exact hevents.2
  case mpr =>
    intro hreported
    refine ⟨h.running, h.answered, h.received, fun hidle hdeliverable => ?_⟩
    rw [h.hasEvents_eq]
    rcases hdeliverable with hreports | ⟨hdata, hlatest⟩
    · simp [hreports, hreported hidle hreports]
    · simp [hdata, hlatest]

end Tracked

/-! ## Events that arrive -/

theorem Tracked.receive (h : run.Tracked merge)
    {f : MonitorOperationImpl V → MonitorOperationImpl V} (hf : MonitorOperationImpl.Receives f)
    (request : MonitorRequest) : (run.receive request f).Tracked merge := by
  have hanswered : Answered ((run.op.onRequest request f).JoinedBy merge) run.results := by
    rw [CombinedMonitorOperation.joinedBy_onRequest hf]
    exact h.answered
  cases request with
  | principal =>
      exact ⟨h.running, hanswered, (congrArg f h.principal).trans (hf.buffer _ _), h.call,
        h.additional, (hf.timeout _).trans h.timeout⟩
  | additional =>
      obtain ⟨earlier, harrived, hlast⟩ := h.additional
      exact ⟨h.running, hanswered, h.principal, h.call,
        ⟨earlier, (congrArg f harrived).trans (hf.buffer _ _), hlast⟩, h.timeout⟩

theorem latest_receive {f : MonitorOperationImpl V → MonitorOperationImpl V}
    (hf : MonitorOperationImpl.Receives f) (request : MonitorRequest)
    (h : run.latest.isSome = true) : (run.receive request f).latest.isSome = true := by
  cases request with
  | principal => exact h
  | additional =>
      obtain ⟨added, hadded⟩ := hf.exists_append run.arrived.additional
      have hlatest : (run.receive .additional f).latest =
          (run.arrived.additional.receivedEvent ++ added).eventData.getLast? := by
        rw [← hadded]
        rfl
      rw [hlatest, EventReceived.eventData_append, List.getLast?_append]
      rw [latest] at h
      cases added.eventData.getLast? <;> simp [h]

/-- A principal report needs additional data before it, where no call is under way. -/
theorem reported_receive_principal (h : run.Reported)
    {f : MonitorOperationImpl V → MonitorOperationImpl V} {new : Bool}
    (hnew : (f run.op.principal).receivedEvent.hasReports =
      (run.op.principal.receivedEvent.hasReports || new)) :
    (run.receive .principal f).Reported ↔
      (run.joining = none → new = true → run.latest.isSome = true) := by
  constructor
  case mp =>
    intro hafter hidle hreport
    refine hafter hidle ?_
    exact hnew.trans (by rw [hreport, Bool.or_true])
  case mpr =>
    intro hcond hidle hreports
    rcases Bool.or_eq_true_iff.mp (hnew.symm.trans hreports) with hold | hreport
    · exact h hidle hold
    · exact hcond hidle hreport

/-- The events are tracked, and `hasEvents` shows them. -/
structure Kept (merge : FallibleMerger V) (run : CombinedRun V) : Prop where
  tracked : run.Tracked merge
  reported : run.Reported

theorem Kept.accounted (h : run.Kept merge) : run.Accounted merge :=
  h.tracked.accounted_iff_reported.mpr h.reported

theorem Kept.receive (h : run.Kept merge) {f : MonitorOperationImpl V → MonitorOperationImpl V}
    (hf : MonitorOperationImpl.Receives f) (request : MonitorRequest)
    (hsame : request = .principal → (f run.op.principal).receivedEvent.hasReports =
      run.op.principal.receivedEvent.hasReports) : (run.receive request f).Kept merge := by
  refine ⟨h.tracked.receive hf request, fun hidle hreports => ?_⟩
  refine latest_receive hf request (h.reported hidle ?_)
  cases request with
  | principal => exact (hsame rfl).symm.trans hreports
  | additional => exact hreports

/-- `polling` is not part of the account. -/
theorem Kept.setPolling (h : run.Kept merge) (polling : Option (ℕ × PollStage)) :
    { run with polling }.Kept merge :=
  ⟨⟨h.tracked.running, h.tracked.answered, h.tracked.principal, h.tracked.call,
    h.tracked.additional, h.tracked.timeout⟩, h.reported⟩

theorem Kept.pollPart (h : run.Kept merge) (elementToFetch : ℕ) (stage : PollStage) :
    (run.pollPart elementToFetch stage).Kept merge := by
  cases stage with
  | principalQueue =>
      exact (h.receive (MonitorOperationImpl.receives_pollQueue elementToFetch) .principal
        fun _ => MonitorOperationImpl.hasReports_pollQueue _ _).setPolling _
  | principalForced fetched =>
      exact (h.receive (MonitorOperationImpl.receives_pollForced fetched) .principal
        fun _ => MonitorOperationImpl.hasReports_pollForced _ _).setPolling _
  | additionalQueue =>
      exact (h.receive (MonitorOperationImpl.receives_pollQueue elementToFetch) .additional
        nofun).setPolling _
  | additionalForced fetched =>
      exact (h.receive (MonitorOperationImpl.receives_pollForced fetched) .additional
        nofun).setPolling _

/-! ## Calls of `getEventData` -/

theorem inFlight_of_idle (h : run.joining = none) : run.inFlight = {} := by
  rw [inFlight, h]
  rfl

theorem inFlight_of_call {call : JoiningCall V} (h : run.joining = some call) :
    run.inFlight = call.taken := by
  rw [inFlight, h]
  rfl

/-- The first part of a call takes all that is buffered, or there is nothing. -/
theorem Kept.getEventData (h : run.Kept merge) (hidle : run.joining = none) :
    run.getEventData.Kept merge := by
  have hreceived := h.tracked.received
  rw [inFlight_of_idle hidle, EventReceived.append_empty] at hreceived
  rw [CombinedRun.getEventData, CombinedMonitorOperation.takePrincipal]
  by_cases hguard : (!run.op.principal.hasEvents &&
      (!run.op.additional.hasData && run.op.lastAdditional.isNone)) = true
  · rw [if_pos hguard]
    have hempty : run.op.principal.receivedEvent = {} := by
      refine MonitorOperationImpl.receivedEvent_of_not_hasEvents ?_
      simpa using (Bool.and_eq_true_iff.mp hguard).1
    rw [hempty, EventReceived.append_empty] at hreceived
    refine ⟨⟨h.tracked.running, ⟨⟨{}, ?_, rfl, .nil, rfl, rfl, rfl⟩, h.tracked.answered⟩, ?_, ?_,
      h.tracked.additional, h.tracked.timeout⟩, h.reported⟩
    · rw [EventReceived.append_empty]
      exact hreceived
    · refine h.tracked.principal.trans ?_
      simp only [returned, inFlight, hidle, hreceived, Option.map_none, Option.getD_none,
        EventReceived.append_empty, hempty]
    · rw [hidle]
      exact nofun
  · rw [if_neg hguard]
    refine ⟨⟨h.tracked.running, h.tracked.answered, ?_, ?_, h.tracked.additional,
      h.tracked.timeout⟩, nofun⟩
    · refine h.tracked.principal.trans ?_
      rw [inFlight_of_idle hidle, EventReceived.append_empty]
      exact congrArg run.op.principal.withBuffer (EventReceived.append_empty _).symm
    · intro call hcall
      obtain rfl := Option.some.inj hcall
      exact hreceived

/-- The last additional event with which a call joins is the latest additional data. -/
theorem Tracked.joinData_eq_ok (h : run.Tracked merge) {events joined : List (MonitorEvent V)} :
    run.op.refreshAdditional.joinData merge events = .ok joined ↔
      List.Forall₂ (run.op.JoinedBy merge run.latest) events joined := by
  rw [CombinedMonitorOperation.joinData_eq_ok, h.additional.refreshAdditional.2,
    CombinedMonitorOperation.joinedBy_refreshAdditional]
  rfl

theorem Tracked.exists_joinData (h : run.Tracked merge) {events : List (MonitorEvent V)} :
    (∃ joined, run.op.refreshAdditional.joinData merge events = .ok joined) ↔
      ∀ event ∈ events, ∃ joined, run.op.JoinedBy merge run.latest event joined := by
  rw [CombinedMonitorOperation.exists_joinData, h.additional.refreshAdditional.2,
    CombinedMonitorOperation.joinedBy_refreshAdditional]
  rfl

/-- A call whose data are all joined ends with a result. -/
theorem Tracked.joinEvents (h : run.Tracked merge) {call : JoiningCall V}
    (hcall : run.joining = some call)
    (hall : ∀ event ∈ call.taken.eventData,
      ∃ joined, run.op.JoinedBy merge run.latest event joined) :
    (run.joinEvents merge call).Tracked merge ∧ (run.joinEvents merge call).joining = none ∧
      (run.joinEvents merge call).op.principal = run.op.principal ∧
      (run.joinEvents merge call).latest = run.latest := by
  obtain ⟨joined, hjoined⟩ := h.exists_joinData.mpr hall
  have hafter : run.joinEvents merge call = { run with
      op := run.op.refreshAdditional
      joining := none
      results := ⟨call.arrived, run.latest, { call.taken with
        eventTimeout := [], eventData := joined }⟩ :: run.results } := by
    simp only [CombinedRun.joinEvents, CombinedMonitorOperation.joinEvents, hjoined, Except.map]
  have hprincipal := run.op.refreshAdditional_principal
  have hjoinedBy : run.op.refreshAdditional.JoinedBy merge = run.op.JoinedBy merge :=
    CombinedMonitorOperation.joinedBy_refreshAdditional
  have hreturned := h.call call hcall
  have htimeout := h.timeout_append.1
  have harrived := h.principal
  rw [inFlight_of_call hcall] at htimeout harrived
  rw [hafter]
  refine ⟨⟨h.running, ⟨⟨call.taken, hreturned, ?_⟩, ?_⟩, ?_, nofun,
    h.additional.refreshAdditional.1, h.timeout⟩, rfl, hprincipal, rfl⟩
  · rw [hjoinedBy]
    exact ⟨htimeout.symm, h.joinData_eq_ok.mp hjoined, rfl, rfl, rfl⟩
  · rw [hjoinedBy]
    exact h.answered
  · simpa only [hprincipal, returned, hreturned, inFlight, Option.map_none, Option.getD_none,
      EventReceived.append_empty] using harrived

/-- A call with data that are not joined loses them, or follows a missing event. -/
theorem Tracked.not_accounted_joinEvents (h : run.Tracked merge) {call : JoiningCall V}
    (hcall : run.joining = some call) {event : MonitorEvent V}
    (hmem : event ∈ call.taken.eventData)
    (hnone : ∀ joined, ¬ run.op.JoinedBy merge run.latest event joined) :
    ¬ (run.joinEvents merge call).Accounted merge := by
  intro haccounted
  cases hjoined : run.op.refreshAdditional.joinData merge call.taken.eventData with
  | ok joined =>
      obtain ⟨other, hother⟩ := h.exists_joinData.mp ⟨joined, hjoined⟩ event hmem
      exact hnone other hother
  | error failure =>
      cases failure with
      | undefined =>
          have hrunning := haccounted.running
          simp only [CombinedRun.joinEvents, CombinedMonitorOperation.joinEvents, hjoined,
            Except.map, reduceCtorEq] at hrunning
      | thrown =>
          have hpending := haccounted.pending
          have hreceived := h.received
          rw [inFlight_of_call hcall] at hreceived
          simp only [CombinedRun.joinEvents, CombinedMonitorOperation.joinEvents, hjoined,
            Except.map, inFlight, Option.map_none, Option.getD_none, EventReceived.append_empty,
            CombinedMonitorOperation.refreshAdditional_principal] at hpending
          have hlength := congrArg (fun received => received.eventData.length)
            (hpending.symm.trans hreceived)
          have hpos := List.length_pos_of_mem hmem
          simp only [EventReceived.eventData_append, List.length_append] at hlength
          omega

/-! ## Runs -/

/-- A principal report comes after additional data, no data are joined before there are
additional data, and the merger succeeds. A report that comes during a call of `getEventData`
may wait for additional data until the call ends. -/
def Allowed (merge : FallibleMerger V) (run : CombinedRun V) : CombinedStep V → Prop
  | .connectEvent .principal connected =>
    run.joining = none → connected = false → run.latest.isSome = true
  | .monitorEvent .principal event _ =>
    run.joining = none → run.op.principal.reports event = true → run.latest.isSome = true
  | .joinEvents => ∀ call ∈ run.joining,
    ((call.taken.eventData ≠ [] ∨ run.op.principal.receivedEvent.hasReports = true) →
      run.latest.isSome = true) ∧
    ∀ event ∈ call.taken.eventData, ∀ additional ∈ run.latest,
      (merge (event.channelData.data, run.op.principal.requestedFields)
        (additional.channelData.data, run.op.additional.requestedFields)).isOk = true
  | _ => True

/-- What is allowed of a call that joins: each of its data can be joined. -/
theorem allowed_joinEvents {call : JoiningCall V} (hcall : run.joining = some call) :
    run.Allowed merge .joinEvents ↔
      (∀ event ∈ call.taken.eventData, ∃ joined, run.op.JoinedBy merge run.latest event joined) ∧
        (run.op.principal.receivedEvent.hasReports = true → run.latest.isSome = true) := by
  simp only [Allowed, hcall, Option.mem_def, Option.some.injEq, forall_eq']
  constructor
  case mp =>
    rintro ⟨hlatest, hmerge⟩
    refine ⟨fun event hmem => ?_, fun hreports => hlatest (.inr hreports)⟩
    obtain ⟨additional, hadditional⟩ :=
      Option.isSome_iff_exists.mp (hlatest (.inl (List.ne_nil_of_mem hmem)))
    have hok := hmerge event hmem additional hadditional
    cases hresult : merge (event.channelData.data, run.op.principal.requestedFields)
        (additional.channelData.data, run.op.additional.requestedFields) with
    | error failure => rw [hresult] at hok; cases hok
    | ok merged => exact ⟨_, additional, merged, hadditional, hresult, rfl⟩
  case mpr =>
    rintro ⟨hall, hreports⟩
    constructor
    case left =>
      rintro (hne | hbuffered)
      · obtain ⟨event, hmem⟩ := List.exists_mem_of_ne_nil _ hne
        obtain ⟨_, _, _, hadditional, -, -⟩ := hall event hmem
        rw [hadditional]
        rfl
      · exact hreports hbuffered
    case right =>
      intro event hmem additional hadditional
      obtain ⟨_, additional', merged, hadditional', hmerge, -⟩ := hall event hmem
      obtain rfl := Option.some.inj (hadditional.symm.trans hadditional')
      rw [hmerge]
      rfl

/-- A report at the principal request keeps the account just if it is allowed. -/
theorem Kept.report (h : run.Kept merge)
    {f : MonitorOperationImpl V → MonitorOperationImpl V} (hf : MonitorOperationImpl.Receives f)
    {new : Bool} (hnew : (f run.op.principal).receivedEvent.hasReports =
      (run.op.principal.receivedEvent.hasReports || new)) {allowed : Prop}
    (hallowed : allowed ↔ (run.joining = none → new = true → run.latest.isSome = true)) :
    (allowed → (run.receive .principal f).Kept merge) ∧
      (¬ allowed → ¬ (run.receive .principal f).Accounted merge) := by
  have htracked := h.tracked.receive hf .principal
  rw [hallowed, htracked.accounted_iff_reported, ← reported_receive_principal h.reported hnew]
  exact ⟨fun hreported => ⟨htracked, hreported⟩, id⟩

theorem kept_next {step : CombinedStep V} (h : run.Kept merge)
    (hnext : run.next merge step = some run') :
    (run.Allowed merge step → run'.Kept merge) ∧
      (¬ run.Allowed merge step → ¬ run'.Accounted merge) := by
  have hrunning : ¬ run.crashed = true := by simp [h.tracked.running]
  rw [next.eq_def, if_neg hrunning] at hnext
  cases step <;> simp only at hnext
  case connectEvent request connected =>
    obtain rfl := Option.some.inj hnext
    have hreceives := MonitorOperationImpl.receives_connectEvent (V := V) connected
    cases request with
    | principal =>
        refine h.report hreceives (MonitorOperationImpl.hasReports_connectEvent _ _) ?_
        simp [Allowed]
    | additional =>
        exact ⟨fun _ => h.receive hreceives .additional nofun, fun hnot => absurd trivial hnot⟩
  case monitorEvent request event message =>
    obtain rfl := Option.some.inj hnext
    have hreceives := MonitorOperationImpl.receives_monitorEvent (V := V) event message
    cases request with
    | principal =>
        exact h.report hreceives (MonitorOperationImpl.hasReports_monitorEvent _ _ _) Iff.rfl
    | additional =>
        exact ⟨fun _ => h.receive hreceives .additional nofun, fun hnot => absurd trivial hnot⟩
  case monitorData request queue =>
    obtain ⟨-, hnext⟩ := Option.ite_none_right_eq_some.mp hnext
    obtain rfl := Option.some.inj hnext
    exact ⟨fun _ => h.receive (MonitorOperationImpl.receives_queue queue) request fun _ => rfl,
      fun hnot => absurd trivial hnot⟩
  case forceUpdate =>
    obtain rfl := Option.some.inj hnext
    have hreceives := MonitorOperationImpl.receives_forceUpdate (V := V)
    exact ⟨fun _ => (h.receive hreceives .principal fun _ => rfl).receive hreceives .additional
      nofun, fun hnot => absurd trivial hnot⟩
  case getDone request value =>
    split at hnext
    · obtain rfl := Option.some.inj hnext
      exact ⟨fun _ => h.receive (MonitorOperationImpl.receives_getOp value) request fun _ => rfl,
        fun hnot => absurd trivial hnot⟩
    · cases hnext
  case poll elementToFetch =>
    split at hnext
    · obtain rfl := Option.some.inj hnext
      exact ⟨fun _ => h.setPolling _, fun hnot => absurd trivial hnot⟩
    · cases hnext
  case pollPart =>
    obtain ⟨⟨elementToFetch, stage⟩, -, rfl⟩ := Option.map_eq_some_iff.mp hnext
    exact ⟨fun _ => h.pollPart elementToFetch stage, fun hnot => absurd trivial hnot⟩
  case getEventData =>
    split at hnext
    · rename_i hidle
      obtain rfl := Option.some.inj hnext
      exact ⟨fun _ => h.getEventData hidle, fun hnot => absurd trivial hnot⟩
    · cases hnext
  case joinEvents =>
    obtain ⟨call, hcall, rfl⟩ := Option.map_eq_some_iff.mp hnext
    rw [allowed_joinEvents hcall]
    by_cases hall : ∀ event ∈ call.taken.eventData,
        ∃ joined, run.op.JoinedBy merge run.latest event joined
    · obtain ⟨htracked, hidle, hprincipal, hlatest⟩ := h.tracked.joinEvents hcall hall
      have hiff : (run.joinEvents merge call).Reported ↔
          (run.op.principal.receivedEvent.hasReports = true → run.latest.isSome = true) := by
        rw [Reported, hprincipal, hlatest]
        exact ⟨fun hreported => hreported hidle, fun hreported _ => hreported⟩
      rw [htracked.accounted_iff_reported, hiff]
      exact ⟨fun hallowed => ⟨htracked, hiff.mpr hallowed.2⟩,
        fun hnot hreported => hnot ⟨hall, hreported⟩⟩
    · refine ⟨fun hallowed => absurd hallowed.1 hall, fun _ => ?_⟩
      push Not at hall
      obtain ⟨event, hmem, hnone⟩ := hall
      exact h.tracked.not_accounted_joinEvents hcall hmem hnone

/-- All principal events are accounted for in every state, just if each step is allowed. -/
theorem accounted_iff {pvName : String} {principalFields additionalFields : List String}
    {steps : List (CombinedStep V)}
    (h : AnyRun (next merge) (start pvName principalFields additionalFields) steps run) :
    Always (next merge) (start pvName principalFields additionalFields) steps (Accounted merge) ↔
      Run (next merge) (Allowed merge) (start pvName principalFields additionalFields) steps run :=
  Run.always_iff (I := Kept merge) ⟨tracked_start merge _ _ _, fun _ hreports => nomatch hreports⟩
    (fun _ hkept => hkept.accounted) kept_next h

instance (merge : FallibleMerger V) (run : CombinedRun V) (step : CombinedStep V) :
    Decidable (run.Allowed merge step) := by
  unfold Allowed
  split <;> infer_instance

/-- A merger that adds two numbers. -/
private def addNumbers : FallibleMerger ℕ := fun principal additional =>
  .ok (principal.1.getD 0 + additional.1.getD 0)

/-- Both requests get data, the call that joins them has a disconnect come between its parts. -/
theorem accounted_iff_disconnect :
    Always (next addNumbers) (start "x" ["value"] ["display"])
      [.connectEvent .additional true, .monitorData .additional [5], .poll 10, .pollPart, .pollPart,
        .pollPart, .pollPart, .connectEvent .principal true, .monitorData .principal [1, 2],
        .poll 10, .pollPart, .getEventData, .monitorEvent .principal .disconnec "gone", .joinEvents,
        .getEventData, .joinEvents] (Accounted addNumbers) := by
  obtain ⟨run, hrun, -⟩ := exists_run (next addNumbers) (Allowed addNumbers)
    (start "x" ["value"] ["display"])
    [.connectEvent .additional true, .monitorData .additional [5], .poll 10, .pollPart, .pollPart,
      .pollPart, .pollPart, .connectEvent .principal true, .monitorData .principal [1, 2],
      .poll 10, .pollPart, .getEventData, .monitorEvent .principal .disconnec "gone", .joinEvents,
      .getEventData, .joinEvents] (fun _ => true) (by decide +kernel)
  exact (accounted_iff hrun.any).mpr hrun

/-- The channel disconnects before there are additional data, and `hasEvents` does not show it. -/
theorem not_accounted_disconnect :
    ¬ ∀ (steps : List (CombinedStep ℕ)) (run : CombinedRun ℕ),
      AnyRun (next addNumbers) (start "x" ["value"] ["display"]) steps run →
        run.Accounted addNumbers := by
  intro hall
  obtain ⟨run, hrun, hcheck⟩ := exists_run (next addNumbers) (fun _ _ => True)
    (start "x" ["value"] ["display"])
    [.connectEvent .principal true, .monitorEvent .principal .disconnec "gone"]
    (fun run => run.joining.isNone && run.op.principal.receivedEvent.hasReports &&
      !run.op.hasEvents) (by decide +kernel)
  simp only [Bool.and_eq_true, Option.isNone_iff_eq_none, Bool.not_eq_true'] at hcheck
  obtain ⟨⟨hidle, hreports⟩, hsilent⟩ := hcheck
  have hevents := (hall _ run hrun).hasEvents hidle (.inl hreports)
  rw [hsilent] at hevents
  cases hevents

end CombinedRun

end K2eg
