import K2eg.Model.SharedMonitor

/-! # What the buffer of a monitor operation holds

The data events of the principal request are followed by the numbers of their arrivals. -/

namespace K2eg

variable {V : Type*}

/-- The arrivals of the events, in order; forced updates have none. -/
def arrivalsOf (events : List (MonitorEvent (Sample V))) : List ℕ :=
  events.filterMap fun event => event.channelData.data.bind Sample.arrival

@[simp] theorem arrivalsOf_nil : arrivalsOf ([] : List (MonitorEvent (Sample V))) = [] := rfl

@[simp] theorem arrivalsOf_append (first second : List (MonitorEvent (Sample V))) :
    arrivalsOf (first ++ second) = arrivalsOf first ++ arrivalsOf second :=
  List.filterMap_append

@[simp] theorem arrivalsOf_dataEvents (op : MonitorOperationImpl (Sample V))
    (values : List (Sample V)) :
    arrivalsOf (values.map op.dataEvent) = values.filterMap Sample.arrival := by
  simp [arrivalsOf, MonitorOperationImpl.dataEvent, List.filterMap_map, Function.comp_def]

/-! ## One request -/

namespace MonitorOperationImpl

/-- Every buffered data event carries a structure. -/
def CarriesData (op : MonitorOperationImpl V) : Prop :=
  ∀ event ∈ op.receivedEvent.eventData, event.channelData.data.isSome

/-- A change that adds data events for these values and takes none away. -/
def Appends (op after : MonitorOperationImpl V) (values : List V) : Prop :=
  after.receivedEvent.eventData = op.receivedEvent.eventData ++ values.map op.dataEvent

theorem Appends.of_eq {op after : MonitorOperationImpl V}
    (h : after.receivedEvent.eventData = op.receivedEvent.eventData) : op.Appends after [] := by
  simpa [Appends] using h

theorem Appends.carriesData {op after : MonitorOperationImpl V} {values : List V}
    (h : op.Appends after values) (hdata : op.CarriesData) : after.CarriesData := by
  intro event hevent
  rw [h] at hevent
  rcases List.mem_append.mp hevent with hevent | hevent
  · exact hdata event hevent
  · obtain ⟨value, -, rfl⟩ := List.mem_map.mp hevent
    rfl

theorem Appends.hasData {op after : MonitorOperationImpl V} {values : List V}
    (h : op.Appends after values) (hdata : op.hasData = true) : after.hasData = true := by
  simp only [MonitorOperationImpl.hasData, Bool.not_eq_true', List.isEmpty_eq_false_iff] at hdata ⊢
  rw [h]
  simp [hdata]

theorem pollQueue_appends (op : MonitorOperationImpl V) (n : ℕ) :
    op.Appends (op.pollQueue n).2 (op.queue.take n) := rfl

@[simp] theorem pollQueue_queue (op : MonitorOperationImpl V) (n : ℕ) :
    (op.pollQueue n).2.queue = op.queue.drop n := rfl

@[simp] theorem pollQueue_getOp (op : MonitorOperationImpl V) (n : ℕ) :
    (op.pollQueue n).2.getOp = op.getOp := rfl

/-- A forced update adds nothing or the result of the get, and the queue is left alone. -/
theorem pollForced_spec (op : MonitorOperationImpl V) (fetched : ℕ) :
    (op.pollForced fetched).2.queue = op.queue ∧
      (∀ value, (op.pollForced fetched).2.getOp = some (some value) →
        op.getOp = some (some value)) ∧
      (op.Appends (op.pollForced fetched).2 [] ∨
        ∃ value, op.getOp = some (some value) ∧
          op.Appends (op.pollForced fetched).2 [value]) := by
  unfold pollForced
  by_cases hforce : fetched = 0 ∧ op.forceUpdate = true
  · simp only [hforce, and_self, if_true]
    rcases hget : op.getOp with _ | _ | value
    · exact ⟨rfl, by simp, .inl (.of_eq rfl)⟩
    · exact ⟨rfl, by simp [hget], .inl (.of_eq rfl)⟩
    · exact ⟨rfl, by simp, .inr ⟨value, rfl, rfl⟩⟩
  · rw [if_neg hforce]
    exact ⟨rfl, fun _ h => h, .inl (.of_eq rfl)⟩

theorem connectEvent_spec (op : MonitorOperationImpl V) (connected : Bool) :
    op.Appends (op.connectEvent connected) [] ∧
      (op.connectEvent connected).getOp = op.getOp ∧
      ((op.connectEvent connected).queue = op.queue ∨
        (op.connectEvent connected).queue = []) := by
  cases connected with
  | false => exact ⟨.of_eq rfl, rfl, .inl rfl⟩
  | true => exact ⟨.of_eq rfl, rfl, .inr rfl⟩

theorem monitorEvent_spec (op : MonitorOperationImpl V) (event : EventType) (message : String) :
    op.Appends (op.monitorEvent event message) [] ∧
      (op.monitorEvent event message).getOp = op.getOp ∧
      (op.monitorEvent event message).queue = op.queue := by
  cases event with
  | cancel =>
      simp only [monitorEvent]
      split
      · exact ⟨.of_eq rfl, rfl, rfl⟩
      · exact ⟨.of_eq rfl, rfl, rfl⟩
  | fail | disconnec | data | timeout => exact ⟨.of_eq rfl, rfl, rfl⟩

end MonitorOperationImpl

/-! ## Combined requests -/

namespace MonitorOperation

/-- The additional events that wait or are kept carry a structure. -/
def Sound : MonitorOperation V → Prop
  | .impl _ => True
  | .combined op => op.additional.CarriesData ∧
      ∀ event, op.lastAdditional = some event → event.channelData.data.isSome

/-- There is an additional event to merge with, where one is needed. -/
def Ready : MonitorOperation V → Prop
  | .impl _ => True
  | .combined op => op.additional.hasData = true ∨ op.lastAdditional.isSome = true

/-- The buffered data events of the principal request. -/
def buffer (op : MonitorOperation V) : List (MonitorEvent V) :=
  op.principal.receivedEvent.eventData

@[simp] theorem principal_onPrincipal (op : MonitorOperation V)
    (f : MonitorOperationImpl V → MonitorOperationImpl V) :
    (op.onPrincipal f).principal = f op.principal := by
  cases op <;> rfl

@[simp] theorem principal_onAdditional (op : MonitorOperation V)
    (f : MonitorOperationImpl V → MonitorOperationImpl V) :
    (op.onAdditional f).principal = op.principal := by
  cases op <;> rfl

/-- The two operations have the same additional part, up to events that were added to it. -/
structure Grows (op after : MonitorOperation V) : Prop where
  sound : op.Sound → after.Sound
  ready : op.Ready → after.Ready

theorem grows_onPrincipal (op : MonitorOperation V)
    (f : MonitorOperationImpl V → MonitorOperationImpl V) : op.Grows (op.onPrincipal f) := by
  cases op with
  | impl op => exact ⟨id, id⟩
  | combined op => exact ⟨id, id⟩

theorem grows_onAdditional {op : MonitorOperation V}
    {f : MonitorOperationImpl V → MonitorOperationImpl V}
    (h : ∀ request : MonitorOperationImpl V, ∃ values, request.Appends (f request) values) :
    op.Grows (op.onAdditional f) := by
  cases op with
  | impl op => exact ⟨id, id⟩
  | combined op =>
      obtain ⟨values, happends⟩ := h op.additional
      exact ⟨fun hs => ⟨happends.carriesData hs.1, hs.2⟩,
        fun hr => hr.imp_left happends.hasData⟩

theorem grows_pollStep (op : MonitorOperation V) (n : ℕ) (stage : PollStage) :
    op.Grows (op.pollStep n stage).2 := by
  cases stage with
  | principalQueue => exact op.grows_onPrincipal _
  | principalForced fetched => exact op.grows_onPrincipal _
  | additionalQueue => exact grows_onAdditional fun request => ⟨_, request.pollQueue_appends n⟩
  | additionalForced fetched =>
      have happends : ∀ request : MonitorOperationImpl V,
          ∃ values, request.Appends (request.pollForced fetched).2 values := by
        intro request
        obtain ⟨-, -, h | ⟨value, -, h⟩⟩ := request.pollForced_spec fetched
        · exact ⟨_, h⟩
        · exact ⟨_, h⟩
      exact grows_onAdditional happends

/-- An operation whose test for events succeeds can merge. -/
theorem ready_of_hasEvents {op : MonitorOperation V} (h : op.hasEvents = true) : op.Ready := by
  cases op with
  | impl op => trivial
  | combined op => simpa [Ready] using (Bool.and_eq_true_iff.mp h).2

theorem ready_of_hasData {op : MonitorOperation V} (h : op.hasData = true) : op.Ready := by
  cases op with
  | impl op => trivial
  | combined op => simpa [Ready] using (Bool.and_eq_true_iff.mp h).2

private theorem refreshAdditional_spec (op : CombinedMonitorOperation V)
    (hsound : (MonitorOperation.combined op).Sound)
    (hready : (MonitorOperation.combined op).Ready) :
    (MonitorOperation.combined op.refreshAdditional).Sound ∧
      ∃ event value, op.refreshAdditional.lastAdditional = some event ∧
        event.channelData.data = some value := by
  unfold CombinedMonitorOperation.refreshAdditional
  by_cases hdata : op.additional.hasData = true
  · simp only [hdata, if_true, MonitorOperationImpl.getEventData]
    have hne : op.additional.receivedEvent.eventData ≠ [] := by
      simpa [MonitorOperationImpl.hasData] using hdata
    have hlast := List.getLast?_eq_some_getLast hne
    obtain ⟨value, hvalue⟩ := Option.isSome_iff_exists.mp
      (hsound.1 _ (List.getLast_mem hne))
    refine ⟨⟨by simp [MonitorOperationImpl.CarriesData], ?_⟩, _, value, hlast, hvalue⟩
    intro event hevent
    rw [hlast, Option.some.injEq] at hevent
    subst hevent
    rw [hvalue]
    rfl
  · simp only [hdata]
    obtain ⟨event, hevent⟩ := Option.isSome_iff_exists.mp (hready.resolve_left hdata)
    obtain ⟨value, hvalue⟩ := Option.isSome_iff_exists.mp (hsound.2 event hevent)
    exact ⟨hsound, event, value, hevent, hvalue⟩

/-- Taking the events of an operation that is ready takes all buffered data, with their
arrivals in order, and leaves the rest of the operation. -/
theorem getEventData_spec (merge : StructureMerger V) {op : MonitorOperation (Sample V)}
    (hsound : op.Sound) (hready : op.Ready) :
    arrivalsOf (op.getEventData (Sample.merger merge)).1.eventData = arrivalsOf op.buffer ∧
      ((op.getEventData (Sample.merger merge)).1.eventData = [] ↔ op.buffer = []) ∧
      (op.getEventData (Sample.merger merge)).2.principal =
        { op.principal with receivedEvent := {} } ∧
      (op.getEventData (Sample.merger merge)).2.Sound ∧
      (op.getEventData (Sample.merger merge)).2.Ready := by
  cases op with
  | impl op => exact ⟨rfl, Iff.rfl, rfl, trivial, trivial⟩
  | combined op =>
      have hcond : (!op.principal.hasEvents &&
          (!op.additional.hasData && op.lastAdditional.isNone)) = false := by
        rcases hready with hdata | hlast
        · simp [hdata]
        · simp [Option.isNone_eq_false_iff.mpr hlast]
      obtain ⟨hsound', event, value, hlast, hvalue⟩ := refreshAdditional_spec
        { op with principal := op.principal.getEventData.2 } hsound hready
      simp only [getEventData, CombinedMonitorOperation.getEventData, hcond, buffer, principal,
        if_false,
        Bool.false_eq_true]
      refine ⟨?_, by simp [MonitorOperationImpl.getEventData], ?_, hsound', ?_⟩
      · rw [arrivalsOf, List.filterMap_map]
        refine congrArg (fun f => List.filterMap f _) (funext fun buffered => ?_)
        cases hdata : buffered.channelData.data with
        | none => simp [CombinedMonitorOperation.mergedData, hdata]
        | some sample =>
            simp [CombinedMonitorOperation.mergedData, hdata, hlast, hvalue, Sample.merger]
      · simp only [CombinedMonitorOperation.refreshAdditional]
        split <;> rfl
      · exact .inr (by rw [hlast]; rfl)

end MonitorOperation

end K2eg
