import K2eg.Foundation.Interleaving
import K2eg.Verification.SharedMonitor.Buffer

/-! # When every event of the monitor queue is broadcast -/

namespace K2eg

open Interleaving

variable {V : Type*} {merge : StructureMerger V}

namespace SharedMonitor

/-- The arrivals that have been broadcast. -/
def broadcastArrivals (monitor : SharedMonitor V) : List ℕ :=
  monitor.broadcast.flatMap fun received => arrivalsOf received.eventData

/-- The arrivals that the task has taken and not yet broadcast. -/
def inHandArrivals (monitor : SharedMonitor V) : List ℕ :=
  match monitor.task with
  | .broadcasting received => arrivalsOf received.eventData
  | _ => []

/-- The arrivals that wait in the buffer. -/
def bufferedArrivals (monitor : SharedMonitor V) : List ℕ := arrivalsOf monitor.operation.buffer

def takenArrivals (monitor : SharedMonitor V) : List ℕ :=
  monitor.taken.filterMap Sample.arrival

/-- What has been taken from the monitor queue is broadcast once and in arrival order, up to
what the task holds and what is still buffered, and no snapshot took the last of no events. -/
structure Delivers (monitor : SharedMonitor V) : Prop where
  delivered : monitor.broadcastArrivals ++ monitor.inHandArrivals ++ monitor.bufferedArrivals =
    monitor.takenArrivals
  numbered : ∀ sample ∈ monitor.taken, sample.arrival.isSome
  ordered : monitor.takenArrivals.Pairwise (· < ·)
  noEmptyBack : monitor.emptyBack = false

/-- A snapshot that takes the buffer finds data events, and none of the monitor queue. -/
def Harmless (monitor : SharedMonitor V) : SharedMonitorStep V → Prop
  | .snapshotGetEventData _ =>
    monitor.operation.buffer ≠ [] ∧ monitor.bufferedArrivals = []
  | _ => True

instance (monitor : SharedMonitor V) (step : SharedMonitorStep V) :
    Decidable (monitor.Harmless step) := by
  cases step <;> unfold Harmless <;> infer_instance

/-- A freshly opened monitor operation. -/
def opened (provider pvName : String) (maxEventFromMonitorQueue : ℕ) : SharedMonitor V where
  operation := epicsChannelMonitor provider pvName
  maxEventFromMonitorQueue

/-! ## The invariant -/

/-- The queue is in arrival order, forced updates have no number, and whoever is about to take
the events of a combined operation finds an additional event. -/
structure Orderly (monitor : SharedMonitor V) : Prop where
  queue_numbered : ∀ sample ∈ monitor.operation.principal.queue, sample.arrival.isSome
  queue_ordered : (monitor.takenArrivals ++
    monitor.operation.principal.queue.filterMap Sample.arrival).Pairwise (· < ·)
  below : ∀ n ∈ monitor.takenArrivals ++
    monitor.operation.principal.queue.filterMap Sample.arrival, n < monitor.arrivals
  forced : ∀ value, monitor.operation.principal.getOp = some (some value) →
    value.arrival = none
  sound : monitor.operation.Sound
  task_ready : ∀ _ : monitor.task matches .taking, monitor.operation.Ready
  snapshot_ready : ∀ snapshot, monitor.snapshots snapshot = .taking → monitor.operation.Ready

structure Good (monitor : SharedMonitor V) : Prop where
  orderly : monitor.Orderly
  delivers : monitor.Delivers

variable {monitor : SharedMonitor V}

/-- A change of the operation that neither takes from the queue nor touches the buffered
arrivals. -/
theorem Good.setOperation (h : monitor.Good) {operation : MonitorOperation (Sample V)}
    (hgrows : monitor.operation.Grows operation)
    (hqueue : operation.principal.queue = monitor.operation.principal.queue ∨
      operation.principal.queue = [])
    (hget : ∀ value, operation.principal.getOp = some (some value) → value.arrival = none)
    (hbuffer : arrivalsOf operation.buffer = monitor.bufferedArrivals) :
    ({ monitor with operation } : SharedMonitor V).Good := by
  constructor
  · refine
      { queue_numbered := ?_, queue_ordered := ?_, below := ?_, forced := hget,
        sound := hgrows.sound h.orderly.sound,
        task_ready := fun htask => hgrows.ready (h.orderly.task_ready htask),
        snapshot_ready := fun i hi => hgrows.ready (h.orderly.snapshot_ready i hi) }
    · rcases hqueue with hqueue | hqueue
      · simpa only [hqueue] using h.orderly.queue_numbered
      · simp [hqueue]
    · rcases hqueue with hqueue | hqueue
      · simpa only [takenArrivals, hqueue] using h.orderly.queue_ordered
      · simpa [takenArrivals, hqueue] using h.delivers.ordered
    · rcases hqueue with hqueue | hqueue
      · simpa only [takenArrivals, hqueue] using h.orderly.below
      · intro n hn
        exact h.orderly.below n (List.mem_append_left _ (by simpa [takenArrivals, hqueue] using hn))
  · refine
      { delivered := ?_, numbered := h.delivers.numbered, ordered := h.delivers.ordered,
        noEmptyBack := h.delivers.noEmptyBack }
    have hdelivered := h.delivers.delivered
    rw [← hbuffer] at hdelivered
    exact hdelivered

/-- A request change that leaves queue, buffer and forced get alone. -/
theorem Good.onPrincipal (h : monitor.Good)
    {f : MonitorOperationImpl (Sample V) → MonitorOperationImpl (Sample V)}
    (happends : monitor.operation.principal.Appends (f monitor.operation.principal) [])
    (hqueue : (f monitor.operation.principal).queue = monitor.operation.principal.queue ∨
      (f monitor.operation.principal).queue = [])
    (hget : ∀ value, (f monitor.operation.principal).getOp = some (some value) →
      value.arrival = none) :
    ({ monitor with operation := monitor.operation.onPrincipal f } : SharedMonitor V).Good := by
  refine h.setOperation (monitor.operation.grows_onPrincipal f) (by simpa using hqueue)
    (by simpa using hget) ?_
  simp only [MonitorOperation.buffer, MonitorOperation.principal_onPrincipal, bufferedArrivals]
  rw [happends, List.map_nil, List.append_nil]

theorem Good.onAdditional (h : monitor.Good)
    {f : MonitorOperationImpl (Sample V) → MonitorOperationImpl (Sample V)}
    (happends : ∀ request : MonitorOperationImpl (Sample V),
      ∃ values, request.Appends (f request) values) :
    ({ monitor with operation := monitor.operation.onAdditional f } : SharedMonitor V).Good := by
  refine h.setOperation (MonitorOperation.grows_onAdditional happends) (by simp)
    (by simpa using h.orderly.forced) ?_
  simp [MonitorOperation.buffer, bufferedArrivals]

theorem Good.forceUpdate (h : monitor.Good) :
    ({ monitor with operation := monitor.operation.forceUpdate } : SharedMonitor V).Good :=
  (h.onPrincipal (.of_eq rfl) (.inl rfl) h.orderly.forced).onAdditional fun _ =>
    ⟨[], .of_eq rfl⟩

/-- The task moves on, holding the same arrivals. -/
theorem Good.setTask (h : monitor.Good) {task : MonitorTaskPhase (Sample V)}
    (hready : ∀ _ : task matches .taking, monitor.operation.Ready)
    (hhand : ({ monitor with task } : SharedMonitor V).inHandArrivals = monitor.inHandArrivals) :
    ({ monitor with task } : SharedMonitor V).Good where
  orderly := { h.orderly with task_ready := hready }
  delivers := { h.delivers with
    delivered := by
      rw [hhand]
      exact h.delivers.delivered }

theorem Good.setSnapshot (h : monitor.Good) {snapshot : ℕ} {phase : SnapshotPhase}
    (hready : phase = .taking → monitor.operation.Ready) :
    (monitor.setSnapshot snapshot phase).Good where
  orderly := { h.orderly with
    snapshot_ready := by
      intro other hother
      by_cases heq : other = snapshot
      · subst other
        exact hready (by simpa [SharedMonitor.setSnapshot] using hother)
      · exact h.orderly.snapshot_ready other
          (by simpa [SharedMonitor.setSnapshot, heq] using hother) }
  delivers := { h.delivers with }

/-! ## Polling -/

/-- What a poll takes from the queue it puts at the end of the buffer. -/
theorem Good.poll (h : monitor.Good) (n : ℕ) (stage : PollStage) :
    (monitor.poll n stage).2.Good := by
  have hgrows := monitor.operation.grows_pollStep n stage
  cases stage with
  | principalQueue =>
      have hqueue := List.take_append_drop n monitor.operation.principal.queue
      have hsplit : monitor.takenArrivals ++
            monitor.operation.principal.queue.filterMap Sample.arrival =
          (monitor.taken ++ monitor.operation.principal.queue.take n).filterMap Sample.arrival ++
            (monitor.operation.principal.queue.drop n).filterMap Sample.arrival := by
        rw [List.filterMap_append, List.append_assoc, ← List.filterMap_append, hqueue]
        rfl
      have hordered := h.orderly.queue_ordered
      have hbelow := h.orderly.below
      rw [hsplit] at hordered hbelow
      constructor
      · refine
          { queue_numbered := ?_, queue_ordered := ?_, below := ?_, forced := ?_,
            sound := hgrows.sound h.orderly.sound,
            task_ready := fun htask => hgrows.ready (h.orderly.task_ready htask),
            snapshot_ready := fun i hi => hgrows.ready (h.orderly.snapshot_ready i hi) }
        · intro sample hsample
          refine h.orderly.queue_numbered sample (List.mem_of_mem_drop (i := n) ?_)
          simpa [SharedMonitor.poll, MonitorOperation.pollStep] using hsample
        · simpa [SharedMonitor.poll, MonitorOperation.pollStep, takenArrivals, takenBy] using
            hordered
        · simpa [SharedMonitor.poll, MonitorOperation.pollStep, takenArrivals, takenBy] using
            hbelow
        · simpa [SharedMonitor.poll, MonitorOperation.pollStep] using h.orderly.forced
      · refine
          { delivered := ?_, numbered := ?_, ordered := ?_,
            noEmptyBack := h.delivers.noEmptyBack }
        · have hbuffer : (monitor.poll n .principalQueue).2.bufferedArrivals =
              monitor.bufferedArrivals ++
                (monitor.operation.principal.queue.take n).filterMap Sample.arrival := by
            simp only [SharedMonitor.poll, MonitorOperation.pollStep, bufferedArrivals,
              MonitorOperation.buffer, MonitorOperation.principal_onPrincipal]
            rw [monitor.operation.principal.pollQueue_appends n, arrivalsOf_append,
              arrivalsOf_dataEvents]
          calc monitor.broadcastArrivals ++ monitor.inHandArrivals ++
                (monitor.poll n .principalQueue).2.bufferedArrivals
              = monitor.takenArrivals ++
                  (monitor.operation.principal.queue.take n).filterMap Sample.arrival := by
                rw [hbuffer, ← List.append_assoc, h.delivers.delivered]
            _ = _ := by
                simp [SharedMonitor.poll, takenArrivals, takenBy]
        · intro sample hsample
          simp only [SharedMonitor.poll, takenBy, if_true] at hsample
          rcases List.mem_append.mp hsample with hold | hnew
          · exact h.delivers.numbered sample hold
          · exact h.orderly.queue_numbered sample (List.mem_of_mem_take hnew)
        · simpa [SharedMonitor.poll, takenArrivals, takenBy] using
            (List.pairwise_append.mp hordered).1
  | principalForced fetched =>
      obtain ⟨hqueue, hget, hdata⟩ := monitor.operation.principal.pollForced_spec fetched
      have hgood : ({ monitor with operation := monitor.operation.onPrincipal fun request =>
          (request.pollForced fetched).2 } : SharedMonitor V).Good := by
        refine h.setOperation hgrows (by simp [hqueue])
          (by simpa using fun value hvalue => h.orderly.forced value (hget value hvalue)) ?_
        simp only [MonitorOperation.buffer, MonitorOperation.principal_onPrincipal,
          bufferedArrivals]
        rcases hdata with happends | ⟨value, hvalue, happends⟩
        · rw [happends, List.map_nil, List.append_nil]
        · rw [happends, arrivalsOf_append, arrivalsOf_dataEvents]
          simp [h.orderly.forced value hvalue]
      simpa [SharedMonitor.poll, MonitorOperation.pollStep, takenBy] using hgood
  | additionalQueue =>
      simpa [SharedMonitor.poll, MonitorOperation.pollStep, takenBy] using
        h.onAdditional fun request => ⟨_, request.pollQueue_appends n⟩
  | additionalForced fetched =>
      have hgood := h.onAdditional (f := fun request => (request.pollForced fetched).2) (by
        intro request
        obtain ⟨-, -, happends | ⟨value, -, happends⟩⟩ := request.pollForced_spec fetched
        · exact ⟨_, happends⟩
        · exact ⟨_, happends⟩)
      simpa [SharedMonitor.poll, MonitorOperation.pollStep, takenBy] using hgood

/-! ## The consumers -/

@[simp] theorem poll_snapshots (monitor : SharedMonitor V) (n : ℕ) (stage : PollStage) :
    (monitor.poll n stage).2.snapshots = monitor.snapshots := rfl

@[simp] theorem poll_task (monitor : SharedMonitor V) (n : ℕ) (stage : PollStage) :
    (monitor.poll n stage).2.task = monitor.task := rfl

theorem inHandArrivals_of_not_broadcasting
    (h : ∀ received, monitor.task ≠ .broadcasting received) : monitor.inHandArrivals = [] := by
  unfold inHandArrivals
  split
  · exact absurd ‹_› (h _)
  · rfl

/-- Taking the events as the task does: they are in its hand. -/
theorem Good.taskGetEventData (h : monitor.Good) (htask : monitor.task = .taking) :
    ({ monitor with
      operation := (monitor.operation.getEventData (Sample.merger merge)).2
      task := .broadcasting (monitor.operation.getEventData (Sample.merger merge)).1 } :
        SharedMonitor V).Good := by
  obtain ⟨harrivals, -, hprincipal, hsound, hready⟩ := MonitorOperation.getEventData_spec merge
    h.orderly.sound (h.orderly.task_ready (by rw [htask]))
  constructor
  · exact
      { queue_numbered := by simpa [hprincipal] using h.orderly.queue_numbered
        queue_ordered := by simpa [hprincipal, takenArrivals] using h.orderly.queue_ordered
        below := by simpa [hprincipal, takenArrivals] using h.orderly.below
        forced := by simpa [hprincipal] using h.orderly.forced
        sound := hsound
        task_ready := fun _ => hready
        snapshot_ready := fun _ _ => hready }
  · refine { h.delivers with delivered := ?_ }
    have hhand : monitor.inHandArrivals = [] :=
      inHandArrivals_of_not_broadcasting fun received => by rw [htask]; simp
    have hdelivered := h.delivers.delivered
    rw [hhand, List.append_nil] at hdelivered
    have hempty : arrivalsOf
        (monitor.operation.getEventData (Sample.merger merge)).2.buffer = [] := by
      rw [MonitorOperation.buffer, hprincipal]
      rfl
    simp only [inHandArrivals, bufferedArrivals, harrivals, hempty, List.append_nil]
    exact hdelivered

theorem Good.taskBroadcast (h : monitor.Good) {received : EventReceived (Sample V)}
    (htask : monitor.task = .broadcasting received) :
    ({ monitor with broadcast := monitor.broadcast ++ [received], task := .started } :
      SharedMonitor V).Good where
  orderly := { h.orderly with task_ready := fun hmatch => by cases hmatch }
  delivers := { h.delivers with
    delivered := by
      have hdelivered := h.delivers.delivered
      simp only [inHandArrivals, htask] at hdelivered
      simpa [broadcastArrivals, inHandArrivals, bufferedArrivals, takenArrivals] using
        hdelivered }

theorem snapshotTake_of_event {snapshot : ℕ} {event : MonitorEvent (Sample V)}
    (hlast : (monitor.operation.getEventData (Sample.merger merge)).1.eventData.getLast? =
      some event) :
    monitor.snapshotTake merge snapshot =
      { ({ monitor with
          operation := (monitor.operation.getEventData (Sample.merger merge)).2 } :
            SharedMonitor V).setSnapshot snapshot .processed with
        published := monitor.published ++ [(snapshot, event.channelData)] } := by
  simp only [SharedMonitor.snapshotTake, hlast]
  rfl

/-- A snapshot that takes the buffer: nothing of the monitor queue is lost and `back` is
defined exactly when the buffer holds forced updates only. -/
theorem Good.snapshotTake (h : monitor.Good) {snapshot : ℕ}
    (hphase : monitor.snapshots snapshot = .taking) :
    (monitor.operation.buffer ≠ [] ∧ monitor.bufferedArrivals = [] →
        (monitor.snapshotTake merge snapshot).Good) ∧
      (¬ (monitor.operation.buffer ≠ [] ∧ monitor.bufferedArrivals = []) →
        ¬ (monitor.snapshotTake merge snapshot).Delivers) := by
  obtain ⟨harrivals, hnil, hprincipal, hsound, hready⟩ := MonitorOperation.getEventData_spec merge
    h.orderly.sound (h.orderly.snapshot_ready snapshot hphase)
  have hempty : arrivalsOf
      (monitor.operation.getEventData (Sample.merger merge)).2.buffer = [] := by
    rw [MonitorOperation.buffer, hprincipal]
    rfl
  constructor
  · rintro ⟨hne, hforced⟩
    have hgood : ({ monitor with
        operation := (monitor.operation.getEventData (Sample.merger merge)).2 } :
          SharedMonitor V).Good := by
      refine h.setOperation ⟨fun _ => hsound, fun _ => hready⟩ (by simp [hprincipal])
        (by simpa [hprincipal] using h.orderly.forced) ?_
      rw [hempty, hforced]
    have hset : (({ monitor with
        operation := (monitor.operation.getEventData (Sample.merger merge)).2 } :
          SharedMonitor V).setSnapshot snapshot .processed).Good :=
      hgood.setSnapshot (by simp)
    cases hlast : (monitor.operation.getEventData (Sample.merger merge)).1.eventData.getLast? with
    | none => exact absurd (hnil.mp (List.getLast?_eq_none_iff.mp hlast)) hne
    | some event =>
        rw [snapshotTake_of_event hlast]
        exact ⟨{ hset.orderly with }, { hset.delivers with }⟩
  · intro hbad hafter
    by_cases hne : monitor.operation.buffer = []
    · have hback := hafter.noEmptyBack
      simp [SharedMonitor.snapshotTake, hnil.mpr hne] at hback
    · -- What was buffered of the queue is gone, while it stays taken.
      have hlost : monitor.bufferedArrivals ≠ [] := fun heq => hbad ⟨hne, heq⟩
      have hdelivered := hafter.delivered
      cases hlast :
          (monitor.operation.getEventData (Sample.merger merge)).1.eventData.getLast? with
      | none => exact hne (hnil.mp (List.getLast?_eq_none_iff.mp hlast))
      | some event =>
          rw [snapshotTake_of_event hlast] at hdelivered
          have hkept : monitor.broadcastArrivals ++ monitor.inHandArrivals =
              monitor.takenArrivals := by
            simpa [SharedMonitor.setSnapshot, broadcastArrivals, inHandArrivals,
              bufferedArrivals, takenArrivals, hempty] using hdelivered
          have hbefore := h.delivers.delivered
          rw [hkept, List.append_right_eq_self] at hbefore
          exact hlost hbefore

/-- Every step from a good state: a harmless one leads to a good state, any other one breaks
the delivery. -/
theorem Good.next (h : monitor.Good) {step : SharedMonitorStep V} {after : SharedMonitor V}
    (hnext : monitor.next merge step = some after) :
    (monitor.Harmless step → after.Good) ∧ (¬ monitor.Harmless step → ¬ after.Delivers) := by
  have hharmless : ∀ {P : Prop}, P → (True → P) ∧ (¬ True → ¬ after.Delivers) :=
    fun hP => ⟨fun _ => hP, fun hnot => absurd trivial hnot⟩
  cases step with
  | arrive value =>
      obtain rfl := Option.some.inj hnext
      refine hharmless ⟨?_, ?_⟩
      · have hnew : (⟨some monitor.arrivals, value⟩ : Sample V).arrival.isSome := rfl
        have hqueue := h.orderly.queue_ordered
        have hbelow := h.orderly.below
        have hgrows := monitor.operation.grows_onPrincipal fun request =>
          { request with queue := request.queue ++ [⟨some monitor.arrivals, value⟩] }
        refine
          { queue_numbered := ?_, queue_ordered := ?_, below := ?_, forced := ?_,
            sound := hgrows.sound h.orderly.sound,
            task_ready := fun htask => hgrows.ready (h.orderly.task_ready htask),
            snapshot_ready := fun i hi => hgrows.ready (h.orderly.snapshot_ready i hi) }
        · intro sample hsample
          simp only [MonitorOperation.principal_onPrincipal] at hsample
          rcases List.mem_append.mp hsample with hold | hlast
          · exact h.orderly.queue_numbered sample hold
          · rw [List.mem_singleton.mp hlast]
            exact hnew
        · simp only [MonitorOperation.principal_onPrincipal, List.filterMap_append,
            List.filterMap_cons, List.filterMap_nil, ← List.append_assoc]
          refine List.pairwise_append.mpr ⟨hqueue, List.pairwise_singleton _ _, ?_⟩
          intro n hn m hm
          rw [List.mem_singleton.mp hm]
          exact hbelow n hn
        · intro n hn
          simp only [MonitorOperation.principal_onPrincipal, List.filterMap_append,
            List.filterMap_cons, List.filterMap_nil, ← List.append_assoc] at hn
          rcases List.mem_append.mp hn with hold | hlast
          · exact Nat.lt_succ_of_lt (hbelow n hold)
          · rw [List.mem_singleton.mp hlast]
            exact Nat.lt_succ_self _
        · simpa using h.orderly.forced
      · refine { h.delivers with delivered := ?_ }
        have hdelivered := h.delivers.delivered
        simpa [bufferedArrivals, MonitorOperation.buffer, broadcastArrivals, inHandArrivals,
          takenArrivals] using hdelivered
  | arriveAdditional value =>
      obtain rfl := Option.some.inj hnext
      exact hharmless (h.onAdditional fun _ => ⟨[], .of_eq rfl⟩)
  | getDone value =>
      obtain rfl := Option.some.inj hnext
      refine hharmless (h.onPrincipal (.of_eq rfl) (.inl rfl) fun forced hforced => ?_)
      obtain ⟨_, -, heq⟩ := Option.map_eq_some_iff.mp hforced
      rw [← Option.some.inj heq]
  | getDoneAdditional value =>
      obtain rfl := Option.some.inj hnext
      exact hharmless (h.onAdditional fun _ => ⟨[], .of_eq rfl⟩)
  | connectEvent connected =>
      obtain rfl := Option.some.inj hnext
      obtain ⟨happends, hget, hqueue⟩ :=
        monitor.operation.principal.connectEvent_spec connected
      exact hharmless (h.onPrincipal happends hqueue fun value hvalue =>
        h.orderly.forced value (hget ▸ hvalue))
  | connectEventAdditional connected =>
      obtain rfl := Option.some.inj hnext
      exact hharmless (h.onAdditional fun request =>
        ⟨[], (request.connectEvent_spec connected).1⟩)
  | monitorEvent event message =>
      obtain rfl := Option.some.inj hnext
      obtain ⟨happends, hget, hqueue⟩ :=
        monitor.operation.principal.monitorEvent_spec event message
      exact hharmless (h.onPrincipal happends (.inl hqueue) fun value hvalue =>
        h.orderly.forced value (hget ▸ hvalue))
  | monitorEventAdditional event message =>
      obtain rfl := Option.some.inj hnext
      exact hharmless (h.onAdditional fun request =>
        ⟨[], (request.monitorEvent_spec event message).1⟩)
  | taskStart toForce =>
      cases htask : monitor.task with
      | started =>
          simp only [SharedMonitor.next, htask, Option.some.injEq] at hnext
          subst hnext
          have hhand : ∀ monitor : SharedMonitor V, monitor.task = .started →
              ({ monitor with task := .polling .principalQueue } :
                SharedMonitor V).inHandArrivals = monitor.inHandArrivals := by
            intro monitor htask
            simp [inHandArrivals, htask]
          cases toForce with
          | false => exact hharmless (h.setTask (by intro hm; cases hm) (hhand _ htask))
          | true =>
              exact hharmless (h.forceUpdate.setTask (by intro hm; cases hm) (hhand _ htask))
      | _ => simp [SharedMonitor.next, htask] at hnext
  | taskPoll =>
      cases htask : monitor.task with
      | polling stage =>
          simp only [SharedMonitor.next, htask, Option.some.injEq] at hnext
          subst hnext
          have hgood := h.poll monitor.maxEventFromMonitorQueue stage
          refine hharmless (hgood.setTask ?_ ?_)
          · cases (monitor.poll monitor.maxEventFromMonitorQueue stage).1 <;>
              exact fun hm => by cases hm
          · rw [inHandArrivals_of_not_broadcasting, inHandArrivals_of_not_broadcasting]
            · simp [htask]
            · cases (monitor.poll monitor.maxEventFromMonitorQueue stage).1 <;> simp
      | _ => simp [SharedMonitor.next, htask] at hnext
  | taskHasEvents =>
      cases htask : monitor.task with
      | testing =>
          simp only [SharedMonitor.next, htask, Option.some.injEq] at hnext
          subst hnext
          have hhand : monitor.inHandArrivals = [] :=
            inHandArrivals_of_not_broadcasting (by simp [htask])
          refine hharmless (h.setTask ?_ ?_)
          · cases hevents : monitor.operation.hasEvents with
            | true => exact fun _ => MonitorOperation.ready_of_hasEvents hevents
            | false => exact fun hm => by cases hm
          · rw [hhand]
            apply inHandArrivals_of_not_broadcasting
            split <;> simp
      | _ => simp [SharedMonitor.next, htask] at hnext
  | taskGetEventData =>
      cases htask : monitor.task with
      | taking =>
          simp only [SharedMonitor.next, htask, Option.some.injEq] at hnext
          subst hnext
          exact hharmless (h.taskGetEventData htask)
      | _ => simp [SharedMonitor.next, htask] at hnext
  | taskBroadcast =>
      cases htask : monitor.task with
      | broadcasting received =>
          simp only [SharedMonitor.next, htask, Option.some.injEq] at hnext
          subst hnext
          exact hharmless (h.taskBroadcast htask)
      | _ => simp [SharedMonitor.next, htask] at hnext
  | snapshotStart snapshot timedOut =>
      cases hphase : monitor.snapshots snapshot with
      | waiting =>
          simp only [SharedMonitor.next, hphase, Option.some.injEq] at hnext
          subst hnext
          cases timedOut with
          | false => exact hharmless (h.setSnapshot (by simp))
          | true => exact hharmless (h.forceUpdate.setSnapshot (by simp))
      | _ => simp [SharedMonitor.next, hphase] at hnext
  | snapshotPoll snapshot =>
      cases hphase : monitor.snapshots snapshot with
      | polling timedOut stage =>
          simp only [SharedMonitor.next, hphase, Option.some.injEq] at hnext
          subst hnext
          refine hharmless ((h.poll snapshotElementToFetch stage).setSnapshot ?_)
          cases (monitor.poll snapshotElementToFetch stage).1 <;> simp
      | _ => simp [SharedMonitor.next, hphase] at hnext
  | snapshotHasData snapshot =>
      cases hphase : monitor.snapshots snapshot with
      | testing timedOut =>
          simp only [SharedMonitor.next, hphase, Option.some.injEq] at hnext
          subst hnext
          refine hharmless (h.setSnapshot ?_)
          split
          · rename_i hdata
            exact fun _ => MonitorOperation.ready_of_hasData hdata
          · split <;> simp
      | _ => simp [SharedMonitor.next, hphase] at hnext
  | snapshotGetEventData snapshot =>
      cases hphase : monitor.snapshots snapshot with
      | taking =>
          simp only [SharedMonitor.next, hphase, Option.some.injEq] at hnext
          subst hnext
          exact h.snapshotTake hphase
      | _ => simp [SharedMonitor.next, hphase] at hnext

theorem good_opened (provider pvName : String) (n : ℕ) :
    (opened provider pvName n : SharedMonitor V).Good := by
  have hprincipal : (epicsChannelMonitor provider pvName :
      MonitorOperation (Sample V)).principal.queue = [] ∧
      (epicsChannelMonitor provider pvName : MonitorOperation (Sample V)).principal.getOp = none ∧
      (epicsChannelMonitor provider pvName : MonitorOperation (Sample V)).buffer = [] ∧
      (epicsChannelMonitor provider pvName : MonitorOperation (Sample V)).Sound := by
    unfold epicsChannelMonitor
    split
    · exact ⟨rfl, rfl, rfl, by simp [MonitorOperationImpl.CarriesData], by simp⟩
    · exact ⟨rfl, rfl, rfl, trivial⟩
  obtain ⟨hqueue, hget, hbuffer, hsound⟩ := hprincipal
  constructor
  · exact
      { queue_numbered := by simp [opened, hqueue]
        queue_ordered := by simp [opened, takenArrivals, hqueue]
        below := by simp [opened, takenArrivals, hqueue]
        forced := by simp [opened, hget]
        sound := hsound
        task_ready := fun hm => by cases hm
        snapshot_ready := by simp [opened] }
  · exact
      { delivered := by
          simp [opened, broadcastArrivals, inHandArrivals, bufferedArrivals, hbuffer,
            takenArrivals]
        numbered := by simp [opened]
        ordered := by simp [opened, takenArrivals]
        noEmptyBack := rfl }

/-! ## Runs -/

/-- The events of the monitor queue are delivered in every state of a run if and only if every
snapshot that takes the buffer finds forced updates in it, and nothing else. -/
theorem delivers_iff (provider pvName : String) (n : ℕ) {steps : List (SharedMonitorStep V)}
    (h : AnyRun (next merge) (opened provider pvName n) steps monitor) :
    Always (next merge) (opened provider pvName n) steps Delivers ↔
      Run (next merge) Harmless (opened provider pvName n) steps monitor :=
  Run.always_iff (good_opened provider pvName n) (fun _ hgood => hgood.delivers)
    (fun hgood hnext => hgood.next hnext) h

/-- A snapshot that looks while the task holds the event finds no data; the event is delivered. -/
theorem delivers_iff_oneEvent :
    ∃ steps monitor, steps.length = 12 ∧
      AnyRun (next (V := ℕ) fun principal _ => principal.1) (opened "pva" "a" 10) steps monitor ∧
      Always (next fun principal _ => principal.1) (opened "pva" "a" 10) steps Delivers := by
  obtain ⟨monitor, hrun, -⟩ := exists_run (next (V := ℕ) fun principal _ => principal.1)
    Harmless (opened "pva" "a" 10)
    [.arrive 7, .taskStart false, .taskPoll, .taskPoll, .taskHasEvents,
      .taskGetEventData, .snapshotStart 0 false, .snapshotPoll 0, .snapshotPoll 0,
      .snapshotHasData 0, .taskBroadcast, .taskStart true]
    (fun _ => true) (by decide)
  exact ⟨_, monitor, rfl, hrun.any, (delivers_iff "pva" "a" 10 hrun.any).mpr hrun⟩

/-- A snapshot polls the event and takes it, and the task finds nothing to broadcast; or the task
takes the event between the test of the snapshot and its taking, and the snapshot takes the last
of no events. -/
theorem not_delivers_snapshotTakes :
    (¬ ∀ (steps : List (SharedMonitorStep ℕ)) (monitor : SharedMonitor ℕ),
      AnyRun (next fun principal _ => principal.1) (opened "pva" "a" 10) steps monitor →
        monitor.Delivers) ∧
    ¬ ∀ (steps : List (SharedMonitorStep ℕ)) (monitor : SharedMonitor ℕ),
      AnyRun (next fun principal _ => principal.1) (opened "ca" "a" 10) steps monitor →
        monitor.emptyBack = false := by
  constructor
  · intro hall
    obtain ⟨monitor, hrun, hcheck⟩ := exists_run
      (next (V := ℕ) fun principal _ => principal.1) (fun _ _ => True) (opened "pva" "a" 10)
      [.arrive 7, .snapshotStart 0 false, .snapshotPoll 0, .snapshotPoll 0,
        .snapshotHasData 0, .snapshotGetEventData 0, .taskStart false, .taskPoll, .taskPoll,
        .taskHasEvents]
      (fun monitor => decide (monitor.broadcastArrivals ++ monitor.inHandArrivals ++
        monitor.bufferedArrivals = [] ∧ monitor.takenArrivals = [0])) (by decide)
    obtain ⟨hempty, htaken⟩ := of_decide_eq_true hcheck
    have hdelivered := (hall _ monitor hrun).delivered
    rw [hempty, htaken] at hdelivered
    exact List.cons_ne_nil _ _ hdelivered.symm
  · intro hall
    obtain ⟨monitor, hrun, hcheck⟩ := exists_run
      (next (V := ℕ) fun principal _ => principal.1) (fun _ _ => True) (opened "ca" "a" 10)
      [.arriveAdditional 1, .arrive 7, .snapshotStart 0 false, .snapshotPoll 0,
        .snapshotPoll 0, .snapshotPoll 0, .snapshotPoll 0, .snapshotHasData 0, .taskStart false,
        .taskPoll, .taskPoll, .taskPoll, .taskPoll, .taskHasEvents, .taskGetEventData,
        .snapshotGetEventData 0]
      (SharedMonitor.emptyBack) (by decide)
    rw [hall _ monitor hrun] at hcheck
    cases hcheck

end SharedMonitor

end K2eg
