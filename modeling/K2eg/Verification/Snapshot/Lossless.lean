import K2eg.Foundation.Interleaving
import K2eg.Verification.Snapshot.EventBuffer
import K2eg.Verification.Snapshot.FieldFilter
import Mathlib.Data.List.TakeWhile

/-! # Back timed snapshots lose no event of the window

Between two swaps the acquiring buffer holds, in order of arrival, the events that came since the
last swap and were not older than the window when a later one came; the processing buffer is
empty. A swap whose events have the filtered fields submits just these events. -/

namespace K2eg

open Interleaving
open TimeWindowEventBuffer (isOld Entry)

variable {cmd : RepeatingSnapshotCommand} {history : List BackTimedRecord}
  {run run' : BackTimedRun} {now : Int}

/-- The entry of the arrival in a buffer. -/
def Arrival.entry (arrival : Arrival) : Entry (MonitorEvent PVStructure) :=
  ⟨arrival.time, arrival.event⟩

/-- The events that arrived since the last swap. -/
def sinceSwap (history : List BackTimedRecord) : List Arrival :=
  history.foldl (fun since record =>
    match record with
    | .arrival arrival => since ++ [arrival]
    | .swap .. => []) []

/-- The event that a submission has for an arrival. -/
def Shows (fields : List String) (arrival : Arrival) (event : MonitorEvent PVStructure) : Prop :=
  if fields = [] then event = arrival.event
  else filterEvent fields arrival.event = .ok (some event)

/-- A submission with just the events of the batch, in its order. Where `getData` throws there is
no submission. -/
def Submits (fields : List String) (result : Except Failure (SnapshotSubmission PVStructure))
    (batch : List Arrival) : Prop :=
  match result with
  | .ok submission => List.Forall₂ (Shows fields) batch submission.snapshotEvents
  | .error _ => batch = []

/-- The submissions hold the batches, one for each swap. They are in the order of arrival, no
event is in two places, and an event that is not older than the window at the first swap after its
arrival is in the batch of that swap. -/
structure Lossless (cmd : RepeatingSnapshotCommand) (history : List BackTimedRecord)
    (batches : List (List Arrival)) : Prop where
  submitted : List.Forall₂ (Submits cmd.pvFieldFilterList) (swaps history) batches
  ordered : batches.flatten.Sublist (arrivals history)
  once : (batches.flatten.map Arrival.number).Nodup
  complete : ∀ past now result pvs future, history = past ++ .swap now result pvs :: future →
    ∀ arrival ∈ sinceSwap past,
      now - arrival.time ≤ cmd.timeWindowMsec * SnapshotOpInfo.nanosecondsPerMsec →
        arrival ∈ batches.getD (swaps past).length []

namespace BackTimedBufferedSnapshotOpInfo

/-- A round swaps the buffers: the operation is stopped, it is triggered, or in timed mode the
window or the push delay is over. -/
def due (op : BackTimedBufferedSnapshotOpInfo) (now : Int) : Bool :=
  !op.isRunning ||
    if op.cmd.triggered then op.requestToTrigger
    else decide (now - op.begin > op.cmd.timeWindowMsec * SnapshotOpInfo.nanosecondsPerMsec) ||
      decide ((now - op.lastForcedExpire).tdiv SnapshotOpInfo.nanosecondsPerMsec ≥
        op.fastExpireTimeMsec)

end BackTimedBufferedSnapshotOpInfo

namespace BackTimedRun

/-- A round that swaps the buffers finds the filtered fields in all events that the acquiring
buffer holds, or all of these are older than the window. -/
def FieldsFit (run : BackTimedRun) : BackTimedStep → Prop
  | .checkerRound now => run.op.due now = true →
      (∀ entry ∈ run.op.acquiringBuffer.entries,
        hasFields run.op.cmd.pvFieldFilterList entry.event = true) ∨
      ∀ entry ∈ run.op.acquiringBuffer.entries,
        isOld run.op.cmd.timeWindowMsec now entry = true
  | _ => True

instance (run : BackTimedRun) (step : BackTimedStep) : Decidable (run.FieldsFit step) := by
  cases step <;> unfold FieldsFit <;> infer_instance

end BackTimedRun

/-! ## The history -/

@[simp] theorem arrivals_arrival (history : List BackTimedRecord) (arrival : Arrival) :
    arrivals (history ++ [.arrival arrival]) = arrivals history ++ [arrival] := by
  simp [arrivals]

@[simp] theorem arrivals_swap (history : List BackTimedRecord) (now : Int)
    (result : Except Failure (SnapshotSubmission PVStructure)) (pvs : List String) :
    arrivals (history ++ [.swap now result pvs]) = arrivals history := by
  simp [arrivals]

@[simp] theorem swaps_arrival (history : List BackTimedRecord) (arrival : Arrival) :
    swaps (history ++ [.arrival arrival]) = swaps history := by
  simp [swaps]

@[simp] theorem swaps_swap (history : List BackTimedRecord) (now : Int)
    (result : Except Failure (SnapshotSubmission PVStructure)) (pvs : List String) :
    swaps (history ++ [.swap now result pvs]) = swaps history ++ [result] := by
  simp [swaps]

@[simp] theorem sinceSwap_arrival (history : List BackTimedRecord) (arrival : Arrival) :
    sinceSwap (history ++ [.arrival arrival]) = sinceSwap history ++ [arrival] := by
  simp [sinceSwap]

@[simp] theorem sinceSwap_swap (history : List BackTimedRecord) (now : Int)
    (result : Except Failure (SnapshotSubmission PVStructure)) (pvs : List String) :
    sinceSwap (history ++ [.swap now result pvs]) = [] := by
  simp [sinceSwap]

/-! ## What holds at the swaps -/

/-- Each batch is as it should be for the history before its swap and for the time of the swap. -/
def AtSwaps (P : List BackTimedRecord → Int → List Arrival → Prop)
    (history : List BackTimedRecord) (batches : List (List Arrival)) : Prop :=
  ∀ past now result pvs future, history = past ++ .swap now result pvs :: future →
    P past now (batches.getD (swaps past).length [])

namespace AtSwaps

variable {P : List BackTimedRecord → Int → List Arrival → Prop} {batches : List (List Arrival)}
  {batch : List Arrival}

theorem arrival (h : AtSwaps P history batches) (arrival : Arrival) :
    AtSwaps P (history ++ [.arrival arrival]) batches := by
  intro past now result pvs future heq
  rcases List.eq_nil_or_concat future with rfl | ⟨init, last, rfl⟩
  · obtain ⟨-, hlast⟩ := List.append_inj' heq rfl
    simp at hlast
  · rw [List.concat_eq_append, ← List.cons_append, ← List.append_assoc] at heq
    exact h past now result pvs init (List.append_inj' heq rfl).1

theorem swap (h : AtSwaps P history batches) (hlength : batches.length = (swaps history).length)
    {result : Except Failure (SnapshotSubmission PVStructure)} {pvs : List String}
    (hbatch : P history now batch) :
    AtSwaps P (history ++ [.swap now result pvs]) (batches ++ [batch]) := by
  intro past time other others future heq
  rcases List.eq_nil_or_concat future with rfl | ⟨init, last, rfl⟩
  · obtain ⟨rfl, hlast⟩ := List.append_inj' heq rfl
    obtain ⟨rfl, -, -⟩ : now = time ∧ result = other ∧ pvs = others := by simpa using hlast
    have hget : (batches ++ [batch]).getD (swaps history).length [] = batch := by
      simp [List.getD_eq_getElem?_getD, ← hlength]
    rwa [hget]
  · rw [List.concat_eq_append, ← List.cons_append, ← List.append_assoc] at heq
    obtain ⟨rfl, -⟩ := List.append_inj' heq rfl
    have hlt : (swaps past).length < batches.length := by
      rw [hlength, swaps, swaps, List.filterMap_append, List.length_append]
      simp
    rw [List.getD_append _ _ _ _ hlt]
    exact h past time other others init rfl

end AtSwaps

namespace Lossless

variable {batches : List (List Arrival)} {batch : List Arrival}

theorem start (cmd : RepeatingSnapshotCommand) : Lossless cmd [] [] where
  submitted := .nil
  ordered := .slnil
  once := List.nodup_nil
  complete := by simp

theorem atSwaps (h : Lossless cmd history batches) :
    AtSwaps (fun past now batch => ∀ arrival ∈ sinceSwap past,
      now - arrival.time ≤ cmd.timeWindowMsec * SnapshotOpInfo.nanosecondsPerMsec →
        arrival ∈ batch) history batches := h.complete

/-- An event arrives: no submission changes. -/
theorem arrival (h : Lossless cmd history batches) (arrival : Arrival) :
    Lossless cmd (history ++ [.arrival arrival]) batches where
  submitted := by simpa using h.submitted
  ordered := by
    rw [arrivals_arrival]
    exact h.ordered.trans (List.sublist_append_left _ _)
  once := h.once
  complete := h.atSwaps.arrival arrival

/-- A swap submits one more batch. -/
theorem swap (h : Lossless cmd history batches)
    {result : Except Failure (SnapshotSubmission PVStructure)} {pvs : List String}
    (hsubmits : Submits cmd.pvFieldFilterList result batch)
    (hordered : (batches.flatten ++ batch).Sublist (arrivals history))
    (honce : ((arrivals history).map Arrival.number).Nodup)
    (hcomplete : ∀ arrival ∈ sinceSwap history,
      now - arrival.time ≤ cmd.timeWindowMsec * SnapshotOpInfo.nanosecondsPerMsec →
        arrival ∈ batch) :
    Lossless cmd (history ++ [.swap now result pvs]) (batches ++ [batch]) where
  submitted := by
    rw [swaps_swap]
    exact List.rel_append h.submitted (.cons hsubmits .nil)
  ordered := by simpa using hordered
  once := by
    have hsub : (batches ++ [batch]).flatten.Sublist (arrivals history) := by simpa using hordered
    exact (hsub.map Arrival.number).nodup honce
  complete := h.atSwaps.swap h.submitted.length_eq.symm hcomplete

/-- The batch of a swap that threw is empty, so that no event was in the window. -/
theorem none_of_error {failure : Failure} {pvs : List String}
    (h : Lossless cmd (history ++ [.swap now (.error failure) pvs]) batches) :
    ∀ arrival ∈ sinceSwap history,
      ¬ now - arrival.time ≤ cmd.timeWindowMsec * SnapshotOpInfo.nanosecondsPerMsec := by
  intro arrival harrival hage
  have hmem := h.complete history now _ pvs [] rfl arrival harrival hage
  obtain ⟨hlength, hget⟩ := List.forall₂_iff_get.1 h.submitted
  have hlt : (swaps history).length <
      (swaps (history ++ [.swap now (.error failure) pvs])).length := by
    simp
  have hbatch := hget (swaps history).length hlt (hlength ▸ hlt)
  have hempty : batches.getD (swaps history).length [] = [] := by
    rw [List.getD_eq_getElem _ _ (hlength ▸ hlt)]
    simpa [Submits] using hbatch
  rw [hempty] at hmem
  cases hmem

end Lossless

/-! ## What a step does to the buffers -/

namespace BackTimedBufferedSnapshotOpInfo

variable {op : BackTimedBufferedSnapshotOpInfo} {event : MonitorEvent PVStructure}

/-- The window is over, or the operation is stopped or triggered. -/
theorem baseTimeout_spec (info : SnapshotOpInfo) (now : Int) :
    (info.baseTimeout now).1 = (!info.isRunning ||
        if info.cmd.triggered then info.requestToTrigger
        else decide (now - info.begin > info.cmd.timeWindowMsec *
          SnapshotOpInfo.nanosecondsPerMsec)) ∧
      (info.baseTimeout now).2.cmd = info.cmd ∧
      (info.baseTimeout now).2.lastForcedExpire = info.lastForcedExpire := by
  rw [SnapshotOpInfo.baseTimeout, SnapshotOpInfo.windowTimeout]
  cases info.isRunning with
  | false => exact ⟨rfl, rfl, rfl⟩
  | true =>
      cases info.cmd.triggered with
      | true => cases info.requestToTrigger <;> exact ⟨rfl, rfl, rfl⟩
      | false =>
          by_cases hwindow :
              now - info.begin > info.cmd.timeWindowMsec * SnapshotOpInfo.nanosecondsPerMsec
          · simp [hwindow]
          · simp [hwindow]

theorem fastExpireTimeMsec_congr {info info' : SnapshotOpInfo} (h : info.cmd = info'.cmd) :
    info.fastExpireTimeMsec = info'.fastExpireTimeMsec := by
  rw [SnapshotOpInfo.fastExpireTimeMsec, SnapshotOpInfo.fastExpireTimeMsec, h]

/-- `isTimeout` returns whether it swaps the buffers. -/
theorem isTimeout_spec (op : BackTimedBufferedSnapshotOpInfo) (now : Int) :
    (op.isTimeout now).1 = op.due now ∧
      (op.isTimeout now).2.cmd = op.cmd ∧
      (op.isTimeout now).2.acquiringBuffer =
        (if op.due now then op.processingBuffer else op.acquiringBuffer) ∧
      (op.isTimeout now).2.processingBuffer =
        if op.due now then op.acquiringBuffer else op.processingBuffer := by
  obtain ⟨hexpired, hcmd, hlast⟩ := baseTimeout_spec op.toSnapshotOpInfo now
  rw [isTimeout, due]
  generalize op.toSnapshotOpInfo.baseTimeout now = base at hexpired hcmd hlast
  obtain ⟨expired, info⟩ := base
  simp only at hexpired hcmd hlast
  have hpush : { info with winTimeExpired := expired }.fastExpireTimeMsec =
      op.fastExpireTimeMsec := fastExpireTimeMsec_congr hcmd
  simp only [hpush]
  simp only [hcmd, hlast]
  cases htriggered : op.cmd.triggered with
  | true =>
      simp only [htriggered, if_true] at hexpired
      cases expired <;> simp [← hexpired, swapBuffers]
  | false =>
      simp only [htriggered, Bool.false_eq_true, if_false] at hexpired ⊢
      rw [← Bool.or_assoc, ← hexpired]
      cases expired with
      | true => simp [swapBuffers, collectSilentPvs, onWindowTimeout]
      | false =>
          by_cases hdelay : (now - op.lastForcedExpire).tdiv SnapshotOpInfo.nanosecondsPerMsec ≥
              op.fastExpireTimeMsec
          · simp [hdelay, swapBuffers, collectSilentPvs]
          · simp [hdelay]

/-- The event with the fields that the filter leaves. -/
def keptEvent (fields : List String) (event : MonitorEvent PVStructure) :
    MonitorEvent PVStructure :=
  match filterEvent fields event with
  | .ok (some filtered) => filtered
  | _ => event

/-- Where the events have the fields, `getData` submits all that the buffer holds and resets
it. -/
theorem getData_ok {batch : List Arrival} (hwell : op.processingBuffer.WellFormed)
    (hbatch : op.processingBuffer.entries = batch.map Arrival.entry)
    (hfields : ∀ entry ∈ op.processingBuffer.entries,
      hasFields op.cmd.pvFieldFilterList entry.event = true) :
    ∃ submission op', op.getData = (.ok submission, op') ∧
      Submits op.cmd.pvFieldFilterList (.ok submission) batch ∧ op'.cmd = op.cmd ∧
      op'.acquiringBuffer = op.acquiringBuffer ∧
      op'.processingBuffer = op.processingBuffer.reset := by
  obtain ⟨events, hevents, hshows⟩ : ∃ events, op.fetchEvents = .ok events ∧
      List.Forall₂ (Shows op.cmd.pvFieldFilterList) batch events := by
    by_cases hnone : op.cmd.pvFieldFilterList = []
    · refine ⟨op.processingBuffer.fetchWindow, by simp [fetchEvents, hnone], ?_⟩
      rw [op.processingBuffer.fetchWindow_eq hwell, hbatch, List.map_map,
        List.forall₂_map_right_iff, List.forall₂_same]
      intro arrival _
      rw [Shows, if_pos hnone]
      rfl
    · have hpos : op.cmd.pvFieldFilterList.length > 0 := List.length_pos_iff.2 hnone
      have hkeep : ∀ entry ∈ op.processingBuffer.entries,
          filterEvent op.cmd.pvFieldFilterList entry.event =
            .ok (some (keptEvent op.cmd.pvFieldFilterList entry.event)) := by
        intro entry hentry
        obtain ⟨filtered, hfiltered⟩ :=
          filterEvent_ok (hfields entry hentry) op.cmd.pvFieldFilterList_nodup
        simp only [keptEvent, hfiltered]
      refine ⟨_, (if_pos hpos).trans (TimeWindowEventBuffer.fetchMapWindow_ok hwell hkeep), ?_⟩
      rw [hbatch, List.map_map, List.forall₂_map_right_iff, List.forall₂_same]
      intro arrival harrival
      rw [Shows, if_neg hnone]
      exact hkeep arrival.entry (hbatch ▸ List.mem_map_of_mem harrival)
  refine ⟨⟨⟨!op.headerSent, !events.isEmpty, op.winTimeExpired || !op.isRunning⟩, events, 0⟩,
    { op with
      processingBuffer := op.processingBuffer.reset
      headerSent := !(op.winTimeExpired || !op.isRunning) }, ?_, hshows, rfl, rfl, rfl⟩
  simp only [getData, hevents]

/-- Where `getData` returns, the events have the fields. -/
theorem hasFields_of_getData {submission : SnapshotSubmission PVStructure}
    {op' : BackTimedBufferedSnapshotOpInfo} (hwell : op.processingBuffer.WellFormed)
    (h : op.getData = (.ok submission, op')) : ∀ entry ∈ op.processingBuffer.entries,
      hasFields op.cmd.pvFieldFilterList entry.event = true := by
  intro entry hentry
  by_cases hnone : op.cmd.pvFieldFilterList = []
  · rw [hasFields, hnone]
    cases entry.event.channelData.data <;> rfl
  · have hpos : op.cmd.pvFieldFilterList.length > 0 := List.length_pos_iff.2 hnone
    cases hevents : op.fetchEvents with
    | error failure => simp [getData, hevents] at h
    | ok events =>
        rw [fetchEvents, if_pos hpos] at hevents
        obtain ⟨kept, hkept⟩ :=
          TimeWindowEventBuffer.fetchMapWindow_eq_ok hwell hevents entry hentry
        exact hasFields_of_filterEvent hkept

end BackTimedBufferedSnapshotOpInfo

/-! ## The buffers along a run -/

/-- Between two swaps the acquiring buffer holds these arrivals. -/
structure Holds (cmd : RepeatingSnapshotCommand) (run : BackTimedRun)
    (batches : List (List Arrival)) (held : List Arrival) : Prop where
  cmd_eq : run.op.cmd = cmd
  acquiring : run.op.acquiringBuffer.WellFormed
  processing : run.op.processingBuffer.WellFormed
  acquiringWindow : run.op.acquiringBuffer.windowMs = cmd.timeWindowMsec
  processingWindow : run.op.processingBuffer.windowMs = cmd.timeWindowMsec
  entries : run.op.acquiringBuffer.entries = held.map Arrival.entry
  empty : run.op.processingBuffer.entries = []
  recent : ∀ arrival ∈ held, arrival ∈ sinceSwap run.history
  forgotten : ∀ arrival ∈ sinceSwap run.history, arrival ∉ held →
    run.clock - arrival.time > cmd.timeWindowMsec * SnapshotOpInfo.nanosecondsPerMsec
  ordered : (batches.flatten ++ held).Sublist (arrivals run.history)
  numbers : (arrivals run.history).map Arrival.number = List.range (arrivals run.history).length

/-- What every run keeps whose swaps find the fields. -/
def Lasting (cmd : RepeatingSnapshotCommand) (run : BackTimedRun) : Prop :=
  ∃ batches, Lossless cmd run.history batches ∧
    (run.terminated = false → ∃ held, Holds cmd run batches held)

namespace Holds

variable {batches : List (List Arrival)} {held : List Arrival}

theorem start (cmd : RepeatingSnapshotCommand) (pvs : List String) (now : Int) :
    Holds cmd (.start cmd pvs now) [] [] where
  cmd_eq := rfl
  acquiring := TimeWindowEventBuffer.wellFormed_make (by decide) (by decide)
  processing := TimeWindowEventBuffer.wellFormed_make (by decide) (by decide)
  acquiringWindow := rfl
  processingWindow := rfl
  entries := rfl
  empty := rfl
  recent := by simp
  forgotten := by simp [BackTimedRun.start, sinceSwap]
  ordered := .slnil
  numbers := rfl

theorem nodup (h : Holds cmd run batches held) :
    ((arrivals run.history).map Arrival.number).Nodup := by
  rw [h.numbers]
  exact List.nodup_range

/-- A step that leaves the buffers and the history, and does not turn back the clock. -/
theorem congr (h : Holds cmd run batches held) (hcmd : run'.op.cmd = run.op.cmd)
    (hacquiring : run'.op.acquiringBuffer = run.op.acquiringBuffer)
    (hprocessing : run'.op.processingBuffer = run.op.processingBuffer)
    (hhistory : run'.history = run.history) (hclock : run.clock ≤ run'.clock) :
    Holds cmd run' batches held where
  cmd_eq := hcmd.trans h.cmd_eq
  acquiring := hacquiring ▸ h.acquiring
  processing := hprocessing ▸ h.processing
  acquiringWindow := hacquiring ▸ h.acquiringWindow
  processingWindow := hprocessing ▸ h.processingWindow
  entries := hacquiring ▸ h.entries
  empty := hprocessing ▸ h.empty
  recent := hhistory ▸ h.recent
  forgotten := by
    rw [hhistory]
    intro arrival harrival hnot
    exact lt_of_lt_of_le (h.forgotten arrival harrival hnot) (Int.sub_le_sub_right hclock _)
  ordered := hhistory ▸ h.ordered
  numbers := hhistory ▸ h.numbers

/-- An arrival that is still in the window at a swap is held. -/
theorem mem_of_inWindow (h : Holds cmd run batches held) (hclock : run.clock ≤ now)
    {arrival : Arrival} (harrival : arrival ∈ sinceSwap run.history)
    (hage : now - arrival.time ≤ cmd.timeWindowMsec * SnapshotOpInfo.nanosecondsPerMsec) :
    arrival ∈ held := by
  by_contra hnot
  have := h.forgotten arrival harrival hnot
  omega

/-- `push` forgets the arrivals that are old by then. -/
theorem push (h : Holds cmd run batches held) (event : MonitorEvent PVStructure)
    (hclock : run.clock ≤ now) :
    Holds cmd { run with
      op := run.op.addData event now
      clock := now
      history := run.history ++ [.arrival ⟨(arrivals run.history).length, event, now⟩] }
      batches
      (held.dropWhile (fun arrival => isOld cmd.timeWindowMsec now arrival.entry) ++
        [⟨(arrivals run.history).length, event, now⟩]) where
  cmd_eq := h.cmd_eq
  acquiring := TimeWindowEventBuffer.wellFormed_push h.acquiring
  processing := h.processing
  acquiringWindow := (TimeWindowEventBuffer.windowMs_push h.acquiring).trans h.acquiringWindow
  processingWindow := h.processingWindow
  entries := by
    have hpush : (run.op.acquiringBuffer.push event now).entries = _ :=
      TimeWindowEventBuffer.entries_push h.acquiring
    rw [h.entries, h.acquiringWindow, List.dropWhile_map] at hpush
    rw [List.map_append]
    exact hpush
  empty := h.empty
  recent := by
    rw [sinceSwap_arrival]
    intro arrival harrival
    rcases List.mem_append.1 harrival with hold | hnew
    · exact List.mem_append_left _ (h.recent arrival ((List.dropWhile_sublist _).subset hold))
    · exact List.mem_append_right _ hnew
  forgotten := by
    rw [sinceSwap_arrival]
    intro arrival harrival hnot
    rw [List.mem_append, not_or] at hnot
    rcases List.mem_append.1 harrival with hsince | hnew
    · by_cases hheld : arrival ∈ held
      · -- it was dropped by this very push
        rw [← List.takeWhile_append_dropWhile
          (p := fun arrival => isOld cmd.timeWindowMsec now arrival.entry) (l := held)] at hheld
        have htaken := (List.mem_append.1 hheld).resolve_right hnot.1
        have hisOld : isOld cmd.timeWindowMsec now arrival.entry = true :=
          List.mem_takeWhile_imp (p := fun arrival : Arrival =>
            isOld cmd.timeWindowMsec now arrival.entry) htaken
        exact of_decide_eq_true hisOld
      · have := h.forgotten arrival hsince hheld
        exact lt_of_lt_of_le this (Int.sub_le_sub_right hclock _)
    · exact absurd hnew hnot.2
  ordered := by
    rw [arrivals_arrival, ← List.append_assoc]
    apply List.Sublist.append _ (List.Sublist.refl _)
    exact (List.Sublist.append_left (List.dropWhile_sublist _) _).trans h.ordered
  numbers := by
    rw [arrivals_arrival, List.map_append, h.numbers, List.length_append, List.length_singleton,
      List.range_succ]
    rfl

end Holds

/-! ## The rounds of the checker -/

/-- A round that does not swap. -/
theorem checkerRound_idle (h : run.op.due now = false) :
    (run.checkerRound now).history = run.history ∧
      (run.checkerRound now).terminated = run.terminated ∧
      (run.checkerRound now).clock = now ∧ (run.checkerRound now).op.cmd = run.op.cmd ∧
      (run.checkerRound now).op.acquiringBuffer = run.op.acquiringBuffer ∧
      (run.checkerRound now).op.processingBuffer = run.op.processingBuffer := by
  obtain ⟨htimeout, hcmd, hacquiring, hprocessing⟩ := run.op.isTimeout_spec now
  have hround : run.checkerRound now =
      { run with op := (run.op.isTimeout now).2, clock := now } := by
    simp [BackTimedRun.checkerRound, htimeout, h]
  rw [h] at hacquiring hprocessing
  rw [hround]
  exact ⟨rfl, rfl, rfl, hcmd, hacquiring, hprocessing⟩

namespace Holds

variable {batches : List (List Arrival)} {held : List Arrival}

/-- A swap whose events have the fields submits what is held. The buffers change their places, and
what was read is reset. -/
theorem round_submits (h : Holds cmd run batches held) (hdue : run.op.due now = true)
    (hfields : ∀ entry ∈ run.op.acquiringBuffer.entries,
      hasFields run.op.cmd.pvFieldFilterList entry.event = true) :
    ∃ submission pvs, Submits cmd.pvFieldFilterList (.ok submission) held ∧
      (run.checkerRound now).history = run.history ++ [.swap now (.ok submission) pvs] ∧
      (run.checkerRound now).op.cmd = cmd ∧
      (run.checkerRound now).op.acquiringBuffer = run.op.processingBuffer ∧
      (run.checkerRound now).op.processingBuffer = run.op.acquiringBuffer.reset := by
  obtain ⟨htimeout, hcmd, hacquiring, hprocessing⟩ := run.op.isTimeout_spec now
  rw [hdue] at htimeout hacquiring hprocessing
  simp only [if_true] at hacquiring hprocessing
  have hentries : (run.op.isTimeout now).2.processingBuffer.entries = held.map Arrival.entry :=
    hprocessing ▸ h.entries
  obtain ⟨submission, op', hdata, hsubmits, hcmd', hacquiring', hprocessing'⟩ :=
    BackTimedBufferedSnapshotOpInfo.getData_ok (hprocessing ▸ h.acquiring) hentries
      (by rwa [hprocessing, hcmd])
  have hround : run.checkerRound now =
      { run with
        op := op'.getPVsWithoutEvents.2
        clock := now
        history := run.history ++ [.swap now (.ok submission) op'.getPVsWithoutEvents.1] } := by
    simp [BackTimedRun.checkerRound, htimeout, hdata]
  rw [hcmd, h.cmd_eq] at hsubmits
  have hpvs : op'.getPVsWithoutEvents.2.cmd = op'.cmd ∧
      op'.getPVsWithoutEvents.2.acquiringBuffer = op'.acquiringBuffer ∧
      op'.getPVsWithoutEvents.2.processingBuffer = op'.processingBuffer := by
    rw [BackTimedBufferedSnapshotOpInfo.getPVsWithoutEvents]
    split <;> exact ⟨rfl, rfl, rfl⟩
  obtain ⟨hpvsCmd, hpvsAcquiring, hpvsProcessing⟩ := hpvs
  refine ⟨submission, op'.getPVsWithoutEvents.1, hsubmits, ?_⟩
  rw [hround]
  refine ⟨rfl, hpvsCmd.trans (hcmd'.trans (hcmd.trans h.cmd_eq)),
    hpvsAcquiring.trans (hacquiring'.trans hacquiring), ?_⟩
  rw [hpvsProcessing, hprocessing', hprocessing]

/-- Nothing is held after such a swap. -/
theorem round_ok (h : Holds cmd run batches held) (hlossless : Lossless cmd run.history batches)
    (hdue : run.op.due now = true) (hclock : run.clock ≤ now)
    (hfields : ∀ entry ∈ run.op.acquiringBuffer.entries,
      hasFields run.op.cmd.pvFieldFilterList entry.event = true) :
    Lossless cmd (run.checkerRound now).history (batches ++ [held]) ∧
      Holds cmd (run.checkerRound now) (batches ++ [held]) [] := by
  obtain ⟨submission, pvs, hsubmits, hhistory, hcmd, hacquiring, hprocessing⟩ :=
    h.round_submits hdue hfields
  have hordered : (batches.flatten ++ held).Sublist (arrivals run.history) := h.ordered
  constructor
  · rw [hhistory]
    exact hlossless.swap hsubmits hordered h.nodup fun arrival harrival hage =>
      h.mem_of_inWindow hclock harrival hage
  · exact {
      cmd_eq := hcmd
      acquiring := hacquiring ▸ h.processing
      processing := hprocessing ▸ TimeWindowEventBuffer.wellFormed_reset h.acquiring
      acquiringWindow := hacquiring ▸ h.processingWindow
      processingWindow := hprocessing ▸ h.acquiringWindow
      entries := hacquiring ▸ h.empty
      empty := hprocessing ▸ TimeWindowEventBuffer.entries_reset
      recent := by simp
      forgotten := by rw [hhistory]; simp
      ordered := by rw [hhistory]; simpa using hordered
      numbers := by rw [hhistory]; simpa using h.numbers }

/-- A swap with an event that lacks a field throws, and the process ends. -/
theorem round_error (h : Holds cmd run batches held) (hdue : run.op.due now = true)
    (hfields : ¬ ∀ entry ∈ run.op.acquiringBuffer.entries,
      hasFields run.op.cmd.pvFieldFilterList entry.event = true) :
    (run.checkerRound now).terminated = true ∧
      ∃ failure, (run.checkerRound now).history =
        run.history ++ [.swap now (.error failure) []] := by
  obtain ⟨htimeout, hcmd, -, hprocessing⟩ := run.op.isTimeout_spec now
  rw [hdue] at htimeout hprocessing
  simp only [if_true] at hprocessing
  cases hdata : (run.op.isTimeout now).2.getData with
  | mk result op' =>
      cases result with
      | ok submission =>
          have := BackTimedBufferedSnapshotOpInfo.hasFields_of_getData (hprocessing ▸ h.acquiring)
            hdata
          rw [hprocessing, hcmd] at this
          exact absurd this hfields
      | error failure =>
          simp [BackTimedRun.checkerRound, htimeout, hdata]

end Holds

/-! ## The steps -/

/-- What a step makes of a run that goes on. -/
inductive BackTimedTransition (run : BackTimedRun) : BackTimedStep → BackTimedRun → Prop where
  | addData (event : MonitorEvent PVStructure) (now : Int) (later : run.clock ≤ now) :
      BackTimedTransition run (.addData event now)
        { run with
          op := run.op.addData event now
          clock := now
          history := run.history ++ [.arrival ⟨(arrivals run.history).length, event, now⟩] }
  | checkerRound (now : Int) (later : run.clock ≤ now) :
      BackTimedTransition run (.checkerRound now) (run.checkerRound now)
  | trigger : BackTimedTransition run .trigger
      { run with op := { run.op with requestToTrigger := true } }
  | stop : BackTimedTransition run .stop { run with op := { run.op with isRunning := false } }

theorem BackTimedRun.transition_of_next {run run' : BackTimedRun} {step : BackTimedStep}
    (hnext : run.next step = some run') :
    run.terminated = false ∧ BackTimedTransition run step run' := by
  rw [BackTimedRun.next.eq_def] at hnext
  obtain ⟨hrunning, hstep⟩ := Option.ite_none_left_eq_some.mp hnext
  refine ⟨Bool.eq_false_of_not_eq_true hrunning, ?_⟩
  cases step with
  | addData event now =>
      obtain ⟨hclock, heq⟩ := Option.ite_none_left_eq_some.mp hstep
      obtain rfl := Option.some.inj heq
      exact .addData event now (not_lt.mp hclock)
  | checkerRound now =>
      obtain ⟨hclock, heq⟩ := Option.ite_none_left_eq_some.mp hstep
      obtain rfl := Option.some.inj heq
      exact .checkerRound now (not_lt.mp hclock)
  | trigger =>
      obtain rfl := Option.some.inj hstep
      exact .trigger
  | stop =>
      obtain rfl := Option.some.inj hstep
      exact .stop

namespace Lasting

theorem start (cmd : RepeatingSnapshotCommand) (pvs : List String) (now : Int) :
    Lasting cmd (.start cmd pvs now) :=
  ⟨[], Lossless.start cmd, fun _ => ⟨[], Holds.start cmd pvs now⟩⟩

/-- A swap that throws when all that is held is old by then. -/
theorem swap_error {batches : List (List Arrival)} {held : List Arrival} {failure : Failure}
    {pvs : List String} (h : Holds cmd run batches held)
    (hlossless : Lossless cmd run.history batches) (hclock : run.clock ≤ now)
    (hold : ∀ entry ∈ run.op.acquiringBuffer.entries,
      isOld run.op.cmd.timeWindowMsec now entry = true) :
    Lossless cmd (run.history ++ [.swap now (.error failure) pvs]) (batches ++ [[]]) := by
  have hsubmits : Submits cmd.pvFieldFilterList (.error failure) [] := rfl
  apply hlossless.swap hsubmits
  · simpa using hlossless.ordered
  · exact h.nodup
  · intro arrival harrival hage
    have hheld := h.mem_of_inWindow hclock harrival hage
    have hisOld := hold arrival.entry (by rw [h.entries]; exact List.mem_map_of_mem hheld)
    rw [h.cmd_eq] at hisOld
    exact absurd hage (not_le.2 (of_decide_eq_true hisOld))

/-- The round of the checker keeps the property just if the fields fit. -/
theorem round {batches : List (List Arrival)} {held : List Arrival}
    (h : Holds cmd run batches held) (hlossless : Lossless cmd run.history batches)
    (hclock : run.clock ≤ now) :
    (run.FieldsFit (.checkerRound now) → Lasting cmd (run.checkerRound now)) ∧
      (¬ run.FieldsFit (.checkerRound now) →
        ¬ ∃ batches, Lossless cmd (run.checkerRound now).history batches) := by
  cases hdue : run.op.due now with
  | false =>
      obtain ⟨hhistory, hterminated, hnow, hcmd, hacquiring, hprocessing⟩ :=
        checkerRound_idle hdue
      refine ⟨fun _ => ⟨batches, hhistory ▸ hlossless, fun _ => ⟨held, ?_⟩⟩, fun hnot => ?_⟩
      · exact h.congr hcmd hacquiring hprocessing hhistory (hclock.trans hnow.ge)
      · exact absurd (fun hdue' => by simp [hdue] at hdue') hnot
  | true =>
      by_cases hfields : ∀ entry ∈ run.op.acquiringBuffer.entries,
          hasFields run.op.cmd.pvFieldFilterList entry.event = true
      · obtain ⟨hnew, hholds⟩ := h.round_ok hlossless hdue hclock hfields
        exact ⟨fun _ => ⟨_, hnew, fun _ => ⟨[], hholds⟩⟩,
          fun hnot => absurd (fun _ => .inl hfields) hnot⟩
      · obtain ⟨hterminated, failure, hhistory⟩ := h.round_error hdue hfields
        constructor
        · intro hfit
          have hold := (hfit hdue).resolve_left hfields
          refine ⟨batches ++ [[]], ?_, fun hrunning' => ?_⟩
          · rw [hhistory]
            exact swap_error h hlossless hclock hold
          · rw [hterminated] at hrunning'
            cases hrunning'
        · rintro hnot ⟨others, hothers⟩
          rw [hhistory] at hothers
          apply hnot
          intro _
          right
          intro entry hentry
          rw [h.entries] at hentry
          obtain ⟨arrival, harrival, rfl⟩ := List.mem_map.1 hentry
          have hage := hothers.none_of_error arrival (h.recent arrival harrival)
          rw [h.cmd_eq]
          exact decide_eq_true (not_le.1 hage)

/-- A step keeps the property just if its fields fit. -/
theorem step {step : BackTimedStep} (h : Lasting cmd run) (hnext : run.next step = some run') :
    (run.FieldsFit step → Lasting cmd run') ∧
      (¬ run.FieldsFit step → ¬ ∃ batches, Lossless cmd run'.history batches) := by
  obtain ⟨batches, hlossless, hholds⟩ := h
  obtain ⟨hrunning, htransition⟩ := BackTimedRun.transition_of_next hnext
  obtain ⟨held, hheld⟩ := hholds hrunning
  cases htransition with
  | addData event _ later =>
      refine ⟨fun _ => ?_, fun hnot => absurd trivial hnot⟩
      exact ⟨batches, hlossless.arrival _, fun _ => ⟨_, hheld.push event later⟩⟩
  | checkerRound _ later => exact round hheld hlossless later
  | trigger | stop =>
      refine ⟨fun _ => ?_, fun hnot => absurd trivial hnot⟩
      exact ⟨batches, hlossless, fun _ => ⟨held, hheld.congr rfl rfl rfl rfl le_rfl⟩⟩

end Lasting

/-- A run loses no event of the window, and submits none twice or out of order, just if each of its
swaps finds the filtered fields or only events that are too old. -/
theorem BackTimedRun.lossless_iff (cmd : RepeatingSnapshotCommand) (pvs : List String)
    (begin : Int) {steps : List BackTimedStep} {run : BackTimedRun}
    (h : AnyRun BackTimedRun.next (.start cmd pvs begin) steps run) :
    Always BackTimedRun.next (.start cmd pvs begin) steps
        (fun run => ∃ batches, Lossless cmd run.history batches) ↔
      Run BackTimedRun.next BackTimedRun.FieldsFit (.start cmd pvs begin) steps run := by
  apply Run.always_iff (I := Lasting cmd) (Lasting.start cmd pvs begin) _ _ h
  · rintro run ⟨batches, hlossless, -⟩
    exact ⟨batches, hlossless⟩
  · intro run step run' hlasting hnext
    exact hlasting.step hnext

/-- A snapshot of one second, with the field that it takes from the PV. -/
private def filtered (field : String) : RepeatingSnapshotCommand where
  replyTopic := "replies"
  replyId := "1"
  snapshotName := "orbit"
  pvNameList := ["pva://orbit:x"]
  timeWindowMsec := 1000
  type := .timedBuffered
  pvFieldFilterList := [field]
  pvFieldFilterList_nodup := List.nodup_singleton field

/-- An event half a second after the start, and the round that ends the window. -/
private def eventAndRound : List BackTimedStep :=
  [.addData ⟨.data, "", ⟨"orbit:x", some [("value", .scalar .pvString "1.5")]⟩⟩ 500000000,
    .checkerRound 1000000001]

theorem BackTimedRun.lossless_iff_value :
    Always BackTimedRun.next (.start (filtered "value") ["orbit:x"] 0) eventAndRound
      (fun run => ∃ batches, Lossless (filtered "value") run.history batches) := by
  obtain ⟨run, hrun, -⟩ := exists_run BackTimedRun.next BackTimedRun.FieldsFit
    (.start (filtered "value") ["orbit:x"] 0) eventAndRound (fun _ => true) (by decide +kernel)
  exact (BackTimedRun.lossless_iff (filtered "value") ["orbit:x"] 0 hrun.any).2 hrun

/-- The last swap threw, and an event that came before it was in the window. -/
private def lostEvent (run : BackTimedRun) : Bool :=
  match run.history with
  | [.arrival arrival, .swap now (.error _) _] =>
    decide (now - arrival.time ≤ 1000 * SnapshotOpInfo.nanosecondsPerMsec)
  | _ => false

/-- An event without the filtered field is lost. -/
theorem BackTimedRun.not_lossless_alarm :
    ¬ ∀ (cmd : RepeatingSnapshotCommand) (pvs : List String) (begin : Int)
      (steps : List BackTimedStep) (run : BackTimedRun),
      AnyRun BackTimedRun.next (.start cmd pvs begin) steps run →
        ∃ batches, Lossless cmd run.history batches := by
  intro hall
  obtain ⟨run, hrun, hcheck⟩ := exists_run BackTimedRun.next (fun _ _ => True)
    (.start (filtered "alarm") ["orbit:x"] 0) eventAndRound lostEvent (by decide +kernel)
  obtain ⟨batches, hlossless⟩ := hall _ _ _ _ run hrun
  rw [lostEvent] at hcheck
  split at hcheck
  · rename_i arrival now failure pvs hhistory
    have hsplit : run.history = [.arrival arrival] ++ [.swap now (.error failure) pvs] := hhistory
    rw [hsplit] at hlossless
    exact hlossless.none_of_error arrival (by simp [sinceSwap]) (of_decide_eq_true hcheck)
  · cases hcheck

end K2eg
