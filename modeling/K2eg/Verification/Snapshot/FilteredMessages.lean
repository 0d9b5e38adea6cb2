import K2eg.Verification.Snapshot.LastEvents
import K2eg.Verification.Snapshot.Lossless

/-! # What a filtered snapshot publishes

A buffered snapshot submits the listed fields of an event, where the event has them all; else its
`getData` throws. A normal snapshot does not filter: it submits its events as they are. -/

namespace K2eg

open Interleaving History

variable {cmd : RepeatingSnapshotCommand} {pvs fields : List String}
  {event message : MonitorEvent PVStructure} {src shown : PVStructure}

/-- The Data message of the submitted event has just the listed fields of the event, with their
types and values. -/
def ShowsListed (fields : List String) (event message : MonitorEvent PVStructure) : Prop :=
  message.channelData.pvName = event.channelData.pvName ∧
    match event.channelData.data, message.channelData.data with
    | none, none => True
    | some src, some shown => ∀ name field,
        shown.lookup name = some field ↔ name ∈ fields ∧ src.lookup name = some field
    | _, _ => False

/-- The event has no field that is not listed. -/
def onlyListed (fields : List String) (event : MonitorEvent PVStructure) : Bool :=
  match event.channelData.data with
  | none => true
  | some src => src.all fun entry => fields.contains entry.1

/-- `getData` of a buffered snapshot returns, and its messages show the listed fields of events
that came since the swap before. -/
def SubmitsListed (fields : List String) (past : List BackTimedRecord) : BackTimedRecord → Prop
  | .arrival _ => True
  | .swap _ result _ => ∃ (submission : SnapshotSubmission PVStructure) (batch : List Arrival),
      result = .ok submission ∧
      (∀ arrival ∈ batch, arrival ∈ sinceSwap past) ∧
      List.Forall₂ (ShowsListed fields) (batch.map Arrival.event) submission.snapshotEvents

/-- The messages of a normal snapshot show the listed fields of events that were delivered. -/
def CollectsListed (fields : List String) (past : List (RepeatingRecord PVStructure)) :
    RepeatingRecord PVStructure → Prop
  | .submitted submission => ∃ batch, (∀ event ∈ batch, .delivered event ∈ past) ∧
      List.Forall₂ (ShowsListed fields) batch submission.snapshotEvents
  | _ => True

/-- A round that swaps the buffers finds the listed fields in all events that the acquiring buffer
holds. -/
def BackTimedRun.ListedPresent (run : BackTimedRun) : BackTimedStep → Prop
  | .checkerRound now => run.op.due now = true → ∀ entry ∈ run.op.acquiringBuffer.entries,
      hasFields run.op.cmd.pvFieldFilterList entry.event = true
  | _ => True

instance (run : BackTimedRun) : (step : BackTimedStep) → Decidable (run.ListedPresent step)
  | .checkerRound now => inferInstanceAs (Decidable (run.op.due now = true →
      ∀ entry ∈ run.op.acquiringBuffer.entries,
        hasFields run.op.cmd.pvFieldFilterList entry.event = true))
  | .addData .. | .trigger | .stop => inferInstanceAs (Decidable True)

/-- When `getData` returns, no event in a cell has a field that is not listed. -/
def RepeatingRun.NoneUnlisted (fields : List String) (run : RepeatingRun PVStructure) :
    RepeatingStep PVStructure → Prop
  | .roundResume => ∀ cell ∈ run.op.elementData, ∀ event ∈ cell.2, onlyListed fields event = true
  | _ => True

instance (fields : List String) (run : RepeatingRun PVStructure) :
    (step : RepeatingStep PVStructure) → Decidable (run.NoneUnlisted fields step)
  | .roundResume => inferInstanceAs (Decidable (∀ cell ∈ run.op.elementData,
      ∀ event ∈ cell.2, onlyListed fields event = true))
  | .deliverLock .. | .deliverLoad _ | .deliverStore _ | .deliverUnlock _ | .roundLock _
  | .roundTimeout | .roundStop | .roundLoad | .roundUnlock | .trigger | .stop =>
    inferInstanceAs (Decidable True)

/-! ## The fields that the filter leaves -/

/-- The loop that copies the values leaves in the listed fields those of the event. -/
theorem copyFields_lookup {filtered result : PVStructure}
    (hvalid : ∀ name ∈ fields, validFieldName name = true)
    (hnames : ∀ name ∈ fields, (filtered.lookup name).isSome)
    (h : copyFields src fields filtered = .ok result) (name : String) :
    result.lookup name = if name ∈ fields then src.lookup name else filtered.lookup name := by
  induction fields generalizing filtered with
  | nil =>
      obtain rfl := Except.ok.inj h
      simp
  | cons first rest ih =>
      have hfirst := hvalid first List.mem_cons_self
      obtain ⟨value, hvalue, h⟩ := Failure.bind_eq_ok.1 h
      rw [getSubFieldT_eq_ok, getSubField_of_valid hfirst] at hvalue
      obtain ⟨old, hold⟩ := Option.isSome_iff_exists.1 (hnames first List.mem_cons_self)
      rw [getSubField_of_valid hfirst, hold] at h
      have hself : (PVField.copyTo first value filtered).lookup first = some value :=
        lookup_copyTo_self value (by rw [hold]; rfl)
      have hothers : ∀ other ∈ rest,
          ((PVField.copyTo first value filtered).lookup other).isSome := by
        intro other hother
        by_cases heq : other = first
        · rw [heq, hself]
          rfl
        · rw [lookup_copyTo_of_ne heq]
          exact hnames other (List.mem_cons_of_mem _ hother)
      have hlast := ih (fun other hother => hvalid other (List.mem_cons_of_mem _ hother)) hothers h
      rw [hlast]
      by_cases hrest : name ∈ rest
      · rw [if_pos hrest, if_pos (List.mem_cons_of_mem _ hrest)]
      · rw [if_neg hrest]
        by_cases heq : name = first
        · rw [heq, hself, if_pos List.mem_cons_self, hvalue]
        · rw [lookup_copyTo_of_ne heq, if_neg (by simp [heq, hrest])]

/-- A filtered structure has just the listed fields. -/
theorem filterPVField_lookup (h : filterPVField (some src) fields = .ok (some shown))
    (name : String) : shown.lookup name = if name ∈ fields then src.lookup name else none := by
  rw [filterPVField.eq_def] at h
  obtain ⟨type, htype, h⟩ := Failure.bind_eq_ok.1 h
  obtain ⟨filtered, hfiltered, h⟩ := Failure.bind_eq_ok.1 h
  obtain rfl : filtered = shown := Option.some.inj (Except.ok.inj h)
  obtain ⟨added, hadded, hcreated⟩ := Failure.bind_eq_ok.1 htype
  obtain ⟨hnames, -⟩ := addFields_eq_ok hadded
  obtain ⟨rfl, hvalid, -⟩ := createStructure_eq_ok.1 hcreated
  rw [hnames] at hvalid
  have hmade (other : String) : ((FieldType.createPVStructure added).lookup other).isSome ↔
      other ∈ fields := by
    rw [lookup_createPVStructure, Option.isSome_map, lookup_isSome_iff, hnames]
  rw [copyFields_lookup hvalid (fun other hother => (hmade other).2 hother) hfiltered name]
  by_cases hmem : name ∈ fields
  · rw [if_pos hmem, if_pos hmem]
  · rw [if_neg hmem, if_neg hmem]
    exact Option.not_isSome_iff_eq_none.1 fun hsome => hmem ((hmade name).1 hsome)

/-- What the filter makes of an event shows its listed fields. -/
theorem showsListed_of_filterEvent (h : filterEvent fields event = .ok (some message)) :
    ShowsListed fields event message := by
  obtain ⟨data, hdata, h⟩ := Failure.bind_eq_ok.1 h
  obtain rfl := Option.some.inj (Except.ok.inj h)
  refine ⟨rfl, ?_⟩
  cases hsrc : event.channelData.data with
  | none =>
      rw [hsrc] at hdata
      obtain rfl : none = data := Except.ok.inj hdata
      trivial
  | some src =>
      rw [hsrc] at hdata
      cases data with
      | none =>
          rw [filterPVField.eq_def] at hdata
          obtain ⟨type, -, hdata⟩ := Failure.bind_eq_ok.1 hdata
          obtain ⟨filtered, -, hdata⟩ := Failure.bind_eq_ok.1 hdata
          exact absurd (Except.ok.inj hdata) (Option.some_ne_none _)
      | some shown =>
          intro name field
          rw [filterPVField_lookup hdata name]
          by_cases hmem : name ∈ fields
          · simp [hmem]
          · simp [hmem]

/-- An event shows its own listed fields where it has no others. -/
theorem onlyListed_of_showsListed (h : ShowsListed fields event message) :
    onlyListed fields message = true := by
  obtain ⟨-, h⟩ := h
  rw [onlyListed]
  cases hshown : message.channelData.data with
  | none => rfl
  | some shown =>
      cases hsrc : event.channelData.data with
      | none => simp [hsrc, hshown] at h
      | some src =>
          simp only [hsrc, hshown] at h
          rw [List.all_eq_true]
          intro entry hentry
          have hsome : (shown.lookup entry.1).isSome := by
            rw [← Option.ne_none_iff_isSome, ne_eq, List.lookup_eq_none_iff]
            exact fun hnone => absurd (hnone entry hentry) (by simp)
          obtain ⟨field, hfield⟩ := Option.isSome_iff_exists.1 hsome
          rw [List.contains_iff_mem]
          exact ((h entry.1 field).1 hfield).1

theorem showsListed_self (h : onlyListed fields event = true) : ShowsListed fields event event := by
  refine ⟨rfl, ?_⟩
  rw [onlyListed] at h
  cases hsrc : event.channelData.data with
  | none => trivial
  | some src =>
      simp only [hsrc, List.all_eq_true, List.contains_iff_mem] at h
      intro name field
      refine ⟨fun hfield => ⟨?_, hfield⟩, And.right⟩
      obtain ⟨front, back, hsplit, -⟩ := List.lookup_eq_some_iff.1 hfield
      exact h (name, field) (by simp [hsplit])

/-! ## Buffered snapshots -/

/-- What every run keeps whose swaps find the listed fields. -/
def ListedSoFar (cmd : RepeatingSnapshotCommand) (run : BackTimedRun) : Prop :=
  Throughout (SubmitsListed cmd.pvFieldFilterList) run.history ∧ (run.terminated = false →
    ∃ batches held, Lossless cmd run.history batches ∧ Holds cmd run batches held)

namespace ListedSoFar

variable {run run' : BackTimedRun} {now : Int}

/-- A swap whose events have the listed fields submits them. -/
theorem submitsListed {batches : List (List Arrival)} {held : List Arrival}
    {submission : SnapshotSubmission PVStructure} (hfilter : cmd.pvFieldFilterList ≠ [])
    (h : Holds cmd run batches held)
    (hsubmits : Submits cmd.pvFieldFilterList (.ok submission) held)
    (nonUpdatedPvs : List String) :
    SubmitsListed cmd.pvFieldFilterList run.history
      (.swap now (.ok submission) nonUpdatedPvs) := by
  refine ⟨submission, held, rfl, h.recent, ?_⟩
  rw [List.forall₂_map_left_iff]
  refine List.Forall₂.imp (fun arrival shown hshows => ?_) hsubmits
  rw [Shows, if_neg hfilter] at hshows
  exact showsListed_of_filterEvent hshows

theorem start (cmd : RepeatingSnapshotCommand) (pvs : List String) (now : Int) :
    ListedSoFar cmd (.start cmd pvs now) :=
  ⟨.nil, fun _ => ⟨[], [], Lossless.start cmd, Holds.start cmd pvs now⟩⟩

/-- The round of the checker keeps the property just if it finds the listed fields. -/
theorem round {batches : List (List Arrival)} {held : List Arrival}
    (hfilter : cmd.pvFieldFilterList ≠ [])
    (hthroughout : Throughout (SubmitsListed cmd.pvFieldFilterList) run.history)
    (hlossless : Lossless cmd run.history batches) (hheld : Holds cmd run batches held)
    (hclock : run.clock ≤ now) :
    (run.ListedPresent (.checkerRound now) → ListedSoFar cmd (run.checkerRound now)) ∧
      (¬ run.ListedPresent (.checkerRound now) →
        ¬ Throughout (SubmitsListed cmd.pvFieldFilterList) (run.checkerRound now).history) := by
  cases hdue : run.op.due now with
  | false =>
      obtain ⟨hhistory, -, hnow, hcmd, hacquiring, hprocessing⟩ := checkerRound_idle hdue
      have hclock' : run.clock ≤ (run.checkerRound now).clock := hclock.trans hnow.ge
      refine ⟨fun _ => ⟨hhistory ▸ hthroughout, fun _ => ⟨batches, held, hhistory ▸ hlossless, ?_⟩⟩,
        fun hnot => absurd (fun hdue' => ?_) hnot⟩
      · exact hheld.congr hcmd hacquiring hprocessing hhistory hclock'
      · rw [hdue] at hdue'
        cases hdue'
  | true =>
      by_cases hfields : ∀ entry ∈ run.op.acquiringBuffer.entries,
          hasFields run.op.cmd.pvFieldFilterList entry.event = true
      · refine ⟨fun _ => ⟨?_, fun _ => ?_⟩, fun hnot => absurd (fun _ => hfields) hnot⟩
        · obtain ⟨submission, nonUpdatedPvs, hsubmits, hhistory, -⟩ :=
            hheld.round_submits hdue hfields
          rw [hhistory]
          exact hthroughout.snoc (submitsListed hfilter hheld hsubmits nonUpdatedPvs)
        · exact ⟨_, _, hheld.round_ok hlossless hdue hclock hfields⟩
      · obtain ⟨-, failure, hhistory⟩ := hheld.round_error hdue hfields
        refine ⟨fun hlisted => absurd (hlisted hdue) hfields, fun _ hall => ?_⟩
        rw [hhistory] at hall
        obtain ⟨submission, batch, hresult, -⟩ := hall run.history _ [] rfl
        exact absurd hresult nofun

/-- A step keeps the property just if it finds the listed fields. -/
theorem step {step : BackTimedStep} (hfilter : cmd.pvFieldFilterList ≠ []) (h : ListedSoFar cmd run)
    (hnext : run.next step = some run') :
    (run.ListedPresent step → ListedSoFar cmd run') ∧
      (¬ run.ListedPresent step →
        ¬ Throughout (SubmitsListed cmd.pvFieldFilterList) run'.history) := by
  obtain ⟨hthroughout, hholds⟩ := h
  obtain ⟨hrunning, htransition⟩ := BackTimedRun.transition_of_next hnext
  obtain ⟨batches, held, hlossless, hheld⟩ := hholds hrunning
  cases htransition with
  | addData event _ later =>
      refine ⟨fun _ => ?_, fun hnot => absurd trivial hnot⟩
      exact ⟨hthroughout.snoc trivial,
        fun _ => ⟨_, _, hlossless.arrival _, hheld.push event later⟩⟩
  | checkerRound _ later => exact round hfilter hthroughout hlossless hheld later
  | trigger | stop =>
      refine ⟨fun _ => ?_, fun hnot => absurd trivial hnot⟩
      exact ⟨hthroughout, fun _ => ⟨_, _, hlossless, hheld.congr rfl rfl rfl rfl le_rfl⟩⟩

end ListedSoFar

/-! ## Normal snapshots -/

theorem delivered_of_lastEvent {history : List (RepeatingRecord PVStructure)} {pv : String}
    (h : lastEvent history pv = some event) : .delivered event ∈ history := by
  induction history using List.reverseRecOn with
  | nil => cases h
  | append_singleton past record ih =>
      cases record with
      | delivered other =>
          rw [lastEvent_delivered] at h
          split at h
          · obtain rfl := Option.some.inj h
            simp
          · exact List.mem_append_left _ (ih h)
      | dropped other | submitted submission =>
          simp only [lastEvent, List.foldl_append, List.foldl_cons, List.foldl_nil] at h
          exact List.mem_append_left _ (ih h)

/-- What every run keeps whose submissions find only listed fields. -/
def CollectedSoFar (pvs fields : List String) (run : RepeatingRun PVStructure) : Prop :=
  Guarded pvs run ∧ Throughout (CollectsListed fields) run.history

namespace CollectedSoFar

variable {run run' : RepeatingRun PVStructure}

/-- The events of a submission are those of the cells. -/
theorem mem_result (h : Guarded pvs run) {result : List (MonitorEvent PVStructure)}
    (hloading : run.round = .loading [] result) :
    event ∈ result ↔ ∃ cell ∈ run.op.elementData, event ∈ cell.2 := by
  obtain ⟨done, hdone, rfl⟩ := h.loaded [] result hloading
  rw [List.append_nil] at hdone
  simp [hdone, h.cells]

/-- The events of a submission are published as they are. -/
theorem collectsListed_iff (h : Guarded pvs run) {result : List (MonitorEvent PVStructure)}
    (hloading : run.round = .loading [] result) :
    CollectsListed fields run.history (.submitted (SnapshotRepeatingOpInfo.submission result)) ↔
      run.NoneUnlisted fields .roundResume := by
  constructor
  · rintro ⟨batch, -, hshows⟩ cell hcell event hevent
    have hmem : event ∈ result := (mem_result h hloading).2 ⟨cell, hcell, hevent⟩
    obtain ⟨i, hi, rfl⟩ := List.mem_iff_getElem.1 hmem
    exact onlyListed_of_showsListed
      ((List.forall₂_iff_get.1 hshows).2 i ((List.forall₂_iff_get.1 hshows).1 ▸ hi) hi)
  · intro hlisted
    refine ⟨result, fun event hevent => ?_, List.forall₂_same.2 fun event hevent => ?_⟩
    · obtain ⟨done, hdone, rfl⟩ := h.loaded [] result hloading
      obtain ⟨pv, -, hlast⟩ := List.mem_filterMap.1 hevent
      exact delivered_of_lastEvent hlast
    · obtain ⟨cell, hcell, hmem⟩ := (mem_result h hloading).1 hevent
      exact showsListed_self (hlisted cell hcell event hmem)

/-- The other steps submit nothing. -/
theorem history_next {step : RepeatingStep PVStructure} (hnext : run.next step = some run')
    (hstep : step ≠ .roundResume) : run'.history = run.history ∨
      ∃ event, run'.history = run.history ++ [.delivered event] ∨
        run'.history = run.history ++ [.dropped event] := by
  cases step with
  | roundResume => exact absurd rfl hstep
  | deliverLoad thread =>
      simp only [RepeatingRun.next] at hnext
      split at hnext
      · split at hnext <;> cases hnext
        · exact .inl rfl
        · exact .inr ⟨_, .inr rfl⟩
      · cases hnext
  | deliverStore thread =>
      simp only [RepeatingRun.next] at hnext
      split at hnext <;> cases hnext
      exact .inr ⟨_, .inl rfl⟩
  | deliverLock | deliverUnlock | roundLock | roundTimeout | roundStop | roundLoad | roundUnlock
  | trigger | stop =>
      simp only [RepeatingRun.next] at hnext
      split at hnext <;> cases hnext
      exact .inl rfl

/-- A step keeps the property just if its submission has only listed fields. -/
theorem step {step : RepeatingStep PVStructure} (h : CollectedSoFar pvs fields run)
    (hnext : run.next step = some run') :
    (run.NoneUnlisted fields step → CollectedSoFar pvs fields run') ∧
      (¬ run.NoneUnlisted fields step → ¬ Throughout (CollectsListed fields) run'.history) := by
  have hguarded := h.1.next hnext
  by_cases hstep : step = .roundResume
  · subst hstep
    simp only [RepeatingRun.next] at hnext
    split at hnext
    · rename_i result hloading
      obtain rfl := Option.some.inj hnext
      have hiff : CollectsListed fields run.history
          (.submitted (SnapshotRepeatingOpInfo.submission result)) ↔
            run.NoneUnlisted fields .roundResume :=
        collectsListed_iff h.1 hloading
      exact ⟨fun hlisted => ⟨hguarded, h.2.snoc (hiff.2 hlisted)⟩,
        fun hnot hall => hnot (hiff.1 (hall run.history _ [] rfl))⟩
    · cases hnext
  · refine ⟨fun _ => ⟨hguarded, ?_⟩, fun hnot => absurd ?_ hnot⟩
    · rcases history_next hnext hstep with hsame | ⟨event, hadd | hadd⟩
      · rw [hsame]
        exact h.2
      · rw [hadd]
        exact h.2.snoc trivial
      · rw [hadd]
        exact h.2.snoc trivial
    · cases step <;> first | exact absurd rfl hstep | trivial

end CollectedSoFar

/-- The messages of a buffered snapshot show just the listed fields, and its `getData` does not
throw, if and only if each swap finds the listed fields; those of a normal snapshot, if and only if
each submission finds no other fields. -/
theorem filtersFields_iff (timedCmd normalCmd : RepeatingSnapshotCommand) (pvs : List String)
    (created : Int) (threads : ℕ) (hfilter : timedCmd.pvFieldFilterList ≠ [])
    {steps : List BackTimedStep} {buffered : BackTimedRun}
    {normalSteps : List (RepeatingStep PVStructure)} {normal : RepeatingRun PVStructure}
    (hbuffered : AnyRun BackTimedRun.next (.start timedCmd pvs created) steps buffered)
    (hnormal : AnyRun RepeatingRun.next (.start normalCmd pvs created threads) normalSteps normal) :
    (Always BackTimedRun.next (.start timedCmd pvs created) steps
        (fun run => Throughout (SubmitsListed timedCmd.pvFieldFilterList) run.history) ↔
      Run BackTimedRun.next BackTimedRun.ListedPresent (.start timedCmd pvs created) steps
        buffered) ∧
    (Always RepeatingRun.next (.start normalCmd pvs created threads) normalSteps
        (fun run => Throughout (CollectsListed normalCmd.pvFieldFilterList) run.history) ↔
      Run RepeatingRun.next (RepeatingRun.NoneUnlisted normalCmd.pvFieldFilterList)
        (.start normalCmd pvs created threads) normalSteps normal) := by
  constructor
  · apply Run.always_iff (I := ListedSoFar timedCmd) (ListedSoFar.start timedCmd pvs created)
      _ _ hbuffered
    · exact fun run hkept => hkept.1
    · exact fun hkept hnext => hkept.step hfilter hnext
  · apply Run.always_iff (I := CollectedSoFar pvs normalCmd.pvFieldFilterList) _ _ _ hnormal
    · exact ⟨Guarded.start normalCmd pvs created threads, .nil⟩
    · exact fun run hkept => hkept.2
    · exact fun hkept hnext => hkept.step hnext

/-- A snapshot of one second that asks for one field. -/
private def filteredBy (type : SnapshotType) (field : String) : RepeatingSnapshotCommand where
  replyTopic := "replies"
  replyId := "1"
  snapshotName := "orbit"
  pvNameList := ["pva://orbit:x"]
  timeWindowMsec := 1000
  type
  pvFieldFilterList := [field]
  pvFieldFilterList_nodup := List.nodup_singleton field

/-- An event with one field. -/
private def valueEvent : MonitorEvent PVStructure :=
  ⟨.data, "", ⟨"orbit:x", some [("value", .scalar .pvString "1.5")]⟩⟩

private def bufferedSteps : List BackTimedStep :=
  [.addData valueEvent 500000000, .checkerRound 1000000001]

private def normalSteps : List (RepeatingStep PVStructure) :=
  [.deliverLock 0 [valueEvent], .deliverLoad 0, .deliverStore 0, .deliverUnlock 0,
    .roundLock 1000000001, .roundTimeout, .roundStop, .roundLoad, .roundResume]

theorem filtersFields_iff_value :
    Always BackTimedRun.next (.start (filteredBy .timedBuffered "value") ["orbit:x"] 0)
        bufferedSteps (fun run => Throughout (SubmitsListed ["value"]) run.history) ∧
      Always RepeatingRun.next (.start (filteredBy .normal "value") ["orbit:x"] 0 1)
        normalSteps (fun run => Throughout (CollectsListed ["value"]) run.history) := by
  obtain ⟨buffered, hbuffered, -⟩ := exists_run BackTimedRun.next BackTimedRun.ListedPresent
    (.start (filteredBy .timedBuffered "value") ["orbit:x"] 0) bufferedSteps (fun _ => true)
    (by decide +kernel)
  obtain ⟨normal, hnormal, -⟩ := exists_run RepeatingRun.next (RepeatingRun.NoneUnlisted ["value"])
    (.start (filteredBy .normal "value") ["orbit:x"] 0 1) normalSteps (fun _ => true)
    (by decide +kernel)
  have hiff := filtersFields_iff (filteredBy .timedBuffered "value") (filteredBy .normal "value")
    ["orbit:x"] 0 1 (List.cons_ne_nil _ _) hbuffered.any hnormal.any
  exact ⟨hiff.1.2 hbuffered, hiff.2.2 hnormal⟩

/-- The last swap threw. -/
private def swapThrew (run : BackTimedRun) : Bool :=
  match run.history with
  | [.arrival _, .swap _ (.error _) _] => true
  | _ => false

/-- A buffered snapshot of a PV that lacks a listed field throws in `getData`. -/
theorem not_filtersFields_absent :
    ¬ ∀ (cmd : RepeatingSnapshotCommand) (pvs : List String) (created : Int)
      (steps : List BackTimedStep) (run : BackTimedRun), cmd.type = .timedBuffered →
      cmd.pvFieldFilterList ≠ [] →
      AnyRun BackTimedRun.next (.start cmd pvs created) steps run →
        Throughout (SubmitsListed cmd.pvFieldFilterList) run.history := by
  intro hall
  obtain ⟨run, hrun, hcheck⟩ := exists_run BackTimedRun.next (fun _ _ => True)
    (.start (filteredBy .timedBuffered "alarm") ["orbit:x"] 0) bufferedSteps swapThrew
    (by decide +kernel)
  have hlisted := hall (filteredBy .timedBuffered "alarm") ["orbit:x"] 0 bufferedSteps run rfl
    (List.cons_ne_nil _ _) hrun
  rw [swapThrew] at hcheck
  split at hcheck
  · rename_i arrival now failure pvs hhistory
    obtain ⟨submission, batch, hresult, -⟩ := hlisted [.arrival arrival] _ [] hhistory
    exact absurd hresult nofun
  · cases hcheck

end K2eg
