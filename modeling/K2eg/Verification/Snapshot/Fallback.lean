import K2eg.Verification.Snapshot.OneShot

/-! # The fallback get of a one-shot snapshot

After the time window the last run of the task forces the update of a monitor that has had no
event, and polls it once. The poll starts the get, and harvests one that is done already, so only
the get of another consumer of the monitor can be in time. -/

namespace K2eg

open Interleaving

namespace MonitorOperationImpl

variable {V : Type*} {op : MonitorOperationImpl V}

/-- No event has been produced. -/
def Silent (op : MonitorOperationImpl V) : Prop :=
  op.queue = [] ∧ op.receivedEvent.eventData = []

/-- The value of a get that is done. -/
def fetched (op : MonitorOperationImpl V) : Option V := op.getOp.join

/-- A forced poll of a silent request: it starts a get, or harvests the one that is done. -/
def harvested (op : MonitorOperationImpl V) : MonitorOperationImpl V :=
  match op.getOp with
  | none => { op with getOp := some none, forceUpdate := true }
  | some none => { op with forceUpdate := true }
  | some (some value) => { op.pushData [value] with getOp := none, forceUpdate := false }

theorem pollQueue_silent (h : op.Silent) (elementToFetch : ℕ) :
    op.pollQueue elementToFetch = (0, op) := by
  obtain ⟨pvName, requestedFields, valid, queue, receivedEvent, getOp, forceUpdate⟩ := op
  obtain rfl : queue = [] := h.1
  simp [pollQueue, pushData]

theorem pollForced_silent (op : MonitorOperationImpl V) :
    ({ op with forceUpdate := true }.pollForced 0).2 = op.harvested := by
  rw [pollForced, harvested]
  simp only [and_self, if_true]
  cases op.getOp with
  | none => rfl
  | some get => cases get <;> rfl

/-- What has been harvested is all the data. -/
theorem harvested_eventData (h : op.Silent) :
    op.harvested.receivedEvent.eventData = op.fetched.toList.map op.dataEvent := by
  rw [harvested, fetched]
  cases op.getOp with
  | none => exact h.2
  | some get =>
      cases get with
      | none => exact h.2
      | some value => simp [pushData, h.2]

@[simp] theorem harvested_pvName (op : MonitorOperationImpl V) :
    op.harvested.pvName = op.pvName := by
  rw [harvested]
  split <;> rfl

@[simp] theorem harvested_requestedFields (op : MonitorOperationImpl V) :
    op.harvested.requestedFields = op.requestedFields := by
  rw [harvested]
  split <;> rfl

/-- No event and no forced get: a request that only the last run can force. -/
structure Unforced (op : MonitorOperationImpl V) : Prop where
  silent : op.Silent
  getOp : op.getOp = none
  forceUpdate : op.forceUpdate = false

theorem Unforced.poll (h : op.Unforced) (elementToFetch : ℕ) :
    (op.pollQueue elementToFetch).2.pollForced (op.pollQueue elementToFetch).1 =
      (op.receivedEvent.size, op) := by
  rw [pollQueue_silent h.silent, pollForced]
  simp [h.forceUpdate]

theorem Unforced.connectEvent (h : op.Unforced) (connected : Bool) :
    (op.connectEvent connected).Unforced := by
  cases connected with
  | true => exact ⟨⟨rfl, h.silent.2⟩, h.getOp, h.forceUpdate⟩
  | false => exact ⟨⟨h.silent.1, h.silent.2⟩, h.getOp, h.forceUpdate⟩

theorem Unforced.monitorEvent (h : op.Unforced) (event : EventType) (message : String) :
    (op.monitorEvent event message).Unforced := by
  cases event with
  | fail | disconnec => exact ⟨h.silent, h.getOp, h.forceUpdate⟩
  | data | timeout => exact h
  | cancel =>
      rw [MonitorOperationImpl.monitorEvent]
      split
      · exact ⟨h.silent, h.getOp, h.forceUpdate⟩
      · exact h

end MonitorOperationImpl

/-- EPICS tells the operation something other than a value of its monitor. -/
def MonitorNotice.isQuiet : MonitorNotice → Bool
  | getDone .. | connectEvent .. | monitorEvent .. => true
  | arrive .. | poll .. | getEventData => false

namespace MonitorOperation

variable {V : Type*}

/-- No event has been produced for any of the requests. -/
def Silent : MonitorOperation V → Prop
  | .impl op => op.Silent
  | .combined op => op.principal.Silent ∧ op.additional.Silent

/-- The operation after a forced poll. -/
def harvested : MonitorOperation V → MonitorOperation V
  | .impl op => .impl op.harvested
  | .combined op =>
    .combined { op with principal := op.principal.harvested, additional := op.additional.harvested }

/-- What the gets that are done have fetched. The two requests of a CA channel are merged, where
both are done or an additional event has been kept. -/
def fetched (merge : StructureMerger V) : MonitorOperation V → Option (ChannelData V)
  | .impl op => op.fetched.map fun value => ⟨op.pvName, some value⟩
  | .combined op =>
    match op.principal.fetched, op.additional.fetched, op.lastAdditional with
    | none, _, _ => none
    | some _, none, none => none
    | some value, some added, _ =>
      some ⟨op.principal.pvName, some (merge (value, op.principal.requestedFields)
        (added, op.additional.requestedFields))⟩
    | some value, none, some event =>
      some ⟨op.principal.pvName, event.channelData.data.map fun added =>
        merge (value, op.principal.requestedFields) (added, op.additional.requestedFields)⟩

theorem forceUpdate_poll {op : MonitorOperation V} (h : op.Silent) (elementToFetch : ℕ) :
    op.forceUpdate.poll elementToFetch = op.harvested := by
  cases op with
  | impl op =>
      have hsilent : MonitorOperationImpl.Silent { op with forceUpdate := true } := h
      simp only [poll, forceUpdate, onPrincipal, onAdditional, pollFrom, pollStep, principal,
        MonitorOperationImpl.pollQueue_silent hsilent, MonitorOperationImpl.pollForced_silent,
        harvested]
  | combined op =>
      have hprincipal : MonitorOperationImpl.Silent { op.principal with forceUpdate := true } :=
        h.1
      have hadditional : MonitorOperationImpl.Silent { op.additional with forceUpdate := true } :=
        h.2
      simp only [poll, forceUpdate, onPrincipal, onAdditional, pollFrom, pollStep, principal,
        MonitorOperationImpl.pollQueue_silent hprincipal,
        MonitorOperationImpl.pollQueue_silent hadditional,
        MonitorOperationImpl.pollForced_silent, harvested]

theorem hasData_harvested (merge : StructureMerger V) {op : MonitorOperation V} (h : op.Silent) :
    op.harvested.hasData = (op.fetched merge).isSome := by
  cases op with
  | impl op =>
      rw [harvested, hasData, MonitorOperationImpl.hasData,
        MonitorOperationImpl.harvested_eventData h, fetched]
      cases op.fetched <;> rfl
  | combined op =>
      simp only [harvested, hasData, CombinedMonitorOperation.hasData,
        MonitorOperationImpl.hasData, MonitorOperationImpl.harvested_eventData h.1,
        MonitorOperationImpl.harvested_eventData h.2, fetched]
      cases op.principal.fetched <;> cases op.additional.fetched <;>
        cases op.lastAdditional <;> rfl

theorem getEventData_harvested {merge : StructureMerger V} {op : MonitorOperation V}
    (h : op.Silent) {pvData : ChannelData V} (hfetched : op.fetched merge = some pvData) :
    (op.harvested.getEventData merge).1.eventData.getLast?.map (·.channelData) = some pvData := by
  cases op with
  | impl op =>
      rw [harvested, getEventData, MonitorOperationImpl.getEventData]
      simp only [MonitorOperationImpl.harvested_eventData h]
      rw [fetched] at hfetched
      cases hvalue : op.fetched with
      | none => simp [hvalue] at hfetched
      | some value =>
          rw [hvalue] at hfetched
          exact hfetched
  | combined op =>
      have hprincipal := MonitorOperationImpl.harvested_eventData h.1
      have hadditional := MonitorOperationImpl.harvested_eventData h.2
      rw [fetched] at hfetched
      cases hvalue : op.principal.fetched with
      | none => simp [hvalue] at hfetched
      | some value =>
          rw [hvalue] at hprincipal
          have hevents : op.principal.harvested.hasEvents = true := by
            simp [MonitorOperationImpl.hasEvents, EventReceived.size, hprincipal]
          have hdata : (CombinedMonitorOperation.getEventData merge
              { op with principal := op.principal.harvested
                        additional := op.additional.harvested }).1.eventData.getLast?.map
                (·.channelData) = some ⟨op.principal.pvName,
                  (CombinedMonitorOperation.refreshAdditional
                    { op with principal := op.principal.harvested.getEventData.2
                              additional := op.additional.harvested }).mergedData merge
                    (op.principal.dataEvent value)⟩ := by
            simp [CombinedMonitorOperation.getEventData, hevents,
              MonitorOperationImpl.getEventData, hprincipal, MonitorOperationImpl.dataEvent]
          apply hdata.trans
          rw [← hfetched, hvalue]
          cases hadded : op.additional.fetched with
          | some added =>
              rw [hadded] at hadditional
              simp [CombinedMonitorOperation.refreshAdditional, MonitorOperationImpl.hasData,
                MonitorOperationImpl.getEventData, hadditional,
                CombinedMonitorOperation.mergedData, MonitorOperationImpl.dataEvent]
          | none =>
              rw [hadded] at hadditional
              simp only [CombinedMonitorOperation.refreshAdditional, MonitorOperationImpl.hasData,
                hadditional]
              cases hlast : op.lastAdditional with
              | none => simp [hvalue, hadded, hlast] at hfetched
              | some event =>
                  cases hevent : event.channelData.data <;>
                    simp [CombinedMonitorOperation.mergedData, MonitorOperationImpl.dataEvent,
                      MonitorOperationImpl.getEventData, hevent]

/-- No event, no forced get and no kept additional event. -/
def Unforced : MonitorOperation V → Prop
  | .impl op => op.Unforced
  | .combined op =>
    op.principal.Unforced ∧ op.additional.Unforced ∧ op.lastAdditional = none

/-- A new operation. -/
theorem unforced_epicsChannelMonitor (provider pvName : String) :
    (epicsChannelMonitor provider pvName : MonitorOperation V).Unforced := by
  rw [epicsChannelMonitor]
  split
  · exact ⟨⟨⟨rfl, rfl⟩, rfl, rfl⟩, ⟨⟨rfl, rfl⟩, rfl, rfl⟩, rfl⟩
  · exact ⟨⟨rfl, rfl⟩, rfl, rfl⟩

theorem Unforced.silent {op : MonitorOperation V} (h : op.Unforced) : op.Silent := by
  cases op with
  | impl op => exact MonitorOperationImpl.Unforced.silent h
  | combined op => exact ⟨h.1.silent, h.2.1.silent⟩

theorem Unforced.fetched {op : MonitorOperation V} (h : op.Unforced) (merge : StructureMerger V) :
    op.fetched merge = none := by
  cases op with
  | impl op =>
      have hget : op.getOp = none := MonitorOperationImpl.Unforced.getOp h
      simp [MonitorOperation.fetched, MonitorOperationImpl.fetched, hget]
  | combined op => simp [MonitorOperation.fetched, MonitorOperationImpl.fetched, h.1.getOp]

theorem Unforced.hasData {op : MonitorOperation V} (h : op.Unforced) : op.hasData = false := by
  cases op with
  | impl op =>
      have hsilent : op.Silent := MonitorOperationImpl.Unforced.silent h
      simp [MonitorOperation.hasData, MonitorOperationImpl.hasData, hsilent.2]
  | combined op =>
      simp [MonitorOperation.hasData, CombinedMonitorOperation.hasData,
        MonitorOperationImpl.hasData, h.1.silent.2]

/-- Polls that are not forced do nothing. -/
theorem Unforced.poll {op : MonitorOperation V} (h : op.Unforced) (elementToFetch : ℕ) :
    op.poll elementToFetch = op := by
  cases op with
  | impl op =>
      have hpoll := MonitorOperationImpl.Unforced.poll h elementToFetch
      simp only [MonitorOperation.poll, onPrincipal, pollFrom, pollStep, principal, hpoll]
  | combined op =>
      have hprincipal := h.1.poll elementToFetch
      have hadditional := h.2.1.poll elementToFetch
      simp only [MonitorOperation.poll, onPrincipal, onAdditional, pollFrom, pollStep, principal,
        hprincipal, hadditional]

theorem Unforced.onRequest {op : MonitorOperation V} (h : op.Unforced) (additional : Bool)
    {f : MonitorOperationImpl V → MonitorOperationImpl V}
    (hf : ∀ request : MonitorOperationImpl V, request.Unforced → (f request).Unforced) :
    (op.onRequest additional f).Unforced := by
  cases op with
  | impl op =>
      cases additional with
      | false => exact hf op h
      | true => exact h
  | combined op =>
      cases additional with
      | false => exact ⟨hf _ h.1, h.2⟩
      | true => exact ⟨h.1, hf _ h.2.1, h.2.2⟩

theorem Unforced.notify {op : SnapshotMonitor} (h : op.Unforced)
    (merge : SnapshotMerger) {notice : MonitorNotice} (hquiet : notice.isQuiet) :
    (op.notify merge notice).Unforced := by
  cases notice with
  | arrive additional value => cases hquiet
  | poll toForce elementToFetch => cases hquiet
  | getEventData => cases hquiet
  | getDone additional value =>
      apply h.onRequest
      intro request hrequest
      refine ⟨hrequest.silent, ?_, hrequest.forceUpdate⟩
      simp [hrequest.getOp]
  | connectEvent additional connected =>
      exact h.onRequest additional fun request hrequest => hrequest.connectEvent connected
  | monitorEvent additional event message =>
      exact h.onRequest additional fun request hrequest => hrequest.monitorEvent event message

end MonitorOperation

namespace OneShotSnapshot

variable {merge : SnapshotMerger} {s t : OneShotSnapshot} {i : ℕ} {timedOut : Bool}
  {looks : ℕ → SnapshotLook} {poll : SnapshotPoll} {polls : List SnapshotPoll}
  {channelMap : String → Option SnapshotMonitor} {order : List String}
  {pvUri : String} {monOp : SnapshotMonitor}

/-- The operation with what has happened to it before a look. -/
def noticed (merge : SnapshotMerger) (look : SnapshotLook)
    (monOp : SnapshotMonitor) : SnapshotMonitor :=
  look.before.foldl (MonitorOperation.notify merge) monOp

/-- Exactly one reply with data has been sent for an index, before the completion message. -/
def Replied (s : OneShotSnapshot) (i : ℕ) (pvData : ChannelData PVStructure) : Prop :=
  ∃ earlier later, s.replies = earlier ++ .data i pvData :: later ++ [.completion] ∧
    ∀ reply ∈ earlier ++ later, reply.isData i = false ∧ reply.isCompletion = false

/-- Turns of other indices leave the operation of an index alone. -/
structure Untouched (i : ℕ) (s t : OneShotSnapshot) : Prop where
  cmd : t.cmd = s.cmd
  failure : t.failure = s.failure
  op : t.monOps[i]? = s.monOps[i]?
  processed : t.processedIndex i = s.processedIndex i
  replies : ∃ more, t.replies = s.replies ++ more ∧
    ∀ reply ∈ more, reply.isData i = false ∧ reply.isCompletion = false

theorem untouched_foldl {indices : List ℕ} (hnodup : indices.Nodup) (hnot : i ∉ indices)
    (hlook : ∀ other ∈ indices, s.lookable merge timedOut other (looks other) = true) :
    Untouched i s (indices.foldl (turn merge timedOut looks) s) := by
  apply foldl_turn (P := Untouched i s) ?_ hnodup hlook
  · exact ⟨rfl, rfl, rfl, rfl, [], (List.append_nil _).symm, nofun⟩
  · intro before after other hmem h hturned
    have hne : i ≠ other := fun heq => hnot (heq ▸ hmem)
    obtain ⟨hop, hprocessed⟩ := hturned.others i hne
    refine ⟨hturned.cmd.trans h.cmd, hturned.failure.trans h.failure, hop.trans h.op,
      hprocessed.trans h.processed, ?_⟩
    obtain ⟨more, hmore, hothers⟩ := h.replies
    rcases hturned.replies with hsame | ⟨pvData, happend, -⟩
    · exact ⟨more, hsame.trans hmore, hothers⟩
    · refine ⟨more ++ [.data other pvData], ?_, ?_⟩
      · rw [happend, hmore, List.append_assoc]
      · intro reply hreply
        rcases List.mem_append.1 hreply with hold | hnew
        · exact hothers reply hold
        · obtain rfl := List.mem_singleton.1 hnew
          exact ⟨by simpa [OneShotReply.isData] using Ne.symm hne, rfl⟩

/-- What has been fetched for a PV, as it is replied. -/
def fallback (merge : SnapshotMerger) (look : SnapshotLook) (monOp : SnapshotMonitor) :
    Option (ChannelData PVStructure) :=
  ((noticed merge look monOp).fetched merge).map ChannelData.join

/-- The last turn of a silent PV replies what the gets that are done have fetched. -/
theorem turn_silent (hrunning : s.failure = none) (hopen : s.processedIndex i = false)
    (hget : s.monOps[i]? = some (pvUri, monOp))
    (hlook : s.lookable merge true i (looks i) = true)
    (hsilent : (noticed merge (looks i) monOp).Silent) :
    (turn merge true looks s i).replies = s.replies ++
      (fallback merge (looks i) monOp).toList.map (.data i) := by
  have hpolled : polled merge true (looks i) monOp = (noticed merge (looks i) monOp).harvested :=
    MonitorOperation.forceUpdate_poll hsilent _
  have hdata := MonitorOperation.hasData_harvested merge hsilent
  simp only [lookable, hget, hopen, Bool.false_or, hpolled, hdata] at hlook
  simp only [turn, hrunning, hopen, hget, lookAt, hpolled, hdata, Option.isSome_none,
    Bool.or_self, Bool.false_eq_true, if_false, fallback]
  cases hfetched : (noticed merge (looks i) monOp).fetched merge with
  | none => simp
  | some channelData =>
      have hevent := MonitorOperation.getEventData_harvested hsilent hfetched
      simp only [hfetched, Option.isSome_some, Bool.not_true, Bool.false_or, Bool.and_eq_true,
        Bool.not_eq_true', accepted] at hlook
      obtain ⟨hstolen, hmerged, hpushed⟩ := hlook
      simp only [Option.isSome_some, if_true, hstolen, receive, hmerged, Bool.false_eq_true,
        if_false]
      cases hlast : ((noticed merge (looks i) monOp).harvested.getEventData
          merge).1.eventData.getLast? with
      | none => simp [hlast] at hevent
      | some event =>
          rw [hlast] at hevent hpushed
          obtain rfl : event.channelData = channelData := Option.some.inj hevent
          simp only [publish_of_isPushed hpushed]
          rfl

/-- The loop, for one index: the turns before, its own turn, and the turns after it. -/
theorem sweep_split (hlt : i < s.monOps.length)
    (hlook : ∀ i < s.monOps.length, s.lookable merge timedOut i (looks i) = true) :
    ∃ u, Untouched i s u ∧ u.lookable merge timedOut i (looks i) = true ∧
      Untouched i (turn merge timedOut looks u i) (s.sweep merge timedOut looks) := by
  obtain ⟨first, last, hrange⟩ := List.append_of_mem (List.mem_range.2 hlt)
  have hnodup : (first ++ i :: last).Nodup := hrange ▸ List.nodup_range
  have hfirst := (List.nodup_append.1 hnodup).1
  have hlast := List.nodup_cons.1 (List.nodup_append.1 hnodup).2.1
  have hdistinct : ∀ other ∈ first, ∀ later ∈ i :: last, other ≠ later :=
    (List.nodup_append.1 hnodup).2.2
  have hlookOf : ∀ other ∈ first ++ i :: last,
      s.lookable merge timedOut other (looks other) = true :=
    fun other hmem => hlook other (List.mem_range.1 (hrange ▸ hmem))
  have hbefore : ∀ later ∈ i :: last,
      Untouched later s (first.foldl (turn merge timedOut looks) s) := by
    intro later hmem
    apply untouched_foldl hfirst
    · exact fun hin => hdistinct later hin later hmem rfl
    · exact fun other hother => hlookOf other (List.mem_append_left _ hother)
  have hlookable : ∀ later ∈ i :: last,
      (first.foldl (turn merge timedOut looks) s).lookable merge timedOut later (looks later) =
        true := by
    intro later hmem
    have hsame := hbefore later hmem
    rw [lookable_congr hsame.op hsame.processed hsame.cmd]
    exact hlookOf later (List.mem_append_right _ hmem)
  have hturned := turn_turned (hlookable i List.mem_cons_self)
  refine ⟨_, hbefore i List.mem_cons_self, hlookable i List.mem_cons_self, ?_⟩
  rw [sweep, hrange, List.foldl_append, List.foldl_cons]
  apply untouched_foldl hlast.2 hlast.1
  intro other hmem
  have hne : other ≠ i := fun heq => hlast.1 (heq ▸ hmem)
  rw [lookable_congr (hturned.others other hne).1 (hturned.others other hne).2 hturned.cmd]
  exact hlookable other (List.mem_cons_of_mem _ hmem)

/-- The loop of the last run, for one silent PV. -/
theorem sweep_silent (hrunning : s.failure = none) (hopen : s.processedIndex i = false)
    (hget : s.monOps[i]? = some (pvUri, monOp))
    (hlook : ∀ i < s.monOps.length, s.lookable merge true i (looks i) = true)
    (hsilent : (noticed merge (looks i) monOp).Silent) :
    ∃ before after, (s.sweep merge true looks).replies = s.replies ++ before ++
        (fallback merge (looks i) monOp).toList.map (.data i) ++ after ∧
      ∀ reply ∈ before ++ after, reply.isData i = false ∧ reply.isCompletion = false := by
  obtain ⟨u, hfirst, hlookTurn, hlast⟩ :=
    sweep_split (List.getElem?_eq_some_iff.1 hget).1 hlook
  have hreplies := turn_silent (hfirst.failure.trans hrunning) (hfirst.processed.trans hopen)
    (hfirst.op.trans hget) hlookTurn hsilent
  obtain ⟨before, hbefore, hbeforeOther⟩ := hfirst.replies
  obtain ⟨after, hafter, hafterOther⟩ := hlast.replies
  refine ⟨before, after, ?_, ?_⟩
  · rw [hafter, hreplies, hbefore]
  · intro reply hmem
    rcases List.mem_append.1 hmem with hmem | hmem
    · exact hbeforeOther reply hmem
    · exact hafterOther reply hmem

/-! ## The snapshot's own monitors -/

/-- In all looks at an index, EPICS tells nothing but what comes without a value. -/
def Quiet (merge : SnapshotMerger) (i : ℕ) (s : OneShotSnapshot)
    (poll : SnapshotPoll) : Prop :=
  s.Clean merge poll ∧ ∀ notice ∈ (poll.looks i).before, notice.isQuiet

theorem unforced_noticed (merge : SnapshotMerger) {look : SnapshotLook}
    (h : monOp.Unforced)
    (hquiet : ∀ notice ∈ look.before, notice.isQuiet) : (noticed merge look monOp).Unforced := by
  have hfold : ∀ notices : List MonitorNotice, (∀ notice ∈ notices, notice.isQuiet) →
      ∀ op : SnapshotMonitor, op.Unforced →
        (notices.foldl (MonitorOperation.notify merge) op).Unforced := by
    intro notices
    induction notices with
    | nil => exact fun _ op hop => hop
    | cons notice rest ih =>
        intro hrest op hop
        apply ih fun other hmem => hrest other (List.mem_cons_of_mem _ hmem)
        exact hop.notify merge (hrest notice List.mem_cons_self)
  exact hfold _ hquiet _ h

/-- A turn before the end finds nothing in a monitor that no one has forced. -/
theorem turn_unforced (looks : ℕ → SnapshotLook) (hrunning : s.failure = none)
    (hopen : s.processedIndex i = false)
    (hget : s.monOps[i]? = some (pvUri, monOp)) (h : (noticed merge (looks i) monOp).Unforced) :
    (turn merge false looks s i).replies = s.replies ∧
      (turn merge false looks s i).processedIndex i = false ∧
      (turn merge false looks s i).monOps[i]? =
        some (pvUri, noticed merge (looks i) monOp) := by
  have hlt : i < s.monOps.length := (List.getElem?_eq_some_iff.1 hget).1
  have hpolled : polled merge false (looks i) monOp = noticed merge (looks i) monOp := h.poll _
  have hturn : turn merge false looks s i =
      { s with monOps := s.monOps.set i (pvUri, noticed merge (looks i) monOp) } := by
    simp only [turn, hrunning, hopen, hget, lookAt, hpolled, h.hasData, Option.isSome_none,
      Bool.or_self, Bool.false_eq_true, if_false]
  rw [hturn]
  exact ⟨rfl, hopen, List.getElem?_set_self hlt⟩

/-- Nothing is known of a PV whose monitor is the snapshot's own. -/
structure Unserved (i : ℕ) (pvUri : String) (s : OneShotSnapshot) : Prop where
  replies : ∀ reply ∈ s.replies, reply.isData i = false
  active : s.ended = false → s.failure = none →
    s.processedIndex i = false ∧ ∃ monOp, s.monOps[i]? = some (pvUri, monOp) ∧ monOp.Unforced

/-- The end of the task adds the completion message only, or an exception leaves it. -/
theorem finish_ends (s : OneShotSnapshot) :
    (∀ reply ∈ s.finish.replies, reply ∈ s.replies ∨ reply = .completion) ∧
      (s.finish.ended = false → s.finish.failure ≠ none) := by
  rw [finish]
  split
  · rename_i hfailure
    refine ⟨fun reply hmem => .inl hmem, fun _ hnone => ?_⟩
    rw [hnone] at hfailure
    cases hfailure
  · constructor
    · intro reply hmem
      rw [publish] at hmem
      split at hmem
      · exact .inl hmem
      · exact .inl hmem
      · exact (List.mem_append.1 hmem).imp_right List.mem_singleton.1
    · intro hended
      cases hended

/-- A loop that leaves the index alone, or replies nothing for it. -/
theorem Unserved.replies_append {before after : List OneShotReply} (h : Unserved i pvUri s)
    (hothers : ∀ reply ∈ before ++ after, reply.isData i = false ∧ reply.isCompletion = false) :
    ∀ reply ∈ s.replies ++ before ++ after, reply.isData i = false := by
  intro reply hmem
  rw [List.append_assoc, List.mem_append] at hmem
  rcases hmem with hmem | hmem
  · exact h.replies reply hmem
  · exact (hothers reply hmem).1

theorem Unserved.next (h : Unserved i pvUri s) (hquiet : s.Quiet merge i poll)
    (hnext : s.next merge poll = some t) : Unserved i pvUri t := by
  rw [OneShotSnapshot.next] at hnext
  split at hnext
  case isTrue => cases hnext
  case isFalse hactive =>
    obtain rfl := Option.some.inj hnext
    simp only [Bool.or_eq_true, not_or, Bool.not_eq_true, Option.isSome_eq_false_iff,
      Option.isNone_iff_eq_none] at hactive
    obtain ⟨hopen, monOp, hget, hunforced⟩ := h.active hactive.1 hactive.2
    have hnoticed := unforced_noticed merge hunforced hquiet.2
    have hlook := hquiet.1
    rw [Clean] at hlook
    rw [checkGetCompletion]
    cases htimeout : (s.info.isTimeout poll.now).1 with
    | true =>
        rw [htimeout] at hlook
        rw [if_pos rfl]
        obtain ⟨before, after, hreplies, hothers⟩ :=
          sweep_silent hactive.2 hopen hget hlook hnoticed.silent
        rw [fallback, hnoticed.fetched, Option.map_none, Option.toList_none, List.map_nil,
          List.append_nil] at hreplies
        have hends := finish_ends (s.sweep merge true poll.looks)
        refine ⟨fun reply hmem => ?_, fun hended hfailure => absurd hfailure (hends.2 hended)⟩
        rcases hends.1 reply hmem with hmem | rfl
        · rw [hreplies] at hmem
          exact h.replies_append hothers reply hmem
        · rfl
    | false =>
        rw [htimeout] at hlook
        rw [if_neg Bool.false_ne_true]
        obtain ⟨u, hfirst, -, hlast⟩ := sweep_split (List.getElem?_eq_some_iff.1 hget).1 hlook
        obtain ⟨hreplies, hprocessed, hop⟩ :=
          turn_unforced poll.looks (hfirst.failure.trans hactive.2)
            (hfirst.processed.trans hopen) (hfirst.op.trans hget) hnoticed
        obtain ⟨before, hbefore, hbeforeOther⟩ := hfirst.replies
        obtain ⟨after, hafter, hafterOther⟩ := hlast.replies
        refine ⟨fun reply hmem => ?_, fun _ _ => ⟨hlast.processed.trans hprocessed, _,
          hlast.op.trans hop, hnoticed⟩⟩
        rw [hafter, hreplies, hbefore] at hmem
        refine h.replies_append (fun other hother => ?_) reply hmem
        rcases List.mem_append.1 hother with hother | hother
        · exact hbeforeOther other hother
        · exact hafterOther other hother

/-- The data of a PV without an event is never replied where no channel in use has its monitor:
its get would only be harvested by a run after the last one. -/
theorem not_replied_of_own {cmd : SnapshotCommand} {now : Int}
    (hrun : Run (OneShotSnapshot.next merge) (Quiet merge i) (submit channelMap cmd order now)
      polls s)
    (hget : (submit channelMap cmd order now).monOps[i]? = some (pvUri, monOp))
    (hown : ∀ pv, sanitizePVName pvUri = some pv → channelMap pv.name = none) :
    ∀ reply ∈ s.replies, reply.isData i = false := by
  have hbegun := begun_submit channelMap cmd order now
  have hunforced : monOp.Unforced := by
    have hop := hbegun.monOps pvUri monOp (List.mem_of_getElem? hget)
    obtain ⟨pv, hpv, rfl⟩ := Option.map_eq_some_iff.1 hop
    rw [hown pv hpv]
    exact MonitorOperation.unforced_epicsChannelMonitor _ _
  have hunserved : Unserved i pvUri s := by
    refine hrun.invariant (I := fun _ s => Unserved i pvUri s) ?_ ?_
    · refine ⟨fun reply hmem => ?_, fun _ _ => ⟨hbegun.processed i, monOp, hget, hunforced⟩⟩
      obtain ⟨malformed, rfl⟩ := hbegun.replies reply hmem
      rfl
    · intro _ s poll t hinv hquiet hnext
      exact hinv.next hquiet hnext
  exact hunserved.replies

/-! ## The fallback -/

theorem publish_replies (s : OneShotSnapshot) (reply : OneShotReply) :
    ∃ more, (s.publish reply).replies = s.replies ++ more ∧ ∀ other ∈ more, other = reply := by
  rw [publish]
  split
  · exact ⟨[], (List.append_nil _).symm, List.forall_mem_nil _⟩
  · exact ⟨[], (List.append_nil _).symm, List.forall_mem_nil _⟩
  · exact ⟨[reply], rfl, fun other hmem => List.mem_singleton.1 hmem⟩

theorem receive_replies (merge : SnapshotMerger) (s : OneShotSnapshot) (i : ℕ) (pvUri : String)
    (monOp : SnapshotMonitor) :
    ∃ more, (s.receive merge i pvUri monOp).replies = s.replies ++ more ∧
      ∀ reply ∈ more, reply.isCompletion = false := by
  simp only [receive]
  split
  · exact ⟨[], (List.append_nil _).symm, List.forall_mem_nil _⟩
  · split
    · exact ⟨[], (List.append_nil _).symm, List.forall_mem_nil _⟩
    · rename_i event _
      obtain ⟨more, hmore, hdata⟩ := publish_replies s (.data i event.channelData.join)
      refine ⟨more, hmore, fun reply hmem => ?_⟩
      rw [hdata reply hmem]
      rfl

/-- A turn completes nothing, whatever its look is. -/
theorem turn_replies (merge : SnapshotMerger) (timedOut : Bool) (looks : ℕ → SnapshotLook)
    (s : OneShotSnapshot) (i : ℕ) :
    ∃ more, (turn merge timedOut looks s i).replies = s.replies ++ more ∧
      ∀ reply ∈ more, reply.isCompletion = false := by
  have hsame : ∃ more, s.replies = s.replies ++ more ∧
      ∀ reply ∈ more, reply.isCompletion = false :=
    ⟨[], (List.append_nil _).symm, List.forall_mem_nil _⟩
  rw [turn]
  split
  · exact hsame
  · split
    · exact hsame
    · rw [lookAt]
      split
      · exact receive_replies ..
      · exact hsame

theorem sweep_replies (merge : SnapshotMerger) (s : OneShotSnapshot) (timedOut : Bool)
    (looks : ℕ → SnapshotLook) :
    ∃ more, (s.sweep merge timedOut looks).replies = s.replies ++ more ∧
      ∀ reply ∈ more, reply.isCompletion = false := by
  have hfold : ∀ (indices : List ℕ) (s : OneShotSnapshot), ∃ more,
      (indices.foldl (turn merge timedOut looks) s).replies = s.replies ++ more ∧
        ∀ reply ∈ more, reply.isCompletion = false := by
    intro indices
    induction indices with
    | nil => exact fun s => ⟨[], (List.append_nil _).symm, List.forall_mem_nil _⟩
    | cons i rest ih =>
        intro s
        obtain ⟨first, hfirst, hfirstOpen⟩ := turn_replies merge timedOut looks s i
        obtain ⟨more, hmore, hmoreOpen⟩ := ih (turn merge timedOut looks s i)
        refine ⟨first ++ more, ?_, fun reply hmem => ?_⟩
        · rw [List.foldl_cons, hmore, hfirst, List.append_assoc]
        · exact (List.mem_append.1 hmem).elim (hfirstOpen reply) (hmoreOpen reply)
  exact hfold _ s

/-- A run of the task that fails completes nothing. -/
theorem failed_of_next (hordered : Ordered s) (hnext : s.next merge poll = some t)
    (hfailed : t.failure ≠ none) : ∀ reply ∈ t.replies, reply.isCompletion = false := by
  obtain ⟨hended, hrunning, rfl⟩ := running_of_next hnext
  have hopen := hordered.unfinished hended
  have hswept (timedOut : Bool) : ∀ reply ∈ (s.sweep merge timedOut poll.looks).replies,
      reply.isCompletion = false := by
    obtain ⟨more, hmore, hmoreOpen⟩ := sweep_replies merge s timedOut poll.looks
    intro reply hmem
    rw [hmore] at hmem
    exact (List.mem_append.1 hmem).elim (hopen reply) (hmoreOpen reply)
  rw [checkGetCompletion] at hfailed ⊢
  split
  · rename_i htimeout
    rw [if_pos htimeout, finish] at hfailed
    rw [finish]
    split
    · exact hswept true
    · rename_i hrunning'
      -- the completion message itself is not serialized
      rw [if_neg hrunning'] at hfailed
      intro reply hmem
      rw [publish] at hfailed hmem
      split at hmem
      · exact hswept true reply hmem
      · exact hswept true reply hmem
      · rename_i hpush
        rw [hpush] at hfailed
        simp at hrunning'
        exact absurd hrunning' hfailed
  · exact hswept false

/-- A monitor of the PV that another consumer has forced: its get is done. -/
def forcedMap (name : String) : Option SnapshotMonitor :=
  if name = "a" then
    some (.impl { pvName := "a", getOp := some (some (some [])), forceUpdate := true })
  else none

end OneShotSnapshot

end K2eg
