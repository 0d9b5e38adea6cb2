import K2eg.Foundation.Interleaving
import K2eg.Model.SnapshotCommandWorker
import K2eg.Verification.Commands.Parsing

/-! # The replies to a one-shot snapshot

Each operation is published at most once, as it is marked when it is, and the completion message
comes last. The loop that collects the operations is left at the first malformed URI, so all URIs
are served where none follows a malformed one. -/

namespace K2eg

open Interleaving

variable {merge : SnapshotMerger} {s t : OneShotSnapshot} {i : ℕ} {timedOut : Bool}
  {looks : ℕ → SnapshotLook} {poll : SnapshotPoll} {polls : List SnapshotPoll}
  {channelMap : String → Option SnapshotMonitor} {order : List String}

namespace OneShotSnapshot

/-- The URI has a PV name. -/
def wellFormed (pvUri : String) : Bool := (sanitizePVName pvUri).isSome

/-- Every well-formed URI has its operation, every malformed one a fault, each operation at most
one reply with data, and the completion message is the last reply of a snapshot that has ended. -/
structure Complete (order : List String) (s : OneShotSnapshot) : Prop where
  sampled : s.monOps.map Prod.fst = order.filter wellFormed
  faults : ∀ pvUri ∈ order, wellFormed pvUri = false →
    s.replies.countP (OneShotReply.isFault pvUri) = 1
  data : ∀ i, s.replies.countP (OneShotReply.isData i) ≤ 1
  indices : ∀ i pvData, .data i pvData ∈ s.replies → i < s.monOps.length
  running : s.failure = none
  unfinished : s.ended = false → ∀ reply ∈ s.replies, reply.isCompletion = false
  completion : s.ended = true → ∃ earlier, s.replies = earlier ++ [.completion] ∧
    ∀ reply ∈ earlier, reply.isCompletion = false

/-- What `getEventData` gives is merged, and the last event of it is serialized. -/
def accepted (merge : SnapshotMerger) (cmd : SnapshotCommand) (i : ℕ) (monOp : SnapshotMonitor) :
    Bool :=
  !(monOp.getEventData merge).2.mergerThrows (monOp.getEventData merge).1 &&
    match (monOp.getEventData merge).1.eventData.getLast? with
    | none => false
    | some event => (OneShotReply.data i event.channelData.join).isPushed cmd

/-- What a look finds is accepted, and no other consumer takes it. -/
def lookable (merge : SnapshotMerger) (s : OneShotSnapshot) (timedOut : Bool) (i : ℕ)
    (look : SnapshotLook) : Bool :=
  match s.monOps[i]? with
  | none => true
  | some (_, monOp) =>
    s.processedIndex i || !(polled merge timedOut look monOp).hasData ||
      !look.stolen && accepted merge s.cmd i (polled merge timedOut look monOp)

/-- All looks of a run of the task are so. -/
def Clean (merge : SnapshotMerger) (s : OneShotSnapshot) (poll : SnapshotPoll) :
    Prop :=
  ∀ i < s.monOps.length,
    s.lookable merge (s.info.isTimeout poll.now).1 i (poll.looks i) = true

instance (s : OneShotSnapshot) (poll : SnapshotPoll) : Decidable (s.Clean merge poll) := by
  unfold Clean
  infer_instance

/-! ## A turn of the loop -/

theorem publish_of_isPushed {reply : OneShotReply} (h : reply.isPushed s.cmd = true) :
    s.publish reply = { s with replies := s.replies ++ [reply] } := by
  rw [OneShotReply.isPushed] at h
  rw [publish]
  cases hpush : reply.push s.cmd with
  | error failure => simp [hpush] at h
  | ok message =>
      cases message with
      | none => simp [hpush] at h
      | some message => rfl

/-- A turn concerns its own index only, and publishes for it at most once. -/
structure Turned (s t : OneShotSnapshot) (i : ℕ) : Prop where
  cmd : t.cmd = s.cmd
  info : t.info = s.info
  ended : t.ended = s.ended
  failure : t.failure = s.failure
  uris : t.monOps.map Prod.fst = s.monOps.map Prod.fst
  others : ∀ other, other ≠ i →
    t.monOps[other]? = s.monOps[other]? ∧ t.processedIndex other = s.processedIndex other
  processed : ∀ other, s.processedIndex other = true → t.processedIndex other = true
  replies : t.replies = s.replies ∨ ∃ pvData, t.replies = s.replies ++ [.data i pvData] ∧
    s.processedIndex i = false ∧ t.processedIndex i = true ∧ i < s.monOps.length

theorem Turned.refl (s : OneShotSnapshot) (i : ℕ) : Turned s s i where
  cmd := rfl
  info := rfl
  ended := rfl
  failure := rfl
  uris := rfl
  others := fun _ _ => ⟨rfl, rfl⟩
  processed := fun _ h => h
  replies := .inl rfl

theorem map_fst_set {monOps : List (String × SnapshotMonitor)} {pvUri : String}
    {monOp next : SnapshotMonitor} (h : monOps[i]? = some (pvUri, monOp)) :
    (monOps.set i (pvUri, next)).map Prod.fst = monOps.map Prod.fst := by
  apply List.ext_getElem?
  intro other
  rw [List.getElem?_map, List.getElem?_map]
  by_cases heq : other = i
  · subst heq
    have hlt : other < monOps.length := (List.getElem?_eq_some_iff.1 h).1
    rw [List.getElem?_set_self hlt, h]
    rfl
  · rw [List.getElem?_set_ne (Ne.symm heq)]

theorem turn_turned (hlook : s.lookable merge timedOut i (looks i) = true) :
    Turned s (turn merge timedOut looks s i) i := by
  rw [turn]
  split
  · exact .refl s i
  · rename_i hopen
    have hprocessed : s.processedIndex i = false := by
      simp only [Bool.or_eq_true, not_or, Bool.not_eq_true] at hopen
      exact hopen.2
    cases hget : s.monOps[i]? with
    | none => exact .refl s i
    | some entry =>
        obtain ⟨pvUri, monOp⟩ := entry
        have hothers : ∀ next other, other ≠ i →
            (s.monOps.set i (pvUri, next))[other]? = s.monOps[other]? :=
          fun next other hne => List.getElem?_set_ne (Ne.symm hne)
        have hlt : i < s.monOps.length := (List.getElem?_eq_some_iff.1 hget).1
        have hkept : ∀ other, s.processedIndex other = true →
            Function.update s.processedIndex i true other = true := by
          intro other hother
          by_cases heq : other = i
          · subst heq
            exact Function.update_self ..
          · rwa [Function.update_of_ne heq]
        simp only [lookable, hget, hprocessed, Bool.false_or] at hlook
        simp only [lookAt]
        cases hdata : (polled merge timedOut (looks i) monOp).hasData with
        | false =>
            simp only [Bool.false_eq_true, if_false]
            exact {
              cmd := rfl
              info := rfl
              ended := rfl
              failure := rfl
              uris := map_fst_set hget
              others := by
                intro other hne
                refine ⟨hothers _ other hne, ?_⟩
                cases timedOut with
                | false => rfl
                | true => exact Function.update_of_ne hne ..
              processed := by
                intro other hother
                cases timedOut with
                | false => exact hother
                | true => exact hkept other hother
              replies := .inl rfl }
        | true =>
            rw [hdata, Bool.not_true, Bool.false_or, Bool.and_eq_true, Bool.not_eq_true'] at hlook
            obtain ⟨hstolen, haccepted⟩ := hlook
            rw [accepted, Bool.and_eq_true, Bool.not_eq_true'] at haccepted
            obtain ⟨hmerged, hpushed⟩ := haccepted
            simp only [if_true, hstolen, receive, hmerged, Bool.false_eq_true, if_false]
            cases hlast :
                ((polled merge timedOut (looks i) monOp).getEventData merge).1.eventData.getLast?
              with
            | none => simp [hlast] at hpushed
            | some event =>
                simp only [hlast] at hpushed
                simp only [publish_of_isPushed hpushed]
                exact {
                  cmd := rfl
                  info := rfl
                  ended := rfl
                  failure := rfl
                  uris := map_fst_set hget
                  others := fun other hne =>
                    ⟨hothers _ other hne, Function.update_of_ne hne ..⟩
                  processed := hkept
                  replies := .inr ⟨event.channelData.join, rfl, hprocessed, Function.update_self ..,
                    hlt⟩ }

/-! ## The loop -/

/-- A look depends on the operation of its index only. -/
theorem lookable_congr {look : SnapshotLook} (hop : t.monOps[i]? = s.monOps[i]?)
    (hprocessed : t.processedIndex i = s.processedIndex i) (hcmd : t.cmd = s.cmd) :
    t.lookable merge timedOut i look = s.lookable merge timedOut i look := by
  rw [lookable, lookable, hop, hprocessed, hcmd]

/-- What the turns keep holds after the loop over different indices. -/
theorem foldl_turn {P : OneShotSnapshot → Prop} {indices : List ℕ}
    (hturned : ∀ s t i, i ∈ indices → P s → Turned s t i → P t) (hnodup : indices.Nodup)
    (hlook : ∀ i ∈ indices, s.lookable merge timedOut i (looks i) = true) (h : P s) :
    P (indices.foldl (turn merge timedOut looks) s) := by
  induction indices generalizing s with
  | nil => exact h
  | cons i rest ih =>
      have hturn := turn_turned (hlook i List.mem_cons_self)
      rw [List.foldl_cons]
      apply ih
      · intro s t other hmem
        exact hturned s t other (List.mem_cons_of_mem _ hmem)
      · exact (List.nodup_cons.1 hnodup).2
      · intro other hmem
        have hne : other ≠ i := fun heq => (List.nodup_cons.1 hnodup).1 (heq ▸ hmem)
        rw [lookable_congr (hturn.others other hne).1 (hturn.others other hne).2 hturn.cmd]
        exact hlook other (List.mem_cons_of_mem _ hmem)
      · exact hturned _ _ i List.mem_cons_self h hturn

theorem sweep_of_clean {P : OneShotSnapshot → Prop} (hturned : ∀ s t i, P s → Turned s t i → P t)
    (hlook : ∀ i < s.monOps.length, s.lookable merge timedOut i (looks i) = true) (h : P s) :
    P (s.sweep merge timedOut looks) :=
  foldl_turn (fun s t i _ => hturned s t i) List.nodup_range
    (fun i hmem => hlook i (List.mem_range.1 hmem)) h

/-! ## Looks that are not clean -/

/-- Every message is pushed, or its serializer has failed. -/
theorem push_ne_none (cmd : SnapshotCommand) (reply : OneShotReply) :
    reply.push cmd ≠ .ok none := by
  rw [OneShotReply.push]
  rcases cmd.serializable with htype | htype
  · rw [htype, WorkerMessage.serialize]
    cases assignPairs [] (reply.message cmd).serializeJson <;>
      simp [Bind.bind, Except.bind, pure, Except.pure, replyPushableMessage]
  · rw [htype, WorkerMessage.serialize]
    cases packMessage MsgPackSerializer.serializeInto (reply.message cmd).serializeMsgpack <;>
      simp [Bind.bind, Except.bind, pure, Except.pure, replyPushableMessage]

theorem publish_of_not_isPushed {reply : OneShotReply} (h : reply.isPushed s.cmd = false) :
    (s.publish reply).failure ≠ none := by
  rw [OneShotReply.isPushed] at h
  rw [publish]
  cases hpush : reply.push s.cmd with
  | error failure => simp
  | ok message =>
      cases message with
      | none => exact absurd hpush (push_ne_none s.cmd reply)
      | some message => simp [hpush] at h

/-- Nothing is received where the principal events have been taken. -/
theorem getEventData_of_taken (merge : SnapshotMerger)
    {op : CombinedMonitorOperation (Option PVStructure)}
    (h : op.principal.receivedEvent.eventData = []) :
    (op.getEventData merge).1.eventData = [] := by
  rw [CombinedMonitorOperation.getEventData]
  split
  · rfl
  · simp [MonitorOperationImpl.getEventData, h]

theorem taken_getEventData (merge : SnapshotMerger)
    (op : CombinedMonitorOperation (Option PVStructure)) :
    (op.getEventData merge).2.principal.receivedEvent.eventData = [] := by
  rw [CombinedMonitorOperation.getEventData]
  split
  · rename_i hnone
    have hsize : op.principal.receivedEvent.size = 0 := by
      simp only [Bool.and_eq_true, Bool.not_eq_true', MonitorOperationImpl.hasEvents,
        bne_eq_false_iff_eq] at hnone
      exact hnone.1
    have hlength : op.principal.receivedEvent.eventData.length = 0 := by
      rw [EventReceived.size] at hsize
      omega
    exact List.eq_nil_of_length_eq_zero hlength
  · simp only [MonitorOperationImpl.getEventData,
      CombinedMonitorOperation.refreshAdditional_principal]

/-- A second consumer finds no data. -/
theorem getEventData_getEventData (merge : SnapshotMerger) (monOp : SnapshotMonitor) :
    ((monOp.getEventData merge).2.getEventData merge).1.eventData = [] := by
  cases monOp with
  | impl op => rfl
  | combined op => exact getEventData_of_taken merge (taken_getEventData merge op)

/-- A look that is not clean ends the task. -/
theorem turn_of_not_lookable (hrunning : s.failure = none)
    (hlook : s.lookable merge timedOut i (looks i) = false) :
    (turn merge timedOut looks s i).failure ≠ none := by
  rw [lookable] at hlook
  cases hget : s.monOps[i]? with
  | none => simp [hget] at hlook
  | some entry =>
      obtain ⟨pvUri, monOp⟩ := entry
      simp only [hget, Bool.or_eq_false_iff, Bool.not_eq_false'] at hlook
      obtain ⟨⟨hopen, hdata⟩, hlook⟩ := hlook
      simp only [turn, hrunning, hopen, hget, lookAt, hdata, Option.isSome_none, Bool.or_self,
        Bool.false_eq_true, if_false, if_true]
      cases hstolen : (looks i).stolen with
      | true =>
          have hnone := getEventData_getEventData merge (polled merge timedOut (looks i) monOp)
          simp only [if_true, receive, hnone]
          split
          · exact Option.some_ne_none _
          · exact Option.some_ne_none _
      | false =>
          rw [hstolen, Bool.not_false, Bool.true_and, accepted, Bool.and_eq_false_iff,
            Bool.not_eq_false'] at hlook
          simp only [Bool.false_eq_true, if_false, receive]
          split
          · exact Option.some_ne_none _
          · rename_i hmerged
            rcases hlook with hthrows | hpushed
            · exact absurd hthrows hmerged
            · split
              · exact Option.some_ne_none _
              · rename_i event hlast
                rw [hlast] at hpushed
                exact publish_of_not_isPushed hpushed

theorem foldl_turn_of_failed (h : s.failure ≠ none) (indices : List ℕ) :
    indices.foldl (turn merge timedOut looks) s = s := by
  induction indices with
  | nil => rfl
  | cons i rest ih =>
      have hturn : turn merge timedOut looks s i = s := by
        rw [turn, Option.isSome_iff_ne_none.2 h]
        rfl
      rw [List.foldl_cons, hturn, ih]

theorem foldl_turn_of_not_lookable {indices : List ℕ} (hnodup : indices.Nodup)
    (hrunning : s.failure = none) (hmem : i ∈ indices)
    (hlook : s.lookable merge timedOut i (looks i) = false) :
    (indices.foldl (turn merge timedOut looks) s).failure ≠ none := by
  induction indices generalizing s with
  | nil => cases hmem
  | cons first rest ih =>
      rw [List.foldl_cons]
      cases hfirst : s.lookable merge timedOut first (looks first) with
      | false =>
          have hfailed := turn_of_not_lookable hrunning hfirst
          rw [foldl_turn_of_failed hfailed]
          exact hfailed
      | true =>
          have hturned := turn_turned hfirst
          have hne : i ≠ first := by
            rintro rfl
            rw [hfirst] at hlook
            cases hlook
          refine ih (List.nodup_cons.1 hnodup).2 (hturned.failure.trans hrunning)
            ((List.mem_cons.1 hmem).resolve_left hne) ?_
          rw [lookable_congr (hturned.others i hne).1 (hturned.others i hne).2 hturned.cmd]
          exact hlook

theorem sweep_of_not_clean (hrunning : s.failure = none) (hclean : ¬ s.Clean merge poll) :
    (s.sweep merge (s.info.isTimeout poll.now).1 poll.looks).failure ≠ none := by
  rw [Clean] at hclean
  push Not at hclean
  obtain ⟨i, hlt, hlook⟩ := hclean
  exact foldl_turn_of_not_lookable List.nodup_range hrunning (List.mem_range.2 hlt)
    (Bool.eq_false_iff.2 hlook)

theorem running_of_next (hnext : s.next merge poll = some t) :
    s.ended = false ∧ s.failure = none ∧ t = s.checkGetCompletion merge poll := by
  rw [next] at hnext
  split at hnext
  case isTrue => cases hnext
  case isFalse hactive =>
    simp only [Bool.or_eq_true, not_or, Bool.not_eq_true, Option.isSome_eq_false_iff,
      Option.isNone_iff_eq_none] at hactive
    exact ⟨hactive.1, hactive.2, (Option.some.inj hnext).symm⟩

/-- A run of the task that has not failed was clean. -/
theorem clean_of_next (hnext : s.next merge poll = some t) (hrunning : t.failure = none) :
    s.Clean merge poll := by
  by_contra hclean
  obtain ⟨-, hfailure, rfl⟩ := running_of_next hnext
  have hswept := sweep_of_not_clean hfailure hclean
  rw [checkGetCompletion] at hrunning
  cases htimeout : (s.info.isTimeout poll.now).1 with
  | true =>
      rw [htimeout] at hswept
      rw [htimeout, if_pos rfl, finish, Option.isSome_iff_ne_none.2 hswept, if_pos rfl] at hrunning
      exact hswept hrunning
  | false =>
      rw [htimeout] at hswept
      rw [htimeout, if_neg Bool.false_ne_true] at hrunning
      exact hswept hrunning

/-- All looks were clean in a run whose task has not failed. -/
theorem clean_of_run {start : OneShotSnapshot} (hrun : AnyRun (next merge) start polls s)
    (hrunning : s.failure = none) :
    start.failure = none ∧ Run (next merge) (Clean merge) start polls s := by
  induction hrun with
  | nil => exact ⟨hrunning, .nil⟩
  | snoc _ _ hnext ih =>
      obtain ⟨hstart, hclean⟩ := ih (running_of_next hnext).2.1
      exact ⟨hstart, hclean.snoc (clean_of_next hnext hrunning) hnext⟩

/-! ## The invariant -/

/-- The state after a start from which the loop has collected all operations. -/
structure Sound (start s : OneShotSnapshot) : Prop where
  cmd : s.cmd = start.cmd
  info : s.info = start.info
  uris : s.monOps.map Prod.fst = start.monOps.map Prod.fst
  failure : s.failure = none
  faults : ∀ pvUri, s.replies.countP (OneShotReply.isFault pvUri) =
    start.replies.countP (OneShotReply.isFault pvUri)
  data : ∀ i, s.replies.countP (OneShotReply.isData i) ≤ if s.processedIndex i then 1 else 0
  indices : ∀ i pvData, .data i pvData ∈ s.replies → i < s.monOps.length

/-- Nothing has been completed. -/
def Unfinished (s : OneShotSnapshot) : Prop :=
  s.ended = false ∧ ∀ reply ∈ s.replies, reply.isCompletion = false

theorem Turned.length (h : Turned s t i) : t.monOps.length = s.monOps.length := by
  have huris := congrArg List.length h.uris
  rwa [List.length_map, List.length_map] at huris

theorem Sound.turned {start : OneShotSnapshot} (h : Sound start s) (hturned : Turned s t i) :
    Sound start t := by
  constructor
  case cmd => exact hturned.cmd.trans h.cmd
  case info => exact hturned.info.trans h.info
  case uris => exact hturned.uris.trans h.uris
  case failure => exact hturned.failure.trans h.failure
  case faults =>
    intro pvUri
    rcases hturned.replies with hsame | ⟨pvData, happend, -⟩
    · rw [hsame]
      exact h.faults pvUri
    · rw [happend, List.countP_append, h.faults pvUri]
      simp [OneShotReply.isFault]
  case data =>
    intro other
    have hbefore := h.data other
    rcases hturned.replies with hsame | ⟨pvData, happend, hopen, hdone, -⟩
    · rw [hsame]
      cases hprocessed : s.processedIndex other with
      | true =>
          rw [hturned.processed other hprocessed]
          rwa [hprocessed] at hbefore
      | false =>
          rw [hprocessed] at hbefore
          exact hbefore.trans (Nat.zero_le _)
    · rw [happend, List.countP_append]
      by_cases heq : other = i
      · subst heq
        rw [hopen] at hbefore
        rw [hdone]
        have hzero : s.replies.countP (OneShotReply.isData other) = 0 := by simpa using hbefore
        rw [hzero]
        simp [OneShotReply.isData]
      · rw [(hturned.others other heq).2]
        simpa [OneShotReply.isData, Ne.symm heq] using hbefore
  case indices =>
    intro other pvData hmem
    rw [hturned.length]
    rcases hturned.replies with hsame | ⟨found, happend, -, -, hlt⟩
    · exact h.indices other pvData (hsame ▸ hmem)
    · rw [happend, List.mem_append] at hmem
      rcases hmem with hold | hnew
      · exact h.indices other pvData hold
      · obtain ⟨rfl, -⟩ := OneShotReply.data.inj (List.mem_singleton.1 hnew)
        exact hlt

theorem Unfinished.turned (h : Unfinished s) (hturned : Turned s t i) : Unfinished t := by
  refine ⟨hturned.ended.trans h.1, ?_⟩
  rcases hturned.replies with hsame | ⟨pvData, happend, -⟩
  · rw [hsame]
    exact h.2
  · intro reply hmem
    rw [happend, List.mem_append] at hmem
    rcases hmem with hold | hnew
    · exact h.2 reply hold
    · obtain rfl := List.mem_singleton.1 hnew
      rfl

/-- Where the completion message stands. -/
structure Ordered (s : OneShotSnapshot) : Prop where
  unfinished : s.ended = false → ∀ reply ∈ s.replies, reply.isCompletion = false
  completion : s.ended = true → ∃ earlier, s.replies = earlier ++ [.completion] ∧
    ∀ reply ∈ earlier, reply.isCompletion = false

theorem Unfinished.ordered (h : Unfinished s) : Ordered s where
  unfinished := fun _ => h.2
  completion := by
    intro hended
    rw [h.1] at hended
    cases hended

/-- The completion message is pushed. -/
theorem isPushed_completion {cmd : SnapshotCommand} (hid : cmd.replyId.utf8ByteSize < 2 ^ 32) :
    OneShotReply.completion.isPushed cmd = true := by
  rw [OneShotReply.isPushed, OneShotReply.push]
  rcases cmd.serializable with htype | htype
  · rw [htype]
    rfl
  · simp only [htype, OneShotReply.message, WorkerMessage.serialize,
      WorkerMessage.serializeMsgpack, CommandReply.pairs, packMessage, packPairs, packPair,
      packString, if_pos hid]
    rfl

theorem finish_of_running (hrunning : s.failure = none)
    (hid : s.cmd.replyId.utf8ByteSize < 2 ^ 32) :
    s.finish = { s with replies := s.replies ++ [.completion], ended := true } := by
  have hfailure : s.failure.isSome = false := by
    rw [hrunning]
    rfl
  rw [finish, hfailure, publish_of_isPushed (isPushed_completion hid)]
  rfl

/-- The end of the task. -/
theorem finish_of_sound {start : OneShotSnapshot} (h : Sound start s) (hopen : Unfinished s)
    (hid : s.cmd.replyId.utf8ByteSize < 2 ^ 32) :
    Sound start s.finish ∧ Ordered s.finish ∧ s.finish.ended = true := by
  rw [finish_of_running h.failure hid]
  refine ⟨?_, ⟨nofun, fun _ => ⟨s.replies, rfl, hopen.2⟩⟩, rfl⟩
  exact {
    cmd := h.cmd
    info := h.info
    uris := h.uris
    failure := h.failure
    faults := by
      intro pvUri
      rw [List.countP_append, h.faults pvUri]
      simp [OneShotReply.isFault]
    data := by
      intro i
      rw [List.countP_append]
      simpa [OneShotReply.isData] using h.data i
    indices := by
      intro i pvData hmem
      rcases List.mem_append.1 hmem with hold | hnew
      · exact h.indices i pvData hold
      · cases List.mem_singleton.1 hnew }

/-- What a run of the task leaves: the task has ended if its time is over. -/
theorem sound_of_next {start : OneShotSnapshot} (h : Sound start s) (hordered : Ordered s)
    (hid : start.cmd.replyId.utf8ByteSize < 2 ^ 32) (hclean : s.Clean merge poll)
    (hnext : s.next merge poll = some t) :
    Sound start t ∧ Ordered t ∧ t.ended = (start.info.isTimeout poll.now).1 := by
  obtain ⟨hended, -, rfl⟩ := running_of_next hnext
  have hopen : Unfinished s := ⟨hended, hordered.unfinished hended⟩
  have hsweep : Sound start (s.sweep merge (s.info.isTimeout poll.now).1 poll.looks) ∧
      Unfinished (s.sweep merge (s.info.isTimeout poll.now).1 poll.looks) :=
    sweep_of_clean (P := fun s => Sound start s ∧ Unfinished s)
      (fun _ _ _ hs hturned => ⟨hs.1.turned hturned, hs.2.turned hturned⟩) hclean ⟨h, hopen⟩
  rw [checkGetCompletion, ← h.info]
  cases htimeout : (s.info.isTimeout poll.now).1 with
  | true =>
      rw [htimeout] at hsweep
      rw [if_pos rfl]
      exact finish_of_sound hsweep.1 hsweep.2 (hsweep.1.cmd ▸ hid)
  | false =>
      rw [htimeout] at hsweep
      rw [if_neg Bool.false_ne_true]
      exact ⟨hsweep.1, hsweep.2.ordered, hsweep.2.1⟩

/-! ## The start -/

/-- The operations of URIs. -/
def monOpsOf (channelMap : String → Option SnapshotMonitor) (uris : List String) :
    List (String × SnapshotMonitor) :=
  uris.filterMap fun pvUri => (getMonitorOp channelMap pvUri).map fun monOp => (pvUri, monOp)

theorem getMonitorOp_isSome (channelMap : String → Option SnapshotMonitor)
    (pvUri : String) : (getMonitorOp channelMap pvUri).isSome = wellFormed pvUri := by
  rw [getMonitorOp, Option.isSome_map]
  rfl

theorem map_fst_monOpsOf (uris : List String) :
    (monOpsOf channelMap uris).map Prod.fst = uris.filter wellFormed := by
  induction uris with
  | nil => rfl
  | cons pvUri rest ih =>
      have hsome := getMonitorOp_isSome channelMap pvUri
      rw [monOpsOf, List.filterMap_cons]
      cases hop : getMonitorOp channelMap pvUri with
      | none =>
          rw [hop] at hsome
          rw [List.filter_cons_of_neg (by simp [← hsome])]
          exact ih
      | some monOp =>
          rw [hop] at hsome
          rw [List.filter_cons_of_pos (by simp [← hsome])]
          exact congrArg (List.cons pvUri) ih

theorem getMonitorOp_of_mem {uris : List String} (pvUri : String)
    (monOp : SnapshotMonitor) (hmem : (pvUri, monOp) ∈ monOpsOf channelMap uris) :
    getMonitorOp channelMap pvUri = some monOp := by
  obtain ⟨uri, -, huri⟩ := List.mem_filterMap.1 hmem
  obtain ⟨found, hfound, hpair⟩ := Option.map_eq_some_iff.1 huri
  obtain ⟨rfl, rfl⟩ := Prod.mk.inj hpair
  exact hfound

/-- The loop collects up to the first malformed URI. -/
theorem collect_of_wellFormed {before : List String} (rest : List String)
    (hbefore : ∀ pvUri ∈ before, wellFormed pvUri = true) :
    collect channelMap (before ++ rest) s =
      collect channelMap rest { s with monOps := s.monOps ++ monOpsOf channelMap before } := by
  induction before generalizing s with
  | nil => simp [monOpsOf]
  | cons pvUri others ih =>
      have hsome := getMonitorOp_isSome channelMap pvUri
      rw [hbefore pvUri List.mem_cons_self] at hsome
      obtain ⟨monOp, hop⟩ := Option.isSome_iff_exists.1 hsome
      rw [List.cons_append, collect, hop]
      simp only
      rw [ih fun other hmem => hbefore other (List.mem_cons_of_mem _ hmem)]
      simp [monOpsOf, hop]

/-- A list has no malformed URI, or a first one. -/
theorem exists_first_malformed (order : List String) :
    (∀ pvUri ∈ order, wellFormed pvUri = true) ∨
      ∃ before pvUri after, order = before ++ pvUri :: after ∧ wellFormed pvUri = false ∧
        ∀ other ∈ before, wellFormed other = true := by
  induction order with
  | nil => exact .inl nofun
  | cons pvUri rest ih =>
      cases hpv : wellFormed pvUri with
      | false => exact .inr ⟨[], pvUri, rest, rfl, hpv, nofun⟩
      | true =>
          rcases ih with hall | ⟨before, found, after, rfl, hfound, hbefore⟩
          · refine .inl fun other hmem => ?_
            rcases List.mem_cons.1 hmem with rfl | hmem
            · exact hpv
            · exact hall other hmem
          · refine .inr ⟨pvUri :: before, found, after, rfl, hfound, fun other hmem => ?_⟩
            rcases List.mem_cons.1 hmem with rfl | hmem
            · exact hpv
            · exact hbefore other hmem

/-- No URI follows a malformed one, and the fault of a malformed one is replied. -/
def Faultless (cmd : SnapshotCommand) (order : List String) : Prop :=
  ∀ before pvUri after, order = before ++ pvUri :: after → wellFormed pvUri = false →
    after = [] ∧ cmd.replyTopic ≠ "" ∧ (OneShotReply.fault pvUri).isPushed cmd = true

/-- A malformed URI is followed by none, or its fault is not replied, or it is the first one. -/
theorem submit_of_malformed {cmd : SnapshotCommand} {before after : List String} {pvUri : String}
    {now : Int} (hbefore : ∀ other ∈ before, wellFormed other = true)
    (hpv : wellFormed pvUri = false) :
    submit channelMap cmd (before ++ pvUri :: after) now =
      manageFaultyReply
        { cmd, info := { timeoutMs := cmd.timeWindowMsec % 2 ^ 32, begin := now }
          monOps := monOpsOf channelMap before } pvUri := by
  have hnone : getMonitorOp channelMap pvUri = none := by
    rw [← Option.isNone_iff_eq_none, ← Option.not_isSome, getMonitorOp_isSome, hpv]
    rfl
  rw [submit, collect_of_wellFormed _ hbefore, collect, hnone]
  rfl

theorem submit_of_wellFormed {cmd : SnapshotCommand} {now : Int}
    (horder : ∀ pvUri ∈ order, wellFormed pvUri = true) :
    submit channelMap cmd order now =
      { cmd, info := { timeoutMs := cmd.timeWindowMsec % 2 ^ 32, begin := now }
        monOps := monOpsOf channelMap order } := by
  have hcollect (start : OneShotSnapshot) : collect channelMap order start =
      { start with monOps := start.monOps ++ monOpsOf channelMap order } := by
    have hall : collect channelMap (order ++ []) start = collect channelMap []
        { start with monOps := start.monOps ++ monOpsOf channelMap order } :=
      collect_of_wellFormed [] horder
    rwa [List.append_nil] at hall
  rw [submit, hcollect]
  rfl

theorem filter_of_wellFormed {before : List String}
    (hbefore : ∀ pvUri ∈ before, wellFormed pvUri = true) : before.filter wellFormed = before :=
  List.filter_eq_self.2 hbefore

/-- What a start leaves: at most faults have been replied. -/
structure Begun (channelMap : String → Option SnapshotMonitor)
    (cmd : SnapshotCommand) (now : Int) (s : OneShotSnapshot) : Prop where
  command : s.cmd = cmd
  info : s.info = { timeoutMs := cmd.timeWindowMsec % 2 ^ 32, begin := now }
  ended : s.ended = false
  monOps : ∀ pvUri monOp, (pvUri, monOp) ∈ s.monOps → getMonitorOp channelMap pvUri = some monOp
  processed : ∀ i, s.processedIndex i = false
  replies : ∀ reply ∈ s.replies, ∃ pvUri, reply = .fault pvUri

theorem begun_submit (channelMap : String → Option SnapshotMonitor)
    (cmd : SnapshotCommand) (order : List String) (now : Int) :
    Begun channelMap cmd now (submit channelMap cmd order now) := by
  rcases exists_first_malformed order with hall | ⟨before, pvUri, after, rfl, hpv, hbefore⟩
  · rw [submit_of_wellFormed hall]
    exact ⟨rfl, rfl, rfl, getMonitorOp_of_mem, fun _ => rfl, nofun⟩
  · rw [submit_of_malformed hbefore hpv, manageFaultyReply]
    split
    · exact ⟨rfl, rfl, rfl, getMonitorOp_of_mem, fun _ => rfl, nofun⟩
    · rw [publish]
      split
      · exact ⟨rfl, rfl, rfl, getMonitorOp_of_mem, fun _ => rfl, nofun⟩
      · exact ⟨rfl, rfl, rfl, getMonitorOp_of_mem, fun _ => rfl, nofun⟩
      · refine ⟨rfl, rfl, rfl, getMonitorOp_of_mem, fun _ => rfl, fun reply hmem => ⟨pvUri, ?_⟩⟩
        exact List.mem_singleton.1 hmem

theorem Begun.sound {cmd : SnapshotCommand} {now : Int} (h : Begun channelMap cmd now s)
    (hrunning : s.failure = none) : Sound s s ∧ Ordered s := by
  constructor
  · exact {
      cmd := rfl
      info := rfl
      uris := rfl
      failure := hrunning
      faults := fun _ => rfl
      data := by
        intro i
        have hzero : s.replies.countP (OneShotReply.isData i) = 0 := by
          refine List.countP_eq_zero.2 fun reply hmem => ?_
          obtain ⟨pvUri, rfl⟩ := h.replies reply hmem
          exact Bool.false_ne_true
        rw [hzero]
        exact Nat.zero_le _
      indices := by
        intro i pvData hmem
        obtain ⟨pvUri, hfault⟩ := h.replies _ hmem
        cases hfault }
  · constructor
    · intro _ reply hmem
      obtain ⟨pvUri, rfl⟩ := h.replies reply hmem
      rfl
    · intro hended
      rw [h.ended] at hended
      cases hended

/-- A run whose state is without a failure. -/
theorem sound_of_run {cmd : SnapshotCommand} {now : Int}
    (hid : cmd.replyId.utf8ByteSize < 2 ^ 32)
    (hrun : Run (next merge) (Clean merge) (submit channelMap cmd order now) polls s)
    (hrunning : s.failure = none) : Sound (submit channelMap cmd order now) s ∧ Ordered s := by
  have hbegun := begun_submit channelMap cmd order now
  have hsize : (submit channelMap cmd order now).cmd.replyId.utf8ByteSize < 2 ^ 32 := by
    rw [hbegun.command]
    exact hid
  refine hrun.invariant (I := fun _ s => s.failure = none →
    Sound (submit channelMap cmd order now) s ∧ Ordered s) hbegun.sound ?_ hrunning
  intro _ s poll t hinv hclean hnext _
  have hbefore : s.failure = none := (running_of_next hnext).2.1
  have hsound := sound_of_next (hinv hbefore).1 (hinv hbefore).2 hsize hclean hnext
  exact ⟨hsound.1, hsound.2.1⟩

/-- What a start leaves where no URI follows a malformed one. -/
structure Started (order : List String) (s : OneShotSnapshot) : Prop where
  sampled : s.monOps.map Prod.fst = order.filter wellFormed
  failure : s.failure = none
  replies : s.replies = (order.filter fun pvUri => !wellFormed pvUri).map .fault

theorem started_of_faultless {cmd : SnapshotCommand} {now : Int} (h : Faultless cmd order) :
    Started order (submit channelMap cmd order now) := by
  rcases exists_first_malformed order with hall | ⟨before, pvUri, after, rfl, hpv, hbefore⟩
  · rw [submit_of_wellFormed hall]
    refine ⟨map_fst_monOpsOf order, rfl, ?_⟩
    have hnone : order.filter (fun pvUri => !wellFormed pvUri) = [] := by
      refine List.filter_eq_nil_iff.2 fun pvUri hmem => ?_
      simp [hall pvUri hmem]
    rw [hnone]
    rfl
  · obtain ⟨rfl, htopic, hpushed⟩ := h before pvUri after rfl hpv
    have hpush := publish_of_isPushed
      (s := { cmd, info := { timeoutMs := cmd.timeWindowMsec % 2 ^ 32, begin := now }
              monOps := monOpsOf channelMap before }) hpushed
    have hnone : before.filter (fun pvUri => !wellFormed pvUri) = [] := by
      refine List.filter_eq_nil_iff.2 fun other hmem => ?_
      simp [hbefore other hmem]
    rw [submit_of_malformed hbefore hpv, manageFaultyReply, if_neg htopic, hpush]
    refine ⟨?_, rfl, ?_⟩
    · simp [map_fst_monOpsOf, List.filter_append, hpv]
    · simp [List.filter_append, hnone, hpv]

/-- The faults of the malformed URIs of a set. -/
theorem countP_faults (hnodup : order.Nodup) {pvUri : String} (hmem : pvUri ∈ order)
    (hpv : wellFormed pvUri = false) :
    ((order.filter fun other => !wellFormed other).map OneShotReply.fault).countP
      (OneShotReply.isFault pvUri) = 1 := by
  have hcount : ((order.filter fun other => !wellFormed other).map OneShotReply.fault).countP
      (OneShotReply.isFault pvUri) =
        (order.filter fun other => !wellFormed other).count pvUri := by
    rw [List.countP_map]
    rfl
  rw [hcount]
  refine List.count_eq_one_of_mem (hnodup.filter _) (List.mem_filter.2 ⟨hmem, ?_⟩)
  rw [hpv]
  rfl

theorem Sound.complete {start : OneShotSnapshot}
    (hstart : Started order start) (h : Sound start s) (hordered : Ordered s)
    (hnodup : order.Nodup) : Complete order s where
  sampled := h.uris.trans hstart.sampled
  faults := by
    intro pvUri hmem hpv
    rw [h.faults pvUri, hstart.replies]
    exact countP_faults hnodup hmem hpv
  data := by
    intro i
    refine (h.data i).trans ?_
    split
    · exact le_refl 1
    · exact Nat.zero_le 1
  indices := h.indices
  running := h.failure
  unfinished := hordered.unfinished
  completion := hordered.completion

/-- A start whose replies are complete had no URI after a malformed one. -/
theorem faultless_of_complete {cmd : SnapshotCommand} {now : Int} (hnodup : order.Nodup)
    (h : Complete order (submit channelMap cmd order now)) : Faultless cmd order := by
  intro first pvUri after horder hpv
  rcases exists_first_malformed order with hall | ⟨before, found, rest, rfl, hfound, hbefore⟩
  · rw [hall pvUri (by rw [horder]; simp)] at hpv
    cases hpv
  · rw [submit_of_malformed hbefore hfound] at h
    have hfault := h.faults found (by simp) hfound
    have hsampled := h.sampled
    have hrunning := h.running
    rw [manageFaultyReply] at hfault hsampled
    by_cases htopic : cmd.replyTopic = ""
    · rw [if_pos htopic] at hfault
      cases hfault
    · rw [if_neg htopic] at hfault hsampled
      have hpushed : (OneShotReply.fault found).isPushed cmd = true := by
        rw [OneShotReply.isPushed]
        rw [publish] at hfault
        cases hpush : (OneShotReply.fault found).push cmd with
        | error failure => simp [hpush] at hfault
        | ok message =>
            cases message with
            | none => simp [hpush] at hfault
            | some message => rfl
      have hpublish := publish_of_isPushed
        (s := { cmd, info := { timeoutMs := cmd.timeWindowMsec % 2 ^ 32, begin := now }
                monOps := monOpsOf channelMap before }) hpushed
      rw [hpublish, map_fst_monOpsOf, filter_of_wellFormed hbefore, List.filter_append,
        filter_of_wellFormed hbefore, List.filter_cons_of_neg (by simp [hfound])] at hsampled
      have hrest : rest.filter wellFormed = [] := by simpa using hsampled
      -- a malformed URI in the rest would have a fault of its own
      have hnil : rest = [] := by
        refine List.eq_nil_iff_forall_not_mem.2 fun other hmem => ?_
        have hother : wellFormed other = false := by
          simpa using List.filter_eq_nil_iff.1 hrest other hmem
        have hone := h.faults other (by simp [hmem]) hother
        rw [manageFaultyReply, if_neg htopic, hpublish] at hone
        have hsame : found = other := by
          by_contra hne
          simp [OneShotReply.isFault, hne] at hone
        subst hsame
        have hdistinct := (List.nodup_append.1 hnodup).2.1
        exact (List.nodup_cons.1 hdistinct).1 hmem
      subst hnil
      -- so the malformed URI is the first one, and it is the last URI
      have hin : pvUri ∈ before ++ [found] := by rw [horder]; simp
      have hpvFound : pvUri = found := by
        rcases List.mem_append.1 hin with hmem | hmem
        · rw [hbefore pvUri hmem] at hpv
          cases hpv
        · exact List.mem_singleton.1 hmem
      subst hpvFound
      refine ⟨?_, htopic, hpushed⟩
      have hlast := congrArg List.getLast? horder
      have hnot := (List.nodup_append.1 (horder ▸ hnodup)).2.1
      by_contra hne
      obtain ⟨last, hlastAfter⟩ := Option.isSome_iff_exists.1 (List.getLast?_isSome.2 hne)
      have hmem : last ∈ after := List.mem_of_getLast? hlastAfter
      have hsame : pvUri = last := by
        simpa [List.getLast?_append, List.getLast?_cons, hlastAfter] using hlast
      exact (List.nodup_cons.1 hnot).1 (hsame ▸ hmem)

/-- The task has ended once its time is over. -/
theorem complete_of_run {cmd : SnapshotCommand} {now : Int} (hfaultless : Faultless cmd order)
    (hnodup : order.Nodup) (hid : cmd.replyId.utf8ByteSize < 2 ^ 32)
    (hrun : Run (next merge) (Clean merge) (submit channelMap cmd order now) polls s) :
    Complete order s ∧
      ((∃ poll ∈ polls, poll.now - now > cmd.timeWindowMsec % 2 ^ 32 * 1000000) →
        s.ended = true) := by
  have hbegun := begun_submit channelMap cmd order now
  have hstart : Started order (submit channelMap cmd order now) :=
    started_of_faultless hfaultless
  have hinv : (Sound (submit channelMap cmd order now) s ∧ Ordered s) ∧
      ((∃ poll ∈ polls, poll.now - now > cmd.timeWindowMsec % 2 ^ 32 * 1000000) →
        s.ended = true) := by
    refine hrun.invariant (I := fun polls s => (Sound (submit channelMap cmd order now) s ∧
      Ordered s) ∧ ((∃ poll ∈ polls, poll.now - now > cmd.timeWindowMsec % 2 ^ 32 * 1000000) →
        s.ended = true)) ?_ ?_
    · exact ⟨hbegun.sound hstart.failure, fun ⟨_, hmem, _⟩ => absurd hmem List.not_mem_nil⟩
    · intro polls s poll t hinv hclean hnext
      have hsize : (submit channelMap cmd order now).cmd.replyId.utf8ByteSize < 2 ^ 32 := by
        rw [hbegun.command]
        exact hid
      obtain ⟨hsound, hordered, hended⟩ := sound_of_next hinv.1.1 hinv.1.2 hsize hclean hnext
      refine ⟨⟨hsound, hordered⟩, ?_⟩
      rintro ⟨late, hmem, hlate⟩
      rcases List.mem_append.1 hmem with hbefore | hlast
      · have hover := hinv.2 ⟨late, hbefore, hlate⟩
        rw [next, hover] at hnext
        cases hnext
      · obtain rfl := List.mem_singleton.1 hlast
        rw [hended, hbegun.info, WorkerAsyncOperation.isTimeout, if_pos hlate]
  exact ⟨hinv.1.1.complete hstart hinv.1.2 hnodup, hinv.2⟩

/-- The replies were complete at the start as well. -/
theorem Complete.start {cmd : SnapshotCommand} {now : Int} (h : Complete order s)
    (hsound : Sound (submit channelMap cmd order now) s)
    (hrunning : (submit channelMap cmd order now).failure = none) :
    Complete order (submit channelMap cmd order now) := by
  obtain ⟨hself, hordered⟩ := (begun_submit channelMap cmd order now).sound hrunning
  exact {
    sampled := hsound.uris.symm.trans h.sampled
    faults := fun pvUri hmem hpv => (hsound.faults pvUri).symm.trans (h.faults pvUri hmem hpv)
    data := fun i => (hself.data i).trans (by split <;> omega)
    indices := hself.indices
    running := hrunning
    unfinished := hordered.unfinished
    completion := hordered.completion }

/-- For an order of the set of URIs and every run: all replies are sent, all well-formed URIs are
sampled and the task ends once it is run after its window, if and only if no URI follows a malformed
one, whose fault is replied, and all looks of the run are clean. -/
theorem complete_iff (merge : SnapshotMerger) (channelMap : String → Option SnapshotMonitor)
    {obj : CommandObject} {cmd : SnapshotCommand}
    (hparse : MapToCommand.parse obj.members = .ok (some (.snapshot cmd)))
    {order : List String} (hnodup : order.Nodup) (now : Int) {polls : List SnapshotPoll}
    {s : OneShotSnapshot}
    (hrun : AnyRun (next merge) (submit channelMap cmd order now) polls s) :
    (Complete order s ∧
      ((∃ poll ∈ polls, poll.now - now > cmd.timeWindowMsec % 2 ^ 32 * 1000000) →
        s.ended = true)) ↔
    Faultless cmd order ∧
      Run (next merge) (Clean merge) (submit channelMap cmd order now) polls s := by
  have hid : cmd.replyId.utf8ByteSize < 2 ^ 32 := by
    have hcommand : cmd.toCommand = MapToCommand.command obj.members :=
      MapToCommand.command_of_parse _ _ hparse
    rw [hcommand]
    exact CMDController.checkForReplyId_size obj
  constructor
  · rintro ⟨hcomplete, -⟩
    obtain ⟨hstart, hclean⟩ := clean_of_run hrun hcomplete.running
    have hsound := (sound_of_run hid hclean hcomplete.running).1
    exact ⟨faultless_of_complete hnodup (hcomplete.start hsound hstart), hclean⟩
  · rintro ⟨hfaultless, hclean⟩
    exact complete_of_run hfaultless hnodup hid hclean

/-- `{"command": "snapshot", "pv_name_list": ["pva://a", "bad"], "time_window_msec": 1000, ...}` -/
def snapshotObject : CommandObject where
  members := [(keyCommand, .string "snapshot"),
    (keyPvNameList, .array [.string "pva://a", .string "bad"]),
    (keyTimeWindowMsec, .int 1000), (keyReplyTopic, .string "t"), (keyReplyId, .string "r")]
  keys_nodup := by
    show [keyCommand, keyPvNameList, keyTimeWindowMsec, keyReplyTopic, keyReplyId].Nodup
    decide
  strings := by
    intro key text h
    have hmem := MapToCommand.mem_of_lookup h
    simp only [List.mem_cons, Prod.mk.injEq, Json.string.injEq, List.not_mem_nil, or_false,
      reduceCtorEq, and_false, false_or] at hmem
    rcases hmem with ⟨-, rfl⟩ | ⟨-, rfl⟩ | ⟨-, rfl⟩ <;> decide

/-- The snapshot of the object. -/
def snapshotCommand : SnapshotCommand where
  replyTopic := "t"
  replyId := "r"
  pvNameList := ["pva://a", "bad"]
  timeWindowMsec := 1000

theorem snapshotObject_parse : MapToCommand.parse snapshotObject.members =
    .ok (some (.snapshot snapshotCommand)) := rfl

/-- The malformed URI comes last. -/
theorem faultless_last : Faultless snapshotCommand ["pva://a", "bad"] := by
  intro before pvUri after horder hpv
  match before, horder with
  | [], horder =>
      obtain ⟨rfl, -⟩ := List.cons.inj horder
      exact absurd hpv (by decide +kernel)
  | [_], horder =>
      obtain ⟨-, hrest⟩ := List.cons.inj horder
      obtain ⟨rfl, rfl⟩ := List.cons.inj hrest
      exact ⟨rfl, by decide, by decide +kernel⟩
  | _ :: _ :: rest, horder =>
      have hlength := congrArg List.length horder
      simp only [List.length_append, List.length_cons, List.length_nil] at hlength
      omega

/-- The snapshot ends at the end of its window. -/
theorem complete_iff_last : ∃ s,
    Run (next fun principal _ => principal.1) (Clean fun principal _ => principal.1)
      (submit (fun _ => none) snapshotCommand ["pva://a", "bad"] 0) [⟨1000000001, fun _ => {}⟩] s ∧
    Complete ["pva://a", "bad"] s ∧ s.ended = true := by
  obtain ⟨s, hrun, -⟩ := exists_run (next fun principal _ => principal.1)
    (Clean fun principal _ => principal.1)
    (submit (fun _ => none) snapshotCommand ["pva://a", "bad"] 0) [⟨1000000001, fun _ => {}⟩]
    (fun s => s.ended) (by decide +kernel)
  have hcomplete := (complete_iff (fun principal _ => principal.1) (fun _ => none)
    snapshotObject_parse (by decide) 0 hrun.any).2 ⟨faultless_last, hrun⟩
  exact ⟨s, hrun, hcomplete.1, hcomplete.2 ⟨_, List.mem_singleton_self _, by decide⟩⟩

/-- The malformed URI comes first: the loop is left, and the other PV is not sampled. -/
theorem not_complete_first :
    ¬ ∀ (merge : SnapshotMerger)
      (channelMap : String → Option SnapshotMonitor) (obj : CommandObject)
      (cmd : SnapshotCommand) (order : List String) (now : Int) (polls : List SnapshotPoll)
      (s : OneShotSnapshot), MapToCommand.parse obj.members = .ok (some (.snapshot cmd)) →
      cmd.replyTopic ≠ "" → order.Perm cmd.pvNameList →
      Run (next merge) (Clean merge) (submit channelMap cmd order now) polls s →
        Complete order s := by
  intro hall
  have hcomplete := hall (fun principal _ => principal.1) (fun _ => none) snapshotObject
    snapshotCommand
    ["bad", "pva://a"] 0 [] _ rfl (by decide) (by decide) .nil
  exact absurd hcomplete.sampled (by decide +kernel)

end OneShotSnapshot

end K2eg
