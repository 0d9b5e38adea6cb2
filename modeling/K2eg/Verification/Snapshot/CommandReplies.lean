import K2eg.Verification.Snapshot.Promise

/-! # The replies to the snapshot commands

A command is replied to when it ends, unless an exception has left it: one of the broker calls of
a start, or the second `get_future` of an operation that is stopped twice. -/

namespace K2eg

variable {V : Type*}

open Interleaving

namespace ContinuousSnapshotManager

open SnapshotPipeline

variable {threads : ℕ} {m t : ContinuousSnapshotManager V} {command o : ℕ} {cmd : Command}
  {label : SnapshotStep V} {labels : List (SnapshotStep V)}

/-- The command that arrives with a step. -/
def received? : SnapshotStep V → Option (ℕ × Command)
  | .receiveStart command cmd _ => some (command, cmd.toCommand)
  | .receiveStop command cmd => some (command, cmd.toCommand)
  | .receiveTrigger command cmd => some (command, cmd.toCommand)
  | _ => none

/-- The command that has arrived under a number. -/
def arrived (labels : List (SnapshotStep V)) (command : ℕ) : Option Command :=
  (labels.filterMap received?).lookup command

/-- The reply goes to the command's reply topic and has its id. -/
def Answers (cmd : Command) (reply : PublishMessage ContinuousSnapshotCommandReply) : Prop :=
  reply.queue = cmd.replyTopic ∧ reply.payload.replyId = cmd.replyId

/-- The last submission of an operation has published its Tail, and the operation is in none of
the maps. -/
structure Gone (m : ContinuousSnapshotManager V) (o : ℕ) : Prop where
  tail : ∃ task ∈ m.tasks o, task.lastSubmission = true ∧
    TailPublished (m.log o) task.iterationId
  running : ∀ entry ∈ m.snapshotRunning, entry.2 ≠ o
  linked : ∀ pvName, (pvName, o) ∉ m.pvSnapshotMap

/-- Every command that has ended has exactly one reply; a start that has failed has registered
nothing; and the stop of an operation is replied to when it is gone. -/
structure Replied (threads : ℕ) (labels : List (SnapshotStep V))
    (m : ContinuousSnapshotManager V) : Prop where
  once : ∀ command started, m.commands command = .ended started → ∃ cmd reply,
    arrived labels command = some cmd ∧ m.repliesTo command = [reply] ∧ Answers cmd reply
  traceless : ∀ command, m.commands command = .ended none → ∀ o < m.opCount,
    m.startedBy o ≠ command
  stopped : ∀ command t, next threads m (.stopReply command) = some t →
    ∃ cmd o, m.commands command = .stopWaiting cmd o ∧ m.Gone o

/-- A stop finds no operation whose future has been retrieved. -/
def stopsFirst (m : ContinuousSnapshotManager V) : CommandPhase → Bool
  | .stopReceived cmd => cmd.snapshotName == "" ||
    (m.findRunning (getQueueFromSnapshotName cmd.snapshotName)).all fun o =>
      !(m.ops o).futureRetrieved
  | _ => true

/-- The broker calls of a start return, and no operation is stopped twice. -/
def isPromised (m : ContinuousSnapshotManager V) : SnapshotStep V → Bool
  | .startCreateQueue _ returns | .startGetQueueMetadata _ returns => returns
  | .stopMark command => m.stopsFirst (m.commands command)
  | _ => true

/-- The step is one that the commands are promised. -/
def Promised (m : ContinuousSnapshotManager V) (label : SnapshotStep V) : Prop :=
  m.isPromised label = true

instance (m : ContinuousSnapshotManager V) (label : SnapshotStep V) :
    Decidable (m.Promised label) :=
  inferInstanceAs (Decidable (_ = true))

/-! ## The reply to a command -/

/-- The fields of the command that is in a phase. -/
def request (m : ContinuousSnapshotManager V) : CommandPhase → Option Command
  | .startReceived cmd _ | .startChecked cmd _ | .startPrepared cmd _ | .startQueueCreated cmd _
  | .startDescribed cmd _ => some cmd.toCommand
  | .startActivating o _ => some (m.ops o).cmd.toCommand
  | .stopReceived cmd | .stopWaiting cmd _ => some cmd.toCommand
  | .triggerReceived cmd => some cmd.toCommand
  | .absent | .ended _ => none

/-- A command that has ended has exactly one reply, and has none before. -/
def Status (m : ContinuousSnapshotManager V) (command : ℕ) : Option Command → Prop
  | none => m.commands command = .absent ∧ m.repliesTo command = []
  | some cmd =>
    (m.request (m.commands command) = some cmd ∧ m.repliesTo command = []) ∨
      ∃ started reply, m.commands command = .ended started ∧ m.repliesTo command = [reply] ∧
        Answers cmd reply

variable {received : Option Command} {phase : CommandPhase}

theorem Status.of_absent (h : m.Status command received) (habsent : m.commands command = .absent) :
    received = none ∧ m.repliesTo command = [] := by
  cases received with
  | none => exact ⟨rfl, h.2⟩
  | some cmd =>
      rcases h with ⟨hrequest, -⟩ | ⟨started, reply, hended, -⟩
      · rw [habsent] at hrequest
        cases hrequest
      · rw [habsent] at hended
        cases hended

/-- A command that is under way has no reply. -/
theorem Status.of_request (h : m.Status command received) (hphase : m.commands command = phase)
    (hrequest : m.request phase = some cmd) :
    received = some cmd ∧ m.repliesTo command = [] := by
  subst hphase
  cases received with
  | none =>
      rw [h.1] at hrequest
      cases hrequest
  | some other =>
      rcases h with ⟨hother, hnone⟩ | ⟨started, reply, hended, -⟩
      · exact ⟨hother.symm.trans hrequest, hnone⟩
      · rw [hended] at hrequest
        cases hrequest

theorem status_setCommand (hrequest : m.request phase = some cmd)
    (hnone : m.repliesTo command = []) :
    (m.setCommand command phase).Status command (some cmd) := by
  refine .inl ⟨?_, hnone⟩
  have hphase : (m.setCommand command phase).commands command = phase := Function.update_self ..
  rw [hphase]
  exact hrequest

theorem repliesTo_replyAndEnd (reply : PublishMessage ContinuousSnapshotCommandReply)
    (started : Option ℕ) :
    (m.replyAndEnd command reply started).repliesTo command = m.repliesTo command ++ [reply] := by
  simp [repliesTo, replyAndEnd]

/-- A command ends with its reply. -/
theorem status_replyAndEnd (hnone : m.repliesTo command = []) (error : Int) (message : String)
    (topic : String) (started : Option ℕ) :
    (m.replyAndEnd command (manageReply error message cmd topic) started).Status command
      (some cmd) := by
  refine .inr ⟨started, manageReply error message cmd topic, Function.update_self .., ?_, rfl, rfl⟩
  rw [repliesTo_replyAndEnd, hnone, List.nil_append]

/-- The step of a command keeps its books. -/
theorem Status.own (h : m.Status command received) (hcommand : commandOf label = some command)
    (hpromised : m.Promised label) (hnext : next threads m label = some t) :
    t.Status command (received.or ((received? label).map Prod.snd)) := by
  cases transition_of_next hnext with
  | receiveStart absent | receiveStop absent | receiveTrigger absent =>
      cases hcommand
      obtain ⟨rfl, hnone⟩ := h.of_absent absent
      exact status_setCommand rfl hnone
  | startCheck received =>
      cases hcommand
      obtain ⟨rfl, hnone⟩ := h.of_request received rfl
      rw [startCheck]
      split_ifs
      · exact status_replyAndEnd hnone ..
      · exact status_replyAndEnd hnone ..
      · exact status_setCommand rfl hnone
  | startPrepare checked =>
      cases hcommand
      obtain ⟨rfl, hnone⟩ := h.of_request checked rfl
      rw [startPrepare]
      split
      · exact status_replyAndEnd hnone ..
      · exact status_setCommand rfl hnone
  | startCreateQueue hphase | startGetQueueMetadata hphase =>
      cases hcommand
      obtain ⟨rfl, hnone⟩ := h.of_request hphase rfl
      obtain rfl : _ = true := hpromised
      exact status_setCommand rfl hnone
  | @startRegister _ cmd created described =>
      cases hcommand
      obtain ⟨rfl, hnone⟩ := h.of_request described rfl
      refine .inl ⟨?_, hnone⟩
      have hphase : (m.startRegister command cmd created).commands command =
          .startActivating m.opCount cmd.pvNameList := Function.update_self ..
      have hop : (m.startRegister command cmd created).ops m.opCount = .ofCommand cmd created :=
        Function.update_self ..
      rw [hphase, request, hop]
      rfl
  | @startActivate _ _ uri _ activating =>
      cases hcommand
      obtain ⟨rfl, hnone⟩ := h.of_request activating rfl
      obtain ⟨-, -, -, hreplies⟩ := m.monitorChannel_same uri true
      apply status_setCommand
      · rw [request, monitorChannel_pipeline]
      · rw [repliesTo_congr hreplies, hnone]
  | startReply activated =>
      cases hcommand
      obtain ⟨rfl, hnone⟩ := h.of_request activated rfl
      exact status_replyAndEnd hnone ..
  | stopMark received =>
      cases hcommand
      obtain ⟨rfl, hnone⟩ := h.of_request received rfl
      rw [Promised, isPromised, received, stopsFirst, Bool.or_eq_true, beq_iff_eq] at hpromised
      rw [stopMark]
      split
      · exact status_replyAndEnd hnone ..
      · rename_i hname
        split
        · exact status_replyAndEnd hnone ..
        · rename_i o hfound
          have hretrieved := hpromised.resolve_left hname
          rw [hfound] at hretrieved
          dsimp only
          rw [if_neg (by simpa using hretrieved)]
          exact status_setCommand rfl hnone
  | stopReply waiting =>
      cases hcommand
      obtain ⟨rfl, hnone⟩ := h.of_request waiting rfl
      exact status_replyAndEnd hnone ..
  | trigger received =>
      cases hcommand
      obtain ⟨rfl, hnone⟩ := h.of_request received rfl
      rw [triggerSnapshot]
      split
      · exact status_replyAndEnd hnone ..
      · split
        · rename_i o _
          have hnone' : (m.setPipeline (m.setOp o
            { m.ops o with requestToTrigger := true })).repliesTo _ = [] := hnone
          exact status_replyAndEnd hnone' ..
        · exact status_replyAndEnd hnone ..
  | checkerScan | checkerVisit | removeUri | leave | checkerSchedule | checkerAcquire
  | checkerSleep | dequeue | task => cases hcommand

/-- The other commands stay as they are. -/
theorem Status.others (h : m.Status command received) (hsame : SameCommand m t command)
    (hcmd : ∀ o uris, m.commands command = .startActivating o uris →
      (t.ops o).cmd = (m.ops o).cmd) : t.Status command received := by
  cases received with
  | none => exact ⟨hsame.1.trans h.1, hsame.2.trans h.2⟩
  | some cmd =>
      rcases h with ⟨hrequest, hnone⟩ | ⟨started, reply, hended, hreply, hanswers⟩
      · refine .inl ⟨?_, hsame.2.trans hnone⟩
        rw [hsame.1, ← hrequest]
        cases hphase : m.commands command with
        | startActivating o uris => rw [request, request, hcmd o uris hphase]
        | _ => rfl
      · exact .inr ⟨started, reply, hsame.1.trans hended, hsame.2.trans hreply, hanswers⟩

/-- The operations that are registered keep their commands. -/
theorem cmd_of_next (h : Registry m.toSnapshotPipeline) (hnext : next threads m label = some t)
    (hlt : o < m.opCount) : (t.ops o).cmd = (m.ops o).cmd := by
  have hkept : Registry t.toSnapshotPipeline ∧ o < t.opCount ∧
      (t.ops o).cmd = (m.ops o).cmd := by
    refine next_keeps (I := fun p => Registry p ∧ o < p.opCount ∧
      (p.ops o).cmd = (m.ops o).cmd) hnext ?_ ⟨h, hlt, rfl⟩
    rintro p p' ⟨hregistry, hlt', hcmd⟩ hmove
    refine ⟨hregistry.moves hmove, ?_⟩
    rcases hregistry.same_entries hmove with ⟨cmd, created, -, rfl⟩ | ⟨hcount, hentries⟩
    · rw [register_ops, Function.update_of_ne hlt'.ne]
      exact ⟨Nat.lt_succ_of_lt hlt', hcmd⟩
    · rw [hcount, (hentries o).1]
      exact ⟨hlt', hcmd⟩
  exact hkept.2.2

theorem commandOf_of_received (h : received? label = some (command, cmd)) :
    commandOf label = some command := by
  cases label <;> cases h
  all_goals rfl

theorem arrived_snoc (hcommand : commandOf label = some command) :
    arrived (labels ++ [label]) command =
      (arrived labels command).or ((received? label).map Prod.snd) := by
  rw [arrived, List.filterMap_append, List.lookup_append, ← arrived]
  cases hreceived : received? label with
  | none => simp [hreceived]
  | some entry =>
      obtain ⟨other, cmd⟩ := entry
      have hsame := (commandOf_of_received hreceived).symm.trans hcommand
      obtain rfl := Option.some.inj hsame
      have hlist : [label].filterMap received? = [(other, cmd)] := by
        rw [List.filterMap_cons_some hreceived, List.filterMap_nil]
      rw [hlist, List.lookup_cons_self]
      rfl

theorem arrived_snoc_of_ne (hcommand : commandOf label ≠ some command) :
    arrived (labels ++ [label]) command = arrived labels command := by
  rw [arrived, List.filterMap_append, List.lookup_append, ← arrived]
  cases hreceived : received? label with
  | none => simp [hreceived]
  | some entry =>
      have hne : (command == entry.1) = false := by
        refine beq_false_of_ne fun heq => hcommand ?_
        rw [commandOf_of_received hreceived, heq]
      have hlist : [label].filterMap received? = [entry] := by
        rw [List.filterMap_cons_some hreceived, List.filterMap_nil]
      rw [hlist, List.lookup_cons, hne, List.lookup_nil, Option.or_none]

theorem Status.next (h : m.Status command (arrived labels command)) (hstarts : m.Starts)
    (hregistry : Registry m.toSnapshotPipeline) (hpromised : m.Promised label)
    (hnext : next threads m label = some t) :
    t.Status command (arrived (labels ++ [label]) command) := by
  by_cases hcommand : commandOf label = some command
  · rw [arrived_snoc hcommand]
    exact h.own hcommand hpromised hnext
  · rw [arrived_snoc_of_ne hcommand]
    refine h.others (next_others hnext hcommand) fun o uris hphase => ?_
    exact cmd_of_next hregistry hnext (hstarts _ _ _ hphase).2

/-! ## Operations and the starts that have registered them -/

/-- The start that has registered an operation is still enabling its monitors, or has reported
it. -/
def Traced (m : ContinuousSnapshotManager V) : Prop :=
  ∀ o < m.opCount, (∃ uris, m.commands (m.startedBy o) = .startActivating o uris) ∨
    m.commands (m.startedBy o) = .ended (some o)

/-- A command that has ended takes no step. -/
theorem next_of_ended {started : Option ℕ} (hended : m.commands command = .ended started)
    (hcommand : commandOf label = some command) : next threads m label = none := by
  cases label <;> simp only [commandOf, Option.some.injEq, reduceCtorEq] at hcommand <;>
    subst hcommand <;> simp only [ContinuousSnapshotManager.next, hended]

/-- A start that enables monitors goes on with them, or ends with its reply. -/
theorem next_of_activating {uris : List String}
    (hphase : m.commands command = .startActivating o uris)
    (hcommand : commandOf label = some command) (hnext : next threads m label = some t) :
    (∃ rest, t.commands command = .startActivating o rest) ∨
      t.commands command = .ended (some o) := by
  cases label <;> simp only [commandOf, Option.some.injEq, reduceCtorEq] at hcommand <;>
    subst hcommand <;> simp only [ContinuousSnapshotManager.next, hphase, reduceCtorEq] at hnext
  case startActivate =>
    cases uris with
    | nil => cases hnext
    | cons uri rest =>
        cases hnext
        exact .inl ⟨rest, Function.update_self ..⟩
  case startReply =>
    cases uris with
    | nil =>
        cases hnext
        exact .inr (Function.update_self ..)
    | cons uri rest => cases hnext

theorem Traced.keep (h : m.Traced) (hnext : next threads m label = some t) (hlt : o < m.opCount)
    (hby : t.startedBy o = m.startedBy o) :
    (∃ uris, t.commands (t.startedBy o) = .startActivating o uris) ∨
      t.commands (t.startedBy o) = .ended (some o) := by
  rw [hby]
  by_cases hcommand : commandOf label = some (m.startedBy o)
  · rcases h o hlt with ⟨uris, hphase⟩ | hended
    · exact next_of_activating hphase hcommand hnext
    · rw [next_of_ended hended hcommand] at hnext
      cases hnext
  · rw [(next_others hnext hcommand).1]
    exact h o hlt

theorem Traced.next (h : m.Traced) (hregistry : Registry m.toSnapshotPipeline)
    (hnext : next threads m label = some t) : t.Traced := by
  intro o hlt
  cases next_booked hregistry hnext with
  | same starts pending startedBy links refs count remaining =>
      rw [count] at hlt
      exact h.keep hnext hlt (congrFun startedBy o)
  | @register command cmd created described sleeping =>
      rcases Nat.lt_succ_iff_lt_or_eq.1 hlt with hold | hnew
      · exact h.keep hnext hold (Function.update_of_ne hold.ne ..)
      · refine .inl ⟨cmd.pvNameList, ?_⟩
        have hby : (m.startRegister command cmd created).startedBy o = command := by
          rw [hnew]
          exact Function.update_self ..
        rw [hby, hnew]
        exact Function.update_self ..
  | @activate command started uri uris activating =>
      have hby := (m.monitorChannel_same uri true).2.1
      have hcount : (m.monitorChannel uri true).opCount = m.opCount := by
        rw [monitorChannel_pipeline]
      refine h.keep hnext ?_ (congrFun hby o)
      rw [← hcount]
      exact hlt
  | @remove now todo removed submission uri uris removing =>
      exact h.keep hnext hlt (congrFun (m.removeUri_same removed uri).2.1 o)

/-! ## Links -/

/-- The links of an operation that has been running are those of the URIs that have not been taken
out. -/
structure Bound (m : ContinuousSnapshotManager V) : Prop where
  registered : ∀ pvName o, (pvName, o) ∈ m.pvSnapshotMap → o < m.opCount
  links : ∀ o, Known m.toSnapshotPipeline o → ∀ pvName,
    m.pvSnapshotMap.count (pvName, o) = (sanitizedNames (m.remaining o)).count pvName

theorem Bound.initial : Bound ({} : ContinuousSnapshotManager V) where
  registered := by simp
  links := fun _ _ _ => by simp [remaining, listed, Running, sanitizedNames]

theorem known_of_next (hregistry : Registry m.toSnapshotPipeline)
    (hnext : next threads m label = some t) (hcount : t.opCount = m.opCount)
    (hknown : Known t.toSnapshotPipeline o) : Known m.toSnapshotPipeline o := by
  have hkept : Registry t.toSnapshotPipeline ∧ (m.opCount < t.opCount ∨
      t.opCount = m.opCount ∧ (Known t.toSnapshotPipeline o → Known m.toSnapshotPipeline o)) := by
    refine next_keeps (I := fun p => Registry p ∧ (m.opCount < p.opCount ∨
      p.opCount = m.opCount ∧ (Known p o → Known m.toSnapshotPipeline o))) hnext ?_
        ⟨hregistry, .inr ⟨rfl, id⟩⟩
    rintro p p' ⟨hkept, hcase⟩ hmove
    refine ⟨hkept.moves hmove, ?_⟩
    rcases known_of_moves hkept hmove with hmore | ⟨hsame, hback⟩
    · rcases hcase with hlt | ⟨heq, -⟩ <;> exact .inl (by omega)
    · rcases hcase with hlt | ⟨heq, hbefore⟩
      · exact .inl (by omega)
      · exact .inr ⟨hsame.trans heq, fun hknown => hbefore (hback o hknown)⟩
  rcases hkept.2 with hlt | ⟨-, hback⟩
  · omega
  · exact hback hknown

/-- The links of a new operation; another one of its name leaves it out of `snapshot_running_`. -/
theorem Bound.register (h : Bound m) (hregistry : Registry m.toSnapshotPipeline)
    (hsleeping : m.checker = .sleeping) (cmd : RepeatingSnapshotCommand) (created : Int) :
    Bound (m.startRegister command cmd created) := by
  have hidle : ¬CheckerRemoves m.checker := by
    rw [hsleeping]
    exact id
  have hlinks : (m.startRegister command cmd created).pvSnapshotMap = m.pvSnapshotMap ++
      (sanitizedNames cmd.pvNameList).map fun pvName => (pvName, m.opCount) := rfl
  have hidle' : ¬CheckerRemoves (m.startRegister command cmd created).checker := hidle
  have hremaining (other : ℕ) : (m.startRegister command cmd created).remaining other =
      (m.register (.ofCommand cmd created)).listed other := remaining_of_idle hidle' other
  constructor
  · intro pvName other hmem
    rw [hlinks, List.mem_append] at hmem
    rcases hmem with hold | hnew
    · exact Nat.lt_succ_of_lt (h.registered pvName other hold)
    · obtain ⟨_, -, heq⟩ := List.mem_map.1 hnew
      exact Nat.lt_succ_of_le (congrArg Prod.snd heq).ge
  · intro other hknown pvName
    rw [hlinks, List.count_append, hremaining]
    by_cases hother : other = m.opCount
    · subst hother
      have hnone : m.pvSnapshotMap.count (pvName, m.opCount) = 0 :=
        List.count_eq_zero.2 fun hmem => (h.registered _ _ hmem).ne rfl
      have hfree : m.findRunning (getQueueFromSnapshotName cmd.snapshotName) = none := by
        by_contra hfound
        have hrunning : Running (m.register (.ofCommand cmd created)) m.opCount := by
          rcases hknown with hrun | hholds | hne
          · exact hrun
          · have hheld : m.checker.held = some m.opCount := hholds
            rw [hsleeping] at hheld
            cases hheld
          · exact absurd (hregistry.unregistered _ le_rfl) hne
        have hsame : (m.register (.ofCommand cmd created)).snapshotRunning = m.snapshotRunning :=
          if_pos (Option.isSome_iff_ne_none.2 hfound)
        rw [Running, hsame] at hrunning
        exact (hregistry.entries _ hrunning).1.ne rfl
      have hinjective : Function.Injective fun pvName : String => (pvName, m.opCount) :=
        fun _ _ heq => congrArg Prod.fst heq
      rw [hnone, register_listed cmd created hfree, if_pos rfl,
        List.count_map_of_injective _ _ hinjective, Nat.zero_add]
    · have hzero : ((sanitizedNames cmd.pvNameList).map fun pvName => (pvName, m.opCount)).count
          (pvName, other) = 0 := by
        refine List.count_eq_zero.2 fun hmem => ?_
        obtain ⟨_, -, heq⟩ := List.mem_map.1 hmem
        exact hother (congrArg Prod.snd heq).symm
      have hbefore : Known m.toSnapshotPipeline other := by
        rcases hknown with hrun | hholds | hne
        · exact .inl ((register_running_of_ne cmd created hother).1 hrun)
        · exact .inr (.inl hholds)
        · exact .inr (.inr hne)
      rw [hzero, Nat.add_zero, register_listed_of_ne cmd created hother, h.links other hbefore,
        remaining_of_idle hidle]

theorem Bound.next (h : Bound m) (hregistry : Registry m.toSnapshotPipeline)
    (hnext : next threads m label = some t) : Bound t := by
  have hcase := next_booked hregistry hnext
  cases hcase with
  | same starts pending startedBy links refs count remaining =>
      constructor
      · rw [links, count]
        exact h.registered
      · intro other hknown pvName
        rw [links, remaining]
        exact h.links other (known_of_next hregistry hnext count hknown) pvName
  | register described sleeping => exact h.register hregistry sleeping _ _
  | @activate command started uri uris activating =>
      have hpipeline := m.monitorChannel_pipeline uri true
      have hlinks := (m.monitorChannel_same uri true).2.2.1
      have hcount : (m.monitorChannel uri true).opCount = m.opCount := by rw [hpipeline]
      constructor
      · intro pvName other hmem
        have hlt := h.registered pvName other (hlinks ▸ hmem)
        rw [← hcount] at hlt
        exact hlt
      · intro other hknown pvName
        rw [setCommand_pipeline, hpipeline] at hknown ⊢
        rw [← h.links other hknown pvName, ← hlinks]
        rfl
  | @remove now todo removed submission uri uris removing =>
      constructor
      · intro pvName other hmem
        apply h.registered pvName other
        have herased := (m.removeUri_same removed uri).2.2.2
        have hmem' : (pvName, other) ∈ (m.removeUri removed uri).pvSnapshotMap := hmem
        rw [herased] at hmem'
        split at hmem'
        · exact hmem'
        · exact List.mem_of_mem_erase hmem'
      · intro other hknown pvName
        have hbefore := known_of_next hregistry hnext rfl hknown
        exact links_removeUri removing (h.links other hbefore pvName)

/-- When the promise of an operation is set, it has left both maps. -/
theorem gone_of_promise (hregistry : Registry m.toSnapshotPipeline)
    (htails : TailsFirst m.toSnapshotPipeline) (hbound : Bound m)
    (hset : (m.ops o).removalSet = true) : m.Gone o := by
  obtain ⟨task, hmem, hlast, htail⟩ := htails.promised o hset
  have hhas : hasLast (m.tasks o) = true := List.any_eq_true.2 ⟨task, hmem, hlast⟩
  have hrunning : ∀ entry ∈ m.snapshotRunning, entry.2 ≠ o := by
    rintro entry hentry rfl
    rw [(hregistry.entries entry hentry).2.2] at hhas
    cases hhas
  have hlisted : m.listed o = [] := if_neg fun hrun => hrunning _ hrun rfl
  have hremaining : m.remaining o = [] := by
    rw [remaining]
    split
    · rename_i removed _ _ hchecker
      have hheld := hregistry.held
      rw [hchecker] at hheld
      rw [if_neg, hlisted]
      rintro rfl
      rw [hheld.1.notLast] at hhas
      cases hhas
    · exact hlisted
  refine ⟨⟨task, hmem, hlast, htail⟩, hrunning, fun pvName hlink => ?_⟩
  have hcount := hbound.links o (.inr (.inr (List.ne_nil_of_mem hmem))) pvName
  rw [hremaining] at hcount
  exact List.count_eq_zero.1 hcount hlink

/-! ## Runs -/

/-- What every run keeps whose steps are promised. -/
structure Accounted (labels : List (SnapshotStep V)) (m : ContinuousSnapshotManager V) : Prop where
  registry : Registry m.toSnapshotPipeline
  tails : TailsFirst m.toSnapshotPipeline
  starts : m.Starts
  traced : m.Traced
  bound : m.Bound
  status : ∀ command, m.Status command (arrived labels command)

namespace Accounted

theorem initial : Accounted [] ({} : ContinuousSnapshotManager V) where
  registry := .init
  tails := .init
  starts _ _ _ hphase := by cases hphase
  traced _ hlt := absurd hlt (Nat.not_lt_zero _)
  bound := .initial
  status _ := ⟨rfl, rfl⟩

theorem next (h : Accounted labels m) (hpromised : m.Promised label)
    (hnext : next threads m label = some t) : Accounted (labels ++ [label]) t := by
  have hpipeline : Registry t.toSnapshotPipeline ∧ TailsFirst t.toSnapshotPipeline :=
    next_keeps (I := fun p => Registry p ∧ TailsFirst p) hnext
      (fun hkept hmove => ⟨hkept.1.moves hmove, hkept.2.moves hkept.1 hmove⟩)
      ⟨h.registry, h.tails⟩
  exact ⟨hpipeline.1, hpipeline.2, h.starts.next h.registry hnext, h.traced.next h.registry hnext,
    h.bound.next h.registry hnext,
    fun command => (h.status command).next h.starts h.registry hpromised hnext⟩

theorem of_run (hrun : Run (ContinuousSnapshotManager.next threads) Promised {} labels m) :
    Accounted labels m :=
  hrun.invariant (I := Accounted) .initial fun h hpromised hnext => h.next hpromised hnext

theorem replied (h : Accounted labels m) : Replied threads labels m := by
  constructor
  · intro command started hended
    have hcommand := h.status command
    cases hreceived : arrived labels command with
    | none =>
        rw [hreceived] at hcommand
        rw [hcommand.1] at hended
        cases hended
    | some cmd =>
        rw [hreceived] at hcommand
        rcases hcommand with ⟨hrequest, -⟩ | ⟨_, reply, -, hreply, hanswers⟩
        · rw [hended] at hrequest
          cases hrequest
        · exact ⟨cmd, reply, rfl, hreply, hanswers⟩
  · rintro command hended o hlt rfl
    rcases h.traced o hlt with ⟨uris, hphase⟩ | hstarted
    · rw [hphase] at hended
      cases hended
    · rw [hstarted] at hended
      cases hended
  · intro command t hnext
    cases transition_of_next hnext with
    | @stopReply _ cmd o waiting removed =>
        exact ⟨cmd, o, waiting, gone_of_promise h.registry h.tails h.bound removed⟩

/-- An exception ends a command without a reply. -/
theorem unreplied (h : Accounted labels m) (hnot : ¬m.Promised label)
    (hnext : ContinuousSnapshotManager.next threads m label = some t) :
    ∃ command, t.commands command = .ended none ∧ t.repliesTo command = [] := by
  cases transition_of_next hnext with
  | @startCreateQueue command _ _ hphase returns
  | @startGetQueueMetadata command _ _ hphase returns =>
      have hnone := ((h.status command).of_request hphase rfl).2
      obtain rfl : returns = false := by simpa [Promised, isPromised] using hnot
      exact ⟨command, Function.update_self .., hnone⟩
  | @stopMark command cmd received =>
      have hnone := ((h.status command).of_request received rfl).2
      rw [Promised, isPromised, received, stopsFirst, Bool.or_eq_true, beq_iff_eq] at hnot
      obtain ⟨hname, hretrieved⟩ := not_or.1 hnot
      cases hfound : m.findRunning (getQueueFromSnapshotName cmd.snapshotName) with
      | none => simp [hfound] at hretrieved
      | some o =>
          refine ⟨command, ?_, ?_⟩
          all_goals
            rw [stopMark, if_neg hname, hfound]
            dsimp only
            rw [if_pos (by simpa [hfound] using hretrieved)]
          · exact Function.update_self ..
          · exact hnone
  | _ => exact absurd rfl hnot

end Accounted

/-- All along a run the commands are replied to if and only if its broker calls return and no
operation is stopped twice. -/
theorem commands_replied_iff (hrun : AnyRun (next threads) {} labels m) :
    (∀ past future s, past ++ future = labels → AnyRun (next threads) {} past s →
      Replied threads past s) ↔ Run (next threads) Promised {} labels m := by
  constructor
  · intro hall
    induction hrun with
    | nil => exact .nil
    | @snoc labels s label t hbefore _ hnext ih =>
        have hpast : Run (next threads) Promised {} labels s := by
          refine ih fun past future s heq => hall past (future ++ [label]) s ?_
          rw [← List.append_assoc, heq]
        refine hpast.snoc ?_ hnext
        by_contra hnot
        obtain ⟨command, hended, hnone⟩ := (Accounted.of_run hpast).unreplied hnot hnext
        have hreplied := hall _ [] t (List.append_nil _) (hbefore.snoc trivial hnext)
        obtain ⟨_, reply, -, hreply, -⟩ := hreplied.once command none hended
        rw [hnone] at hreply
        cases hreply
  · rintro hpromised past future s rfl hs
    obtain ⟨s', hpast⟩ := hpromised.of_append
    rw [hs.deterministic hpast]
    exact (Accounted.of_run hpast).replied

open SnapshotTrace in
/-- A snapshot is started and stopped. -/
theorem commands_replied_iff_stopped : ∃ (labels : List (SnapshotStep ℕ))
    (m : ContinuousSnapshotManager ℕ), AnyRun (next 1) {} labels m ∧
      (∃ started, m.commands 1 = .ended started) ∧
      ∀ past future s, past ++ future = labels → AnyRun (next 1) {} past s →
        Replied 1 past s := by
  have hpasses : passes (next (V := ℕ) 1) Promised settle (fun m => m.isQuiescent [0, 1]) {}
      (start 0 normal ++ [.receiveStop 1 stop, .stopMark 1] ++ remove 10 ++ [.dequeue] ++
        List.replicate 10 (.task 0 0) ++ [.stopReply 1]) = true := by
    decide +kernel
  obtain ⟨m, hrun, hcheck⟩ := exists_run_of_passes settle_eq hpasses
  exact ⟨_, m, hrun.any, ended_of_isQuiescent hcheck (by simp),
    (commands_replied_iff hrun.any).2 hrun⟩

open SnapshotTrace in
/-- `createQueue` throws: the start ends without a reply. -/
theorem not_replied_createQueue : ¬∀ (labels : List (SnapshotStep ℕ))
    (m : ContinuousSnapshotManager ℕ), AnyRun (next 1) {} labels m → Replied 1 labels m := by
  intro hall
  obtain ⟨m, hrun, hcheck⟩ := exists_run (next (V := ℕ) 1) (fun _ _ => True) {}
    [.receiveStart 0 normal 0, .startCheck 0, .startPrepare 0, .startCreateQueue 0 false]
    (fun m => m.isQuiescent [0] && (m.repliesTo 0).isEmpty) (by decide +kernel)
  rw [Bool.and_eq_true, List.isEmpty_iff] at hcheck
  obtain ⟨started, hended⟩ := ended_of_isQuiescent hcheck.1 (List.mem_singleton_self 0)
  obtain ⟨_, reply, -, hreply, -⟩ := (hall _ m hrun).once 0 started hended
  rw [hcheck.2] at hreply
  cases hreply

end ContinuousSnapshotManager

end K2eg
