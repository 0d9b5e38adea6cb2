import K2eg.Model.MonitorCommandWorker
import K2eg.Verification.Monitors.Broadcasts

/-! # The replies of the monitor commands

A command is told of success when its descriptions are in the configuration and their Starts have
been handled; it is told one thing at most. -/

namespace K2eg

open Interleaving

namespace MonitorCommandWorker

open MonitorSystem

variable {R : MonitorSystem → ℕ → ℕ → ChannelMonitorType → Prop}
  {hasSerializationForType : SerializationType → Bool} {s t : MonitorCommandWorker}
  {system system' : MonitorSystem} {cmd : ConstCommand} {phase : MonitorCallPhase} {i : ℕ}
  {call : MonitorCall}

/-- The messages that a call has pushed. -/
def messagesOf (s : MonitorCommandWorker) (i : ℕ) : List (PublishMessage SerializedMessage) :=
  (s.published.filter fun message => message.1 == i).map Prod.snd

/-- What has been done for a call when it is in a phase; `R` holds of each of its Starts. -/
inductive Serves (R : MonitorSystem → ℕ → ℕ → ChannelMonitorType → Prop)
    (hasSerializationForType : SerializationType → Bool) (system : MonitorSystem)
    (cmd : ConstCommand) : MonitorCallPhase → Prop where
  | received : Serves R hasSerializationForType system cmd .received
  | registering {request} (requested : requested cmd = some request) :
      Serves R hasSerializationForType system cmd .registering
  | broadcasting {descriptions errorMessage since call handled}
      (requested : requested cmd = some (descriptions, errorMessage))
      (stored : system.Stored descriptions since)
      (broadcasts : system.Broadcasts (R system since) descriptions call handled) :
      Serves R hasSerializationForType system cmd (.broadcasting call)
  | thrown {descriptions errorMessage since}
      (requested : requested cmd = some (descriptions, errorMessage))
      (stored : system.Stored descriptions since) :
      Serves R hasSerializationForType system cmd .thrown
  | refused {startingUp replies}
      (refusal : refusal hasSerializationForType startingUp cmd = some replies) :
      Serves R hasSerializationForType system cmd (.refused replies)
  | activated {descriptions errorMessage since handled}
      (requested : requested cmd = some (descriptions, errorMessage))
      (stored : system.Stored descriptions since)
      (started : system.Started (R system since) descriptions handled none) :
      Serves R hasSerializationForType system cmd
        (.activated (manageReply 0 errorMessage cmd.command))

/-- A step keeps what is known of the Starts, and knows it of a new one. -/
structure Carries (R : MonitorSystem → ℕ → ℕ → ChannelMonitorType → Prop)
    (system system' : MonitorSystem) : Prop where
  kept : ∀ descriptions since, system.Stored descriptions since → ∀ i description,
    R system since i description → R system' since i description
  born : ∀ since monitor, system'.handlers = system.handlers.receive ⟨.start, monitor⟩ →
    R system' since system.handlers.calls.length monitor

theorem Serves.same (h : Serves R hasSerializationForType system cmd phase)
    (hmoved : Moved system system') (hcarries : Carries R system system')
    (hcalls : system.checker.calls ≤ system'.checker.calls)
    (hsame : ∀ call, phase = .broadcasting call →
      system'.checker.starts call = system.checker.starts call ∧
        system'.storing call = system.storing call) :
    Serves R hasSerializationForType system' cmd phase := by
  cases h with
  | received => exact .received
  | registering requested => exact .registering requested
  | broadcasting requested stored broadcasts =>
      obtain ⟨hstarts, hstoring⟩ := hsame _ rfl
      exact .broadcasting requested (stored.moved hmoved)
        (broadcasts.same hmoved hcalls hstarts hstoring (hcarries.kept _ _ stored))
  | thrown requested stored => exact .thrown requested (stored.moved hmoved)
  | refused refusal => exact .refused refusal
  | activated requested stored started =>
      exact .activated requested (stored.moved hmoved)
        (started.moved hmoved (hcarries.kept _ _ stored))

theorem Serves.next (h : Serves R hasSerializationForType system cmd phase)
    (hcarries : Carries R system system') {step : SystemStep}
    (hnext : system.next step = some system') :
    Serves R hasSerializationForType system' cmd phase := by
  have hmoved := moved_of_next hnext
  cases h with
  | received => exact .received
  | registering requested => exact .registering requested
  | @broadcasting descriptions _ since call _ requested stored broadcasts =>
      have hnext' : ∃ handled, system'.Broadcasts (R system' since) descriptions call handled :=
        broadcasts.next hnext (hcarries.kept _ _ stored) (hcarries.born _)
      obtain ⟨handled, hbroadcasts⟩ := hnext'
      exact .broadcasting requested (stored.moved hmoved) hbroadcasts
  | thrown requested stored => exact .thrown requested (stored.moved hmoved)
  | refused refusal => exact .refused refusal
  | activated requested stored started =>
      exact .activated requested (stored.moved hmoved)
        (started.moved hmoved (hcarries.kept _ _ stored))

/-- A command that is not refused has something to store. -/
theorem exists_requested {startingUp : Bool}
    (h : refusal hasSerializationForType startingUp cmd = none) :
    ∃ request, requested cmd = some request := by
  cases cmd with
  | monitor single =>
      by_cases htopic : single.monitorDestinationTopic = ""
      · simp [refusal, htopic, ite_eq_iff] at h
      · exact ⟨_, by rw [requested, if_neg htopic]⟩
  | multiMonitor multi => exact ⟨_, rfl⟩
  | _ => simp [refusal, ite_eq_iff] at h

/-- What has been done for the calls; no two are in the broadcasts of one call. -/
structure Answering (R : MonitorSystem → ℕ → ℕ → ChannelMonitorType → Prop)
    (hasSerializationForType : SerializationType → Bool) (s : MonitorCommandWorker) : Prop where
  fresh : s.system.Fresh
  serves : ∀ (i : ℕ) (call : MonitorCall), s.calls[i]? = some call →
    Serves R hasSerializationForType s.system call.cmd call.phase
  own : ∀ (i j : ℕ) (call other : MonitorCall) (storing : ℕ), s.calls[i]? = some call →
    s.calls[j]? = some other → call.phase = .broadcasting storing →
      other.phase = .broadcasting storing → i = j
  messages : ∀ i, s.messagesOf i =
    ((s.calls[i]?).map fun call => call.phase.messages).getD []

theorem getElem?_setPhase (hcall : s.calls[i]? = some call) (phase : MonitorCallPhase) (j : ℕ) :
    (s.calls.set i { call with phase })[j]? =
      if j = i then some { call with phase } else s.calls[j]? := by
  by_cases hj : j = i
  · subst hj
    rw [if_pos rfl, List.getElem?_set_self (List.getElem?_eq_some_iff.mp hcall).1]
  · rw [if_neg hj, List.getElem?_set_ne (Ne.symm hj)]

/-- A call goes on to another phase. -/
theorem Answering.set (h : Answering R hasSerializationForType s) (hcall : s.calls[i]? = some call)
    (hcalls : t.calls = s.calls.set i { call with phase }) (hfresh : t.system.Fresh)
    (hserves : Serves R hasSerializationForType t.system call.cmd phase)
    (hothers : ∀ (j : ℕ) (other : MonitorCall), j ≠ i → s.calls[j]? = some other →
      Serves R hasSerializationForType t.system other.cmd other.phase)
    (hown : ∀ storing, phase = .broadcasting storing →
      ∀ (j : ℕ) (other : MonitorCall), s.calls[j]? = some other →
        other.phase ≠ .broadcasting storing)
    (hmessages : t.messagesOf i = phase.messages)
    (hsame : ∀ j ≠ i, t.messagesOf j = s.messagesOf j) :
    Answering R hasSerializationForType t where
  fresh := hfresh
  serves := by
    intro j other hother
    rw [hcalls, getElem?_setPhase hcall] at hother
    split at hother
    · obtain rfl := Option.some.inj hother
      exact hserves
    · exact hothers j other ‹_› hother
  own := by
    intro j k first second storing hfirst hsecond hj hk
    rw [hcalls, getElem?_setPhase hcall] at hfirst hsecond
    split at hfirst <;> split at hsecond
    · simp_all
    · obtain rfl := Option.some.inj hfirst
      exact absurd hk (hown storing hj k second hsecond)
    · obtain rfl := Option.some.inj hsecond
      exact absurd hj (hown storing hk j first hfirst)
    · exact h.own j k first second storing hfirst hsecond hj hk
  messages := by
    intro j
    rw [hcalls, getElem?_setPhase hcall]
    split
    · simp_all
    · rw [hsame j ‹_›, h.messages]

/-- A call ends with its messages. -/
theorem messagesOf_finish (hcall : s.calls[i]? = some call)
    (h : Answering R hasSerializationForType s) (hnone : call.phase.messages = [])
    (phase : MonitorCallPhase) (j : ℕ) :
    (s.finish i call phase).messagesOf j =
      if j = i then phase.messages else s.messagesOf j := by
  have hbefore : s.messagesOf i = [] := by
    rw [h.messages, hcall]
    exact hnone
  have hsplit : (s.finish i call phase).messagesOf j = s.messagesOf j ++
      ((phase.messages.map fun message => (i, message)).filter fun message =>
        message.1 == j).map Prod.snd := by
    simp only [messagesOf, finish, List.filter_append, List.map_append]
  rw [hsplit]
  split
  · subst j
    simp [hbefore, List.filter_map, Function.comp_def]
  · rename_i hj
    simp [List.filter_map, Function.comp_def, Ne.symm hj]

/-! ### Steps -/

/-- What a step needs of the worker, and what it makes of it. -/
inductive Transition (hasSerializationForType : SerializationType → Bool)
    (s : MonitorCommandWorker) : MonitorWorkerStep → MonitorCommandWorker → Prop where
  | receives (cmd : ConstCommand) :
      Transition hasSerializationForType s (.receive cmd) { s with calls := s.calls ++ [{ cmd }] }
  | refuses {i : ℕ} {cmd : ConstCommand} {replies : Replies}
      (received : s.calls[i]? = some ⟨cmd, .received⟩)
      (refusal : refusal hasSerializationForType s.startingUp cmd = some replies) :
      Transition hasSerializationForType s (.processCommand i)
        (s.finish i ⟨cmd, .received⟩ (.refused replies))
  | admits {i : ℕ} {cmd : ConstCommand} (received : s.calls[i]? = some ⟨cmd, .received⟩)
      (refusal : refusal hasSerializationForType s.startingUp cmd = none) :
      Transition hasSerializationForType s (.processCommand i)
        (s.setPhase i ⟨cmd, .received⟩ .registering)
  | stores {i : ℕ} {cmd : ConstCommand} {descriptions : List ChannelMonitorType}
      {errorMessage : String} {system : MonitorSystem}
      (registering : s.calls[i]? = some ⟨cmd, .registering⟩)
      (requested : requested cmd = some (descriptions, errorMessage))
      (next : s.system.next (.checker (.storeRegister descriptions)) = some system) :
      Transition hasSerializationForType s (.storeMonitorData i)
        { s.setPhase i ⟨cmd, .registering⟩ (.broadcasting s.system.checker.calls) with system }
  | throws {i storing handler : ℕ} {cmd : ConstCommand} {handling : HandlerCall}
      (broadcasting : s.calls[i]? = some ⟨cmd, .broadcasting storing⟩)
      (current : s.system.storing storing = some handler)
      (started : s.system.handlers.calls[handler]? = some handling)
      (throws : throwsIn handling.phase = true) :
      Transition hasSerializationForType s (.throwStart i)
        (s.throwStart i ⟨cmd, .broadcasting storing⟩ storing handler handling)
  | replies {i storing : ℕ} {cmd : ConstCommand} {descriptions : List ChannelMonitorType}
      {errorMessage : String}
      (broadcasting : s.calls[i]? = some ⟨cmd, .broadcasting storing⟩)
      (requested : requested cmd = some (descriptions, errorMessage))
      (starts : s.system.checker.starts storing = [])
      (returned : s.system.returned (s.system.storing storing) = true) :
      Transition hasSerializationForType s (.manageReply i)
        (s.finish i ⟨cmd, .broadcasting storing⟩
          (.activated (manageReply 0 errorMessage cmd.command)))
  | startupCompleted : Transition hasSerializationForType s .startupCompleted
      { s with startingUp := false }
  | system {step : SystemStep} {system : MonitorSystem}
      (next : s.system.next step = some system) :
      Transition hasSerializationForType s (.system step) { s with system }

theorem transition_of_next {step : MonitorWorkerStep}
    (hnext : s.next hasSerializationForType step = some t) :
    Transition hasSerializationForType s step t := by
  rw [next.eq_def] at hnext
  cases step with
  | receive cmd =>
      obtain rfl := Option.some.inj hnext
      exact .receives cmd
  | processCommand i =>
      simp only at hnext
      split at hnext
      · split at hnext <;> cases hnext
        · exact .refuses ‹_› ‹_›
        · exact .admits ‹_› ‹_›
      · cases hnext
  | storeMonitorData i =>
      simp only at hnext
      split at hnext
      · split at hnext
        · cases hnext
        · obtain ⟨system, hstep, rfl⟩ := Option.map_eq_some_iff.mp hnext
          exact .stores ‹_› ‹_› hstep
      · cases hnext
  | throwStart i =>
      simp only at hnext
      split at hnext
      · split at hnext
        · cases hnext
        · split at hnext
          · cases hnext
          · split at hnext <;> cases hnext
            exact .throws ‹_› ‹_› ‹_› ‹_›
      · cases hnext
  | manageReply i =>
      simp only at hnext
      split at hnext
      · split at hnext
        · split at hnext <;> cases hnext
          exact .replies ‹_› ‹_› ‹_› ‹_›
        · cases hnext
      · cases hnext
  | startupCompleted =>
      simp only at hnext
      split at hnext <;> cases hnext
      exact .startupCompleted
  | system step =>
      cases step with
      | handler i =>
          obtain ⟨system, hstep, rfl⟩ := Option.map_eq_some_iff.mp hnext
          exact .system hstep
      | checker step =>
          cases step with
          | storeRegister descriptions => cases hnext
          | _ =>
              obtain ⟨system, hstep, rfl⟩ := Option.map_eq_some_iff.mp hnext
              exact .system hstep

/-- The system behind the exception of a Start. -/
theorem moved_throwStart {storing handler : ℕ} {handling : HandlerCall}
    (hstarted : s.system.handlers.calls[handler]? = some handling)
    (hthrows : throwsIn handling.phase = true) :
    Moved s.system (s.throwStart i call storing handler handling).system := by
  refine ⟨List.prefix_refl _, fun _ hentry => .inl hentry, fun _ hstopped => .inl hstopped, ?_⟩
  refine TopicHandlers.grows_of_set hstarted ?_ rfl
  intro hended
  rw [hended] at hthrows
  cases hthrows

theorem Answering.same (h : Answering R hasSerializationForType s) (hsystem : t.system = s.system)
    {j : ℕ} {other : MonitorCall} (hother : s.calls[j]? = some other) :
    Serves R hasSerializationForType t.system other.cmd other.phase :=
  hsystem ▸ h.serves j other hother

theorem Answering.next (h : Answering R hasSerializationForType s)
    (hcarries : Carries R s.system t.system) {step : MonitorWorkerStep}
    (hnext : s.next hasSerializationForType step = some t) :
    Answering R hasSerializationForType t := by
  cases transition_of_next hnext with
  | receives cmd =>
      refine ⟨h.fresh, ?_, ?_, ?_⟩
      · intro j other hj
        rw [History.getElem?_snoc] at hj
        split at hj
        · obtain rfl := Option.some.inj hj
          exact .received
        · exact h.serves j other hj
      · intro j k first second storing hj hk hfirst hsecond
        rw [History.getElem?_snoc] at hj hk
        split at hj
        · obtain rfl := Option.some.inj hj
          cases hfirst
        split at hk
        · obtain rfl := Option.some.inj hk
          cases hsecond
        · exact h.own j k first second storing hj hk hfirst hsecond
      · intro j
        change s.messagesOf j = _
        rw [h.messages, History.getElem?_snoc]
        split
        · subst j
          rw [List.getElem?_eq_none le_rfl]
          rfl
        · rfl
  | @refuses i cmd replies received refusal =>
      refine h.set received rfl h.fresh (.refused refusal) (fun j other _ hj => h.same rfl hj)
        (by simp) ?_ ?_
      · rw [messagesOf_finish received h rfl, if_pos rfl]
      · intro j hj
        rw [messagesOf_finish received h rfl, if_neg hj]
  | @admits i cmd received refusal =>
      obtain ⟨request, hrequest⟩ := exists_requested refusal
      refine h.set received rfl h.fresh (.registering hrequest)
        (fun j other _ hj => h.same rfl hj) (by simp) ?_ fun _ _ => rfl
      change s.messagesOf i = _
      rw [h.messages, received]
      rfl
  | @stores i cmd descriptions errorMessage system registering requested hstep =>
      refine h.set registering rfl (h.fresh.next hstep)
        (.broadcasting requested (stored_of_register hstep)
          (broadcasts_of_register h.fresh hstep))
        (fun j other _ hj => (h.serves j other hj).next hcarries hstep) ?_ ?_ fun _ _ => rfl
      · intro storing hstoring j other hj hother
        obtain rfl := MonitorCallPhase.broadcasting.inj hstoring
        have hserves := h.serves j other hj
        rw [hother] at hserves
        cases hserves with
        | broadcasting _ _ broadcasts => exact lt_irrefl _ broadcasts.begun
      · change s.messagesOf i = _
        rw [h.messages, registering]
        rfl
  | @throws i storing handler cmd handling broadcasting current started throws =>
      have hmoved : Moved s.system (s.throwStart i ⟨cmd, .broadcasting storing⟩ storing handler
          handling).system := moved_throwStart started throws
      have hstarts (other : ℕ) (hother : other ≠ storing) :
          (s.throwStart i ⟨cmd, .broadcasting storing⟩ storing handler
            handling).system.checker.starts other = s.system.checker.starts other :=
        Function.update_of_ne hother _ _
      refine h.set broadcasting rfl ?_ ?_ ?_ (by simp) ?_ fun _ _ => rfl
      · intro other hother
        refine ⟨?_, (h.fresh other hother).2⟩
        by_cases hsame : other = storing
        · subst hsame
          exact Function.update_self _ _ _
        · rw [hstarts other hsame, (h.fresh other hother).1]
      · have hserves := h.serves i _ broadcasting
        cases hserves with
        | broadcasting requested stored => exact .thrown requested (stored.moved hmoved)
      · intro j other hj hother
        refine (h.serves j other hother).same hmoved hcarries le_rfl fun own hown => ?_
        refine ⟨hstarts own ?_, rfl⟩
        rintro rfl
        exact hj (h.own j i other _ own hother broadcasting hown rfl)
      · change s.messagesOf i = _
        rw [h.messages, broadcasting]
        rfl
  | @replies i storing cmd descriptions errorMessage broadcasting requested starts returned =>
      refine h.set broadcasting rfl h.fresh ?_ (fun j other _ hj => h.same rfl hj) (by simp) ?_ ?_
      · have hserves := h.serves i _ broadcasting
        cases hserves with
        | broadcasting requested' stored broadcasts =>
            obtain ⟨rfl, rfl⟩ := Prod.mk.inj (Option.some.inj (requested.symm.trans requested'))
            obtain ⟨done, hdone, hstarted⟩ := broadcasts.started
            rw [starts, List.append_nil] at hdone
            subst hdone
            exact .activated requested stored (hstarted.returned returned)
      · rw [messagesOf_finish broadcasting h rfl, if_pos rfl]
      · intro j hj
        rw [messagesOf_finish broadcasting h rfl, if_neg hj]
  | startupCompleted => exact ⟨h.fresh, h.serves, h.own, h.messages⟩
  | system hstep =>
      exact ⟨h.fresh.next hstep, fun j other hj => (h.serves j other hj).next hcarries hstep,
        h.own, h.messages⟩

/-! ### Runs -/

theorem Answering.start (configuration : MonitorCheckerConfiguration) (clock : Int) :
    Answering R hasSerializationForType (start configuration clock) where
  fresh := fun _ _ => ⟨rfl, rfl⟩
  serves := by simp [MonitorCommandWorker.start]
  own := by simp [MonitorCommandWorker.start]
  messages := by simp [MonitorCommandWorker.start, messagesOf]

theorem carries_true : Carries (fun _ _ _ _ => True) system system' where
  kept := fun _ _ _ _ _ _ => trivial
  born := fun _ _ _ => trivial

/-- A step that leaves the system. -/
theorem carries_same (hsystem : system' = system) : Carries R system system' where
  kept := by
    intro descriptions since _ i description hR
    rwa [hsystem]
  born := by
    intro since monitor hreceive
    obtain ⟨call, hcalls, -⟩ := TopicHandlers.receive_calls system.handlers ⟨.start, monitor⟩
    rw [← hreceive, hsystem] at hcalls
    have hlength := congrArg List.length hcalls
    simp at hlength

theorem length_manageReply {errorCode : Int8} {errorMessage : String} {command : Command}
    {messages : List (PublishMessage SerializedMessage)}
    (h : manageReply errorCode errorMessage command = .ok messages) : messages.length ≤ 1 := by
  rw [manageReply] at h
  split at h
  · obtain rfl := Except.ok.inj h
    exact Nat.zero_le 1
  · obtain ⟨payload, -, hmessages⟩ := Failure.bind_eq_ok.mp h
    obtain rfl := Except.ok.inj hmessages
    cases payload <;> simp [replyPushableMessage]

theorem length_refusal {startingUp : Bool} {messages : List (PublishMessage SerializedMessage)}
    (h : refusal hasSerializationForType startingUp cmd = some (.ok messages)) :
    messages.length ≤ 1 := by
  rw [refusal.eq_def] at h
  split at h
  · exact length_manageReply (Option.some.inj h)
  split at h
  · exact length_manageReply (Option.some.inj h)
  split at h
  · split at h
    · exact length_manageReply (Option.some.inj h)
    · cases h
  · cases h
  · obtain rfl := Except.ok.inj (Option.some.inj h)
    exact Nat.zero_le 1

theorem Serves.length_messages (h : Serves R hasSerializationForType system cmd phase) :
    phase.messages.length ≤ 1 := by
  cases h with
  | @refused _ replies refusal =>
      cases replies with
      | error failure => exact Nat.zero_le 1
      | ok messages => exact length_refusal refusal
  | @activated _ errorMessage =>
      cases hreplies : manageReply 0 errorMessage cmd.command with
      | error failure => exact Nat.zero_le 1
      | ok messages => exact length_manageReply hreplies
  | _ => exact Nat.zero_le 1

/-- Whatever throws in the Starts: what a command has been told is one message at most, behind
`storeMonitorData` or instead of it. A command that is told of success has its descriptions in the
configuration, unless they have been stopped since, and all their Starts have been handled. -/
theorem answered_of_run (configuration : MonitorCheckerConfiguration) (clock : Int)
    {steps : List MonitorWorkerStep}
    (hrun : AnyRun (next hasSerializationForType) (start configuration clock) steps s)
    (hcall : s.calls[i]? = some call) :
    s.messagesOf i = call.phase.messages ∧ call.phase.messages.length ≤ 1 ∧
      Serves (fun _ _ _ _ => True) hasSerializationForType s.system call.cmd call.phase := by
  have h : Answering (fun _ _ _ _ => True) hasSerializationForType s :=
    hrun.invariant (I := fun _ s => Answering (fun _ _ _ _ => True) hasSerializationForType s)
      (.start configuration clock) fun hs _ hnext => hs.next carries_true hnext
  have hserves := h.serves i call hcall
  refine ⟨?_, hserves.length_messages, hserves⟩
  rw [h.messages, hcall]
  rfl

namespace RequestTrace

/-- A command for some PVs, of which `"x y"` is no PV name. -/
def several : ConstCommand :=
  .multiMonitor { replyTopic := "replies", replyId := "0", pvNameList := ["x y", "pva://a:b"] }

def single : ConstCommand :=
  .monitor { replyTopic := "replies", replyId := "1", pvName := "pva://c"
             monitorDestinationTopic := "topic" }

/-- A call up to the handler of its Start. -/
def served (cmd : ConstCommand) (i : ℕ) : List MonitorWorkerStep :=
  [.receive cmd, .processCommand i, .storeMonitorData i, .system (.checker (.storeBroadcast i)),
    .system (.handler i)]

end RequestTrace

open RequestTrace

/-- The first handler throws behind its lookup, the second one does not. -/
private def firstThrows : List MonitorWorkerStep :=
  .startupCompleted :: served several 0 ++ [.system (.handler 0), .throwStart 0] ++
    served single 1 ++ List.replicate 3 (.system (.handler 1)) ++ [.manageReply 1]

theorem answered_of_run_firstThrows : ∃ s,
    AnyRun (next fun _ => true) (start ⟨10, true, fun _ => false⟩ 0) firstThrows s ∧
      s.messagesOf 0 = [] ∧ (s.messagesOf 1).length = 1 ∧
      ∃ call, s.calls[1]? = some call ∧ s.messagesOf 1 = call.phase.messages := by
  obtain ⟨s, hrun, hcheck⟩ := exists_run (next fun _ => true) (fun _ _ => True)
    (start ⟨10, true, fun _ => false⟩ 0) firstThrows
    (fun s => (s.messagesOf 0).isEmpty && (s.messagesOf 1).length == 1 && s.calls[1]?.isSome)
    (by decide +kernel)
  simp only [Bool.and_eq_true, List.isEmpty_iff, beq_iff_eq] at hcheck
  obtain ⟨⟨hnone, hone⟩, hcall⟩ := hcheck
  obtain ⟨call, hcall⟩ := Option.isSome_iff_exists.mp hcall
  exact ⟨s, hrun, hnone, hone, call, hcall, (answered_of_run _ _ hrun hcall).1⟩

end MonitorCommandWorker

end K2eg
