import K2eg.Model.CommandGateway
import K2eg.Verification.Commands.Dispatch
import K2eg.Verification.Commands.Offsets

/-! # From the topic to the workers

A call of `getMsg` yields the next messages of the partitions, whatever `consume` gives in between.
Every message is fetched once and in its order, and its command reaches the pool once. -/

namespace K2eg

open Interleaving

/-! ## The subscriber -/

namespace RDKafkaSubscriber

variable {log : ℕ → List String} {mNum partition : ℕ} {calls : List ConsumeCall}
  {vector after : MessageVector} {result : Int}

/-- What ends `getMsg` before the vector is full. -/
def Ends (call : ConsumeCall) : Prop :=
  call.late = true ∨ call.result = .timedOut ∨ ∃ code, call.result = .error code

/-- A call of `getMsg` fetches some more messages, as the consumer of the controller does. -/
structure Fetches (log : ℕ → List String) (mNum : ℕ) (calls : List ConsumeCall)
    (vector : MessageVector) (result : Int) (after : MessageVector) : Prop where
  fetches : ∃ partitions batch, after.messages = vector.messages ++ batch ∧
    CommandConsumer.getMsg log vector.position partitions = some (batch, after.position)
  bounded : after.messages.length ≤ max mNum vector.messages.length
  full : mNum ≤ after.messages.length ∨ ∃ call ∈ calls, Ends call
  result : result = 0 ∨ result = -1 ∧ after.messages ≠ []

theorem Fetches.refl (hresult : result = 0 ∨ result = -1 ∧ vector.messages ≠ [])
    (hfull : mNum ≤ vector.messages.length ∨ ∃ call ∈ calls, Ends call) :
    Fetches log mNum calls vector result vector where
  fetches := ⟨[], [], (List.append_nil _).symm, rfl⟩
  bounded := le_max_right _ _
  full := hfull
  result := hresult

theorem Fetches.cons (call : ConsumeCall) (h : Fetches log mNum calls vector result after) :
    Fetches log mNum (call :: calls) vector result after :=
  { h with full := h.full.imp_right fun ⟨other, hmem, hends⟩ =>
      ⟨other, List.mem_cons_of_mem _ hmem, hends⟩ }

/-- One message is fetched before the others. -/
theorem Fetches.message {next : MessageVector} (hroom : vector.messages.length < mNum)
    (hnext : internalConsume log vector partition = some next)
    (h : Fetches log mNum calls next result after) :
    Fetches log mNum calls vector result after := by
  obtain ⟨message, hmessage, rfl⟩ := Option.map_eq_some_iff.mp hnext
  obtain ⟨partitions, batch, hmessages, hfetch⟩ := h.fetches
  let fetched : FetchedMessage := ⟨partition, vector.position partition, message⟩
  refine ⟨⟨partition :: partitions, fetched :: batch, ?_, ?_⟩, ?_, h.full, h.result⟩
  · rw [hmessages, List.append_assoc, List.singleton_append]
  · simp [CommandConsumer.getMsg, hmessage, hfetch, fetched]
  · have hbounded := h.bounded
    simp only [List.length_append, List.length_singleton] at hbounded
    omega

/-- `getMsg` refines the fetching of the command controller. -/
theorem fetches_of_getMsg (h : getMsg log mNum calls vector = some (result, after)) :
    Fetches log mNum calls vector result after := by
  induction calls generalizing vector with
  | nil =>
      rw [getMsg] at h
      split at h
      case isTrue hfull =>
        obtain ⟨rfl, rfl⟩ := Prod.mk.inj (Option.some.inj h)
        exact .refl (.inl rfl) (.inl hfull)
      case isFalse => cases h
  | cons call rest ih =>
      rw [getMsg] at h
      split at h
      case isTrue hfull =>
        obtain ⟨rfl, rfl⟩ := Prod.mk.inj (Option.some.inj h)
        exact .refl (.inl rfl) (.inl hfull)
      case isFalse hroom =>
        have hends (hcall : Ends call) : ∃ other ∈ call :: rest, Ends other :=
          ⟨call, List.mem_cons_self, hcall⟩
        cases hresult : call.result with
        | null =>
            simp only [hresult] at h
            exact (ih h).cons call
        | message partition =>
            simp only [hresult] at h
            cases hnext : internalConsume log vector partition with
            | none => simp [hnext] at h
            | some next =>
                simp only [hnext] at h
                refine .message (Nat.lt_of_not_le hroom) hnext ?_
                split at h
                case isTrue hlate =>
                  obtain ⟨rfl, rfl⟩ := Prod.mk.inj (Option.some.inj h)
                  exact .refl (.inl rfl) (.inr (hends (.inl hlate)))
                case isFalse => exact (ih h).cons call
        | partitionEof =>
            simp only [hresult] at h
            split at h
            case isTrue hlate =>
              obtain ⟨rfl, rfl⟩ := Prod.mk.inj (Option.some.inj h)
              exact .refl (.inl rfl) (.inr (hends (.inl hlate)))
            case isFalse => exact (ih h).cons call
        | timedOut =>
            simp only [hresult] at h
            obtain ⟨rfl, rfl⟩ := Prod.mk.inj (Option.some.inj h)
            exact .refl (.inl rfl) (.inr (hends (.inr (.inl hresult))))
        | error code =>
            simp only [hresult] at h
            obtain ⟨rfl, rfl⟩ := Prod.mk.inj (Option.some.inj h)
            refine .refl ?_ (.inr (hends (.inr (.inr ⟨code, hresult⟩))))
            cases hmessages : vector.messages with
            | nil => exact .inl rfl
            | cons first others => exact .inr ⟨rfl, List.cons_ne_nil _ _⟩

/-- A message, nothing for a while, then an error behind it. -/
theorem fetches_of_getMsg_error : ∃ after,
    getMsg (fun _ => ["a", "b"]) 5 [⟨.message 0, false⟩, ⟨.null, true⟩, ⟨.error 3, false⟩]
      ⟨[], fun _ => 0⟩ = some (-1, after) ∧
    Fetches (fun _ => ["a", "b"]) 5 [⟨.message 0, false⟩, ⟨.null, true⟩, ⟨.error 3, false⟩]
      ⟨[], fun _ => 0⟩ (-1) after := by
  refine ⟨⟨[⟨0, 0, "a"⟩], Function.update (fun _ => 0) 0 1⟩, ?_, fetches_of_getMsg ?_⟩
  · simp [getMsg, internalConsume]
  · simp [getMsg, internalConsume]

end RDKafkaSubscriber

/-! ## The gateway -/

namespace CommandGateway

open CommandConsumer NodeController

variable {bjParse : String → ParsedText} {maxMessageToFetch threads : ℕ} {s t : CommandGateway}
  {step : GatewayStep} {steps : List GatewayStep} {log : ℕ → List String} {position last : ℕ → ℕ}
  {fetched batch : List FetchedMessage}

/-- The messages of a partition have been fetched up to its position, each once and in order. -/
structure Follows (log : ℕ → List String) (fetched : List FetchedMessage) (position : ℕ → ℕ) :
    Prop where
  offsets : ∀ partition, (fetched.filter fun message => message.partition == partition).map
    FetchedMessage.offset = List.range (position partition)
  message : ∀ message ∈ fetched, (log message.partition)[message.offset]? = some message.message

/-- Every message of the topic is fetched once and every command that it holds is given to the node,
or dropped with the rest of a batch that an exception has ended; a commit covers nothing that has
not been fetched. -/
structure Conveys (bjParse : String → ParsedText) (s : CommandGateway) : Prop where
  follows : Follows s.log s.fetched s.position
  accounted : (s.node.commands ++ s.dropped).Perm (resultVec bjParse s.fetched)
  ordered : s.node.commands.Sublist (resultVec bjParse s.fetched)
  settled : s.consuming = false → s.node.passed = s.node.commands.length
  committed : ∀ partition, s.committed partition ≤ s.position partition

theorem resultVec_append (first second : List FetchedMessage) :
    resultVec bjParse (first ++ second) = resultVec bjParse first ++ resultVec bjParse second := by
  simp [resultVec, CMDController.parseBatch_eq, List.flatMap_append]

/-! ## Fetching -/

theorem Follows.snoc (h : Follows log fetched position) {partition : ℕ} {message : String}
    (hmessage : (log partition)[position partition]? = some message) :
    Follows log (fetched ++ [⟨partition, position partition, message⟩])
      (Function.update position partition (position partition + 1)) where
  offsets := by
    intro other
    rw [List.filter_append, List.map_append, h.offsets]
    by_cases hother : partition = other
    · subst hother
      simp [List.range_succ]
    · simp [hother, Function.update_of_ne (Ne.symm hother)]
  message := by
    intro found hmem
    rcases List.mem_append.mp hmem with hmem | hmem
    · exact h.message found hmem
    · obtain rfl := List.mem_singleton.mp hmem
      exact hmessage

theorem Follows.getMsg (h : Follows log fetched position) {partitions : List ℕ}
    (hget : CommandConsumer.getMsg log position partitions = some (batch, last)) :
    Follows log (fetched ++ batch) last := by
  induction partitions generalizing position fetched batch with
  | nil =>
      obtain ⟨rfl, rfl⟩ := Prod.mk.inj (Option.some.inj hget)
      rwa [List.append_nil]
  | cons partition rest ih =>
      rw [CommandConsumer.getMsg] at hget
      cases hmessage : (log partition)[position partition]? with
      | none => simp [hmessage] at hget
      | some message =>
          simp only [hmessage, Option.map_eq_some_iff] at hget
          obtain ⟨⟨others, final⟩, hrest, heq⟩ := hget
          obtain ⟨rfl, rfl⟩ := Prod.mk.inj heq
          rw [List.append_cons]
          exact ih (h.snoc hmessage) hrest

theorem Follows.produce (h : Follows log fetched position) (partition : ℕ) (message : String) :
    Follows (Function.update log partition (log partition ++ [message])) fetched position where
  offsets := h.offsets
  message := by
    intro found hmem
    have hfound := h.message found hmem
    by_cases heq : found.partition = partition
    · subst heq
      rw [Function.update_self,
        List.getElem?_append_left (List.getElem?_eq_some_iff.mp hfound).1, hfound]
    · rw [Function.update_of_ne heq, hfound]

theorem position_le_of_getMsg {partitions : List ℕ}
    (hget : CommandConsumer.getMsg log position partitions = some (batch, last)) (partition : ℕ) :
    position partition ≤ last partition :=
  (fetched_of_getMsg hget).le partition

/-! ## The invariant -/

/-- The invariant of the gateway, with that of its node. -/
structure Sound (bjParse : String → ParsedText) (threads : ℕ) (s : CommandGateway) : Prop extends
    Conveys bjParse s where
  node : Detaches threads s.node

namespace Sound

theorem start : Sound bjParse threads {} where
  follows := ⟨fun _ => rfl, nofun⟩
  accounted := .refl _
  ordered := .slnil
  settled := fun _ => rfl
  committed := fun _ => le_rfl
  node := .start

/-- A step of the node that leaves the commands and the loop over them alone. -/
theorem setNode (h : Sound bjParse threads s) {node : NodeController}
    (hnode : Detaches threads node) (hcommands : node.commands = s.node.commands)
    (hsettled : s.consuming = false → node.passed = node.commands.length) :
    Sound bjParse threads (s.setNode node) where
  follows := h.follows
  accounted := by
    change (node.commands ++ s.dropped).Perm _
    exact hcommands ▸ h.accounted
  ordered := by
    change node.commands.Sublist _
    exact hcommands ▸ h.ordered
  settled := hsettled
  committed := h.committed
  node := hnode

theorem produce (h : Sound bjParse threads s) (partition : ℕ) (message : String) :
    Sound bjParse threads
      { s with log := Function.update s.log partition (s.log partition ++ [message]) } :=
  { h with follows := h.follows.produce partition message }

/-- A batch is fetched, and its commands are given to the node. -/
theorem receive (h : Sound bjParse threads s) (hidle : s.consuming = false) {partitions : List ℕ}
    {vector : MessageVector}
    (hget : CommandConsumer.getMsg s.log s.position partitions =
      some (vector.messages, vector.position))
    (hnext : s.receive bjParse threads vector = some t) : Sound bjParse threads t := by
  have hfollows := h.follows.getMsg hget
  have hcommitted (partition : ℕ) : s.committed partition ≤ vector.position partition :=
    (h.committed partition).trans (position_le_of_getMsg hget partition)
  have hpassed := h.settled hidle
  rw [CommandGateway.receive] at hnext
  split at hnext
  case isTrue hempty =>
    obtain rfl := Option.some.inj hnext
    have hresult : resultVec bjParse (s.fetched ++ vector.messages) =
        resultVec bjParse s.fetched := by
      rw [resultVec_append, List.isEmpty_iff.mp hempty, List.append_nil]
    exact {
      follows := hfollows
      accounted := hresult ▸ h.accounted
      ordered := hresult ▸ h.ordered
      settled := fun _ => hpassed
      committed := hcommitted
      node := h.node }
  case isFalse hcommands =>
    obtain ⟨node, hnode, rfl⟩ := Option.map_eq_some_iff.mp hnext
    have hdetaches := h.node.next hnode
    rw [NodeController.next, if_pos hpassed] at hnode
    obtain rfl := Option.some.inj hnode
    -- the batch has a command, so it is not empty and the commit is still to come
    have hbatch : vector.messages ≠ [] := by
      intro hnil
      rw [hnil] at hcommands
      exact hcommands rfl
    refine ⟨⟨hfollows, ?_, ?_, fun hnone => ?_, hcommitted⟩, hdetaches⟩
    · change ((s.node.commands ++ _) ++ s.dropped).Perm (resultVec bjParse (s.fetched ++ _))
      rw [resultVec_append, List.append_assoc]
      refine (List.perm_append_comm.append_left _).trans ?_
      rw [← List.append_assoc]
      exact h.accounted.append_right _
    · change (s.node.commands ++ _).Sublist (resultVec bjParse (s.fetched ++ _))
      rw [resultVec_append]
      exact h.ordered.append_right _
    · simp [CommandGateway.setNode, hbatch] at hnone

/-- An exception ends the batch: its other commands are dropped. -/
theorem throwNext (h : Sound bjParse threads s) {node : NodeController}
    (hnext : s.node.next threads .throwNext = some node) :
    Sound bjParse threads { s with
      node, consuming := false, faults := s.faults + 1,
      dropped := s.dropped ++ s.node.commands.drop s.node.passed } := by
  have hdetaches := h.node.next hnext
  obtain ⟨hlt, heq⟩ := Option.ite_none_right_eq_some.mp hnext
  obtain rfl := Option.some.inj heq
  refine ⟨⟨h.follows, ?_, (List.take_sublist _ _).trans h.ordered, fun _ => ?_, h.committed⟩,
    hdetaches⟩
  · change (s.node.commands.take s.node.passed ++ _).Perm _
    refine List.Perm.trans ?_ h.accounted
    have hsplit := List.take_append_drop s.node.passed s.node.commands
    calc s.node.commands.take s.node.passed ++ (s.dropped ++ s.node.commands.drop s.node.passed)
        |>.Perm (s.node.commands.take s.node.passed ++
          (s.node.commands.drop s.node.passed ++ s.dropped)) := List.perm_append_comm.append_left _
      _ = s.node.commands ++ s.dropped := by rw [← List.append_assoc, hsplit]
  · rw [List.length_take, Nat.min_eq_left hlt.le]

theorem commit (h : Sound bjParse threads s) (hpassed : s.node.passed = s.node.commands.length)
    (returns : Bool) (faults : ℕ) : Sound bjParse threads { s with
      committed := if returns then s.position else s.committed, consuming := false, faults } where
  follows := h.follows
  accounted := h.accounted
  ordered := h.ordered
  settled := fun _ => hpassed
  committed := by
    intro partition
    cases returns with
    | true => exact le_rfl
    | false => exact h.committed partition
  node := h.node

theorem next (h : Sound bjParse threads s)
    (hnext : s.next bjParse maxMessageToFetch threads step = some t) :
    Sound bjParse threads t := by
  cases step with
  | produce partition message =>
      obtain rfl := Option.some.inj hnext
      exact h.produce partition message
  | getMsg calls =>
      rw [CommandGateway.next] at hnext
      split at hnext
      case isTrue => cases hnext
      case isFalse hidle =>
        obtain ⟨⟨result, vector⟩, hget, hreceive⟩ := Option.bind_eq_some_iff.mp hnext
        obtain ⟨partitions, batch, hbatch, hfetch⟩ :=
          (RDKafkaSubscriber.fetches_of_getMsg hget).fetches
        rw [List.nil_append] at hbatch
        subst hbatch
        exact h.receive (Bool.eq_false_iff.mpr hidle) hfetch hreceive
  | submitNext =>
      obtain ⟨node, hnode, rfl⟩ := Option.map_eq_some_iff.mp hnext
      have hdetaches := h.node.next hnode
      obtain ⟨cmd, hcmd, rfl⟩ := Option.map_eq_some_iff.mp hnode
      have hcommands := submitNext_commands s.node cmd
      refine h.setNode hdetaches hcommands fun hidle => ?_
      -- the loop over the commands is under way only while a batch is
      have hlt := (List.getElem?_eq_some_iff.mp hcmd).1
      exact absurd (h.settled hidle) hlt.ne
  | throwNext =>
      obtain ⟨node, hnode, rfl⟩ := Option.map_eq_some_iff.mp hnext
      exact h.throwNext hnode
  | commit returns =>
      obtain ⟨⟨-, hpassed⟩, heq⟩ := Option.ite_none_right_eq_some.mp hnext
      obtain rfl := Option.some.inj heq
      exact h.commit hpassed returns _
  | query type =>
      rw [CommandGateway.next, Option.map_eq_some_iff] at hnext
      obtain ⟨node, hnode, rfl⟩ := hnext
      have hdetaches := h.node.next hnode
      obtain rfl := Option.some.inj hnode
      exact h.setNode hdetaches rfl h.settled
  | dequeue =>
      obtain ⟨node, hnode, rfl⟩ := Option.map_eq_some_iff.mp hnext
      have hdetaches := h.node.next hnode
      obtain ⟨taken, -, rfl⟩ := Option.map_eq_some_iff.mp hnode
      exact h.setNode hdetaches rfl h.settled
  | detach task =>
      obtain ⟨node, hnode, rfl⟩ := Option.map_eq_some_iff.mp hnext
      have hdetaches := h.node.next hnode
      obtain ⟨-, heq⟩ := Option.ite_none_right_eq_some.mp hnode
      obtain rfl := Option.some.inj heq
      exact h.setNode hdetaches rfl h.settled
  | finish task =>
      obtain ⟨node, hnode, rfl⟩ := Option.map_eq_some_iff.mp hnext
      have hdetaches := h.node.next hnode
      obtain ⟨-, heq⟩ := Option.ite_none_right_eq_some.mp hnode
      obtain rfl := Option.some.inj heq
      exact h.setNode hdetaches rfl h.settled

end Sound

/-- Whatever `consume`, `commit`, the loop over a batch and the threads of the pool do, each message
of the topic is fetched once in its order and its command begun at most once, in the order of the
fetching; only a batch that an exception has ended drops commands. -/
theorem conveys_of_run (h : AnyRun (next bjParse maxMessageToFetch threads) {} steps s) :
    Conveys bjParse s ∧ Dispatched threads s.node := by
  have hs : Sound bjParse threads s :=
    h.invariant (I := fun _ s => Sound bjParse threads s) .start fun hs _ hnext => hs.next hnext
  exact ⟨hs.toConveys, hs.node.dispatched⟩

/-- Two messages with a command each; the second batch is ended by an exception. -/
theorem conveys_of_run_dropped : ∃ steps s,
    AnyRun (next (fun _ => .object getCommand) 4 1) {} steps s ∧
    s.node.begun = [⟨0, 0, .get⟩] ∧ s.dropped.length = 1 ∧ s.committed 0 = 1 ∧
      Conveys (fun _ => .object getCommand) s ∧ Dispatched 1 s.node := by
  obtain ⟨s, hrun, hcheck⟩ := exists_run (next (fun _ => .object getCommand) 4 1)
    (fun _ _ => True) {}
    [.produce 0 "get", .getMsg [⟨.message 0, false⟩, ⟨.timedOut, true⟩], .submitNext, .dequeue,
      .commit true, .produce 0 "get", .getMsg [⟨.partitionEof, false⟩, ⟨.message 0, true⟩],
      .throwNext]
    (fun s => s.node.begun == [⟨0, 0, .get⟩] && s.dropped.length == 1 && s.committed 0 == 1)
    (by decide +kernel)
  simp only [Bool.and_eq_true, beq_iff_eq] at hcheck
  obtain ⟨hconveys, hdispatched⟩ := conveys_of_run hrun
  exact ⟨_, s, hrun, hcheck.1.1, hcheck.1.2, hcheck.2, hconveys, hdispatched⟩

end CommandGateway

end K2eg
