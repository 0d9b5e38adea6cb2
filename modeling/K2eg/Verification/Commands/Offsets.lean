import K2eg.Verification.Commands.Parsing
import Mathlib.Data.Nat.Basic
import Mathlib.Order.Basic

/-! # The offsets of the commands

A commit covers every message fetched so far, so no command is skipped where nothing is committed
once the handler has thrown, until the process is restarted. -/

namespace K2eg.CommandConsumer

open Interleaving CMDController

variable {bjParse : String → ParsedText} {s t : CommandConsumer} {steps : List ConsumerStep}
  {log : ℕ → List String} {position last : ℕ → ℕ} {batch : List FetchedMessage}
  {outcome : BatchOutcome}

/-- The message at the place parses to a command. -/
def IsCommand (bjParse : String → ParsedText) (log : ℕ → List String) (partition offset : ℕ) :
    Prop :=
  ∃ message, (log partition)[offset]? = some message ∧
    (onMessage bjParse message).command.isSome = true

/-- A command whose offset is covered by a commit was in a batch for which the handler returned; any
other one is fetched again after a restart. -/
def AtLeastOnce (bjParse : String → ParsedText) (s : CommandConsumer) : Prop :=
  ∀ partition offset, IsCommand bjParse s.log partition offset →
    offset < s.committed partition → (partition, offset) ∈ s.handled

/-- Nothing is committed once the handler has thrown. -/
def Clean (s : CommandConsumer) : ConsumerStep → Prop
  | .consume _ outcome => outcome = .commits → s.failed = false
  | _ => True

instance (s : CommandConsumer) (step : ConsumerStep) : Decidable (s.Clean step) := by
  cases step <;> unfold Clean <;> infer_instance

/-! ## A batch -/

/-- A batch holds every message between the two positions, each with its place. -/
structure Fetched (log : ℕ → List String) (position last : ℕ → ℕ) (batch : List FetchedMessage) :
    Prop where
  le : ∀ partition, position partition ≤ last partition
  message : ∀ fetched ∈ batch, (log fetched.partition)[fetched.offset]? = some fetched.message
  covers : ∀ partition offset, offset < last partition → position partition ≤ offset →
    ∃ fetched ∈ batch, fetched.partition = partition ∧ fetched.offset = offset

theorem Fetched.nil (log : ℕ → List String) (position : ℕ → ℕ) : Fetched log position position []
    where
  le := fun _ => le_refl _
  message := nofun
  covers := fun _ _ hlt hle => absurd hle (not_le.2 hlt)

/-- One more message is consumed before the others. -/
theorem Fetched.cons {partition : ℕ} {message : String}
    (hmessage : (log partition)[position partition]? = some message)
    (h : Fetched log (Function.update position partition (position partition + 1)) last batch) :
    Fetched log position last (⟨partition, position partition, message⟩ :: batch) where
  le := by
    intro other
    have hle := h.le other
    by_cases heq : other = partition
    · subst heq
      rw [Function.update_self] at hle
      exact Nat.le_of_succ_le hle
    · rwa [Function.update_of_ne heq] at hle
  message := by
    intro fetched hmem
    rcases List.mem_cons.1 hmem with rfl | hmem
    · exact hmessage
    · exact h.message fetched hmem
  covers := by
    intro other offset hlt hle
    by_cases hfirst : other = partition ∧ offset = position partition
    · obtain ⟨rfl, rfl⟩ := hfirst
      exact ⟨_, List.mem_cons_self, rfl, rfl⟩
    · have hnext : Function.update position partition (position partition + 1) other ≤ offset := by
        by_cases heq : other = partition
        · subst heq
          rw [Function.update_self]
          have hne : offset ≠ position other := fun h => hfirst ⟨rfl, h⟩
          omega
        · rwa [Function.update_of_ne heq]
      obtain ⟨fetched, hmem, hplace⟩ := h.covers other offset hlt hnext
      exact ⟨fetched, List.mem_cons_of_mem _ hmem, hplace⟩

theorem fetched_of_getMsg {partitions : List ℕ}
    (h : getMsg log position partitions = some (batch, last)) :
    Fetched log position last batch := by
  induction partitions generalizing position batch with
  | nil =>
      obtain ⟨rfl, rfl⟩ := Prod.mk.inj (Option.some.inj h)
      exact .nil log position
  | cons partition rest ih =>
      rw [getMsg] at h
      cases hmessage : (log partition)[position partition]? with
      | none => simp [hmessage] at h
      | some message =>
          simp only [hmessage, Option.map_eq_some_iff] at h
          obtain ⟨⟨others, final⟩, hrest, heq⟩ := h
          obtain ⟨rfl, rfl⟩ := Prod.mk.inj heq
          exact .cons hmessage (ih hrest)

/-- A batch without commands has no message that parses to one. -/
theorem not_isCommand_of_isEmpty (h : (resultVec bjParse batch).isEmpty = true)
    {fetched : FetchedMessage} (hmem : fetched ∈ batch) :
    (onMessage bjParse fetched.message).command.isSome = false := by
  rw [resultVec, parseBatch_eq, List.isEmpty_iff, List.flatMap_eq_nil_iff] at h
  have hnone := h fetched.message (List.mem_map_of_mem hmem)
  rw [Option.toList_eq_nil_iff] at hnone
  rw [hnone]
  rfl

/-! ## The invariant -/

/-- The commands before the committed offsets are handled, and so are those before the positions
unless the handler has thrown. -/
structure Delivered (bjParse : String → ParsedText) (s : CommandConsumer) : Prop where
  le : ∀ partition, s.committed partition ≤ s.position partition
  fetched : ∀ partition, s.position partition ≤ (s.log partition).length
  committed : AtLeastOnce bjParse s
  handled : s.failed = false → ∀ partition offset, IsCommand bjParse s.log partition offset →
    offset < s.position partition → (partition, offset) ∈ s.handled

namespace Delivered

theorem start (bjParse : String → ParsedText) : Delivered bjParse {} where
  le := fun _ => le_refl _
  fetched := fun _ => le_refl _
  committed := nofun
  handled := nofun

/-- A message that was there before one was produced. -/
theorem isCommand_of_produce {partition other offset : ℕ} {message : String}
    (h : IsCommand bjParse (Function.update s.log partition (s.log partition ++ [message])) other
      offset) (hlt : offset < (s.log other).length) : IsCommand bjParse s.log other offset := by
  obtain ⟨found, hfound, hcommand⟩ := h
  refine ⟨found, ?_, hcommand⟩
  by_cases heq : other = partition
  · subst heq
    rwa [Function.update_self, List.getElem?_append_left hlt] at hfound
  · rwa [Function.update_of_ne heq] at hfound

theorem produce (h : Delivered bjParse s) (partition : ℕ) (message : String) :
    Delivered bjParse
      { s with log := Function.update s.log partition (s.log partition ++ [message]) } where
  le := h.le
  fetched := by
    intro other
    have hle := h.fetched other
    simp only
    by_cases heq : other = partition
    · subst heq
      rw [Function.update_self, List.length_append]
      exact Nat.le_add_right_of_le hle
    · rwa [Function.update_of_ne heq]
  committed := by
    intro other offset hcommand hlt
    have hlength : offset < (s.log other).length :=
      hlt.trans_le ((h.le other).trans (h.fetched other))
    exact h.committed other offset (isCommand_of_produce hcommand hlength) hlt
  handled := by
    intro hfailed other offset hcommand hlt
    have hlength : offset < (s.log other).length := hlt.trans_le (h.fetched other)
    exact h.handled hfailed other offset (isCommand_of_produce hcommand hlength) hlt

theorem restart (h : Delivered bjParse s) :
    Delivered bjParse { s with position := s.committed, failed := false } where
  le := fun _ => le_refl _
  fetched := fun partition => (h.le partition).trans (h.fetched partition)
  committed := h.committed
  handled := fun _ => h.committed

/-- The commands before the new positions, where the handler returned for the batch. -/
theorem handled_of_fetched (h : Delivered bjParse s) (hfailed : s.failed = false)
    (hfetched : Fetched s.log s.position last batch) {partition offset : ℕ}
    (hcommand : IsCommand bjParse s.log partition offset) (hlt : offset < last partition) :
    (partition, offset) ∈ (if (resultVec bjParse batch).isEmpty then s.handled
      else s.handled ++ batch.map fun fetched => (fetched.partition, fetched.offset)) := by
  by_cases hbefore : offset < s.position partition
  · have hmem := h.handled hfailed partition offset hcommand hbefore
    split
    · exact hmem
    · exact List.mem_append_left _ hmem
  · obtain ⟨fetched, hmem, rfl, rfl⟩ := hfetched.covers partition offset hlt (not_lt.1 hbefore)
    obtain ⟨message, hmessage, hsome⟩ := hcommand
    obtain rfl := Option.some.inj ((hfetched.message fetched hmem).symm.trans hmessage)
    split
    case isTrue hempty =>
      rw [not_isCommand_of_isEmpty hempty hmem] at hsome
      cases hsome
    case isFalse => exact List.mem_append_right _ (List.mem_map_of_mem hmem)

theorem length_of_fetched (hfetched : Fetched s.log s.position last batch)
    (hle : ∀ partition, s.position partition ≤ (s.log partition).length) (partition : ℕ) :
    last partition ≤ (s.log partition).length := by
  by_contra hgt
  -- the last message of the batch would lie beyond the end of the log
  obtain ⟨fetched, hmem, rfl, hoffset⟩ :=
    hfetched.covers partition (s.log partition).length (not_le.1 hgt) (hle partition)
  have hmessage := hfetched.message fetched hmem
  rw [hoffset, List.getElem?_eq_none (le_refl _)] at hmessage
  cases hmessage

theorem dispatch (h : Delivered bjParse s) (hfetched : Fetched s.log s.position last batch)
    (hclean : outcome = .commits → s.failed = false)
    (hnext : s.dispatch bjParse batch last outcome = some t) : Delivered bjParse t := by
  have hlength := length_of_fetched hfetched h.fetched
  have hle : ∀ partition, s.committed partition ≤ last partition :=
    fun partition => (h.le partition).trans (hfetched.le partition)
  have hkept : ∀ place ∈ s.handled, place ∈ (if (resultVec bjParse batch).isEmpty then s.handled
      else s.handled ++ batch.map fun fetched => (fetched.partition, fetched.offset)) := by
    intro place hmem
    split
    · exact hmem
    · exact List.mem_append_left _ hmem
  cases outcome with
  | handlerThrows =>
      simp only [CommandConsumer.dispatch] at hnext
      split at hnext
      · cases hnext
      · obtain rfl := Option.some.inj hnext
        exact ⟨hle, hlength, h.committed, nofun⟩
  | commitFails =>
      obtain rfl := Option.some.inj hnext
      exact ⟨hle, hlength,
        fun partition offset hcommand hlt => hkept _ (h.committed partition offset hcommand hlt),
        fun hfailed partition offset hcommand hlt =>
          h.handled_of_fetched hfailed hfetched hcommand hlt⟩
  | commits =>
      obtain rfl := Option.some.inj hnext
      have hall := fun partition offset (hcommand : IsCommand bjParse s.log partition offset)
          (hlt : offset < last partition) => h.handled_of_fetched (hclean rfl) hfetched hcommand hlt
      exact ⟨fun _ => le_refl _, hlength, hall, fun _ => hall⟩

/-- Each clean step keeps the invariant. -/
theorem step {step : ConsumerStep} (h : Delivered bjParse s) (hclean : s.Clean step)
    (hnext : s.next bjParse step = some t) : Delivered bjParse t := by
  cases step with
  | produce partition message =>
      obtain rfl := Option.some.inj hnext
      exact h.produce partition message
  | consume partitions outcome =>
      rw [next, CommandConsumer.consume] at hnext
      split at hnext
      case h_1 => cases hnext
      case h_2 =>
        obtain rfl := Option.some.inj hnext
        exact h
      case h_3 hget => exact h.dispatch (fetched_of_getMsg hget) hclean hnext
  | restart =>
      obtain rfl := Option.some.inj hnext
      exact h.restart

end Delivered

/-- In every run in which nothing is committed between a throw of the handler and the next restart,
no command is skipped. -/
theorem atLeastOnce_of_run (h : Run (next bjParse) Clean {} steps s) : AtLeastOnce bjParse s :=
  (h.invariant (I := fun _ s => Delivered bjParse s) (Delivered.start bjParse)
    fun hdelivered hclean hnext => hdelivered.step hclean hnext).committed

/-- `{"command": "get", "pv_name": "pva://a", "reply_topic": "t"}` -/
def getCommand : CommandObject where
  members := [(keyCommand, .string "get"), (keyPvName, .string "pva://a"),
    (keyReplyTopic, .string "t")]
  keys_nodup := by decide
  strings := by
    intro key text h
    have hmem := MapToCommand.mem_of_lookup h
    simp only [List.mem_cons, Prod.mk.injEq, Json.string.injEq, List.not_mem_nil, or_false] at hmem
    rcases hmem with ⟨-, rfl⟩ | ⟨-, rfl⟩ | ⟨-, rfl⟩ <;> decide

/-- The handler throws, the process is restarted, and the command is delivered again. -/
theorem atLeastOnce_of_run_restart :
    ∃ steps s, Run (next fun _ => .object getCommand) Clean {} steps s ∧
      s.committed 0 = 1 ∧ AtLeastOnce (fun _ => .object getCommand) s := by
  obtain ⟨s, hrun, hcheck⟩ := exists_run (next fun _ => .object getCommand) Clean {}
    [.produce 0 "get", .consume [0] .handlerThrows, .restart, .consume [0] .commits]
    (fun s => s.committed 0 == 1) (by decide +kernel)
  exact ⟨_, s, hrun, beq_iff_eq.1 hcheck, atLeastOnce_of_run hrun⟩

/-- The handler throws for one batch, and the commit of the next one covers it. -/
theorem not_atLeastOnce_covered :
    ¬ ∀ (bjParse : String → ParsedText) (steps : List ConsumerStep) (s : CommandConsumer),
      AnyRun (next bjParse) {} steps s → AtLeastOnce bjParse s := by
  intro hall
  obtain ⟨s, hrun, hcheck⟩ := exists_run (next fun _ => .object getCommand) (fun _ _ => True) {}
    [.produce 0 "get", .produce 0 "get", .consume [0] .handlerThrows, .consume [0] .commits]
    (fun s => s.committed 0 == 2 && s.log 0 == ["get", "get"] && s.handled == [(0, 1)])
    (by decide +kernel)
  simp only [Bool.and_eq_true, beq_iff_eq] at hcheck
  obtain ⟨⟨hcommitted, hlog⟩, hhandled⟩ := hcheck
  have hcommand : IsCommand (fun _ => .object getCommand) s.log 0 0 :=
    ⟨"get", by rw [hlog]; rfl, by decide +kernel⟩
  have hmem := hall _ _ s hrun 0 0 hcommand (by omega)
  rw [hhandled] at hmem
  exact absurd hmem (by decide)

end K2eg.CommandConsumer
