import K2eg.Model.RDKafkaPublisher

/-! # Pushing a vector of messages

The messages are accepted in order, up to the first one that fails. That one is deleted, and a null
pointer stays in its place, so the vector cannot be pushed again. -/

namespace K2eg

/-- The calls from this one on: the queue is full for some calls, and the one after them
succeeds. -/
structure AcceptedAfter (results : ℕ → ErrorCode) (start full : ℕ) : Prop where
  queueFull : ∀ i < full, results (start + i) = .queueFull
  noError : results (start + full) = .noError

/-- Each of a number of messages is accepted within its four attempts, the first of them beginning
with this call. -/
def AllAccepted (results : ℕ → ErrorCode) : ℕ → ℕ → Prop
  | _, 0 => True
  | start, count + 1 => ∃ full ≤ KafkaProducer.maxRetries, AcceptedAfter results start full ∧
      AllAccepted results (start + full + 1) count

theorem AcceptedAfter.unique {results : ℕ → ErrorCode} {start full other : ℕ}
    (h : AcceptedAfter results start full) (hother : AcceptedAfter results start other) :
    full = other := by
  rcases Nat.lt_trichotomy full other with hlt | heq | hgt
  · have hfull := hother.queueFull full hlt
    rw [h.noError] at hfull
    cases hfull
  · exact heq
  · have hfull := h.queueFull other hgt
    rw [hother.noError] at hfull
    cases hfull

/-- After a full queue the same calls count one less. -/
theorem acceptedAfter_succ {results : ℕ → ErrorCode} {start : ℕ}
    (hfull : results start = .queueFull) (full : ℕ) :
    AcceptedAfter results start (full + 1) ↔ AcceptedAfter results (start + 1) full := by
  have hshift : ∀ i, start + (i + 1) = start + 1 + i := by omega
  constructor
  case mp =>
    intro h
    refine ⟨fun i hi => ?_, ?_⟩
    · rw [← hshift]
      exact h.queueFull (i + 1) (by omega)
    · rw [← hshift]
      exact h.noError
  case mpr =>
    intro h
    refine ⟨fun i hi => ?_, ?_⟩
    · cases i with
      | zero => exact hfull
      | succ i =>
          rw [hshift]
          exact h.queueFull i (by omega)
    · rw [hshift]
      exact h.noError

/-- A first call that succeeds is enough. -/
theorem acceptedAfter_noError {results : ℕ → ErrorCode} {start : ℕ}
    (h : results start = .noError) : AcceptedAfter results start 0 :=
  ⟨fun i hi => absurd hi (Nat.not_lt_zero i), h⟩

theorem not_acceptedAfter_zero {results : ℕ → ErrorCode} {start : ℕ}
    (herror : results start ≠ .noError) : ¬ AcceptedAfter results start 0 :=
  fun h => herror h.noError

/-- Where the queue is not full the first call decides. -/
theorem acceptedAfter_zero {results : ℕ → ErrorCode} {start full : ℕ}
    (hfull : results start ≠ .queueFull) (h : AcceptedAfter results start full) : full = 0 := by
  cases full with
  | zero => rfl
  | succ full => exact absurd (h.queueFull 0 (by omega)) hfull

namespace KafkaProducer

variable {M : Type}

/-! ## One message -/

/-- The message is accepted once and the loop returns 0, or the loop fails and nothing was
accepted. -/
inductive Produced (producer : KafkaProducer M) (message : M) (retries : ℕ) :
    Int × KafkaProducer M → Prop where
  | accepted (full : ℕ) (hretries : full ≤ retries)
      (h : AcceptedAfter producer.results producer.calls full) :
      Produced producer message retries (0, { producer with
        calls := producer.calls + full + 1, accepted := producer.accepted ++ [message] })
  | failed (calls : ℕ)
      (h : ∀ full ≤ retries, ¬ AcceptedAfter producer.results producer.calls full) :
      Produced producer message retries (-1, { producer with calls })

theorem produce_noError {producer : KafkaProducer M} {message : M}
    (h : producer.results producer.calls = .noError) :
    producer.produce message = (.noError, { producer with
      calls := producer.calls + 1, accepted := producer.accepted ++ [message] }) := by
  simp only [produce, h, if_true]

theorem produce_error {producer : KafkaProducer M} {message : M} {resp : ErrorCode}
    (h : producer.results producer.calls = resp) (hresp : resp ≠ .noError) :
    producer.produce message = (resp, { producer with calls := producer.calls + 1 }) := by
  simp only [produce, h, if_neg hresp]

theorem produced (producer : KafkaProducer M) (message : M) (retries : ℕ) :
    Produced producer message retries (produceLoop message retries producer) := by
  induction retries generalizing producer with
  | zero =>
      rw [produceLoop]
      cases hresp : producer.results producer.calls with
      | noError =>
          rw [produce_noError hresp]
          exact .accepted 0 (Nat.le_refl 0) (acceptedAfter_noError hresp)
      | _ =>
          rw [produce_error hresp (by simp)]
          refine .failed _ fun full hle h => ?_
          obtain rfl := Nat.le_zero.1 hle
          exact not_acceptedAfter_zero (by simp [hresp]) h
  | succ retries ih =>
      rw [produceLoop]
      cases hresp : producer.results producer.calls with
      | noError =>
          rw [produce_noError hresp]
          exact .accepted 0 (Nat.zero_le _) (acceptedAfter_noError hresp)
      | queueFull =>
          rw [produce_error hresp (by simp)]
          change Produced producer message (retries + 1)
            (produceLoop message retries { producer with calls := producer.calls + 1 })
          have hproduced := ih { producer with calls := producer.calls + 1 }
          generalize produceLoop message retries
            { producer with calls := producer.calls + 1 } = result at hproduced ⊢
          cases hproduced with
          | accepted full hle h =>
              have hsucc := (acceptedAfter_succ hresp full).2 h
              have hcalls : producer.calls + 1 + full + 1 = producer.calls + (full + 1) + 1 := by
                omega
              simp only [hcalls]
              exact .accepted (full + 1) (by omega) hsucc
          | failed calls h =>
              refine .failed calls fun full hle hfull => ?_
              cases full with
              | zero => exact not_acceptedAfter_zero (by simp [hresp]) hfull
              | succ full => exact h full (by omega) ((acceptedAfter_succ hresp full).1 hfull)
      | other code =>
          rw [produce_error hresp (by simp)]
          refine .failed _ fun full hle h => ?_
          obtain rfl := acceptedAfter_zero (by simp [hresp]) h
          exact not_acceptedAfter_zero (by simp [hresp]) h

/-! ## The vector -/

/-- All messages are accepted; or those before one of them are, it is null in the vector, and those
after it are left. -/
inductive Pushed (producer : KafkaProducer M) (messages : List M) : PushOutcome M → Prop where
  | all (calls : ℕ) (h : AllAccepted producer.results producer.calls messages.length) :
      Pushed producer messages
        ⟨0, [], { producer with calls, accepted := producer.accepted ++ messages }⟩
  | stopped (before : List M) (message : M) (after : List M) (calls : ℕ)
      (hmessages : messages = before ++ message :: after)
      (h : ¬ AllAccepted producer.results producer.calls messages.length) :
      Pushed producer messages ⟨-1, none :: after.map some,
        { producer with calls, accepted := producer.accepted ++ before }⟩

theorem pushMessages_cons (producer : KafkaProducer M) (message : M) (rest : List (Option M)) :
    producer.pushMessages (some message :: rest) =
      if (produceLoop message maxRetries producer).1 = 0 then
        (produceLoop message maxRetries producer).2.pushMessages rest
      else .ok ⟨-1, none :: rest, (produceLoop message maxRetries producer).2⟩ := by
  rw [pushMessages]
  rfl

theorem pushed (producer : KafkaProducer M) (messages : List M) :
    ∃ outcome, producer.pushMessages (messages.map some) = .ok outcome ∧
      Pushed producer messages outcome := by
  induction messages generalizing producer with
  | nil =>
      refine ⟨_, rfl, ?_⟩
      have hpushed : Pushed producer ([] : List M)
          ⟨0, [], { producer with accepted := producer.accepted ++ [] }⟩ :=
        .all producer.calls trivial
      rwa [List.append_nil] at hpushed
  | cons message rest ih =>
      rw [List.map_cons, pushMessages_cons]
      generalize hloop : produceLoop message maxRetries producer = result
      have hproduced := produced producer message maxRetries
      rw [hloop] at hproduced
      cases hproduced with
      | accepted full hle h =>
          obtain ⟨outcome, heq, hpushed⟩ := ih { producer with
            calls := producer.calls + full + 1, accepted := producer.accepted ++ [message] }
          rw [if_pos rfl, heq]
          refine ⟨outcome, rfl, ?_⟩
          cases hpushed with
          | all calls hall =>
              simp only [List.append_assoc, List.singleton_append]
              exact .all calls ⟨full, hle, h, hall⟩
          | stopped before other after calls hmessages hall =>
              simp only [List.append_assoc, List.singleton_append]
              refine .stopped (message :: before) other after calls (by rw [hmessages]; rfl) ?_
              rintro ⟨others, -, hothers, hrest⟩
              obtain rfl := h.unique hothers
              exact hall hrest
      | failed calls h =>
          rw [if_neg (show ¬ (-1 : Int) = 0 by decide)]
          refine ⟨_, rfl, ?_⟩
          have hpushed : Pushed producer (message :: rest) ⟨-1, none :: rest.map some,
              { producer with calls, accepted := producer.accepted ++ [] }⟩ := by
            refine .stopped [] message rest calls rfl ?_
            rintro ⟨full, hle, hfull, -⟩
            exact h full hle hfull
          rwa [List.append_nil] at hpushed

/-! ## Pushing again -/

/-- After a failure the vector begins with a null pointer, and pushing it again reads through it. -/
theorem pushMessages_again {producer : KafkaProducer M} {messages : List M}
    {outcome : PushOutcome M} (h : Pushed producer messages outcome) (herr : outcome.err ≠ 0)
    (other : KafkaProducer M) : other.pushMessages outcome.messages = .error .undefined := by
  cases h with
  | all => exact absurd rfl herr
  | stopped => rfl

/-- 0 says that all messages were accepted, each of them once and in order; after a failure the
vector holds the others, and pushing it again sends them. -/
structure PushesAll (producer : KafkaProducer M) (messages : List M) : Prop where
  returned : ∃ outcome, producer.pushMessages (messages.map some) = .ok outcome
  zero_iff : ∀ outcome, producer.pushMessages (messages.map some) = .ok outcome →
    (outcome.err = 0 ↔ outcome.producer.accepted = producer.accepted ++ messages)
  remaining : ∀ outcome, producer.pushMessages (messages.map some) = .ok outcome →
    outcome.err ≠ 0 → ∃ before after, messages = before ++ after ∧
      outcome.producer.accepted = producer.accepted ++ before ∧
      outcome.messages = after.map some
  again : ∀ outcome, producer.pushMessages (messages.map some) = .ok outcome →
    outcome.err ≠ 0 → ∀ results : ℕ → ErrorCode, (∀ call, results call = .noError) →
      ∃ second, { outcome.producer with results }.pushMessages outcome.messages = .ok second ∧
        second.err = 0 ∧ second.producer.accepted = producer.accepted ++ messages

/-- The return value always says whether the messages were accepted. -/
theorem Pushed.zero_iff {producer : KafkaProducer M} {messages : List M}
    {outcome : PushOutcome M} (h : Pushed producer messages outcome) :
    outcome.err = 0 ↔ outcome.producer.accepted = producer.accepted ++ messages := by
  cases h with
  | all => exact ⟨fun _ => rfl, fun _ => rfl⟩
  | stopped before message after calls hmessages =>
      refine ⟨fun herr => absurd herr (show ¬ (-1 : Int) = 0 by decide), fun haccepted => ?_⟩
      have hlength := congrArg List.length (List.append_cancel_left haccepted)
      rw [hmessages, List.length_append, List.length_cons] at hlength
      omega

/-- The messages can be pushed again, where that is needed, exactly where it is not: each message
is accepted within its four attempts. -/
theorem pushesAll_iff (producer : KafkaProducer M) (messages : List M) :
    PushesAll producer messages ↔
      AllAccepted producer.results producer.calls messages.length := by
  obtain ⟨outcome, heq, hpushed⟩ := pushed producer messages
  constructor
  case mp =>
    intro h
    by_contra hnot
    have herr : outcome.err ≠ 0 := by
      cases hpushed with
      | all calls hall => exact absurd hall hnot
      | stopped => exact show (-1 : Int) ≠ 0 by decide
    obtain ⟨second, hsecond, -⟩ := h.again outcome heq herr (fun _ => .noError) fun _ => rfl
    rw [pushMessages_again hpushed herr] at hsecond
    cases hsecond
  case mpr =>
    intro hall
    have herr : outcome.err = 0 := by
      cases hpushed with
      | all => rfl
      | stopped before message after calls hmessages hnot => exact absurd hall hnot
    have hsame : ∀ other, producer.pushMessages (messages.map some) = .ok other →
        other = outcome := by
      intro other hother
      rw [heq] at hother
      exact (Except.ok.inj hother).symm
    exact {
      returned := ⟨outcome, heq⟩
      zero_iff := by
        intro other hother
        obtain rfl := hsame other hother
        exact hpushed.zero_iff
      remaining := by
        intro other hother hne
        obtain rfl := hsame other hother
        exact absurd herr hne
      again := by
        intro other hother hne
        obtain rfl := hsame other hother
        exact absurd herr hne }

/-- The first message is accepted, and the second one fails. -/
def failingProducer : KafkaProducer String where
  results := fun call => if call = 0 then .noError else .other (-1)

/-- The vector is left with a null pointer, and with neither of the messages. -/
theorem not_pushesAll_failing :
    ¬ PushesAll failingProducer ["a", "b"] := by
  intro h
  have heq : failingProducer.pushMessages (["a", "b"].map some) = .ok ⟨-1, [none],
      { failingProducer with calls := 2, accepted := ["a"] }⟩ := rfl
  obtain ⟨before, after, -, -, hafter⟩ := h.remaining _ heq (by decide)
  cases after with
  | nil => cases hafter
  | cons message rest => cases hafter

end KafkaProducer

end K2eg
