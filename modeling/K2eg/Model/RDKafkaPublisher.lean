import K2eg.Model.PVData

/-! # The Kafka publisher

`RDKafkaPublisher::pushMessage` and `pushMessages` over a producer whose `produce` calls may give
any results. -/

namespace K2eg

/-- `RdKafka::ErrorCode` -/
inductive ErrorCode where
  | noError | queueFull
  | other (code : Int)
  deriving DecidableEq, Repr

/-- The producer: what its calls of `produce` give, how many there were, and the messages that it
has accepted. -/
structure KafkaProducer (M : Type) where
  results : ℕ → ErrorCode
  calls : ℕ := 0
  accepted : List M := []

/-- What `pushMessages` returns, and the vector and the producer that it leaves. -/
structure PushOutcome (M : Type) where
  err : Int
  messages : List (Option M)
  producer : KafkaProducer M

namespace KafkaProducer

variable {M : Type}

def produce (producer : KafkaProducer M) (message : M) : ErrorCode × KafkaProducer M :=
  let resp := producer.results producer.calls
  (resp, { producer with
    calls := producer.calls + 1
    accepted := if resp = .noError then producer.accepted ++ [message] else producer.accepted })

def maxRetries : ℕ := 3

/-- The loop of `pushMessage`, with the retries that are left. -/
def produceLoop (message : M) : ℕ → KafkaProducer M → Int × KafkaProducer M
  | 0, producer =>
    match producer.produce message with
    | (.noError, producer) => (0, producer)
    | (_, producer) => (-1, producer)
  | retries + 1, producer =>
    match producer.produce message with
    | (.noError, producer) => (0, producer)
    | (.queueFull, producer) => produceLoop message retries producer
    | (.other _, producer) => (-1, producer)

/-- `pushMessage`: the message is read through its pointer, and belongs to the producer or is
deleted afterwards. -/
def pushMessage (producer : KafkaProducer M) :
    Option M → Except Failure (Int × KafkaProducer M)
  | none => .error .undefined
  | some message => .ok (produceLoop message maxRetries producer)

/-- `pushMessages`: a message that was pushed is erased. The pointer of the one that was not has
been moved from. -/
def pushMessages (producer : KafkaProducer M) :
    List (Option M) → Except Failure (PushOutcome M)
  | [] => .ok ⟨0, [], producer⟩
  | message :: rest => do
    let (err, producer) ← producer.pushMessage message
    if err = 0 then pushMessages producer rest
    else .ok ⟨-1, none :: rest, producer⟩

end KafkaProducer

end K2eg
