import K2eg.Model.CMDController

/-! # The Kafka subscriber

`RDKafkaSubscriber::getMsg` over the results that the calls of `consume` may give. -/

namespace K2eg

/-- What a call of `KafkaConsumer::consume` yields: no object, a message of a partition, or an
object with an error. -/
inductive ConsumeResult where
  | null
  | message (partition : ℕ)
  | partitionEof
  | timedOut
  | error (code : Int)
  deriving DecidableEq, Repr

/-- A call of `consume`, and whether the time of `getMsg` is over behind it. -/
structure ConsumeCall where
  result : ConsumeResult
  late : Bool
  deriving DecidableEq, Repr

/-- The vector that `getMsg` fills, with the offsets that the consumer has stored. -/
structure MessageVector where
  messages : List FetchedMessage := []
  position : ℕ → ℕ

namespace RDKafkaSubscriber

/-- `internalConsume` of the next message of a partition. -/
def internalConsume (log : ℕ → List String) (vector : MessageVector) (partition : ℕ) :
    Option MessageVector :=
  (log partition)[vector.position partition]?.map fun message =>
    { messages := vector.messages ++ [⟨partition, vector.position partition, message⟩]
      position :=
        Function.update vector.position partition (vector.position partition + 1) }

/-- The loop of `getMsg`, with its result; `none` where `consume` has not returned. Without an
object the deadline is not looked at. -/
def getMsg (log : ℕ → List String) (mNum : ℕ) :
    List ConsumeCall → MessageVector → Option (Int × MessageVector)
  | calls, vector =>
    if mNum ≤ vector.messages.length then some (0, vector)
    else
      match calls with
      | [] => none
      | call :: rest =>
        match call.result with
        | .null => getMsg log mNum rest vector
        | .message partition =>
          match internalConsume log vector partition with
          | none => none
          | some vector => if call.late then some (0, vector) else getMsg log mNum rest vector
        | .partitionEof => if call.late then some (0, vector) else getMsg log mNum rest vector
        | .timedOut => some (0, vector)
        | .error _ => some (if vector.messages.isEmpty then 0 else -1, vector)

end RDKafkaSubscriber

end K2eg
