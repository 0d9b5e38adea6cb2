import K2eg.Foundation.Interleaving
import K2eg.Model.MapToCommand
import Mathlib.Logic.Function.Basic

/-! # The command controller

`CMDController::consume`: a batch of messages is fetched, parsed, given to the handler, and
committed. -/

namespace K2eg

/-- What `boost::json::parse` makes of a text: an object, a value of another kind, or an error,
which leaves the null value. -/
inductive ParsedText where
  | object (obj : CommandObject)
  | other (value : Json)
  | error

/-- What one message of a batch leads to: a command of `result_vec`, and the messages pushed. -/
structure MessageOutcome where
  command : Option ConstCommand := none
  replies : List (PublishMessage SerializedMessage) := []

namespace CMDController

open MapToCommand

/-- What is done with the object of a message. An exception is caught and logged. -/
def onObject (obj : CommandObject) : MessageOutcome :=
  match parse obj.members with
  | .error _ => {}
  | .ok (some command) => { command := some command }
  | .ok none =>
    match returnFailCommandParsing obj.members with
    | .error _ => {}
    | .ok replies => { replies }

/-- What is done with a message of the batch; `as_object` throws on a value of another kind. -/
def onMessage (bjParse : String → ParsedText) (message : String) : MessageOutcome :=
  if message = "" then {}
  else
    match bjParse message with
    | .object obj => onObject obj
    | .other _ => {}
    | .error => {}

/-- The loop over the batch: `result_vec`, and the messages pushed. -/
def parseBatch (bjParse : String → ParsedText) (receivedMessage : List String) :
    List ConstCommand × List (PublishMessage SerializedMessage) :=
  receivedMessage.foldl
    (fun result message =>
      (result.1 ++ (onMessage bjParse message).command.toList,
        result.2 ++ (onMessage bjParse message).replies))
    ([], [])

end CMDController

/-! ## The offsets -/

/-- A message that was fetched, with its place. -/
structure FetchedMessage where
  partition : ℕ
  offset : ℕ
  message : String

/-- How a batch ends: the handler throws; or it returns, or has nothing to do, and the commit of the
offsets takes place or not. -/
inductive BatchOutcome where
  | handlerThrows | commitFails | commits
  deriving DecidableEq, Repr

/-- The topic of the commands, the consumer of `RDKafkaSubscriber`, and what has become of the
batches: the places that were in a batch for which the handler returned, and whether it has thrown
since the process started. -/
structure CommandConsumer where
  log : ℕ → List String := fun _ => []
  position : ℕ → ℕ := fun _ => 0
  committed : ℕ → ℕ := fun _ => 0
  handled : List (ℕ × ℕ) := []
  failed : Bool := false

inductive ConsumerStep where
  | produce (partition : ℕ) (message : String)
  | consume (partitions : List ℕ) (outcome : BatchOutcome)
  | restart

namespace CommandConsumer

open CMDController

/-- `getMsg`: each message consumed stores the next offset of its partition. -/
def getMsg (log : ℕ → List String) (position : ℕ → ℕ) :
    List ℕ → Option (List FetchedMessage × (ℕ → ℕ))
  | [] => some ([], position)
  | partition :: rest =>
    match (log partition)[position partition]? with
    | none => none
    | some message =>
      (getMsg log (Function.update position partition (position partition + 1)) rest).map
        fun fetched => (⟨partition, position partition, message⟩ :: fetched.1, fetched.2)

/-- The commands of a batch. -/
def resultVec (bjParse : String → ParsedText) (batch : List FetchedMessage) : List ConstCommand :=
  (parseBatch bjParse (batch.map (·.message))).1

/-- A batch that is not empty is given to the handler, where it has commands, and committed. A
commit covers every message that was fetched. -/
def dispatch (bjParse : String → ParsedText) (s : CommandConsumer) (batch : List FetchedMessage)
    (position : ℕ → ℕ) (outcome : BatchOutcome) : Option CommandConsumer :=
  let handled := if (resultVec bjParse batch).isEmpty then s.handled
    else s.handled ++ batch.map fun fetched => (fetched.partition, fetched.offset)
  match outcome with
  | .handlerThrows =>
    if (resultVec bjParse batch).isEmpty then none else some { s with position, failed := true }
  | .commitFails => some { s with position, handled }
  | .commits => some { s with position, handled, committed := position }

/-- One round of `consume`. -/
def consume (bjParse : String → ParsedText) (s : CommandConsumer) (partitions : List ℕ)
    (outcome : BatchOutcome) : Option CommandConsumer :=
  match getMsg s.log s.position partitions with
  | none => none
  | some ([], _) => some s
  | some (batch, position) => s.dispatch bjParse batch position outcome

def next (bjParse : String → ParsedText) (s : CommandConsumer) :
    ConsumerStep → Option CommandConsumer
  | .produce partition message =>
    some { s with log := Function.update s.log partition (s.log partition ++ [message]) }
  | .consume partitions outcome => s.consume bjParse partitions outcome
  | .restart => some { s with position := s.committed, failed := false }

end CommandConsumer

end K2eg
