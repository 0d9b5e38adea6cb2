import K2eg.Model.NodeController
import K2eg.Model.RDKafkaSubscriber

/-! # The gateway of the commands

The thread of `CMDController::consume` fetches a batch, gives its commands to
`NodeController::submitCommand` and commits; the threads of the processing pool run meanwhile. -/

namespace K2eg

/-- The topic of the commands, its consumer and the node. `consuming` is whether a batch is under
way, `faults` the metric of the batches that an exception has ended, `fetched` the messages that
have been fetched and `dropped` the commands that an exception has kept from the pool. -/
structure CommandGateway where
  log : ℕ → List String := fun _ => []
  position : ℕ → ℕ := fun _ => 0
  committed : ℕ → ℕ := fun _ => 0
  node : NodeController := .start
  consuming : Bool := false
  faults : ℕ := 0
  fetched : List FetchedMessage := []
  dropped : List ConstCommand := []

inductive GatewayStep where
  | produce (partition : ℕ) (message : String)
  | getMsg (calls : List ConsumeCall)
  /-- `submitCommand` goes on, or throws -/
  | submitNext
  | throwNext
  /-- `commit`, which may throw -/
  | commit (returns : Bool)
  /-- another caller of the node, or a thread of its pool -/
  | query (type : CommandType)
  | dequeue
  | detach (task : WorkerTask)
  | finish (task : WorkerTask)

namespace CommandGateway

variable (bjParse : String → ParsedText) (maxMessageToFetch threads : ℕ)

def setNode (s : CommandGateway) (node : NodeController) : CommandGateway := { s with node }

/-- A batch is handed over; where it has no commands, there is nothing to submit. -/
def receive (s : CommandGateway) (vector : MessageVector) : Option CommandGateway :=
  let resultVec := CommandConsumer.resultVec bjParse vector.messages
  let fetched := { s with
    position := vector.position
    fetched := s.fetched ++ vector.messages
    consuming := !vector.messages.isEmpty }
  if resultVec.isEmpty then some fetched
  else (s.node.next threads (.submitCommand resultVec)).map fetched.setNode

def next (s : CommandGateway) : GatewayStep → Option CommandGateway
  | .produce partition message =>
    some { s with log := Function.update s.log partition (s.log partition ++ [message]) }
  | .getMsg calls =>
    if s.consuming then none
    else
      (RDKafkaSubscriber.getMsg s.log maxMessageToFetch calls ⟨[], s.position⟩).bind fun result =>
        s.receive bjParse threads result.2
  | .submitNext => (s.node.next threads .submitNext).map s.setNode
  | .throwNext =>
    (s.node.next threads .throwNext).map fun node =>
      { s with
        node
        consuming := false
        faults := s.faults + 1
        dropped := s.dropped ++ s.node.commands.drop s.node.passed }
  | .commit returns =>
    if s.consuming ∧ s.node.passed = s.node.commands.length then
      some { s with
        committed := if returns then s.position else s.committed
        consuming := false
        faults := if returns then s.faults else s.faults + 1 }
    else none
  | .query type => (s.node.next threads (.query type)).map s.setNode
  | .dequeue => (s.node.next threads .dequeue).map s.setNode
  | .detach task => (s.node.next threads (.detach task)).map s.setNode
  | .finish task => (s.node.next threads (.finish task)).map s.setNode

end CommandGateway

end K2eg
