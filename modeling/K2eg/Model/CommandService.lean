import K2eg.Model.CommandWorkers
import K2eg.Model.NodeController

/-! # The service of the put and the get commands

The workers of `CommandWorkers` on the pool of `NodeController`: what a task does is the body of the
worker's function, and EPICS tells the operations of all commands things at any time. The tasks of
the other workers only come and go here. -/

namespace K2eg

open Msgpack (Object)

/-- The operation of a put or of a get command. -/
inductive CommandOperation where
  | get (op : GetOperation)
  | put (op : SingleOperation)

/-- A put has one request, so it does not matter which one is meant. -/
def CommandOperation.notify : CommandOperation → GetNotice → CommandOperation
  | .get op, notice => .get (op.notify notice)
  | .put op, notice => .put (op.notify notice.notice)

/-- The `processCommand` of a command: when it ran, and with which channels in use. -/
structure CommandStart where
  begin : Int
  channelMap : String → Option String

/-- What there is of a command: its operation until the reply, what EPICS has told it since its task
has last looked at it, and how it was found before. -/
structure CommandRecord where
  start : Option CommandStart := none
  op : Option CommandOperation := none
  notices : List GetNotice := []
  polls : List (Poll GetNotice) := []

/-- The library functions and the merger that the workers call. -/
structure WorkerLibrary where
  codec : Base64Codec
  unpack : List UInt8 → Except Failure Object
  merge : GetMerger

/-- The controller with the commands by their numbers. `ran` are the tasks whose body has run, and
`replied` is what the commands have led to. -/
structure CommandService where
  node : NodeController := .start
  records : ℕ → CommandRecord := fun _ => {}
  ran : List WorkerTask := []
  replied : List (ℕ × Replies) := []

inductive CommandStep where
  | node (step : NodeStep)
  | run (task : WorkerTask) (now : Int) (channelMap : String → Option String)
  | notify (number : ℕ) (notice : GetNotice)

/-- The commands whose tasks are modelled. -/
def ConstCommand.awaits : ConstCommand → Bool
  | .get _ | .put _ => true
  | _ => false

namespace CommandService

variable (library : WorkerLibrary)

/-- `processCommand` and its task, for the polls of the task. -/
def processCommand (cmd : ConstCommand) (start : CommandStart) (polls : List (Poll GetNotice)) :
    Option Replies :=
  match cmd with
  | .get cmd =>
    GetCommandWorker.processCommand library.merge start.channelMap cmd start.begin polls
  | .put cmd =>
    PutCommandWorker.processCommand library.codec library.unpack cmd start.begin
      (polls.map fun poll => ⟨poll.now, poll.notices.map GetNotice.notice⟩)
  | _ => none

/-- The operation that `processCommand` starts. -/
def startOperation (cmd : ConstCommand) (start : CommandStart) : Option CommandOperation :=
  match cmd with
  | .get cmd => (getChannelData start.channelMap cmd.pvName).map .get
  | .put cmd => (putChannelData cmd.pvName).map .put
  | _ => none

/-- `checkGetCompletion` or `checkPutCompletion` of a task: what it leads to, unless it submits
itself again. -/
def checkOperation (cmd : ConstCommand) (start : CommandStart) (op : CommandOperation) (now : Int) :
    Option Replies :=
  match cmd, op with
  | .get cmd, .get op =>
    GetCommandWorker.checkGetCompletion library.merge cmd { begin := start.begin } op [⟨now, []⟩]
  | .put cmd, .put op =>
    PutCommandWorker.checkPutCompletion cmd { begin := start.begin } op [⟨now, []⟩]
  | _, _ => none

def setRecord (s : CommandService) (number : ℕ) (record : CommandRecord) : CommandService :=
  { s with records := Function.update s.records number record }

/-- The body of a task has run: it has replied, or submitted the next task of its command. -/
def ended (s : CommandService) (task : WorkerTask) : Option Replies → CommandService
  | some replies => { s with
      ran := s.ran ++ [task], replied := s.replied ++ [(task.number, replies)] }
  | none => { s with
      ran := s.ran ++ [task], node := s.node.detachTask { task with call := task.call + 1 } }

/-- The body of a task. -/
def runTask (s : CommandService) (cmd : ConstCommand) (task : WorkerTask) (now : Int)
    (channelMap : String → Option String) : Option CommandService :=
  let record := s.records task.number
  match task.call with
  | 0 =>
    let start : CommandStart := ⟨now, channelMap⟩
    let outcome := processCommand library cmd start []
    let s := s.setRecord task.number { record with
      start := some start
      op := if outcome.isSome then none else startOperation cmd start }
    some (s.ended task outcome)
  | _ + 1 =>
    match record.start, record.op with
    | some start, some op =>
      let outcome := checkOperation library cmd start op now
      let s := s.setRecord task.number { record with
        op := if outcome.isSome then none else some op
        notices := []
        polls := record.polls ++ [⟨now, record.notices⟩] }
      some (s.ended task outcome)
    | _, _ => none

/-- The command of a task is a put or a get. -/
def awaited (s : CommandService) (task : WorkerTask) : Bool :=
  (s.node.commands[task.number]?).any ConstCommand.awaits

/-- A task of a put or a get submits the next one itself, and is finished once its body has run. -/
def next (threads : ℕ) (s : CommandService) : CommandStep → Option CommandService
  | .node step =>
    match step with
    | .detach task =>
      if s.awaited task then none
      else (s.node.next threads (.detach task)).map fun node => { s with node }
    | .finish task =>
      if s.awaited task ∧ task ∉ s.ran then none
      else (s.node.next threads (.finish task)).map fun node => { s with node }
    | step => (s.node.next threads step).map fun node => { s with node }
  | .run task now channelMap =>
    match s.node.commands[task.number]? with
    | none => none
    | some cmd =>
      if cmd.awaits ∧ task ∈ s.node.processingPool.running ∧ task ∉ s.ran then
        runTask library s cmd task now channelMap
      else none
  | .notify number notice =>
    match (s.records number).op with
    | none => none
    | some op => some (s.setRecord number { s.records number with
        op := some (op.notify notice), notices := (s.records number).notices ++ [notice] })

end CommandService

end K2eg
