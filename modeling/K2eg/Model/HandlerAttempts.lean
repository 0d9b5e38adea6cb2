import K2eg.Model.TopicHandlers

/-! # Calls that an exception leaves

`handleMonitorCheckEvents` makes its changes one after the other and undoes none of them. A call
is run as a whole here, up to where an exception leaves it. -/

namespace K2eg

/-- What throws in a Start, before the channel is opened. -/
inductive HandlerFault where
  | lookup
  | pushBack
  | createQueue
  | monitorChannel
  deriving DecidableEq, Repr

/-- A call, and what throws if it gets there. -/
structure HandlerAttempt where
  event : MonitorHandlerData
  fault : Option HandlerFault := none

/-- The handlers, with the queues that have been created. -/
structure AttemptedHandlers where
  handlers : TopicHandlers := {}
  queues : List String := []

namespace AttemptedHandlers

/-- `get_queue_for_pv` -/
def getQueueForPv (pvName : String) : String :=
  pvName.map fun c => if c = ':' then '_' else c

/-- The branch of Start. -/
def start (s : AttemptedHandlers) (name : String) (event : MonitorHandlerData)
    (fault : Option HandlerFault) : AttemptedHandlers :=
  if fault = some .lookup then s
  else
    let (cmdVec, handlers) := s.handlers.lookup name
    match TopicHandlers.find (handlers.cmdVecs cmdVec) event with
    | some _ => { s with handlers }
    | none =>
      if fault = some .pushBack then { s with handlers }
      else
        let handlers :=
          handlers.setCmdVec cmdVec (handlers.cmdVecs cmdVec ++ [event.monitorType])
        if fault = some .createQueue then { s with handlers }
        else
          let queues := s.queues ++ [getQueueForPv name]
          if fault = some .monitorChannel then { handlers, queues }
          else { handlers := handlers.monitorChannel event.monitorType.pvName true, queues }

/-- The branch of Stop. -/
def stop (s : AttemptedHandlers) (name : String) (event : MonitorHandlerData) :
    AttemptedHandlers :=
  let (cmdVec, handlers) := s.handlers.lookup name
  match TopicHandlers.find (handlers.cmdVecs cmdVec) event with
  | none => { s with handlers }
  | some position =>
    let remaining := (handlers.cmdVecs cmdVec).eraseIdx position
    let handlers :=
      (handlers.setCmdVec cmdVec remaining).monitorChannel event.monitorType.pvName false
    { s with handlers :=
        if remaining.isEmpty then
          { handlers with channelTopicsMap := Function.update handlers.channelTopicsMap name none }
        else handlers }

/-- `handleMonitorCheckEvents` -/
def handleMonitorCheckEvents (s : AttemptedHandlers) (attempt : HandlerAttempt) :
    AttemptedHandlers :=
  match sanitizePVName attempt.event.monitorType.pvName with
  | none => s
  | some pv =>
    match attempt.event.action with
    | .start => s.start pv.name attempt.event attempt.fault
    | .stop => s.stop pv.name attempt.event

/-- Calls one after the other. -/
def after (attempts : List HandlerAttempt) : AttemptedHandlers :=
  attempts.foldl handleMonitorCheckEvents {}

end AttemptedHandlers

end K2eg
