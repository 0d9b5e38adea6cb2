import K2eg.Model.EpicsData
import K2eg.Model.RDKafkaPublisher
import Mathlib.Logic.Function.Basic

/-! # Delivery reports

A message that is pushed belongs to its call of `RDKafkaPublisher::pushMessage`, then to the
producer, which reads it where it is, and then to `dr_cb`. Reports come at any time, in any order
and on any thread that polls. -/

namespace K2eg

/-- `pubsub::EventType` -/
inductive PublishEventType where
  | onDelivery | onSent | onError
  deriving DecidableEq, Repr

/-- `RdKafka::Message::Status` -/
inductive MessageStatus where
  | notPersisted | possiblyPersisted | persisted
  | other (status : Int)
  deriving DecidableEq, Repr

/-- What `dr_cb` tells a callback. -/
def MessageStatus.event (errstr : String) : MessageStatus → Option (PublishEventType × String)
  | .notPersisted => some (.onError, errstr)
  | .possiblyPersisted => some (.onError, errstr)
  | .persisted => some (.onSent, "")
  | .other _ => none

inductive PushPhase where
  | producing (retryCount : ℕ)
  | returned (err : Int)
  deriving DecidableEq, Repr

/-- A call of `pushMessage`, with what its calls of `produce` gave. -/
structure PushCall (P : Type) where
  message : PublishMessage P
  phase : PushPhase := .producing 0
  responses : List ErrorCode := []

/-- A call of `dr_cb` for the message of a push. -/
structure DeliveryReport where
  push : ℕ
  status : MessageStatus
  errstr : String
  deriving DecidableEq, Repr

/-- A call of a callback for the message of a push. -/
structure CallbackEvent (K : Type) where
  callback : K
  type : PublishEventType
  push : ℕ
  errorMessage : String
  deriving DecidableEq, Repr

/-- The publisher. A key of `eventCallbackForReqType` may have the empty function. The messages are
told apart by their pushes; `outq` has those of the producer, and `freed` those that have been
deleted. -/
structure DeliveryReports (P K : Type) where
  eventCallbackForReqType : String → Option (Option K) := fun _ => none
  registrations : List (String × K × Int) := []
  calls : List (PushCall P) := []
  outq : List ℕ := []
  reports : List DeliveryReport := []
  freed : List ℕ := []
  events : List (CallbackEvent K) := []

inductive DeliveryStep (P K : Type) where
  | setCallBackForReqType (reqType : String) (eventCallback : K)
  | pushMessage (message : PublishMessage P)
  | produce (push : ℕ) (resp : ErrorCode)
  | report (report : DeliveryReport)

namespace DeliveryReports

variable {P K : Type}

/-- `setCallBackForReqType`: `insert` leaves a key that is there. -/
def setCallBackForReqType (s : DeliveryReports P K) (reqType : String) (eventCallback : K) :
    DeliveryReports P K :=
  match s.eventCallbackForReqType reqType with
  | some _ => { s with registrations := s.registrations ++ [(reqType, eventCallback, -1)] }
  | none => { s with
    eventCallbackForReqType :=
      Function.update s.eventCallbackForReqType reqType (some (some eventCallback))
    registrations := s.registrations ++ [(reqType, eventCallback, 1)] }

/-- `pushMessage` gives the message up with `release`. -/
def pushMessage (s : DeliveryReports P K) (message : PublishMessage P) : DeliveryReports P K :=
  { s with calls := s.calls ++ [{ message }] }

/-- A `produce` of a push, with what the loop makes of it. The polls before the next one are reports
like any other. -/
def produce (s : DeliveryReports P K) (push : ℕ) (call : PushCall P) (retryCount : ℕ)
    (resp : ErrorCode) : DeliveryReports P K :=
  let responses := call.responses ++ [resp]
  if resp = .noError then { s with
    calls := s.calls.set push { call with phase := .returned 0, responses }
    outq := s.outq ++ [push] }
  else if resp = .queueFull ∧ retryCount < KafkaProducer.maxRetries then { s with
    calls := s.calls.set push { call with phase := .producing (retryCount + 1), responses } }
  else { s with
    calls := s.calls.set push { call with phase := .returned (-1), responses }
    freed := s.freed ++ [push] }

/-- `dr_cb` of a message of this type: the callback is found with `operator[]`, and the message is
deleted behind it. -/
def drCb (s : DeliveryReports P K) (report : DeliveryReport) (reqType : String) :
    DeliveryReports P K :=
  let found := s.eventCallbackForReqType reqType
  let cbHandler := found.join
  { s with
    eventCallbackForReqType :=
      if found.isSome then s.eventCallbackForReqType
      else Function.update s.eventCallbackForReqType reqType (some none)
    outq := s.outq.erase report.push
    reports := s.reports ++ [report]
    freed := s.freed ++ [report.push]
    events := s.events ++ (match cbHandler, report.status.event report.errstr with
      | some callback, some (type, errorMessage) => [⟨callback, type, report.push, errorMessage⟩]
      | _, _ => []) }

def next (s : DeliveryReports P K) : DeliveryStep P K → Option (DeliveryReports P K)
  | .setCallBackForReqType reqType eventCallback =>
    some (s.setCallBackForReqType reqType eventCallback)
  | .pushMessage message => some (s.pushMessage message)
  | .produce push resp =>
    match s.calls[push]? with
    | none => none
    | some call =>
      match call.phase with
      | .producing retryCount => some (s.produce push call retryCount resp)
      | .returned _ => none
  | .report report =>
    match s.calls[report.push]? with
    | none => none
    | some call =>
      if report.push ∈ s.outq then some (s.drCb report call.message.reqType) else none

end DeliveryReports

end K2eg
