import K2eg.Foundation.Interleaving
import K2eg.Model.DeliveryReports
import K2eg.Verification.Publishing.Push
import Mathlib.Data.List.Count
import Mathlib.Data.List.Nodup
import Mathlib.Data.List.Perm.Basic

/-! # Messages and their delivery reports

A message is in one place at any time and is deleted once. The callbacks of a type are those of the
first that touches it: the first registration, unless a report comes before it. -/

namespace K2eg

open Interleaving

/-! ## A push -/

namespace KafkaProducer

variable {M : Type} {message : M}

/-- Each call that finds the queue full costs a retry. -/
theorem produceLoop_queueFull {full retries : ℕ} (hle : full ≤ retries)
    (producer : KafkaProducer M)
    (hfull : ∀ i < full, producer.results (producer.calls + i) = .queueFull) :
    produceLoop message retries producer =
      produceLoop message (retries - full) { producer with calls := producer.calls + full } := by
  induction full generalizing retries producer with
  | zero => rfl
  | succ full ih =>
      obtain ⟨rest, rfl⟩ : ∃ rest, retries = rest + 1 := ⟨retries - 1, by omega⟩
      have hfirst := hfull 0 (Nat.succ_pos full)
      have hnext : ∀ i < full, producer.results (producer.calls + 1 + i) = .queueFull := by
        intro i hi
        rw [Nat.add_assoc, Nat.add_comm 1 i]
        exact hfull (i + 1) (Nat.succ_lt_succ hi)
      rw [produceLoop, produce_error hfirst (by simp)]
      simp only [Nat.add_sub_add_right]
      rw [ih (Nat.le_of_succ_le_succ hle) { producer with calls := producer.calls + 1 } hnext]
      simp only [Nat.add_assoc, Nat.add_comm 1 full]

/-- A call that is not retried decides. -/
theorem produceLoop_last {retries : ℕ} (producer : KafkaProducer M)
    (hlast : producer.results producer.calls = .queueFull → retries = 0) :
    produceLoop message retries producer =
      (if producer.results producer.calls = .noError then 0 else -1,
        (producer.produce message).2) := by
  cases hresp : producer.results producer.calls with
  | noError =>
      cases retries <;> rw [produceLoop, produce_noError hresp] <;> rfl
  | queueFull =>
      rw [hlast hresp, produceLoop, produce_error hresp (by simp)]
      rfl
  | other code =>
      cases retries <;> rw [produceLoop, produce_error hresp (by simp)] <;> rfl

end KafkaProducer

namespace PushCall

variable {P : Type} {call : PushCall P}

/-- The producer that gives what the push has been given. -/
def producer (call : PushCall P) : KafkaProducer (PublishMessage P) where
  results := fun i => call.responses.getD i .noError

/-- The queue was full for the retries so far, and the last call has decided. -/
def Consistent (call : PushCall P) : Prop :=
  match call.phase with
  | .producing retryCount =>
    retryCount ≤ KafkaProducer.maxRetries ∧ call.responses = List.replicate retryCount .queueFull
  | .returned err => ∃ full ≤ KafkaProducer.maxRetries, ∃ resp,
    call.responses = List.replicate full .queueFull ++ [resp] ∧
      err = (if resp = .noError then 0 else -1) ∧
        (resp = .queueFull → full = KafkaProducer.maxRetries)

theorem consistent_received (message : PublishMessage P) :
    ({ message } : PushCall P).Consistent := ⟨Nat.zero_le _, rfl⟩

/-- A push that has returned is a call of `pushMessage`. -/
theorem Consistent.pushMessage (h : call.Consistent) {err : Int}
    (hphase : call.phase = .returned err) :
    call.producer.pushMessage (some call.message) = .ok (err, { call.producer with
      calls := call.responses.length
      accepted := if err = 0 then [call.message] else [] }) := by
  rw [Consistent, hphase] at h
  obtain ⟨full, hle, resp, hresponses, herr, hlast⟩ := h
  have hfull : ∀ i < full, call.producer.results (call.producer.calls + i) = .queueFull := by
    intro i hi
    simp [producer, hresponses, List.getElem?_append_left, hi]
  have hresp : call.producer.results full = resp := by
    simp [producer, hresponses]
  have hzero : call.producer.calls + full = full := Nat.zero_add full
  have hlength : call.responses.length = full + 1 := by simp [hresponses]
  rw [KafkaProducer.pushMessage, KafkaProducer.produceLoop_queueFull hle _ hfull,
    KafkaProducer.produceLoop_last]
  · rw [herr, KafkaProducer.produce]
    dsimp only
    rw [hzero, hresp, hlength]
    by_cases hnone : resp = .noError <;> simp [hnone, producer]
  · dsimp only
    rw [hzero, hresp]
    intro hqueueFull
    rw [hlast hqueueFull, Nat.sub_self]

/-- The push after its next call. -/
def answered (call : PushCall P) (retryCount : ℕ) (resp : ErrorCode) : PushCall P :=
  { call with
    responses := call.responses ++ [resp]
    phase :=
      if resp = .noError then .returned 0
      else if resp = .queueFull ∧ retryCount < KafkaProducer.maxRetries then
        .producing (retryCount + 1)
      else .returned (-1) }

theorem Consistent.answered (h : call.Consistent) {retryCount : ℕ}
    (hphase : call.phase = .producing retryCount) (resp : ErrorCode) :
    (call.answered retryCount resp).Consistent := by
  rw [Consistent, hphase] at h
  obtain ⟨hle, hresponses⟩ := h
  rw [Consistent, PushCall.answered]
  by_cases hnone : resp = .noError
  · simp only [if_pos hnone]
    refine ⟨retryCount, hle, resp, by rw [hresponses], (if_pos hnone).symm, fun hfull => ?_⟩
    rw [hnone] at hfull
    cases hfull
  · simp only [if_neg hnone]
    by_cases hretry : resp = .queueFull ∧ retryCount < KafkaProducer.maxRetries
    · simp only [if_pos hretry]
      refine ⟨hretry.2, ?_⟩
      rw [hresponses, hretry.1, List.replicate_succ']
    · simp only [if_neg hretry]
      refine ⟨retryCount, hle, resp, by rw [hresponses], (if_neg hnone).symm, fun hfull => ?_⟩
      exact Nat.le_antisymm hle (Nat.not_lt.mp fun hlt => hretry ⟨hfull, hlt⟩)

end PushCall

namespace DeliveryReports

variable {P K : Type} {s t : DeliveryReports P K} {call : PushCall P} {push : ℕ}

/-! ## The places of a message -/

def phaseOf (s : DeliveryReports P K) (push : ℕ) : Option PushPhase :=
  s.calls[push]?.map PushCall.phase

def reported (s : DeliveryReports P K) : List ℕ := s.reports.map DeliveryReport.push

/-- What the producer has accepted it has or has reported, and what is deleted has been reported or
was not accepted. -/
structure Placed (s : DeliveryReports P K) : Prop where
  accepted : ∀ push, s.outq.count push + s.reported.count push =
    if s.phaseOf push = some (.returned 0) then 1 else 0
  freed : ∀ push, s.freed.count push =
    s.reported.count push + if s.phaseOf push = some (.returned (-1)) then 1 else 0

theorem placed_start : Placed ({} : DeliveryReports P K) :=
  ⟨fun _ => rfl, fun _ => rfl⟩

theorem phaseOf_pushMessage (s : DeliveryReports P K) (message : PublishMessage P) (push : ℕ)
    (err : Int) : (s.pushMessage message).phaseOf push = some (.returned err) ↔
      s.phaseOf push = some (.returned err) := by
  rw [phaseOf, phaseOf, pushMessage]
  rcases Nat.lt_trichotomy push s.calls.length with hlt | rfl | hgt
  · rw [List.getElem?_append_left hlt]
  · simp
  · rw [List.getElem?_eq_none (by simpa using Nat.succ_le_of_lt hgt),
      List.getElem?_eq_none (Nat.le_of_lt hgt)]

theorem Placed.pushMessage (h : s.Placed) (message : PublishMessage P) :
    (s.pushMessage message).Placed where
  accepted := by
    intro push
    simp only [phaseOf_pushMessage]
    exact h.accepted push
  freed := by
    intro push
    simp only [phaseOf_pushMessage]
    exact h.freed push

theorem produce_calls (s : DeliveryReports P K) (push : ℕ) (call : PushCall P) (retryCount : ℕ)
    (resp : ErrorCode) : (s.produce push call retryCount resp).calls =
      s.calls.set push (call.answered retryCount resp) := by
  rw [produce, PushCall.answered]
  split_ifs <;> rfl

/-- What a push leaves to the producer, and what it deletes. -/
theorem produce_places (s : DeliveryReports P K) (push : ℕ) (call : PushCall P) (retryCount : ℕ)
    (resp : ErrorCode) :
    (s.produce push call retryCount resp).outq =
        s.outq ++ (if (call.answered retryCount resp).phase = .returned 0 then [push] else []) ∧
      (s.produce push call retryCount resp).freed =
        s.freed ++ (if (call.answered retryCount resp).phase = .returned (-1) then [push] else []) ∧
      (s.produce push call retryCount resp).reports = s.reports := by
  rw [produce, PushCall.answered]
  split_ifs <;> simp_all

theorem phaseOf_produce (hcall : s.calls[push]? = some call) (retryCount : ℕ) (resp : ErrorCode)
    (other : ℕ) : (s.produce push call retryCount resp).phaseOf other =
      if other = push then some (call.answered retryCount resp).phase else s.phaseOf other := by
  have hlt := (List.getElem?_eq_some_iff.mp hcall).1
  rw [phaseOf, produce_calls, phaseOf]
  by_cases hother : other = push
  · subst hother
    simp [List.getElem?_set_self hlt]
  · rw [List.getElem?_set_ne (Ne.symm hother), if_neg hother]

theorem count_ite (p : Prop) [Decidable p] (push other : ℕ) :
    (if p then [push] else []).count other = if other = push ∧ p then 1 else 0 := by
  by_cases hp : p <;> by_cases hother : other = push
  · simp [hp, hother]
  · simp [hp, hother, Ne.symm hother]
  · simp [hp]
  · simp [hp]

theorem Placed.produce (h : s.Placed) (hcall : s.calls[push]? = some call) {retryCount : ℕ}
    (hphase : call.phase = .producing retryCount) (resp : ErrorCode) :
    (s.produce push call retryCount resp).Placed := by
  have hpush : s.phaseOf push = some (.producing retryCount) := by
    rw [phaseOf, hcall, Option.map_some, hphase]
  obtain ⟨houtq, hfreed, hreports⟩ := produce_places s push call retryCount resp
  constructor
  · intro other
    have haccepted := h.accepted other
    rw [phaseOf_produce hcall, houtq, reported, hreports, List.count_append, count_ite]
    by_cases hother : other = push
    · subst hother
      rw [hpush, if_neg (by simp)] at haccepted
      simp only [true_and, if_true, Option.some.injEq]
      change _ + s.reported.count other = _
      omega
    · simp only [hother, false_and, if_false]
      exact haccepted
  · intro other
    have hdeleted := h.freed other
    rw [phaseOf_produce hcall, hfreed, reported, hreports, List.count_append, count_ite]
    by_cases hother : other = push
    · subst hother
      rw [hpush, if_neg (by simp)] at hdeleted
      simp only [true_and, if_true, Option.some.injEq]
      change _ = s.reported.count other + _
      omega
    · simp only [hother, false_and, if_false]
      exact hdeleted

theorem Placed.drCb (h : s.Placed) {report : DeliveryReport} (hmem : report.push ∈ s.outq)
    (reqType : String) : (s.drCb report reqType).Placed := by
  have hphase (push : ℕ) : (s.drCb report reqType).phaseOf push = s.phaseOf push := rfl
  have hreported : (s.drCb report reqType).reported = s.reported ++ [report.push] :=
    List.map_append
  have houtq : (s.drCb report reqType).outq = s.outq.erase report.push := rfl
  have hfreed : (s.drCb report reqType).freed = s.freed ++ [report.push] := rfl
  constructor
  · intro other
    have haccepted := h.accepted other
    have hpos := List.count_pos_iff.mpr hmem
    rw [hphase, hreported, houtq, List.count_append, List.count_erase, List.count_singleton]
    by_cases hother : report.push = other
    · subst hother
      simp only [beq_self_eq_true, if_true]
      omega
    · simp only [beq_eq_false_iff_ne.mpr hother, Bool.false_eq_true, if_false]
      exact haccepted
  · intro other
    have hdeleted := h.freed other
    rw [hphase, hreported, hfreed, List.count_append, List.count_append]
    omega

/-! ## Callbacks -/

/-- What the callbacks are told of a report. -/
def eventOf (s : DeliveryReports P K) (report : DeliveryReport) : Option (CallbackEvent K) :=
  s.calls[report.push]?.bind fun call =>
    (s.eventCallbackForReqType call.message.reqType).join.bind fun callback =>
      (report.status.event report.errstr).map fun event =>
        ⟨callback, event.1, report.push, event.2⟩

/-- A type has the callback of its one registration that returned 1. A type with a report has what
it had then, and the events are those of the reports. -/
structure Informs (s : DeliveryReports P K) : Prop where
  registered : ∀ reqType callback,
    s.eventCallbackForReqType reqType = some (some callback) ↔
      (reqType, callback, 1) ∈ s.registrations
  refused : s.registrations.Pairwise fun earlier later =>
    later.1 = earlier.1 → later.2.2 = -1
  touched : ∀ registration ∈ s.registrations,
    s.eventCallbackForReqType registration.1 ≠ none ∧
      (registration.2.2 = 1 ∨ registration.2.2 = -1)
  fixed : ∀ report ∈ s.reports, ∃ call, s.calls[report.push]? = some call ∧
    s.eventCallbackForReqType call.message.reqType ≠ none
  events : s.events = s.reports.filterMap s.eventOf

/-- The pushes keep their messages, and the types that are touched keep what they have. -/
structure Keeps (s t : DeliveryReports P K) : Prop where
  messages : ∀ (push : ℕ) (call : PushCall P), s.calls[push]? = some call →
    ∃ later : PushCall P, t.calls[push]? = some later ∧ later.message = call.message
  callbacks : ∀ reqType, s.eventCallbackForReqType reqType ≠ none →
    t.eventCallbackForReqType reqType = s.eventCallbackForReqType reqType

theorem Keeps.eventOf (h : Keeps s t) {report : DeliveryReport}
    (hfixed : ∃ call, s.calls[report.push]? = some call ∧
      s.eventCallbackForReqType call.message.reqType ≠ none) :
    t.eventOf report = s.eventOf report ∧ ∃ call, t.calls[report.push]? = some call ∧
      t.eventCallbackForReqType call.message.reqType ≠ none := by
  obtain ⟨call, hcall, htouched⟩ := hfixed
  obtain ⟨later, hlater, hmessage⟩ := h.messages _ call hcall
  have hsame := h.callbacks _ htouched
  constructor
  · rw [DeliveryReports.eventOf, DeliveryReports.eventOf, hcall, hlater]
    simp only [Option.bind_some, hmessage, hsame]
  · refine ⟨later, hlater, ?_⟩
    rw [hmessage, hsame]
    exact htouched

theorem Keeps.filterMap (h : Keeps s t) (hinforms : s.Informs) :
    s.reports.filterMap t.eventOf = s.events := by
  rw [hinforms.events]
  exact List.filterMap_congr fun report hreport => (h.eventOf (hinforms.fixed report hreport)).1

theorem keeps_pushMessage (s : DeliveryReports P K) (message : PublishMessage P) :
    Keeps s (s.pushMessage message) where
  messages := by
    intro push call hcall
    have hlt := (List.getElem?_eq_some_iff.mp hcall).1
    exact ⟨call, (List.getElem?_append_left hlt).trans hcall, rfl⟩
  callbacks := fun _ _ => rfl

theorem keeps_produce (hcall : s.calls[push]? = some call) (retryCount : ℕ) (resp : ErrorCode) :
    Keeps s (s.produce push call retryCount resp) where
  messages := by
    intro other before hbefore
    have hlt := (List.getElem?_eq_some_iff.mp hcall).1
    rw [produce_calls]
    by_cases hother : other = push
    · subst hother
      obtain rfl := Option.some.inj (hcall.symm.trans hbefore)
      exact ⟨_, List.getElem?_set_self hlt, rfl⟩
    · exact ⟨before, (List.getElem?_set_ne (Ne.symm hother)).trans hbefore, rfl⟩
  callbacks := by
    intro reqType _
    rw [DeliveryReports.produce]
    split_ifs <;> rfl

namespace Informs

theorem start : Informs ({} : DeliveryReports P K) := ⟨by simp, .nil, nofun, nofun, rfl⟩

/-- A step of a push. -/
theorem of_keeps (h : s.Informs) (hkeeps : Keeps s t)
    (hcallbacks : t.eventCallbackForReqType = s.eventCallbackForReqType)
    (hregistrations : t.registrations = s.registrations) (hreports : t.reports = s.reports)
    (hevents : t.events = s.events) : t.Informs where
  registered := by
    rw [hcallbacks, hregistrations]
    exact h.registered
  refused := hregistrations ▸ h.refused
  touched := by
    rw [hcallbacks, hregistrations]
    exact h.touched
  fixed := by
    intro report hreport
    rw [hreports] at hreport
    exact (hkeeps.eventOf (h.fixed report hreport)).2
  events := by rw [hevents, hreports, hkeeps.filterMap h]

theorem pushMessage (h : s.Informs) (message : PublishMessage P) :
    (s.pushMessage message).Informs :=
  h.of_keeps (keeps_pushMessage s message) rfl rfl rfl rfl

theorem produce (h : s.Informs) (hcall : s.calls[push]? = some call) (retryCount : ℕ)
    (resp : ErrorCode) : (s.produce push call retryCount resp).Informs := by
  apply h.of_keeps (keeps_produce hcall retryCount resp) <;>
    rw [DeliveryReports.produce] <;> split_ifs <;> rfl

/-- A registration of a type that nothing has touched. -/
theorem register (h : s.Informs) {reqType : String}
    (hnone : s.eventCallbackForReqType reqType = none) (eventCallback : K) :
    Informs { s with
      eventCallbackForReqType :=
        Function.update s.eventCallbackForReqType reqType (some (some eventCallback))
      registrations := s.registrations ++ [(reqType, eventCallback, 1)] } := by
  have hfirst : ∀ registration ∈ s.registrations, registration.1 ≠ reqType := by
    intro registration hmem heq
    exact (h.touched registration hmem).1 (heq ▸ hnone)
  have hkeeps : Keeps s { s with
      eventCallbackForReqType :=
        Function.update s.eventCallbackForReqType reqType (some (some eventCallback))
      registrations := s.registrations ++ [(reqType, eventCallback, 1)] } := by
    refine ⟨fun push call hcall => ⟨call, hcall, rfl⟩, fun other hother => ?_⟩
    apply Function.update_of_ne
    rintro rfl
    exact hother hnone
  refine ⟨fun other callback => ?_, ?_, ?_, ?_, ?_⟩
  · dsimp only
    rw [List.mem_append, List.mem_singleton]
    by_cases hother : other = reqType
    · subst hother
      rw [Function.update_self]
      constructor
      · intro heq
        obtain rfl := Option.some.inj (Option.some.inj heq)
        exact .inr rfl
      · rintro (hmem | heq)
        · exact absurd rfl (hfirst _ hmem)
        · simp_all
    · rw [Function.update_of_ne hother, h.registered]
      simp [hother]
  · refine List.pairwise_append.mpr ⟨h.refused, List.pairwise_singleton .., ?_⟩
    intro earlier hearlier later hlater heq
    obtain rfl := List.mem_singleton.mp hlater
    exact absurd heq.symm (hfirst earlier hearlier)
  · intro registration hmem
    dsimp only
    rcases List.mem_append.mp hmem with hmem | hmem
    · rw [Function.update_of_ne (hfirst registration hmem)]
      exact h.touched registration hmem
    · obtain rfl := List.mem_singleton.mp hmem
      simp
  · intro report hreport
    exact (hkeeps.eventOf (h.fixed report hreport)).2
  · exact (hkeeps.filterMap h).symm

theorem setCallBackForReqType (h : s.Informs) (reqType : String) (eventCallback : K) :
    (s.setCallBackForReqType reqType eventCallback).Informs := by
  rw [DeliveryReports.setCallBackForReqType]
  cases hfound : s.eventCallbackForReqType reqType with
  | none => exact h.register hfound eventCallback
  | some found =>
      refine ⟨fun other callback => ?_, ?_, ?_, h.fixed, h.events⟩
      · simp [h.registered]
      · refine List.pairwise_append.mpr ⟨h.refused, List.pairwise_singleton .., ?_⟩
        intro earlier _ later hlater _
        obtain rfl := List.mem_singleton.mp hlater
        rfl
      · intro registration hmem
        rcases List.mem_append.mp hmem with hmem | hmem
        · exact h.touched registration hmem
        · obtain rfl := List.mem_singleton.mp hmem
          simp [hfound]

/-- The type of a report is touched, and no function is found another way than before. -/
theorem drCb_callbacks (s : DeliveryReports P K) (report : DeliveryReport) (reqType : String) :
    (s.drCb report reqType).eventCallbackForReqType =
      Function.update s.eventCallbackForReqType reqType
        (some (s.eventCallbackForReqType reqType).join) := by
  rw [DeliveryReports.drCb]
  cases hfound : s.eventCallbackForReqType reqType with
  | none => simp
  | some found =>
      simp only [Option.isSome_some, if_true, Option.join_some]
      rw [← hfound, Function.update_eq_self]

theorem keeps_drCb (s : DeliveryReports P K) (report : DeliveryReport) (reqType : String) :
    Keeps s (s.drCb report reqType) := by
  refine ⟨fun push call hcall => ⟨call, hcall, rfl⟩, fun other hother => ?_⟩
  rw [drCb_callbacks]
  by_cases heq : other = reqType
  · subst heq
    obtain ⟨found, hfound⟩ := Option.ne_none_iff_exists'.mp hother
    rw [Function.update_self, hfound, Option.join_some]
  · rw [Function.update_of_ne heq]

theorem drCb (h : s.Informs) {report : DeliveryReport}
    (hcall : s.calls[report.push]? = some call) :
    (s.drCb report call.message.reqType).Informs := by
  have hkeeps := keeps_drCb s report call.message.reqType
  have hjoin (reqType : String) : ((s.drCb report call.message.reqType).eventCallbackForReqType
      reqType).join = (s.eventCallbackForReqType reqType).join := by
    rw [drCb_callbacks]
    by_cases heq : reqType = call.message.reqType
    · rw [heq, Function.update_self, Option.join_some]
    · rw [Function.update_of_ne heq]
  constructor
  · intro reqType callback
    rw [← Option.join_eq_some_iff, hjoin, Option.join_eq_some_iff]
    exact h.registered reqType callback
  · exact h.refused
  · intro registration hmem
    obtain ⟨htouched, hreturned⟩ := h.touched registration hmem
    rw [hkeeps.callbacks _ htouched]
    exact ⟨htouched, hreturned⟩
  · intro other hother
    rcases List.mem_append.mp hother with hother | hother
    · exact (hkeeps.eventOf (h.fixed other hother)).2
    · obtain rfl := List.mem_singleton.mp hother
      refine ⟨call, hcall, ?_⟩
      rw [drCb_callbacks, Function.update_self]
      exact Option.some_ne_none _
  · have hevents : (s.drCb report call.message.reqType).events = s.events ++
        ((s.drCb report call.message.reqType).eventOf report).toList := by
      have hsame : (s.drCb report call.message.reqType).calls = s.calls := rfl
      rw [eventOf, hsame, hcall, Option.bind_some, hjoin, DeliveryReports.drCb]
      cases (s.eventCallbackForReqType call.message.reqType).join with
      | none => rfl
      | some callback =>
          cases report.status.event report.errstr with
          | none => rfl
          | some event => rfl
    have hreports : (s.drCb report call.message.reqType).reports = s.reports ++ [report] := rfl
    rw [hevents, hreports, List.filterMap_append, hkeeps.filterMap h]
    cases hevent : (s.drCb report call.message.reqType).eventOf report <;> simp [hevent]

end Informs

/-! ## Steps -/

/-- What a step does. -/
inductive Stepped (s : DeliveryReports P K) : DeliveryReports P K → Prop where
  | register (reqType : String) (eventCallback : K) :
      Stepped s (s.setCallBackForReqType reqType eventCallback)
  | push (message : PublishMessage P) : Stepped s (s.pushMessage message)
  | produce {push : ℕ} {call : PushCall P} {retryCount : ℕ} (resp : ErrorCode)
      (hcall : s.calls[push]? = some call) (hphase : call.phase = .producing retryCount) :
      Stepped s (s.produce push call retryCount resp)
  | report {report : DeliveryReport} {call : PushCall P}
      (hcall : s.calls[report.push]? = some call) (hmem : report.push ∈ s.outq) :
      Stepped s (s.drCb report call.message.reqType)

theorem stepped_of_next {step : DeliveryStep P K} (hnext : s.next step = some t) :
    Stepped s t := by
  cases step with
  | setCallBackForReqType reqType eventCallback =>
      obtain rfl := Option.some.inj hnext
      exact .register reqType eventCallback
  | pushMessage message =>
      obtain rfl := Option.some.inj hnext
      exact .push message
  | produce push resp =>
      rw [next] at hnext
      split at hnext
      · cases hnext
      · split at hnext
        · obtain rfl := Option.some.inj hnext
          apply Stepped.produce <;> assumption
        · cases hnext
  | report report =>
      rw [next] at hnext
      split at hnext
      · cases hnext
      · split at hnext
        · obtain rfl := Option.some.inj hnext
          apply Stepped.report <;> assumption
        · cases hnext

theorem Stepped.placed (h : Stepped s t) (hplaced : s.Placed) : t.Placed := by
  cases h with
  | register reqType eventCallback =>
      rw [setCallBackForReqType]
      cases s.eventCallbackForReqType reqType <;> exact ⟨hplaced.accepted, hplaced.freed⟩
  | push message => exact hplaced.pushMessage message
  | produce resp hcall hphase => exact hplaced.produce hcall hphase resp
  | report hcall hmem => exact hplaced.drCb hmem _

theorem Stepped.informs (h : Stepped s t) (hinforms : s.Informs) : t.Informs := by
  cases h with
  | register reqType eventCallback => exact hinforms.setCallBackForReqType reqType eventCallback
  | push message => exact hinforms.pushMessage message
  | produce resp hcall hphase => exact hinforms.produce hcall _ resp
  | report hcall hmem => exact hinforms.drCb hcall

theorem Stepped.consistent (h : Stepped s t) (hcalls : ∀ call ∈ s.calls, call.Consistent) :
    ∀ call ∈ t.calls, call.Consistent := by
  cases h with
  | register reqType eventCallback =>
      rw [setCallBackForReqType]
      cases s.eventCallbackForReqType reqType <;> exact hcalls
  | push message =>
      intro call hmem
      rcases List.mem_append.mp hmem with hmem | hmem
      · exact hcalls call hmem
      · obtain rfl := List.mem_singleton.mp hmem
        exact PushCall.consistent_received message
  | produce resp hcall hphase =>
      intro other hmem
      rw [produce_calls] at hmem
      rcases List.mem_or_eq_of_mem_set hmem with hmem | rfl
      · exact hcalls other hmem
      · exact (hcalls _ (List.mem_of_getElem? hcall)).answered hphase resp
  | report hcall hmem => exact hcalls

/-! ## Runs -/

/-- A push is a call of `pushMessage` for what the producer gives it. Its message is with the
producer until its one report, and is deleted once: behind the report, or where it was not
accepted. -/
structure Delivers (s : DeliveryReports P K) : Prop extends Placed s, Informs s where
  pushed : ∀ call ∈ s.calls, ∀ err, call.phase = .returned err →
    call.producer.pushMessage (some call.message) = .ok (err, { call.producer with
      calls := call.responses.length, accepted := if err = 0 then [call.message] else [] })
  drained : s.outq = [] → (∀ call ∈ s.calls, ∃ err, call.phase = .returned err) →
    s.freed.Perm (List.range s.calls.length)

theorem Placed.drained (h : s.Placed) (hcalls : ∀ call ∈ s.calls, call.Consistent)
    (houtq : s.outq = []) (hreturned : ∀ call ∈ s.calls, ∃ err, call.phase = .returned err) :
    s.freed.Perm (List.range s.calls.length) := by
  rw [List.perm_iff_count]
  intro push
  have haccepted := h.accepted push
  rw [houtq, List.count_nil, Nat.zero_add] at haccepted
  rw [h.freed, haccepted]
  rcases Nat.lt_or_ge push s.calls.length with hlt | hge
  · rw [List.count_eq_one_of_mem List.nodup_range (List.mem_range.mpr hlt)]
    have hmem := List.getElem_mem hlt
    obtain ⟨err, hphase⟩ := hreturned _ hmem
    have hconsistent := hcalls _ hmem
    rw [PushCall.Consistent, hphase] at hconsistent
    obtain ⟨full, -, resp, -, herr, -⟩ := hconsistent
    have hpush : s.phaseOf push = some (.returned err) := by
      rw [phaseOf, List.getElem?_eq_getElem hlt, Option.map_some, hphase]
    rw [hpush, herr]
    by_cases hresp : resp = .noError <;> simp [hresp]
  · rw [List.count_eq_zero_of_not_mem (by simpa using hge), phaseOf, List.getElem?_eq_none hge]
    rfl

/-- Whatever the order of registrations, pushes and reports, and whatever the producer gives: each
message is in one place and is deleted once, the callbacks called are those of the first that
touched their types, and a push is what `pushMessage` makes of its responses. -/
theorem delivers_of_run {steps : List (DeliveryStep P K)} (h : AnyRun next {} steps s) :
    Delivers s := by
  have hs : s.Placed ∧ s.Informs ∧ ∀ call ∈ s.calls, call.Consistent := by
    refine h.invariant (I := fun _ s => s.Placed ∧ s.Informs ∧ ∀ call ∈ s.calls, call.Consistent)
      ⟨placed_start, .start, nofun⟩ ?_
    intro _ s _ t hs _ hnext
    have hstep := stepped_of_next hnext
    exact ⟨hstep.placed hs.1, hstep.informs hs.2.1, hstep.consistent hs.2.2⟩
  obtain ⟨hplaced, hinforms, hcalls⟩ := hs
  exact { hplaced, hinforms with
    pushed := fun call hmem err hphase => (hcalls call hmem).pushMessage hphase
    drained := hplaced.drained hcalls }

/-- A message of the type "get-reply-message". -/
private def pushedReply : PublishMessage Unit where
  queue := "reply"
  reqType := "get-reply-message"
  distributionKey := "x"
  payload := ()
  serType := "json"

/-- The second push finds the queue full and fails, and the second registration is refused. -/
theorem delivers_of_run_refused : ∃ steps s, AnyRun (next (P := Unit) (K := String)) {} steps s ∧
    s.freed = [1, 0] ∧ s.events = [⟨"get", .onSent, 0, ""⟩] ∧ s.Delivers := by
  obtain ⟨s, hrun, hcheck⟩ := exists_run (next (P := Unit) (K := String)) (fun _ _ => True) {}
    [.setCallBackForReqType "get-reply-message" "get",
      .setCallBackForReqType "get-reply-message" "snapshot", .pushMessage pushedReply,
      .pushMessage pushedReply, .produce 0 .noError, .produce 1 .queueFull, .produce 1 (.other 1),
      .report ⟨0, .persisted, ""⟩]
    (fun s => s.freed == [1, 0] && s.events == [⟨"get", .onSent, 0, ""⟩])
    (by decide +kernel)
  simp only [Bool.and_eq_true, beq_iff_eq] at hcheck
  exact ⟨_, s, hrun, hcheck.1, hcheck.2, delivers_of_run hrun⟩

end DeliveryReports

end K2eg
