import K2eg.Model.HandlerAttempts
import K2eg.Verification.Monitors.Handlers
import Mathlib.Data.List.Induction

/-! # Retries of a Start

An exception before `push_back` leaves the registrations as they were. One after it leaves an
entry whose channel has not been opened, which the next Start takes for an open one. -/

namespace K2eg

open Interleaving TopicHandlers

namespace AttemptedHandlers

variable {s t : AttemptedHandlers} {attempt : HandlerAttempt} {attempts : List HandlerAttempt}
  {name : String} {event : MonitorHandlerData}

/-- An exception leaves a Start, before its destination is found. -/
def Interrupted (s : AttemptedHandlers) (attempt : HandlerAttempt) : Prop :=
  attempt.event.action = .start ∧ ∃ pv, sanitizePVName attempt.event.monitorType.pvName = some pv ∧
    (attempt.fault = some .lookup ∨ attempt.fault.isSome = true ∧
      ¬s.handlers.Registered pv.name attempt.event.monitorType.channelDestination)

/-- The exception comes after `push_back`. -/
def Late (s : AttemptedHandlers) (attempt : HandlerAttempt) : Prop :=
  attempt.event.action = .start ∧ ∃ pv, sanitizePVName attempt.event.monitorType.pvName = some pv ∧
    (attempt.fault = some .createQueue ∨ attempt.fault = some .monitorChannel) ∧
      ¬s.handlers.Registered pv.name attempt.event.monitorType.channelDestination

/-- An interrupted Start leaves the registrations alone, a Start that returns has the topic created
and the channel open, and the worker never holds other references than those of its
registrations, which Stop gives back. -/
structure Recoverable (attempts : List HandlerAttempt) : Prop where
  restored : ∀ before attempt later, attempts = before ++ attempt :: later →
    (after before).Interrupted attempt → ∀ name,
      (after (before ++ [attempt])).handlers.registrations name =
        (after before).handlers.registrations name
  opened : ∀ before attempt later, attempts = before ++ attempt :: later →
    attempt.event.action = .start → attempt.fault = none →
      ∀ pv, sanitizePVName attempt.event.monitorType.pvName = some pv →
        getQueueForPv pv.name ∈ (after (before ++ [attempt])).queues ∧
          (after (before ++ [attempt])).handlers.monitorCalls false pv.name <
            (after (before ++ [attempt])).handlers.monitorCalls true pv.name
  backed : ∀ before later, attempts = before ++ later → ∀ name,
    (after before).handlers.monitorCalls true name =
      (after before).handlers.monitorCalls false name +
        ((after before).handlers.registrations name).length

/-! ## The invariant -/

/-- Every vector is that of one PV. -/
structure Wired (handlers : TopicHandlers) : Prop where
  fresh : ∀ name cmdVec, handlers.channelTopicsMap name = some cmdVec → cmdVec < handlers.vecCount
  injective : ∀ a b cmdVec, handlers.channelTopicsMap a = some cmdVec →
    handlers.channelTopicsMap b = some cmdVec → a = b

/-- Every registration has its reference, and its topic has been created. -/
structure Backed (s : AttemptedHandlers) : Prop where
  wired : Wired s.handlers
  balanced : ∀ name, s.handlers.monitorCalls true name =
    s.handlers.monitorCalls false name + (s.handlers.registrations name).length
  created : ∀ name, s.handlers.registrations name ≠ [] → getQueueForPv name ∈ s.queues

variable {handlers : TopicHandlers}

theorem Wired.lookup (h : Wired handlers) (name : String) : Wired (handlers.lookup name).2 := by
  rw [TopicHandlers.lookup]
  cases hmap : handlers.channelTopicsMap name with
  | some cmdVec => exact h
  | none =>
      constructor
      · intro other cmdVec hother
        dsimp only at hother
        by_cases hname : other = name
        · subst hname
          obtain rfl : handlers.vecCount = cmdVec := by simpa using hother
          exact Nat.lt_succ_self _
        · rw [Function.update_of_ne hname] at hother
          exact (h.fresh other cmdVec hother).trans (Nat.lt_succ_self _)
      · intro a b cmdVec ha hb
        dsimp only at ha hb
        by_cases hname : a = name <;> by_cases hname' : b = name
        · rw [hname, hname']
        · subst hname
          rw [Function.update_self] at ha
          rw [Function.update_of_ne hname'] at hb
          obtain rfl := Option.some.inj ha
          exact absurd (h.fresh b _ hb) (lt_irrefl _)
        · subst hname'
          rw [Function.update_self] at hb
          rw [Function.update_of_ne hname] at ha
          obtain rfl := Option.some.inj hb
          exact absurd (h.fresh a _ ha) (lt_irrefl _)
        · rw [Function.update_of_ne hname] at ha
          rw [Function.update_of_ne hname'] at hb
          exact h.injective a b cmdVec ha hb

/-- The vector that a lookup finds is that of the PV. -/
theorem lookup_self (handlers : TopicHandlers) (name : String) :
    (handlers.lookup name).2.channelTopicsMap name = some (handlers.lookup name).1 := by
  rw [TopicHandlers.lookup]
  cases hmap : handlers.channelTopicsMap name with
  | some cmdVec => exact hmap
  | none => exact Function.update_self ..

theorem lookup_registrations (h : Wired handlers) (name : String) :
    (handlers.lookup name).2.cmdVecs (handlers.lookup name).1 = handlers.registrations name := by
  rw [← TopicHandlers.registrations_lookup h.fresh name name]
  exact (registrations_of_some (lookup_self handlers name)).symm

@[simp] theorem lookup_monitorCalls (handlers : TopicHandlers) (name : String) (activate : Bool)
    (other : String) :
    (handlers.lookup name).2.monitorCalls activate other =
      handlers.monitorCalls activate other := by
  rw [TopicHandlers.lookup]
  cases handlers.channelTopicsMap name <;> rfl

theorem Wired.setCmdVec (h : Wired handlers) (cmdVec : ℕ) (entries : List ChannelMonitorType) :
    Wired (handlers.setCmdVec cmdVec entries) := ⟨h.fresh, h.injective⟩

theorem Wired.monitorChannel (h : Wired handlers) (pvName : String) (activate : Bool) :
    Wired (handlers.monitorChannel pvName activate) := ⟨h.fresh, h.injective⟩

/-- The registrations of all PVs, with the entries of the one that has been looked up. -/
theorem registrations_written (h : Wired handlers) (name : String)
    (entries : List ChannelMonitorType) (other : String) :
    ((handlers.lookup name).2.setCmdVec (handlers.lookup name).1 entries).registrations other =
      if other = name then entries else handlers.registrations other := by
  rw [TopicHandlers.registrations_setCmdVec (h.lookup name).injective (lookup_self handlers name),
    TopicHandlers.registrations_lookup h.fresh]

theorem find_eq_none_iff (handlers : TopicHandlers) (name : String) (event : MonitorHandlerData) :
    find (handlers.registrations name) event = none ↔
      ¬handlers.Registered name event.monitorType.channelDestination := by
  rw [find_eq_none, Registered]
  simp only [not_exists, not_and, ne_eq]

/-- A lookup changes nothing that is observed. -/
theorem Backed.lookup (h : Backed s) (name : String) :
    Backed { s with handlers := (s.handlers.lookup name).2 } where
  wired := h.wired.lookup name
  balanced := by
    intro other
    simp only [lookup_monitorCalls, TopicHandlers.registrations_lookup h.wired.fresh]
    exact h.balanced other
  created := by
    intro other
    simp only [TopicHandlers.registrations_lookup h.wired.fresh]
    exact h.created other

/-! ## Start -/

/-- A Start that finds its destination. -/
theorem start_of_registered (h : Wired s.handlers)
    (hregistered : s.handlers.Registered name event.monitorType.channelDestination)
    {fault : Option HandlerFault} (hfault : fault ≠ some .lookup) :
    s.start name event fault = { s with handlers := (s.handlers.lookup name).2 } := by
  have hfind : ∃ position, find (s.handlers.registrations name) event = some position := by
    rw [← Option.isSome_iff_exists, ← Option.ne_none_iff_isSome, ne_eq, find_eq_none_iff, not_not]
    exact hregistered
  obtain ⟨position, hfind⟩ := hfind
  simp only [start, if_neg hfault, lookup_registrations h, hfind]

/-- The handlers after the `push_back` of a Start. -/
def pushed (s : AttemptedHandlers) (name : String) (event : MonitorHandlerData) : TopicHandlers :=
  (s.handlers.lookup name).2.setCmdVec (s.handlers.lookup name).1
    (s.handlers.registrations name ++ [event.monitorType])

/-- A Start that does not find its destination. -/
theorem start_of_absent (h : Wired s.handlers)
    (habsent : ¬s.handlers.Registered name event.monitorType.channelDestination)
    (fault : Option HandlerFault) : s.start name event fault =
      match fault with
      | some .lookup => s
      | some .pushBack => { s with handlers := (s.handlers.lookup name).2 }
      | some .createQueue => { s with handlers := s.pushed name event }
      | some .monitorChannel =>
        { handlers := s.pushed name event, queues := s.queues ++ [getQueueForPv name] }
      | none =>
        { handlers := (s.pushed name event).monitorChannel event.monitorType.pvName true
          queues := s.queues ++ [getQueueForPv name] } := by
  have hfind := (find_eq_none_iff s.handlers name event).2 habsent
  rw [start]
  cases fault with
  | none => simp only [reduceCtorEq, if_false, lookup_registrations h, hfind, pushed]
  | some fault =>
      cases fault <;>
        simp only [reduceCtorEq, if_false, if_true, Option.some.injEq, lookup_registrations h,
          hfind, pushed]

theorem registrations_pushed (h : Wired s.handlers) (other : String) :
    (s.pushed name event).registrations other =
      if other = name then s.handlers.registrations name ++ [event.monitorType]
      else s.handlers.registrations other :=
  registrations_written h name _ other

@[simp] theorem monitorCalls_pushed (s : AttemptedHandlers) (name : String)
    (event : MonitorHandlerData) (activate : Bool) (other : String) :
    (s.pushed name event).monitorCalls activate other = s.handlers.monitorCalls activate other := by
  rw [pushed, monitorCalls_setCmdVec, lookup_monitorCalls]

/-- A Start that returns. -/
theorem Backed.opens (h : Backed s) (hname : registeredName event.monitorType.pvName = some name)
    (habsent : ¬s.handlers.Registered name event.monitorType.channelDestination) :
    Backed (s.start name event none) := by
  rw [start_of_absent h.wired habsent]
  refine ⟨((h.wired.lookup name).setCmdVec _ _).monitorChannel _ _, fun other => ?_,
    fun other => ?_⟩
  · have hbalanced := h.balanced other
    have hregs : ((s.pushed name event).monitorChannel event.monitorType.pvName
        true).registrations other = (s.pushed name event).registrations other := rfl
    dsimp only
    rw [hregs, registrations_pushed h.wired, monitorCalls_monitorChannel,
      monitorCalls_monitorChannel, monitorCalls_pushed, monitorCalls_pushed, hname]
    by_cases hother : other = name
    · subst hother
      simp only [and_self, if_true, Bool.true_eq_false, false_and, if_false, List.length_append,
        List.length_singleton]
      omega
    · simp [hother, Ne.symm hother, hbalanced]
  · dsimp only
    intro hregs
    by_cases hother : other = name
    · subst hother
      exact List.mem_append_right _ (List.mem_singleton_self _)
    · apply List.mem_append_left
      apply h.created
      have hsame : (s.pushed name event).registrations other ≠ [] := hregs
      rwa [registrations_pushed h.wired, if_neg hother] at hsame

/-- A Start whose exception is not late. -/
theorem Backed.start (h : Backed s) (hname : registeredName event.monitorType.pvName = some name)
    {fault : Option HandlerFault}
    (hearly : ¬((fault = some .createQueue ∨ fault = some .monitorChannel) ∧
      ¬s.handlers.Registered name event.monitorType.channelDestination)) :
    Backed (s.start name event fault) := by
  by_cases hregistered : s.handlers.Registered name event.monitorType.channelDestination
  · by_cases hfault : fault = some .lookup
    · rw [AttemptedHandlers.start, if_pos hfault]
      exact h
    · rw [start_of_registered h.wired hregistered hfault]
      exact h.lookup name
  · match fault with
    | none => exact h.opens hname hregistered
    | some .lookup =>
        rw [start_of_absent h.wired hregistered]
        exact h
    | some .pushBack =>
        rw [start_of_absent h.wired hregistered]
        exact h.lookup name
    | some .createQueue => exact absurd ⟨.inl rfl, hregistered⟩ hearly
    | some .monitorChannel => exact absurd ⟨.inr rfl, hregistered⟩ hearly

/-! ## Stop -/

/-- The handlers after the `erase` of a Stop. -/
def erased (s : AttemptedHandlers) (name : String) (position : ℕ) : TopicHandlers :=
  (s.handlers.lookup name).2.setCmdVec (s.handlers.lookup name).1
    ((s.handlers.registrations name).eraseIdx position)

/-- A key without entries can go. -/
theorem registrations_update_none {handlers : TopicHandlers}
    (hempty : handlers.registrations name = []) (other : String) :
    { handlers with
      channelTopicsMap := Function.update handlers.channelTopicsMap name none }.registrations
        other = handlers.registrations other := by
  by_cases hother : other = name
  · subst hother
    rw [hempty, registrations]
    simp
  · rw [registrations, registrations]
    simp [Function.update_of_ne hother]

theorem Wired.update_none (h : Wired handlers) (name : String) :
    Wired { handlers with
      channelTopicsMap := Function.update handlers.channelTopicsMap name none } := by
  have hold : ∀ other cmdVec,
      Function.update handlers.channelTopicsMap name none other = some cmdVec →
        handlers.channelTopicsMap other = some cmdVec := by
    intro other cmdVec hother
    by_cases hname : other = name
    · subst hname
      simp at hother
    · rwa [Function.update_of_ne hname] at hother
  constructor
  · intro other cmdVec hother
    exact h.fresh other cmdVec (hold other cmdVec hother)
  · intro a b cmdVec ha hb
    exact h.injective a b cmdVec (hold a cmdVec ha) (hold b cmdVec hb)

theorem Backed.erased (h : Backed s) (hname : registeredName event.monitorType.pvName = some name)
    {position : ℕ} (hlt : position < (s.handlers.registrations name).length) :
    Backed { s with handlers :=
      (s.erased name position).monitorChannel event.monitorType.pvName false } := by
  have hregs : ∀ other, ((s.erased name position).monitorChannel event.monitorType.pvName
      false).registrations other =
        if other = name then (s.handlers.registrations name).eraseIdx position
        else s.handlers.registrations other :=
    registrations_written h.wired name _
  have hcalls : ∀ activate other, (s.erased name position).monitorCalls activate other =
      s.handlers.monitorCalls activate other := by
    intro activate other
    rw [AttemptedHandlers.erased, monitorCalls_setCmdVec, lookup_monitorCalls]
  refine ⟨((h.wired.lookup name).setCmdVec _ _).monitorChannel _ _, fun other => ?_,
    fun other => ?_⟩
  · have hbalanced := h.balanced other
    dsimp only
    rw [hregs, monitorCalls_monitorChannel, monitorCalls_monitorChannel, hcalls, hcalls, hname]
    by_cases hother : other = name
    · subst hother
      simp only [and_self, if_true, Bool.false_eq_true, false_and, if_false,
        List.length_eraseIdx_of_lt hlt]
      omega
    · simp [hother, Ne.symm hother, hbalanced]
  · intro hne
    apply h.created
    dsimp only at hne
    rw [hregs] at hne
    split at hne
    · rename_i heq
      rw [heq]
      intro hnil
      rw [hnil] at hlt
      exact Nat.not_lt_zero _ hlt
    · exact hne

theorem Backed.stop (h : Backed s) (hname : registeredName event.monitorType.pvName = some name) :
    Backed (s.stop name event) := by
  simp only [AttemptedHandlers.stop, lookup_registrations h.wired]
  cases hfind : find (s.handlers.registrations name) event with
  | none => exact h.lookup name
  | some position =>
      have hlt : position < (s.handlers.registrations name).length :=
        (List.findIdx?_eq_some_iff_getElem.mp hfind).1
      have hbacked := h.erased hname hlt
      dsimp only
      split
      · rename_i hempty
        have hnil : ((s.erased name position).monitorChannel event.monitorType.pvName
            false).registrations name = [] := by
          have hself : (s.erased name position).registrations name =
              (s.handlers.registrations name).eraseIdx position :=
            (registrations_written h.wired name _ name).trans (if_pos rfl)
          exact hself.trans (List.isEmpty_iff.1 hempty)
        refine ⟨hbacked.wired.update_none name, fun other => ?_, fun other => ?_⟩
        · exact (hbacked.balanced other).trans
            (congrArg _ (congrArg _ (registrations_update_none hnil other).symm))
        · intro hne
          apply hbacked.created
          rwa [← registrations_update_none hnil other]
      · exact hbacked

/-! ## The parts of a call -/

/-- A part of a call does not see the other calls. -/
theorem advance_calls (handlers : TopicHandlers) (calls : List HandlerCall) (call : HandlerCall) :
    { handlers with calls }.advance call =
      ((handlers.advance call).1, { (handlers.advance call).2 with calls }) := by
  obtain ⟨⟨action, monitorType⟩, name, phase⟩ := call
  cases phase with
  | received =>
      simp only [advance, TopicHandlers.lookup]
      cases handlers.channelTopicsMap name <;> rfl
  | searching cmdVec =>
      simp only [advance]
      cases action <;> cases find (handlers.cmdVecs cmdVec) _ <;> rfl
  | pushing | activating | erasing | deactivating | measuring | removing | ended => rfl

/-- The last call goes on. -/
theorem run_part {start : TopicHandlers} {steps : List HandlerStep} {calls : List HandlerCall}
    {call : HandlerCall}
    (hrun : AnyRun next start steps { handlers with calls := calls ++ [call] })
    (hopen : call.phase ≠ .ended) :
    AnyRun next start (steps ++ [.run calls.length]) { (handlers.advance call).2 with
      calls := calls ++ [{ call with phase := (handlers.advance call).1 }] } := by
  apply hrun.snoc trivial
  have hget : (calls ++ [call])[calls.length]? = some call := by simp
  rw [next]
  simp only [hget, if_neg hopen, TopicHandlers.run, advance_calls, setPhase]
  rw [List.set_append_right _ _ le_rfl, Nat.sub_self]
  rfl

/-- A call that nothing interrupts is the parts of the call one after the other. -/
theorem exists_run_handle (s : AttemptedHandlers) (event : MonitorHandlerData) :
    ∃ steps call, call.phase = .ended ∧ AnyRun next s.handlers steps
      { (s.handleMonitorCheckEvents ⟨event, none⟩).handlers with
        calls := s.handlers.calls ++ [call] } := by
  have hreceive : AnyRun next s.handlers ([] ++ [.receive event]) (s.handlers.receive event) :=
    Run.nil.snoc trivial rfl
  rw [handleMonitorCheckEvents]
  cases hpv : sanitizePVName event.monitorType.pvName with
  | none =>
      rw [TopicHandlers.receive, hpv] at hreceive
      exact ⟨_, _, rfl, hreceive⟩
  | some pv =>
      rw [TopicHandlers.receive, hpv] at hreceive
      have hsearching := run_part hreceive (fun hended => by cases hended)
      have hfound := run_part hsearching (fun hended => by cases hended)
      cases haction : event.action with
      | start =>
          simp only [advance, haction] at hfound
          simp only [AttemptedHandlers.start, reduceCtorEq, if_false]
          cases hfind : find ((s.handlers.lookup pv.name).2.cmdVecs (s.handlers.lookup pv.name).1)
              event with
          | some position =>
              simp only [hfind] at hfound
              exact ⟨_, _, rfl, hfound⟩
          | none =>
              simp only [hfind] at hfound
              have hpushed := run_part hfound (fun hended => by cases hended)
              exact ⟨_, _, rfl, run_part hpushed (fun hended => by cases hended)⟩
      | stop =>
          simp only [advance, haction] at hfound
          simp only [AttemptedHandlers.stop]
          cases hfind : find ((s.handlers.lookup pv.name).2.cmdVecs (s.handlers.lookup pv.name).1)
              event with
          | none =>
              simp only [hfind] at hfound
              exact ⟨_, _, rfl, hfound⟩
          | some position =>
              simp only [hfind] at hfound
              have herased := run_part hfound (fun hended => by cases hended)
              have hgiven := run_part herased (fun hended => by cases hended)
              have hmeasured := run_part hgiven (fun hended => by cases hended)
              have hvec : (((s.handlers.lookup pv.name).2.setCmdVec (s.handlers.lookup pv.name).1
                  (((s.handlers.lookup pv.name).2.cmdVecs
                    (s.handlers.lookup pv.name).1).eraseIdx position)).monitorChannel
                      event.monitorType.pvName false).cmdVecs (s.handlers.lookup pv.name).1 =
                  ((s.handlers.lookup pv.name).2.cmdVecs
                    (s.handlers.lookup pv.name).1).eraseIdx position := Function.update_self ..
              simp only [advance, hvec] at hmeasured
              cases hempty : (((s.handlers.lookup pv.name).2.cmdVecs
                  (s.handlers.lookup pv.name).1).eraseIdx position).isEmpty with
              | false =>
                  simp only [hempty, Bool.false_eq_true, if_false] at hmeasured ⊢
                  exact ⟨_, _, rfl, hmeasured⟩
              | true =>
                  simp only [hempty, if_true] at hmeasured ⊢
                  exact ⟨_, _, rfl, run_part hmeasured (fun hended => by cases hended)⟩

/-! ## Sequences of calls -/

theorem registeredName_of_sanitize {pvName : String} {pv : PV}
    (h : sanitizePVName pvName = some pv) : registeredName pvName = some pv.name := by
  rw [registeredName, h]
  rfl

theorem handle_start {pv : PV} (hpv : sanitizePVName attempt.event.monitorType.pvName = some pv)
    (haction : attempt.event.action = .start) :
    s.handleMonitorCheckEvents attempt = s.start pv.name attempt.event attempt.fault := by
  rw [handleMonitorCheckEvents, hpv]
  simp only [haction]

theorem Backed.handle (h : Backed s) (hearly : ¬s.Late attempt) :
    Backed (s.handleMonitorCheckEvents attempt) := by
  cases hpv : sanitizePVName attempt.event.monitorType.pvName with
  | none =>
      rw [handleMonitorCheckEvents, hpv]
      exact h
  | some pv =>
      have hname := registeredName_of_sanitize hpv
      cases haction : attempt.event.action with
      | start =>
          rw [handle_start hpv haction]
          exact h.start hname fun hlate => hearly ⟨haction, pv, hpv, hlate.1, hlate.2⟩
      | stop =>
          rw [handleMonitorCheckEvents, hpv]
          simp only [haction]
          exact h.stop hname

theorem backed_empty : Backed {} where
  wired := ⟨nofun, nofun⟩
  balanced := fun _ => rfl
  created := fun _ hne => absurd rfl hne

theorem after_append (before : List HandlerAttempt) (attempt : HandlerAttempt) :
    after (before ++ [attempt]) = (after before).handleMonitorCheckEvents attempt := by
  rw [after, List.foldl_append]
  rfl

theorem Wired.start (h : Wired s.handlers) (name : String) (event : MonitorHandlerData)
    (fault : Option HandlerFault) : Wired (s.start name event fault).handlers := by
  have hlookup := h.lookup name
  by_cases hregistered : s.handlers.Registered name event.monitorType.channelDestination
  · by_cases hfault : fault = some .lookup
    · rw [AttemptedHandlers.start, if_pos hfault]
      exact h
    · rw [start_of_registered h hregistered hfault]
      exact hlookup
  · rw [start_of_absent h hregistered]
    split
    · exact h
    · exact hlookup
    · exact hlookup.setCmdVec _ _
    · exact hlookup.setCmdVec _ _
    · exact (hlookup.setCmdVec _ _).monitorChannel _ _

theorem Wired.handle (h : Wired s.handlers) (attempt : HandlerAttempt) :
    Wired (s.handleMonitorCheckEvents attempt).handlers := by
  rw [handleMonitorCheckEvents]
  split
  · exact h
  · rename_i pv hpv
    have hlookup := h.lookup pv.name
    split
    · exact h.start pv.name attempt.event attempt.fault
    · rw [AttemptedHandlers.stop]
      dsimp only
      split
      · exact hlookup
      · dsimp only
        split
        · exact ((hlookup.setCmdVec _ _).monitorChannel _ _).update_none pv.name
        · exact (hlookup.setCmdVec _ _).monitorChannel _ _

theorem wired_after (attempts : List HandlerAttempt) : Wired (after attempts).handlers := by
  induction attempts using List.reverseRecOn with
  | nil => exact backed_empty.wired
  | append_singleton before attempt ih =>
      rw [after_append]
      exact ih.handle attempt

/-- None of the calls is left after its `push_back`. -/
def Early (attempts : List HandlerAttempt) : Prop :=
  ∀ before attempt later, attempts = before ++ attempt :: later → ¬(after before).Late attempt

theorem Early.earlier {before : List HandlerAttempt} (later : List HandlerAttempt)
    (h : Early (before ++ later)) :
    Early before := by
  rintro first attempt rest rfl
  apply h first attempt (rest ++ later)
  rw [List.append_assoc, List.cons_append]

theorem backed_after (h : Early attempts) : Backed (after attempts) := by
  induction attempts using List.reverseRecOn with
  | nil => exact backed_empty
  | append_singleton before attempt ih =>
      rw [after_append]
      exact (ih (h.earlier _)).handle (h before attempt [] rfl)

/-- The registrations after a Start that is interrupted, but not late. -/
theorem Backed.restored (h : Backed s) (hinterrupted : s.Interrupted attempt)
    (hearly : ¬s.Late attempt) (name : String) :
    (s.handleMonitorCheckEvents attempt).handlers.registrations name =
      s.handlers.registrations name := by
  obtain ⟨haction, pv, hpv, hfault⟩ := hinterrupted
  rw [handle_start hpv haction]
  by_cases hlookup : attempt.fault = some .lookup
  · rw [AttemptedHandlers.start, if_pos hlookup]
  · obtain ⟨hsome, habsent⟩ := hfault.resolve_left hlookup
    rw [start_of_absent h.wired habsent]
    match hcase : attempt.fault with
    | none =>
        rw [hcase] at hsome
        cases hsome
    | some .lookup => exact absurd hcase hlookup
    | some .pushBack => exact TopicHandlers.registrations_lookup h.wired.fresh pv.name name
    | some .createQueue => exact absurd ⟨haction, pv, hpv, .inl hcase, habsent⟩ hearly
    | some .monitorChannel => exact absurd ⟨haction, pv, hpv, .inr hcase, habsent⟩ hearly

/-- A Start that returns has its destination registered. -/
theorem registered_of_start (h : Wired s.handlers) :
    (s.start name event none).handlers.registrations name ≠ [] := by
  by_cases hregistered : s.handlers.Registered name event.monitorType.channelDestination
  · have hfault : (none : Option HandlerFault) ≠ some .lookup := by simp
    rw [start_of_registered h hregistered hfault]
    dsimp only
    rw [TopicHandlers.registrations_lookup h.fresh]
    obtain ⟨info, hmem, -⟩ := hregistered
    exact List.ne_nil_of_mem hmem
  · rw [start_of_absent h hregistered]
    have hself : (s.pushed name event).registrations name =
        s.handlers.registrations name ++ [event.monitorType] :=
      (registrations_pushed h name).trans (if_pos rfl)
    have hne : (s.pushed name event).registrations name ≠ [] := by
      rw [hself]
      simp
    exact hne

/-- For every sequence of calls: each interrupted Start can be retried, and the references are
those of the registrations, if and only if no exception comes after a `push_back`. -/
theorem recoverable_iff (attempts : List HandlerAttempt) :
    Recoverable attempts ↔ Early attempts := by
  constructor
  · rintro h before attempt later rfl ⟨haction, pv, hpv, hfault, habsent⟩
    have hsome : attempt.fault.isSome = true := by
      rcases hfault with hfault | hfault
      · rw [hfault]
        rfl
      · rw [hfault]
        rfl
    have hrestored := h.restored before attempt later rfl
      ⟨haction, pv, hpv, .inr ⟨hsome, habsent⟩⟩ pv.name
    have hwired := wired_after before
    have hpushed : ((after before).pushed pv.name attempt.event).registrations pv.name =
        (after before).handlers.registrations pv.name ++ [attempt.event.monitorType] :=
      (registrations_pushed hwired pv.name).trans (if_pos rfl)
    rw [after_append, handle_start hpv haction, start_of_absent hwired habsent] at hrestored
    -- the entry is there
    have hsame : ((after before).pushed pv.name attempt.event).registrations pv.name =
        (after before).handlers.registrations pv.name := by
      rcases hfault with hfault | hfault
      · rwa [hfault] at hrestored
      · rwa [hfault] at hrestored
    have hlength := congrArg List.length (hpushed.symm.trans hsame)
    rw [List.length_append, List.length_singleton] at hlength
    omega
  · intro h
    constructor
    · rintro before attempt later rfl hinterrupted name
      rw [after_append]
      exact (backed_after (h.earlier _)).restored hinterrupted (h before attempt later rfl) name
    · rintro before attempt later rfl haction hfault pv hpv
      have hearly : Early (before ++ [attempt]) := by
        apply Early.earlier later
        rwa [List.append_assoc]
      have hbacked := backed_after hearly
      have hregistered : (after (before ++ [attempt])).handlers.registrations pv.name ≠ [] := by
        rw [after_append, handle_start hpv haction, hfault]
        exact registered_of_start (backed_after (h.earlier _)).wired
      refine ⟨hbacked.created pv.name hregistered, ?_⟩
      have hbalanced := hbacked.balanced pv.name
      have hlength := List.length_pos_iff.2 hregistered
      omega
    · rintro before later rfl name
      exact (backed_after (h.earlier _)).balanced name

/-- `createQueue` throws: the entry stays, and the retry takes the channel for an open one. -/
theorem not_recoverable_createQueue : ¬∀ attempts : List HandlerAttempt, Recoverable attempts := by
  intro hall
  have hrestored := (hall [⟨HandlerTrace.event .start "x", some .createQueue⟩]).restored [] _ []
    rfl ⟨rfl, ⟨"pva", "a", "value"⟩, by decide +kernel, .inr ⟨rfl, nofun⟩⟩ "a"
  exact absurd hrestored (by decide +kernel)

end AttemptedHandlers

end K2eg
