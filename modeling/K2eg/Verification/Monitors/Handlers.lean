import K2eg.Foundation.Interleaving
import K2eg.Foundation.Tally
import K2eg.Model.TopicHandlers
import Mathlib.Data.List.Nodup

/-! # Registrations and references

As long as no part of a call acts on what another call has changed since, and Stop comes for known
PVs only, the registrations and the references to the channels stay in step. -/

namespace K2eg

open Interleaving

/-- The name under which a PV is registered. -/
def registeredName (pvName : String) : Option String := (sanitizePVName pvName).map PV.name

namespace TopicHandlers

/-- The references to the channel of a PV that `monitorChannel` has taken or given back. -/
def monitorCalls (handlers : TopicHandlers) (activate : Bool) (name : String) : ℕ :=
  handlers.monitored.countP fun entry =>
    entry.2 == activate && decide (registeredName entry.1 = some name)

def Quiescent (handlers : TopicHandlers) : Prop :=
  ∀ call ∈ handlers.calls, call.phase = .ended

/-- The keys of the map, in some order. -/
def Lists (handlers : TopicHandlers) (keys : List String) : Prop :=
  keys.Nodup ∧ ∀ name, name ∈ keys ↔ (handlers.channelTopicsMap name).isSome = true

/-- Every key has a registration, at most one for a destination, and each of them stands for a
reference to the channel, which the destructor gives back. -/
structure Accounted (handlers : TopicHandlers) : Prop where
  nonempty : ∀ name cmdVec, handlers.channelTopicsMap name = some cmdVec →
    handlers.cmdVecs cmdVec ≠ []
  single : ∀ name, ((handlers.registrations name).map
    ChannelMonitorType.channelDestination).Nodup
  balanced : ∀ name, handlers.monitorCalls true name =
    handlers.monitorCalls false name + (handlers.registrations name).length
  disposed : ∀ keys, handlers.Lists keys → ∀ name,
    (handlers.dispose keys).monitorCalls true name = (handlers.dispose keys).monitorCalls false name

/-- A part of a call finds the map and the vector as the part before it has left them, and Stop
comes for a PV that has a key. -/
def ActsOnTime (handlers : TopicHandlers) (call : HandlerCall) : Prop :=
  match call.phase with
  | .received => call.event.action = .stop → handlers.channelTopicsMap call.name ≠ none
  | .searching cmdVec => handlers.channelTopicsMap call.name = some cmdVec
  | .pushing cmdVec => handlers.channelTopicsMap call.name = some cmdVec ∧
    find (handlers.cmdVecs cmdVec) call.event = none
  | .erasing cmdVec _ seen => handlers.channelTopicsMap call.name = some cmdVec ∧
    handlers.cmdVecs cmdVec = seen
  | .measuring cmdVec => handlers.channelTopicsMap call.name = some cmdVec
  | .removing => handlers.registrations call.name = []
  | .activating | .deactivating _ | .ended => True

instance (handlers : TopicHandlers) (call : HandlerCall) :
    Decidable (handlers.ActsOnTime call) := by
  unfold ActsOnTime
  split <;> infer_instance

/-- The condition on a step. -/
def OnTime (handlers : TopicHandlers) : HandlerStep → Prop
  | .receive _ => True
  | .run i => ∀ call ∈ handlers.calls[i]?, handlers.ActsOnTime call

instance (handlers : TopicHandlers) : (step : HandlerStep) → Decidable (handlers.OnTime step)
  | .receive _ => .isTrue trivial
  | .run i => inferInstanceAs (Decidable (∀ call ∈ handlers.calls[i]?, handlers.ActsOnTime call))

end TopicHandlers

/-! ## The invariant -/

def HandlerPhase.activates : HandlerPhase → Bool
  | .activating => true
  | _ => false

def HandlerPhase.deactivates : HandlerPhase → Bool
  | .deactivating _ => true
  | _ => false

/-- A call that will fill the vector of its PV or remove its key. -/
def HandlerCall.Attends (call : HandlerCall) : Prop :=
  match call.phase with
  | .searching _ => call.event.action = .start
  | .pushing _ | .deactivating _ | .measuring _ | .removing => True
  | .received | .activating | .erasing .. | .ended => False

/-- A call is in a phase of its action, and Stop has found the position that it erases. -/
def HandlerCall.Fits (call : HandlerCall) : Prop :=
  match call.phase with
  | .pushing _ | .activating => call.event.action = .start
  | .erasing _ position seen => call.event.action = .stop ∧
    TopicHandlers.find seen call.event = some position
  | .deactivating _ | .measuring _ | .removing => call.event.action = .stop
  | .received | .searching _ | .ended => True

namespace TopicHandlers

/-- The calls for a PV that have changed its registrations and not yet its references. -/
def owing (handlers : TopicHandlers) (P : HandlerPhase → Bool) (name : String) : ℕ :=
  tally (fun call => P call.phase) HandlerCall.name handlers.calls name

/-- The registrations and the references are in step, but for the calls under way. -/
structure Kept (handlers : TopicHandlers) : Prop where
  fresh : ∀ name cmdVec, handlers.channelTopicsMap name = some cmdVec → cmdVec < handlers.vecCount
  injective : ∀ a b cmdVec, handlers.channelTopicsMap a = some cmdVec →
    handlers.channelTopicsMap b = some cmdVec → a = b
  named : ∀ name, ∀ info ∈ handlers.registrations name, registeredName info.pvName = some name
  single : ∀ name, ((handlers.registrations name).map
    ChannelMonitorType.channelDestination).Nodup
  sanitized : ∀ call ∈ handlers.calls, call.phase ≠ .ended →
    registeredName call.event.monitorType.pvName = some call.name
  fits : ∀ call ∈ handlers.calls, call.Fits
  balanced : ∀ name,
    handlers.monitorCalls true name + handlers.owing HandlerPhase.activates name =
      handlers.monitorCalls false name + handlers.owing HandlerPhase.deactivates name +
        (handlers.registrations name).length
  attended : ∀ name cmdVec, handlers.channelTopicsMap name = some cmdVec →
    handlers.cmdVecs cmdVec = [] → ∃ call ∈ handlers.calls, call.name = name ∧ call.Attends

variable {handlers handlers' : TopicHandlers} {i : ℕ} {call : HandlerCall} {name : String}

theorem registrations_of_some {cmdVec : ℕ} (h : handlers.channelTopicsMap name = some cmdVec) :
    handlers.registrations name = handlers.cmdVecs cmdVec := by
  rw [registrations, h]

theorem monitorCalls_monitorChannel (handlers : TopicHandlers) (pvName : String)
    (activate side : Bool) (name : String) :
    (handlers.monitorChannel pvName activate).monitorCalls side name =
      handlers.monitorCalls side name +
        if activate = side ∧ registeredName pvName = some name then 1 else 0 := by
  rw [monitorCalls, monitorChannel, List.countP_append, List.countP_singleton]
  simp [monitorCalls]

/-- A call arrives for the PV name of its event, or it returns at once. -/
theorem receive_calls (handlers : TopicHandlers) (event : MonitorHandlerData) :
    ∃ call : HandlerCall, (handlers.receive event).calls = handlers.calls ++ [call] ∧
      call.event = event ∧
      (call.phase = .received ∧ registeredName event.monitorType.pvName = some call.name ∨
        registeredName event.monitorType.pvName = none ∧ call.phase = .ended) := by
  rw [TopicHandlers.receive]
  cases hpv : sanitizePVName event.monitorType.pvName with
  | none => exact ⟨_, rfl, rfl, .inr ⟨by simp [registeredName, hpv], rfl⟩⟩
  | some pv => exact ⟨_, rfl, rfl, .inl ⟨rfl, by simp [registeredName, hpv]⟩⟩

@[simp] theorem registrations_setPhase (handlers : TopicHandlers) (i : ℕ) (call : HandlerCall)
    (phase : HandlerPhase) (name : String) :
    (handlers.setPhase i call phase).registrations name = handlers.registrations name := rfl

@[simp] theorem monitorCalls_setPhase (handlers : TopicHandlers) (i : ℕ) (call : HandlerCall)
    (phase : HandlerPhase) (activate : Bool) (name : String) :
    (handlers.setPhase i call phase).monitorCalls activate name =
      handlers.monitorCalls activate name := rfl

@[simp] theorem monitorCalls_setCmdVec (handlers : TopicHandlers) (cmdVec : ℕ)
    (entries : List ChannelMonitorType) (activate : Bool) (name : String) :
    (handlers.setCmdVec cmdVec entries).monitorCalls activate name =
      handlers.monitorCalls activate name := rfl

/-- A vector is that of one PV. -/
theorem registrations_setCmdVec
    (hinjective : ∀ a b cmdVec, handlers.channelTopicsMap a = some cmdVec →
      handlers.channelTopicsMap b = some cmdVec → a = b) {cmdVec : ℕ}
    (hmap : handlers.channelTopicsMap name = some cmdVec) (entries : List ChannelMonitorType)
    (other : String) : (handlers.setCmdVec cmdVec entries).registrations other =
      if other = name then entries else handlers.registrations other := by
  by_cases hname : other = name
  · subst hname
    rw [if_pos rfl, registrations, setCmdVec]
    simp [hmap]
  · rw [if_neg hname, registrations, registrations, setCmdVec]
    cases hother : handlers.channelTopicsMap other with
    | none => rfl
    | some cmdVec' =>
        have hne : cmdVec' ≠ cmdVec := by
          rintro rfl
          exact hname (hinjective _ _ _ hother hmap)
        simp [hne]

/-- The lookup of a key that is not there makes an empty vector. -/
theorem registrations_lookup
    (hfresh : ∀ name cmdVec, handlers.channelTopicsMap name = some cmdVec →
      cmdVec < handlers.vecCount) (name other : String) :
    (handlers.lookup name).2.registrations other = handlers.registrations other := by
  rw [lookup]
  cases hmap : handlers.channelTopicsMap name with
  | some cmdVec => rfl
  | none =>
      by_cases hname : other = name
      · subst hname
        simp [registrations, hmap]
      · simp only [registrations, Function.update_of_ne hname]
        cases hother : handlers.channelTopicsMap other with
        | none => rfl
        | some cmdVec => exact Function.update_of_ne (hfresh other cmdVec hother).ne _ _

namespace Kept

/-- One call goes on, and the map and the vectors of the other PVs stay as they are. -/
theorem of_call (h : Kept handlers) (hcall : handlers.calls[i]? = some call)
    (hopen : call.phase ≠ .ended) (phase : HandlerPhase)
    (hcalls : handlers'.calls = handlers.calls.set i { call with phase })
    (hcount : handlers.vecCount ≤ handlers'.vecCount)
    (hmap : ∀ name ≠ call.name,
      handlers'.channelTopicsMap name = handlers.channelTopicsMap name)
    (hother : ∀ name ≠ call.name, handlers'.registrations name = handlers.registrations name)
    (hfresh : ∀ cmdVec, handlers'.channelTopicsMap call.name = some cmdVec →
      cmdVec < handlers'.vecCount ∧
        ∀ name ≠ call.name, handlers.channelTopicsMap name ≠ some cmdVec)
    (hnamed : ∀ info ∈ handlers'.registrations call.name,
      registeredName info.pvName = some call.name)
    (hsingle : ((handlers'.registrations call.name).map
      ChannelMonitorType.channelDestination).Nodup)
    (hmonitored : ∀ side, ∀ name ≠ call.name,
      handlers'.monitorCalls side name = handlers.monitorCalls side name)
    (hbalanced : handlers'.monitorCalls true call.name +
        handlers'.owing HandlerPhase.activates call.name =
      handlers'.monitorCalls false call.name + handlers'.owing HandlerPhase.deactivates call.name +
        (handlers'.registrations call.name).length)
    (hfits : HandlerCall.Fits { call with phase })
    (hattended : ∀ cmdVec, handlers'.channelTopicsMap call.name = some cmdVec →
      handlers'.cmdVecs cmdVec = [] → HandlerCall.Attends { call with phase } ∨
        (¬call.Attends ∧ handlers.channelTopicsMap call.name = some cmdVec ∧
          handlers.cmdVecs cmdVec = [])) : Kept handlers' := by
  have hmem : { call with phase } ∈ handlers'.calls := by
    rw [hcalls]
    exact List.mem_set (List.getElem?_eq_some_iff.mp hcall).1 _
  refine ⟨fun name cmdVec hname => ?_, fun a b cmdVec ha hb => ?_, fun name => ?_,
    fun name => ?_, fun other hmemOther hphase => ?_, fun other hmemOther => ?_, fun name => ?_,
    fun name cmdVec hname hnil => ?_⟩
  · by_cases hne : name = call.name
    · subst hne
      exact (hfresh cmdVec hname).1
    · rw [hmap name hne] at hname
      exact (h.fresh name cmdVec hname).trans_le hcount
  · by_cases ha' : a = call.name <;> by_cases hb' : b = call.name
    · rw [ha', hb']
    · subst ha'
      rw [hmap b hb'] at hb
      exact absurd hb ((hfresh cmdVec ha).2 b hb')
    · subst hb'
      rw [hmap a ha'] at ha
      exact absurd ha ((hfresh cmdVec hb).2 a ha')
    · rw [hmap a ha'] at ha
      rw [hmap b hb'] at hb
      exact h.injective a b cmdVec ha hb
  · by_cases hne : name = call.name
    · rwa [hne]
    · rw [hother name hne]
      exact h.named name
  · by_cases hne : name = call.name
    · rwa [hne]
    · rw [hother name hne]
      exact h.single name
  · rw [hcalls] at hmemOther
    rcases List.mem_or_eq_of_mem_set hmemOther with hmemOther | rfl
    · exact h.sanitized other hmemOther hphase
    · exact h.sanitized call (List.mem_of_getElem? hcall) hopen
  · rw [hcalls] at hmemOther
    rcases List.mem_or_eq_of_mem_set hmemOther with hmemOther | rfl
    · exact h.fits other hmemOther
    · exact hfits
  · by_cases hne : name = call.name
    · rwa [hne]
    · have howing : ∀ P, handlers'.owing P name = handlers.owing P name := fun P => by
        rw [owing, hcalls]
        exact tally_set_of_ne hcall rfl hne
      rw [hmonitored true name hne, hmonitored false name hne, howing, howing, hother name hne]
      exact h.balanced name
  · have hkept : ∀ other ∈ handlers.calls, other ≠ call → other ∈ handlers'.calls := by
      intro other hotherMem hne
      obtain ⟨j, hj⟩ := List.getElem?_of_mem hotherMem
      rw [hcalls]
      refine List.mem_of_getElem? (i := j) ?_
      rw [List.getElem?_set_ne, hj]
      rintro rfl
      exact hne (Option.some.inj (hj.symm.trans hcall))
    by_cases hne : name = call.name
    · subst hne
      rcases hattended cmdVec hname hnil with hattends | ⟨hnot, hname', hnil'⟩
      · exact ⟨_, hmem, rfl, hattends⟩
      · obtain ⟨other, hotherMem, hotherName, hattends⟩ := h.attended _ cmdVec hname' hnil'
        exact ⟨other, hkept other hotherMem (by rintro rfl; exact hnot hattends), hotherName,
          hattends⟩
    · have hvec : handlers.cmdVecs cmdVec = [] := by
        have hregs := hother name hne
        rw [registrations_of_some hname] at hregs
        rw [hmap name hne] at hname
        rwa [registrations_of_some hname, hnil, eq_comm] at hregs
      rw [hmap name hne] at hname
      obtain ⟨other, hotherMem, hotherName, hattends⟩ := h.attended name cmdVec hname hvec
      exact ⟨other, hkept other hotherMem (by rintro rfl; exact hne hotherName.symm), hotherName,
        hattends⟩

/-- One call goes on, with the map as it is. -/
theorem of_sameMap (h : Kept handlers) (hcall : handlers.calls[i]? = some call)
    (hopen : call.phase ≠ .ended) (phase : HandlerPhase)
    (hcalls : handlers'.calls = handlers.calls.set i { call with phase })
    (hcount : handlers'.vecCount = handlers.vecCount)
    (hmap : handlers'.channelTopicsMap = handlers.channelTopicsMap)
    (hother : ∀ name ≠ call.name, handlers'.registrations name = handlers.registrations name)
    (hnamed : ∀ info ∈ handlers'.registrations call.name,
      registeredName info.pvName = some call.name)
    (hsingle : ((handlers'.registrations call.name).map
      ChannelMonitorType.channelDestination).Nodup)
    (hmonitored : ∀ side, ∀ name ≠ call.name,
      handlers'.monitorCalls side name = handlers.monitorCalls side name)
    (hbalanced : handlers'.monitorCalls true call.name +
        handlers'.owing HandlerPhase.activates call.name =
      handlers'.monitorCalls false call.name + handlers'.owing HandlerPhase.deactivates call.name +
        (handlers'.registrations call.name).length)
    (hfits : HandlerCall.Fits { call with phase })
    (hattended : HandlerCall.Attends { call with phase } ∨ handlers'.registrations call.name ≠ [] ∨
      (¬call.Attends ∧ handlers'.registrations call.name = handlers.registrations call.name)) :
    Kept handlers' := by
  refine h.of_call hcall hopen phase hcalls hcount.ge (fun name _ => by rw [hmap]) hother ?_ hnamed
    hsingle hmonitored hbalanced hfits ?_
  · intro cmdVec hname
    rw [hmap] at hname
    refine ⟨hcount ▸ h.fresh _ cmdVec hname, fun name hne heq => ?_⟩
    exact hne (h.injective _ _ cmdVec heq hname)
  · intro cmdVec hname hnil
    have hregs := registrations_of_some hname
    rw [hnil] at hregs
    rcases hattended with hattends | hne | ⟨hnot, heq⟩
    · exact .inl hattends
    · exact absurd hregs hne
    · rw [hmap] at hname
      refine .inr ⟨hnot, hname, ?_⟩
      rw [← registrations_of_some hname, ← heq, hregs]

variable {changed : TopicHandlers}

theorem owing_setPhase (hcall : handlers.calls[i]? = some call)
    (hcalls : changed.calls = handlers.calls) (phase : HandlerPhase) (P : HandlerPhase → Bool)
    (hP : P phase = P call.phase) (name : String) :
    (changed.setPhase i call phase).owing P name = handlers.owing P name := by
  rw [owing, setPhase, hcalls]
  exact tally_set_of_eq hcall rfl hP

theorem owing_setPhase_add (hcall : handlers.calls[i]? = some call)
    (hcalls : changed.calls = handlers.calls) (phase : HandlerPhase) (P : HandlerPhase → Bool)
    (hold : P call.phase = false) (hnew : P phase = true) :
    (changed.setPhase i call phase).owing P call.name = handlers.owing P call.name + 1 := by
  rw [owing, setPhase, hcalls]
  exact tally_set_add hcall rfl hold hnew

theorem owing_setPhase_sub (hcall : handlers.calls[i]? = some call)
    (hcalls : changed.calls = handlers.calls) (phase : HandlerPhase) (P : HandlerPhase → Bool)
    (hold : P call.phase = true) (hnew : P phase = false) :
    (changed.setPhase i call phase).owing P call.name + 1 = handlers.owing P call.name := by
  rw [owing, setPhase, hcalls]
  exact tally_set_sub hcall rfl hold hnew

/-- A part of a call that only looks. -/
theorem of_look (h : Kept handlers) (hcall : handlers.calls[i]? = some call)
    (hopen : call.phase ≠ .ended) (phase : HandlerPhase)
    (hactivates : phase.activates = call.phase.activates)
    (hdeactivates : phase.deactivates = call.phase.deactivates)
    (hfits : HandlerCall.Fits { call with phase })
    (hattended : HandlerCall.Attends { call with phase } ∨ handlers.registrations call.name ≠ [] ∨
      ¬call.Attends) :
    Kept (handlers.setPhase i call phase) := by
  refine h.of_sameMap hcall hopen phase rfl rfl rfl (fun _ _ => rfl) (h.named call.name)
    (h.single call.name) (fun _ _ _ => rfl) ?_ hfits ?_
  · rw [owing_setPhase hcall rfl _ _ hactivates, owing_setPhase hcall rfl _ _ hdeactivates]
    exact h.balanced call.name
  · rcases hattended with hattends | hne | hnot
    · exact .inl hattends
    · exact .inr (.inl hne)
    · exact .inr (.inr ⟨hnot, rfl⟩)

theorem registrations_setCmdVec (h : Kept handlers) {cmdVec : ℕ}
    (hmap : handlers.channelTopicsMap name = some cmdVec) (entries : List ChannelMonitorType)
    (other : String) : (handlers.setCmdVec cmdVec entries).registrations other =
      if other = name then entries else handlers.registrations other :=
  TopicHandlers.registrations_setCmdVec h.injective hmap entries other

/-! ## The parts of a call -/

theorem push (h : Kept handlers) (hcall : handlers.calls[i]? = some call) {cmdVec : ℕ}
    (hphase : call.phase = .pushing cmdVec)
    (hmap : handlers.channelTopicsMap call.name = some cmdVec)
    (habsent : find (handlers.cmdVecs cmdVec) call.event = none) :
    Kept ((handlers.setCmdVec cmdVec
      (handlers.cmdVecs cmdVec ++ [call.event.monitorType])).setPhase i call .activating) := by
  have hopen : call.phase ≠ .ended := by simp [hphase]
  have hregs := h.registrations_setCmdVec hmap
    (handlers.cmdVecs cmdVec ++ [call.event.monitorType])
  have hold := registrations_of_some hmap
  have hself := (hregs call.name).trans (if_pos rfl)
  have hcalls : (handlers.setCmdVec cmdVec
    (handlers.cmdVecs cmdVec ++ [call.event.monitorType])).calls = handlers.calls := rfl
  have hfits := h.fits call (List.mem_of_getElem? hcall)
  rw [HandlerCall.Fits, hphase] at hfits
  refine h.of_sameMap hcall hopen .activating rfl rfl rfl ?_ ?_ ?_ (fun _ _ _ => rfl)
    ?_ hfits ?_
  · intro name hne
    exact (hregs name).trans (if_neg hne)
  · rw [registrations_setPhase, hself]
    intro info hinfo
    rcases List.mem_append.mp hinfo with hinfo | hinfo
    · exact h.named call.name info (hold ▸ hinfo)
    · rw [List.mem_singleton.mp hinfo]
      exact h.sanitized call (List.mem_of_getElem? hcall) hopen
  · rw [registrations_setPhase, hself, List.map_append, List.nodup_append]
    refine ⟨hold ▸ h.single call.name, by simp, ?_⟩
    intro destination hdest other hother
    obtain ⟨info, hinfo, rfl⟩ := List.mem_map.mp hdest
    have hne := List.findIdx?_eq_none_iff.mp habsent info hinfo
    simp only [List.map_cons, List.map_nil, List.mem_singleton] at hother
    simpa [hother] using hne
  · have hbalanced := h.balanced call.name
    rw [owing_setPhase_add hcall hcalls .activating HandlerPhase.activates
        (by rw [hphase]; rfl) rfl,
      owing_setPhase hcall hcalls .activating HandlerPhase.deactivates (by rw [hphase]; rfl),
      registrations_setPhase, hself,
      monitorCalls_setPhase, monitorCalls_setPhase, monitorCalls_setCmdVec,
      monitorCalls_setCmdVec, List.length_append, List.length_singleton]
    rw [hold] at hbalanced
    omega
  · rw [registrations_setPhase, hself]
    exact .inr (.inl (by simp))

theorem activate (h : Kept handlers) (hcall : handlers.calls[i]? = some call)
    (hphase : call.phase = .activating) :
    Kept ((handlers.monitorChannel call.event.monitorType.pvName true).setPhase i call
      .ended) := by
  have hopen : call.phase ≠ .ended := by simp [hphase]
  have hname := h.sanitized call (List.mem_of_getElem? hcall) hopen
  have hcalls : (handlers.monitorChannel call.event.monitorType.pvName true).calls =
    handlers.calls := rfl
  refine h.of_sameMap hcall hopen .ended rfl rfl rfl (fun _ _ => rfl)
    (h.named call.name) (h.single call.name) ?_ ?_ trivial ?_
  · intro side name hne
    simp [monitorCalls_monitorChannel, hname, hne.symm]
  · have hbalanced := h.balanced call.name
    have howing := owing_setPhase_sub hcall hcalls .ended HandlerPhase.activates
      (by rw [hphase]; rfl) rfl
    rw [owing_setPhase hcall hcalls .ended HandlerPhase.deactivates (by rw [hphase]; rfl),
      monitorCalls_setPhase, monitorCalls_setPhase, monitorCalls_monitorChannel,
      monitorCalls_monitorChannel, registrations_setPhase]
    simp only [hname, and_true, if_true, Bool.true_eq_false, if_false]
    change _ = _ + (handlers.registrations call.name).length
    omega
  · exact .inr (.inr ⟨by simp [HandlerCall.Attends, hphase], rfl⟩)

theorem erase (h : Kept handlers) (hcall : handlers.calls[i]? = some call)
    {cmdVec position : ℕ} (hphase : call.phase = .erasing cmdVec position (handlers.cmdVecs cmdVec))
    (hmap : handlers.channelTopicsMap call.name = some cmdVec) :
    Kept ((handlers.setCmdVec cmdVec
      ((handlers.cmdVecs cmdVec).eraseIdx position)).setPhase i call (.deactivating cmdVec)) := by
  have hopen : call.phase ≠ .ended := by simp [hphase]
  have hregs := h.registrations_setCmdVec hmap ((handlers.cmdVecs cmdVec).eraseIdx position)
  have hold := registrations_of_some hmap
  have hself := (hregs call.name).trans (if_pos rfl)
  have hcalls : (handlers.setCmdVec cmdVec
    ((handlers.cmdVecs cmdVec).eraseIdx position)).calls = handlers.calls := rfl
  have hfits := h.fits call (List.mem_of_getElem? hcall)
  rw [HandlerCall.Fits, hphase] at hfits
  have hsub : ((handlers.cmdVecs cmdVec).eraseIdx position).Sublist
    (handlers.registrations call.name) := hold ▸ List.eraseIdx_sublist _ _
  have hlength : ((handlers.cmdVecs cmdVec).eraseIdx position).length + 1 =
      (handlers.registrations call.name).length := by
    have hlt : position < (handlers.cmdVecs cmdVec).length :=
      (List.findIdx?_eq_some_iff_getElem.mp hfits.2).1
    rw [hold, List.length_eraseIdx_of_lt hlt]
    omega
  refine h.of_sameMap hcall hopen (.deactivating cmdVec) rfl rfl rfl ?_ ?_ ?_
    (fun _ _ _ => rfl) ?_ hfits.1 (.inl trivial)
  · intro name hne
    exact (hregs name).trans (if_neg hne)
  · rw [registrations_setPhase, hself]
    intro info hinfo
    exact h.named call.name info (hsub.mem hinfo)
  · rw [registrations_setPhase, hself]
    exact (h.single call.name).sublist (hsub.map _)
  · have hbalanced := h.balanced call.name
    rw [owing_setPhase_add hcall hcalls (.deactivating cmdVec) HandlerPhase.deactivates
        (by rw [hphase]; rfl) rfl,
      owing_setPhase hcall hcalls (.deactivating cmdVec) HandlerPhase.activates
        (by rw [hphase]; rfl),
      registrations_setPhase, hself, monitorCalls_setPhase, monitorCalls_setPhase,
      monitorCalls_setCmdVec, monitorCalls_setCmdVec]
    omega

theorem deactivate (h : Kept handlers) (hcall : handlers.calls[i]? = some call) {cmdVec : ℕ}
    (hphase : call.phase = .deactivating cmdVec) :
    Kept ((handlers.monitorChannel call.event.monitorType.pvName false).setPhase i call
      (.measuring cmdVec)) := by
  have hopen : call.phase ≠ .ended := by simp [hphase]
  have hfits := h.fits call (List.mem_of_getElem? hcall)
  rw [HandlerCall.Fits, hphase] at hfits
  have hname := h.sanitized call (List.mem_of_getElem? hcall) hopen
  have hcalls : (handlers.monitorChannel call.event.monitorType.pvName false).calls =
    handlers.calls := rfl
  refine h.of_sameMap hcall hopen (.measuring cmdVec) rfl rfl rfl (fun _ _ => rfl)
    (h.named call.name) (h.single call.name) ?_ ?_ hfits (.inl trivial)
  · intro side name hne
    simp [monitorCalls_monitorChannel, hname, hne.symm]
  · have hbalanced := h.balanced call.name
    have howing := owing_setPhase_sub hcall hcalls (.measuring cmdVec) HandlerPhase.deactivates
      (by rw [hphase]; rfl) rfl
    rw [owing_setPhase hcall hcalls (.measuring cmdVec) HandlerPhase.activates
        (by rw [hphase]; rfl),
      monitorCalls_setPhase, monitorCalls_setPhase, monitorCalls_monitorChannel,
      monitorCalls_monitorChannel, registrations_setPhase]
    simp only [hname, and_true, if_true, Bool.false_eq_true, if_false]
    change _ = _ + (handlers.registrations call.name).length
    omega

theorem registrations_lookup (h : Kept handlers) (name other : String) :
    (handlers.lookup name).2.registrations other = handlers.registrations other :=
  TopicHandlers.registrations_lookup h.fresh name other

theorem create (h : Kept handlers) (hcall : handlers.calls[i]? = some call)
    (hphase : call.phase = .received) (hstart : call.event.action = .start)
    (hmap : handlers.channelTopicsMap call.name = none) :
    Kept ((handlers.lookup call.name).2.setPhase i call (.searching handlers.vecCount)) := by
  have hopen : call.phase ≠ .ended := by simp [hphase]
  have hregs : ∀ name, ((handlers.lookup call.name).2.setPhase i call
      (.searching handlers.vecCount)).registrations name = handlers.registrations name :=
    h.registrations_lookup call.name
  have hlookup : (handlers.lookup call.name).2 = { handlers with
      channelTopicsMap := Function.update handlers.channelTopicsMap call.name
        (some handlers.vecCount)
      cmdVecs := Function.update handlers.cmdVecs handlers.vecCount []
      vecCount := handlers.vecCount + 1 } := by rw [lookup, hmap]
  have hcalls : (handlers.lookup call.name).2.calls = handlers.calls := by rw [hlookup]
  have hmonitored : ∀ side name, ((handlers.lookup call.name).2.setPhase i call
      (.searching handlers.vecCount)).monitorCalls side name = handlers.monitorCalls side name :=
    fun side name => by rw [hlookup]; rfl
  refine h.of_call hcall hopen (.searching handlers.vecCount) (by rw [setPhase, hcalls])
    (by rw [hlookup]; exact Nat.le_succ _) ?_ (fun name _ => hregs name) ?_ ?_ ?_
    (fun side name _ => hmonitored side name) ?_ trivial (fun _ _ _ => .inl hstart)
  · intro name hne
    rw [hlookup]
    exact Function.update_of_ne hne _ _
  · intro cmdVec hname
    rw [hlookup] at hname ⊢
    obtain rfl : handlers.vecCount = cmdVec := by simpa [setPhase] using hname
    exact ⟨Nat.lt_succ_self _, fun name _ heq => (h.fresh name _ heq).ne rfl⟩
  · rw [hregs]
    exact h.named call.name
  · rw [hregs]
    exact h.single call.name
  · rw [owing_setPhase hcall hcalls _ HandlerPhase.activates (by rw [hphase]; rfl),
      owing_setPhase hcall hcalls _ HandlerPhase.deactivates (by rw [hphase]; rfl), hregs,
      hmonitored, hmonitored]
    exact h.balanced call.name

/-- The key of a PV without registrations is erased. -/
theorem remove (h : Kept handlers) (hcall : handlers.calls[i]? = some call)
    (hphase : call.phase = .removing) (hempty : handlers.registrations call.name = []) :
    Kept ({ handlers with
      channelTopicsMap := Function.update handlers.channelTopicsMap call.name none }.setPhase i
        call .ended) := by
  have hopen : call.phase ≠ .ended := by simp [hphase]
  have hcalls : { handlers with
      channelTopicsMap := Function.update handlers.channelTopicsMap call.name none }.calls =
    handlers.calls := rfl
  have hregs : ∀ name, ({ handlers with
      channelTopicsMap := Function.update handlers.channelTopicsMap call.name none }.setPhase i
        call .ended).registrations name = handlers.registrations name := by
    intro name
    by_cases hname : name = call.name
    · rw [hname, hempty]
      simp [registrations, setPhase]
    · simp [registrations, setPhase, Function.update_of_ne hname]
  refine h.of_call hcall hopen .ended rfl le_rfl (fun name hne => Function.update_of_ne hne _ _)
    (fun name _ => hregs name) ?_ ?_ ?_ (fun _ _ _ => rfl) ?_ trivial ?_
  · simp [setPhase]
  · rw [hregs]
    exact h.named call.name
  · rw [hregs]
    exact h.single call.name
  · rw [owing_setPhase hcall hcalls _ HandlerPhase.activates (by rw [hphase]; rfl),
      owing_setPhase hcall hcalls _ HandlerPhase.deactivates (by rw [hphase]; rfl), hregs]
    exact h.balanced call.name
  · simp [setPhase]

theorem receive (h : Kept handlers) (event : MonitorHandlerData) :
    Kept (handlers.receive event) := by
  obtain ⟨call, hcalls, hevent, hphase⟩ := receive_calls handlers event
  have howing : ∀ P : HandlerPhase → Bool, P .ended = false → P .received = false →
      ∀ name, (handlers.receive event).owing P name = handlers.owing P name := by
    intro P hended hreceived name
    rw [owing, hcalls, tally_append_singleton]
    rcases hphase with ⟨hphase, -⟩ | ⟨-, hphase⟩ <;> simp [hphase, hended, hreceived, owing]
  refine ⟨h.fresh, h.injective, h.named, h.single, ?_, ?_, fun name => ?_, ?_⟩
  · rw [hcalls]
    intro other hother hopen
    rcases List.mem_append.mp hother with hother | hother
    · exact h.sanitized other hother hopen
    · obtain rfl := List.mem_singleton.mp hother
      rcases hphase with ⟨-, hname⟩ | ⟨-, hphase⟩
      · rw [hevent, hname]
      · exact absurd hphase hopen
  · rw [hcalls]
    intro other hother
    rcases List.mem_append.mp hother with hother | hother
    · exact h.fits other hother
    · obtain rfl := List.mem_singleton.mp hother
      rcases hphase with ⟨hphase, -⟩ | ⟨-, hphase⟩ <;> rw [HandlerCall.Fits, hphase] <;> trivial
  · rw [howing _ rfl rfl, howing _ rfl rfl]
    exact h.balanced name
  · intro name cmdVec hmap hnil
    obtain ⟨other, hother, hattends⟩ := h.attended name cmdVec hmap hnil
    exact ⟨other, hcalls ▸ List.mem_append_left _ hother, hattends⟩

/-! ## Runs -/

theorem initial : Kept {} where
  fresh := by simp
  injective := by simp
  named := by simp [registrations]
  single := by simp [registrations]
  sanitized := by simp
  fits := by simp
  balanced := by simp [monitorCalls, owing, registrations]
  attended := by simp

theorem run (h : Kept handlers) (hcall : handlers.calls[i]? = some call)
    (hopen : call.phase ≠ .ended) (htime : handlers.ActsOnTime call) :
    Kept (handlers.run i call) := by
  rw [ActsOnTime] at htime
  rw [TopicHandlers.run, advance]
  cases hphase : call.phase with
  | received =>
      rw [hphase] at htime
      dsimp only at htime ⊢
      cases hmap : handlers.channelTopicsMap call.name with
      | none =>
          have hstart : call.event.action = .start := by
            cases haction : call.event.action with
            | start => rfl
            | stop => exact absurd hmap (htime haction)
          have hfirst : (handlers.lookup call.name).1 = handlers.vecCount := by rw [lookup, hmap]
          rw [hfirst]
          exact h.create hcall hphase hstart hmap
      | some cmdVec =>
          rw [lookup, hmap]
          refine h.of_look hcall hopen _ (by rw [hphase]; rfl) (by rw [hphase]; rfl) trivial
            (.inr (.inr ?_))
          simp [HandlerCall.Attends, hphase]
  | searching cmdVec =>
      rw [hphase] at htime
      dsimp only at htime ⊢
      have hregs := registrations_of_some htime
      cases haction : call.event.action <;> cases hfind : find (handlers.cmdVecs cmdVec) call.event
      · exact h.of_look hcall hopen _ (by rw [hphase]; rfl) (by rw [hphase]; rfl) haction
          (.inl trivial)
      · -- the destination is registered, so the vector is not empty
        refine h.of_look hcall hopen _ (by rw [hphase]; rfl) (by rw [hphase]; rfl) trivial
          (.inr (.inl ?_))
        rw [hregs]
        rintro hnil
        simp [find, hnil] at hfind
      · refine h.of_look hcall hopen _ (by rw [hphase]; rfl) (by rw [hphase]; rfl) trivial
          (.inr (.inr ?_))
        simp [HandlerCall.Attends, hphase, haction]
      · refine h.of_look hcall hopen _ (by rw [hphase]; rfl) (by rw [hphase]; rfl) ⟨haction, hfind⟩
          (.inr (.inr ?_))
        simp [HandlerCall.Attends, hphase, haction]
  | pushing cmdVec =>
      rw [hphase] at htime
      exact h.push hcall hphase htime.1 htime.2
  | activating => exact h.activate hcall hphase
  | erasing cmdVec position seen =>
      rw [hphase] at htime
      obtain ⟨hmap, rfl⟩ := htime
      exact h.erase hcall hphase hmap
  | deactivating cmdVec => exact h.deactivate hcall hphase
  | measuring cmdVec =>
      rw [hphase] at htime
      dsimp only at htime ⊢
      have hfits := h.fits call (List.mem_of_getElem? hcall)
      rw [HandlerCall.Fits, hphase] at hfits
      split
      · exact h.of_look hcall hopen _ (by rw [hphase]; rfl) (by rw [hphase]; rfl) hfits
          (.inl trivial)
      · rename_i hne
        refine h.of_look hcall hopen _ (by rw [hphase]; rfl) (by rw [hphase]; rfl) trivial
          (.inr (.inl ?_))
        rw [registrations_of_some htime]
        exact fun hnil => hne (List.isEmpty_iff.mpr hnil)
  | removing =>
      rw [hphase] at htime
      exact h.remove hcall hphase htime
  | ended => exact absurd hphase hopen

theorem next (h : Kept handlers) {step : HandlerStep} (htime : handlers.OnTime step)
    (hnext : handlers.next step = some handlers') : Kept handlers' := by
  cases step with
  | receive event =>
      cases hnext
      exact h.receive event
  | run i =>
      rw [TopicHandlers.next] at hnext
      split at hnext
      · cases hnext
      · rename_i call hcall
        split at hnext <;> cases hnext
        exact h.run hcall ‹_› (htime call hcall)

end Kept

/-! ## Registrations -/

/-- The PV has a registration for the destination. -/
def Registered (handlers : TopicHandlers) (name destination : String) : Prop :=
  ∃ info ∈ handlers.registrations name, info.channelDestination = destination

theorem Registered.congr (h : ∀ name, handlers'.registrations name = handlers.registrations name)
    (name destination : String) :
    handlers'.Registered name destination ↔ handlers.Registered name destination := by
  rw [Registered, h, Registered]

theorem find_eq_none {entries : List ChannelMonitorType} {event : MonitorHandlerData} :
    find entries event = none ↔
      ∀ info ∈ entries, info.channelDestination ≠ event.monitorType.channelDestination := by
  simp [find, List.findIdx?_eq_none_iff]

/-- Where the destinations differ, the entry at a position is the only one of its destination. -/
theorem mem_eraseIdx {entries : List ChannelMonitorType} {position : ℕ}
    (hsingle : (entries.map ChannelMonitorType.channelDestination).Nodup)
    (hlt : position < entries.length) {info : ChannelMonitorType} :
    info ∈ entries.eraseIdx position ↔
      info ∈ entries ∧ info.channelDestination ≠ entries[position].channelDestination := by
  rw [List.mem_eraseIdx_iff_getElem?]
  constructor
  · rintro ⟨j, hne, hj⟩
    obtain ⟨hjlt, rfl⟩ := List.getElem?_eq_some_iff.mp hj
    refine ⟨List.getElem_mem hjlt, fun hdest => hne ?_⟩
    have heq : (⟨j, by simpa⟩ : Fin (entries.map ChannelMonitorType.channelDestination).length) =
        ⟨position, by simpa⟩ := hsingle.get_inj_iff.mp (by simpa using hdest)
    exact congrArg Fin.val heq
  · rintro ⟨hinfo, hdest⟩
    obtain ⟨j, hj⟩ := List.getElem?_of_mem hinfo
    refine ⟨j, ?_, hj⟩
    rintro rfl
    exact hdest (congrArg _ (List.getElem?_eq_some_iff.mp hj).2.symm)

/-- Start registers its channel at `push_back`, Stop takes it away at `erase`. -/
theorem Kept.registered_run (h : Kept handlers) (hcall : handlers.calls[i]? = some call)
    (hopen : call.phase ≠ .ended) (htime : handlers.ActsOnTime call) (name destination : String) :
    (handlers.run i call).Registered name destination ↔
      match call.phase with
      | .pushing _ => handlers.Registered name destination ∨
        (name = call.name ∧ destination = call.event.monitorType.channelDestination)
      | .erasing .. => handlers.Registered name destination ∧
        ¬(name = call.name ∧ destination = call.event.monitorType.channelDestination)
      | _ => handlers.Registered name destination := by
  have hfits := h.fits call (List.mem_of_getElem? hcall)
  rw [HandlerCall.Fits] at hfits
  rw [ActsOnTime] at htime
  rw [TopicHandlers.run, advance]
  cases hphase : call.phase with
  | received => exact Registered.congr (h.registrations_lookup call.name) name destination
  | searching cmdVec =>
      dsimp only
      split <;> exact Iff.rfl
  | pushing cmdVec =>
      rw [hphase] at htime
      dsimp only
      rw [Registered, registrations_setPhase, h.registrations_setCmdVec htime.1]
      by_cases hname : name = call.name
      · subst hname
        simp only [if_true, true_and, Registered, registrations_of_some htime.1, List.mem_append,
          List.mem_singleton, or_and_right, exists_or, exists_eq_left]
        rw [eq_comm (b := destination)]
      · simp [hname, Registered]
  | activating => exact Iff.rfl
  | erasing cmdVec position seen =>
      rw [hphase] at htime hfits
      obtain ⟨hmap, rfl⟩ := htime
      obtain ⟨hlt, hfound, -⟩ := List.findIdx?_eq_some_iff_getElem.mp hfits.2
      have hregs := registrations_of_some hmap
      dsimp only
      rw [Registered, registrations_setPhase, h.registrations_setCmdVec hmap]
      by_cases hname : name = call.name
      · subst hname
        rw [if_pos rfl]
        have hsingle := h.single call.name
        rw [hregs] at hsingle
        simp only [true_and, Registered, hregs]
        have hdest := of_decide_eq_true hfound
        constructor
        · rintro ⟨info, hinfo, rfl⟩
          obtain ⟨hmem, hne⟩ := (mem_eraseIdx hsingle hlt).mp hinfo
          exact ⟨⟨info, hmem, rfl⟩, hdest ▸ hne⟩
        · rintro ⟨⟨info, hinfo, rfl⟩, hne⟩
          exact ⟨info, (mem_eraseIdx hsingle hlt).mpr ⟨hinfo, hdest ▸ hne⟩, rfl⟩
      · simp [hname, Registered]
  | deactivating cmdVec => exact Iff.rfl
  | measuring cmdVec => exact Iff.rfl
  | removing =>
      rw [hphase] at htime
      refine Registered.congr (fun other => ?_) name destination
      by_cases hname : other = call.name
      · rw [hname, htime]
        simp [registrations, setPhase]
      · simp [registrations, setPhase, Function.update_of_ne hname]
  | ended => exact absurd hphase hopen

/-! ## Quiescent states -/

/-- The destructor gives back one reference for each registration of a listed PV. -/
theorem Kept.countP_dispose (h : Kept handlers) {keys : List String} (hkeys : keys.Nodup)
    (name : String) :
    (keys.flatMap fun key =>
        (handlers.registrations key).map fun info => (info.pvName, false)).countP
        (fun entry => entry.2 == false && decide (registeredName entry.1 = some name)) =
      if name ∈ keys then (handlers.registrations name).length else 0 := by
  induction keys with
  | nil => rfl
  | cons key rest ih =>
      obtain ⟨hkey, hrest⟩ := List.nodup_cons.mp hkeys
      have hcount : ((handlers.registrations key).map fun info => (info.pvName, false)).countP
          (fun entry => entry.2 == false && decide (registeredName entry.1 = some name)) =
            if key = name then (handlers.registrations key).length else 0 := by
        rw [List.countP_map]
        split
        · rename_i heq
          rw [List.countP_eq_length]
          intro info hinfo
          simpa [heq] using h.named key info hinfo
        · rename_i hne
          rw [List.countP_eq_zero]
          intro info hinfo
          simpa [h.named key info hinfo] using hne
      rw [List.flatMap_cons, List.countP_append, hcount, ih hrest]
      by_cases heq : key = name
      · subst heq
        simp [hkey]
      · simp [heq, Ne.symm heq]

theorem Kept.accounted (h : Kept handlers) (hquiescent : handlers.Quiescent) :
    handlers.Accounted := by
  have howing : ∀ P : HandlerPhase → Bool, P .ended = false →
      ∀ name, handlers.owing P name = 0 := by
    intro P hended name
    rw [owing, tally_eq_zero]
    intro call hcall _
    rw [hquiescent call hcall, hended]
  have hbalanced : ∀ name, handlers.monitorCalls true name =
      handlers.monitorCalls false name + (handlers.registrations name).length := by
    intro name
    have := h.balanced name
    rwa [howing _ rfl, howing _ rfl] at this
  refine ⟨?_, h.single, hbalanced, ?_⟩
  · intro name cmdVec hmap hnil
    obtain ⟨call, hcall, -, hattends⟩ := h.attended name cmdVec hmap hnil
    simp [HandlerCall.Attends, hquiescent call hcall] at hattends
  · intro keys hkeys name
    have hgiven := h.countP_dispose hkeys.1 name
    have hlength : (if name ∈ keys then (handlers.registrations name).length else 0) =
        (handlers.registrations name).length := by
      split
      · rfl
      · rename_i hnot
        rw [hkeys.2, Option.not_isSome_iff_eq_none] at hnot
        rw [registrations, hnot]
        rfl
    have htaken : (handlers.dispose keys).monitorCalls true name =
        handlers.monitorCalls true name := by
      rw [monitorCalls, dispose, List.countP_append, monitorCalls, Nat.add_eq_left,
        List.countP_eq_zero]
      intro entry hentry
      obtain ⟨key, -, hentry⟩ := List.mem_flatMap.mp hentry
      obtain ⟨info, -, rfl⟩ := List.mem_map.mp hentry
      simp
    rw [htaken, hbalanced, monitorCalls, monitorCalls, dispose, List.countP_append, hgiven, hlength]

/-- While every part of a call acts on time, the registrations and the references agree whenever
no call is under way. -/
theorem accounted_of_run {steps : List HandlerStep} (h : Run next OnTime {} steps handlers)
    (hquiescent : handlers.Quiescent) : handlers.Accounted := by
  have hkept : Kept handlers :=
    h.invariant (I := fun _ handlers => Kept handlers) Kept.initial
      fun hbefore htime hnext => hbefore.next htime hnext
  exact hkept.accounted hquiescent

namespace HandlerTrace

/-- An event for the channel of a PV. -/
def event (action : MonitorHandlerAction) (destination : String) : MonitorHandlerData where
  action
  monitorType := { pvName := "pva://a", eventSerialization := 0, channelDestination := destination }

end HandlerTrace

open HandlerTrace

/-- Two destinations of a PV are started by calls that overlap, and one of them is stopped. -/
theorem accounted_of_run_overlapping : ∃ steps handlers, Run next OnTime {} steps handlers ∧
    (handlers.registrations "a").length = 1 ∧ handlers.Accounted := by
  obtain ⟨handlers, hrun, hcheck⟩ := exists_run next OnTime {}
    ([.receive (event .start "x"), .receive (event .start "y"), .run 0, .run 1, .run 1, .run 0,
      .run 0, .run 1, .run 0, .run 1, .receive (event .stop "x")] ++ List.replicate 5 (.run 2))
    (fun handlers => (handlers.registrations "a").length = 1 ∧
      ∀ call ∈ handlers.calls, call.phase = .ended) (by decide +kernel)
  obtain ⟨hlength, hquiescent⟩ := of_decide_eq_true hcheck
  exact ⟨_, handlers, hrun, hlength, accounted_of_run hrun hquiescent⟩

/-- Stop for an unknown PV leaves a key without registrations. -/
theorem not_accounted_unknown : ¬∀ (steps : List HandlerStep) (handlers : TopicHandlers),
    AnyRun next {} steps handlers → handlers.Quiescent → handlers.Accounted := by
  intro h
  obtain ⟨handlers, hrun, hcheck⟩ := exists_run next (fun _ _ => True) {}
    [.receive (event .stop "x"), .run 0, .run 0]
    (fun handlers => (∀ call ∈ handlers.calls, call.phase = .ended) ∧
      handlers.channelTopicsMap "a" = some 0 ∧ handlers.cmdVecs 0 = []) (by decide +kernel)
  obtain ⟨hquiescent, hmap, hnil⟩ := of_decide_eq_true hcheck
  exact (h _ handlers hrun hquiescent).nonempty "a" 0 hmap hnil

/-- Two calls that start one channel both find it absent. -/
theorem not_accounted_twice : ¬∀ (steps : List HandlerStep) (handlers : TopicHandlers),
    AnyRun next {} steps handlers → handlers.Quiescent → handlers.Accounted := by
  intro h
  obtain ⟨handlers, hrun, hcheck⟩ := exists_run next (fun _ _ => True) {}
    [.receive (event .start "x"), .receive (event .start "x"), .run 0, .run 1, .run 0, .run 1,
      .run 0, .run 1, .run 0, .run 1]
    (fun handlers => (∀ call ∈ handlers.calls, call.phase = .ended) ∧
      (handlers.registrations "a").map ChannelMonitorType.channelDestination = ["x", "x"])
    (by decide +kernel)
  obtain ⟨hquiescent, hregs⟩ := of_decide_eq_true hcheck
  have hsingle := (h _ handlers hrun hquiescent).single "a"
  rw [hregs] at hsingle
  exact absurd hsingle (by decide)


end TopicHandlers

end K2eg
