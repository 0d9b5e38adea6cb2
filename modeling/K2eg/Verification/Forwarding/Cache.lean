import K2eg.Model.MonitorForwarding
import Mathlib.Data.List.Basic

/-! # What the serialization cache of a batch returns -/

namespace K2eg

variable {V Payload : Type*} {factory : SerializerFactory V Payload}

/-! ## The map during a batch -/

namespace ChannelTopicsMap

private theorem lookup_map_setActive (pvName key : String) (value : Bool)
    (entries : List (String × ChannelTopicMonitorInfo)) :
    ((entries.map fun entry =>
      if entry.1 = pvName then (entry.1, { entry.2 with active := value }) else entry).lookup
        key).map ChannelTopicMonitorInfo.cmdVec =
      (entries.lookup key).map ChannelTopicMonitorInfo.cmdVec := by
  induction entries with
  | nil => rfl
  | cons entry rest ih =>
      obtain ⟨name, info⟩ := entry
      by_cases hkey : key = name
      · subst name
        by_cases hname : key = pvName <;> simp [hname]
      · have hbeq : (key == name) = false := by simpa using hkey
        by_cases hname : name = pvName
        · simpa [List.lookup_cons, hname ▸ hbeq, hname] using ih
        · simpa [List.lookup_cons, hbeq, hname] using ih

/-- The batch changes only `active` flags, never a registration. -/
@[simp] theorem registrations_setActive (topics : ChannelTopicsMap factory)
    (pvName key : String) (value : Bool) :
    (topics.setActive pvName value).registrations key = topics.registrations key := by
  simp only [registrations, find?, setActive, lookup_map_setActive]

theorem registrations_of_find?_eq_none {topics : ChannelTopicsMap factory} {pvName : String}
    (h : topics.find? pvName = none) : topics.registrations pvName = [] := by
  simp [registrations, h]

theorem registrations_of_find?_eq_some {topics : ChannelTopicsMap factory} {pvName : String}
    {info : ChannelTopicMonitorInfo} (h : topics.find? pvName = some info) :
    topics.registrations pvName = info.cmdVec := by
  simp [registrations, h]

theorem registrations_of_entries_eq_nil {topics : ChannelTopicsMap factory}
    (h : topics.entries = []) (pvName : String) : topics.registrations pvName = [] := by
  simp [registrations, find?, h]

private theorem mem_of_lookup_eq_some {key : String} {info : ChannelTopicMonitorInfo} :
    ∀ {entries : List (String × ChannelTopicMonitorInfo)}, entries.lookup key = some info →
      (key, info) ∈ entries
  | [], h => by simp at h
  | (name, other) :: rest, h => by
      by_cases hkey : key = name
      · subst name
        simp only [List.lookup_cons, beq_self_eq_true] at h
        simp [Option.some.inj h]
      · have hbeq : (key == name) = false := by simpa using hkey
        simp only [List.lookup_cons, hbeq] at h
        exact List.mem_cons_of_mem _ (mem_of_lookup_eq_some h)

/-- Every registration has a serializer. -/
theorem hasType_of_mem_registrations {topics : ChannelTopicsMap factory} {pvName : String}
    {info : ChannelMonitorType} (h : info ∈ topics.registrations pvName) :
    factory.hasType info.serialization = true := by
  cases hfind : topics.find? pvName with
  | none => simp [registrations_of_find?_eq_none hfind] at h
  | some entry =>
      rw [registrations_of_find?_eq_some hfind] at h
      exact topics.serializable (pvName, entry) (mem_of_lookup_eq_some hfind) info h

end ChannelTopicsMap

theorem registrations_deactivateFailed (events : List (MonitorEvent V))
    (topics : ChannelTopicsMap factory) (key : String) :
    (deactivateFailed events topics).registrations key = topics.registrations key := by
  induction events generalizing topics with
  | nil => rfl
  | cons event rest ih =>
      exact (ih (topics.setActive event.channelData.pvName false)).trans
        (ChannelTopicsMap.registrations_setActive topics _ key false)

/-! ## Pushes that may fail -/

/-- What comes of a list of attempts: the values before the first failure, and that failure. -/
def untilFailure {α : Type*} : List (Except Failure α) → List α × Option Failure
  | [] => ([], none)
  | .error failure :: _ => ([], some failure)
  | .ok value :: rest => (value :: (untilFailure rest).1, (untilFailure rest).2)

/-- A failure of the first attempts hides the others. -/
theorem untilFailure_append_of_failed {α : Type*} {first : List (Except Failure α)}
    {failure : Failure} (h : (untilFailure first).2 = some failure)
    (rest : List (Except Failure α)) : untilFailure (first ++ rest) = untilFailure first := by
  induction first with
  | nil => simp [untilFailure] at h
  | cons attempt first ih =>
      cases attempt with
      | error failure => rfl
      | ok value =>
          simp only [untilFailure] at h
          simp only [List.cons_append, untilFailure, ih h]

theorem untilFailure_append {α : Type*} {first : List (Except Failure α)}
    (h : (untilFailure first).2 = none) (rest : List (Except Failure α)) :
    untilFailure (first ++ rest) =
      ((untilFailure first).1 ++ (untilFailure rest).1, (untilFailure rest).2) := by
  induction first with
  | nil => rfl
  | cons attempt first ih =>
      cases attempt with
      | error failure => simp [untilFailure] at h
      | ok value =>
          simp only [untilFailure] at h
          simp only [List.cons_append, untilFailure, ih h]

/-- Without a failure every attempt has come to its value. -/
theorem map_ok_untilFailure {α : Type*} {attempts : List (Except Failure α)}
    (h : (untilFailure attempts).2 = none) : (untilFailure attempts).1.map .ok = attempts := by
  induction attempts with
  | nil => rfl
  | cons attempt attempts ih =>
      cases attempt with
      | error failure => simp [untilFailure] at h
      | ok value =>
          simp only [untilFailure] at h
          simp only [untilFailure, List.map_cons, ih h]

theorem untilFailure_eq_none {α : Type*} {attempts : List (Except Failure α)}
    (h : ∀ attempt ∈ attempts, ∃ value, attempt = .ok value) :
    (untilFailure attempts).2 = none := by
  induction attempts with
  | nil => rfl
  | cons attempt attempts ih =>
      obtain ⟨value, rfl⟩ := h attempt (by simp)
      exact ih fun other hother => h other (by simp [hother])

/-- The messages that were pushed, and the failure. -/
def Forwarded.outcome {State : Type*} (forwarded : Forwarded State Payload) :
    List (PublishMessage Payload) × Option Failure :=
  (forwarded.pushed, forwarded.failure)

@[simp] theorem Forwarded.outcome_after {State : Type*} (pushed : List (PublishMessage Payload))
    (forwarded : Forwarded State Payload) :
    (forwarded.after pushed).outcome =
      (pushed ++ forwarded.outcome.1, forwarded.outcome.2) := rfl

/-! ## One event -/

/-- A cache never holds the null message, because only registered types are looked up. -/
def NoNullMessage (cache : SerializationCache Payload) : Prop :=
  ∀ type, cache type ≠ some none

/-- The payload the cache gives for an event and a type. -/
def cachedPayload (factory : SerializerFactory V Payload) (event : MonitorEvent V)
    (cache : SerializationCache Payload) (type : SerializationType) : Except Failure Payload :=
  match (cache type).join with
  | some payload => .ok payload
  | none => factory.encode type event.channelData

/-- The cache after an event has been forwarded to a list of registrations. -/
def cacheAfter (factory : SerializerFactory V Payload) (event : MonitorEvent V)
    (infos : List ChannelMonitorType) (cache : SerializationCache Payload) :
    SerializationCache Payload := fun type =>
  if type ∈ infos.map ChannelMonitorType.serialization then
    (cachedPayload factory event cache type).toOption.map some
  else cache type

/-- The message pushed for one registration. -/
def forwardedMessage (event : MonitorEvent V) (info : ChannelMonitorType) (payload : Payload) :
    PublishMessage Payload where
  queue := info.channelDestination
  reqType := "monitor-message"
  distributionKey := event.channelData.pvName
  payload := payload
  serType := serializationToString info.serialization

/-- The attempts of one event: a push for each registration. -/
def eventAttempts (event : MonitorEvent V) (infos : List ChannelMonitorType)
    (payload : SerializationType → Except Failure Payload) :
    List (Except Failure (PublishMessage Payload)) :=
  infos.map fun info => (payload info.serialization).map (forwardedMessage event info)

theorem cachedMessage_eq {event : MonitorEvent V} {type : SerializationType}
    {cache : SerializationCache Payload} (hcache : NoNullMessage cache)
    (htype : factory.hasType type = true) :
    cachedMessage factory event type cache =
      (cachedPayload factory event cache type).map fun payload =>
        (some payload, Function.update cache type (some (some payload))) := by
  unfold cachedMessage cachedPayload
  cases hlookup : cache type with
  | none =>
      simp only [serialize, htype, if_true, Option.join_none]
      cases factory.encode type event.channelData <;> rfl
  | some message =>
      cases message with
      | none => exact absurd hlookup (hcache type)
      | some payload =>
          simp only [Option.join_some, Except.map, Except.ok.injEq, Prod.mk.injEq, true_and]
          rw [← hlookup, Function.update_eq_self]

theorem noNullMessage_update {cache : SerializationCache Payload} (hcache : NoNullMessage cache)
    (type : SerializationType) (payload : Payload) :
    NoNullMessage (Function.update cache type (some (some payload))) := by
  intro other
  by_cases h : other = type
  · subst other
    simp
  · simpa [Function.update_of_ne h] using hcache other

theorem noNullMessage_cacheAfter {cache : SerializationCache Payload}
    (hcache : NoNullMessage cache) (event : MonitorEvent V) (infos : List ChannelMonitorType) :
    NoNullMessage (cacheAfter factory event infos cache) := by
  intro type
  unfold cacheAfter
  split
  · simp
  · exact hcache type

/-- Storing what the cache already returns does not change what it returns for the event. -/
theorem cachedPayload_update {event : MonitorEvent V} {cache : SerializationCache Payload}
    {type : SerializationType} {payload : Payload}
    (h : cachedPayload factory event cache type = .ok payload) :
    cachedPayload factory event (Function.update cache type (some (some payload))) =
      cachedPayload factory event cache := by
  funext other
  by_cases hother : other = type
  · subst other
    rw [h]
    simp [cachedPayload]
  · simp [cachedPayload, Function.update_of_ne hother]

theorem cacheAfter_cons {event : MonitorEvent V} {info : ChannelMonitorType}
    {cache : SerializationCache Payload} {payload : Payload}
    (h : cachedPayload factory event cache info.serialization = .ok payload)
    (infos : List ChannelMonitorType) :
    cacheAfter factory event (info :: infos) cache =
      cacheAfter factory event infos
        (Function.update cache info.serialization (some (some payload))) := by
  funext type
  unfold cacheAfter
  rw [cachedPayload_update h]
  by_cases hmem : type ∈ infos.map ChannelMonitorType.serialization
  · simp [hmem]
  · by_cases htype : type = info.serialization
    · subst type
      simp [hmem, h, Except.toOption]
    · simp [hmem, htype]

/-- The inner loop attempts one push for each registration, with the cached payloads. -/
theorem forwardEvent_eq (event : MonitorEvent V) (infos : List ChannelMonitorType)
    (cache : SerializationCache Payload) (hcache : NoNullMessage cache)
    (htypes : ∀ info ∈ infos, factory.hasType info.serialization = true) :
    (forwardEvent factory event infos cache).outcome =
      untilFailure (eventAttempts event infos (cachedPayload factory event cache)) ∧
    ((forwardEvent factory event infos cache).failure = none →
      (forwardEvent factory event infos cache).state = cacheAfter factory event infos cache) := by
  induction infos generalizing cache with
  | nil =>
      refine ⟨rfl, fun _ => ?_⟩
      funext type
      simp [forwardEvent, cacheAfter]
  | cons info rest ih =>
      have hinfo := htypes info (by simp)
      simp only [forwardEvent, cachedMessage_eq hcache hinfo, eventAttempts, List.map_cons]
      cases hpayload : cachedPayload factory event cache info.serialization with
      | error failure => exact ⟨rfl, nofun⟩
      | ok payload =>
          have hnext := noNullMessage_update hcache info.serialization payload
          obtain ⟨hattempts, hstate⟩ := ih _ hnext fun other h => htypes other (by simp [h])
          rw [cachedPayload_update hpayload] at hattempts
          rw [cacheAfter_cons hpayload]
          refine ⟨?_, hstate⟩
          change ((forwardEvent factory event rest (Function.update cache info.serialization
              (some (some payload)))).after [forwardedMessage event info payload]).outcome =
            untilFailure (.ok (forwardedMessage event info payload) ::
              eventAttempts event rest (cachedPayload factory event cache))
          simp only [Forwarded.outcome_after, hattempts, untilFailure, List.singleton_append]

/-! ## The whole batch -/

/-- The event is published with the given serialization. -/
def publishedWith (topics : ChannelTopicsMap factory) (type : SerializationType)
    (event : MonitorEvent V) : Bool :=
  decide (type ∈ (topics.registrations event.channelData.pvName).map
    ChannelMonitorType.serialization)

theorem publishedWith_iff {topics : ChannelTopicsMap factory} {type : SerializationType}
    {event : MonitorEvent V} : publishedWith topics type event = true ↔
      type ∈ (topics.registrations event.channelData.pvName).map
        ChannelMonitorType.serialization := by
  simp only [publishedWith, decide_eq_true_eq]

@[simp] theorem publishedWith_setActive (topics : ChannelTopicsMap factory) (pvName : String)
    (value : Bool) (type : SerializationType) :
    publishedWith (V := V) (topics.setActive pvName value) type = publishedWith topics type := by
  funext event
  simp only [publishedWith, ChannelTopicsMap.registrations_setActive]

/-- The event whose encoding the batch publishes for a serialization: the first one of the
batch that is published with it. -/
def encodedEvent (topics : ChannelTopicsMap factory) (events : List (MonitorEvent V))
    (type : SerializationType) (event : MonitorEvent V) : MonitorEvent V :=
  (events.find? (publishedWith topics type)).getD event

/-- The payload published for an event when the batch starts from `cache`. -/
def batchPayload (topics : ChannelTopicsMap factory) (events : List (MonitorEvent V))
    (cache : SerializationCache Payload) (event : MonitorEvent V)
    (type : SerializationType) : Except Failure Payload :=
  cachedPayload factory (encodedEvent topics events type event) cache type

theorem batchPayload_head (topics : ChannelTopicsMap factory) (event : MonitorEvent V)
    (rest : List (MonitorEvent V)) (cache : SerializationCache Payload)
    {type : SerializationType} (h : publishedWith topics type event = true) :
    batchPayload topics (event :: rest) cache event type =
      cachedPayload factory event cache type := by
  simp [batchPayload, encodedEvent, h]

/-- An event after the first one gets the payload of the batch as a whole, where the first one has
been encoded. -/
theorem batchPayload_tail {topics : ChannelTopicsMap factory} {first : MonitorEvent V}
    {cache : SerializationCache Payload}
    (hfirst : ∀ type, publishedWith topics type first = true →
      ∃ payload, cachedPayload factory first cache type = .ok payload)
    (rest : List (MonitorEvent V)) (event : MonitorEvent V) (type : SerializationType) :
    batchPayload topics rest
        (cacheAfter factory first (topics.registrations first.channelData.pvName) cache)
        event type =
      batchPayload topics (first :: rest) cache event type := by
  cases h : publishedWith topics type first with
  | true =>
      obtain ⟨payload, hpayload⟩ := hfirst type h
      have hlater : (cacheAfter factory first (topics.registrations first.channelData.pvName)
          cache type).join = some payload := by
        simp [cacheAfter, publishedWith_iff.mp h, hpayload, Except.toOption]
      simp only [batchPayload, encodedEvent, List.find?_cons, h, Option.getD_some, hpayload]
      rw [cachedPayload, hlater]
  | false =>
      have hmem : type ∉ (topics.registrations first.channelData.pvName).map
          ChannelMonitorType.serialization := by
        simpa only [publishedWith, decide_eq_false_iff_not] using h
      simp only [batchPayload, encodedEvent, cachedPayload, cacheAfter, if_neg hmem,
        List.find?_cons, h]

/-- The attempts of a batch, event by event: each payload encodes the event that first used the
serialization. -/
def batchAttempts (topics : ChannelTopicsMap factory) (events : List (MonitorEvent V))
    (payload : MonitorEvent V → SerializationType → Except Failure Payload) :
    List (Except Failure (PublishMessage Payload)) :=
  events.flatMap fun event =>
    eventAttempts event (topics.registrations event.channelData.pvName) (payload event)

theorem batchAttempts_congr {topics : ChannelTopicsMap factory} {events : List (MonitorEvent V)}
    {payload payload' : MonitorEvent V → SerializationType → Except Failure Payload}
    (h : ∀ event ∈ events, ∀ type, publishedWith topics type event = true →
      payload event type = payload' event type) :
    batchAttempts topics events payload = batchAttempts topics events payload' := by
  apply List.flatMap_congr
  intro event hevent
  apply List.map_congr_left
  intro info hinfo
  rw [h event hevent info.serialization (publishedWith_iff.mpr (List.mem_map_of_mem hinfo))]

@[simp] theorem batchAttempts_setActive (topics : ChannelTopicsMap factory) (pvName : String)
    (value : Bool) (events : List (MonitorEvent V))
    (payload : MonitorEvent V → SerializationType → Except Failure Payload) :
    batchAttempts (topics.setActive pvName value) events payload =
      batchAttempts topics events payload := by
  simp only [batchAttempts, ChannelTopicsMap.registrations_setActive]

@[simp] theorem batchPayload_setActive (topics : ChannelTopicsMap factory) (pvName : String)
    (value : Bool) (events : List (MonitorEvent V)) (cache : SerializationCache Payload) :
    batchPayload (topics.setActive pvName value) events cache =
      batchPayload topics events cache := by
  funext event type
  simp only [batchPayload, encodedEvent, publishedWith_setActive]

/-- Where the attempts of an event come to no failure, its payloads are there. -/
theorem exists_cachedPayload {topics : ChannelTopicsMap factory} {event : MonitorEvent V}
    {payload : SerializationType → Except Failure Payload}
    (h : (untilFailure (eventAttempts event (topics.registrations event.channelData.pvName)
      payload)).2 = none) {type : SerializationType}
    (hpub : publishedWith topics type event = true) : ∃ value, payload type = .ok value := by
  obtain ⟨info, hinfo, rfl⟩ := List.mem_map.mp (publishedWith_iff.mp hpub)
  have hmem : (payload info.serialization).map (forwardedMessage event info) ∈
      eventAttempts event (topics.registrations event.channelData.pvName) payload :=
    List.mem_map_of_mem hinfo
  rw [← map_ok_untilFailure h] at hmem
  obtain ⟨message, -, hmessage⟩ := List.mem_map.mp hmem
  cases hpayload : payload info.serialization with
  | error failure => simp [hpayload, Except.map] at hmessage
  | ok value => exact ⟨value, rfl⟩

/-- The batch attempts, event by event, one push for each registration of the PV, until one
fails. -/
theorem forwardEvents_eq (events : List (MonitorEvent V)) (topics : ChannelTopicsMap factory)
    (cache : SerializationCache Payload) (hcache : NoNullMessage cache) :
    (forwardEvents factory events topics cache).outcome =
      untilFailure (batchAttempts topics events (batchPayload topics events cache)) := by
  induction events generalizing topics cache with
  | nil => rfl
  | cons event rest ih =>
      cases hfind : topics.find? event.channelData.pvName with
      | none =>
          have hnone := ChannelTopicsMap.registrations_of_find?_eq_none hfind
          have hskip : ∀ other type, batchPayload topics (event :: rest) cache other type =
              batchPayload topics rest cache other type := by
            intro other type
            simp [batchPayload, encodedEvent, publishedWith, hnone]
          simp only [forwardEvents, hfind, ih topics cache hcache, batchAttempts,
            List.flatMap_cons, hnone, eventAttempts, List.map_nil, List.nil_append, hskip]
      | some info =>
          have hregs := ChannelTopicsMap.registrations_of_find?_eq_some hfind
          have htypes : ∀ other ∈ info.cmdVec,
              factory.hasType other.serialization = true := by
            intro other hother
            exact ChannelTopicsMap.hasType_of_mem_registrations (hregs ▸ hother)
          obtain ⟨hevent, hstate⟩ := forwardEvent_eq event info.cmdVec cache hcache htypes
          have hhead : eventAttempts event info.cmdVec
                (batchPayload topics (event :: rest) cache event) =
              eventAttempts event info.cmdVec (cachedPayload factory event cache) := by
            apply List.map_congr_left
            intro other hother
            rw [batchPayload_head]
            rw [publishedWith_iff, hregs]
            exact List.mem_map_of_mem hother
          simp only [forwardEvents, hfind, batchAttempts, List.flatMap_cons, hregs, hhead]
          cases hfailure : (forwardEvent factory event info.cmdVec cache).failure with
          | some failure =>
              -- the other events of the batch are not looked at
              have hfailed := (congrArg Prod.snd hevent).symm.trans hfailure
              rw [untilFailure_append_of_failed hfailed, ← hevent]
              exact Prod.ext rfl hfailure.symm
          | none =>
              have hok := (congrArg Prod.snd hevent).symm.trans hfailure
              have hrest := ih (topics.setActive event.channelData.pvName true)
                (cacheAfter factory event info.cmdVec cache)
                (noNullMessage_cacheAfter hcache event info.cmdVec)
              have htail : batchAttempts topics rest (batchPayload topics rest
                  (cacheAfter factory event info.cmdVec cache)) =
                  batchAttempts topics rest (batchPayload topics (event :: rest) cache) := by
                apply batchAttempts_congr
                intro later _ type _
                rw [← hregs] at hok ⊢
                exact batchPayload_tail (fun type hpub => exists_cachedPayload hok hpub) rest
                  later type
              rw [batchPayload_setActive, batchAttempts_setActive, htail] at hrest
              rw [untilFailure_append hok, ← hevent, hstate hfailure]
              change ((forwardEvents factory rest (topics.setActive event.channelData.pvName true)
                (cacheAfter factory event info.cmdVec cache)).after _).outcome = _
              rw [Forwarded.outcome_after, hrest]
              rfl

end K2eg
