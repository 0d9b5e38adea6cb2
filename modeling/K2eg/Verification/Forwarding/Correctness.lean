import K2eg.Verification.Forwarding.Cache

/-! # When a batch forwards every event faithfully -/

namespace K2eg

variable {V Payload : Type*} {factory : SerializerFactory V Payload}

/-- The payloads pushed for a PV to one destination with one serialization, in order. -/
def payloadsFor (pushed : List (PublishMessage Payload)) (pvName destination : String)
    (type : SerializationType) : List Payload :=
  (pushed.filter fun message => decide (message.queue = destination ∧
    message.distributionKey = pvName ∧
    message.serType = serializationToString type)).map PublishMessage.payload

/-- How often a PV is registered for a destination and a serialization. -/
def registrationCount (topics : ChannelTopicsMap factory) (pvName destination : String)
    (type : SerializationType) : ℕ :=
  (topics.registrations pvName).countP fun info =>
    decide (info.channelDestination = destination ∧ info.serialization = type)

/-- The encodings of the events of a PV, in order, once for each registration. -/
def eventPayloads (topics : ChannelTopicsMap factory) (events : List (MonitorEvent V))
    (pvName destination : String) (type : SerializationType) : List (Except Failure Payload) :=
  (events.filter fun event => decide (event.channelData.pvName = pvName)).flatMap fun event =>
    List.replicate (registrationCount topics pvName destination type)
      (factory.encode type event.channelData)

/-- The batch comes to its end, and every registered destination of every PV receives exactly the
encodings of the events of that PV in the batch, in order. -/
def ForwardsFaithfully (topics : ChannelTopicsMap factory) (received : EventReceived V) : Prop :=
  (epicsMonitorEvent factory topics received).failure = none ∧
    ∀ pvName destination type,
      (payloadsFor (epicsMonitorEvent factory topics received).pushed pvName destination
        type).map .ok = eventPayloads topics received.eventData pvName destination type

/-- Every event of the batch is accepted by the serializers it is published with, and events that
are published with the same serialization encode equally. -/
structure UniformBatch (topics : ChannelTopicsMap factory) (events : List (MonitorEvent V)) :
    Prop where
  accepted : ∀ type, ∀ event ∈ events, publishedWith topics type event = true →
    ∃ payload, factory.encode type event.channelData = .ok payload
  equal : ∀ type, ∀ first ∈ events, ∀ second ∈ events,
    publishedWith topics type first = true → publishedWith topics type second = true →
      factory.encode type first.channelData = factory.encode type second.channelData

/-! ## The payloads of one event -/

theorem payloadsFor_append (first second : List (PublishMessage Payload))
    (pvName destination : String) (type : SerializationType) :
    payloadsFor (first ++ second) pvName destination type =
      payloadsFor first pvName destination type ++
        payloadsFor second pvName destination type := by
  simp only [payloadsFor, List.filter_append, List.map_append]

/-- The attempts of an event without failure push its payload once for each registration. -/
theorem payloadsFor_eventAttempts {event : MonitorEvent V} {infos : List ChannelMonitorType}
    {payload : SerializationType → Except Failure Payload}
    {pushed : List (PublishMessage Payload)}
    (h : pushed.map .ok = eventAttempts event infos payload) (destination : String)
    (type : SerializationType) :
    (payloadsFor pushed event.channelData.pvName destination type).map .ok =
      List.replicate (infos.countP fun info => decide
        (info.channelDestination = destination ∧ info.serialization = type))
        (payload type) := by
  induction infos generalizing pushed with
  | nil =>
      obtain rfl : pushed = [] := List.map_eq_nil_iff.mp h
      rfl
  | cons info rest ih =>
      obtain ⟨message, later, rfl, hmessage, hlater⟩ := List.map_eq_cons_iff.mp h
      have hrest := ih hlater
      cases hpayload : payload info.serialization with
      | error failure => simp [hpayload, Except.map] at hmessage
      | ok value =>
          obtain rfl : message = forwardedMessage event info value := by
            simpa [hpayload, Except.map] using hmessage
          have hser : serializationToString info.serialization = serializationToString type ↔
              info.serialization = type := serializationToString_injective.eq_iff
          by_cases hinfo : info.channelDestination = destination ∧ info.serialization = type
          · obtain ⟨rfl, rfl⟩ := hinfo
            simpa [payloadsFor, forwardedMessage, hpayload, List.replicate_succ] using hrest
          · simpa [payloadsFor, forwardedMessage, hser, hinfo] using hrest

theorem payloadsFor_eventAttempts_of_ne {event : MonitorEvent V} {pvName : String}
    (hne : event.channelData.pvName ≠ pvName) {infos : List ChannelMonitorType}
    {payload : SerializationType → Except Failure Payload}
    {pushed : List (PublishMessage Payload)}
    (h : pushed.map .ok = eventAttempts event infos payload) (destination : String)
    (type : SerializationType) : payloadsFor pushed pvName destination type = [] := by
  have hkey : ∀ message ∈ pushed, message.distributionKey ≠ pvName := by
    intro message hmessage
    have hattempt : (.ok message : Except Failure (PublishMessage Payload)) ∈
        eventAttempts event infos payload := h ▸ List.mem_map_of_mem hmessage
    obtain ⟨info, -, hinfo⟩ := List.mem_map.mp hattempt
    cases hpayload : payload info.serialization with
    | error failure => simp [hpayload, Except.map] at hinfo
    | ok value =>
        obtain rfl : forwardedMessage event info value = message := by
          simpa [hpayload, Except.map] using hinfo
        exact hne
  rw [payloadsFor, List.map_eq_nil_iff, List.filter_eq_nil_iff]
  intro message hmessage
  simp [hkey message hmessage]

/-- What a batch without failure pushes to a registration: the payloads, event by event. -/
theorem payloadsFor_batchAttempts {topics : ChannelTopicsMap factory}
    {events : List (MonitorEvent V)}
    {payload : MonitorEvent V → SerializationType → Except Failure Payload}
    {pushed : List (PublishMessage Payload)}
    (h : pushed.map .ok = batchAttempts topics events payload) (pvName destination : String)
    (type : SerializationType) :
    (payloadsFor pushed pvName destination type).map .ok =
      (events.filter fun event => decide (event.channelData.pvName = pvName)).flatMap
        fun event => List.replicate (registrationCount topics pvName destination type)
          (payload event type) := by
  induction events generalizing pushed with
  | nil =>
      obtain rfl : pushed = [] := List.map_eq_nil_iff.mp h
      rfl
  | cons event rest ih =>
      obtain ⟨first, later, rfl, hfirst, hlater⟩ := List.map_eq_append_iff.mp h
      rw [payloadsFor_append, List.map_append, ih hlater]
      by_cases hname : event.channelData.pvName = pvName
      · subst pvName
        rw [payloadsFor_eventAttempts hfirst]
        simp [registrationCount]
      · rw [payloadsFor_eventAttempts_of_ne hname hfirst]
        simp [hname]

/-! ## The whole batch -/

theorem batchPayload_nil (topics : ChannelTopicsMap factory) (events : List (MonitorEvent V))
    (event : MonitorEvent V) (type : SerializationType) :
    batchPayload topics events (fun _ => none) event type =
      factory.encode type (encodedEvent topics events type event).channelData := rfl

/-- The event whose encoding is published is itself an event of the batch published with
that serialization. -/
theorem encodedEvent_spec {topics : ChannelTopicsMap factory} {events : List (MonitorEvent V)}
    {event : MonitorEvent V} {type : SerializationType} (hmem : event ∈ events)
    (hpub : publishedWith topics type event = true) :
    encodedEvent topics events type event ∈ events ∧
      publishedWith topics type (encodedEvent topics events type event) = true := by
  unfold encodedEvent
  cases hfind : events.find? (publishedWith topics type) with
  | none => exact absurd hpub (List.find?_eq_none.mp hfind event hmem)
  | some other => exact ⟨List.mem_of_find?_eq_some hfind, List.find?_some hfind⟩

/-- All events published with a serialization share one encoded event. -/
theorem encodedEvent_eq {topics : ChannelTopicsMap factory} {events : List (MonitorEvent V)}
    {first : MonitorEvent V} {type : SerializationType} (hmem : first ∈ events)
    (hpub : publishedWith topics type first = true) (second : MonitorEvent V) :
    encodedEvent topics events type first = encodedEvent topics events type second := by
  unfold encodedEvent
  cases hfind : events.find? (publishedWith topics type) with
  | none => exact absurd hpub (List.find?_eq_none.mp hfind first hmem)
  | some other => rfl

theorem exists_count_ne_zero {topics : ChannelTopicsMap factory} {event : MonitorEvent V}
    {type : SerializationType} (h : publishedWith topics type event = true) :
    ∃ destination,
      registrationCount topics event.channelData.pvName destination type ≠ 0 := by
  obtain ⟨info, hinfo, htype⟩ := List.mem_map.mp (publishedWith_iff.mp h)
  refine ⟨info.channelDestination, Nat.pos_iff_ne_zero.mp (List.countP_pos_iff.mpr ?_)⟩
  exact ⟨info, hinfo, decide_eq_true ⟨rfl, htype⟩⟩

/-- Two runs of equal blocks agree only if the blocks agree one by one. -/
theorem eq_of_flatMap_replicate_eq {α β : Type*} {n : ℕ} (hn : n ≠ 0) {f g : α → β} :
    ∀ {xs : List α}, (xs.flatMap fun x => List.replicate n (f x)) =
      (xs.flatMap fun x => List.replicate n (g x)) → ∀ x ∈ xs, f x = g x
  | [], _ => by simp
  | x :: xs, h => by
      rw [List.flatMap_cons, List.flatMap_cons] at h
      obtain ⟨hhead, htail⟩ := List.append_inj h (by simp)
      intro y hy
      rcases List.mem_cons.mp hy with rfl | hy
      · exact List.eq_of_mem_replicate (hhead ▸ List.mem_replicate.mpr ⟨hn, rfl⟩)
      · exact eq_of_flatMap_replicate_eq hn htail y hy

theorem publishedWith_deactivateFailed (events : List (MonitorEvent V))
    (topics : ChannelTopicsMap factory) (type : SerializationType) :
    publishedWith (V := V) (deactivateFailed events topics) type = publishedWith topics type := by
  funext event
  simp only [publishedWith, registrations_deactivateFailed]

theorem batchPayload_deactivateFailed (failed : List (MonitorEvent V))
    (topics : ChannelTopicsMap factory) (events : List (MonitorEvent V))
    (cache : SerializationCache Payload) :
    batchPayload (deactivateFailed failed topics) events cache =
      batchPayload topics events cache := by
  funext event type
  simp only [batchPayload, encodedEvent, publishedWith_deactivateFailed]

/-- The attempts of a batch whose events are accepted all succeed. -/
theorem untilFailure_of_uniform {topics : ChannelTopicsMap factory}
    {events : List (MonitorEvent V)} (h : UniformBatch topics events) :
    (untilFailure (batchAttempts topics events fun event type =>
      factory.encode type event.channelData)).2 = none := by
  apply untilFailure_eq_none
  intro attempt hattempt
  obtain ⟨event, hevent, hattempt⟩ := List.mem_flatMap.mp hattempt
  obtain ⟨info, hinfo, rfl⟩ := List.mem_map.mp hattempt
  obtain ⟨payload, hencode⟩ := h.accepted info.serialization event hevent
    (publishedWith_iff.mpr (List.mem_map_of_mem hinfo))
  exact ⟨forwardedMessage event info payload, by simp only [hencode, Except.map]⟩

/-- What the batch pushes, and how it fails. -/
theorem epicsMonitorEvent_eq (topics : ChannelTopicsMap factory) (received : EventReceived V) :
    (epicsMonitorEvent factory topics received).outcome =
      untilFailure (batchAttempts topics received.eventData
        (batchPayload topics received.eventData fun _ => none)) := by
  unfold epicsMonitorEvent
  by_cases hempty : topics.entries.length = 0
  · have hnone := ChannelTopicsMap.registrations_of_entries_eq_nil
      (List.length_eq_zero_iff.mp hempty)
    have hattempts : batchAttempts topics received.eventData
        (batchPayload topics received.eventData fun _ => none) = [] := by
      simp [batchAttempts, eventAttempts, hnone]
    rw [if_pos hempty, hattempts]
    rfl
  · rw [if_neg hempty, forwardEvents_eq _ _ _ fun type => by simp]
    simp only [batchAttempts, batchPayload_deactivateFailed, registrations_deactivateFailed]

/-- The batch forwards faithfully exactly when its events are accepted by the serializers and those
published with one serialization encode equally. -/
theorem forwardsFaithfully_iff (topics : ChannelTopicsMap factory)
    (received : EventReceived V) :
    ForwardsFaithfully topics received ↔ UniformBatch topics received.eventData := by
  have houtcome := epicsMonitorEvent_eq topics received
  constructor
  · -- every event published with the type is encoded as the first such event
    rintro ⟨hfailure, h⟩
    have hattempts := map_ok_untilFailure ((congrArg Prod.snd houtcome).symm.trans hfailure)
    rw [← houtcome] at hattempts
    have hevent : ∀ type, ∀ event ∈ received.eventData,
        publishedWith topics type event = true → ∃ payload,
          factory.encode type (encodedEvent topics received.eventData type event).channelData =
            .ok payload ∧ factory.encode type event.channelData = .ok payload := by
      intro type event hevent hpub
      obtain ⟨destination, hcount⟩ := exists_count_ne_zero hpub
      have hpayloads := payloadsFor_batchAttempts hattempts event.channelData.pvName destination
        type
      have hlists := h event.channelData.pvName destination type
      have hsame := eq_of_flatMap_replicate_eq hcount (hpayloads.symm.trans hlists) event
        (by simp [hevent])
      have hmem : factory.encode type event.channelData ∈
          eventPayloads topics received.eventData event.channelData.pvName destination type :=
        List.mem_flatMap.mpr ⟨event, by simp [hevent], List.mem_replicate.mpr ⟨hcount, rfl⟩⟩
      rw [← hlists] at hmem
      obtain ⟨payload, -, hpayload⟩ := List.mem_map.mp hmem
      exact ⟨payload, hsame.trans hpayload.symm, hpayload.symm⟩
    refine ⟨fun type event hmem hpub => ?_, ?_⟩
    · obtain ⟨payload, -, hpayload⟩ := hevent type event hmem hpub
      exact ⟨payload, hpayload⟩
    · intro type first hfirst second hsecond hpub hpub'
      obtain ⟨payload, hencoded, hpayload⟩ := hevent type first hfirst hpub
      obtain ⟨payload', hencoded', hpayload'⟩ := hevent type second hsecond hpub'
      rw [hpayload, hpayload', ← hencoded, ← hencoded', encodedEvent_eq hfirst hpub second]
  · intro huniform
    have hpayload : ∀ event ∈ received.eventData, ∀ type,
        publishedWith topics type event = true →
          batchPayload topics received.eventData (fun _ => none) event type =
            factory.encode type event.channelData := by
      intro event hmem type hpub
      obtain ⟨hmem', hpub'⟩ := encodedEvent_spec hmem hpub
      rw [batchPayload_nil, huniform.equal type _ hmem' _ hmem hpub' hpub]
    rw [batchAttempts_congr hpayload] at houtcome
    have hfailure := untilFailure_of_uniform huniform
    have hattempts := map_ok_untilFailure hfailure
    rw [← houtcome] at hfailure hattempts
    exact ⟨hfailure, payloadsFor_batchAttempts hattempts⟩

/-- No serializer accepts an event without a structure. -/
theorem not_encodes_of_null {message : ChannelData PVStructure} (h : message.data = none)
    (type : SerializationType) (payload : SerializedMessage) :
    epicsSerializerFactory.encode type message ≠ .ok payload := by
  cases type with
  | unknown => exact nofun
  | json => simp [epicsSerializerFactory, JsonSerializer.serialize, JsonSerializer.serializeInto, h,
      Except.map, Bind.bind, Except.bind]
  | msgpack =>
      cases hname : packString message.pvName <;>
        simp [epicsSerializerFactory, MsgPackSerializer.serialize,
          MsgPackSerializer.serializeInto, h, hname, Except.map, Bind.bind, Except.bind]
  | msgpackCompact =>
      simp [epicsSerializerFactory, MsgpackCompactSerializer.serialize, h, Except.map]

/-- An event without a structure is accepted by no serializer, so that a batch that publishes one
fails. -/
theorem not_forwardsFaithfully_of_null {topics : ChannelTopicsMap epicsSerializerFactory}
    {received : EventReceived PVStructure} {event : MonitorEvent PVStructure}
    (hevent : event ∈ received.eventData) (hdata : event.channelData.data = none)
    (hregs : topics.registrations event.channelData.pvName ≠ []) :
    ¬ ForwardsFaithfully topics received := by
  obtain ⟨info, hinfo⟩ := List.exists_mem_of_ne_nil _ hregs
  rw [forwardsFaithfully_iff]
  intro huniform
  obtain ⟨payload, hpayload⟩ := huniform.accepted info.serialization event hevent
    (publishedWith_iff.mpr (List.mem_map_of_mem hinfo))
  exact not_encodes_of_null hdata info.serialization payload hpayload

/-! ## A batch of two samples -/

/-- A serializer that writes the number a channel carries. -/
def numberFactory : SerializerFactory ℕ (Option ℕ) where
  hasType type := decide (type ≠ .unknown)
  unknown_unregistered := rfl
  encode _ message := .ok message.data

/-- One PV, registered for one topic. -/
def oneRegistration : ChannelTopicsMap numberFactory where
  entries := [("pv", { active := true, cmdVec :=
    [{ pvName := "pva://pv", eventSerialization := 3, channelDestination := "topic" }] })]
  keys_nodup := by simp
  serializable := by
    simp [numberFactory, ChannelMonitorType.serialization, SerializationType.ofByte]

/-- The two samples one `poll` found in the monitor queue. -/
def twoSamples : EventReceived ℕ where
  eventData := [⟨.data, "", ⟨"pv", some 1⟩⟩, ⟨.data, "", ⟨"pv", some 2⟩⟩]

/-- The first sample is published twice and the second one is lost. -/
theorem not_forwardsFaithfully_twoSamples : ¬ ForwardsFaithfully oneRegistration twoSamples := by
  rintro ⟨-, h⟩
  have hpushed : payloadsFor (epicsMonitorEvent numberFactory oneRegistration twoSamples).pushed
      "pv" "topic" .json = [some 1, some 1] := by decide
  have hexpected : eventPayloads oneRegistration twoSamples.eventData "pv" "topic" .json =
      [.ok (some 1), .ok (some 2)] := rfl
  have hpayloads := h "pv" "topic" .json
  rw [hpushed, hexpected] at hpayloads
  simp at hpayloads

end K2eg
