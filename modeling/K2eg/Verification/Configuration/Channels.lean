import K2eg.Model.NodeConfiguration

/-! # One serialization per channel

A channel is a PV and a destination. The repository holds one row of a channel, while the
configuration may hold several entries that differ in their serialization. -/

namespace K2eg

/-! ## The repository -/

namespace ChannelRepository

/-- The repository holds a row with this PV, destination and serialization. -/
def Holds (repository : ChannelRepository) (pvName destination : String)
    (serialization : UInt8) : Prop :=
  ∃ row ∈ repository.rows, row.pvName = pvName ∧ row.channelDestination = destination ∧
    row.eventSerialization = serialization

/-- No channel has two rows. -/
def Unique (repository : ChannelRepository) : Prop :=
  repository.rows.Pairwise fun a b => a.sameChannel b = false

/-- The serialization of the first row of a channel. -/
def serializationOf (repository : ChannelRepository) (pvName destination : String) :
    Option UInt8 :=
  (repository.rows.find? fun row => decide
    (row.pvName = pvName ∧ row.channelDestination = destination)).map
      ChannelMonitorType.eventSerialization

theorem holds_iff {repository : ChannelRepository} (h : repository.Unique)
    {pvName destination : String} {serialization : UInt8} :
    repository.Holds pvName destination serialization ↔
      repository.serializationOf pvName destination = some serialization := by
  obtain ⟨rows, nextId⟩ := repository
  simp only [Unique, Holds, serializationOf] at h ⊢
  induction rows with
  | nil => simp
  | cons row rest ih =>
      obtain ⟨hrow, hrest⟩ := List.pairwise_cons.mp h
      by_cases hsame : row.pvName = pvName ∧ row.channelDestination = destination
      · obtain ⟨rfl, rfl⟩ := hsame
        have hnone : ∀ other ∈ rest, ¬ (other.pvName = row.pvName ∧
            other.channelDestination = row.channelDestination) := by
          intro other hother heq
          have := hrow other hother
          simp [ChannelMonitorType.sameChannel, heq.1, heq.2] at this
        constructor
        · rintro ⟨other, hother, hpv, hdest, hser⟩
          rcases List.mem_cons.mp hother with rfl | hmem
          · simp [hser]
          · exact absurd ⟨hpv, hdest⟩ (hnone other hmem)
        · intro hser
          exact ⟨row, by simp, rfl, rfl, by simpa using hser⟩
      · rw [List.find?_cons_of_neg (by simpa using hsame), ← ih hrest]
        constructor
        · rintro ⟨other, hother, hpv, hdest, hser⟩
          rcases List.mem_cons.mp hother with rfl | hmem
          · exact absurd ⟨hpv, hdest⟩ hsame
          · exact ⟨other, hmem, hpv, hdest, hser⟩
        · rintro ⟨other, hother, hall⟩
          exact ⟨other, List.mem_cons_of_mem _ hother, hall⟩

theorem unique_removeAll (repository : ChannelRepository) : repository.removeAll.Unique :=
  List.Pairwise.nil

@[simp] theorem serializationOf_removeAll (repository : ChannelRepository)
    (pvName destination : String) :
    repository.removeAll.serializationOf pvName destination = none := rfl

/-- Resetting a purge timestamp touches no channel. -/
private theorem map_reset_channel (rows : List ChannelMonitorType) (id : Int)
    (pvName destination : String) :
    ((rows.map fun row => if row.id = id then { row with startPurgeTs := -1 } else row).find?
      fun row => decide (row.pvName = pvName ∧ row.channelDestination = destination)).map
        ChannelMonitorType.eventSerialization =
    (rows.find? fun row => decide
      (row.pvName = pvName ∧ row.channelDestination = destination)).map
        ChannelMonitorType.eventSerialization := by
  rw [List.find?_map, Option.map_map]
  congr 1
  · funext row
    by_cases hid : row.id = id <;> simp [hid]
  · congr 1
    funext row
    by_cases hid : row.id = id <;> simp [hid]

/-- A channel that has a serialization keeps it; a new channel gets the one requested. -/
theorem serializationOf_insert (repository : ChannelRepository)
    (description : ChannelMonitorType) (pvName destination : String) :
    (repository.insert description).2.serializationOf pvName destination =
      (repository.serializationOf pvName destination).or
        (if description.pvName = pvName ∧ description.channelDestination = destination then
          some description.eventSerialization else none) := by
  unfold insert
  cases hfind : repository.rows.find? fun row => row.sameChannel description with
  | none =>
      simp only [serializationOf, List.find?_append, List.find?_singleton, Option.map_or]
      by_cases hsame : description.pvName = pvName ∧ description.channelDestination = destination
      · simp [hsame]
      · simp [hsame]
  | some present =>
      simp only [serializationOf, map_reset_channel]
      by_cases hsame : description.pvName = pvName ∧ description.channelDestination = destination
      · obtain ⟨rfl, rfl⟩ := hsame
        simp only [ChannelMonitorType.sameChannel] at hfind
        rw [hfind]
        rfl
      · simp [hsame]

theorem unique_insert {repository : ChannelRepository} (h : repository.Unique)
    (description : ChannelMonitorType) : (repository.insert description).2.Unique := by
  unfold insert
  cases hfind : repository.rows.find? fun row => row.sameChannel description with
  | none =>
      refine List.pairwise_append.mpr ⟨h, by simp, ?_⟩
      intro row hrow new hnew
      rw [List.mem_singleton] at hnew
      subst hnew
      simpa [ChannelMonitorType.sameChannel] using List.find?_eq_none.mp hfind row hrow
  | some present =>
      refine List.pairwise_map.mpr (h.imp ?_)
      intro a b hab
      by_cases ha : a.id = present.id <;> by_cases hb : b.id = present.id <;>
        simpa [ha, hb, ChannelMonitorType.sameChannel] using hab

theorem unique_remove {repository : ChannelRepository} (h : repository.Unique)
    (description : ChannelMonitorType) : (repository.remove description).Unique :=
  h.filter _

theorem serializationOf_remove_self (repository : ChannelRepository)
    (description : ChannelMonitorType) :
    (repository.remove description).serializationOf description.pvName
      description.channelDestination = none := by
  simp only [serializationOf, remove, Option.map_eq_none_iff, List.find?_eq_none]
  intro row hrow
  have hkept := (List.mem_filter.mp hrow).2
  simpa only [ChannelMonitorType.sameChannel, Bool.not_eq_true', decide_eq_true_eq,
    decide_eq_false_iff_not] using hkept

theorem serializationOf_remove_of_ne (repository : ChannelRepository)
    {description : ChannelMonitorType} {pvName destination : String}
    (h : ¬ (description.pvName = pvName ∧ description.channelDestination = destination)) :
    (repository.remove description).serializationOf pvName destination =
      repository.serializationOf pvName destination := by
  simp only [serializationOf, remove, List.find?_filter]
  congr 2
  funext row
  by_cases hsame : row.pvName = pvName ∧ row.channelDestination = destination
  · obtain ⟨rfl, rfl⟩ := hsame
    have : row.sameChannel description = false := by
      simp only [ChannelMonitorType.sameChannel, decide_eq_false_iff_not]
      exact fun heq => h ⟨heq.1.symm, heq.2.symm⟩
    simp [this]
  · simp [hsame]

end ChannelRepository

/-! ## The configuration -/

namespace PVMonitorInfoMap

/-- The serialization of the first entry of a channel. -/
def serializationOf (config : PVMonitorInfoMap) (pvName destination : String) : Option UInt8 :=
  ((config.equalRange pvName).find? fun info =>
    decide (info.pvDestinationTopic = destination)).map PVMonitorInfo.eventSerialization

theorem serializationOf_insert (config : PVMonitorInfoMap) (key : String)
    (info : PVMonitorInfo) (pvName destination : String) :
    serializationOf (config.insert key info) pvName destination =
      (serializationOf config pvName destination).or
        (if key = pvName ∧ info.pvDestinationTopic = destination then
          some info.eventSerialization else none) := by
  unfold serializationOf
  by_cases hkey : key = pvName
  · subst key
    rw [Multimap.equalRange_insert_self, List.find?_append, Option.map_or]
    by_cases hdest : info.pvDestinationTopic = destination <;> simp [hdest]
  · rw [Multimap.equalRange_insert_of_ne _ (Ne.symm hkey)]
    simp [hkey]

private theorem find?_erase_of_not {α : Type*} [DecidableEq α] {p : α → Bool} {a : α}
    (h : p a = false) (l : List α) : (l.erase a).find? p = l.find? p := by
  induction l with
  | nil => rfl
  | cons x xs ih =>
      by_cases hx : x = a
      · subst x
        rw [List.erase_cons_head, List.find?_cons_of_neg (by simp [h])]
      · rw [List.erase_cons_tail (by simpa using hx), List.find?_cons, List.find?_cons, ih]

theorem serializationOf_removeFromKey_of_ne (config : PVMonitorInfoMap) {key : String}
    {info : PVMonitorInfo} {pvName destination : String}
    (h : ¬ (key = pvName ∧ info.pvDestinationTopic = destination)) :
    serializationOf (config.removeFromKey key info) pvName destination =
      serializationOf config pvName destination := by
  unfold serializationOf removeFromKey
  by_cases hkey : key = pvName
  · subst key
    rw [Multimap.equalRange_eraseFirst_self, find?_erase_of_not]
    simpa using h
  · rw [Multimap.equalRange_eraseFirst_of_ne _ (Ne.symm hkey)]

theorem serializationOf_eq_none_iff {config : PVMonitorInfoMap} {pvName destination : String} :
    serializationOf config pvName destination = none ↔
      ∀ serialization, (config.equalRange pvName).count ⟨destination, serialization⟩ = 0 := by
  simp only [serializationOf, Option.map_eq_none_iff, List.find?_eq_none, List.count_eq_zero,
    decide_eq_true_eq]
  constructor
  · exact fun h serialization hmem => h _ hmem rfl
  · rintro h ⟨topic, serialization⟩ hmem rfl
    exact h serialization hmem

theorem count_removeFromKey (config : PVMonitorInfoMap) (key pvName : String)
    (info other : PVMonitorInfo) :
    (Multimap.equalRange (config.removeFromKey key info) pvName).count other =
      (config.equalRange pvName).count other -
        (if key = pvName ∧ info = other then 1 else 0) := by
  unfold removeFromKey
  by_cases hkey : key = pvName
  · subst key
    rw [Multimap.equalRange_eraseFirst_self, List.count_erase]
    by_cases hinfo : info = other <;> simp [hinfo]
  · rw [Multimap.equalRange_eraseFirst_of_ne _ (Ne.symm hkey)]
    simp [hkey]

end PVMonitorInfoMap

/-- The stored document denotes the configuration it was written from. -/
theorem configFromJson_configToJson (config : PVMonitorInfoMap) :
    configFromJson (configToJson config) = config := by
  have hentries : (configToJson config).map ConfigItem.entry = config.entries := by
    rw [configToJson, List.map_map]
    refine (List.map_congr_left ?_).trans (List.map_id _)
    rintro ⟨key, topic, serialization⟩ -
    have hlt := serialization.toNat_lt
    have hbyte : ((serialization.toNat : Int) % 256).toNat = serialization.toNat := by omega
    simp [ConfigItem.entry, hbyte]
  rw [configFromJson, hentries, Multimap.insertAll_empty_entries]

end K2eg
