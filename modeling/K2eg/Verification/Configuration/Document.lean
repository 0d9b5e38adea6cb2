import K2eg.Model.ConfigurationDocument
import K2eg.Verification.Configuration.Channels

/-! # What the stored document denotes

An object of items is read as these items, and the object of a configuration as the
configuration. -/

namespace K2eg.ConfigurationDocument

/-! ## One item -/

/-- `value_to<int>` takes the number. -/
def IsInt32 (value : Int) : Prop := -2 ^ 31 ≤ value ∧ value < 2 ^ 31

theorem valueToInt32_int {value : Int} (h : IsInt32 value) :
    valueToInt32 (.int value) = .ok value := by
  rw [valueToInt32]
  exact if_pos h

theorem itemFromJson_itemToJson {item : ConfigItem} (h : IsInt32 item.ser) :
    itemFromJson (itemToJson item) = .ok item := by
  have hkey : atKey (itemToJson item) keyKey = .ok (.string item.key) := rfl
  have hdest : atKey (itemToJson item) keyDest = .ok (.string item.dest) := rfl
  have hser : atKey (itemToJson item) keySer = .ok (.int item.ser) := rfl
  rw [itemFromJson, hkey, hdest, hser]
  simp only [bind, Except.bind, valueToString, valueToInt32_int h]
  rfl

/-! ## The array -/

/-- The items are inserted one after the other, in the order of the array. -/
theorem insertItems_objects (cfg : PVMonitorInfoMap) {items : ConfigJson}
    (h : ∀ item ∈ items, IsInt32 item.ser) :
    insertItems cfg (items.map fun item => .object (itemToJson item)) =
      .ok (cfg.insertAll (items.map ConfigItem.entry)) := by
  induction items generalizing cfg with
  | nil => rfl
  | cons item rest ih =>
      obtain ⟨hitem, hrest⟩ := List.forall_mem_cons.mp h
      rw [List.map_cons, insertItems, itemFromJson_itemToJson hitem]
      exact ih (cfg.insert item.entry.1 item.entry.2) hrest

/-- The object denotes what its list of items denotes. -/
theorem configFromJson_document {items : ConfigJson}
    (h : ∀ item ∈ items, IsInt32 item.ser) :
    configFromJson (document items) = .ok (K2eg.configFromJson items) :=
  insertItems_objects .empty h

/-- A byte fits the number that is written for it. -/
theorem configToJson_isInt32 (cfg : PVMonitorInfoMap) :
    ∀ item ∈ K2eg.configToJson cfg, IsInt32 item.ser := by
  intro item hitem
  obtain ⟨entry, -, rfl⟩ := List.mem_map.mp hitem
  have hlt := entry.2.eventSerialization.toNat_lt
  exact ⟨by simp only; omega, by simp only; omega⟩

/-- The configuration that is read back is the one that was written. -/
theorem configFromJson_of_configToJson (cfg : PVMonitorInfoMap) :
    configFromJson (configToJson cfg) = .ok cfg := by
  rw [configToJson, configFromJson_document (configToJson_isInt32 cfg),
    K2eg.configFromJson_configToJson]

end K2eg.ConfigurationDocument
