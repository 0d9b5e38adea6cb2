import K2eg.Model.MapToCommand
import K2eg.Model.NodeConfiguration

/-! # The stored configuration as a JSON object

`config_to_json` and `config_from_json` on the JSON object itself, with what they throw. -/

namespace K2eg.ConfigurationDocument

def keyPvMonitorMap : String := "pv_monitor_map"
def keyKey : String := "key"
def keyDest : String := "dest"
def keySer : String := "ser"

/-- `object::at` -/
def atKey (obj : JsonObject) (key : String) : Except Failure Json :=
  match obj.lookup key with
  | none => .error .thrown
  | some value => .ok value

/-- `itemObj` of `config_to_json`. -/
def itemToJson (item : ConfigItem) : JsonObject :=
  Json.set keySer (.int item.ser) (Json.set keyDest (.string item.dest)
    (Json.set keyKey (.string item.key) []))

/-- The members that `config_from_json` reads of an `itemObj`. -/
def itemFromJson (itemObj : JsonObject) : Except Failure ConfigItem := do
  let key ← valueToString (← atKey itemObj keyKey)
  let dest ← valueToString (← atKey itemObj keyDest)
  let ser ← valueToInt32 (← atKey itemObj keySer)
  return { key, dest, ser }

/-- The loop of `config_from_json`: an item that is no object is passed over. -/
def insertItems (cfg : PVMonitorInfoMap) : List Json → Except Failure PVMonitorInfoMap
  | [] => .ok cfg
  | .object itemObj :: arr => do
    let item ← itemFromJson itemObj
    insertItems (cfg.insert item.entry.1 item.entry.2) arr
  | _ :: arr => insertItems cfg arr

/-- `config_from_json` -/
def configFromJson (obj : JsonObject) : Except Failure PVMonitorInfoMap :=
  match obj.lookup keyPvMonitorMap with
  | some (.array arr) => insertItems .empty arr
  | _ => .ok .empty

/-- The object of a list of items. -/
def document (items : ConfigJson) : JsonObject :=
  Json.set keyPvMonitorMap (.array (items.map fun item => .object (itemToJson item))) []

/-- `config_to_json` -/
def configToJson (cfg : PVMonitorInfoMap) : JsonObject :=
  document (K2eg.configToJson cfg)

end K2eg.ConfigurationDocument
