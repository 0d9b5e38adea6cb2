import K2eg.Foundation.Multimap
import K2eg.Model.ChannelRepository
import Mathlib.Data.String.Basic

/-! # The node configuration

The monitors of a node live in the configuration service (a JSON document) and in the
channel repository. `NodeConfiguration` writes both. -/

namespace K2eg

/-- `PVMonitorInfo`. -/
structure PVMonitorInfo where
  pvDestinationTopic : String
  eventSerialization : UInt8
  deriving DecidableEq, Repr

/-- `PVMonitorInfoMap`: the cluster configuration of one node. -/
abbrev PVMonitorInfoMap := Multimap String PVMonitorInfo

/-- `isPresent`: the key has an entry with this topic and this serialization. -/
def PVMonitorInfoMap.isPresent (config : PVMonitorInfoMap) (pvName : String)
    (info : PVMonitorInfo) : Bool :=
  (config.equalRange pvName).any fun other =>
    decide (other.eventSerialization = info.eventSerialization ∧
      other.pvDestinationTopic = info.pvDestinationTopic)

/-- `removeFromKey`: the first entry of the key with this topic and this serialization. -/
def PVMonitorInfoMap.removeFromKey (config : PVMonitorInfoMap) (key : String)
    (info : PVMonitorInfo) : PVMonitorInfoMap :=
  config.eraseFirst key info

/-- One element of the `pv_monitor_map` array of the stored document. -/
structure ConfigItem where
  key : String
  dest : String
  ser : Int
  deriving DecidableEq, Repr

/-- The JSON document in the configuration service. -/
abbrev ConfigJson := List ConfigItem

/-- `config_to_json`. -/
def configToJson (config : PVMonitorInfoMap) : ConfigJson :=
  config.entries.map fun entry =>
    { key := entry.1, dest := entry.2.pvDestinationTopic,
      ser := entry.2.eventSerialization.toNat }

/-- The entry an item denotes; the serialization is cast back to a byte. -/
def ConfigItem.entry (item : ConfigItem) : String × PVMonitorInfo :=
  (item.key, ⟨item.dest, UInt8.ofNat (item.ser % 256).toNat⟩)

/-- `config_from_json`. -/
def configFromJson (json : ConfigJson) : PVMonitorInfoMap :=
  Multimap.empty.insertAll (json.map ConfigItem.entry)

/-- `NodeConfiguration`: the repository, the configuration in memory and the stored
document. The service creates an empty document on its first start, so one is present. -/
structure NodeConfiguration where
  channelRepository : ChannelRepository
  nodeConfiguration : PVMonitorInfoMap
  stored : ConfigJson

namespace NodeConfiguration

/-- The row `loadNodeConfiguration` inserts for an entry. -/
def entryDescription (entry : String × PVMonitorInfo) : ChannelMonitorType where
  pvName := entry.1
  eventSerialization := entry.2.eventSerialization
  channelDestination := entry.2.pvDestinationTopic

/-- Insert a row for each entry, in the order of the map. -/
def insertEntries (repository : ChannelRepository) (entries : List (String × PVMonitorInfo)) :
    ChannelRepository :=
  entries.foldl (fun repository entry => (repository.insert (entryDescription entry)).2)
    repository

/-- `NodeConfiguration::loadNodeConfiguration`. -/
def loadNodeConfiguration (node : NodeConfiguration) : NodeConfiguration :=
  let config := configFromJson node.stored
  { node with
    nodeConfiguration := config
    channelRepository := insertEntries node.channelRepository.removeAll config.entries }

/-- `new_conf_for_pv` of `addChannelMonitor` and `removeChannelMonitor`. -/
def infoOf (description : ChannelMonitorType) : PVMonitorInfo where
  pvDestinationTopic := description.channelDestination
  eventSerialization := description.eventSerialization

/-- The loop body of `addChannelMonitor`. -/
def addOne (node : NodeConfiguration) (description : ChannelMonitorType) :
    Bool × NodeConfiguration :=
  if node.nodeConfiguration.isPresent description.pvName (infoOf description) then
    (false, node)
  else
    let (inserted, repository) := node.channelRepository.insert description
    (inserted, { node with
      nodeConfiguration := node.nodeConfiguration.insert description.pvName (infoOf description)
      channelRepository := repository })

/-- The loop of `addChannelMonitor`, with its result vector. -/
def addLoop (node : NodeConfiguration) :
    List ChannelMonitorType → List Bool × NodeConfiguration
  | [] => ([], node)
  | description :: rest =>
    let (inserted, node) := node.addOne description
    let (results, node) := addLoop node rest
    (inserted :: results, node)

/-- `setNodeConfiguration` of the configuration service. -/
def store (node : NodeConfiguration) : NodeConfiguration :=
  { node with stored := configToJson node.nodeConfiguration }

/-- `NodeConfiguration::addChannelMonitor`. -/
def addChannelMonitor (node : NodeConfiguration) (descriptions : List ChannelMonitorType) :
    List Bool × NodeConfiguration :=
  let (results, node) := node.addLoop descriptions
  (results, node.store)

/-- The loop body of `removeChannelMonitor`. -/
def removeOne (node : NodeConfiguration) (description : ChannelMonitorType) :
    NodeConfiguration :=
  { node with
    channelRepository := node.channelRepository.remove description
    nodeConfiguration :=
      node.nodeConfiguration.removeFromKey description.pvName (infoOf description) }

/-- `NodeConfiguration::removeChannelMonitor`. -/
def removeChannelMonitor (node : NodeConfiguration) (descriptions : List ChannelMonitorType) :
    NodeConfiguration :=
  (descriptions.foldl removeOne node).store

/-- `NodeConfiguration::resetAllChannelMonitorCheck`. -/
def resetAllChannelMonitorCheck (node : NodeConfiguration) : NodeConfiguration :=
  { node with
    channelRepository := node.channelRepository.getDistinctByNameProtocol.foldl
      ChannelRepository.resetProcessStateChannel node.channelRepository }

end NodeConfiguration

end K2eg
