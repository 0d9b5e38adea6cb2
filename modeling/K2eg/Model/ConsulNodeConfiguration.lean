import K2eg.Model.ConfigurationDocument

/-! # The configuration in Consul

`ConsuleNodeConfiguration` keeps the configuration of a node under one key of the Consul server.
`NodeConfiguration` edits a copy in memory and writes it back at the end of each call. The process
may end between any two of their steps. -/

namespace K2eg

/-- What the loops of `addChannelMonitor` and `removeChannelMonitor` do for one description. -/
inductive ConfigEdit where
  | add (description : ChannelMonitorType)
  | remove (description : ChannelMonitorType)
  deriving DecidableEq

/-- Where the process is. -/
inductive NodePhase where
  | down
  /-- behind the constructor of `ConsuleNodeConfiguration` -/
  | created
  /-- behind `loadNodeConfiguration`, in no call -/
  | running
  /-- in a call, with the edits that are left -/
  | editing (rest : List ConfigEdit)
  deriving DecidableEq

/-- The node with its key in Consul: the value is the object of `node.stored`. The local database
outlives the process, but `loadNodeConfiguration` empties it. -/
structure ConsulNode where
  node : NodeConfiguration
  keyPresent : Bool := false
  phase : NodePhase := .down

/-- `stored` of a write tells whether the server takes it; its answer is not read. -/
inductive ConsulStep where
  /-- the constructor of `ConsuleNodeConfiguration` -/
  | create (resetOnStart stored : Bool)
  | loadNodeConfiguration
  | addChannelMonitor (descriptions : List ChannelMonitorType)
  | removeChannelMonitor (descriptions : List ChannelMonitorType)
  /-- a pass of the loop of the call -/
  | edit
  /-- the local database throws, and the exception leaves the call -/
  | throwEdit
  /-- `setNodeConfiguration` at the end of the call -/
  | setNodeConfiguration (stored : Bool)
  | crash

namespace ConsulNode

/-- A node whose key has never been written. -/
def start (channelRepository : ChannelRepository) : ConsulNode where
  node := { channelRepository, nodeConfiguration := .empty, stored := [] }

/-- `ConsuleNodeConfiguration::getNodeConfiguration`: `kvGet` throws where there is no such key. -/
def getNodeConfiguration (s : ConsulNode) : Except Failure PVMonitorInfoMap :=
  if s.keyPresent then
    ConfigurationDocument.configFromJson (ConfigurationDocument.document s.node.stored)
  else .error .thrown

/-- `kvPut` of the configuration. -/
def put (s : ConsulNode) (config : PVMonitorInfoMap) (stored : Bool) : ConsulNode :=
  if stored then
    { s with node := { s.node with stored := configToJson config }, keyPresent := true }
  else s

/-- The constructor of `ConsuleNodeConfiguration`. -/
def create (s : ConsulNode) (resetOnStart stored : Bool) : ConsulNode :=
  let s :=
    if resetOnStart then { s with node := { s.node with stored := [] }, keyPresent := false } else s
  let s := if s.keyPresent then s else s.put .empty stored
  { s with phase := .created }

/-- `NodeConfiguration::loadNodeConfiguration`; what it throws ends the process. -/
def loadNodeConfiguration (s : ConsulNode) : ConsulNode :=
  let channelRepository := s.node.channelRepository.removeAll
  match s.getNodeConfiguration with
  | .error _ => { s with node := { s.node with channelRepository }, phase := .down }
  | .ok config => { s with
      node := { s.node with
        nodeConfiguration := config
        channelRepository := NodeConfiguration.insertEntries channelRepository config.entries }
      phase := .running }

def edit (s : ConsulNode) : ConfigEdit → ConsulNode
  | .add description => { s with node := (s.node.addOne description).2 }
  | .remove description => { s with node := s.node.removeOne description }

/-- What a pass has done when the database throws: `addChannelMonitor` has changed the copy in
memory before, and does not come to the database where the entry is there. -/
def throwEdit (s : ConsulNode) : ConfigEdit → Option ConsulNode
  | .add description =>
    let info := NodeConfiguration.infoOf description
    if s.node.nodeConfiguration.isPresent description.pvName info then none
    else some { s with node := { s.node with
      nodeConfiguration := s.node.nodeConfiguration.insert description.pvName info } }
  | .remove _ => some s

def next (s : ConsulNode) : ConsulStep → Option ConsulNode
  | .create resetOnStart stored =>
    match s.phase with
    | .down => some (s.create resetOnStart stored)
    | _ => none
  | .loadNodeConfiguration =>
    match s.phase with
    | .created => some s.loadNodeConfiguration
    | _ => none
  | .addChannelMonitor descriptions =>
    match s.phase with
    | .running => some { s with phase := .editing (descriptions.map .add) }
    | _ => none
  | .removeChannelMonitor descriptions =>
    match s.phase with
    | .running => some { s with phase := .editing (descriptions.map .remove) }
    | _ => none
  | .edit =>
    match s.phase with
    | .editing (edit :: rest) => some { s.edit edit with phase := .editing rest }
    | _ => none
  | .throwEdit =>
    match s.phase with
    | .editing (edit :: _) =>
      (s.throwEdit edit).map fun s => { s with phase := .running }
    | _ => none
  | .setNodeConfiguration stored =>
    match s.phase with
    | .editing [] => some { s.put s.node.nodeConfiguration stored with phase := .running }
    | _ => none
  | .crash =>
    match s.phase with
    | .down => none
    | _ => some { s with phase := .down }

end ConsulNode

end K2eg
