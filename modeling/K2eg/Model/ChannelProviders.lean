import K2eg.Model.CommandWorkers
import K2eg.Model.EpicsServiceManager

/-! # The channels and their providers

The entries of `channel_map` with the channels they hold, and the four operations that take the
channel of an entry when there is one, and open their own otherwise. -/

namespace K2eg

/-- `EpicsChannel`, as far as it is given a provider. -/
structure EpicsChannel where
  provider : String
  pvName : String
  deriving DecidableEq, Repr, Inhabited

/-- `std::make_shared<EpicsChannel>(SELECT_PROVIDER(protocol), name)` -/
def openChannel (pv : PV) : EpicsChannel where
  provider := selectProvider pv.protocol
  pvName := pv.name

inductive ChannelOperation where
  | addChannel | getMonitorOp | getChannelData | putChannelData
  deriving DecidableEq, Repr

/-- An operation for a URI, and the channel that it works on. -/
structure ChannelUse where
  operation : ChannelOperation
  uri : String
  channel : EpicsChannel
  deriving DecidableEq, Repr

/-- The manager with the channels of its tasks, the URIs for which they were opened, and the
operations that took place. -/
structure ChannelService where
  manager : EpicsServiceManager := {}
  channels : ℕ → EpicsChannel := fun _ => default
  openedFor : ℕ → String := fun _ => ""
  uses : List ChannelUse := []

/-- A step of a caller or of a chain of `task` calls, or one of the other operations. -/
inductive ServiceStep where
  | manager (step : ManagerStep)
  | operation (operation : ChannelOperation) (uri : String)
  deriving DecidableEq, Repr

namespace ChannelService

/-- The channel that an operation takes: the one of the entry, or one of its own. -/
def channelFor (s : ChannelService) (pv : PV) : EpicsChannel :=
  match s.manager.channelMap pv.name with
  | some id => s.channels id
  | none => openChannel pv

/-- The operation for a URI; nothing is done for a malformed one. -/
def use (s : ChannelService) (operation : ChannelOperation) (uri : String) : ChannelService :=
  match sanitizePVName uri with
  | none => s
  | some pv => { s with uses := s.uses ++ [⟨operation, uri, s.channelFor pv⟩] }

/-- `addChannel`, with the channel of a new task. -/
def addChannel (s : ChannelService) (uri : String) : ChannelService :=
  match sanitizePVName uri with
  | none => s
  | some pv =>
    let added : ChannelService := { s.use .addChannel uri with
      manager := s.manager.addChannel uri }
    match s.manager.channelMap pv.name with
    | some _ => added
    | none =>
      { added with
        channels := Function.update s.channels s.manager.taskCount (openChannel pv)
        openedFor := Function.update s.openedFor s.manager.taskCount uri }

/-- The step of a party; `addChannel` is a step of the manager. -/
def next (s : ChannelService) : ServiceStep → Option ChannelService
  | .manager (.addChannel uri) => some (s.addChannel uri)
  | .manager step => (s.manager.next step).map fun manager => { s with manager }
  | .operation operation uri =>
    if operation = .addChannel then none else some (s.use operation uri)

end ChannelService

end K2eg
