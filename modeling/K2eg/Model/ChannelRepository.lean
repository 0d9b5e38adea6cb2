import Mathlib.Data.List.Basic

/-! # The channel repository

`ChannelRepository` keeps the monitors of the node in a table of the local database. -/

namespace K2eg

/-- `ChannelMonitorType`: a requested monitor, and one row of the table. -/
structure ChannelMonitorType where
  id : Int := -1
  pvName : String
  eventSerialization : UInt8
  channelDestination : String
  processed : Bool := false
  counter : Int := 1
  startPurgeTs : Int := -1
  deriving DecidableEq, Repr

/-- The `where` clause of `insert` and `remove`: same PV and same destination. -/
def ChannelMonitorType.sameChannel (row description : ChannelMonitorType) : Bool :=
  decide (row.pvName = description.pvName ∧
    row.channelDestination = description.channelDestination)

/-- The table `channel_monitor`: its rows in id order and the next autoincrement id. -/
structure ChannelRepository where
  rows : List ChannelMonitorType := []
  nextId : Int := 1
  deriving DecidableEq, Repr

namespace ChannelRepository

/-- `ChannelRepository::insert`. A channel that is present keeps its row, with the purge
timestamp reset; `counter` is not a column, so its increment is not stored. -/
def insert (repository : ChannelRepository) (description : ChannelMonitorType) :
    Bool × ChannelRepository :=
  match repository.rows.find? fun row => row.sameChannel description with
  | none =>
    (true, {
      rows := repository.rows ++ [{ description with
        id := repository.nextId, processed := false, counter := 1, startPurgeTs := -1 }]
      nextId := repository.nextId + 1 })
  | some present =>
    (false, { repository with
      rows := repository.rows.map fun row =>
        if row.id = present.id then { row with startPurgeTs := -1 } else row })

/-- `ChannelRepository::remove`: every row of the channel, whatever its serialization. -/
def remove (repository : ChannelRepository) (description : ChannelMonitorType) :
    ChannelRepository :=
  { repository with rows := repository.rows.filter fun row => !row.sameChannel description }

/-- `ChannelRepository::removeAll`. -/
def removeAll (repository : ChannelRepository) : ChannelRepository :=
  { repository with rows := [] }

/-! ## Scanning -/

/-- `getDistinctByNameProtocol`: the PV names of the rows, each once. -/
def getDistinctByNameProtocol (repository : ChannelRepository) : List String :=
  (repository.rows.map ChannelMonitorType.pvName).eraseDups

/-- `getNextChannelMonitorToProcess`. -/
def getNextChannelMonitorToProcess (repository : ChannelRepository) (pvName : String) :
    Option ChannelMonitorType :=
  repository.rows.find? fun row => decide (row.pvName = pvName) && !row.processed

/-- The updates of one row, found by its id. -/
def updateRow (repository : ChannelRepository) (id : Int)
    (update : ChannelMonitorType → ChannelMonitorType) : ChannelRepository :=
  { repository with rows := repository.rows.map fun row => if row.id = id then update row else row }

def setProcessStateChannel (repository : ChannelRepository) (id : Int) (processState : Bool) :
    ChannelRepository :=
  repository.updateRow id fun row => { row with processed := processState }

/-- `setStartPurgeTimeStamp`, at a reading of the system clock in seconds. -/
def setStartPurgeTimeStamp (repository : ChannelRepository) (id : Int) (now : Int) :
    ChannelRepository :=
  repository.updateRow id fun row => { row with startPurgeTs := now }

def resetStartPurgeTimeStamp (repository : ChannelRepository) (id : Int) : ChannelRepository :=
  repository.updateRow id fun row => { row with startPurgeTs := -1 }

def resetProcessStateChannel (repository : ChannelRepository) (pvName : String) :
    ChannelRepository :=
  { repository with
    rows := repository.rows.map fun row =>
      if row.pvName = pvName then { row with processed := false } else row }

end ChannelRepository

end K2eg
