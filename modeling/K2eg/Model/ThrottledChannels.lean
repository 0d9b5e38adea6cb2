import K2eg.Model.EpicsServiceManager
import K2eg.Model.ThrottlingManager

/-! # The throttles of the channels

Every entry of `channel_map` has a `ThrottlingManager` of its own. `EpicsServiceManager::task`
updates it after each poll, and nothing resets it. -/

namespace K2eg

/-- `EpicsServiceManagerConfig`, as far as the throttles are made from it. -/
structure EpicsServiceManagerConfig where
  pvMinThrottleUs : Int32 := 50
  pvMaxThrottleUs : Int32 := 50000
  pvIdleThreshold : Int32 := 10
  deriving DecidableEq, Repr

/-- The throttle that `addChannel` makes for a new entry. -/
def EpicsServiceManagerConfig.pvThrottle (config : EpicsServiceManagerConfig) :
    ThrottlingManager :=
  .ofBounds config.pvMinThrottleUs config.pvMaxThrottleUs config.pvIdleThreshold

/-- The manager with the throttles of its tasks, under their numbers. -/
structure ThrottledChannels where
  manager : EpicsServiceManager := {}
  throttles : ℕ → ThrottlingManager

namespace ThrottledChannels

def initial (config : EpicsServiceManagerConfig) : ThrottledChannels where
  throttles := fun _ => config.pvThrottle

/-- `addChannel`, with the throttle of a new task. -/
def addChannel (config : EpicsServiceManagerConfig) (s : ThrottledChannels) (uri : String) :
    ThrottledChannels :=
  let added := { s with manager := s.manager.addChannel uri }
  match sanitizePVName uri with
  | none => added
  | some pv =>
    match s.manager.channelMap pv.name with
    | some _ => added
    | none =>
      { added with
        throttles := Function.update s.throttles s.manager.taskCount config.pvThrottle }

/-- `poll`, with the update that ends the call of `task`: there were events if any were taken. -/
def poll (s : ThrottledChannels) (chain : ℕ) (received : Option Bool) :
    Option ThrottledChannels := do
  let manager ← s.manager.next (.poll chain received)
  let id := (s.manager.chains chain).entry
  let updated ← (s.throttles id).update received.isSome
  some { manager, throttles := Function.update s.throttles id updated.1 }

/-- The steps of the manager; an update that overflows leaves no state. -/
def next (config : EpicsServiceManagerConfig) (s : ThrottledChannels) :
    ManagerStep → Option ThrottledChannels
  | .addChannel uri => some (s.addChannel config uri)
  | .poll chain received => s.poll chain received
  | step => (s.manager.next step).map fun manager => { s with manager }

end ThrottledChannels

end K2eg
