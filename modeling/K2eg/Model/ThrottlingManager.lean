import K2eg.Foundation.CheckedInt

/-! # The throttle of a channel

`ThrottlingManager` backs off while there are no events. Its counters and delays are `int`s: a
signed operation that overflows has no defined result, and the call that makes it gives `none`.
Only the counter of events is a `std::atomic<int>`, which wraps around. -/

namespace K2eg

structure ThrottlingStats where
  idleCounter : Int32 := 0
  totalIdleCycles : Int32 := 0
  totalEventsProcessed : Int32 := 0
  throttleUs : Int32 := 1
  deriving DecidableEq, Repr

/-- Without arguments this is the default constructor. -/
structure ThrottlingManager where
  stats : ThrottlingStats := ⟨0, 0, 0, 500⟩
  minThrottleUs : Int32 := 500
  maxThrottleUs : Int32 := 100000
  idleThreshold : Int32 := 10
  deriving DecidableEq, Repr

/-- A call of one of the methods that change the statistics. -/
inductive ThrottlingCall where
  | update (hadEvents : Bool)
  | reset
  | resetEventCounter
  deriving DecidableEq, Repr

namespace ThrottlingManager

/-- The constructor with arguments, which checks none of them. -/
def ofBounds (minUs maxUs threshold : Int32) : ThrottlingManager where
  stats := ⟨0, 0, 0, minUs⟩
  minThrottleUs := minUs
  maxThrottleUs := maxUs
  idleThreshold := threshold

example : ({} : ThrottlingManager) = ofBounds 500 100000 10 := rfl

/-- `update`, with the time in microseconds for which the calling thread sleeps, if it does. -/
def update (manager : ThrottlingManager) (hadEvents : Bool) :
    Option (ThrottlingManager × Option Int32) :=
  let stats := manager.stats
  if !hadEvents then do
    let idleCounter ← stats.idleCounter.checkedAdd 1
    let totalIdleCycles ← stats.totalIdleCycles.checkedAdd 1
    if manager.idleThreshold ≤ idleCounter then
      -- the product is an `int` before the minimum is taken
      let doubled ← stats.throttleUs.checkedMul 2
      let throttleUs := min doubled manager.maxThrottleUs
      some ({ manager with
        stats := { stats with idleCounter := 0, totalIdleCycles, throttleUs } }, some throttleUs)
    else some ({ manager with stats := { stats with idleCounter, totalIdleCycles } }, none)
  else
    some ({ manager with
      stats := { stats with
        idleCounter := 0
        totalEventsProcessed := stats.totalEventsProcessed + 1
        throttleUs := manager.minThrottleUs } }, none)

def getStats (manager : ThrottlingManager) : ThrottlingStats := manager.stats

def reset (manager : ThrottlingManager) : ThrottlingManager :=
  { manager with stats := ⟨0, 0, 0, manager.maxThrottleUs⟩ }

def resetEventCounter (manager : ThrottlingManager) : ThrottlingManager :=
  { manager with stats := { manager.stats with totalEventsProcessed := 0 } }

/-- One call on the manager. -/
def perform (manager : ThrottlingManager) : ThrottlingCall → Option ThrottlingManager
  | .update hadEvents => (manager.update hadEvents).map Prod.fst
  | .reset => some manager.reset
  | .resetEventCounter => some manager.resetEventCounter

/-- The calls in their order, as long as none overflows. -/
def run (manager : ThrottlingManager) (calls : List ThrottlingCall) : Option ThrottlingManager :=
  calls.foldlM perform manager

end ThrottlingManager

end K2eg
