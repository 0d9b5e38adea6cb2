import Mathlib.Data.Nat.Notation
import Mathlib.Logic.Function.Basic

/-! # The iteration synchronizer

`SnapshotIterationSynchronizer` keeps, under the name of a snapshot, the current iteration
and the state of the iterations that are not released. The entries of one name make up an
`IterationSync`; a name without entries has the default one. -/

namespace K2eg

/-- `IterationState`. -/
structure IterationState where
  activeTasks : Int := 0
  tailProcessed : Bool := false
  deriving DecidableEq, Repr

/-- The entries of one snapshot name in the maps of `SnapshotIterationSynchronizer`; `cv` is
whether its condition variable exists. -/
structure IterationSync where
  currentIteration : ℕ := 0
  iterationInProgress : Bool := false
  cv : Bool := false
  iterationStates : ℕ → Option IterationState := fun _ => none

namespace IterationSync

def setState (sync : IterationSync) (iterationId : ℕ) (state : Option IterationState) :
    IterationSync :=
  { sync with iterationStates := Function.update sync.iterationStates iterationId state }

/-- `acquireIteration`, up to the wait: the condition variable exists from here on. -/
def ensureCv (sync : IterationSync) : IterationSync := { sync with cv := true }

/-- `acquireIteration`, behind the wait: the next iteration is reserved. -/
def reserve (sync : IterationSync) : ℕ × IterationSync :=
  let iterationId := sync.currentIteration + 1
  (iterationId, { sync.setState iterationId (some {}) with
    currentIteration := iterationId
    iterationInProgress := true })

def startTask (sync : IterationSync) (iterationId : ℕ) : IterationSync :=
  match sync.iterationStates iterationId with
  | none => sync
  | some state =>
    sync.setState iterationId (some { state with activeTasks := state.activeTasks + 1 })

/-- `finishTask`: whether the iteration has to be released, and the new entries. -/
def finishTask (sync : IterationSync) (iterationId : ℕ) : Bool × IterationSync :=
  match sync.iterationStates iterationId with
  | none => (false, sync)
  | some state =>
    let state := { state with activeTasks := state.activeTasks - 1 }
    (decide (state.activeTasks = 0) && state.tailProcessed, sync.setState iterationId (some state))

def markTailProcessed (sync : IterationSync) (iterationId : ℕ) : IterationSync :=
  match sync.iterationStates iterationId with
  | none => sync
  | some state => sync.setState iterationId (some { state with tailProcessed := true })

/-- `releaseLock`. -/
def releaseLock (sync : IterationSync) (iterationIdToClear : ℕ) : IterationSync :=
  if sync.cv then
    { sync.setState iterationIdToClear none with iterationInProgress := false }
  else sync

/-- `removeSnapshot`: every entry of the name is erased. -/
def removeSnapshot (_ : IterationSync) : IterationSync := {}

end IterationSync

end K2eg
