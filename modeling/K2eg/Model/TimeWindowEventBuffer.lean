import Mathlib.Data.List.Basic
import Mathlib.Data.List.Range

/-! # The time window event buffer

`TimeWindowEventBuffer`: a ring of events with the time of their arrival, which grows when it is
full and forgets events that are older than the window. Times are nanoseconds. `E` is the type of
the shared pointers to the events, and its `default` the pointer of a slot without an event. -/

namespace K2eg

universe u

/-- `Entry`. -/
structure TimeWindowEventBuffer.Entry (E : Type*) where
  timestamp : Int
  event : E
  deriving DecidableEq

instance {E : Type*} [Inhabited E] : Inhabited (TimeWindowEventBuffer.Entry E) := ⟨⟨0, default⟩⟩

structure TimeWindowEventBuffer (E : Type*) where
  buffer : List (TimeWindowEventBuffer.Entry E)
  head : ℕ := 0
  tail : ℕ := 0
  count : ℕ := 0
  windowMs : Int
  maxSize : ℕ
  growFactor : ℕ

namespace TimeWindowEventBuffer

variable {E Out : Type u} [Inhabited E]

/-- The constructor. -/
def make (window : Int) (reserve growFactor : ℕ) : TimeWindowEventBuffer E where
  buffer := List.replicate reserve default
  windowMs := window
  maxSize := reserve
  growFactor

/-- An entry is older than the window. -/
def isOld (windowMs now : Int) (entry : Entry E) : Bool :=
  decide (now - entry.timestamp > windowMs * 1000000)

/-- The loop of `pruneOldIfNeeded`, with the head and the count that it leaves. -/
def pruneFrom (buffer : List (Entry E)) (windowMs now : Int) (head : ℕ) : ℕ → ℕ × ℕ
  | 0 => (head, 0)
  | count + 1 =>
    if isOld windowMs now (buffer.getD head default) then
      pruneFrom buffer windowMs now ((head + 1) % buffer.length) count
    else (head, count + 1)

def pruneOldIfNeeded (b : TimeWindowEventBuffer E) (now : Int) : TimeWindowEventBuffer E :=
  let (head, count) := pruneFrom b.buffer b.windowMs now b.head b.count
  { b with head, count }

def expandBuffer (b : TimeWindowEventBuffer E) : TimeWindowEventBuffer E :=
  let newSize := if b.buffer.length = 0 then b.maxSize else b.buffer.length * b.growFactor
  { b with
    buffer := (List.range newSize).map fun i =>
      if i < b.count then b.buffer.getD ((b.head + i) % b.buffer.length) default else default
    head := 0
    tail := b.count }

def push (b : TimeWindowEventBuffer E) (value : E) (timestamp : Int) : TimeWindowEventBuffer E :=
  let b := b.pruneOldIfNeeded timestamp
  let b := if b.count = b.buffer.length then b.expandBuffer else b
  let b := { b with
    buffer := b.buffer.set b.tail ⟨timestamp, value⟩
    tail := (b.tail + 1) % b.buffer.length }
  if b.count < b.buffer.length then { b with count := b.count + 1 }
  else { b with head := (b.head + 1) % b.buffer.length }

/-- The loop of `fetchWindow` from an index on, for so many entries. -/
def fetchFrom (buffer : List (Entry E)) (idx : ℕ) : ℕ → List E
  | 0 => []
  | count + 1 =>
    (buffer.getD idx default).event :: fetchFrom buffer ((idx + 1) % buffer.length) count

/-- `fetchWindow` without a filter. -/
def fetchWindow (b : TimeWindowEventBuffer E) : List E := fetchFrom b.buffer b.head b.count

/-- The loop of the `fetchWindow` that maps the events; `filterMap` may throw. -/
def fetchMapFrom {ε : Type*} (filterMap : E → Except ε (Option Out)) (buffer : List (Entry E))
    (idx : ℕ) : ℕ → Except ε (List Out)
  | 0 => .ok []
  | count + 1 => do
    let kept ← filterMap (buffer.getD idx default).event
    let out ← fetchMapFrom filterMap buffer ((idx + 1) % buffer.length) count
    return kept.toList ++ out

/-- `fetchWindow` with a filter. -/
def fetchMapWindow {ε : Type*} (b : TimeWindowEventBuffer E)
    (filterMap : E → Except ε (Option Out)) : Except ε (List Out) :=
  fetchMapFrom filterMap b.buffer b.head b.count

def reset (b : TimeWindowEventBuffer E) : TimeWindowEventBuffer E :=
  { b with buffer := List.replicate b.maxSize default, head := 0, tail := 0, count := 0 }

end TimeWindowEventBuffer

end K2eg
