import K2eg.Model.ContinuousSnapshotManager

/-! # Timestamps of the messages

`SnapshotSubmissionTask::operator()` begins with a reading of the system clock, and every message of
the task carries it: `CHRONO_TO_UNIX_INT64` leaves its argument, the time of the submission,
aside. -/

namespace K2eg

variable {V : Type*}

/-- A message with its timestamp, pushed by the task at the index. -/
structure StampedMessage (V : Type*) where
  index : ℕ
  snapTs : Int
  message : PublishMessage (SnapshotMessage V)

/-- A step, and the milliseconds that the system clock shows. -/
structure StampedStep (V : Type*) where
  step : SnapshotStep V
  clock : Int

/-- The manager, `snap_ts` of the tasks by operation and index, and what an operation has
published. -/
structure StampedSnapshots (V : Type*) where
  manager : ContinuousSnapshotManager V := {}
  snapTs : ℕ × ℕ → Int := fun _ => 0
  published : ℕ → List (StampedMessage V) := fun _ => []

namespace StampedSnapshots

/-- The task that a step begins. -/
def begins (s : StampedSnapshots V) : SnapshotStep V → Option (ℕ × ℕ)
  | .task op index =>
    ((s.manager.tasks op)[index]?).bind fun task =>
      match task.phase with
      | .starting => some (op, index)
      | _ => none
  | _ => none

/-- A task that begins reads the clock. -/
def readClock (s : StampedSnapshots V) (label : StampedStep V) : ℕ × ℕ → Int :=
  match s.begins label.step with
  | some place => Function.update s.snapTs place label.clock
  | none => s.snapTs

/-- What a task pushes in a step. -/
def push (s : StampedSnapshots V) (manager : ContinuousSnapshotManager V) (op index : ℕ) :
    List (StampedMessage V) :=
  ((manager.log op).drop (s.manager.log op).length).map fun message =>
    { index, snapTs := s.snapTs (op, index), message }

def next (threads : ℕ) (s : StampedSnapshots V) (label : StampedStep V) :
    Option (StampedSnapshots V) :=
  (s.manager.next threads label.step).map fun manager =>
    { manager
      snapTs := s.readClock label
      published :=
        match label.step with
        | .task op index =>
          Function.update s.published op (s.published op ++ s.push manager op index)
        | _ => s.published }

end StampedSnapshots

end K2eg
