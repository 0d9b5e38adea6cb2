import Mathlib.Data.List.Infix

/-! # A journal

The edits of a value that is stored as a whole: those that the store has, and those that have only
been made. -/

structure Journal (ω : Type*) where
  durable : List ω := []
  pending : List ω := []
  deriving DecidableEq

namespace Journal

variable {ω : Type*} (journal : Journal ω)

/-- All edits, in their order. -/
def applied : List ω := journal.durable ++ journal.pending

inductive Move (ω : Type*) where
  | record (edit : ω)
  /-- the value is stored -/
  | flush
  /-- the value is lost but for what is stored -/
  | lose
  | erase
  deriving DecidableEq

def perform : Move ω → Journal ω
  | .record edit => { journal with pending := journal.pending ++ [edit] }
  | .flush => { durable := journal.applied }
  | .lose => { durable := journal.durable }
  | .erase => {}

@[simp] theorem applied_record (edit : ω) :
    (journal.perform (.record edit)).applied = journal.applied ++ [edit] :=
  (List.append_assoc _ _ _).symm

@[simp] theorem durable_record (edit : ω) :
    (journal.perform (.record edit)).durable = journal.durable := rfl

@[simp] theorem durable_flush : (journal.perform .flush).durable = journal.applied := rfl

@[simp] theorem applied_flush : (journal.perform .flush).applied = journal.applied :=
  List.append_nil _

@[simp] theorem durable_lose : (journal.perform .lose).durable = journal.durable := rfl

@[simp] theorem applied_lose : (journal.perform .lose).applied = journal.durable :=
  List.append_nil _

/-- What is stored stays there, but for an erasure. -/
theorem durable_prefix {move : Move ω} (h : move ≠ .erase) :
    journal.durable <+: (journal.perform move).durable := by
  cases move with
  | record edit => exact List.prefix_refl _
  | flush => exact List.prefix_append _ _
  | lose => exact List.prefix_refl _
  | erase => exact absurd rfl h

end Journal
