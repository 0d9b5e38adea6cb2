import Mathlib.Data.List.Nodup

/-! # A pool of threads

Tasks wait in a queue and are taken in the order of their submission; at most `threads` of
them run at a time. -/

structure TaskPool (τ : Type*) where
  queue : List τ := []
  running : List τ := []

namespace TaskPool

variable {τ : Type*}

def submit (pool : TaskPool τ) (task : τ) : TaskPool τ :=
  { pool with queue := pool.queue ++ [task] }

/-- A free thread takes the first task of the queue. -/
def dequeue (threads : ℕ) (pool : TaskPool τ) : Option (τ × TaskPool τ) :=
  match pool.queue with
  | [] => none
  | task :: rest =>
    if pool.running.length < threads then
      some (task, { queue := rest, running := task :: pool.running })
    else none

def finish [DecidableEq τ] (pool : TaskPool τ) (task : τ) : TaskPool τ :=
  { pool with running := pool.running.erase task }

/-- What is done to a pool. -/
inductive Move (τ : Type*) where
  | submit (task : τ)
  | dequeue
  | finish (task : τ)

def next [DecidableEq τ] (threads : ℕ) (pool : TaskPool τ) : Move τ → Option (TaskPool τ)
  | .submit task => some (pool.submit task)
  | .dequeue => (pool.dequeue threads).map Prod.snd
  | .finish task => if task ∈ pool.running then some (pool.finish task) else none

theorem dequeue_eq_some {threads : ℕ} {pool after : TaskPool τ} {task : τ}
    (h : pool.dequeue threads = some (task, after)) :
    pool.queue = task :: after.queue ∧ after.running = task :: pool.running ∧
      pool.running.length < threads := by
  unfold dequeue at h
  split at h
  · cases h
  · rename_i first rest hqueue
    obtain ⟨hlt, heq⟩ := Option.ite_none_right_eq_some.mp h
    obtain ⟨rfl, rfl⟩ := Prod.mk.inj (Option.some.inj heq)
    exact ⟨hqueue, rfl, hlt⟩

/-! ## Pools whose tasks are submitted once -/

/-- Every task is in the pool once, and no more tasks run than there are threads. -/
structure WellFormed (threads : ℕ) (pool : TaskPool τ) : Prop where
  nodup : (pool.queue ++ pool.running).Nodup
  bounded : pool.running.length ≤ threads

namespace WellFormed

variable {threads : ℕ} {pool after : TaskPool τ} {task : τ}

theorem empty (threads : ℕ) : WellFormed threads ({} : TaskPool τ) :=
  ⟨List.nodup_nil, Nat.zero_le _⟩

theorem submit (h : WellFormed threads pool) (hnew : task ∉ pool.queue ++ pool.running) :
    WellFormed threads (pool.submit task) := by
  refine ⟨?_, h.bounded⟩
  have hperm : ((pool.submit task).queue ++ (pool.submit task).running).Perm
      (task :: (pool.queue ++ pool.running)) := by
    rw [TaskPool.submit, List.append_assoc]
    exact List.perm_middle
  exact hperm.nodup_iff.mpr (List.nodup_cons.mpr ⟨hnew, h.nodup⟩)

theorem dequeue (h : WellFormed threads pool)
    (hdequeue : pool.dequeue threads = some (task, after)) :
    WellFormed threads after := by
  obtain ⟨hqueue, hrunning, hlt⟩ := dequeue_eq_some hdequeue
  refine ⟨?_, by rw [hrunning]; exact hlt⟩
  have hnodup := h.nodup
  rw [hqueue] at hnodup
  rw [hrunning]
  exact List.perm_middle.nodup_iff.mpr hnodup

theorem finish [DecidableEq τ] (h : WellFormed threads pool) (task : τ) :
    WellFormed threads (pool.finish task) := by
  refine ⟨?_, Nat.le_trans List.length_erase_le h.bounded⟩
  exact h.nodup.sublist ((List.erase_sublist).append_left _)

theorem mem_running_finish [DecidableEq τ] (h : WellFormed threads pool) {other : τ} :
    other ∈ (pool.finish task).running ↔ other ∈ pool.running ∧ other ≠ task := by
  rw [TaskPool.finish, (List.nodup_append.mp h.nodup).2.1.mem_erase_iff, and_comm]

end WellFormed

/-! ## The order of the service -/

/-- The threads have taken the tasks in the order in which they were submitted. -/
structure Serves (threads : ℕ) (submitted taken : List τ) (pool : TaskPool τ) : Prop where
  fifo : taken ++ pool.queue = submitted
  once : submitted.Nodup
  running : pool.running.Nodup
  taken : ∀ task ∈ pool.running, task ∈ taken
  bounded : pool.running.length ≤ threads

namespace Serves

variable {threads : ℕ} {pool after : TaskPool τ} {task : τ} {submitted taken : List τ}

theorem empty (threads : ℕ) : Serves threads [] [] ({} : TaskPool τ) :=
  ⟨rfl, List.nodup_nil, List.nodup_nil, nofun, Nat.zero_le _⟩

theorem submit (h : Serves threads submitted taken pool) (hnew : task ∉ submitted) :
    Serves threads (submitted ++ [task]) taken (pool.submit task) := by
  refine ⟨?_, ?_, h.running, h.taken, h.bounded⟩
  · rw [TaskPool.submit, ← List.append_assoc, h.fifo]
  · exact List.nodup_append.mpr ⟨h.once, List.nodup_singleton task, by
      rintro a ha b hb rfl
      exact hnew (List.mem_singleton.mp hb ▸ ha)⟩

theorem dequeue (h : Serves threads submitted taken pool)
    (hdequeue : pool.dequeue threads = some (task, after)) :
    Serves threads submitted (taken ++ [task]) after := by
  obtain ⟨hqueue, hrunning, hlt⟩ := dequeue_eq_some hdequeue
  have hfifo := h.fifo
  rw [hqueue] at hfifo
  have hnew : task ∉ taken := by
    have honce := h.once
    rw [← hfifo] at honce
    exact fun hmem => List.disjoint_of_nodup_append honce hmem List.mem_cons_self
  refine ⟨by rw [← hfifo, List.append_assoc, List.singleton_append], h.once, ?_, ?_, ?_⟩
  · rw [hrunning]
    exact List.nodup_cons.mpr ⟨fun hmem => hnew (h.taken task hmem), h.running⟩
  · intro other hmem
    rw [hrunning] at hmem
    rcases List.mem_cons.mp hmem with rfl | hmem
    · exact List.mem_append_right _ List.mem_cons_self
    · exact List.mem_append_left _ (h.taken other hmem)
  · rw [hrunning]
    exact hlt

theorem finish [DecidableEq τ] (h : Serves threads submitted taken pool) (task : τ) :
    Serves threads submitted taken (pool.finish task) := by
  refine ⟨h.fifo, h.once, h.running.erase task, fun other hmem => ?_, ?_⟩
  · exact h.taken other (List.mem_of_mem_erase hmem)
  · exact Nat.le_trans List.length_erase_le h.bounded

theorem prefix_submitted (h : Serves threads submitted taken pool) : taken <+: submitted :=
  ⟨pool.queue, h.fifo⟩

end Serves

end TaskPool
