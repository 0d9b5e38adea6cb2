import K2eg.Model.SnapshotPipeline
import K2eg.Verification.Snapshot.Tasks

/-! # The submitting pool

The queue holds the tasks that no thread has taken, in the order of their scheduling, and the
running list those that are not finished. -/

namespace K2eg

variable {V : Type*}

/-! ## Updating one task -/

section Lookup

variable {τ : Type*} {lists : ℕ → List τ} {o i : ℕ} {entry : τ}

theorem getElem?_update_set (h : (lists o)[i]? = some entry) (entry' : τ) (other j : ℕ) :
    (Function.update lists o ((lists o).set i entry') other)[j]? =
      if other = o ∧ j = i then some entry' else (lists other)[j]? := by
  obtain ⟨hi, -⟩ := List.getElem?_eq_some_iff.mp h
  by_cases ho : other = o
  · subst ho
    rw [Function.update_self, List.getElem?_set]
    by_cases hj : i = j
    · subst hj
      simp [hi]
    · simp [hj, Ne.symm hj]
  · rw [Function.update_of_ne ho, if_neg (fun h => ho h.1)]

theorem getElem?_update_snoc (lists : ℕ → List τ) (o : ℕ) (entry : τ) (other j : ℕ) :
    (Function.update lists o (lists o ++ [entry]) other)[j]? =
      if other = o ∧ j = (lists o).length then some entry else (lists other)[j]? := by
  by_cases ho : other = o
  · subst ho
    rw [Function.update_self, List.getElem?_append, List.getElem?_singleton]
    rcases Nat.lt_trichotomy j (lists other).length with hj | hj | hj
    · simp [hj, Nat.ne_of_lt hj]
    · simp [hj]
    · have hnot : ¬j < (lists other).length := by omega
      have hsub : j - (lists other).length ≠ 0 := by omega
      simp [hnot, hsub, Nat.ne_of_gt hj]
  · rw [Function.update_of_ne ho, if_neg (fun h => ho h.1)]

end Lookup

/-! ## What a thread does -/

namespace SnapshotPipeline

variable {threads : ℕ} {p p' : SnapshotPipeline V} {o i : ℕ}

theorem dequeue_eq_some (h : p.dequeue threads = some p') :
    ∃ o i task pool, p.pool.dequeue threads = some ((o, i), pool) ∧
      (p.tasks o)[i]? = some task ∧ p' = p.takeTask o i task pool := by
  obtain ⟨⟨⟨o, i⟩, pool⟩, hpool, hmap⟩ := Option.bind_eq_some_iff.mp h
  obtain ⟨task, htask, rfl⟩ := Option.map_eq_some_iff.mp hmap
  exact ⟨o, i, task, pool, hpool, htask, rfl⟩

theorem stepTask_eq_some (h : p.stepTask o i = some p') :
    ∃ task out, (p.tasks o)[i]? = some task ∧
      task.step (p.ops o) (p.iterationSync (p.nameOf o)) = some out ∧
      p' = p.applyOutcome o i task out := by
  obtain ⟨task, htask, hmap⟩ := Option.bind_eq_some_iff.mp h
  obtain ⟨out, hout, rfl⟩ := Option.map_eq_some_iff.mp hmap
  exact ⟨task, out, htask, hout, rfl⟩

end SnapshotPipeline

theorem TaskPhase.rank_le (phase : TaskPhase V) : phase.rank ≤ 15 := by
  cases phase <;> simp [TaskPhase.rank]

theorem TaskPhase.rank_eq_done {phase : TaskPhase V} :
    phase.rank = 15 ↔ ∃ released, phase = .done released := by
  cases phase <;> simp [TaskPhase.rank]

/-- The tasks of one operation are taken in the order of their scheduling; one thread finishes
each before it takes the next. -/
structure Taken (threads : ℕ) (tasks : List (SubmissionTask V)) : Prop where
  order : ∀ {i j : ℕ} {a b : SubmissionTask V}, i < j → tasks[i]? = some a →
    tasks[j]? = some b → 0 < b.rank → 0 < a.rank
  single : threads = 1 → ∀ {i j : ℕ} {a b : SubmissionTask V}, i < j → tasks[i]? = some a →
    tasks[j]? = some b → 0 < b.rank → a.rank = 15

/-- The pool agrees with the phases of the tasks. -/
structure Pooled (threads : ℕ) (p : SnapshotPipeline V) : Prop where
  wellFormed : p.pool.WellFormed threads
  queued : ∀ o i, (o, i) ∈ p.pool.queue ↔ ∃ task, (p.tasks o)[i]? = some task ∧ task.rank = 0
  running : ∀ o i, (o, i) ∈ p.pool.running ↔
    ∃ task, (p.tasks o)[i]? = some task ∧ 0 < task.rank ∧ task.rank < 15
  fifo : p.pool.queue.Pairwise fun a b => a.1 = b.1 → a.2 < b.2
  taken : ∀ o, Taken threads (p.tasks o)

namespace Pooled

variable {threads : ℕ} {p p' : SnapshotPipeline V} {o i : ℕ} {task : SubmissionTask V}

theorem init : Pooled threads ({} : SnapshotPipeline V) where
  wellFormed := .empty threads
  queued := by simp
  running := by simp
  fifo := .nil
  taken _ := ⟨by simp, by simp⟩

theorem congr (h : Pooled threads p) (hpool : p'.pool = p.pool) (htasks : p'.tasks = p.tasks) :
    Pooled threads p' := by
  constructor <;> simp only [hpool, htasks]
  exacts [h.wellFormed, h.queued, h.running, h.fifo, h.taken]

/-- A task is detached. -/
theorem submit (h : Pooled threads p) (hqueued : task.rank = 0)
    (hpool : p'.pool = p.pool.submit (o, (p.tasks o).length))
    (htasks : p'.tasks = Function.update p.tasks o (p.tasks o ++ [task])) : Pooled threads p' := by
  have hlookup := getElem?_update_snoc p.tasks o task
  rw [← htasks] at hlookup
  have hnew : (p.tasks o)[(p.tasks o).length]? = none := List.getElem?_eq_none (Nat.le_refl _)
  have hnot_queued : (o, (p.tasks o).length) ∉ p.pool.queue := by simp [h.queued]
  have hnot_running : (o, (p.tasks o).length) ∉ p.pool.running := by simp [h.running]
  refine ⟨?_, fun other j => ?_, fun other j => ?_, ?_, fun other => ?_⟩
  · rw [hpool]
    exact h.wellFormed.submit (by simp [hnot_queued, hnot_running])
  · rw [hpool, TaskPool.submit, List.mem_append, List.mem_singleton, h.queued, hlookup,
      Prod.mk.injEq]
    split_ifs with heq
    · simp [heq, hqueued]
    · simp [heq]
  · rw [hpool, TaskPool.submit, h.running, hlookup]
    split_ifs with heq
    · simp [heq, hqueued]
    · rfl
  · rw [hpool, TaskPool.submit]
    refine List.pairwise_append.mpr ⟨h.fifo, List.pairwise_singleton .., ?_⟩
    rintro ⟨other, j⟩ hmem _ hlast heq
    obtain rfl := List.mem_singleton.mp hlast
    obtain ⟨found, hfound, -⟩ := (h.queued other j).mp hmem
    simp only at heq
    subst heq
    exact (List.getElem?_eq_some_iff.mp hfound).1
  · have hold {j k : ℕ} {a b : SubmissionTask V} (hjk : j < k)
        (ha : (p'.tasks other)[j]? = some a) (hb : (p'.tasks other)[k]? = some b)
        (hpos : 0 < b.rank) : (p.tasks other)[j]? = some a ∧ (p.tasks other)[k]? = some b := by
      rw [hlookup] at ha hb
      split_ifs at hb with hk
      · obtain rfl := Option.some.inj hb
        omega
      · split_ifs at ha with hj
        · have := (List.getElem?_eq_some_iff.mp hb).1
          rw [hj.1] at this
          omega
        · exact ⟨ha, hb⟩
    constructor
    · intro j k a b hjk ha hb hpos
      obtain ⟨ha, hb⟩ := hold hjk ha hb hpos
      exact (h.taken other).order hjk ha hb hpos
    · intro hsingle j k a b hjk ha hb hpos
      obtain ⟨ha, hb⟩ := hold hjk ha hb hpos
      exact (h.taken other).single hsingle hjk ha hb hpos

/-- A task goes on. -/
private theorem advance (h : Pooled threads p) (phase : TaskPhase V)
    (htask : (p.tasks o)[i]? = some task) (hphase : 0 < phase.rank)
    (htasks : p'.tasks = Function.update p.tasks o ((p.tasks o).set i (task.advance phase)))
    (hwellFormed : p'.pool.WellFormed threads)
    (hqueue : ∀ entry, entry ∈ p'.pool.queue ↔ entry ∈ p.pool.queue ∧ entry ≠ (o, i))
    (hrunning : ∀ entry, entry ∈ p'.pool.running ↔
      (entry ∈ p.pool.running ∧ entry ≠ (o, i)) ∨ (entry = (o, i) ∧ phase.rank < 15))
    (hfifo : p'.pool.queue.Pairwise fun a b => a.1 = b.1 → a.2 < b.2)
    (hbefore : ∀ {j : ℕ} {a : SubmissionTask V}, j < i → (p.tasks o)[j]? = some a →
      0 < a.rank ∧ (threads = 1 → a.rank = 15))
    (hafter : threads = 1 → ∀ {j : ℕ} {b : SubmissionTask V}, i < j →
      (p.tasks o)[j]? = some b → b.rank = 0) : Pooled threads p' := by
  have hlookup := getElem?_update_set htask (task.advance phase)
  rw [← htasks] at hlookup
  refine ⟨hwellFormed, fun other j => ?_, fun other j => ?_, hfifo, fun other => ⟨?_, ?_⟩⟩
  · rw [hqueue, h.queued, hlookup, Ne, Prod.mk.injEq]
    split_ifs with heq
    · simp [heq, Nat.ne_of_gt hphase]
    · simp [heq]
  · rw [hrunning, h.running, hlookup, Ne, Prod.mk.injEq]
    split_ifs with heq
    · simp [heq, hphase]
    · simp [heq]
  · intro j k a b hjk ha hb hpos
    rw [hlookup] at ha hb
    split_ifs at ha with hj
    · obtain rfl := Option.some.inj ha
      exact hphase
    · split_ifs at hb with hk
      · obtain ⟨rfl, rfl⟩ := hk
        exact (hbefore hjk ha).1
      · exact (h.taken other).order hjk ha hb hpos
  · intro hsingle j k a b hjk ha hb hpos
    rw [hlookup] at ha hb
    split_ifs at hb with hk
    · obtain ⟨rfl, rfl⟩ := hk
      rw [if_neg (by omega)] at ha
      exact (hbefore hjk ha).2 hsingle
    · split_ifs at ha with hj
      · obtain ⟨rfl, rfl⟩ := hj
        have := hafter hsingle hjk hb
        omega
      · exact (h.taken other).single hsingle hjk ha hb hpos

theorem rank_of_dequeue (h : Pooled threads p) {pool : TaskPool (ℕ × ℕ)}
    (hpool : p.pool.dequeue threads = some ((o, i), pool)) (htask : (p.tasks o)[i]? = some task) :
    task.rank = 0 := by
  obtain ⟨hqueue, -⟩ := TaskPool.dequeue_eq_some hpool
  obtain ⟨found, hfound, hrank⟩ := (h.queued o i).mp (by simp [hqueue])
  obtain rfl := Option.some.inj (htask.symm.trans hfound)
  exact hrank

/-- A thread takes a task: those before it are taken, and finished if there is one thread. -/
theorem dequeue (h : Pooled threads p) (hdequeue : p.dequeue threads = some p') :
    Pooled threads p' := by
  obtain ⟨o, i, task, pool, hpool, htask, rfl⟩ := SnapshotPipeline.dequeue_eq_some hdequeue
  obtain ⟨hqueue, hrunning, hfree⟩ := TaskPool.dequeue_eq_some hpool
  have hrank := h.rank_of_dequeue hpool htask
  have hnodup := h.wellFormed.nodup
  have hfifo := h.fifo
  rw [hqueue, List.cons_append] at hnodup
  rw [hqueue] at hfifo
  have hhead := (List.nodup_cons.mp hnodup).1
  rw [List.mem_append, not_or] at hhead
  have hbefore {j : ℕ} {a : SubmissionTask V} (hj : j < i) (ha : (p.tasks o)[j]? = some a) :
      0 < a.rank := by
    by_contra hzero
    have hmem := (h.queued o j).mpr ⟨a, ha, by omega⟩
    rw [hqueue] at hmem
    rcases List.mem_cons.mp hmem with heq | hmem
    · rw [Prod.mk.injEq] at heq
      omega
    · have := (List.pairwise_cons.mp hfifo).1 _ hmem rfl
      omega
  refine h.advance .starting htask Nat.zero_lt_one rfl (h.wellFormed.dequeue hpool) ?_ ?_
    (List.pairwise_cons.mp hfifo).2 (fun {j a} hj ha => ⟨hbefore hj ha, fun hsingle => ?_⟩)
    (fun _ {j b} hj hb => ?_)
  · intro entry
    rw [hqueue, List.mem_cons]
    refine ⟨fun hmem => ⟨.inr hmem, fun heq => hhead.1 (heq ▸ hmem)⟩, ?_⟩
    rintro ⟨rfl | hmem, hne⟩
    · exact absurd rfl hne
    · exact hmem
  · intro entry
    change entry ∈ pool.running ↔ _
    rw [hrunning, List.mem_cons]
    constructor
    · rintro (rfl | hmem)
      · exact .inr ⟨rfl, by simp [TaskPhase.rank]⟩
      · exact .inl ⟨hmem, fun heq => hhead.2 (heq ▸ hmem)⟩
    · rintro (⟨hmem, -⟩ | ⟨rfl, -⟩)
      · exact .inr hmem
      · exact .inl rfl
  · -- the only thread is free, so what was taken is finished
    have hidle : p.pool.running = [] := List.eq_nil_of_length_eq_zero (by omega)
    by_contra hne
    have hle := TaskPhase.rank_le a.phase
    have hmem := (h.running o j).mpr ⟨a, ha, hbefore hj ha, Nat.lt_of_le_of_ne hle hne⟩
    simp [hidle] at hmem
  · by_contra hpos
    have := (h.taken o).order hj htask hb (by omega)
    omega

/-- A thread does a step of its task. -/
theorem stepTask (h : Pooled threads p) (hstep : p.stepTask o i = some p') : Pooled threads p' := by
  obtain ⟨task, out, htask, hout, rfl⟩ := SnapshotPipeline.stepTask_eq_some hstep
  obtain ⟨hpos, hlt, hle, hmax⟩ := SubmissionTask.step_rank hout
  have hrunning : (o, i) ∈ p.pool.running := (h.running o i).mpr ⟨task, htask, hpos, hlt⟩
  have hnot_queued : (o, i) ∉ p.pool.queue := by
    rw [h.queued]
    rintro ⟨found, hfound, hrank⟩
    obtain rfl := Option.some.inj (htask.symm.trans hfound)
    omega
  have hbefore {j : ℕ} {a : SubmissionTask V} (hj : j < i) (ha : (p.tasks o)[j]? = some a) :
      0 < a.rank ∧ (threads = 1 → a.rank = 15) :=
    ⟨(h.taken o).order hj ha htask hpos, fun hsingle => (h.taken o).single hsingle hj ha htask hpos⟩
  have hafter (hsingle : threads = 1) {j : ℕ} {b : SubmissionTask V} (hj : i < j)
      (hb : (p.tasks o)[j]? = some b) : b.rank = 0 := by
    by_contra hne
    have := (h.taken o).single hsingle hj htask hb (by omega)
    omega
  have hqueue (entry : ℕ × ℕ) : entry ∈ p.pool.queue ↔ entry ∈ p.pool.queue ∧ entry ≠ (o, i) :=
    ⟨fun hmem => ⟨hmem, fun heq => hnot_queued (heq ▸ hmem)⟩, fun hmem => hmem.1⟩
  by_cases hdone : out.phase.rank = 15
  · obtain ⟨released, hphase⟩ := TaskPhase.rank_eq_done.mp hdone
    have hpool : (p.applyOutcome o i task out).pool = p.pool.finish (o, i) := by
      simp only [SnapshotPipeline.applyOutcome, hphase]
    refine h.advance _ htask (by omega) rfl ?_ ?_ ?_ ?_ hbefore hafter <;> rw [hpool]
    · exact h.wellFormed.finish _
    · exact hqueue
    · intro entry
      simp [h.wellFormed.mem_running_finish, hdone]
    · exact h.fifo
  · have hpool : (p.applyOutcome o i task out).pool = p.pool := by
      rw [TaskPhase.rank_eq_done] at hdone
      simp only [SnapshotPipeline.applyOutcome]
      split
      · exact absurd ⟨_, ‹_›⟩ hdone
      · rfl
    refine h.advance _ htask (by omega) rfl ?_ ?_ ?_ ?_ hbefore hafter <;> rw [hpool]
    · exact h.wellFormed
    · exact hqueue
    · intro entry
      constructor
      · intro hmem
        by_cases heq : entry = (o, i)
        · exact .inr ⟨heq, by omega⟩
        · exact .inl ⟨hmem, heq⟩
      · rintro (⟨hmem, -⟩ | ⟨rfl, -⟩)
        · exact hmem
        · exact hrunning
    · exact h.fifo

end Pooled

end K2eg
