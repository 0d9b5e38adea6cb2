import K2eg.Verification.Snapshot.Restart
import K2eg.Verification.Snapshot.Waits

/-! # Waiting without deadlock

The checker waits for the tasks of an iteration, and these wait for tasks that were scheduled
before them. While no snapshot is restarted, some task can always go on. -/

namespace K2eg

variable {V : Type*}

open Interleaving

/-- Those who wait and those who are waited for. -/
inductive Party where
  | checker
  | task (op index : ℕ)

/-- The checker in `acquireIteration` waits for the unfinished tasks of the current iteration, a
task before a closed gate for those that hold it back. -/
inductive WaitsFor (p : SnapshotPipeline V) : Party → Party → Prop where
  | checker {now todo o submission last i task}
      (acquiring : p.checker = .acquiring now todo o submission last)
      (progress : (p.iterationSync (p.nameOf o)).iterationInProgress = true)
      (awaited : (p.tasks o)[i]? = some task)
      (current : task.iterationId = (p.iterationSync (p.nameOf o)).currentIteration)
      (unfinished : task.finished = false) : WaitsFor p .checker (.task o i)
  | task {o i j held holder} (waiting : (p.tasks o)[j]? = some held)
      (awaited : (p.tasks o)[i]? = some holder)
      (holds : SubmissionTask.HoldsBack (p.ops o) held holder) :
      WaitsFor p (.task o j) (.task o i)

/-- A running task can do its next step, or a free thread can take a task. -/
def SnapshotPipeline.Progresses (threads : ℕ) (p : SnapshotPipeline V) : Prop :=
  (∃ entry ∈ p.pool.running, (p.stepTask entry.1 entry.2).isSome = true) ∨
    (p.dequeue threads).isSome = true

/-- Wherever someone waits, some task goes on; what is waited for has a thread or will have one,
and nobody waits for themselves. -/
structure DeadlockFree (threads : ℕ) (p : SnapshotPipeline V) : Prop where
  acquire : ∀ {now todo o submission last}, p.checker = .acquiring now todo o submission last →
    (p.iterationSync (p.nameOf o)).iterationInProgress = true →
      p.Progresses threads ∧ ∃ i, WaitsFor p .checker (.task o i)
  wait : ∀ {o j task}, (o, j) ∈ p.pool.running → (p.tasks o)[j]? = some task →
    task.Waits (p.ops o) → p.stepTask o j = none ∧ p.Progresses threads ∧
      ∃ i, WaitsFor p (.task o j) (.task o i)
  awaited : ∀ {party o i}, WaitsFor p party (.task o i) →
    (o, i) ∈ p.pool.running ∨ party = .checker ∧ (o, i) ∈ p.pool.queue
  acyclic : ∀ party, ¬Relation.TransGen (WaitsFor p) party party

/-! ## Progress -/

/-- A task that waits cannot step. -/
theorem SubmissionTask.Waits.step_eq_none {op : SnapshotOpInfo} {task : SubmissionTask V}
    (h : task.Waits op) (sync : IterationSync) : task.step op sync = none := by
  have hrank : task.rank = task.phase.rank := rfl
  cases h with
  | header waiting closed =>
      rw [waiting] at hrank
      cases hphase : task.phase <;> rw [hphase] at hrank <;> simp [TaskPhase.rank] at hrank
      simp [step, hphase, closed]
  | drain waiting pending =>
      rw [waiting] at hrank
      cases hphase : task.phase <;> rw [hphase] at hrank <;> simp [TaskPhase.rank] at hrank
      simp [step, hphase, pending]

namespace Sound

variable {threads : ℕ} {p : SnapshotPipeline V} {o i j : ℕ} {task : SubmissionTask V}

/-- Behind every running task stands one that can step. -/
theorem exists_step (h : Sound threads p) (hrunning : (o, j) ∈ p.pool.running) :
    ∃ entry ∈ p.pool.running, (p.stepTask entry.1 entry.2).isSome = true := by
  obtain ⟨task, htask, hpos, hlt⟩ := (h.pooled.running o j).mp hrunning
  obtain ⟨i, holder, hi, hpos, hlt, hgo⟩ := exists_running (h.owned.scheduled o) (h.owned.gated o)
    (h.pooled.taken o) (h.registry.valid o) htask hpos hlt
  refine ⟨(o, i), (h.pooled.running o i).mpr ⟨holder, hi, hpos, hlt⟩, ?_⟩
  rw [SnapshotPipeline.stepTask, hi, Option.bind_some, Option.isSome_map]
  exact SubmissionTask.step_isSome hpos hlt hgo _

/-- As long as there are tasks in the pool, it goes on. -/
theorem progresses (h : Sound threads p) (hthreads : 0 < threads)
    (hpool : p.pool.queue ≠ [] ∨ p.pool.running ≠ []) : p.Progresses threads := by
  by_cases hrunning : p.pool.running = []
  · -- all threads are free
    right
    have hqueue : p.pool.queue ≠ [] := hpool.resolve_right (not_not_intro hrunning)
    obtain ⟨⟨o, i⟩, rest, hcons⟩ := List.exists_cons_of_ne_nil hqueue
    obtain ⟨task, htask, -⟩ := (h.pooled.queued o i).mp (by simp [hcons])
    simp [SnapshotPipeline.dequeue, TaskPool.dequeue, hcons, hrunning, hthreads, htask]
  · left
    obtain ⟨⟨o, j⟩, rest, hcons⟩ := List.exists_cons_of_ne_nil hrunning
    exact h.exists_step (o := o) (j := j) (by simp [hcons])

/-- An unfinished task is in the pool. -/
theorem mem_pool (h : Sound threads p) (htask : (p.tasks o)[i]? = some task)
    (hunfinished : task.finished = false) : (o, i) ∈ p.pool.running ∨ (o, i) ∈ p.pool.queue := by
  have hrank : task.rank ≠ 15 := by simpa [SubmissionTask.finished] using hunfinished
  have hle : task.rank ≤ 15 := TaskPhase.rank_le _
  rcases Nat.eq_zero_or_pos task.rank with hzero | hpos
  · exact .inr ((h.pooled.queued o i).mpr ⟨task, htask, hzero⟩)
  · exact .inl ((h.pooled.running o i).mpr ⟨task, htask, hpos, by omega⟩)

theorem running_of_holdsBack (h : Sound threads p) {holder : SubmissionTask V}
    (hj : (p.tasks o)[j]? = some task) (hi : (p.tasks o)[i]? = some holder)
    (hholds : SubmissionTask.HoldsBack (p.ops o) task holder) :
    i < j ∧ (o, i) ∈ p.pool.running := by
  have hvalid := h.registry.valid o task (List.mem_of_getElem? hj)
  obtain ⟨hlt, hpos, hle⟩ := hholds.before (h.owned.scheduled o) (h.pooled.taken o) hvalid hj hi
  exact ⟨hlt, (h.pooled.running o i).mpr ⟨holder, hi, hpos, by omega⟩⟩

/-- What the checker waits for in `acquireIteration`. -/
theorem exists_awaited (h : Sound threads p) {now : Int} {todo : List String}
    {submission : SnapshotSubmission V} {last : Bool}
    (hacquiring : p.checker = .acquiring now todo o submission last)
    (hprogress : (p.iterationSync (p.nameOf o)).iterationInProgress = true) :
    ∃ (i : ℕ) (task : SubmissionTask V), (p.tasks o)[i]? = some task ∧ task.finished = false ∧
      task.iterationId = (p.iterationSync (p.nameOf o)).currentIteration := by
  obtain ⟨hsynchronized, halone⟩ := h.owned.acquiring hacquiring
  have hne : p.tasks o ≠ [] := fun hnil => by
    have hblank := h.owned.vacant (p.nameOf o) fun other hname hnonempty =>
      halone other (fun heq => hnonempty (heq ▸ hnil)) hname hnonempty
    rw [hblank.idle] at hprogress
    cases hprogress
  have hheld := h.registry.held
  rw [hacquiring] at hheld
  have hclosed : isOpen (p.tasks o) = false := by
    simpa [hheld.2.1] using hheld.1.opens
  obtain ⟨task, hmem, hiteration, hunfinished⟩ :=
    hsynchronized.unfinished (h.owned.scheduled o) hne hclosed hprogress
  obtain ⟨i, hi⟩ := List.mem_iff_getElem?.mp hmem
  have hzero := hsynchronized.erased_of_progress hprogress
  exact ⟨i, task, hi, hunfinished, hiteration.trans (hsynchronized.current hzero).symm⟩

/-! ## The wait-for relation -/

theorem waitsFor_awaited (h : Sound threads p) {party : Party}
    (hwaits : WaitsFor p party (.task o i)) :
    (o, i) ∈ p.pool.running ∨ party = .checker ∧ (o, i) ∈ p.pool.queue := by
  cases hwaits with
  | checker acquiring progress awaited current unfinished =>
      rcases h.mem_pool awaited unfinished with hrunning | hqueued
      · exact .inl hrunning
      · exact .inr ⟨rfl, hqueued⟩
  | task waiting awaited holds => exact .inl (h.running_of_holdsBack waiting awaited holds).2

/-- Along the wait-for relation the tasks of an operation are met in the reverse order of their
scheduling. -/
theorem waitsFor_trans (h : Sound threads p) {first last : Party}
    (hwaits : Relation.TransGen (WaitsFor p) first last) :
    ∃ o i, last = .task o i ∧ ∀ o' j, first = .task o' j → o' = o ∧ i < j := by
  induction hwaits with
  | single hstep =>
      cases hstep with
      | checker => exact ⟨_, _, rfl, fun _ _ heq => by cases heq⟩
      | task waiting awaited holds =>
          refine ⟨_, _, rfl, fun o' j heq => ?_⟩
          cases heq
          exact ⟨rfl, (h.running_of_holdsBack waiting awaited holds).1⟩
  | tail _ hstep ih =>
      obtain ⟨o, i, rfl, hfirst⟩ := ih
      cases hstep with
      | task waiting awaited holds =>
          have hlt := (h.running_of_holdsBack waiting awaited holds).1
          refine ⟨_, _, rfl, fun o' j heq => ?_⟩
          obtain ⟨rfl, hij⟩ := hfirst o' j heq
          exact ⟨rfl, hlt.trans hij⟩

theorem deadlockFree (h : Sound threads p) (hthreads : 0 < threads) : DeadlockFree threads p where
  acquire {now todo o submission last} hacquiring hprogress := by
    obtain ⟨i, task, htask, hunfinished, hcurrent⟩ := h.exists_awaited hacquiring hprogress
    refine ⟨h.progresses hthreads ?_, i, .checker hacquiring hprogress htask hcurrent hunfinished⟩
    rcases h.mem_pool htask hunfinished with hmem | hmem
    · exact .inr (List.ne_nil_of_mem hmem)
    · exact .inl (List.ne_nil_of_mem hmem)
  wait {o j task} hrunning htask hwaits := by
    have hvalid := h.registry.valid o task (List.mem_of_getElem? htask)
    obtain ⟨i, holder, hi, hholds⟩ :=
      exists_holder (h.owned.scheduled o) (h.owned.gated o) hvalid htask hwaits
    refine ⟨?_, h.progresses hthreads (.inr (List.ne_nil_of_mem hrunning)), i,
      .task htask hi hholds⟩
    rw [SnapshotPipeline.stepTask, htask, Option.bind_some, hwaits.step_eq_none, Option.map_none]
  awaited := h.waitsFor_awaited
  acyclic party hcycle := by
    obtain ⟨o, i, rfl, hfirst⟩ := h.waitsFor_trans hcycle
    exact Nat.lt_irrefl i (hfirst o i rfl).2

end Sound

/-! ## Distinct names -/

/-- No two operations have one snapshot name. -/
def Distinct (p : SnapshotPipeline V) : Prop :=
  ∀ o < p.opCount, ∀ other < p.opCount, p.nameOf other = p.nameOf o → other = o

theorem Distinct.clean {p : SnapshotPipeline V} (h : Distinct p) (hregistry : Registry p) :
    p.Clean := by
  intro entry hentry _ other hregistered hne hname
  have hheld := hregistry.held
  cases hchecker : p.checker <;> rw [hchecker] at hentry hheld <;>
    simp only [CheckerPhase.scheduled?, Option.mem_def, Option.some.injEq, reduceCtorEq] at hentry
  subst hentry
  exact absurd (h _ hheld.1.registered other hregistered hname) hne

theorem Distinct.moves {threads : ℕ} {schedules : SnapshotPipeline V → Prop}
    {p p' : SnapshotPipeline V} (h : Distinct p) (hregistry : Registry p)
    (hmoves : SnapshotPipeline.Moves threads
      (fun p cmd => ∀ o < p.opCount, p.nameOf o ≠ cmd.snapshotName) schedules p p') :
    Distinct p' := by
  rcases hregistry.same_entries hmoves with ⟨cmd, created, hfresh, rfl⟩ | ⟨hcount, hsame⟩
  · have hnew : (p.register (.ofCommand cmd created)).nameOf p.opCount = cmd.snapshotName := by
      rw [SnapshotPipeline.nameOf, SnapshotPipeline.register_ops, Function.update_self]
      rfl
    have hold {o : ℕ} (ho : o < p.opCount) :
        (p.register (.ofCommand cmd created)).nameOf o = p.nameOf o := by
      rw [SnapshotPipeline.nameOf, SnapshotPipeline.register_ops,
        Function.update_of_ne (Nat.ne_of_lt ho)]
      rfl
    intro o ho other hother hname
    rcases Nat.lt_succ_iff_lt_or_eq.mp ho with ho | rfl <;>
      rcases Nat.lt_succ_iff_lt_or_eq.mp hother with hother | rfl
    · rw [hold ho, hold hother] at hname
      exact h o ho other hother hname
    · rw [hold ho, hnew] at hname
      exact absurd hname.symm (hfresh o ho)
    · rw [hold hother, hnew] at hname
      exact absurd hname (hfresh other hother)
    · rfl
  · intro o ho other hother hname
    rw [SnapshotPipeline.nameOf, SnapshotPipeline.nameOf, (hsame o).1, (hsame other).1] at hname
    rw [hcount] at ho hother
    exact h o ho other hother hname

/-! ## Runs -/

namespace ContinuousSnapshotManager

variable {threads : ℕ} {m : ContinuousSnapshotManager V} {labels : List (SnapshotStep V)}

/-- A step registers an operation only under a name that no operation has had. -/
def RegistersFresh (m : ContinuousSnapshotManager V) (label : SnapshotStep V) : Prop :=
  ∀ cmd ∈ m.registered? label, ∀ o < m.opCount, m.nameOf o ≠ cmd.snapshotName

instance (m : ContinuousSnapshotManager V) (label : SnapshotStep V) :
    Decidable (m.RegistersFresh label) :=
  inferInstanceAs (Decidable (∀ cmd ∈ m.registered? label, ∀ o < m.opCount,
    m.nameOf o ≠ cmd.snapshotName))

/-- Snapshots of distinct names that are never restarted do not deadlock. -/
theorem deadlockFree_of_run (hthreads : 0 < threads)
    (h : Run (next threads) RegistersFresh {} labels m) :
    DeadlockFree threads m.toSnapshotPipeline := by
  have hmoves {p p' : SnapshotPipeline V} (hinv : Sound threads p ∧ Distinct p)
      (hmove : SnapshotPipeline.Moves threads
        (fun p cmd => ∀ o < p.opCount, p.nameOf o ≠ cmd.snapshotName) (fun _ => True) p p') :
      Sound threads p' ∧ Distinct p' :=
    ⟨hinv.1.moves (fun _ => hinv.2.clean hinv.1.registry) hmove,
      hinv.2.moves hinv.1.registry hmove⟩
  have hinit : Sound threads ({} : SnapshotPipeline V) ∧ Distinct ({} : SnapshotPipeline V) :=
    ⟨.init, fun _ ho => absurd ho (Nat.not_lt_zero _)⟩
  have hsound := run_invariant (fun _ _ hallowed => hallowed) (fun _ _ _ _ => trivial) hinit
    hmoves h
  exact hsound.1.deadlockFree hthreads

open SnapshotTrace in
/-- On a single thread the checker waits for the first iteration, which is under way. -/
theorem deadlockFree_of_run_single :
    ∃ labels m, Run (next (V := ℕ) 1) RegistersFresh {} labels m ∧
      m.checker.acquires = true ∧ DeadlockFree 1 m.toSnapshotPipeline := by
  obtain ⟨m, hrun, hcheck⟩ := exists_run (next (V := ℕ) 1) RegistersFresh {}
    (start 0 normal ++ visit 1000000001 [] ++ [.dequeue, .task 0 0] ++
      [.checkerScan 2000000002 ["a"], .checkerVisit [], .checkerSchedule])
    (fun m => m.checker.acquires) (by decide +kernel)
  exact ⟨_, m, hrun, hcheck, deadlockFree_of_run Nat.one_pos hrun⟩

end ContinuousSnapshotManager

end K2eg
