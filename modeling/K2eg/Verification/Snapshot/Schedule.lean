import K2eg.Verification.Snapshot.Tasks

/-! # The schedule of an operation

What the checker fixes when it schedules the tasks of an operation: their order, the blocks they
enter and their iterations. The iterations are numbered by their Headers, and an iteration
that has a Tail is closed. -/

namespace K2eg

variable {V : Type*}

/-- The number of iterations that have been scheduled. -/
def headers (tasks : List (SubmissionTask V)) : ℕ := tasks.countP SubmissionTask.header

/-- The last iteration has no Tail so far. -/
def isOpen (tasks : List (SubmissionTask V)) : Bool := tasks.getLast?.any fun task => !task.tail

def hasLast (tasks : List (SubmissionTask V)) : Bool := tasks.any fun task => task.lastSubmission

/-- The iteration of the next submission. -/
def nextIteration (tasks : List (SubmissionTask V)) (header : Bool) : ℕ :=
  if header then headers tasks + 1 else headers tasks

/-- The lists of tasks that the checker schedules, whatever their phases: a Header opens an
iteration exactly when none is open, and nothing follows the last submission. -/
inductive Scheduled : List (SubmissionTask V) → Prop where
  | nil : Scheduled []
  | snoc {tasks task} (earlier : Scheduled tasks) (running : hasLast tasks = false)
      (opens : task.header = !isOpen tasks)
      (iteration : task.iterationId = nextIteration tasks task.header)
      (closes : task.lastSubmission = true → task.tail = true) : Scheduled (tasks ++ [task])

/-- The task that leaves an iteration open. -/
private theorem exists_last {tasks : List (SubmissionTask V)} (h : isOpen tasks = true) :
    ∃ task, tasks.getLast? = some task ∧ task.tail = false := by
  rw [isOpen] at h
  cases hlast : tasks.getLast? with
  | none => simp [hlast] at h
  | some task => exact ⟨task, rfl, by simpa [hlast] using h⟩

section Snoc

variable (tasks : List (SubmissionTask V)) (task : SubmissionTask V)

@[simp] theorem headers_nil : headers ([] : List (SubmissionTask V)) = 0 := rfl
@[simp] theorem isOpen_nil : isOpen ([] : List (SubmissionTask V)) = false := rfl
@[simp] theorem hasLast_nil : hasLast ([] : List (SubmissionTask V)) = false := rfl

@[simp] theorem headers_snoc :
    headers (tasks ++ [task]) = headers tasks + task.header.toNat := by
  rw [headers, List.countP_append, List.countP_singleton, headers]
  cases task.header <;> rfl

@[simp] theorem isOpen_snoc : isOpen (tasks ++ [task]) = !task.tail := by
  simp [isOpen]

@[simp] theorem hasLast_snoc :
    hasLast (tasks ++ [task]) = (hasLast tasks || task.lastSubmission) := by
  simp [hasLast]

end Snoc

/-! ## Steps leave the schedule alone -/

/-- A step of a task is one of a task before the last, or of the last one. -/
theorem advance_snoc {tasks : List (SubmissionTask V)} {last task : SubmissionTask V} {i : ℕ}
    (h : (tasks ++ [last])[i]? = some task) (phase : TaskPhase V) :
    tasks[i]? = some task ∧
        (tasks ++ [last]).set i (task.advance phase) = tasks.set i (task.advance phase) ++ [last] ∨
      task = last ∧ (tasks ++ [last]).set i (task.advance phase) =
        tasks ++ [last.advance phase] := by
  rcases Nat.lt_or_ge i tasks.length with hi | hi
  · rw [List.getElem?_append_left hi] at h
    exact .inl ⟨h, List.set_append_left _ _ hi⟩
  · have hlen : i = tasks.length := by
      have := (List.getElem?_eq_some_iff.mp h).1
      simp at this
      omega
    subst hlen
    simp only [List.getElem?_concat_length, Option.some.injEq] at h
    subst h
    refine .inr ⟨rfl, ?_⟩
    rw [List.set_append_right _ _ (Nat.le_refl _), Nat.sub_self, List.set_cons_zero]

section Advance

variable {tasks : List (SubmissionTask V)} {task : SubmissionTask V} {i : ℕ}
  (h : tasks[i]? = some task) (phase : TaskPhase V)
include h

theorem headers_advance : headers (tasks.set i (task.advance phase)) = headers tasks := by
  obtain ⟨hi, rfl⟩ := List.getElem?_eq_some_iff.mp h
  rw [headers, List.countP_set hi, SubmissionTask.advance_header, headers]
  split
  · rename_i hheader
    have : 0 < tasks.countP SubmissionTask.header :=
      List.countP_pos_iff.mpr ⟨tasks[i], List.getElem_mem hi, hheader⟩
    omega
  · omega

theorem isOpen_advance : isOpen (tasks.set i (task.advance phase)) = isOpen tasks := by
  obtain ⟨hi, rfl⟩ := List.getElem?_eq_some_iff.mp h
  rw [isOpen, isOpen, List.getLast?_eq_getElem?, List.getLast?_eq_getElem?, List.length_set,
    List.getElem?_set]
  split
  · rename_i hlast
    rw [← hlast, h]
    rfl
  · rfl

theorem hasLast_advance : hasLast (tasks.set i (task.advance phase)) = hasLast tasks := by
  rw [Bool.eq_iff_iff, hasLast, hasLast, List.any_eq_true, List.any_eq_true]
  constructor
  · rintro ⟨other, hmem, hlast⟩
    rcases List.mem_or_eq_of_mem_set hmem with hmem | rfl
    · exact ⟨other, hmem, hlast⟩
    · exact ⟨task, List.mem_of_getElem? h, hlast⟩
  · rintro ⟨other, hmem, hlast⟩
    obtain ⟨j, hj, rfl⟩ := List.getElem_of_mem hmem
    by_cases hij : i = j
    · subst hij
      obtain ⟨hi, rfl⟩ := List.getElem?_eq_some_iff.mp h
      exact ⟨_, List.mem_set hi _, hlast⟩
    · exact ⟨tasks[j], List.mem_iff_getElem.mpr ⟨j, by simpa, by
        rw [List.getElem_set_ne hij]⟩, hlast⟩

theorem Scheduled.advance (hscheduled : Scheduled tasks) :
    Scheduled (tasks.set i (task.advance phase)) := by
  induction hscheduled with
  | nil => simp at h
  | @snoc tasks last earlier running opens iteration closes ih =>
      rcases advance_snoc h phase with ⟨h, hset⟩ | ⟨rfl, hset⟩ <;> rw [hset]
      · refine .snoc (ih h) ?_ ?_ ?_ closes
        · rw [hasLast_advance h, running]
        · rw [isOpen_advance h, opens]
        · rw [nextIteration, headers_advance h, iteration, nextIteration]
      · exact .snoc earlier running opens iteration closes

end Advance

namespace Scheduled

variable {tasks : List (SubmissionTask V)}

/-! ## Iterations -/

theorem iteration_mem (h : Scheduled tasks) :
    ∀ task ∈ tasks, 1 ≤ task.iterationId ∧ task.iterationId ≤ headers tasks := by
  induction h with
  | nil => simp
  | @snoc tasks last earlier running opens iteration closes ih =>
      intro task hmem
      rw [headers_snoc]
      rcases List.mem_append.mp hmem with hmem | hmem
      · have := ih task hmem
        omega
      · obtain rfl := List.mem_singleton.mp hmem
        rw [iteration, nextIteration]
        cases hheader : task.header with
        | true => simp
        | false =>
            have hopen : isOpen tasks = true := by simpa [hheader] using opens
            obtain ⟨other, hother, -⟩ := exists_last hopen
            have := ih other (List.mem_of_getLast? hother)
            simp
            omega

theorem headers_pos_of_isOpen (h : Scheduled tasks) (hopen : isOpen tasks = true) :
    0 < headers tasks := by
  obtain ⟨other, hother, -⟩ := exists_last hopen
  have := h.iteration_mem other (List.mem_of_getLast? hother)
  omega

theorem headers_pos (h : Scheduled tasks) (hne : tasks ≠ []) : 0 < headers tasks := by
  have := h.iteration_mem _ (List.getLast_mem hne)
  omega

/-- Every iteration has one Header. -/
theorem tally_header (h : Scheduled tasks) (k : ℕ) :
    tally SubmissionTask.header SubmissionTask.iterationId tasks k =
      if 1 ≤ k ∧ k ≤ headers tasks then 1 else 0 := by
  induction h with
  | nil => rw [tally_nil, headers_nil, if_neg (by omega)]
  | @snoc tasks last earlier running opens iteration closes ih =>
      rw [tally_append_singleton, ih, headers_snoc, iteration, nextIteration]
      cases last.header with
      | false => simp
      | true =>
          simp only [true_and, if_true, Bool.toNat_true]
          split_ifs <;> omega

/-- Every iteration but an open one has one Tail. -/
theorem tally_tail (h : Scheduled tasks) (k : ℕ) :
    tally SubmissionTask.tail SubmissionTask.iterationId tasks k =
      if 1 ≤ k ∧ k ≤ headers tasks ∧ (k = headers tasks → isOpen tasks = false) then 1 else 0 := by
  induction h with
  | nil => rw [tally_nil, headers_nil, if_neg (by omega)]
  | @snoc tasks last earlier running opens iteration closes ih =>
      have hpos := earlier.headers_pos_of_isOpen
      rw [tally_append_singleton, ih, headers_snoc, isOpen_snoc, iteration, nextIteration]
      cases hopen : isOpen tasks <;> cases htail : last.tail <;>
        simp [hopen] at opens hpos <;> simp [opens] <;> split_ifs <;> omega

/-! ## Order -/

/-- Iterations follow each other; in an iteration the Header is first and the Tail last. -/
theorem sorted (h : Scheduled tasks) :
    tasks.Pairwise fun a b => a.iterationId ≤ b.iterationId ∧ a.lastSubmission = false ∧
      (a.iterationId = b.iterationId → a.tail = false ∧ b.header = false) := by
  induction h with
  | nil => exact .nil
  | @snoc tasks last earlier running opens iteration closes ih =>
      refine List.pairwise_append.mpr
        ⟨ih, List.pairwise_singleton .., fun task hmem other hother => ?_⟩
      obtain rfl := List.mem_singleton.mp hother
      have hle := (earlier.iteration_mem task hmem).2
      have hnotlast : task.lastSubmission = false := by
        simpa using List.any_eq_false.mp running task hmem
      cases hheader : other.header with
      | true =>
          rw [iteration, nextIteration, hheader]
          simp only [if_true]
          exact ⟨by omega, hnotlast, by omega⟩
      | false =>
          have hopen : isOpen tasks = true := by simpa [hheader] using opens
          have htail : tally SubmissionTask.tail SubmissionTask.iterationId tasks
              (headers tasks) = 0 := by
            rw [earlier.tally_tail, if_neg (by simp [hopen])]
          rw [iteration, nextIteration, hheader]
          exact ⟨hle, hnotlast, fun heq => ⟨tally_eq_zero.mp htail task hmem heq, rfl⟩⟩

/-- What held when the last task was scheduled. -/
theorem of_snoc {task : SubmissionTask V} (h : Scheduled (tasks ++ [task])) :
    Scheduled tasks ∧ hasLast tasks = false ∧ task.header = !isOpen tasks ∧
      task.iterationId = nextIteration tasks task.header ∧
      (task.lastSubmission = true → task.tail = true) := by
  generalize hall : tasks ++ [task] = all at h
  cases h with
  | nil => simp at hall
  | snoc earlier running opens iteration closes =>
      obtain ⟨rfl, hlast⟩ := List.append_inj' hall rfl
      obtain rfl := List.singleton_inj.mp hlast
      exact ⟨earlier, running, opens, iteration, closes⟩

theorem tally_eq_zero_of_lt (h : Scheduled tasks) {k : ℕ} (hk : headers tasks < k)
    (P : SubmissionTask V → Bool) : tally P SubmissionTask.iterationId tasks k = 0 := by
  refine tally_eq_zero.mpr fun task hmem heq => ?_
  have := (h.iteration_mem task hmem).2
  omega

/-- An open iteration has no task that publishes a Tail. -/
theorem tally_tail_of_isOpen (h : Scheduled tasks) (hopen : isOpen tasks = true) :
    tally SubmissionTask.tail SubmissionTask.iterationId tasks (headers tasks) = 0 := by
  rw [h.tally_tail, if_neg (by simp [hopen])]

theorem before {i j : ℕ} {a b : SubmissionTask V} (h : Scheduled tasks) (hi : tasks[i]? = some a)
    (hj : tasks[j]? = some b) (hij : i < j) :
    a.iterationId ≤ b.iterationId ∧ a.lastSubmission = false ∧
      (a.iterationId = b.iterationId → a.tail = false ∧ b.header = false) := by
  obtain ⟨hilen, rfl⟩ := List.getElem?_eq_some_iff.mp hi
  obtain ⟨hjlen, rfl⟩ := List.getElem?_eq_some_iff.mp hj
  exact List.pairwise_iff_getElem.mp h.sorted i j hilen hjlen hij

end Scheduled

end K2eg
