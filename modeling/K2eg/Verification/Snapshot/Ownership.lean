import K2eg.Verification.Snapshot.Registry
import K2eg.Verification.Snapshot.Synchronizer

/-! # Who owns the entries of a snapshot name

The synchronizer and `active_iteration_id_` are keyed by snapshot name, which the operations of
a restarted snapshot share. As long as a Header is scheduled only when the tasks of the other
operations of its name are finished, one operation at a time owns the entries. -/

namespace K2eg

variable {V : Type*}

/-- The operation whose submission is to be scheduled. -/
def CheckerPhase.scheduled? : CheckerPhase V → Option (ℕ × SnapshotSubmission V × Bool)
  | .scheduling _ _ op submission last => some (op, submission, last)
  | _ => none

/-- The checker waits in `acquireIteration`. -/
def CheckerPhase.acquires : CheckerPhase V → Bool
  | .acquiring .. => true
  | _ => false

/-- A Header is scheduled only when the tasks of every other operation of its snapshot name
are finished. -/
def SnapshotPipeline.Clean (p : SnapshotPipeline V) : Prop :=
  ∀ entry ∈ p.checker.scheduled?, entry.2.1.submissionType.header = true →
    ∀ other < p.opCount, other ≠ entry.1 → p.nameOf other = p.nameOf entry.1 →
      ∀ task ∈ p.tasks other, task.finished = true

instance (p : SnapshotPipeline V) : Decidable p.Clean :=
  inferInstanceAs (Decidable (∀ entry ∈ p.checker.scheduled?,
    entry.2.1.submissionType.header = true →
      ∀ other < p.opCount, other ≠ entry.1 → p.nameOf other = p.nameOf entry.1 →
        ∀ task ∈ p.tasks other, task.finished = true))

/-- Nothing more comes of an operation: its last task and all others are finished. -/
structure Retired (tasks : List (SubmissionTask V)) : Prop where
  last : hasLast tasks = true
  finished : ∀ task ∈ tasks, task.rank = 15

/-- The other operations of the name are retired. -/
def Alone (p : SnapshotPipeline V) (o : ℕ) : Prop :=
  ∀ other, other ≠ o → p.nameOf other = p.nameOf o → p.tasks other ≠ [] → Retired (p.tasks other)

/-- Every operation has a schedule and gates that agree with its tasks, and of the operations of
one name at most one is not retired; the entries of the name agree with its tasks. -/
structure Owned (p : SnapshotPipeline V) : Prop where
  scheduled : ∀ o, Scheduled (p.tasks o)
  gated : ∀ o, Gated (p.tasks o) (p.ops o).iterationSyncStates
  synchronized : ∀ o, p.tasks o ≠ [] → ¬Retired (p.tasks o) →
    Synchronized (p.tasks o) (p.iterationSync (p.nameOf o)) ∧
      p.activeIterationId (p.nameOf o) =
        if hasLast (p.tasks o) = true then none else some (headers (p.tasks o))
  alone : ∀ o, p.tasks o ≠ [] → ¬Retired (p.tasks o) → Alone p o
  vacant : ∀ name, (∀ o, p.nameOf o = name → p.tasks o ≠ [] → Retired (p.tasks o)) →
    (p.iterationSync name).Blank
  acquiring : ∀ {now todo o submission last},
    p.checker = .acquiring now todo o submission last →
      Synchronized (p.tasks o) (p.iterationSync (p.nameOf o)) ∧ Alone p o

namespace Owned

variable {threads : ℕ} {registers : SnapshotPipeline V → RepeatingSnapshotCommand → Prop}
  {schedules : SnapshotPipeline V → Prop} {p p' : SnapshotPipeline V}

theorem init : Owned ({} : SnapshotPipeline V) where
  scheduled _ := .nil
  gated _ := .nil
  synchronized := by simp
  alone := by simp
  vacant _ _ := IterationSync.blank_default
  acquiring h := by cases h

/-- A task that is not finished keeps its operation from being retired. -/
theorem not_retired_of_task {tasks : List (SubmissionTask V)} {task : SubmissionTask V}
    (hmem : task ∈ tasks) (hrank : task.rank < 15) : ¬Retired tasks := fun h => by
  have := h.finished task hmem
  omega

theorem not_retired_of_notLast {tasks : List (SubmissionTask V)} (h : hasLast tasks = false) :
    ¬Retired tasks := fun hretired => by
  have := hretired.last
  simp [h] at this

/-- The last task of a retired operation has erased the entries. -/
theorem erased_of_retired {tasks : List (SubmissionTask V)} (h : Retired tasks) :
    0 < erasedTasks tasks := by
  obtain ⟨task, hmem, hlast⟩ := List.any_eq_true.mp h.last
  refine tally_pos.mpr ⟨task, hmem, ?_, rfl⟩
  simp [SubmissionTask.erased, hlast, h.finished task hmem]

theorem erased_of_notLast {tasks : List (SubmissionTask V)} (h : hasLast tasks = false) :
    erasedTasks tasks = 0 := by
  refine tally_eq_zero.mpr fun task hmem _ => ?_
  have hlast : task.lastSubmission = false := by simpa using List.any_eq_false.mp h task hmem
  simp [SubmissionTask.erased, hlast]

/-- Neither tasks nor entries change. -/
theorem frame (h : Owned p) (htasks : p'.tasks = p.tasks)
    (hsync : p'.iterationSync = p.iterationSync)
    (hactive : p'.activeIterationId = p.activeIterationId)
    (hnames : ∀ o, p.tasks o ≠ [] → p'.nameOf o = p.nameOf o)
    (hgates : ∀ o, Gated (p.tasks o) (p'.ops o).iterationSyncStates)
    (hchecker : p'.checker.acquires = false) : Owned p' := by
  refine ⟨htasks ▸ h.scheduled, fun o => ?_, fun o hne hretired => ?_, fun o hne hretired => ?_,
    fun name hvacant => ?_, fun hacquiring => ?_⟩
  · rw [htasks]
    exact hgates o
  · rw [htasks] at hne hretired ⊢
    rw [hnames o hne, hsync, hactive]
    exact h.synchronized o hne hretired
  · rw [htasks] at hne hretired
    intro other hother hname hnonempty
    rw [htasks] at hnonempty ⊢
    rw [hnames o hne, hnames other hnonempty] at hname
    exact h.alone o hne hretired other hother hname hnonempty
  · rw [hsync]
    refine h.vacant name fun o hname hne => ?_
    rw [← hnames o hne] at hname
    have := hvacant o hname (htasks ▸ hne)
    rwa [htasks] at this
  · rw [hacquiring] at hchecker
    cases hchecker

/-- The tasks of the operation that owns the entries change, with the entries. -/
theorem replace (h : Owned p) {o : ℕ} {tasks : List (SubmissionTask V)} (halone : Alone p o)
    (hne : tasks ≠ []) (htasks : p'.tasks = Function.update p.tasks o tasks)
    (hnames : ∀ o, p'.nameOf o = p.nameOf o)
    (hgates : ∀ other ≠ o, (p'.ops other).iterationSyncStates = (p.ops other).iterationSyncStates)
    (hscheduled : Scheduled tasks) (hgated : Gated tasks (p'.ops o).iterationSyncStates)
    (hsynchronized : Synchronized tasks (p'.iterationSync (p.nameOf o)) ∧
      p'.activeIterationId (p.nameOf o) =
        if hasLast tasks = true then none else some (headers tasks))
    (hsync : ∀ name ≠ p.nameOf o, p'.iterationSync name = p.iterationSync name ∧
      p'.activeIterationId name = p.activeIterationId name)
    (hchecker : p'.checker.acquires = false ∨
      p'.checker = p.checker ∧ p.tasks o ≠ [] ∧ ¬Retired (p.tasks o)) : Owned p' := by
  have hself : p'.tasks o = tasks := by rw [htasks, Function.update_self]
  have hother {other : ℕ} (hne : other ≠ o) : p'.tasks other = p.tasks other := by
    rw [htasks, Function.update_of_ne hne]
  have halone' : Alone p' o := fun other hother_ne hname hnonempty => by
    rw [hother hother_ne] at hnonempty ⊢
    exact halone other hother_ne (by rwa [hnames, hnames] at hname) hnonempty
  refine ⟨fun other => ?_, fun other => ?_, fun other hnonempty hretired => ?_,
    fun other hnonempty hretired => ?_, fun name hvacant => ?_, fun hacquiring => ?_⟩
  · by_cases heq : other = o
    · rwa [heq, hself]
    · rw [hother heq]
      exact h.scheduled other
  · by_cases heq : other = o
    · rwa [heq, hself]
    · rw [hother heq, hgates other heq]
      exact h.gated other
  · by_cases heq : other = o
    · rwa [heq, hself, hnames]
    · rw [hother heq] at hnonempty hretired ⊢
      rw [hnames]
      by_cases hname : p.nameOf other = p.nameOf o
      · exact absurd (halone other heq hname hnonempty) hretired
      · rw [(hsync _ hname).1, (hsync _ hname).2]
        exact h.synchronized other hnonempty hretired
  · by_cases heq : other = o
    · rwa [heq]
    · rw [hother heq] at hnonempty hretired
      intro third hthird hname hthird_ne
      rw [hnames, hnames] at hname
      by_cases hthird_eq : third = o
      · subst hthird_eq
        exact absurd (halone other heq hname.symm hnonempty) hretired
      · rw [hother hthird_eq] at hthird_ne ⊢
        exact h.alone other hnonempty hretired third hthird hname hthird_ne
  · by_cases hname : name = p.nameOf o
    · subst hname
      have hretired := hvacant o (hnames o) (hself ▸ hne)
      rw [hself] at hretired
      exact hsynchronized.1.blank (erased_of_retired hretired)
    · rw [(hsync _ hname).1]
      refine h.vacant name fun other hother_name hnonempty => ?_
      have heq : other ≠ o := fun heq => hname (heq ▸ hother_name.symm)
      have := hvacant other ((hnames other).trans hother_name) (hother heq ▸ hnonempty)
      rwa [hother heq] at this
  · rcases hchecker with hnot | ⟨hsame, hnonempty, hlive⟩
    · rw [hacquiring] at hnot
      cases hnot
    · rw [hsame] at hacquiring
      rename_i now todo waiting submission last
      obtain ⟨hsynced, hwaiting⟩ := h.acquiring hacquiring
      by_cases heq : waiting = o
      · subst heq
        rw [hself, hnames]
        exact ⟨hsynchronized.1, halone'⟩
      · have hname : p.nameOf waiting ≠ p.nameOf o := fun hname =>
          hlive (hwaiting o (Ne.symm heq) hname.symm hnonempty)
        rw [hother heq, hnames, (hsync _ hname).1]
        refine ⟨hsynced, fun other hne hother_name hother_nonempty => ?_⟩
        rw [hnames, hnames] at hother_name
        have hother_ne : other ≠ o := fun heq => hname (heq ▸ hother_name.symm)
        rw [hother hother_ne] at hother_nonempty ⊢
        exact hwaiting other hne hother_name hother_nonempty

/-! ## Moves -/

theorem of_setOp (h : Owned p) {o : ℕ} {op : SnapshotOpInfo} {checker : CheckerPhase V}
    (hcmd : op.cmd = (p.ops o).cmd)
    (hgates : op.iterationSyncStates = (p.ops o).iterationSyncStates)
    (hchecker : checker.acquires = false) : Owned ((p.setOp o op).setChecker checker) := by
  refine h.frame rfl rfl rfl (fun other _ => ?_) (fun other => ?_) hchecker
  · exact congrArg (·.snapshotName) (SnapshotOpInfo.cmd_update hcmd other)
  · change Gated _ (Function.update p.ops o op other).iterationSyncStates
    by_cases heq : other = o
    · rw [heq, Function.update_self, hgates]
      exact h.gated o
    · rw [Function.update_of_ne heq]
      exact h.gated other

theorem visit (h : Owned p) (now : Int) (todo : List String) (o : ℕ)
    (events : List (MonitorEvent V)) (hconsistent : (p.ops o).Consistent) :
    Owned (p.visit now todo o events) := by
  have hsame := ((p.ops o).isTimeout_same now).1
  have htaken := SnapshotOpInfo.taken_same now events hconsistent
  rw [SnapshotPipeline.visit]
  dsimp only
  split
  · apply h.of_setOp htaken.cmd htaken.gates
    split <;> rfl
  · exact h.of_setOp hsame.cmd hsame.gates rfl

theorem checker_only (h : Owned p) {checker : CheckerPhase V}
    (hchecker : checker.acquires = false) : Owned (p.setChecker checker) :=
  h.frame rfl rfl rfl (fun _ _ => rfl) h.gated hchecker

/-- When a Header may be scheduled, its operation is the only one of its name. -/
theorem alone_of_clean (hregistry : Registry p) (hclean : p.Clean) {now : Int}
    {todo : List String} {o : ℕ} {submission : SnapshotSubmission V} {last : Bool}
    (hscheduling : p.checker = .scheduling now todo o submission last)
    (hopens : submission.submissionType.header = true) : Alone p o := by
  intro other hne hname hnonempty
  have hregistered : other < p.opCount := by
    by_contra hge
    exact hnonempty (hregistry.unregistered other (by omega))
  have hheld := hregistry.held
  rw [hscheduling] at hheld
  obtain ⟨hpending, hrunning, hlast⟩ := hheld
  have hqueue : (p.ops other).queueName = (p.ops o).queueName := by
    rw [hregistry.names other hregistered, hregistry.names o hpending.registered, hname]
  refine ⟨?_, fun task hmem => ?_⟩
  · rcases hregistry.stopped other hnonempty with hl | hr | hh
    · exact hl
    · cases hcase : last with
      | true => exact absurd hqueue ((hlast hcase).2 _ hr)
      | false =>
          have heq := List.inj_on_of_nodup_map hregistry.keys hr (hrunning hcase) hqueue
          exact absurd (congrArg Prod.snd heq) hne
    · rw [hscheduling] at hh
      exact absurd (Option.some.inj hh).symm hne
  · have hfinished := hclean (o, submission, last) (by simp [hscheduling, CheckerPhase.scheduled?])
      hopens other hregistered hne hname task hmem
    simpa [SubmissionTask.finished] using hfinished

theorem await (h : Owned p) {now : Int} {todo : List String} {o : ℕ}
    {submission : SnapshotSubmission V} {last : Bool} (hnotLast : hasLast (p.tasks o) = false)
    (halone : Alone p o) :
    Owned { p with
      iterationSync := Function.update p.iterationSync (p.nameOf o)
        (p.iterationSync (p.nameOf o)).ensureCv
      checker := .acquiring now todo o submission last } := by
  have hlive := not_retired_of_notLast hnotLast
  have hsynchronized : Synchronized (p.tasks o) (p.iterationSync (p.nameOf o)).ensureCv := by
    by_cases hne : p.tasks o = []
    · have hblank := h.vacant (p.nameOf o) fun other hname hnonempty => by
        refine halone other (fun heq => ?_) hname hnonempty
        exact hnonempty (heq ▸ hne)
      rw [hne]
      exact .nil ⟨hblank.current, hblank.idle, hblank.states⟩ rfl
    · exact (h.synchronized o hne hlive).1.ensureCv
  refine ⟨h.scheduled, h.gated, fun other hnonempty hretired => ?_, h.alone, fun name hvacant => ?_,
    fun hacquiring => ?_⟩
  · by_cases hname : p.nameOf other = p.nameOf o
    · by_cases heq : other = o
      · subst heq
        refine ⟨?_, (h.synchronized other hnonempty hretired).2⟩
        change Synchronized _ (Function.update p.iterationSync (p.nameOf other) _ (p.nameOf other))
        rwa [Function.update_self]
      · exact absurd (halone other heq hname hnonempty) hretired
    · refine ⟨?_, (h.synchronized other hnonempty hretired).2⟩
      change Synchronized _ (Function.update p.iterationSync (p.nameOf o) _ (p.nameOf other))
      rw [Function.update_of_ne hname]
      exact (h.synchronized other hnonempty hretired).1
  · have hblank := h.vacant name hvacant
    change (Function.update p.iterationSync (p.nameOf o) _ name).Blank
    by_cases hname : name = p.nameOf o
    · subst hname
      rw [Function.update_self]
      exact ⟨hblank.current, hblank.idle, hblank.states⟩
    · rwa [Function.update_of_ne hname]
  · cases hacquiring
    refine ⟨?_, halone⟩
    change Synchronized _ (Function.update p.iterationSync (p.nameOf o) _ (p.nameOf o))
    rwa [Function.update_self]

/-- The held submission is scheduled for the next iteration. -/
theorem submit (h : Owned p) {now : Int} {todo : List String} {o k : ℕ}
    {submission : SnapshotSubmission V} {last : Bool} (hpending : Pending p o submission)
    (hlast : last = true → submission.submissionType.tail = true) (halone : Alone p o)
    (hiteration : k = nextIteration (p.tasks o) submission.submissionType.header)
    {entries : String → IterationSync}
    (hsynchronized : Synchronized (p.tasks o ++ [SnapshotPipeline.detached k submission last])
      (entries (p.nameOf o)))
    (hentries : ∀ name ≠ p.nameOf o, entries name = p.iterationSync name)
    (hactive : submission.submissionType.header = false →
      p.activeIterationId (p.nameOf o) = some (headers (p.tasks o))) :
    Owned ({ p with iterationSync := entries }.submit now todo o submission last k) := by
  set task := SnapshotPipeline.detached k submission last with htask
  have hscheduled : Scheduled (p.tasks o ++ [task]) :=
    .snoc (h.scheduled o) hpending.notLast hpending.opens hiteration hlast
  have hsame := { p with iterationSync := entries }.submit_ops now todo o k submission last
  obtain ⟨gates, hops⟩ := hsame
  refine h.replace halone (by simp) rfl (fun _ => SnapshotPipeline.submit_nameOf ..)
    (fun other hne => ?_)
    hscheduled ?_ ⟨hsynchronized, ?_⟩ (fun name hname => ⟨hentries name hname, ?_⟩) (.inl rfl)
  · rw [hops, Function.update_of_ne hne]
  · have hgated := (h.gated o).schedule hscheduled rfl rfl
    simp only [SnapshotPipeline.submit, Function.update_self]
    exact hgated
  · rw [SnapshotPipeline.submit_active, hasLast_snoc, hpending.notLast, headers_snoc]
    change Function.update p.activeIterationId (p.nameOf o) _ (p.nameOf o) = _
    rw [Function.update_self]
    change (if last = true then none else if submission.submissionType.header = true then some k
      else p.activeIterationId (p.nameOf o)) = if last = true then none
        else some (headers (p.tasks o) + submission.submissionType.header.toNat)
    rw [nextIteration] at hiteration
    cases last <;> cases hheader : submission.submissionType.header <;>
      simp_all
  · rw [SnapshotPipeline.submit_active]
    exact Function.update_of_ne hname ..

theorem dequeue (h : Owned p) {o i : ℕ} {task : SubmissionTask V}
    (htask : (p.tasks o)[i]? = some task) (hrank : task.rank = 0) (pool : TaskPool (ℕ × ℕ)) :
    Owned (p.takeTask o i task pool) := by
  have hmem := List.mem_of_getElem? htask
  have hne : p.tasks o ≠ [] := List.ne_nil_of_mem hmem
  have hlive : ¬Retired (p.tasks o) := not_retired_of_task hmem (by omega)
  obtain ⟨hsynchronized, hactive⟩ := h.synchronized o hne hlive
  have hsync_marks : (task.advance .starting).syncMarks = task.syncMarks := by
    have hreleased : (task.advance .starting).released = task.released :=
      (SubmissionTask.released_of_rank (by simp [TaskPhase.rank])).trans
        (SubmissionTask.released_of_rank (by omega)).symm
    simp [SubmissionTask.syncMarks, SubmissionTask.active, SubmissionTask.marked,
      SubmissionTask.erased, SubmissionTask.releasing, hreleased, hrank, TaskPhase.rank]
  have htasks : (p.takeTask o i task pool).tasks =
      Function.update p.tasks o ((p.tasks o).set i (task.advance .starting)) := rfl
  refine h.replace (h.alone o hne hlive) ?_ htasks (fun _ => rfl) (fun _ _ => rfl)
    ((h.scheduled o).advance htask _)
    ((h.gated o).of_marks htask (SubmissionTask.gateMarks_starting hrank))
    ⟨hsynchronized.of_marks htask hsync_marks, ?_⟩
    (fun _ _ => ⟨rfl, rfl⟩) (.inr ⟨rfl, hne, hlive⟩)
  · simpa using hne
  · rw [hasLast_advance htask, headers_advance htask]
    exact hactive

theorem stepTask (h : Owned p) {o i : ℕ} {task : SubmissionTask V} {out : TaskOutcome V}
    (htask : (p.tasks o)[i]? = some task) (hvalid : task.Valid)
    (hout : task.step (p.ops o) (p.iterationSync (p.nameOf o)) = some out) :
    Owned (p.applyOutcome o i task out) := by
  have hmem := List.mem_of_getElem? htask
  have hne : p.tasks o ≠ [] := List.ne_nil_of_mem hmem
  have hlive : ¬Retired (p.tasks o) :=
    not_retired_of_task hmem (SubmissionTask.step_rank hout).2.1
  obtain ⟨hsynchronized, hactive⟩ := h.synchronized o hne hlive
  obtain ⟨gates, removalSet, hop⟩ := SubmissionTask.step_op hout
  have hscheduled := h.scheduled o
  have htasks : (p.applyOutcome o i task out).tasks =
      Function.update p.tasks o ((p.tasks o).set i (task.advance out.phase)) := rfl
  refine h.replace (h.alone o hne hlive) ?_ htasks (fun other => ?_) (fun other hother => ?_)
    (hscheduled.advance htask out.phase) ?_ ⟨?_, ?_⟩ (fun name hname => ⟨?_, rfl⟩)
    (.inr ⟨rfl, hne, hlive⟩)
  · simpa using hne
  · have hcmd : out.op.cmd = (p.ops o).cmd := by rw [hop]
    exact congrArg (·.snapshotName) (SnapshotOpInfo.cmd_update hcmd other)
  · change (Function.update p.ops o out.op other).iterationSyncStates = _
    rw [Function.update_of_ne hother]
  · change Gated _ (Function.update p.ops o out.op o).iterationSyncStates
    rw [Function.update_self]
    exact (h.gated o).step hscheduled hvalid htask hout
  · change Synchronized _ (Function.update p.iterationSync (p.nameOf o) out.sync (p.nameOf o))
    rw [Function.update_self]
    exact hsynchronized.step htask hscheduled hvalid hout
  · rw [hasLast_advance htask, headers_advance htask]
    exact hactive
  · exact Function.update_of_ne hname ..

theorem moves (h : Owned p) (hregistry : Registry p) (hpooled : Pooled threads p)
    (hclean : schedules p → p.Clean)
    (hmoves : SnapshotPipeline.Moves threads registers schedules p p') : Owned p' := by
  have hheld := hregistry.held
  cases hmoves with
  | trigger sleeping => exact h.of_setOp rfl rfl (by rw [sleeping]; rfl)
  | stop sleeping => exact h.of_setOp rfl rfl (by rw [sleeping]; rfl)
  | @register cmd created sleeping allowed =>
      have hgates (other : ℕ) :
          Gated (p.tasks other) ((p.register (.ofCommand cmd created)).ops
            other).iterationSyncStates := by
        rw [SnapshotPipeline.register_ops]
        by_cases heq : other = p.opCount
        · rw [heq, Function.update_self, hregistry.unregistered _ (Nat.le_refl _)]
          exact .nil
        · rw [Function.update_of_ne heq]
          exact h.gated other
      refine h.frame rfl rfl rfl (fun other hne => ?_) hgates (congrArg _ sleeping)
      have hregistered : other ≠ p.opCount := fun heq =>
        hne (hregistry.unregistered other (Nat.le_of_eq heq.symm))
      rw [SnapshotPipeline.nameOf, SnapshotPipeline.register_ops, Function.update_of_ne hregistered]
      rfl
  | scan sleeping => exact h.checker_only rfl
  | @visit now queueName todo o events scanning found =>
      exact h.visit _ _ _ _ (hregistry.consistent o (hregistry.registered_of_found found))
  | remove removing => exact h.checker_only rfl
  | leave removing => exact h.frame rfl rfl rfl (fun _ _ => rfl) h.gated rfl
  | @submit now todo o submission last scheduling continues allowed =>
      rw [scheduling] at hheld
      obtain ⟨hpending, -, hlast⟩ := hheld
      have hopen : isOpen (p.tasks o) = true := by
        simpa [continues] using hpending.opens
      have hne : p.tasks o ≠ [] := fun hnil => by simp [hnil] at hopen
      have hlive := not_retired_of_notLast hpending.notLast
      obtain ⟨hsynchronized, hactive⟩ := h.synchronized o hne hlive
      rw [hpending.notLast] at hactive
      have hk : (p.activeIterationId (p.nameOf o)).getD 0 = headers (p.tasks o) := by
        rw [hactive]
        rfl
      refine h.submit hpending (fun hl => (hlast hl).1) (h.alone o hne hlive) ?_ ?_
        (fun _ _ => rfl) (fun _ => hactive)
      · rw [hk, nextIteration, continues, if_neg Bool.false_ne_true]
      · exact hsynchronized.schedule rfl continues
  | @await now todo o submission last scheduling opens allowed =>
      rw [scheduling] at hheld
      exact h.await hheld.1.notLast (alone_of_clean hregistry (hclean allowed) scheduling opens)
  | @acquire now todo o submission last acquiring idle =>
      rw [acquiring] at hheld
      obtain ⟨hpending, hopens, -, hlast⟩ := hheld
      obtain ⟨hsynchronized, halone⟩ := h.acquiring acquiring
      have hnone := erased_of_notLast hpending.notLast
      refine h.submit hpending (fun hl => (hlast hl).1) halone ?_ ?_ (fun name hname => ?_) ?_
      · rw [nextIteration, hopens, if_pos rfl, ← hsynchronized.current hnone]
      · rw [Function.update_self]
        exact hsynchronized.reserve rfl (h.scheduled o) hnone hopens
      · exact Function.update_of_ne hname ..
      · simp [hopens]
  | sleep scanning => exact h.checker_only rfl
  | dequeue dequeues =>
      obtain ⟨o, i, task, pool, hpool, htask, rfl⟩ := SnapshotPipeline.dequeue_eq_some dequeues
      have hrank : task.rank = 0 := hpooled.rank_of_dequeue hpool htask
      exact h.dequeue htask hrank pool
  | @task o i _ steps =>
      obtain ⟨task, out, htask, hout, rfl⟩ := SnapshotPipeline.stepTask_eq_some steps
      exact h.stepTask htask (hregistry.valid o task (List.mem_of_getElem? htask)) hout

end Owned

/-! ## Runs -/

/-- What holds of the pipeline as long as Headers are scheduled for one operation of a name at a
time. -/
structure Sound (threads : ℕ) (p : SnapshotPipeline V) : Prop where
  registry : Registry p
  pooled : Pooled threads p
  owned : Owned p

theorem Pooled.moves {threads : ℕ}
    {registers : SnapshotPipeline V → RepeatingSnapshotCommand → Prop}
    {schedules : SnapshotPipeline V → Prop} {p p' : SnapshotPipeline V} (h : Pooled threads p)
    (hmoves : SnapshotPipeline.Moves threads registers schedules p p') : Pooled threads p' := by
  cases hmoves with
  | trigger | stop | register | scan | remove | leave | await | sleep => exact h.congr rfl rfl
  | visit =>
      rw [SnapshotPipeline.visit]
      dsimp only
      split <;> exact h.congr rfl rfl
  | submit => exact h.submit rfl rfl (SnapshotPipeline.submit_tasks ..)
  | @acquire now todo o submission last =>
      exact h.submit rfl rfl (SnapshotPipeline.submit_tasks ..)
  | dequeue dequeues => exact h.dequeue dequeues
  | task steps => exact h.stepTask steps

namespace Sound

variable {threads : ℕ} {registers : SnapshotPipeline V → RepeatingSnapshotCommand → Prop}
  {schedules : SnapshotPipeline V → Prop} {p p' : SnapshotPipeline V}

theorem init : Sound threads ({} : SnapshotPipeline V) := ⟨.init, .init, .init⟩

theorem moves (h : Sound threads p) (hclean : schedules p → p.Clean)
    (hmoves : SnapshotPipeline.Moves threads registers schedules p p') : Sound threads p' :=
  ⟨h.registry.moves hmoves, h.pooled.moves hmoves,
    h.owned.moves h.registry h.pooled hclean hmoves⟩

end Sound

namespace ContinuousSnapshotManager

variable {threads : ℕ} {m : ContinuousSnapshotManager V} {labels : List (SnapshotStep V)}

/-- A step that schedules a Header finds the tasks of the other operations of its name
finished. -/
def SchedulesClean (m : ContinuousSnapshotManager V) (label : SnapshotStep V) : Prop :=
  label.isSchedule = true → m.toSnapshotPipeline.Clean

instance (m : ContinuousSnapshotManager V) (label : SnapshotStep V) :
    Decidable (m.SchedulesClean label) :=
  inferInstanceAs (Decidable (label.isSchedule = true → m.toSnapshotPipeline.Clean))

theorem sound_of_run (h : Interleaving.Run (next threads) SchedulesClean {} labels m) :
    Sound threads m.toSnapshotPipeline := by
  have hmoves {p p' : SnapshotPipeline V} (hsound : Sound threads p)
      (hmove : SnapshotPipeline.Moves threads (fun _ _ => True) SnapshotPipeline.Clean p p') :
      Sound threads p' := hsound.moves id hmove
  exact run_invariant (fun _ _ _ _ _ => trivial) (fun _ _ hallowed => hallowed) Sound.init
    hmoves h

end ContinuousSnapshotManager

end K2eg
