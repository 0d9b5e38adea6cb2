import K2eg.Verification.Snapshot.Moves
import K2eg.Verification.Snapshot.Pool
import K2eg.Verification.Snapshot.Schedule

/-! # Running snapshots and the checker

Which operations are running, which one the checker holds and what its submission looks like.
These facts hold of every run; they say nothing about iterations. -/

namespace K2eg

variable {V : Type*}

/-! ## Updates -/

/-- An update keeps a relation to what was there before, where it does so at its own place. -/
theorem rel_update {α : Type*} {r : α → α → Prop} {f : ℕ → α} {o : ℕ} {value : α}
    (hrefl : ∀ other, r (f other) (f other)) (h : r (f o) value) (other : ℕ) :
    r (f other) (Function.update f o value other) := by
  by_cases hother : other = o
  · subst hother
    rwa [Function.update_self]
  · rw [Function.update_of_ne hother]
    exact hrefl other

theorem SnapshotOpInfo.cmd_update {ops : ℕ → SnapshotOpInfo} {o : ℕ} {op : SnapshotOpInfo}
    (hcmd : op.cmd = (ops o).cmd) (other : ℕ) :
    (Function.update ops o op other).cmd = (ops other).cmd :=
  rel_update (r := fun before after : SnapshotOpInfo => after.cmd = before.cmd) (fun _ => rfl) hcmd
    other

theorem SnapshotOpInfo.names_update {ops : ℕ → SnapshotOpInfo} {o : ℕ} {op : SnapshotOpInfo}
    (hcmd : op.cmd = (ops o).cmd) (hqueue : op.queueName = (ops o).queueName) (other : ℕ) :
    (Function.update ops o op other).cmd = (ops other).cmd ∧
      (Function.update ops o op other).queueName = (ops other).queueName :=
  rel_update (r := fun before after : SnapshotOpInfo =>
      after.cmd = before.cmd ∧ after.queueName = before.queueName)
    (fun _ => ⟨rfl, rfl⟩) ⟨hcmd, hqueue⟩ other

theorem SnapshotOpInfo.names_gates (ops : ℕ → SnapshotOpInfo) (o : ℕ)
    (gates : ℕ → Option IterationSyncState) (other : ℕ) :
    (Function.update ops o { ops o with iterationSyncStates := gates } other).cmd =
        (ops other).cmd ∧
      (Function.update ops o { ops o with iterationSyncStates := gates } other).queueName =
        (ops other).queueName := by
  apply names_update <;> rfl

/-! ## Visits -/

namespace SnapshotOpInfo

/-- What a visit may change of an operation: its clocks, its flags and `headerSent`. -/
structure SameButVisit (op op' : SnapshotOpInfo) : Prop where
  cmd : op'.cmd = op.cmd
  queueName : op'.queueName = op.queueName
  isRunning : op'.isRunning = op.isRunning
  gates : op'.iterationSyncStates = op.iterationSyncStates
  futureRetrieved : op'.futureRetrieved = op.futureRetrieved
  removalSet : op'.removalSet = op.removalSet

theorem SameButVisit.trans {op op' op'' : SnapshotOpInfo} (h : SameButVisit op op')
    (h' : SameButVisit op' op'') : SameButVisit op op'' :=
  ⟨h'.cmd.trans h.cmd, h'.queueName.trans h.queueName, h'.isRunning.trans h.isRunning,
    h'.gates.trans h.gates, h'.futureRetrieved.trans h.futureRetrieved,
    h'.removalSet.trans h.removalSet⟩

theorem baseTimeout_same (op : SnapshotOpInfo) (now : Int) :
    SameButVisit op (op.baseTimeout now).2 ∧
      (op.baseTimeout now).2.headerSent = op.headerSent := by
  rw [baseTimeout, windowTimeout]
  split_ifs <;> exact ⟨⟨rfl, rfl, rfl, rfl, rfl, rfl⟩, rfl⟩

theorem isTimeout_same (op : SnapshotOpInfo) (now : Int) :
    SameButVisit op (op.isTimeout now).2 ∧ (op.isTimeout now).2.headerSent = op.headerSent := by
  obtain ⟨⟨h1, h2, h3, h4, h5, h6⟩, h7⟩ := op.baseTimeout_same now
  rw [isTimeout]
  split
  · exact ⟨⟨h1, h2, h3, h4, h5, h6⟩, h7⟩
  · exact ⟨⟨h1, h2, h3, h4, h5, h6⟩, h7⟩
  · dsimp only
    split_ifs <;> exact ⟨⟨h1, h2, h3, h4, h5, h6⟩, h7⟩

/-- Only the buffered kind has its Header sent before its Tail. -/
def Consistent (op : SnapshotOpInfo) : Prop :=
  op.cmd.type = .timedBuffered ∨ op.headerSent = false

theorem isTimeout_consistent {op : SnapshotOpInfo} (now : Int) (hconsistent : op.Consistent) :
    (op.isTimeout now).2.Consistent := by
  obtain ⟨hsame, hsent⟩ := op.isTimeout_same now
  rw [Consistent, hsame.cmd, hsent]
  exact hconsistent

/-- A submission has a Header where none is sent, and the last one has a Tail. -/
theorem getData_spec (op : SnapshotOpInfo) (events : List (MonitorEvent V))
    (hconsistent : op.Consistent) :
    SameButVisit op (op.getData events).2 ∧ (op.getData events).2.Consistent ∧
      (op.getData events).1.submissionType.header = !op.headerSent ∧
      (op.getData events).2.headerSent = !(op.getData events).1.submissionType.tail ∧
      (op.isRunning = false → (op.getData events).1.submissionType.tail = true) := by
  cases htype : op.cmd.type with
  | timedBuffered =>
      have hdata : op.getData events =
          (⟨⟨!op.headerSent, !events.isEmpty, op.winTimeExpired || !op.isRunning⟩, events, 0⟩,
            { op with headerSent := !(op.winTimeExpired || !op.isRunning) }) := by
        simp only [getData, htype]
      rw [hdata]
      exact ⟨⟨rfl, rfl, rfl, rfl, rfl, rfl⟩, .inl htype, rfl, rfl, fun h => by simp [h]⟩
  | unknown | normal =>
      have hsent : op.headerSent = false := by simpa [Consistent, htype] using hconsistent
      have hdata : op.getData events = (⟨⟨true, true, true⟩, events, 0⟩, op) := by
        simp only [getData, htype]
      rw [hdata, hsent]
      exact ⟨⟨rfl, rfl, rfl, rfl, rfl, rfl⟩, .inr hsent, rfl, rfl, fun _ => rfl⟩

/-- The operation after a visit that takes a submission. -/
theorem taken_same {op : SnapshotOpInfo} (now : Int) (events : List (MonitorEvent V))
    (hconsistent : op.Consistent) : SameButVisit op ((op.isTimeout now).2.getData events).2 :=
  (op.isTimeout_same now).1.trans
    ((op.isTimeout now).2.getData_spec events (isTimeout_consistent now hconsistent)).1

/-- A visit changes the operation it is about. -/
theorem visit_ops {p : SnapshotPipeline V} {o : ℕ} (now : Int) (todo : List String)
    (events : List (MonitorEvent V)) (hconsistent : (p.ops o).Consistent) :
    ∃ op, SameButVisit (p.ops o) op ∧
      (p.visit now todo o events).ops = Function.update p.ops o op := by
  rw [SnapshotPipeline.visit]
  dsimp only
  split
  · exact ⟨_, taken_same now events hconsistent, rfl⟩
  · exact ⟨_, ((p.ops o).isTimeout_same now).1, rfl⟩

end SnapshotOpInfo

/-! ## The invariant -/

/-- The operation that the checker has taken out of the scan. -/
def CheckerPhase.held : CheckerPhase V → Option ℕ
  | .sleeping | .scanning .. => none
  | .removing _ _ op .. | .scheduling _ _ op .. | .acquiring _ _ op .. => some op

/-- A submission that the checker has taken from an operation and not scheduled. -/
structure Pending (p : SnapshotPipeline V) (o : ℕ) (submission : SnapshotSubmission V) : Prop where
  registered : o < p.opCount
  notLast : hasLast (p.tasks o) = false
  opens : submission.submissionType.header = !isOpen (p.tasks o)
  sent : (p.ops o).headerSent = !submission.submissionType.tail

/-- The operation is in `snapshot_running_`. -/
def Running (p : SnapshotPipeline V) (o : ℕ) : Prop :=
  ((p.ops o).queueName, o) ∈ p.snapshotRunning

/-- Nothing is in `snapshot_running_` under the name of the operation. -/
def Vacated (p : SnapshotPipeline V) (o : ℕ) : Prop :=
  ∀ entry ∈ p.snapshotRunning, entry.1 ≠ (p.ops o).queueName

/-- The submission that waits to be scheduled; the last one has a Tail, and its operation has
left `snapshot_running_`. -/
def Held (p : SnapshotPipeline V) : CheckerPhase V → Prop
  | .sleeping | .scanning .. => True
  | .removing _ _ o submission _ =>
    Pending p o submission ∧ Running p o ∧ submission.submissionType.tail = true
  | .scheduling _ _ o submission last =>
    Pending p o submission ∧ (last = false → Running p o) ∧
      (last = true → submission.submissionType.tail = true ∧ Vacated p o)
  | .acquiring _ _ o submission last =>
    Pending p o submission ∧ submission.submissionType.header = true ∧
      (last = false → Running p o) ∧
      (last = true → submission.submissionType.tail = true ∧ Vacated p o)

structure Registry (p : SnapshotPipeline V) : Prop where
  unregistered : ∀ o, p.opCount ≤ o → p.tasks o = []
  entries : ∀ entry ∈ p.snapshotRunning, entry.2 < p.opCount ∧
    entry.1 = (p.ops entry.2).queueName ∧ hasLast (p.tasks entry.2) = false
  keys : (p.snapshotRunning.map Prod.fst).Nodup
  names : ∀ o < p.opCount, (p.ops o).queueName = getQueueFromSnapshotName (p.nameOf o)
  consistent : ∀ o < p.opCount, (p.ops o).Consistent
  stopped : ∀ o, p.tasks o ≠ [] →
    hasLast (p.tasks o) = true ∨ Running p o ∨ p.checker.held = some o
  sent : ∀ o < p.opCount, p.checker.held ≠ some o → (p.ops o).headerSent = isOpen (p.tasks o)
  valid : ∀ o, ∀ task ∈ p.tasks o, task.Valid
  held : Held p p.checker

namespace Registry

variable {threads : ℕ} {registers : SnapshotPipeline V → RepeatingSnapshotCommand → Prop}
  {schedules : SnapshotPipeline V → Prop} {p p' : SnapshotPipeline V}

theorem init : Registry ({} : SnapshotPipeline V) where
  unregistered := by simp
  entries := by simp
  keys := List.nodup_nil
  names := by simp
  consistent := by simp
  stopped := by simp
  sent := by simp
  valid := by simp
  held := trivial

/-- What the registry reads of an operation. -/
def SameEntry (op op' : SnapshotOpInfo) : Prop :=
  op'.cmd = op.cmd ∧ op'.queueName = op.queueName ∧ op'.headerSent = op.headerSent

/-- What the registry reads of the tasks of an operation. -/
def SameTasks (tasks tasks' : List (SubmissionTask V)) : Prop :=
  hasLast tasks' = hasLast tasks ∧ isOpen tasks' = isOpen tasks ∧ (tasks' = [] ↔ tasks = [])

theorem held_congr (hcount : p'.opCount = p.opCount)
    (hrunning : p'.snapshotRunning = p.snapshotRunning)
    (hops : ∀ o, SameEntry (p.ops o) (p'.ops o)) (htasks : ∀ o, SameTasks (p.tasks o) (p'.tasks o))
    {checker : CheckerPhase V} (hheld : Held p checker) : Held p' checker := by
  have hrun (o : ℕ) : Running p' o ↔ Running p o := by
    rw [Running, Running, hrunning, (hops o).2.1]
  have hvacated (o : ℕ) : Vacated p' o ↔ Vacated p o := by
    rw [Vacated, Vacated, hrunning, (hops o).2.1]
  have hpending (o : ℕ) (submission : SnapshotSubmission V) (hp : Pending p o submission) :
      Pending p' o submission :=
    ⟨hcount ▸ hp.registered, (htasks o).1 ▸ hp.notLast, (htasks o).2.1 ▸ hp.opens,
      (hops o).2.2 ▸ hp.sent⟩
  cases checker with
  | sleeping | scanning => trivial
  | removing => exact ⟨hpending _ _ hheld.1, (hrun _).mpr hheld.2.1, hheld.2.2⟩
  | scheduling =>
      exact ⟨hpending _ _ hheld.1, fun hlast => (hrun _).mpr (hheld.2.1 hlast),
        fun hlast => ⟨(hheld.2.2 hlast).1, (hvacated _).mpr (hheld.2.2 hlast).2⟩⟩
  | acquiring =>
      exact ⟨hpending _ _ hheld.1, hheld.2.1, fun hlast => (hrun _).mpr (hheld.2.2.1 hlast),
        fun hlast => ⟨(hheld.2.2.2 hlast).1, (hvacated _).mpr (hheld.2.2.2 hlast).2⟩⟩

theorem frame (h : Registry p) (hcount : p'.opCount = p.opCount)
    (hrunning : p'.snapshotRunning = p.snapshotRunning)
    (hops : ∀ o, SameEntry (p.ops o) (p'.ops o)) (htasks : ∀ o, SameTasks (p.tasks o) (p'.tasks o))
    (hvalid : ∀ o, ∀ task ∈ p'.tasks o, task.Valid) (hholds : p'.checker.held = p.checker.held)
    (hheld : Held p p'.checker) : Registry p' := by
  have hrun (o : ℕ) : Running p' o ↔ Running p o := by
    rw [Running, Running, hrunning, (hops o).2.1]
  refine ⟨fun o ho => ?_, fun entry hentry => ?_, ?_, fun o ho => ?_, fun o ho => ?_,
    fun o ho => ?_, fun o ho hne => ?_, hvalid, held_congr hcount hrunning hops htasks hheld⟩
  · exact (htasks o).2.2.mpr (h.unregistered o (hcount ▸ ho))
  · rw [hrunning] at hentry
    rw [hcount, (hops _).2.1, (htasks _).1]
    exact h.entries entry hentry
  · rw [hrunning]
    exact h.keys
  · rw [SnapshotPipeline.nameOf, (hops o).1, (hops o).2.1]
    exact h.names o (hcount ▸ ho)
  · rw [SnapshotOpInfo.Consistent, (hops o).1, (hops o).2.2]
    exact h.consistent o (hcount ▸ ho)
  · rw [(htasks o).1, hrun, hholds]
    exact h.stopped o fun hnil => ho ((htasks o).2.2.mpr hnil)
  · rw [(hops o).2.2, (htasks o).2.1]
    exact h.sent o (hcount ▸ ho) (hholds ▸ hne)

theorem SameEntry.update {ops : ℕ → SnapshotOpInfo} {o : ℕ} {op : SnapshotOpInfo}
    (h : SameEntry (ops o) op) (other : ℕ) :
    SameEntry (ops other) (Function.update ops o op other) :=
  rel_update (fun _ => ⟨rfl, rfl, rfl⟩) h other

theorem SameTasks.advance {tasks : ℕ → List (SubmissionTask V)} {o i : ℕ} {task : SubmissionTask V}
    (h : (tasks o)[i]? = some task) (phase : TaskPhase V) (other : ℕ) :
    SameTasks (tasks other)
      (Function.update tasks o ((tasks o).set i (task.advance phase)) other) :=
  rel_update (fun _ => ⟨rfl, rfl, .rfl⟩)
    ⟨hasLast_advance h phase, isOpen_advance h phase, by simp⟩ other

/-- Operations and tasks stay, the checker goes on with what it holds. -/
theorem frame_checker (h : Registry p) (checker : CheckerPhase V)
    (hholds : checker.held = p.checker.held) (hheld : Held p checker) :
    Registry (p.setChecker checker) :=
  h.frame rfl rfl (fun _ => ⟨rfl, rfl, rfl⟩) (fun _ => ⟨rfl, rfl, .rfl⟩) h.valid hholds hheld

theorem frame_op (h : Registry p) {o : ℕ} {op : SnapshotOpInfo} (hop : SameEntry (p.ops o) op) :
    Registry (p.setOp o op) :=
  h.frame rfl rfl hop.update (fun _ => ⟨rfl, rfl, .rfl⟩) h.valid rfl h.held

theorem frame_task (h : Registry p) {o i : ℕ} {task : SubmissionTask V} {phase : TaskPhase V}
    (htask : (p.tasks o)[i]? = some task) (hvalid : (task.advance phase).Valid)
    (hcount : p'.opCount = p.opCount) (hrunning : p'.snapshotRunning = p.snapshotRunning)
    (hops : ∀ o, SameEntry (p.ops o) (p'.ops o))
    (htasks : p'.tasks = Function.update p.tasks o ((p.tasks o).set i (task.advance phase)))
    (hchecker : p'.checker = p.checker) : Registry p' := by
  refine h.frame hcount hrunning hops (fun other => ?_) (fun other other_task hmem => ?_)
    (by rw [hchecker]) (by rw [hchecker]; exact h.held)
  · rw [htasks]
    exact SameTasks.advance htask phase other
  · rw [htasks] at hmem
    by_cases ho : other = o
    · subst ho
      rw [Function.update_self] at hmem
      rcases List.mem_or_eq_of_mem_set hmem with hmem | rfl
      · exact h.valid other _ hmem
      · exact hvalid
    · rw [Function.update_of_ne ho] at hmem
      exact h.valid other _ hmem

theorem running_of_found (h : Registry p) {queueName : String} {o : ℕ}
    (hfound : p.findRunning queueName = some o) :
    Running p o ∧ queueName = (p.ops o).queueName := by
  obtain ⟨front, back, hrunning, -⟩ := List.lookup_eq_some_iff.mp hfound
  have hmem : (queueName, o) ∈ p.snapshotRunning := by simp [hrunning]
  have hkey : queueName = (p.ops o).queueName := (h.entries _ hmem).2.1
  exact ⟨by rwa [Running, ← hkey], hkey⟩

theorem registered_of_found (h : Registry p) {queueName : String} {o : ℕ}
    (hfound : p.findRunning queueName = some o) : o < p.opCount :=
  (h.entries _ (h.running_of_found hfound).1).1

/-! ## Visits, removals and submissions -/

/-- The checker updates an operation, and may hold it from then on. -/
theorem take (h : Registry p) {o : ℕ} {op : SnapshotOpInfo} {checker : CheckerPhase V}
    (hscanning : p.checker.held = none) (hsame : SnapshotOpInfo.SameButVisit (p.ops o) op)
    (hconsistent : o < p.opCount → op.Consistent)
    (hsent : op.headerSent = (p.ops o).headerSent ∨ checker.held = some o)
    (hheld : Held (p.setOp o op) checker) : Registry ((p.setOp o op).setChecker checker) := by
  have hheld' : Held ((p.setOp o op).setChecker checker) checker := by
    refine held_congr ?_ ?_ (fun _ => ?_) (fun _ => ?_) hheld
    exacts [rfl, rfl, ⟨rfl, rfl, rfl⟩, ⟨rfl, rfl, .rfl⟩]
  have hops := SnapshotOpInfo.names_update hsame.cmd hsame.queueName
  refine ⟨h.unregistered, fun entry hentry => ?_, h.keys, fun other hother => ?_,
    fun other hother => ?_, fun other hother => ?_, fun other hother hne => ?_, h.valid, hheld'⟩
  · obtain ⟨hcount, hkey, hlast⟩ := h.entries entry hentry
    exact ⟨hcount, hkey.trans (hops entry.2).2.symm, hlast⟩
  · change (Function.update p.ops o op other).queueName =
      getQueueFromSnapshotName (Function.update p.ops o op other).cmd.snapshotName
    rw [(hops other).1, (hops other).2]
    exact h.names other hother
  · change (Function.update p.ops o op other).Consistent
    by_cases heq : other = o
    · subst heq
      rw [Function.update_self]
      exact hconsistent hother
    · rw [Function.update_of_ne heq]
      exact h.consistent other hother
  · rcases h.stopped other hother with hlast | hrunning | hholds
    · exact .inl hlast
    · refine .inr (.inl ?_)
      change ((Function.update p.ops o op other).queueName, other) ∈ p.snapshotRunning
      rw [(hops other).2]
      exact hrunning
    · rw [hscanning] at hholds
      cases hholds
  · have hold := h.sent other hother (by simp [hscanning])
    change (Function.update p.ops o op other).headerSent = isOpen (p.tasks other)
    by_cases heq : other = o
    · subst heq
      rw [Function.update_self]
      rcases hsent with hsent | hholds
      · exact hsent.trans hold
      · exact absurd hholds hne
    · rwa [Function.update_of_ne heq]

/-- A visit takes an operation out of the scan if a submission is due. -/
theorem visit (h : Registry p) {now : Int} {todo : List String} {o : ℕ}
    {events : List (MonitorEvent V)} (hscanning : p.checker.held = none) (hrunning : Running p o) :
    Registry (p.visit now todo o events) := by
  obtain ⟨hregistered, -, hlast⟩ := h.entries _ hrunning
  obtain ⟨hsame, hsent⟩ := (p.ops o).isTimeout_same now
  have hconsistent := SnapshotOpInfo.isTimeout_consistent now (h.consistent o hregistered)
  rw [SnapshotPipeline.visit]
  dsimp only
  split
  · obtain ⟨htaken, hconsistent', hopens, hsent', htail⟩ :=
      ((p.ops o).isTimeout now).2.getData_spec events hconsistent
    have hsame' := hsame.trans htaken
    generalize hdata : ((p.ops o).isTimeout now).2.getData events = taken at *
    have hpending : Pending (p.setOp o taken.2) o taken.1 := by
      refine ⟨hregistered, hlast, ?_, ?_⟩
      · rw [hopens, hsent, h.sent o hregistered (by simp [hscanning])]
        rfl
      · rw [SnapshotPipeline.setOp_ops, Function.update_self]
        exact hsent'
    have hrunning' : Running (p.setOp o taken.2) o := by
      rw [Running, SnapshotPipeline.setOp_ops, Function.update_self, hsame'.queueName]
      exact hrunning
    cases hstate : taken.2.isRunning with
    | true =>
        exact h.take hscanning hsame' (fun _ => hconsistent') (.inr rfl)
          ⟨hpending, fun _ => hrunning', fun hfalse => by cases hfalse⟩
    | false =>
        exact h.take hscanning hsame' (fun _ => hconsistent') (.inr rfl)
          ⟨hpending, hrunning', htail (htaken.isRunning ▸ hstate)⟩
  · exact h.take hscanning hsame (fun _ => hconsistent) (.inl hsent) trivial

/-- An operation that leaves `snapshot_running_` leaves its name vacant. -/
theorem leave (h : Registry p) {now : Int} {todo : List String} {o : ℕ}
    {submission : SnapshotSubmission V}
    (hremoving : p.checker = .removing now todo o submission []) :
    Registry ((p.eraseRunning o).setChecker (.scheduling now todo o submission true)) := by
  have hheld := h.held
  rw [hremoving] at hheld
  obtain ⟨hpending, hrunning, htail⟩ := hheld
  have hmem (entry : String × ℕ) : entry ∈ (p.eraseRunning o).snapshotRunning ↔
      entry ∈ p.snapshotRunning ∧ entry.2 ≠ o := by
    simp [SnapshotPipeline.eraseRunning]
  refine ⟨h.unregistered, fun entry hentry => h.entries entry ((hmem entry).mp hentry).1, ?_,
    h.names, h.consistent, fun other hother => ?_, fun other hother hne => ?_, h.valid, ?_⟩
  · exact h.keys.sublist (List.filter_sublist.map Prod.fst)
  · by_cases heq : other = o
    · subst heq
      exact .inr (.inr rfl)
    · rcases h.stopped other hother with hlast | hrun | hholds
      · exact .inl hlast
      · exact .inr (.inl ((hmem _).mpr ⟨hrun, heq⟩))
      · rw [hremoving] at hholds
        exact .inr (.inr hholds)
  · exact h.sent other hother (by rw [hremoving]; exact hne)
  · have hvacated : ∀ entry ∈ (p.eraseRunning o).snapshotRunning,
        entry.1 ≠ (p.ops o).queueName := by
      intro entry hentry hkey
      obtain ⟨hold, hne⟩ := (hmem entry).mp hentry
      have heq : entry = ((p.ops o).queueName, o) :=
        List.inj_on_of_nodup_map h.keys hold hrunning hkey
      exact hne (congrArg Prod.snd heq)
    exact ⟨⟨hpending.registered, hpending.notLast, hpending.opens, hpending.sent⟩,
      Bool.noConfusion, fun _ => ⟨htail, hvacated⟩⟩

/-- Scheduling the submission that the checker holds. -/
theorem submit (h : Registry p) {now : Int} {todo : List String} {o k : ℕ}
    {submission : SnapshotSubmission V} {last : Bool} (hholds : p.checker.held = some o)
    (hpending : Pending p o submission) (hrunning : last = false → Running p o)
    (hlast : last = true → submission.submissionType.tail = true ∧ Vacated p o) :
    Registry (p.submit now todo o submission last k) := by
  obtain ⟨gates, hops⟩ := p.submit_ops now todo o k submission last
  have htasks := p.submit_tasks now todo o k submission last
  have hcount : (p.submit now todo o submission last k).opCount = p.opCount := rfl
  have hrun : (p.submit now todo o submission last k).snapshotRunning = p.snapshotRunning := rfl
  have hentry : SameEntry (p.ops o) { p.ops o with iterationSyncStates := gates } :=
    ⟨rfl, rfl, rfl⟩
  have hsame (other : ℕ) :
      SameEntry (p.ops other) ((p.submit now todo o submission last k).ops other) := by
    rw [hops]
    exact hentry.update other
  have hother {other : ℕ} (hne : other ≠ o) :
      (p.submit now todo o submission last k).tasks other = p.tasks other := by
    rw [htasks, Function.update_of_ne hne]
  have hself : (p.submit now todo o submission last k).tasks o =
      p.tasks o ++ [SnapshotPipeline.detached k submission last] := by
    rw [htasks, Function.update_self]
  have hchecker : (p.submit now todo o submission last k).checker = .scanning now todo := rfl
  generalize p.submit now todo o submission last k = p' at *
  refine ⟨fun other hge => ?_, fun entry hentry => ?_, hrun ▸ h.keys, fun other hlt => ?_,
    fun other hlt => ?_, fun other hne => ?_, fun other hlt _ => ?_, fun other task hmem => ?_, ?_⟩
  · have := hpending.registered
    rw [hother (by omega)]
    exact h.unregistered other (hcount ▸ hge)
  · rw [hrun] at hentry
    obtain ⟨hlt, hkey, hnot⟩ := h.entries entry hentry
    refine ⟨hcount ▸ hlt, hkey.trans (hsame entry.2).2.1.symm, ?_⟩
    by_cases heq : entry.2 = o
    · have hfalse : last = false := by
        by_contra htrue
        exact (hlast (by simpa using htrue)).2 entry hentry (heq ▸ hkey)
      rw [heq, hself, hasLast_snoc, hpending.notLast, hfalse]
      rfl
    · rw [hother heq, hnot]
  · rw [SnapshotPipeline.nameOf, (hsame other).1, (hsame other).2.1]
    exact h.names other (hcount ▸ hlt)
  · rw [SnapshotOpInfo.Consistent, (hsame other).1, (hsame other).2.2]
    exact h.consistent other (hcount ▸ hlt)
  · rw [Running, (hsame other).2.1, hrun]
    by_cases heq : other = o
    · subst heq
      cases hl : last with
      | true =>
          rw [hself, hasLast_snoc, SnapshotPipeline.detached, hl, Bool.or_true]
          exact .inl rfl
      | false => exact .inr (.inl (hrunning hl))
    · rw [hother heq] at hne ⊢
      rcases h.stopped other hne with hl | hr | hh
      · exact .inl hl
      · exact .inr (.inl hr)
      · exact absurd (Option.some.inj (hholds.symm.trans hh)).symm heq
  · rw [(hsame other).2.2]
    by_cases heq : other = o
    · subst heq
      rw [hself, isOpen_snoc, hpending.sent]
      rfl
    · rw [hother heq]
      refine h.sent other (hcount ▸ hlt) fun hh => heq ?_
      exact (Option.some.inj (hholds.symm.trans hh)).symm
  · by_cases heq : other = o
    · subst heq
      rw [hself] at hmem
      rcases List.mem_append.mp hmem with hmem | hmem
      · exact h.valid other task hmem
      · obtain rfl := List.mem_singleton.mp hmem
        exact SubmissionTask.valid_of_rank_le (Nat.zero_le 1) fun hl => (hlast hl).1
    · rw [hother heq] at hmem
      exact h.valid other task hmem
  · rw [hchecker]
    trivial

/-- A new operation has no tasks. -/
theorem register (h : Registry p) (cmd : RepeatingSnapshotCommand) (created : Int)
    (hsleeping : p.checker = .sleeping) : Registry (p.register (.ofCommand cmd created)) := by
  have hops {other : ℕ} (hlt : other < p.opCount) :
      (p.register (.ofCommand cmd created)).ops other = p.ops other := by
    rw [SnapshotPipeline.register_ops, Function.update_of_ne (Nat.ne_of_lt hlt)]
  have hself : (p.register (.ofCommand cmd created)).ops p.opCount = .ofCommand cmd created := by
    rw [SnapshotPipeline.register_ops, Function.update_self]
  have hrun (entry : String × ℕ) :
      entry ∈ (p.register (.ofCommand cmd created)).snapshotRunning →
        entry ∈ p.snapshotRunning ∨
          entry = ((SnapshotOpInfo.ofCommand cmd created).queueName, p.opCount) := by
    rw [SnapshotPipeline.register]
    dsimp only
    split_ifs
    · exact .inl
    · simp
  have hstill (entry : String × ℕ) (hentry : entry ∈ p.snapshotRunning) :
      entry ∈ (p.register (.ofCommand cmd created)).snapshotRunning := by
    rw [SnapshotPipeline.register]
    dsimp only
    split_ifs <;> simp [hentry]
  have hlt_or {other : ℕ} (hlt : other < p.opCount + 1) :
      other < p.opCount ∨ other = p.opCount := by
    omega
  refine ⟨fun other hge => h.unregistered other (Nat.le_of_succ_le hge), fun entry hentry => ?_, ?_,
    fun other hlt => ?_, fun other hlt => ?_, fun other hne => ?_, fun other hlt hne => ?_, h.valid,
    ?_⟩
  · rcases hrun entry hentry with hold | rfl
    · obtain ⟨hlt, hkey, hlast⟩ := h.entries entry hold
      exact ⟨Nat.lt_succ_of_lt hlt, by rw [hops hlt]; exact hkey, hlast⟩
    · refine ⟨Nat.lt_succ_self _, by rw [hself], ?_⟩
      change hasLast (p.tasks p.opCount) = false
      rw [h.unregistered _ (Nat.le_refl _)]
      rfl
  · rw [SnapshotPipeline.register]
    dsimp only
    split_ifs with hfound
    · exact h.keys
    · rw [List.map_append, List.map_singleton]
      refine List.nodup_append.mpr ⟨h.keys, List.nodup_singleton _, ?_⟩
      rintro key hkey _ hnew rfl
      obtain rfl := List.mem_singleton.mp hnew
      apply hfound
      obtain ⟨entry, hentry, heq⟩ := List.mem_map.mp hkey
      rw [SnapshotPipeline.findRunning, List.lookup_isSome_iff]
      exact ⟨entry, hentry, by simp [heq]⟩
  · rcases hlt_or hlt with hlt | rfl
    · rw [SnapshotPipeline.nameOf, hops hlt]
      exact h.names other hlt
    · rw [SnapshotPipeline.nameOf, hself]
      rfl
  · rcases hlt_or hlt with hlt | rfl
    · rw [hops hlt]
      exact h.consistent other hlt
    · rw [hself]
      exact .inr rfl
  · have hlt : other < p.opCount := by
      by_contra hge
      exact hne (h.unregistered other (by omega))
    rcases h.stopped other hne with hl | hr | hh
    · exact .inl hl
    · refine .inr (.inl ?_)
      rw [Running, hops hlt]
      exact hstill _ hr
    · rw [hsleeping] at hh
      cases hh
  · rcases hlt_or hlt with hlt | rfl
    · rw [hops hlt]
      exact h.sent other hlt hne
    · rw [hself]
      change false = isOpen (p.tasks p.opCount)
      rw [h.unregistered _ (Nat.le_refl _)]
      rfl
  · have hchecker : (p.register (.ofCommand cmd created)).checker = .sleeping := hsleeping
    rw [hchecker]
    trivial

theorem moves (h : Registry p) (hmoves : SnapshotPipeline.Moves threads registers schedules p p') :
    Registry p' := by
  cases hmoves with
  | trigger sleeping => exact h.frame_op ⟨rfl, rfl, rfl⟩
  | stop sleeping => exact h.frame_op ⟨rfl, rfl, rfl⟩
  | register sleeping allowed => exact h.register _ _ sleeping
  | scan sleeping => exact h.frame_checker _ (by rw [sleeping]; rfl) trivial
  | @visit now queueName todo o events scanning found =>
      exact h.visit (by rw [scanning]; rfl) (h.running_of_found found).1
  | remove removing =>
      have hheld := h.held
      rw [removing] at hheld
      exact h.frame_checker _ (by rw [removing]; rfl) hheld
  | leave removing => exact h.leave removing
  | submit scheduling continues allowed =>
      have hheld := h.held
      rw [scheduling] at hheld
      exact h.submit (by rw [scheduling]; rfl) hheld.1 hheld.2.1 hheld.2.2
  | await scheduling opens allowed =>
      have hheld := h.held
      rw [scheduling] at hheld
      exact h.frame rfl rfl (fun _ => ⟨rfl, rfl, rfl⟩) (fun _ => ⟨rfl, rfl, .rfl⟩) h.valid
        (by rw [scheduling]; rfl) ⟨hheld.1, opens, hheld.2⟩
  | @acquire now todo o submission last acquiring idle =>
      have hheld := h.held
      rw [acquiring] at hheld
      have hentries : Registry { p with
          iterationSync := Function.update p.iterationSync (p.nameOf o)
            (p.iterationSync (p.nameOf o)).reserve.2 } := by
        refine h.frame ?_ ?_ (fun _ => ?_) (fun _ => ?_) h.valid ?_ h.held
        exacts [rfl, rfl, ⟨rfl, rfl, rfl⟩, ⟨rfl, rfl, .rfl⟩, rfl]
      exact hentries.submit (by rw [acquiring]; rfl) ⟨hheld.1.1, hheld.1.2, hheld.1.3, hheld.1.4⟩
        hheld.2.2.1 hheld.2.2.2
  | sleep scanning => exact h.frame_checker _ (by rw [scanning]; rfl) trivial
  | dequeue dequeues =>
      obtain ⟨o, i, task, pool, -, htask, rfl⟩ := SnapshotPipeline.dequeue_eq_some dequeues
      have hvalid := h.valid o task (List.mem_of_getElem? htask)
      have hstarting : (task.advance .starting).Valid :=
        SubmissionTask.valid_of_rank_le (by simp [TaskPhase.rank]) hvalid.tail_of_last
      exact h.frame_task htask hstarting rfl rfl (fun _ => ⟨rfl, rfl, rfl⟩) rfl rfl
  | task steps =>
      obtain ⟨task, out, htask, hout, rfl⟩ := SnapshotPipeline.stepTask_eq_some steps
      have hvalid := h.valid _ task (List.mem_of_getElem? htask)
      obtain ⟨gates, removalSet, hop⟩ := SubmissionTask.step_op hout
      exact h.frame_task htask (SubmissionTask.step_valid hvalid hout) rfl rfl
        (SameEntry.update ⟨by rw [hop], by rw [hop], by rw [hop]⟩) rfl rfl

/-- The command and the queue of an operation stay from its registration on. -/
theorem same_entries (h : Registry p)
    (hmoves : SnapshotPipeline.Moves threads registers schedules p p') :
    (∃ cmd created, registers p cmd ∧ p' = p.register (.ofCommand cmd created)) ∨
      (p'.opCount = p.opCount ∧ ∀ o, (p'.ops o).cmd = (p.ops o).cmd ∧
        (p'.ops o).queueName = (p.ops o).queueName) := by
  cases hmoves with
  | @trigger o | @stop o => exact .inr ⟨rfl, SnapshotOpInfo.names_update rfl rfl⟩
  | @register cmd created sleeping allowed => exact .inl ⟨cmd, created, allowed, rfl⟩
  | @visit now queueName todo o events scanning found =>
      obtain ⟨op, hsame, hops⟩ := SnapshotOpInfo.visit_ops now todo events
        (h.consistent o (h.registered_of_found found))
      refine .inr ⟨?_, fun other => ?_⟩
      · rw [SnapshotPipeline.visit]
        dsimp only
        split <;> rfl
      · rw [hops]
        exact SnapshotOpInfo.names_update hsame.cmd hsame.queueName other
  | scan | remove | leave | await | sleep => exact .inr ⟨rfl, fun _ => ⟨rfl, rfl⟩⟩
  | @submit now todo o submission last =>
      obtain ⟨gates, hops⟩ := p.submit_ops now todo o _ submission last
      refine .inr ⟨rfl, fun other => ?_⟩
      rw [hops]
      exact SnapshotOpInfo.names_gates p.ops o gates other
  | @acquire now todo o submission last =>
      refine .inr ⟨rfl, fun other => ?_⟩
      obtain ⟨gates, hops⟩ := SnapshotPipeline.submit_ops { p with
        iterationSync := Function.update p.iterationSync (p.nameOf o)
          (p.iterationSync (p.nameOf o)).reserve.2 } now todo o _ submission last
      rw [SnapshotPipeline.reserveAndSubmit, hops]
      exact SnapshotOpInfo.names_gates _ o gates other
  | dequeue dequeues =>
      obtain ⟨o, i, task, pool, -, -, rfl⟩ := SnapshotPipeline.dequeue_eq_some dequeues
      exact .inr ⟨rfl, fun _ => ⟨rfl, rfl⟩⟩
  | @task o _ _ steps =>
      obtain ⟨task, out, -, hout, rfl⟩ := SnapshotPipeline.stepTask_eq_some steps
      obtain ⟨gates, removalSet, hop⟩ := SubmissionTask.step_op hout
      exact .inr ⟨rfl, SnapshotOpInfo.names_update (by rw [hop]) (by rw [hop])⟩

end Registry

end K2eg
