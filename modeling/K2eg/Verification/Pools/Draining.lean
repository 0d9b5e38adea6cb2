import K2eg.Verification.Pools.ThreadPool

/-! # The end of all tasks

Where the calls of `wait` do not overlap, the threads come to the end of the tasks by themselves,
in whatever order they run: no notification that is needed gets lost, and who waits returns. -/

namespace K2eg

open Interleaving

namespace PoolStep

/-- The steps of the threads, of those who wait and of the destructor, without what comes from
outside. -/
def drives : PoolStep → Bool
  | .notifyOne _ | .lock _ | .finish _ | .lockWait _ | .requestStop _ => true
  | _ => false

end PoolStep

/-- The steps that a thread has before it until it sleeps, where `calls` are the calls of `wait`
that it may notify. -/
def WorkerPhase.work (calls : ℕ) : WorkerPhase → ℕ
  | .entering => calls + 1
  | .woken => 1
  | .running _ => calls + 2
  | .waiting | .ended => 0

namespace WorkerPhase

variable (calls task : ℕ)

@[simp] theorem work_waiting : waiting.work calls = 0 := rfl

@[simp] theorem work_ended : ended.work calls = 0 := rfl

@[simp] theorem work_running : (running task).work calls = calls + 2 := rfl

end WorkerPhase

def PoolThread.work (calls : ℕ) (thread : PoolThread) : ℕ :=
  (if thread.stopRequested then 0 else 2) + thread.phase.work calls

theorem PoolThread.notify_phase_ne (thread : PoolThread) : thread.notify.phase ≠ .waiting := by
  rw [notify]
  split
  case isTrue => simp
  case isFalse hphase => exact hphase

namespace ThreadPool

variable {s t : ThreadPool} {i : ℕ} {thread : PoolThread} {step : PoolStep}

/-- `wait` is called where the earlier calls have returned. -/
def Alone (s : ThreadPool) (step : PoolStep) : Prop :=
  step = .wait ∨ step = .destroy → ∀ phase ∈ s.waits, phase = .returned

instance (s : ThreadPool) (step : PoolStep) : Decidable (Alone s step) :=
  inferInstanceAs (Decidable (_ → _))

/-- Nothing is left to be done. -/
structure Drained (s : ThreadPool) : Prop where
  tasks : s.tasks = []
  finished : s.finished.Perm (List.range s.submitted)
  waits : ∀ phase ∈ s.waits, phase = .returned
  threads : s.destructor ≠ none → ∀ thread ∈ s.threads, thread.phase = .ended

/-! ## Who waits is attended to -/

/-- One call at most has not returned; while it sleeps, `waiting` is set and a thread is to come
that notifies it. -/
structure Attended (s : ThreadPool) : Prop where
  single : s.waits.countP (fun phase => phase != .returned) ≤ 1
  flagged : ∀ phase ∈ s.waits, phase ≠ .returned → s.waiting = true
  busy : .waiting ∈ s.waits → s.tasksRunning ≠ 0 ∨ s.tasks ≠ []
  asked : ∀ thread ∈ s.threads, thread.stopRequested = true → thread.phase ≠ .waiting

/-- One thread has changed. -/
theorem Attended.rethread (h : Attended s) (hthreads : t.threads = s.threads)
    (hwaits : t.waits = s.waits) (hwaiting : t.waiting = s.waiting)
    (hbusy : s.tasksRunning ≠ 0 ∨ s.tasks ≠ [] → t.tasksRunning ≠ 0 ∨ t.tasks ≠ [])
    {after : PoolThread} (hafter : after.stopRequested = true → after.phase ≠ .waiting) :
    Attended (t.setThread i after) := by
  refine ⟨?_, ?_, ?_, ?_⟩
  · change t.waits.countP _ ≤ 1
    rw [hwaits]
    exact h.single
  · change ∀ phase ∈ t.waits, phase ≠ .returned → t.waiting = true
    rw [hwaits, hwaiting]
    exact h.flagged
  · change .waiting ∈ t.waits → t.tasksRunning ≠ 0 ∨ t.tasks ≠ []
    rw [hwaits]
    exact fun hmem => hbusy (h.busy hmem)
  · intro other hmem
    rw [setThread_threads, hthreads] at hmem
    rcases List.mem_or_eq_of_mem_set hmem with hmem | rfl
    · exact h.asked other hmem
    · exact hafter

/-- A thread that comes from its task notifies who waits, or leaves something to be done. -/
theorem Attended.leaveTask (h : Attended s) : Attended s.leaveTask := by
  rw [ThreadPool.leaveTask]
  split
  case isTrue =>
    refine ⟨?_, ?_, ?_, h.asked⟩
    · have hsame : (fun phase => phase != WaitPhase.returned) ∘ WaitPhase.notify =
          fun phase => phase != WaitPhase.returned := by
        funext phase
        cases phase <;> rfl
      rw [List.countP_map, hsame]
      exact h.single
    · intro phase hmem hphase
      obtain ⟨before, hbefore, rfl⟩ := List.mem_map.mp hmem
      exact h.flagged before hbefore fun heq => hphase (by rw [heq]; rfl)
    · intro hmem
      obtain ⟨before, -, hnotify⟩ := List.mem_map.mp hmem
      cases before <;> cases hnotify
  case isFalse hleft =>
    refine ⟨h.single, h.flagged, fun hmem => ?_, h.asked⟩
    have hwaiting := h.flagged _ hmem (by simp)
    by_contra hidle
    simp only [not_or, not_not] at hidle
    exact hleft ⟨hwaiting, hidle⟩

theorem Attended.entered (h : Attended s) (thread : PoolThread) : Attended (s.entered thread) := by
  rw [ThreadPool.entered]
  split
  · exact h.leaveTask
  · exact h

theorem Attended.locked (h : Attended s) (i : ℕ) (thread : PoolThread) :
    Attended ((s.entered thread).takeTask i thread) := by
  have hentered := h.entered thread
  rcases (s.entered thread).takeTask_cases i thread with
    ⟨-, heq⟩ | ⟨-, hstop, heq⟩ | ⟨task, tasks, -, -, heq⟩
  · rw [heq]
    refine hentered.rethread ?_ ?_ ?_ ?_ ?_ <;> simp
  · rw [heq]
    refine hentered.rethread ?_ ?_ ?_ ?_ ?_ <;> simp [hstop]
  · rw [heq]
    refine hentered.rethread ?_ ?_ ?_ ?_ ?_ <;> simp

/-- Where all calls have returned, a new one may begin. -/
theorem Attended.began (h : Attended s) (halone : ∀ phase ∈ s.waits, phase = .returned) :
    Attended s.beginWait := by
  have hnone : s.waits.countP (fun phase => phase != .returned) = 0 := by
    rw [List.countP_eq_zero]
    intro phase hmem
    simp [halone phase hmem]
  rcases s.beginWait_cases with ⟨-, -, heq⟩ | ⟨hbusy, heq⟩
  · rw [heq]
    refine ⟨?_, fun phase hmem hphase => ?_, fun hmem => ?_, h.asked⟩
    · rw [List.countP_append, hnone]
      simp
    · rcases List.mem_append.mp hmem with hmem | hmem
      · exact absurd (halone phase hmem) hphase
      · exact absurd (List.mem_singleton.mp hmem) hphase
    · rcases List.mem_append.mp hmem with hmem | hmem
      · cases halone _ hmem
      · cases List.mem_singleton.mp hmem
  · rw [heq]
    refine ⟨?_, fun _ _ _ => rfl, fun _ => hbusy, h.asked⟩
    rw [List.countP_append, hnone]
    simp

theorem Attended.checked (h : Attended s) {call : ℕ} (hcall : s.waits[call]? = some .woken) :
    Attended (s.checkDone call) := by
  rcases s.checkDone_cases call with ⟨-, -, heq⟩ | ⟨hbusy, heq⟩
  · rw [heq]
    have hcount := Slots.countP_set_add hcall .returned (fun phase => phase != .returned)
    have hnone : (s.waits.set call .returned).countP (fun phase => phase != .returned) = 0 := by
      have hsingle := h.single
      simp only [bne_self_eq_false, Bool.toNat_false] at hcount
      have hwoken : (WaitPhase.woken != WaitPhase.returned).toNat = 1 := rfl
      omega
    have hreturned (phase : WaitPhase) (hmem : phase ∈ s.waits.set call .returned) :
        phase = .returned := by
      simpa using List.countP_eq_zero.mp hnone phase hmem
    refine ⟨Nat.le_trans (Nat.le_of_eq hnone) (Nat.zero_le 1), fun phase hmem hphase => ?_,
      fun hmem => ?_, h.asked⟩
    · exact absurd (hreturned phase hmem) hphase
    · cases hreturned _ hmem
  · rw [heq]
    have hcount := Slots.countP_set_add hcall .waiting (fun phase => phase != .returned)
    refine ⟨Nat.le_trans (Nat.le_of_eq (Nat.add_right_cancel hcount)) h.single,
      fun _ _ _ => h.flagged .woken (List.mem_of_getElem? hcall) (by simp), fun _ => hbusy, h.asked⟩

theorem Attended.moved (h : Attended s) (halone : Alone s step) (hmoved : Moved s step t) :
    Attended t := by
  cases hmoved with
  | submitted => exact ⟨h.single, h.flagged, fun _ => .inr (by simp), h.asked⟩
  | unheard => exact ⟨h.single, h.flagged, h.busy, h.asked⟩
  | notified => refine h.rethread ?_ ?_ ?_ ?_ ?_ <;> simp
  | @locked i thread => exact h.locked i thread
  | woken => refine h.rethread ?_ ?_ ?_ ?_ ?_ <;> simp
  | finished => refine h.rethread ?_ ?_ ?_ ?_ ?_ <;> simp
  | began => exact h.began (halone (.inl rfl))
  | checked hcall => exact h.checked hcall
  | @wokenWait call hcall =>
      have hcount := Slots.countP_set_add hcall .woken (fun phase => phase != .returned)
      refine ⟨Nat.le_trans (Nat.le_of_eq (Nat.add_right_cancel hcount)) h.single,
        fun _ _ _ => h.flagged .waiting (List.mem_of_getElem? hcall) (by simp),
        fun _ => h.busy (List.mem_of_getElem? hcall), h.asked⟩
  | destroyed =>
      have hbegan := h.began (halone (.inr rfl))
      exact ⟨hbegan.single, hbegan.flagged, hbegan.busy, hbegan.asked⟩
  | @stopped i thread =>
      exact h.rethread rfl rfl rfl id fun _ => thread.notify_phase_ne

/-! ## The call of the destructor -/

/-- The call of `wait` in the destructor is one of the calls that have begun. -/
def Destroyed (s : ThreadPool) : Prop := ∀ call, s.destructor = some call → call < s.waits.length

theorem Destroyed.keep (h : Destroyed s) (hdestructor : t.destructor = s.destructor)
    (hwaits : s.waits.length ≤ t.waits.length) : Destroyed t :=
  fun call hcall => Nat.lt_of_lt_of_le (h call (hdestructor ▸ hcall)) hwaits

theorem length_beginWait (s : ThreadPool) : s.beginWait.waits.length = s.waits.length + 1 := by
  rcases s.beginWait_cases with ⟨-, -, heq⟩ | ⟨-, heq⟩ <;> rw [heq, List.length_append] <;> rfl

theorem Destroyed.entered (h : Destroyed s) (thread : PoolThread) :
    Destroyed (s.entered thread) := by
  rw [ThreadPool.entered, leaveTask]
  split
  · split
    · exact h.keep rfl (by simp)
    · exact h
  · exact h

theorem Destroyed.moved (h : Destroyed s) (hmoved : Moved s step t) : Destroyed t := by
  cases hmoved with
  | submitted => exact h
  | unheard => exact h
  | notified => exact h
  | @locked i thread =>
      have hentered := h.entered thread
      rcases (s.entered thread).takeTask_cases i thread with
        ⟨-, heq⟩ | ⟨-, -, heq⟩ | ⟨task, tasks, -, -, heq⟩ <;> rw [heq] <;> exact hentered
  | woken => exact h
  | finished => exact h
  | began hdestructor =>
      intro call hcall
      rcases s.beginWait_cases with ⟨-, -, heq⟩ | ⟨-, heq⟩ <;> rw [heq] at hcall <;>
        cases hdestructor.symm.trans hcall
  | @checked call =>
      rcases s.checkDone_cases call with ⟨-, -, heq⟩ | ⟨-, heq⟩ <;> rw [heq] <;>
        exact h.keep rfl (by simp)
  | wokenWait => exact h.keep rfl (by simp)
  | destroyed =>
      intro call hcall
      obtain rfl := Option.some.inj hcall
      rw [length_beginWait]
      exact Nat.lt_succ_self _
  | stopped => exact h

/-- Where all calls have returned, so has the one of a destructor that has begun. -/
theorem Destroyed.isOver (h : Destroyed s) (hdestructor : s.destructor ≠ none)
    (hwaits : ∀ phase ∈ s.waits, phase = .returned) : s.isOver = true := by
  obtain ⟨call, hcall⟩ := Option.ne_none_iff_exists'.mp hdestructor
  refine isOver_iff.mpr ⟨call, hcall, ?_⟩
  rw [List.getElem?_eq_getElem (h call hcall), hwaits _ (List.getElem_mem _)]

/-! ## The work that is left -/

/-- The steps that the pool has before it until all its threads sleep. -/
def work (s : ThreadPool) : ℕ :=
  (s.waits.length + 2) * s.tasks.length + 2 * s.notifies +
    (s.threads.map (PoolThread.work s.waits.length)).sum +
    s.waits.countP (fun phase => phase = .woken)

theorem work_setThread (hi : s.threads[i]? = some thread) (after : PoolThread) :
    (s.setThread i after).work + thread.work s.waits.length =
      s.work + after.work s.waits.length := by
  have hsum := Slots.sum_map_set_add hi after (PoolThread.work s.waits.length)
  change (s.waits.length + 2) * s.tasks.length + 2 * s.notifies +
      ((s.threads.set i after).map (PoolThread.work s.waits.length)).sum +
      s.waits.countP _ + _ = _
  rw [work]
  omega

@[simp] theorem entered_waits_length (s : ThreadPool) (thread : PoolThread) :
    (s.entered thread).waits.length = s.waits.length := by
  rw [entered, leaveTask]
  split
  · split
    · simp
    · rfl
  · rfl

/-- A thread that comes from its task may wake all that wait. -/
theorem work_leaveTask (s : ThreadPool) : s.leaveTask.work ≤ s.work + s.waits.length := by
  rw [leaveTask]
  split
  · have hcount : (s.waits.map WaitPhase.notify).countP (fun phase => phase = .woken) ≤
        s.waits.length := by
      have hle := List.countP_le_length (l := s.waits.map WaitPhase.notify)
        (p := fun phase => decide (phase = .woken))
      rwa [List.length_map] at hle
    rw [work, work]
    simp only [List.length_map]
    omega
  · exact Nat.le_add_right _ _

/-- What a thread does behind its task is less than it has before it. -/
theorem work_entered (s : ThreadPool) (hlooks : thread.looks = true) :
    (s.entered thread).work < s.work + thread.phase.work s.waits.length := by
  rw [entered]
  cases hphase : thread.phase with
  | entering =>
      rw [if_pos rfl, WorkerPhase.work]
      exact Nat.lt_succ_of_le s.work_leaveTask
  | woken =>
      rw [if_neg (by simp), WorkerPhase.work]
      exact Nat.lt_succ_self _
  | _ => simp [PoolThread.looks, hphase] at hlooks

/-- A thread with the mutex takes a task, sleeps or ends, and has less before it. -/
theorem work_locked (hi : s.threads[i]? = some thread) (hlooks : thread.looks = true) :
    ((s.entered thread).takeTask i thread).work < s.work := by
  have hentered := s.work_entered hlooks
  have hthread : (s.entered thread).threads[i]? = some thread := by rwa [entered_threads]
  rcases (s.entered thread).takeTask_cases i thread with
    ⟨-, heq⟩ | ⟨-, -, heq⟩ | ⟨task, tasks, htasks, -, heq⟩
  · have hset := work_setThread hthread { thread with phase := .ended }
    rw [← heq, entered_waits_length] at hset
    simp only [PoolThread.work, WorkerPhase.work_ended] at hset
    omega
  · have hset := work_setThread hthread { thread with phase := .waiting }
    rw [← heq, entered_waits_length] at hset
    simp only [PoolThread.work, WorkerPhase.work_waiting] at hset
    omega
  · have htaken : work { s.entered thread with
        tasks
        tasksRunning := (s.entered thread).tasksRunning + 1
        begun := (s.entered thread).begun ++ [task] } + (s.waits.length + 2) =
          (s.entered thread).work := by
      rw [work, work, htasks, List.length_cons, Nat.mul_succ]
      dsimp only
      rw [entered_waits_length]
      omega
    have hset := work_setThread (s := { s.entered thread with
      tasks
      tasksRunning := (s.entered thread).tasksRunning + 1
      begun := (s.entered thread).begun ++ [task] }) hthread { thread with phase := .running task }
    rw [← heq] at hset
    simp only [PoolThread.work, WorkerPhase.work_running, entered_waits_length] at hset
    dsimp only at htaken
    omega

/-- A call of `wait` that looks returns or sleeps again. -/
theorem work_checkDone {call : ℕ} (hcall : s.waits[call]? = some .woken) :
    (s.checkDone call).work < s.work := by
  have hset (phase : WaitPhase) (hphase : phase ≠ .woken) (waiting : Bool) :
      work { s with waits := s.waits.set call phase, waiting } < s.work := by
    have hcount := Slots.countP_set_add hcall phase (fun phase => decide (phase = .woken))
    rw [work, work]
    simp only [List.length_set]
    simp only [hphase, decide_true, decide_false, Bool.toNat_true, Bool.toNat_false] at hcount
    omega
  rcases s.checkDone_cases call with ⟨-, -, heq⟩ | ⟨-, heq⟩
  · rw [heq]
    exact hset .returned (by simp) false
  · rw [heq]
    exact hset .waiting (by simp) s.waiting

theorem Moved.work_lt (hmoved : Moved s step t) (hdrives : step.drives = true) :
    t.work < s.work := by
  cases hmoved with
  | submitted => cases hdrives
  | unheard hnotifies =>
      rw [work, work]
      dsimp only
      omega
  | @notified i thread hnotifies hi hphase =>
      have hset := work_setThread (s := { s with notifies := s.notifies - 1 }) hi
        { thread with phase := .woken }
      have hless : work { s with notifies := s.notifies - 1 } + 2 = s.work := by
        rw [work, work]
        dsimp only
        omega
      simp only [PoolThread.work, hphase, WorkerPhase.work] at hset
      omega
  | locked hi hlooks => exact work_locked hi hlooks
  | woken => cases hdrives
  | @finished i task thread hi hphase =>
      have hset := work_setThread (s := { s with finished := s.finished ++ [task] }) hi
        { thread with phase := .entering }
      have hsame : work { s with finished := s.finished ++ [task] } = s.work := rfl
      simp only [PoolThread.work, hphase, WorkerPhase.work] at hset
      omega
  | began => cases hdrives
  | checked hcall => exact work_checkDone hcall
  | wokenWait => cases hdrives
  | destroyed => cases hdrives
  | @stopped i thread hi hover hstop =>
      have hset := work_setThread hi { thread.notify with stopRequested := true }
      have hnotify : thread.notify.phase.work s.waits.length ≤
          thread.phase.work s.waits.length + 1 := by
        rw [PoolThread.notify]
        split
        case isTrue hphase => simp [WorkerPhase.work]
        case isFalse => exact Nat.le_succ _
      simp only [PoolThread.work, hstop, if_true, Bool.false_eq_true, if_false] at hset
      dsimp only
      omega

/-! ## Where nothing goes on -/

/-- The threads sleep or have ended. -/
theorem phase_of_stuck (hstuck : ∀ step, step.drives = true → s.next step = none)
    (hi : s.threads[i]? = some thread) : thread.phase = .waiting ∨ thread.phase = .ended := by
  cases hphase : thread.phase with
  | entering =>
      have hlock := hstuck (.lock i) rfl
      simp [next, hi, hphase] at hlock
  | woken =>
      have hlock := hstuck (.lock i) rfl
      simp [next, hi, hphase] at hlock
  | running task =>
      have hfinish := hstuck (.finish i) rfl
      simp [next, hi, hphase] at hfinish
  | waiting => exact .inl rfl
  | ended => exact .inr rfl

theorem notifies_of_stuck (hstuck : ∀ step, step.drives = true → s.next step = none) :
    s.notifies = 0 := by
  by_contra hnotifies
  have hpos : 0 < s.notifies := Nat.pos_of_ne_zero hnotifies
  by_cases hwaiting : ∃ thread ∈ s.threads, thread.phase = .waiting
  · obtain ⟨thread, hmem, hphase⟩ := hwaiting
    obtain ⟨i, hi⟩ := List.getElem?_of_mem hmem
    have hnotify := hstuck (.notifyOne (some i)) rfl
    simp [next, hi, hphase, hpos] at hnotify
  · have hnotify := hstuck (.notifyOne none) rfl
    rw [next, if_pos ⟨hpos, fun thread hmem hphase => hwaiting ⟨thread, hmem, hphase⟩⟩] at hnotify
    cases hnotify

/-- No task is left: who sleeps has been told of none, and nobody ends before the tasks. -/
theorem Kept.tasks_of_stuck (h : Kept s) (hthreads : s.threads ≠ [])
    (hstuck : ∀ step, step.drives = true → s.next step = none) : s.tasks = [] := by
  have hlooks : s.threads.countP PoolThread.looks = 0 := by
    rw [List.countP_eq_zero]
    intro thread hmem
    obtain ⟨i, hi⟩ := List.getElem?_of_mem hmem
    rcases phase_of_stuck hstuck hi with hphase | hphase <;> simp [PoolThread.looks, hphase]
  by_cases hwaiting : ∃ thread ∈ s.threads, thread.phase = .waiting
  · have hawake := h.awake hwaiting
    rw [notifies_of_stuck hstuck, hlooks] at hawake
    exact List.length_eq_zero_iff.mp (Nat.le_zero.mp hawake)
  · obtain ⟨thread, hmem⟩ := List.exists_mem_of_ne_nil _ hthreads
    obtain ⟨i, hi⟩ := List.getElem?_of_mem hmem
    rcases phase_of_stuck hstuck hi with hphase | hphase
    · exact absurd ⟨thread, hmem, hphase⟩ hwaiting
    · exact (h.settled (h.stopped thread hmem (.inr hphase))).1

theorem Kept.idle_of_stuck (h : Kept s)
    (hstuck : ∀ step, step.drives = true → s.next step = none) : s.tasksRunning = 0 := by
  rw [h.counted, List.countP_eq_zero]
  intro thread hmem
  obtain ⟨i, hi⟩ := List.getElem?_of_mem hmem
  rcases phase_of_stuck hstuck hi with hphase | hphase <;> simp [PoolThread.counts, hphase]

/-- The destructor has joined the threads. -/
theorem Attended.ended_of_stuck (h : Attended s) (hover : s.isOver = true)
    (hstuck : ∀ step, step.drives = true → s.next step = none) :
    ∀ thread ∈ s.threads, thread.phase = .ended := by
  by_contra hnot
  push Not at hnot
  obtain ⟨i, thread, hi, hphase, hlast⟩ := Slots.exists_last hnot
  have hwaiting := (phase_of_stuck hstuck hi).resolve_right hphase
  have hstop : thread.stopRequested = false := by
    cases hasked : thread.stopRequested with
    | false => rfl
    | true => exact absurd hwaiting (h.asked thread (List.mem_of_getElem? hi) hasked)
  have hnext : s.isNext i = true := by
    rw [isNext, List.all_eq_true]
    exact fun other hmem => decide_eq_true (not_not.mp (hlast other hmem))
  have hrequest := hstuck (.requestStop i) rfl
  simp [next, hi, hover, hnext, hstop] at hrequest

theorem drained_of_stuck (h : Kept s) (hattended : Attended s) (hdestroyed : Destroyed s)
    (hthreads : s.threads ≠ []) (hstuck : ∀ step, step.drives = true → s.next step = none) :
    Drained s := by
  have htasks := h.tasks_of_stuck hthreads hstuck
  have hidle := h.idle_of_stuck hstuck
  have hwaits (phase : WaitPhase) (hmem : phase ∈ s.waits) : phase = .returned := by
    cases phase with
    | waiting =>
        rcases hattended.busy hmem with hbusy | hbusy
        · exact absurd hidle hbusy
        · exact absurd htasks hbusy
    | woken =>
        obtain ⟨call, hcall⟩ := List.getElem?_of_mem hmem
        have hlock := hstuck (.lockWait call) rfl
        rw [next, if_pos hcall] at hlock
        cases hlock
    | returned => rfl
  exact ⟨htasks, h.all_finished hidle htasks, hwaits, fun hdestructor =>
    hattended.ended_of_stuck (hdestroyed.isOver hdestructor hwaits) hstuck⟩

/-! ## Runs -/

theorem determineThreadCount_pos (numThreads hardwareConcurrency : ℕ) :
    0 < determineThreadCount numThreads hardwareConcurrency := by
  rw [determineThreadCount]
  split
  · assumption
  · split
    · assumption
    · exact Nat.one_pos

theorem Attended.start (numThreads hardwareConcurrency : ℕ) :
    Attended (createThreads numThreads hardwareConcurrency) where
  single := Nat.zero_le 1
  flagged := by simp [createThreads]
  busy := by simp [createThreads]
  asked := by
    intro thread hmem hstop
    rw [List.eq_of_mem_replicate hmem] at hstop
    cases hstop

/-- What holds of the pool along a run whose calls of `wait` do not overlap. -/
def Lively (s : ThreadPool) : Prop := Kept s ∧ Attended s ∧ Destroyed s ∧ s.threads ≠ []

theorem Lively.moved (h : Lively s) (halone : Alone s step) (hnext : s.next step = some t) :
    Lively t := by
  obtain ⟨hkept, hattended, hdestroyed, hthreads⟩ := h
  have hmoved := moved_of_next hnext
  refine ⟨hkept.moved hmoved, hattended.moved halone hmoved, hdestroyed.moved hmoved, ?_⟩
  rw [← List.length_pos_iff] at hthreads ⊢
  rwa [hmoved.threads_length]

theorem Lively.of_run (numThreads hardwareConcurrency : ℕ) {steps : List PoolStep}
    (hrun : Run next Alone (createThreads numThreads hardwareConcurrency) steps s) :
    Lively s := by
  refine hrun.invariant (I := fun _ s => Lively s) ⟨?_, ?_, ?_, ?_⟩ fun h => h.moved
  · exact .start numThreads hardwareConcurrency
  · exact .start numThreads hardwareConcurrency
  · intro call hcall
    cases hcall
  · rw [← List.length_pos_iff, createThreads, List.length_replicate]
    exact determineThreadCount_pos numThreads hardwareConcurrency

theorem alone_of_drives (hdrives : step.drives = true) : Alone s step := by
  rintro (rfl | rfl) <;> cases hdrives

/-- From every state that is reached with calls of `wait` that do not overlap, the steps of the
threads and of those who wait come to an end, in whatever order they are taken; and where none is
possible any more, every task has ended, every call has returned, and a destructor that has begun
has joined its threads. -/
theorem drains_of_run (numThreads hardwareConcurrency : ℕ) {steps future : List PoolStep}
    (hrun : Run next Alone (createThreads numThreads hardwareConcurrency) steps s)
    (hfuture : Run next (fun _ step => step.drives = true) s future t) :
    future.length ≤ s.work ∧
      ((∀ step, step.drives = true → t.next step = none) → Drained t) := by
  obtain ⟨hlively, hlength⟩ := hfuture.length_add_le (I := Lively) work
    (.of_run numThreads hardwareConcurrency hrun) fun h hdrives hnext =>
      ⟨h.moved (alone_of_drives hdrives) hnext, (moved_of_next hnext).work_lt hdrives⟩
  obtain ⟨hkept, hattended, hdestroyed, hthreads⟩ := hlively
  exact ⟨by omega, drained_of_stuck hkept hattended hdestroyed hthreads⟩

/-- A thread sleeps while the destructor waits for the task that it has not been told of. -/
def untold : ThreadPool where
  threads := [{ phase := .waiting }]
  tasks := [0]
  tasksRunning := 0
  waiting := true
  waits := [.waiting]
  destructor := some 0
  notifies := 1
  submitted := 1

theorem drains_of_run_untold :
    Run next Alone (createThreads 0 0) [.lock 0, .detachTask, .destroy] untold ∧
      ∃ t, Run next (fun _ step => step.drives = true) untold
          [.notifyOne (some 0), .lock 0, .finish 0, .lock 0, .lockWait 0, .requestStop 0,
            .lock 0] t ∧
        7 ≤ untold.work ∧ ((∀ step, step.drives = true → t.next step = none) → Drained t) := by
  have hrun : Run next Alone (createThreads 0 0) [.lock 0, .detachTask, .destroy] untold :=
    run_of_execute (by decide)
  obtain ⟨t, hfuture, -⟩ := exists_run next (fun _ step => step.drives = true) untold
    [.notifyOne (some 0), .lock 0, .finish 0, .lock 0, .lockWait 0, .requestStop 0, .lock 0]
    (fun _ => true) (by decide)
  exact ⟨hrun, t, hfuture, drains_of_run 0 0 hrun hfuture⟩

/-- Two calls of `wait` at a time: the one that returns first takes `waiting` back, and the other,
which finds a new task, is not notified of its end. -/
example : (execute next (fun _ _ => True) (createThreads 1 1)
    [.lock 0, .detachTask, .wait, .wait, .notifyOne (some 0), .lock 0, .finish 0, .lock 0,
      .lockWait 0, .detachTask, .lockWait 1, .notifyOne (some 0), .lock 0, .finish 0, .lock 0]).any
      (fun s => s.waits = [.returned, .waiting] ∧ s.finished = [0, 1] ∧ s.tasksRunning = 0) := by
  decide

end ThreadPool

end K2eg
