import K2eg.Foundation.Interleaving
import K2eg.Model.SnapshotRounds
import Mathlib.Data.Int.Order.Basic

/-! # The spacing of iterations

The next Header follows a Tail at the next round that is due: after the window, or after the fast
expiration of a buffered snapshot. The repeat delay plays no part, so it is kept just where it is
not longer than that. -/

namespace K2eg

open Interleaving

variable {s t : SnapshotRounds} {cmd : RepeatingSnapshotCommand} {step : CheckerRound}
  {steps : List CheckerRound} {created : Int}

namespace SnapshotOpInfo

/-- A number of milliseconds. -/
def msec (value : Int) : Int := value * nanosecondsPerMsec

/-! ## When a round is due -/

/-- What a round finds: nothing is due, the window has expired, or a fast expiration is due. -/
inductive Expiry (op : SnapshotOpInfo) (now : Int) : Bool × SnapshotOpInfo → Prop where
  | idle {next : SnapshotOpInfo} (hcmd : next.cmd = op.cmd) (hrunning : next.isRunning = true)
      (hsent : next.headerSent = op.headerSent) (hbegin : next.begin = op.begin)
      (hforced : next.lastForcedExpire = op.lastForcedExpire)
      (hwindow : ¬ now - op.begin > msec op.cmd.timeWindowMsec)
      (hfast : op.cmd.type = .timedBuffered →
        ¬ (now - op.lastForcedExpire).tdiv nanosecondsPerMsec ≥ op.fastExpireTimeMsec) :
      Expiry op now (false, next)
  | window {next : SnapshotOpInfo} (hcmd : next.cmd = op.cmd) (hrunning : next.isRunning = true)
      (hsent : next.headerSent = op.headerSent) (hbegin : next.begin = now)
      (hexpired : now - op.begin > msec op.cmd.timeWindowMsec)
      (hbuffered : op.cmd.type = .timedBuffered → next.lastForcedExpire = now ∧
        next.winTimeExpired = true) : Expiry op now (true, next)
  | fast {next : SnapshotOpInfo} (hcmd : next.cmd = op.cmd) (hrunning : next.isRunning = true)
      (hsent : next.headerSent = op.headerSent) (hbegin : next.begin = op.begin)
      (htype : op.cmd.type = .timedBuffered) (hwindow : next.winTimeExpired = false)
      (hnot : ¬ now - op.begin > msec op.cmd.timeWindowMsec)
      (hforced : (now - op.lastForcedExpire).tdiv nanosecondsPerMsec ≥ op.fastExpireTimeMsec) :
      Expiry op now (true, next)

theorem expiry (op : SnapshotOpInfo) (now : Int) (hrunning : op.isRunning = true)
    (htriggered : op.cmd.triggered = false) : Expiry op now (op.isTimeout now) := by
  have hbase : op.baseTimeout now = op.windowTimeout now := by
    simp [baseTimeout, hrunning, htriggered]
  by_cases hexpired : now - op.begin > op.cmd.timeWindowMsec * nanosecondsPerMsec
  · have hwindow : op.windowTimeout now = (true, { op with begin := now }) := if_pos hexpired
    cases htype : op.cmd.type with
    | timedBuffered =>
        simp only [isTimeout, htype, hbase, hwindow, htriggered, Bool.true_or, if_true]
        exact .window rfl hrunning rfl rfl hexpired fun _ => ⟨rfl, rfl⟩
    | normal =>
        simp only [isTimeout, htype, hbase, hwindow]
        exact .window rfl hrunning rfl rfl hexpired fun h => by rw [htype] at h; cases h
    | unknown =>
        simp only [isTimeout, htype, hbase, hwindow]
        exact .window rfl hrunning rfl rfl hexpired fun h => by rw [htype] at h; cases h
  · have hwindow : op.windowTimeout now = (false, op) := if_neg hexpired
    cases htype : op.cmd.type with
    | timedBuffered =>
        simp only [isTimeout, htype, hbase, hwindow, htriggered, Bool.false_or]
        by_cases hforced :
            (now - op.lastForcedExpire).tdiv nanosecondsPerMsec ≥ op.fastExpireTimeMsec
        · have hdue : decide ((now - op.lastForcedExpire).tdiv nanosecondsPerMsec ≥
              fastExpireTimeMsec { op with winTimeExpired := false }) = true :=
            decide_eq_true hforced
          simp only [hdue, if_true]
          exact .fast rfl hrunning rfl rfl htype rfl hexpired hforced
        · have hdue : decide ((now - op.lastForcedExpire).tdiv nanosecondsPerMsec ≥
              fastExpireTimeMsec { op with winTimeExpired := false }) = false :=
            decide_eq_false hforced
          simp only [hdue]
          exact .idle rfl hrunning rfl rfl rfl hexpired fun _ => hforced
    | normal =>
        simp only [isTimeout, htype, hbase, hwindow]
        exact .idle rfl hrunning rfl rfl rfl hexpired fun h => by rw [htype] at h; cases h
    | unknown =>
        simp only [isTimeout, htype, hbase, hwindow]
        exact .idle rfl hrunning rfl rfl rfl hexpired fun h => by rw [htype] at h; cases h

end SnapshotOpInfo

namespace SnapshotRounds

open SnapshotOpInfo (msec nanosecondsPerMsec Expiry)

/-- The pause before each Header, and the window between two Tails. -/
structure Spaced (cmd : RepeatingSnapshotCommand) (scheduled : List ScheduledMessage) : Prop where
  pause : ∀ iteration time later, .tail iteration time ∈ scheduled →
    .header (iteration + 1) later ∈ scheduled → time + msec cmd.repeatDelayMsec ≤ later
  window : ∀ iteration time later, .tail iteration time ∈ scheduled →
    .tail (iteration + 1) later ∈ scheduled → later - time > msec cmd.timeWindowMsec

/-- A submission with a Tail is scheduled at the time that its round has read: `acquireIteration`
does not wait for it. -/
def Prompt (s : SnapshotRounds) (step : CheckerRound) : Prop :=
  (s.op.isTimeout step.now).1 = true →
    ((s.op.isTimeout step.now).2.getData step.events).1.submissionType.tail = true →
      step.time = step.now

instance (s : SnapshotRounds) (step : CheckerRound) : Decidable (s.Prompt step) := by
  unfold Prompt
  infer_instance

/-- The shortest time, in milliseconds, between a Tail and the next Header. -/
def pauseMsec (cmd : RepeatingSnapshotCommand) : Int :=
  match cmd.type with
  | .timedBuffered =>
    min (SnapshotOpInfo.ofCommand cmd 0).fastExpireTimeMsec cmd.timeWindowMsec
  | _ => cmd.timeWindowMsec

/-! ## What a round schedules -/

/-- A round schedules nothing, a whole iteration, its opening, or its end. -/
inductive Outcome (s t : SnapshotRounds) (step : CheckerRound) : Prop where
  | nothing (hscheduled : t.scheduled = s.scheduled) (hiteration : t.iteration = s.iteration)
      (hsent : t.op.headerSent = s.op.headerSent) (hbegin : t.op.begin = s.op.begin)
      (hforced : t.op.headerSent = false → t.op.lastForcedExpire = s.op.lastForcedExpire)
      (hidle : s.op.headerSent = false → ¬ step.now - s.op.begin > msec s.op.cmd.timeWindowMsec ∧
        (s.op.cmd.type = .timedBuffered →
          ¬ (step.now - s.op.lastForcedExpire).tdiv nanosecondsPerMsec ≥ s.op.fastExpireTimeMsec))
  | whole (hscheduled : t.scheduled = s.scheduled ++
        [.header (s.iteration + 1) step.time, .tail (s.iteration + 1) step.time])
      (hiteration : t.iteration = s.iteration + 1) (hclosed : s.op.headerSent = false)
      (hsent : t.op.headerSent = false) (hbegin : t.op.begin = step.now)
      (hforced : s.op.cmd.type = .timedBuffered → t.op.lastForcedExpire = step.now)
      (hexpired : step.now - s.op.begin > msec s.op.cmd.timeWindowMsec)
      (hprompt : step.time = step.now)
  | opening (hscheduled : t.scheduled = s.scheduled ++ [.header (s.iteration + 1) step.time])
      (hiteration : t.iteration = s.iteration + 1) (hclosed : s.op.headerSent = false)
      (hsent : t.op.headerSent = true) (hbegin : t.op.begin = s.op.begin)
      (htype : s.op.cmd.type = .timedBuffered)
      (hnot : ¬ step.now - s.op.begin > msec s.op.cmd.timeWindowMsec)
      (hforced : (step.now - s.op.lastForcedExpire).tdiv nanosecondsPerMsec ≥
        s.op.fastExpireTimeMsec)
  | closing (hscheduled : t.scheduled = s.scheduled ++ [.tail s.iteration step.time])
      (hiteration : t.iteration = s.iteration) (hopen : s.op.headerSent = true)
      (hsent : t.op.headerSent = false) (hbegin : t.op.begin = step.now)
      (hforced : t.op.lastForcedExpire = step.now)
      (hexpired : step.now - s.op.begin > msec s.op.cmd.timeWindowMsec)
      (hprompt : step.time = step.now)

/-- What stays for a snapshot that is not stopped; only a buffered one has iterations of more than
one submission. -/
structure Running (cmd : RepeatingSnapshotCommand) (s : SnapshotRounds) : Prop where
  command : s.op.cmd = cmd
  running : s.op.isRunning = true
  sent : s.op.headerSent = true → cmd.type = .timedBuffered

theorem round_outcome (h : Running cmd s) (htriggered : cmd.triggered = false)
    (hprompt : s.Prompt step) : Running cmd (s.round step) ∧ Outcome s (s.round step) step := by
  have hexpiry := SnapshotOpInfo.expiry s.op step.now h.running (h.command ▸ htriggered)
  rw [Prompt] at hprompt
  rw [round]
  generalize hresult : s.op.isTimeout step.now = result at hexpiry hprompt
  cases hexpiry with
  | idle hcmd hrunning hsent hbegin hforced hwindow hfast =>
      simp only [Bool.false_eq_true, if_false]
      exact ⟨⟨hcmd.trans h.command, hrunning, fun hopen => h.sent (hsent ▸ hopen)⟩,
        .nothing rfl rfl hsent hbegin (fun _ => hforced) fun _ => ⟨hwindow, hfast⟩⟩
  | window hcmd hrunning hsent hbegin hexpired hbuffered =>
      rename_i op
      simp only [if_true, SnapshotRounds.schedule]
      cases htype : cmd.type with
      | timedBuffered =>
          have htypeOp : s.op.cmd.type = .timedBuffered := by rw [h.command, htype]
          have htypeNext : op.cmd.type = .timedBuffered := by rw [hcmd, htypeOp]
          obtain ⟨hforced, hwindow⟩ := hbuffered htypeOp
          simp only [SnapshotOpInfo.getData, htypeNext, hwindow, Bool.true_or] at hprompt ⊢
          have htime := hprompt trivial trivial
          refine ⟨⟨hcmd.trans h.command, hrunning, nofun⟩, ?_⟩
          cases hopen : s.op.headerSent with
          | false =>
              rw [hopen] at hsent
              refine .whole ?_ ?_ hopen rfl hbegin (fun _ => hforced) hexpired htime
              · simp [hsent]
              · simp [hsent]
          | true =>
              rw [hopen] at hsent
              refine .closing ?_ ?_ hopen rfl hbegin hforced hexpired htime
              · simp [hsent]
              · simp [hsent]
      | _ =>
          have htypeNext : op.cmd.type = cmd.type := by rw [hcmd, h.command]
          have hclosed : s.op.headerSent = false := by
            refine Bool.eq_false_iff.2 fun hopen => ?_
            have hbuffer := h.sent hopen
            rw [htype] at hbuffer
            cases hbuffer
          simp only [SnapshotOpInfo.getData, htypeNext, htype] at hprompt ⊢
          have htime := hprompt trivial trivial
          refine ⟨⟨hcmd.trans h.command, hrunning, fun hopen => ?_⟩,
            .whole (by simp) rfl hclosed (hsent.trans hclosed) hbegin
              (fun hbuffer => ?_) hexpired htime⟩
          · rw [hsent, hclosed] at hopen
            cases hopen
          · rw [h.command, htype] at hbuffer
            cases hbuffer
  | fast hcmd hrunning hsent hbegin htype hwindow hnot hforced =>
      rename_i op
      have htypeNext : op.cmd.type = .timedBuffered := by rw [hcmd, htype]
      simp only [if_true, SnapshotRounds.schedule, SnapshotOpInfo.getData, htypeNext, hwindow,
        hrunning, Bool.not_true, Bool.or_self]
      refine ⟨⟨hcmd.trans h.command, rfl, fun _ => h.command ▸ htype⟩, ?_⟩
      cases hopen : s.op.headerSent with
      | false =>
          rw [hopen] at hsent
          refine .opening ?_ ?_ hopen rfl hbegin htype hnot hforced
          · simp [hsent]
          · simp [hsent]
      | true =>
          rw [hopen] at hsent
          refine .nothing ?_ ?_ hopen.symm hbegin nofun fun hclosed => ?_
          · simp [hsent]
          · simp [hsent]
          · rw [hopen] at hclosed
            cases hclosed

/-! ## The invariant -/

/-- The last iteration whose Tail is due or scheduled. -/
def lastClosed (s : SnapshotRounds) : ℕ :=
  if s.op.headerSent then s.iteration - 1 else s.iteration

theorem lastClosed_of_closed (h : s.op.headerSent = false) : s.lastClosed = s.iteration := by
  rw [lastClosed, h]
  rfl

theorem lastClosed_of_open (h : s.op.headerSent = true) : s.lastClosed = s.iteration - 1 := by
  rw [lastClosed, h]
  rfl

/-- The window began with the last Tail, and so did the fast expiration until the next Header. -/
structure Paced (cmd : RepeatingSnapshotCommand) (s : SnapshotRounds) : Prop where
  snapshot : Running cmd s
  spaced : Spaced cmd s.scheduled
  begin_le : s.op.begin ≤ s.clock
  header_le : ∀ iteration time, .header iteration time ∈ s.scheduled → iteration ≤ s.iteration
  tail_le : ∀ iteration time, .tail iteration time ∈ s.scheduled → iteration ≤ s.lastClosed
  tail_last : ∀ time, .tail s.lastClosed time ∈ s.scheduled → time = s.op.begin
  rested : cmd.type = .timedBuffered → s.op.headerSent = false →
    s.op.lastForcedExpire = s.op.begin
  opened : s.op.headerSent = true → 1 ≤ s.iteration

namespace Paced

theorem start (cmd : RepeatingSnapshotCommand) (created : Int) :
    Paced cmd (SnapshotRounds.start cmd created) where
  snapshot := ⟨rfl, rfl, nofun⟩
  spaced := ⟨nofun, nofun⟩
  begin_le := le_refl _
  header_le := nofun
  tail_le := nofun
  tail_last := nofun
  rested := fun _ _ => rfl
  opened := nofun

/-- Nothing is scheduled. -/
theorem nothing (h : Paced cmd s) (hsnapshot : Running cmd t) (hclock : s.clock ≤ t.clock)
    (hscheduled : t.scheduled = s.scheduled) (hiteration : t.iteration = s.iteration)
    (hsent : t.op.headerSent = s.op.headerSent) (hbegin : t.op.begin = s.op.begin)
    (hforced : t.op.headerSent = false → t.op.lastForcedExpire = s.op.lastForcedExpire) :
    Paced cmd t := by
  have hlast : t.lastClosed = s.lastClosed := by rw [lastClosed, lastClosed, hsent, hiteration]
  constructor
  case snapshot => exact hsnapshot
  case spaced => exact hscheduled ▸ h.spaced
  case begin_le => exact hbegin ▸ h.begin_le.trans hclock
  case header_le =>
    rw [hscheduled, hiteration]
    exact h.header_le
  case tail_le =>
    rw [hscheduled, hlast]
    exact h.tail_le
  case tail_last =>
    rw [hscheduled, hlast, hbegin]
    exact h.tail_last
  case rested =>
    intro htype hclosed
    rw [hforced hclosed, hbegin]
    exact h.rested htype (hsent ▸ hclosed)
  case opened =>
    rw [hsent, hiteration]
    exact h.opened

/-- A Header is scheduled after the pause, and perhaps its Tail with it. -/
theorem spaced_header (h : Paced cmd s) (hclosed : s.op.headerSent = false)
    (hpause : s.op.begin + msec cmd.repeatDelayMsec ≤ step.time) {tails : List ScheduledMessage}
    (htails : ∀ message ∈ tails, message = .tail (s.iteration + 1) step.time)
    (hwindow : tails ≠ [] → step.time - s.op.begin > msec cmd.timeWindowMsec) :
    Spaced cmd (s.scheduled ++ .header (s.iteration + 1) step.time :: tails) := by
  have hlast := lastClosed_of_closed hclosed
  have htail : ∀ iteration time,
      .tail iteration time ∈ s.scheduled ++ .header (s.iteration + 1) step.time :: tails →
        .tail iteration time ∈ s.scheduled ∨
          iteration = s.iteration + 1 ∧ time = step.time ∧ tails ≠ [] := by
    intro iteration time hmem
    rcases List.mem_append.1 hmem with hold | hnew
    · exact .inl hold
    · rcases List.mem_cons.1 hnew with hhead | hin
      · cases hhead
      · obtain ⟨rfl, rfl⟩ := ScheduledMessage.tail.inj (htails _ hin)
        exact .inr ⟨rfl, rfl, List.ne_nil_of_mem hin⟩
  have hheader : ∀ iteration time,
      .header iteration time ∈ s.scheduled ++ .header (s.iteration + 1) step.time :: tails →
        .header iteration time ∈ s.scheduled ∨
          iteration = s.iteration + 1 ∧ time = step.time := by
    intro iteration time hmem
    rcases List.mem_append.1 hmem with hold | hnew
    · exact .inl hold
    · rcases List.mem_cons.1 hnew with hhead | hin
      · exact .inr (ScheduledMessage.header.inj hhead)
      · exact absurd (htails _ hin) (by simp)
  constructor
  case pause =>
    intro iteration time later htailMem hheaderMem
    rcases htail iteration time htailMem with hold | ⟨rfl, -, -⟩
    · rcases hheader (iteration + 1) later hheaderMem with hbefore | ⟨hsame, rfl⟩
      · exact h.spaced.pause iteration time later hold hbefore
      · obtain rfl : iteration = s.iteration := by omega
        rw [h.tail_last time (hlast ▸ hold)]
        exact hpause
    · rcases hheader _ later hheaderMem with hbefore | ⟨hsame, -⟩
      · have hle := h.header_le _ later hbefore
        omega
      · omega
  case window =>
    intro iteration time later hfirst hsecond
    rcases htail (iteration + 1) later hsecond with hbefore | ⟨hsame, rfl, htailsNe⟩
    · rcases htail iteration time hfirst with hold | ⟨rfl, -, -⟩
      · exact h.spaced.window iteration time later hold hbefore
      · have hle := h.tail_le _ later hbefore
        omega
    · obtain rfl : iteration = s.iteration := by omega
      rcases htail s.iteration time hfirst with hold | ⟨hne, -, -⟩
      · rw [h.tail_last time (hlast ▸ hold)]
        exact hwindow htailsNe
      · omega

/-- A whole iteration is scheduled. -/
theorem whole (h : Paced cmd s) (hsnapshot : Running cmd t) (hclock : step.now ≤ t.clock)
    (hscheduled : t.scheduled = s.scheduled ++
      [.header (s.iteration + 1) step.time, .tail (s.iteration + 1) step.time])
    (hiteration : t.iteration = s.iteration + 1) (hclosed : s.op.headerSent = false)
    (hsent : t.op.headerSent = false) (hbegin : t.op.begin = step.now)
    (hforced : s.op.cmd.type = .timedBuffered → t.op.lastForcedExpire = step.now)
    (hpause : s.op.begin + msec cmd.repeatDelayMsec ≤ step.time)
    (hwindow : step.time - s.op.begin > msec cmd.timeWindowMsec) (hprompt : step.time = step.now) :
    Paced cmd t := by
  have hlast : t.lastClosed = s.iteration + 1 := by rw [lastClosed_of_closed hsent, hiteration]
  constructor
  case snapshot => exact hsnapshot
  case spaced =>
    rw [hscheduled]
    exact h.spaced_header hclosed hpause (fun message hmem => List.mem_singleton.1 hmem)
      fun _ => hwindow
  case begin_le => exact hbegin ▸ hclock
  case header_le =>
    intro iteration time hmem
    simp only [hscheduled, List.mem_append, List.mem_cons, ScheduledMessage.header.injEq,
      reduceCtorEq, List.not_mem_nil, or_false] at hmem
    rcases hmem with hold | ⟨rfl, -⟩
    · exact hiteration ▸ (h.header_le iteration time hold).trans (Nat.le_succ _)
    · exact hiteration ▸ le_refl _
  case tail_le =>
    intro iteration time hmem
    simp only [hscheduled, List.mem_append, List.mem_cons, ScheduledMessage.tail.injEq,
      reduceCtorEq, List.not_mem_nil, or_false, false_or] at hmem
    rcases hmem with hold | ⟨rfl, -⟩
    · have hle := h.tail_le iteration time hold
      rw [lastClosed_of_closed hclosed] at hle
      exact hlast ▸ hle.trans (Nat.le_succ _)
    · exact hlast ▸ le_refl _
  case tail_last =>
    intro time hmem
    simp only [hscheduled, hlast, List.mem_append, List.mem_cons, ScheduledMessage.tail.injEq,
      reduceCtorEq, List.not_mem_nil, or_false, false_or, true_and] at hmem
    rcases hmem with hold | rfl
    · have hle := h.tail_le _ time hold
      rw [lastClosed_of_closed hclosed] at hle
      omega
    · rw [hbegin, hprompt]
  case rested =>
    intro htype _
    rw [hforced (h.snapshot.command ▸ htype), hbegin]
  case opened =>
    intro hopen
    rw [hsent] at hopen
    cases hopen

/-- The opening of an iteration is scheduled. -/
theorem opening (h : Paced cmd s) (hsnapshot : Running cmd t) (hclock : s.clock ≤ t.clock)
    (hscheduled : t.scheduled = s.scheduled ++ [.header (s.iteration + 1) step.time])
    (hiteration : t.iteration = s.iteration + 1) (hclosed : s.op.headerSent = false)
    (hsent : t.op.headerSent = true) (hbegin : t.op.begin = s.op.begin)
    (hpause : s.op.begin + msec cmd.repeatDelayMsec ≤ step.time) : Paced cmd t := by
  have hlast : t.lastClosed = s.lastClosed := by
    rw [lastClosed_of_open hsent, lastClosed_of_closed hclosed, hiteration, Nat.add_sub_cancel]
  have htail : ∀ iteration time, .tail iteration time ∈ t.scheduled →
      .tail iteration time ∈ s.scheduled := by
    intro iteration time hmem
    simpa [hscheduled] using hmem
  constructor
  case snapshot => exact hsnapshot
  case spaced =>
    rw [hscheduled]
    exact h.spaced_header hclosed hpause (fun message hmem => absurd hmem List.not_mem_nil)
      fun hne => absurd rfl hne
  case begin_le => exact hbegin ▸ h.begin_le.trans hclock
  case header_le =>
    intro iteration time hmem
    simp only [hscheduled, List.mem_append, List.mem_singleton, ScheduledMessage.header.injEq]
      at hmem
    rcases hmem with hold | ⟨rfl, -⟩
    · exact hiteration ▸ (h.header_le iteration time hold).trans (Nat.le_succ _)
    · exact hiteration ▸ le_refl _
  case tail_le => exact fun iteration time hmem => hlast ▸ h.tail_le _ time (htail _ time hmem)
  case tail_last =>
    intro time hmem
    rw [hlast] at hmem
    rw [hbegin]
    exact h.tail_last time (htail _ time hmem)
  case rested =>
    intro _ hnot
    rw [hsent] at hnot
    cases hnot
  case opened => exact fun _ => hiteration ▸ Nat.succ_pos _

/-- The end of an iteration is scheduled. -/
theorem closing (h : Paced cmd s) (hsnapshot : Running cmd t) (hclock : step.now ≤ t.clock)
    (hscheduled : t.scheduled = s.scheduled ++ [.tail s.iteration step.time])
    (hiteration : t.iteration = s.iteration) (hopen : s.op.headerSent = true)
    (hsent : t.op.headerSent = false) (hbegin : t.op.begin = step.now)
    (hforced : t.op.lastForcedExpire = step.now)
    (hwindow : step.time - s.op.begin > msec cmd.timeWindowMsec) (hprompt : step.time = step.now) :
    Paced cmd t := by
  have hfirst := h.opened hopen
  have hbefore := lastClosed_of_open hopen
  have hlast : t.lastClosed = s.iteration := by rw [lastClosed_of_closed hsent, hiteration]
  have hheader : ∀ iteration time, .header iteration time ∈ t.scheduled →
      .header iteration time ∈ s.scheduled := by
    intro iteration time hmem
    simpa [hscheduled] using hmem
  have htail : ∀ iteration time, .tail iteration time ∈ t.scheduled →
      .tail iteration time ∈ s.scheduled ∨ iteration = s.iteration ∧ time = step.time := by
    intro iteration time hmem
    simpa [hscheduled] using hmem
  constructor
  case snapshot => exact hsnapshot
  case spaced =>
    constructor
    case pause =>
      intro iteration time later htailMem hheaderMem
      have hbound := h.header_le _ later (hheader _ later hheaderMem)
      rcases htail iteration time htailMem with hold | ⟨rfl, -⟩
      · exact h.spaced.pause iteration time later hold (hheader _ later hheaderMem)
      · omega
    case window =>
      intro iteration time later hone htwo
      rcases htail (iteration + 1) later htwo with hold | ⟨hsame, rfl⟩
      · have hbound := h.tail_le _ later hold
        rcases htail iteration time hone with holdFirst | ⟨rfl, -⟩
        · exact h.spaced.window iteration time later holdFirst hold
        · omega
      · rcases htail iteration time hone with hold | ⟨rfl, -⟩
        · have hsameLast : iteration = s.lastClosed := by omega
          rw [h.tail_last time (hsameLast ▸ hold)]
          exact hwindow
        · omega
  case begin_le => exact hbegin ▸ hclock
  case header_le =>
    exact fun iteration time hmem => hiteration ▸ h.header_le _ time (hheader _ time hmem)
  case tail_le =>
    intro iteration time hmem
    rcases htail iteration time hmem with hold | ⟨rfl, -⟩
    · have hbound := h.tail_le _ time hold
      omega
    · exact hlast ▸ le_refl _
  case tail_last =>
    intro time hmem
    rw [hlast] at hmem
    rcases htail _ time hmem with hold | ⟨-, rfl⟩
    · have hbound := h.tail_le _ time hold
      omega
    · rw [hbegin, hprompt]
  case rested => exact fun _ _ => hforced.trans hbegin.symm
  case opened =>
    intro hnot
    rw [hsent] at hnot
    cases hnot

end Paced

/-! ## The pause -/

/-- The bounds that `startSnapshot` checks. -/
structure Accepted (cmd : RepeatingSnapshotCommand) : Prop where
  type : cmd.type ≠ .unknown
  checked : ∀ created, ContinuousSnapshotManager.prepareError (.ofCommand cmd created) = none

theorem Accepted.window_nonneg (h : Accepted cmd) : 0 ≤ cmd.timeWindowMsec := by
  have hchecked := h.checked 0
  by_contra hneg
  simp only [ContinuousSnapshotManager.prepareError] at hchecked
  by_cases hempty : (SnapshotOpInfo.ofCommand cmd 0).cmd.pvNameList = []
  · rw [if_pos hempty] at hchecked
    cases hchecked
  · rw [if_neg hempty] at hchecked
    by_cases hdelay : (SnapshotOpInfo.ofCommand cmd 0).cmd.repeatDelayMsec < 0
    · rw [if_pos hdelay] at hchecked
      cases hchecked
    · have hwindow : (SnapshotOpInfo.ofCommand cmd 0).cmd.timeWindowMsec < 0 := not_le.1 hneg
      rw [if_neg hdelay, if_pos hwindow] at hchecked
      cases hchecked

theorem pauseMsec_le_window (cmd : RepeatingSnapshotCommand) :
    pauseMsec cmd ≤ cmd.timeWindowMsec := by
  rw [pauseMsec]
  split
  · exact min_le_right _ _
  · exact le_refl _

theorem msec_le_msec {a b : Int} (h : a ≤ b) : msec a ≤ msec b := by
  simp only [msec, nanosecondsPerMsec]
  omega

/-- A fast expiration comes after its time. -/
theorem msec_le_of_tdiv {elapsed fast : Int} (helapsed : 0 ≤ elapsed)
    (h : elapsed.tdiv nanosecondsPerMsec ≥ fast) : msec fast ≤ elapsed := by
  rw [Int.tdiv_eq_ediv_of_nonneg helapsed] at h
  simp only [msec, nanosecondsPerMsec] at h ⊢
  omega

theorem fastExpire_nonneg (h : 0 ≤ cmd.timeWindowMsec) :
    0 ≤ (SnapshotOpInfo.ofCommand cmd created).fastExpireTimeMsec := by
  have hwindow : 0 ≤ (SnapshotOpInfo.ofCommand cmd created).cmd.timeWindowMsec := h
  simp only [SnapshotOpInfo.fastExpireTimeMsec]
  split
  · split
    · omega
    · split <;> omega
  · split
    · decide
    · exact hwindow

theorem fastExpire_of_command (op : SnapshotOpInfo) (created : Int) :
    op.fastExpireTimeMsec = (SnapshotOpInfo.ofCommand op.cmd created).fastExpireTimeMsec := rfl

/-- A round ends between the time that it has read and the time of its submission. -/
theorem clock_round (hle : step.now ≤ step.time) :
    step.now ≤ (s.round step).clock ∧ (s.round step).clock ≤ step.time := by
  simp only [round]
  by_cases htimeout : (s.op.isTimeout step.now).1 = true
  · rw [if_pos htimeout]
    exact ⟨hle, le_refl _⟩
  · rw [if_neg htimeout]
    exact ⟨le_refl _, hle⟩

/-- Each round keeps the pace. -/
theorem Paced.round (h : Paced cmd s) (htriggered : cmd.triggered = false)
    (hdelay : cmd.repeatDelayMsec ≤ pauseMsec cmd) (hprompt : s.Prompt step)
    (hclock : s.clock ≤ step.now) (htime : step.now ≤ step.time) : Paced cmd (s.round step) := by
  obtain ⟨hsnapshot, houtcome⟩ := round_outcome h.snapshot htriggered hprompt
  have hnow : step.now ≤ (s.round step).clock := (clock_round htime).1
  have hbegin := h.begin_le.trans hclock
  have hwindow := msec_le_msec (hdelay.trans (pauseMsec_le_window cmd))
  cases houtcome with
  | nothing hscheduled hiteration hsent hbegin hforced _ =>
      exact h.nothing hsnapshot (hclock.trans hnow) hscheduled hiteration hsent hbegin hforced
  | whole hscheduled hiteration hclosed hsent hbegin hforced hexpired hsame =>
      rw [h.snapshot.command] at hexpired
      rw [← hsame] at hexpired
      refine h.whole hsnapshot hnow hscheduled hiteration hclosed hsent hbegin hforced ?_ hexpired
        hsame
      omega
  | opening hscheduled hiteration hclosed hsent hsame htype _ hforced =>
      have hbuffered : cmd.type = .timedBuffered := h.snapshot.command ▸ htype
      rw [h.rested hbuffered hclosed] at hforced
      have hfast := msec_le_of_tdiv (Int.sub_nonneg_of_le hbegin) hforced
      have hpause : cmd.repeatDelayMsec ≤ s.op.fastExpireTimeMsec := by
        apply hdelay.trans
        rw [pauseMsec, hbuffered, fastExpire_of_command s.op, h.snapshot.command]
        exact min_le_left _ _
      have hmsec := msec_le_msec hpause
      apply h.opening hsnapshot (hclock.trans hnow) hscheduled hiteration hclosed hsent hsame
      omega
  | closing hscheduled hiteration hopen hsent hbegin hforced hexpired hsame =>
      rw [h.snapshot.command] at hexpired
      rw [← hsame] at hexpired
      exact h.closing hsnapshot hnow hscheduled hiteration hopen hsent hbegin hforced hexpired hsame

theorem Paced.of_next (h : Paced cmd s) (htriggered : cmd.triggered = false)
    (hdelay : cmd.repeatDelayMsec ≤ pauseMsec cmd) (hprompt : s.Prompt step)
    (hnext : s.next step = some t) : Paced cmd t := by
  rw [next] at hnext
  split at hnext
  case isFalse => cases hnext
  case isTrue hclock =>
    obtain rfl := Option.some.inj hnext
    exact h.round htriggered hdelay hprompt hclock.1 hclock.2

/-! ## Delays that are not kept -/

/-- A round on a closed snapshot at which something is due schedules a Header. -/
theorem header_of_due (h : Running cmd s) (htriggered : cmd.triggered = false)
    (hprompt : s.Prompt step) (hclosed : s.op.headerSent = false)
    (hdue : step.now - s.op.begin > msec s.op.cmd.timeWindowMsec ∨
      s.op.cmd.type = .timedBuffered ∧
        (step.now - s.op.lastForcedExpire).tdiv nanosecondsPerMsec ≥ s.op.fastExpireTimeMsec) :
    .header (s.iteration + 1) step.time ∈ (s.round step).scheduled ∧
      ∀ message ∈ s.scheduled, message ∈ (s.round step).scheduled := by
  obtain ⟨-, houtcome⟩ := round_outcome h htriggered hprompt
  cases houtcome with
  | nothing _ _ _ _ _ hidle =>
      obtain ⟨hwindow, hfast⟩ := hidle hclosed
      rcases hdue with hexpired | ⟨htype, hforced⟩
      · exact absurd hexpired hwindow
      · exact absurd hforced (hfast htype)
  | whole hscheduled =>
      rw [hscheduled]
      exact ⟨by simp, fun message hmem => List.mem_append_left _ hmem⟩
  | opening hscheduled =>
      rw [hscheduled]
      exact ⟨by simp, fun message hmem => List.mem_append_left _ hmem⟩
  | closing _ _ hopen =>
      rw [hclosed] at hopen
      cases hopen

/-- The first round after the window schedules the first iteration, and the window and the fast
expiration begin again. -/
theorem first_of_window (htriggered : cmd.triggered = false)
    (hprompt : (start cmd created).Prompt step)
    (hexpired : step.now - created > msec cmd.timeWindowMsec) :
    .tail 1 step.time ∈ ((start cmd created).round step).scheduled ∧
      ((start cmd created).round step).iteration = 1 ∧
      ((start cmd created).round step).op.headerSent = false ∧
      ((start cmd created).round step).op.begin = step.now ∧
      (cmd.type = .timedBuffered →
        ((start cmd created).round step).op.lastForcedExpire = step.now) := by
  obtain ⟨-, houtcome⟩ := round_outcome (Paced.start cmd created).snapshot htriggered hprompt
  cases houtcome with
  | nothing _ _ _ _ _ hidle => exact absurd hexpired (hidle rfl).1
  | whole hscheduled hiteration _ hsent hbegin hforced =>
      rw [hscheduled]
      exact ⟨by simp [start], hiteration, hsent, hbegin, hforced⟩
  | opening _ _ _ _ _ _ hnot => exact absurd hexpired hnot
  | closing _ _ hopen => cases hopen

/-- A time shorter than the delay after which the next Header is due. -/
theorem exists_due (created : Int) (hwindow : 0 ≤ cmd.timeWindowMsec)
    (hlong : pauseMsec cmd < cmd.repeatDelayMsec) :
    ∃ elapsed, 0 ≤ elapsed ∧ elapsed < msec cmd.repeatDelayMsec ∧
      (elapsed > msec cmd.timeWindowMsec ∨ cmd.type = .timedBuffered ∧
        elapsed.tdiv nanosecondsPerMsec ≥
          (SnapshotOpInfo.ofCommand cmd created).fastExpireTimeMsec) := by
  have hfast : 0 ≤ (SnapshotOpInfo.ofCommand cmd created).fastExpireTimeMsec :=
    fastExpire_nonneg hwindow
  by_cases hshort : cmd.timeWindowMsec < cmd.repeatDelayMsec
  · refine ⟨msec cmd.timeWindowMsec + 1, ?_, ?_, .inl (by omega)⟩
    · simp only [msec, nanosecondsPerMsec]
      omega
    · simp only [msec, nanosecondsPerMsec]
      omega
  · rw [pauseMsec] at hlong
    split at hlong
    case h_1 htype =>
      have hless : (SnapshotOpInfo.ofCommand cmd created).fastExpireTimeMsec <
          cmd.repeatDelayMsec := by
        rcases min_lt_iff.1 hlong with hless | hless
        · exact hless
        · exact absurd hless hshort
      refine ⟨msec (SnapshotOpInfo.ofCommand cmd created).fastExpireTimeMsec, ?_, ?_,
        .inr ⟨htype, ?_⟩⟩
      · simp only [msec, nanosecondsPerMsec]
        omega
      · simp only [msec, nanosecondsPerMsec]
        omega
      · rw [msec, Int.mul_tdiv_cancel _ (by decide)]
    case h_2 => exact absurd hlong hshort

/-- A delay that is longer than the pause is not kept by the first two iterations. -/
theorem exists_not_spaced (haccepted : Accepted cmd) (htriggered : cmd.triggered = false)
    (hlong : pauseMsec cmd < cmd.repeatDelayMsec) :
    ∃ steps s, Run next Prompt (start cmd created) steps s ∧ ¬ Spaced cmd s.scheduled := by
  have hwindow := haccepted.window_nonneg
  have hnonneg : 0 ≤ msec cmd.timeWindowMsec := by
    simp only [msec, nanosecondsPerMsec]
    omega
  obtain ⟨elapsed, hpositive, hless, hdue⟩ := exists_due created hwindow hlong
  let first : CheckerRound := ⟨created + msec cmd.timeWindowMsec + 1,
    created + msec cmd.timeWindowMsec + 1, []⟩
  let second : CheckerRound := ⟨first.now + elapsed, first.now + elapsed, []⟩
  have hfirst : (start cmd created).Prompt first := fun _ _ => rfl
  have hsecond : ((start cmd created).round first).Prompt second := fun _ _ => rfl
  obtain ⟨htail, hiteration, hsent, hbegin, hforced⟩ := first_of_window htriggered hfirst
    (by simp only [first]; omega)
  have hstart : Running cmd (start cmd created) := (Paced.start cmd created).snapshot
  obtain ⟨hrunning, -⟩ := round_outcome hstart htriggered hfirst
  have hafter : second.now - first.now = elapsed := by
    simp only [second]
    omega
  obtain ⟨hheader, hkept⟩ := header_of_due hrunning htriggered hsecond hsent <| by
    rw [hrunning.command, hbegin, hafter]
    rcases hdue with hwindow | ⟨htype, hfast⟩
    · exact .inl hwindow
    · refine .inr ⟨htype, ?_⟩
      rw [hforced htype, hafter, fastExpire_of_command _ created, hrunning.command]
      exact hfast
  refine ⟨[first, second], ((start cmd created).round first).round second, ?_, fun hspaced => ?_⟩
  case refine_1 =>
    have hlate : (start cmd created).clock ≤ first.now := by
      simp only [start, first]
      omega
    have hone : Run next Prompt (start cmd created) [first] ((start cmd created).round first) :=
      .snoc .nil hfirst (if_pos ⟨hlate, le_refl _⟩)
    have hclock : ((start cmd created).round first).clock ≤ second.now := by
      have hle : ((start cmd created).round first).clock ≤ first.now := (clock_round (le_refl _)).2
      omega
    exact .snoc hone hsecond (if_pos ⟨hclock, le_refl _⟩)
  case refine_2 =>
    rw [hiteration] at hheader
    have hpause := hspaced.pause 1 first.time second.time (hkept _ htail) hheader
    have hsame : first.time = first.now := rfl
    have htime : second.time = second.now := rfl
    omega

/-- In every run in which no submission with a Tail waits, iterations are spaced as the command
says, if and only if its delay is not longer than the pause that the window or the fast expiration
makes. -/
theorem spaced_iff (haccepted : Accepted cmd) (htriggered : cmd.triggered = false)
    (created : Int) :
    (∀ steps s, Run next Prompt (start cmd created) steps s → Spaced cmd s.scheduled) ↔
      cmd.repeatDelayMsec ≤ pauseMsec cmd := by
  constructor
  case mp =>
    intro hall
    by_contra hlong
    obtain ⟨steps, s, hrun, hnot⟩ := exists_not_spaced haccepted htriggered (not_le.1 hlong)
    exact hnot (hall steps s hrun)
  case mpr =>
    intro hdelay steps s hrun
    have hpaced : Paced cmd s := hrun.invariant (I := fun _ s => Paced cmd s)
      (Paced.start cmd created)
      fun hpaced hprompt hnext => hpaced.of_next htriggered hdelay hprompt hnext
    exact hpaced.spaced

/-- A snapshot of one PV with a window of a second and the given delay. -/
def delayedCommand (repeatDelayMsec : Int) : RepeatingSnapshotCommand where
  replyTopic := "t"
  replyId := "r"
  snapshotName := "s"
  pvNameList := ["pva://a"]
  repeatDelayMsec
  timeWindowMsec := 1000

theorem delayedCommand_accepted {repeatDelayMsec : Int} (h : 0 ≤ repeatDelayMsec) :
    Accepted (delayedCommand repeatDelayMsec) where
  type := nofun
  checked := by
    intro created
    have hdelay : ¬ (SnapshotOpInfo.ofCommand (delayedCommand repeatDelayMsec)
        created).cmd.repeatDelayMsec < 0 := not_lt.2 h
    simp only [ContinuousSnapshotManager.prepareError]
    rw [if_neg (by simp [SnapshotOpInfo.ofCommand, delayedCommand]), if_neg hdelay]
    rfl

/-- Two iterations of a snapshot without a delay. -/
theorem spaced_iff_second : ∃ steps s, Run next Prompt (start (delayedCommand 0) 0) steps s ∧
    s.iteration = 2 ∧ Spaced (delayedCommand 0) s.scheduled := by
  obtain ⟨s, hrun, hcheck⟩ := exists_run next Prompt (start (delayedCommand 0) 0)
    [⟨1000000001, 1000000001, []⟩, ⟨2000000002, 2000000002, []⟩]
    (fun s => s.iteration == 2) (by decide +kernel)
  have hspaced := (spaced_iff (delayedCommand_accepted (le_refl 0)) rfl 0).2 (by decide) _ s hrun
  exact ⟨_, s, hrun, beq_iff_eq.1 hcheck, hspaced⟩

/-- A delay of five seconds is not kept: the second Header follows the first Tail after the window
of one second. -/
theorem not_spaced_delayed :
    ¬ ∀ (cmd : RepeatingSnapshotCommand) (created : Int) (steps : List CheckerRound)
      (s : SnapshotRounds), Accepted cmd → cmd.triggered = false →
        AnyRun next (start cmd created) steps s → Spaced cmd s.scheduled := by
  intro hall
  obtain ⟨s, hrun, hcheck⟩ := exists_run next (fun _ _ => True) (start (delayedCommand 5000) 0)
    [⟨1000000001, 1000000001, []⟩, ⟨2000000002, 2000000002, []⟩]
    (fun s => s.scheduled.contains (.tail 1 1000000001) &&
      s.scheduled.contains (.header 2 2000000002)) (by decide +kernel)
  simp only [Bool.and_eq_true, List.contains_iff_mem] at hcheck
  have hspaced := hall _ 0 _ s (delayedCommand_accepted (by decide)) rfl hrun
  have hpause := hspaced.pause 1 1000000001 2000000002 hcheck.1 hcheck.2
  exact absurd hpause (by decide)

/-- A Tail that waits in `acquireIteration` is followed by the next Tail within the window, which
was renewed at the clock of its round. -/
theorem not_spaced_waiting : ∃ s : SnapshotRounds,
    AnyRun next (start (delayedCommand 0) 0)
      [⟨1000000001, 1900000000, []⟩, ⟨2000000002, 2000000002, []⟩] s ∧
    ¬ Spaced (delayedCommand 0) s.scheduled := by
  obtain ⟨s, hrun, hcheck⟩ := exists_run next (fun _ _ => True) (start (delayedCommand 0) 0)
    [⟨1000000001, 1900000000, []⟩, ⟨2000000002, 2000000002, []⟩]
    (fun s => s.scheduled.contains (.tail 1 1900000000) &&
      s.scheduled.contains (.tail 2 2000000002)) (by decide +kernel)
  simp only [Bool.and_eq_true, List.contains_iff_mem] at hcheck
  refine ⟨s, hrun, fun hspaced => ?_⟩
  have hwindow := hspaced.window 1 1900000000 2000000002 hcheck.1 hcheck.2
  exact absurd hwindow (by decide)

end SnapshotRounds

end K2eg
