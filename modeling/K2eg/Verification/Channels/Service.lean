import K2eg.Verification.Channels.Lifetime

/-! # Every referenced channel is served -/

namespace K2eg

open Interleaving

/-- The steps a chain still takes once its channel has no reference. -/
def ChainPhase.remaining : ChainPhase → ℕ
  | .polling => 5
  | .resubmitting => 4
  | .queued => 3
  | .started => 2
  | .erasing => 1
  | .ended => 0

/-- The chain that takes a step. -/
def ManagerStep.chain? : ManagerStep → Option ℕ
  | .dequeue chain | .readKeepAlive chain | .cleanupAndErase chain | .poll chain _
  | .resubmit chain => some chain
  | .addChannel _ | .detachTask _ | .removeChannel _ => none

/-- The step adds a reference to the PV. -/
def ManagerStep.AddsTo (pvName : String) : ManagerStep → Prop
  | .addChannel uri => (sanitizePVName uri).map PV.name = some pvName
  | _ => False

namespace EpicsServiceManager

/-- Unless the PV is added again, the chain counts down to its end, is never stuck on the way,
and when it has ended the entry is gone. -/
def WillErase (manager : EpicsServiceManager) (chain : ℕ) (pvName : String) : Prop :=
  ∀ steps after, AnyRun next manager steps after →
    (∀ step ∈ steps, ¬ step.AddsTo pvName) →
      (after.chains chain).phase.remaining + steps.countP (fun step => step.chain? = some chain) =
          (manager.chains chain).phase.remaining ∧
        ((after.chains chain).phase ≠ .ended →
          ∃ step, step.chain? = some chain ∧ (after.next step).isSome) ∧
        ((after.chains chain).phase = .ended → after.channelMap pvName = none)

/-- What is asked of a PV with a number of references while no call is in progress. -/
structure Settled (manager : EpicsServiceManager) (pvName : String) (count : ℕ) : Prop where
  referenced : 0 < count → ∃ id chain, manager.channelMap pvName = some id ∧
    (manager.tasks id).keepAlive = count ∧ manager.Serves chain id ∧
    ∀ other id', manager.Serves other id' → (manager.tasks id').pvName = pvName → other = chain
  unreferenced_single : count = 0 → ∀ chain other id id', manager.Serves chain id →
    manager.Serves other id' → (manager.tasks id).pvName = pvName →
    (manager.tasks id').pvName = pvName → chain = other
  unreferenced_erased : count = 0 → ∀ chain id, manager.Serves chain id →
    (manager.tasks id).pvName = pvName → manager.WillErase chain pvName
  unreferenced_attended : count = 0 → ∀ id, manager.channelMap pvName = some id →
    ∃ chain, manager.Serves chain id

/-! ## A channel without references -/

/-- A chain whose channel has no reference, from its last poll to its end. -/
structure Expiring (manager : EpicsServiceManager) (chain id : ℕ) (pvName : String) : Prop where
  chain_lt : chain < manager.chainCount
  entry : (manager.chains chain).entry = id
  task_lt : id < manager.taskCount
  name : (manager.tasks id).pvName = pvName
  keepAlive : (manager.tasks id).keepAlive = 0
  submitted : id ∉ manager.unsubmitted
  sole : ∀ other, manager.Serves other id → other = chain
  mapped : ∀ other, manager.channelMap other = some id → other = pvName
  present : manager.channelMap pvName =
    if (manager.chains chain).phase = .ended then none else some id

namespace Expiring

variable {manager after : EpicsServiceManager} {chain id : ℕ} {pvName : String}

theorem setTask_of_ne (h : Expiring manager chain id pvName) {other : ℕ} (hne : id ≠ other)
    (task : ChannelTask) : Expiring (manager.setTask other task) chain id pvName :=
  { h with
    name := by simpa [hne] using h.name
    keepAlive := by simpa [hne] using h.keepAlive }

theorem setTask_self (h : Expiring manager chain id pvName) {task : ChannelTask}
    (hname : task.pvName = pvName) (hzero : task.keepAlive = 0) :
    Expiring (manager.setTask id task) chain id pvName :=
  { h with
    name := by simpa using hname
    keepAlive := by simpa using hzero }

/-- A phase change of any chain that does not end or revive one. -/
theorem setPhase (h : Expiring manager chain id pvName) {other : ℕ} {phase : ChainPhase}
    (hlive : (manager.chains other).phase ≠ .ended) (hphase : phase ≠ .ended) :
    Expiring (manager.setPhase other phase) chain id pvName := by
  have hserves : ∀ server, (manager.setPhase other phase).Serves server id →
      manager.Serves server id := by
    rintro server ⟨hlt, hentry, hended⟩
    by_cases hserver : server = other
    · subst server
      exact ⟨hlt, by simpa using hentry, hlive⟩
    · exact ⟨hlt, by simpa [hserver] using hentry, by simpa [hserver] using hended⟩
  refine { h with entry := ?_, sole := fun server hs => h.sole server (hserves server hs),
                  present := ?_ }
  · by_cases hchain : chain = other
    · subst hchain
      simpa using h.entry
    · simpa [hchain] using h.entry
  · by_cases hchain : chain = other
    · subst hchain
      simpa [hphase, hlive] using h.present
    · simpa [hchain] using h.present

theorem addChannel (h : Expiring manager chain id pvName) {uri : String}
    (hother : (sanitizePVName uri).map PV.name ≠ some pvName) :
    Expiring (manager.addChannel uri) chain id pvName := by
  cases huri : sanitizePVName uri with
  | none => simpa [EpicsServiceManager.addChannel, huri] using h
  | some pv =>
      have hpv : pv.name ≠ pvName := by simpa [huri] using hother
      cases hmap : manager.channelMap pv.name with
      | some task =>
          have hne : id ≠ task := by
            rintro rfl
            exact hpv (h.mapped _ hmap)
          simpa [EpicsServiceManager.addChannel, huri, hmap] using h.setTask_of_ne hne _
      | none =>
          have hid := h.task_lt
          simp only [EpicsServiceManager.addChannel, huri, hmap]
          refine { h with task_lt := ?_, name := ?_, keepAlive := ?_, submitted := ?_,
                          mapped := ?_, present := ?_ }
          · exact hid.trans (Nat.lt_succ_self _)
          · simpa [hid.ne] using h.name
          · simpa [hid.ne] using h.keepAlive
          · simpa [hid.ne] using h.submitted
          · intro other hsome
            by_cases hnew : other = pv.name
            · subst other
              exact absurd (Option.some.inj (by simpa using hsome)) hid.ne'
            · exact h.mapped other (by simpa [hnew] using hsome)
          · simpa [hpv.symm] using h.present

theorem removeChannel (h : Expiring manager chain id pvName) (uri : String) :
    Expiring (manager.removeChannel uri) chain id pvName := by
  cases huri : sanitizePVName uri with
  | none => simpa [EpicsServiceManager.removeChannel, huri] using h
  | some pv =>
      cases hmap : manager.channelMap pv.name with
      | none => simpa [EpicsServiceManager.removeChannel, huri, hmap] using h
      | some task =>
          simp only [EpicsServiceManager.removeChannel, huri, hmap]
          by_cases hne : id = task
          · subst hne
            exact h.setTask_self h.name (by simp [h.keepAlive])
          · exact h.setTask_of_ne hne _

theorem detachTask (h : Expiring manager chain id pvName) {task : ℕ}
    (htask : task ∈ manager.unsubmitted) :
    Expiring (manager.detachTask task) chain id pvName := by
  have hchain := h.chain_lt.ne
  have hne : task ≠ id := by
    rintro rfl
    exact h.submitted htask
  refine { h with chain_lt := ?_, entry := ?_, submitted := ?_, sole := ?_, present := ?_ }
  · exact h.chain_lt.trans (Nat.lt_succ_self _)
  · simpa [EpicsServiceManager.detachTask, hchain] using h.entry
  · exact fun hmem => h.submitted (List.mem_of_mem_erase hmem)
  · rintro other ⟨hlt, hentry, hended⟩
    by_cases hnew : other = manager.chainCount
    · subst other
      exact absurd (by simpa [EpicsServiceManager.detachTask] using hentry) hne
    · simp only [EpicsServiceManager.detachTask, Function.update_of_ne hnew] at hlt hentry hended
      exact h.sole other ⟨by omega, hentry, hended⟩
  · simpa [EpicsServiceManager.detachTask, hchain] using h.present

/-- Its own chain erases the channel; no other chain can. -/
theorem cleanupAndErase (h : Expiring manager chain id pvName) {other : ℕ}
    (hlt : other < manager.chainCount) (hphase : (manager.chains other).phase = .erasing) :
    Expiring (manager.cleanupAndErase other) chain id pvName := by
  have hchains : ∀ server, ((manager.cleanupAndErase other).chains server).entry =
      (manager.chains server).entry ∧ ((manager.cleanupAndErase other).chains server).phase =
      if server = other then .ended else (manager.chains server).phase := by
    intro server
    by_cases hserver : server = other <;>
      simp [EpicsServiceManager.cleanupAndErase, hserver]
  have htasks : ∀ task, ((manager.cleanupAndErase other).tasks task).pvName =
      (manager.tasks task).pvName ∧ ((manager.cleanupAndErase other).tasks task).keepAlive =
      (manager.tasks task).keepAlive := by
    intro task
    by_cases htask : task = (manager.chains other).entry <;>
      simp [EpicsServiceManager.cleanupAndErase, htask]
  refine
    { chain_lt := h.chain_lt, entry := (hchains chain).1.trans h.entry, task_lt := h.task_lt,
      name := (htasks id).1.trans h.name, keepAlive := (htasks id).2.trans h.keepAlive,
      submitted := h.submitted, sole := ?_, mapped := ?_, present := ?_ }
  · rintro server ⟨hserver, hentry, hended⟩
    rw [(hchains server).1] at hentry
    rw [(hchains server).2] at hended
    refine h.sole server ⟨hserver, hentry, ?_⟩
    split at hended
    · exact absurd rfl hended
    · exact hended
  · intro name hsome
    apply h.mapped name
    simp only [EpicsServiceManager.cleanupAndErase] at hsome
    split at hsome
    · by_cases hname : name = (manager.tasks (manager.chains other).entry).pvName
      · simp [hname] at hsome
      · rwa [Function.update_of_ne hname] at hsome
    · exact hsome
  · rw [(hchains chain).2]
    by_cases hchain : chain = other
    · subst chain
      have hpresent : manager.channelMap pvName = some id := by
        rw [h.present, hphase]
        rfl
      simp [EpicsServiceManager.cleanupAndErase, h.entry, h.name, hpresent]
    · -- The entry of another chain is another task, so the channel stays.
      have hother : (manager.chains other).entry ≠ id := by
        intro heq
        exact hchain (h.sole other ⟨hlt, heq, by rw [hphase]; decide⟩).symm
      rw [if_neg hchain, ← h.present]
      simp only [EpicsServiceManager.cleanupAndErase]
      split
      · rename_i hmap
        refine Function.update_of_ne ?_ _ _
        intro hname
        have hpresent := h.present
        rw [hname, hmap] at hpresent
        split at hpresent
        · cases hpresent
        · exact hother (Option.some.inj hpresent)
      · rfl

/-- A step that does not add the PV: the channel keeps expiring, and the steps that are left
and the step itself, if the chain takes it, make up the steps that were left. -/
theorem next (h : Expiring manager chain id pvName) {step : ManagerStep}
    (hadd : ¬ step.AddsTo pvName) (hnext : manager.next step = some after) :
    Expiring after chain id pvName ∧
      (after.chains chain).phase.remaining + (if step.chain? = some chain then 1 else 0) =
        (manager.chains chain).phase.remaining := by
  cases step with
  | addChannel uri =>
      obtain rfl := Option.some.inj hnext
      refine ⟨h.addChannel hadd, ?_⟩
      simp only [ManagerStep.chain?, EpicsServiceManager.addChannel]
      split <;> [rfl; split <;> rfl]
  | removeChannel uri =>
      obtain rfl := Option.some.inj hnext
      refine ⟨h.removeChannel uri, ?_⟩
      simp only [ManagerStep.chain?, EpicsServiceManager.removeChannel]
      split <;> [rfl; split <;> rfl]
  | detachTask task =>
      obtain ⟨htask, heq⟩ := Option.ite_none_right_eq_some.mp hnext
      obtain rfl := Option.some.inj heq
      refine ⟨h.detachTask htask, ?_⟩
      simp [ManagerStep.chain?, EpicsServiceManager.detachTask, h.chain_lt.ne]
  | dequeue other =>
      obtain ⟨⟨-, hphase⟩, heq⟩ := Option.ite_none_right_eq_some.mp hnext
      obtain rfl := Option.some.inj heq
      refine ⟨h.setPhase (by simp [hphase]) (by decide), ?_⟩
      by_cases hchain : other = chain
      · subst other
        simp [ManagerStep.chain?, hphase, ChainPhase.remaining]
      · simp [ManagerStep.chain?, hchain, Ne.symm hchain]
  | readKeepAlive other =>
      obtain ⟨⟨-, hphase⟩, heq⟩ := Option.ite_none_right_eq_some.mp hnext
      by_cases hchain : other = chain
      · subst other
        rw [h.entry, h.keepAlive, if_pos rfl] at heq
        obtain rfl := Option.some.inj heq
        refine ⟨h.setPhase (by simp [hphase]) (by decide), ?_⟩
        simp [ManagerStep.chain?, hphase, ChainPhase.remaining]
      · split at heq <;> obtain rfl := Option.some.inj heq <;>
          refine ⟨h.setPhase (by simp [hphase]) (by decide), ?_⟩ <;>
          simp [ManagerStep.chain?, hchain, Ne.symm hchain]
  | cleanupAndErase other =>
      obtain ⟨⟨hlt, hphase⟩, heq⟩ := Option.ite_none_right_eq_some.mp hnext
      obtain rfl := Option.some.inj heq
      refine ⟨h.cleanupAndErase hlt hphase, ?_⟩
      by_cases hchain : other = chain
      · subst other
        simp [ManagerStep.chain?, EpicsServiceManager.cleanupAndErase, hphase,
          ChainPhase.remaining]
      · simp [ManagerStep.chain?, EpicsServiceManager.cleanupAndErase, hchain, Ne.symm hchain]
  | poll other received =>
      obtain ⟨⟨hlt, hphase⟩, heq⟩ := Option.ite_none_right_eq_some.mp hnext
      obtain rfl := Option.some.inj heq
      constructor
      · refine Expiring.setPhase ?_ (by simp [hphase]) (by decide)
        by_cases hid : id = (manager.chains other).entry
        · rw [← hid]
          exact h.setTask_self h.name h.keepAlive
        · exact h.setTask_of_ne hid _
      · by_cases hchain : other = chain
        · subst other
          simp [ManagerStep.chain?, EpicsServiceManager.poll, hphase, ChainPhase.remaining]
        · simp [ManagerStep.chain?, EpicsServiceManager.poll, hchain, Ne.symm hchain]
  | resubmit other =>
      obtain ⟨⟨-, hphase⟩, heq⟩ := Option.ite_none_right_eq_some.mp hnext
      obtain rfl := Option.some.inj heq
      refine ⟨h.setPhase (by simp [hphase]) (by decide), ?_⟩
      by_cases hchain : other = chain
      · subst other
        simp [ManagerStep.chain?, hphase, ChainPhase.remaining]
      · simp [ManagerStep.chain?, hchain, Ne.symm hchain]

/-- A live chain is never blocked. -/
theorem enabled (h : Expiring manager chain id pvName)
    (hlive : (manager.chains chain).phase ≠ .ended) :
    ∃ step, step.chain? = some chain ∧ (manager.next step).isSome := by
  have hlt := h.chain_lt
  cases hphase : (manager.chains chain).phase with
  | queued => exact ⟨.dequeue chain, rfl, by simp [EpicsServiceManager.next, hlt, hphase]⟩
  | started =>
      refine ⟨.readKeepAlive chain, rfl, ?_⟩
      simp [EpicsServiceManager.next, hlt, hphase, h.entry, h.keepAlive]
  | erasing => exact ⟨.cleanupAndErase chain, rfl, by simp [EpicsServiceManager.next, hlt, hphase]⟩
  | polling => exact ⟨.poll chain none, rfl, by simp [EpicsServiceManager.next, hlt, hphase]⟩
  | resubmitting => exact ⟨.resubmit chain, rfl, by simp [EpicsServiceManager.next, hlt, hphase]⟩
  | ended => exact absurd hphase hlive

theorem willErase (h : Expiring manager chain id pvName) : manager.WillErase chain pvName := by
  intro steps after hrun hadds
  have hinv : Expiring after chain id pvName ∧ (after.chains chain).phase.remaining +
      steps.countP (fun step => step.chain? = some chain) =
        (manager.chains chain).phase.remaining := by
    induction hrun with
    | nil => exact ⟨h, rfl⟩
    | snoc _ _ hnext ih =>
        obtain ⟨hexp, hcount⟩ := ih fun step hstep => hadds step (by simp [hstep])
        obtain ⟨hexp', hstep⟩ := hexp.next (hadds _ (by simp)) hnext
        refine ⟨hexp', ?_⟩
        rw [List.countP_append, List.countP_singleton]
        simp only [decide_eq_true_eq]
        omega
  obtain ⟨hexp, hcount⟩ := hinv
  refine ⟨hcount, hexp.enabled, fun hended => ?_⟩
  rw [hexp.present, if_pos hended]

end Expiring

/-! ## The channels of a run -/

theorem InStep.expiring {count : String → ℕ} {manager : EpicsServiceManager}
    (h : InStep count manager) {chain id : ℕ} (hserves : manager.Serves chain id)
    (hzero : count (manager.tasks id).pvName = 0) :
    Expiring manager chain id (manager.tasks id).pvName := by
  obtain ⟨hmap, hpending⟩ := h.served chain id hserves
  obtain ⟨hlt, -, hcount⟩ := h.mapped _ id hmap
  exact
    { chain_lt := hserves.1
      entry := hserves.2.1
      task_lt := hlt
      name := rfl
      keepAlive := by simpa [hzero] using hcount
      submitted := hpending
      sole := fun other hother => h.single other chain id hother hserves
      mapped := fun other hother => (h.mapped other id hother).2.1.symm
      present := by rw [if_neg hserves.2.2, hmap] }

/-- Two chains of one PV are one chain. -/
theorem InStep.unique {count : String → ℕ} {manager : EpicsServiceManager}
    (h : InStep count manager) {chain other id id' : ℕ} (hserves : manager.Serves chain id)
    (hserves' : manager.Serves other id')
    (hname : (manager.tasks id').pvName = (manager.tasks id).pvName) : chain = other := by
  have hmap := (h.served chain id hserves).1
  have hmap' := (h.served other id' hserves').1
  rw [hname, hmap] at hmap'
  obtain rfl := Option.some.inj hmap'
  exact h.single chain other id hserves hserves'

/-- After a run of timely steps, with no call in progress, every PV is settled with the
references the run has left to it. -/
theorem settled_of_run {steps : List ManagerStep} {manager : EpicsServiceManager}
    (h : Run next Timely {} steps manager) (hidle : manager.unsubmitted = [])
    (pvName : String) : manager.Settled pvName (references steps pvName) := by
  have hinv := InStep.of_run h
  have hattended : ∀ id, manager.channelMap pvName = some id →
      ∃ chain, manager.Serves chain id := by
    intro id hmap
    simpa [hidle] using hinv.attended pvName id hmap
  refine ⟨fun hpos => ?_, fun _ chain other id id' hserves hserves' hname hname' => ?_,
    fun hzero chain id hserves hname => ?_, fun _ => hattended⟩
  · cases hmap : manager.channelMap pvName with
    | none => exact absurd (hinv.absent pvName hmap) hpos.ne'
    | some id =>
        obtain ⟨-, hname, hcount⟩ := hinv.mapped pvName id hmap
        obtain ⟨chain, hserves⟩ := hattended id hmap
        refine ⟨id, chain, rfl, hcount, hserves, fun other id' hserves' hname' => ?_⟩
        exact (hinv.unique hserves hserves' (hname'.trans hname.symm)).symm
  · exact hinv.unique hserves hserves' (hname'.trans hname.symm)
  · subst hname
    exact (hinv.expiring hserves hzero).willErase

/-- Two adds and one remove of a PV: one reference and one chain are left. -/
theorem settled_of_run_twoAdds :
    ∃ manager, Run next Timely {} [.addChannel "pva://a", .detachTask 0, .addChannel "ca://a.EGU",
        .dequeue 0, .readKeepAlive 0, .removeChannel "pva://a"] manager ∧
      manager.Settled "a" 1 := by
  obtain ⟨manager, hrun, hidle⟩ := exists_run next Timely {}
    [.addChannel "pva://a", .detachTask 0, .addChannel "ca://a.EGU", .dequeue 0,
      .readKeepAlive 0, .removeChannel "pva://a"]
    (fun manager => manager.unsubmitted.isEmpty) (by decide)
  exact ⟨manager, hrun, settled_of_run hrun (List.isEmpty_iff.mp hidle) "a"⟩

/-- A reference added between the reading of zero and the erasure is lost with its entry. -/
theorem not_settled_addWhileErasing :
    ¬ ∀ (steps : List ManagerStep) (manager : EpicsServiceManager),
      AnyRun next {} steps manager → manager.unsubmitted = [] →
        ∀ pvName, manager.Settled pvName (references steps pvName) := by
  intro hall
  obtain ⟨manager, hrun, hcheck⟩ := exists_run next (fun _ _ => True) {}
    [.addChannel "pva://a", .detachTask 0, .removeChannel "pva://a", .dequeue 0,
      .readKeepAlive 0, .addChannel "pva://a", .cleanupAndErase 0]
    (fun manager => manager.unsubmitted.isEmpty && (manager.channelMap "a").isNone) (by decide)
  obtain ⟨hidle, hgone⟩ := Bool.and_eq_true_iff.mp hcheck
  obtain ⟨id, chain, hmap, -⟩ :=
    (hall _ manager hrun (List.isEmpty_iff.mp hidle) "a").referenced (by decide)
  rw [hmap] at hgone
  cases hgone

end EpicsServiceManager

end K2eg
