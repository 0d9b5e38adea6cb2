import K2eg.Foundation.Interleaving
import K2eg.Model.EpicsServiceManager
import Mathlib.Tactic.SplitIfs

/-! # The lifetime of a monitored channel

As long as no reference is added between a task's reading of zero and its erasure, the map,
the reference counts and the task chains stay in step. -/

namespace K2eg

open Interleaving

namespace EpicsServiceManager

/-! ## References -/

/-- What a step does to the number of references to a PV; removing saturates at zero. -/
def countReference (pvName : String) (n : ℕ) : ManagerStep → ℕ
  | .addChannel uri => if (sanitizePVName uri).map PV.name = some pvName then n + 1 else n
  | .removeChannel uri => if (sanitizePVName uri).map PV.name = some pvName then n - 1 else n
  | _ => n

def references (steps : List ManagerStep) (pvName : String) : ℕ :=
  steps.foldl (countReference pvName) 0

theorem references_snoc (steps : List ManagerStep) (step : ManagerStep) (pvName : String) :
    references (steps ++ [step]) pvName =
      countReference pvName (references steps pvName) step := by
  rw [references, List.foldl_append]
  rfl

/-! ## Service of a channel -/

/-- A live chain of calls of `task` with this entry. -/
def Serves (manager : EpicsServiceManager) (chain id : ℕ) : Prop :=
  chain < manager.chainCount ∧ (manager.chains chain).entry = id ∧
    (manager.chains chain).phase ≠ .ended

/-- No reference is added to a channel whose task has read zero and not yet erased it. -/
def Timely (manager : EpicsServiceManager) : ManagerStep → Prop
  | .addChannel uri => ∀ pv ∈ sanitizePVName uri, ∀ id ∈ manager.channelMap pv.name,
      ∀ chain < manager.chainCount, (manager.chains chain).entry = id →
        (manager.chains chain).phase ≠ .erasing
  | _ => True

instance (manager : EpicsServiceManager) (step : ManagerStep) :
    Decidable (manager.Timely step) := by
  cases step <;> unfold Timely <;> infer_instance

/-- The map, the reference counts, the tasks to be detached and the chains are in step. -/
structure InStep (count : String → ℕ) (manager : EpicsServiceManager) : Prop where
  mapped : ∀ pvName id, manager.channelMap pvName = some id → id < manager.taskCount ∧
    (manager.tasks id).pvName = pvName ∧ (manager.tasks id).keepAlive = count pvName
  absent : ∀ pvName, manager.channelMap pvName = none → count pvName = 0
  attended : ∀ pvName id, manager.channelMap pvName = some id →
    id ∈ manager.unsubmitted ∨ ∃ chain, manager.Serves chain id
  unsubmitted : ∀ id ∈ manager.unsubmitted,
    manager.channelMap (manager.tasks id).pvName = some id
  unsubmitted_nodup : manager.unsubmitted.Nodup
  served : ∀ chain id, manager.Serves chain id →
    manager.channelMap (manager.tasks id).pvName = some id ∧ id ∉ manager.unsubmitted
  single : ∀ chain other id, manager.Serves chain id → manager.Serves other id → chain = other
  erasing : ∀ chain < manager.chainCount, (manager.chains chain).phase = .erasing →
    (manager.tasks (manager.chains chain).entry).keepAlive = 0

namespace InStep

variable {count : String → ℕ} {manager : EpicsServiceManager}

theorem congr {count' : String → ℕ} (h : InStep count manager)
    (heq : ∀ pvName, count' pvName = count pvName) : InStep count' manager := by
  obtain rfl : count' = count := funext heq
  exact h

/-- Writing the count of a mapped channel, with the other fields of the task. -/
theorem setTask (h : InStep count manager) {pvName : String} {id n : ℕ} {task : ChannelTask}
    (hmap : manager.channelMap pvName = some id) (hname : task.pvName = pvName)
    (hcount : task.keepAlive = n)
    (herasing : ∀ chain < manager.chainCount, (manager.chains chain).entry = id →
      (manager.chains chain).phase = .erasing → n = 0) :
    InStep (Function.update count pvName n) (manager.setTask id task) := by
  obtain ⟨hid, hidname, -⟩ := h.mapped pvName id hmap
  have hnames : ∀ other, ((manager.setTask id task).tasks other).pvName =
      (manager.tasks other).pvName := by
    intro other
    by_cases hother : other = id
    · subst other
      simp [hname, hidname]
    · simp [hother]
  refine
    { mapped := ?_, absent := ?_, attended := h.attended, unsubmitted := ?_,
      unsubmitted_nodup := h.unsubmitted_nodup, served := ?_, single := h.single,
      erasing := ?_ }
  · intro pvName' id' hmap'
    obtain ⟨hlt, hname', hcount'⟩ := h.mapped pvName' id' hmap'
    refine ⟨hlt, (hnames id').trans hname', ?_⟩
    by_cases hpv : pvName' = pvName
    · rw [hpv] at hmap' ⊢
      obtain rfl : id' = id := Option.some.inj (hmap'.symm.trans hmap)
      simp [hcount]
    · have hne : id' ≠ id := by
        rintro rfl
        exact hpv (hname'.symm.trans hidname)
      simpa [hne, hpv] using hcount'
  · intro pvName' hnone
    have hne : pvName' ≠ pvName := by
      rintro rfl
      exact absurd (hmap.symm.trans hnone) (by simp)
    rw [Function.update_of_ne hne]
    exact h.absent pvName' hnone
  · intro other hother
    rw [hnames]
    exact h.unsubmitted other hother
  · intro chain other hserves
    rw [hnames]
    exact h.served chain other hserves
  · intro chain hlt hphase
    by_cases hentry : (manager.chains chain).entry = id
    · have hzero := herasing chain hlt hentry hphase
      simp [hentry, hcount, hzero]
    · simpa [hentry] using h.erasing chain hlt hphase

/-- Moving a live chain to another phase in which it is live. -/
theorem setPhase (h : InStep count manager) {chain : ℕ} {phase : ChainPhase}
    (hlive : (manager.chains chain).phase ≠ .ended) (hphase : phase ≠ .ended)
    (herasing : phase = .erasing →
      (manager.tasks (manager.chains chain).entry).keepAlive = 0) :
    InStep count (manager.setPhase chain phase) := by
  have hserves : ∀ other id, (manager.setPhase chain phase).Serves other id ↔
      manager.Serves other id := by
    intro other id
    by_cases hother : other = chain
    · subst other
      simp [Serves, hlive, hphase]
    · simp [Serves, hother]
  refine
    { mapped := h.mapped, absent := h.absent, attended := ?_, unsubmitted := h.unsubmitted,
      unsubmitted_nodup := h.unsubmitted_nodup, served := ?_, single := ?_, erasing := ?_ }
  · intro pvName id hsome
    simp only [hserves, setPhase_unsubmitted]
    exact h.attended pvName id hsome
  · intro other id hs
    exact h.served other id ((hserves other id).mp hs)
  · intro first second id hfirst hsecond
    exact h.single first second id ((hserves first id).mp hfirst) ((hserves second id).mp hsecond)
  · intro other hlt hother
    by_cases heq : other = chain
    · subst other
      simpa using herasing (by simpa using hother)
    · simp only [setPhase_chains, setPhase_tasks, Function.update_of_ne heq] at hother ⊢
      exact h.erasing other hlt hother

/-! ## The steps -/

theorem addChannel_absent (h : InStep count manager) {pv : PV}
    (hmap : manager.channelMap pv.name = none) {uri : String}
    (huri : sanitizePVName uri = some pv) :
    InStep (Function.update count pv.name 1) (manager.addChannel uri) := by
  have hold : ∀ pvName id, manager.channelMap pvName = some id →
      id ≠ manager.taskCount ∧ pvName ≠ pv.name := by
    intro pvName id hsome
    refine ⟨(h.mapped pvName id hsome).1.ne, ?_⟩
    rintro rfl
    exact absurd (hmap.symm.trans hsome) (by simp)
  have hpending : ∀ id ∈ manager.unsubmitted, id ≠ manager.taskCount :=
    fun id hid => (hold _ id (h.unsubmitted id hid)).1
  have hserved : ∀ chain id, manager.Serves chain id → id ≠ manager.taskCount :=
    fun chain id hs => (hold _ id (h.served chain id hs).1).1
  simp only [addChannel, huri, hmap]
  refine
    { mapped := ?_, absent := ?_, attended := ?_, unsubmitted := ?_, unsubmitted_nodup := ?_,
      served := ?_, single := h.single, erasing := ?_ }
  · intro pvName id hsome
    by_cases hpv : pvName = pv.name
    · subst pvName
      obtain rfl : manager.taskCount = id := by simpa using hsome
      simp
    · dsimp only at hsome
      rw [Function.update_of_ne hpv] at hsome
      obtain ⟨hlt, hname, hcount⟩ := h.mapped pvName id hsome
      refine ⟨hlt.trans (Nat.lt_succ_self _), ?_⟩
      simpa [Function.update_of_ne hlt.ne, hpv] using And.intro hname hcount
  · intro pvName hnone
    by_cases hpv : pvName = pv.name
    · simp [hpv] at hnone
    · dsimp only at hnone
      rw [Function.update_of_ne hpv] at hnone ⊢
      exact h.absent pvName hnone
  · intro pvName id hsome
    by_cases hpv : pvName = pv.name
    · subst pvName
      obtain rfl : manager.taskCount = id := by simpa using hsome
      exact .inl (by simp)
    · dsimp only at hsome
      rw [Function.update_of_ne hpv] at hsome
      exact (h.attended pvName id hsome).imp_left fun hid => by simp [hid]
  · intro id hid
    rcases List.mem_append.mp hid with hid | hid
    · have hsome := h.unsubmitted id hid
      simpa [Function.update_of_ne (hpending id hid), Function.update_of_ne (hold _ _ hsome).2]
        using hsome
    · obtain rfl := List.mem_singleton.mp hid
      simp
  · exact List.nodup_append.mpr ⟨h.unsubmitted_nodup, by simp, fun id hid other hother => by
      rw [List.mem_singleton.mp hother]
      exact hpending id hid⟩
  · intro chain id hs
    obtain ⟨hsome, hnot⟩ := h.served chain id hs
    have hne := hserved chain id hs
    refine ⟨?_, by simp [hnot, hne]⟩
    simpa [Function.update_of_ne hne, Function.update_of_ne (hold _ _ hsome).2] using hsome
  · intro chain hlt hphase
    have hne := hserved chain _ ⟨hlt, rfl, by rw [hphase]; decide⟩
    simpa [Function.update_of_ne hne] using h.erasing chain hlt hphase

theorem detachTask (h : InStep count manager) {id : ℕ} (hid : id ∈ manager.unsubmitted) :
    InStep count (manager.detachTask id) := by
  have hserves : ∀ chain other, (manager.detachTask id).Serves chain other ↔
      manager.Serves chain other ∨ chain = manager.chainCount ∧ other = id := by
    intro chain other
    by_cases hchain : chain = manager.chainCount
    · subst chain
      simp [Serves, EpicsServiceManager.detachTask, eq_comm]
    · have hlt : chain < manager.chainCount + 1 ↔ chain < manager.chainCount := by omega
      simp [Serves, EpicsServiceManager.detachTask, hchain, hlt]
  have hmem : ∀ other, other ∈ manager.unsubmitted.erase id ↔
      other ≠ id ∧ other ∈ manager.unsubmitted :=
    fun other => h.unsubmitted_nodup.mem_erase_iff
  have hnot : ∀ chain, ¬ manager.Serves chain id := fun chain hs => (h.served chain id hs).2 hid
  refine
    { mapped := h.mapped, absent := h.absent, attended := ?_, unsubmitted := ?_,
      unsubmitted_nodup := h.unsubmitted_nodup.erase id, served := ?_, single := ?_,
      erasing := ?_ }
  · intro pvName other hsome
    by_cases hother : other = id
    · exact .inr ⟨manager.chainCount, (hserves _ _).mpr (.inr ⟨rfl, hother⟩)⟩
    · refine (h.attended pvName other hsome).imp (fun hpending => ?_) ?_
      · exact (hmem other).mpr ⟨hother, hpending⟩
      · exact fun ⟨chain, hs⟩ => ⟨chain, (hserves _ _).mpr (.inl hs)⟩
  · exact fun other hother => h.unsubmitted other ((hmem other).mp hother).2
  · intro chain other hs
    rcases (hserves chain other).mp hs with hs | ⟨rfl, rfl⟩
    · obtain ⟨hsome, hpending⟩ := h.served chain other hs
      exact ⟨hsome, fun hin => hpending ((hmem other).mp hin).2⟩
    · exact ⟨h.unsubmitted other hid, fun hin => ((hmem other).mp hin).1 rfl⟩
  · intro chain other task hs hs'
    rcases (hserves _ _).mp hs with hold | ⟨rfl, rfl⟩
    · rcases (hserves _ _).mp hs' with hold' | ⟨rfl, rfl⟩
      · exact h.single chain other task hold hold'
      · exact absurd hold (hnot chain)
    · rcases (hserves _ _).mp hs' with hold' | ⟨rfl, -⟩
      · exact absurd hold' (hnot other)
      · rfl
  · intro chain hlt hphase
    by_cases hchain : chain = manager.chainCount
    · subst chain
      simp [EpicsServiceManager.detachTask] at hphase
    · simp only [EpicsServiceManager.detachTask, Function.update_of_ne hchain] at hlt hphase ⊢
      exact h.erasing chain (by omega) hphase

/-- The chain that erases a channel ends, and the channel had no reference left. -/
theorem cleanupAndErase (h : InStep count manager) {chain : ℕ}
    (hlt : chain < manager.chainCount) (hphase : (manager.chains chain).phase = .erasing) :
    InStep count (manager.cleanupAndErase chain) := by
  have hlive : manager.Serves chain (manager.chains chain).entry :=
    ⟨hlt, rfl, by rw [hphase]; decide⟩
  generalize hentry : (manager.chains chain).entry = id at hlive
  obtain ⟨hmap, hnot⟩ := h.served chain id hlive
  obtain ⟨-, -, hcount⟩ := h.mapped _ id hmap
  have hzero : count (manager.tasks id).pvName = 0 := by
    have := h.erasing chain hlt hphase
    rw [hentry, hcount] at this
    exact_mod_cast this
  have htasks : ∀ other, ((manager.cleanupAndErase chain).tasks other).pvName =
      (manager.tasks other).pvName ∧ ((manager.cleanupAndErase chain).tasks other).keepAlive =
      (manager.tasks other).keepAlive := by
    intro other
    by_cases hother : other = id <;>
      simp [EpicsServiceManager.cleanupAndErase, hentry, hmap, hother]
  have hmap' : (manager.cleanupAndErase chain).channelMap =
      Function.update manager.channelMap (manager.tasks id).pvName none := by
    simp [EpicsServiceManager.cleanupAndErase, hentry, hmap]
  have hserves : ∀ other task, (manager.cleanupAndErase chain).Serves other task ↔
      manager.Serves other task ∧ other ≠ chain := by
    intro other task
    by_cases hother : other = chain <;>
      simp [EpicsServiceManager.cleanupAndErase, hentry, hmap, Serves, hother]
  have hrest : (manager.cleanupAndErase chain).unsubmitted = manager.unsubmitted ∧
      (manager.cleanupAndErase chain).taskCount = manager.taskCount ∧
      (manager.cleanupAndErase chain).chainCount = manager.chainCount := by
    simp [EpicsServiceManager.cleanupAndErase, hentry, hmap]
  -- A channel that stays in the map is another one, so its task is another one.
  have hkept : ∀ pvName other,
      Function.update manager.channelMap (manager.tasks id).pvName none pvName = some other →
        manager.channelMap pvName = some other ∧ other ≠ id := by
    intro pvName other hsome
    by_cases hpv : pvName = (manager.tasks id).pvName
    · simp [hpv] at hsome
    · rw [Function.update_of_ne hpv] at hsome
      refine ⟨hsome, ?_⟩
      rintro rfl
      exact hpv (h.mapped pvName other hsome).2.1.symm
  have hstays : ∀ other, manager.channelMap (manager.tasks other).pvName = some other →
      other ≠ id → Function.update manager.channelMap (manager.tasks id).pvName none
        (manager.tasks other).pvName = some other := by
    intro other hsome hne
    rw [Function.update_of_ne, hsome]
    intro heq
    rw [heq, hmap] at hsome
    exact hne (Option.some.inj hsome).symm
  refine
    { mapped := ?_, absent := ?_, attended := ?_, unsubmitted := ?_, unsubmitted_nodup := ?_,
      served := ?_, single := ?_, erasing := ?_ }
  · intro pvName other hsome
    rw [hmap'] at hsome
    rw [hrest.2.1, (htasks other).1, (htasks other).2]
    exact h.mapped pvName other (hkept pvName other hsome).1
  · intro pvName hnone
    rw [hmap'] at hnone
    by_cases hpv : pvName = (manager.tasks id).pvName
    · rw [hpv, hzero]
    · rw [Function.update_of_ne hpv] at hnone
      exact h.absent pvName hnone
  · intro pvName other hsome
    rw [hmap'] at hsome
    obtain ⟨hsome, hne⟩ := hkept pvName other hsome
    rw [hrest.1]
    refine (h.attended pvName other hsome).imp_right ?_
    rintro ⟨server, hs⟩
    refine ⟨server, (hserves server other).mpr ⟨hs, ?_⟩⟩
    rintro rfl
    exact hne (hs.2.1.symm.trans hentry)
  · intro other hother
    rw [hrest.1] at hother
    rw [hmap', (htasks other).1]
    apply hstays other (h.unsubmitted other hother)
    rintro rfl
    exact hnot hother
  · rw [hrest.1]
    exact h.unsubmitted_nodup
  · intro other task hs
    obtain ⟨hs, hne⟩ := (hserves other task).mp hs
    obtain ⟨hsome, hpending⟩ := h.served other task hs
    rw [hmap', (htasks task).1, hrest.1]
    refine ⟨hstays task hsome ?_, hpending⟩
    rintro rfl
    exact hne (h.single other chain task hs hlive)
  · intro first second task hfirst hsecond
    exact h.single first second task ((hserves _ _).mp hfirst).1 ((hserves _ _).mp hsecond).1
  · intro other hother hphase'
    rw [hrest.2.2] at hother
    have hne : other ≠ chain := by
      rintro rfl
      simp [EpicsServiceManager.cleanupAndErase, hentry, hmap] at hphase'
    have hchain : (manager.cleanupAndErase chain).chains other = manager.chains other := by
      simp [EpicsServiceManager.cleanupAndErase, hentry, hmap, hne]
    rw [hchain] at hphase' ⊢
    rw [(htasks _).2]
    exact h.erasing other hother hphase'

/-- The poll leaves the count and moves the chain. -/
theorem poll (h : InStep count manager) {chain : ℕ} (received : Option Bool)
    (hlt : chain < manager.chainCount) (hphase : (manager.chains chain).phase = .polling) :
    InStep count (manager.poll chain received) := by
  have hlive : manager.Serves chain (manager.chains chain).entry :=
    ⟨hlt, rfl, by rw [hphase]; decide⟩
  obtain ⟨hmap, -⟩ := h.served chain _ hlive
  obtain ⟨-, -, hcount⟩ := h.mapped _ _ hmap
  let task : ChannelTask := { manager.tasks (manager.chains chain).entry with
    toForce := false
    active := received.getD (manager.tasks (manager.chains chain).entry).active }
  have hsame : task.pvName = (manager.tasks (manager.chains chain).entry).pvName := rfl
  have hwrite := h.setTask hmap hsame hcount (by
      intro other hother hentry herasing
      have := h.erasing other hother herasing
      rw [hentry, hcount] at this
      exact_mod_cast this)
  rw [Function.update_eq_self] at hwrite
  exact hwrite.setPhase (by simp [hphase]) (by decide) (by intro h; cases h)

theorem addChannel (h : InStep count manager) {uri : String}
    (htimely : manager.Timely (.addChannel uri)) :
    InStep (fun pvName => countReference pvName (count pvName) (.addChannel uri))
      (manager.addChannel uri) := by
  cases huri : sanitizePVName uri with
  | none => simpa [countReference, EpicsServiceManager.addChannel, huri] using h
  | some pv =>
      have hcounts : ∀ pvName, countReference pvName (count pvName) (.addChannel uri) =
          Function.update count pv.name (count pv.name + 1) pvName := by
        intro pvName
        by_cases hpv : pvName = pv.name
        · simp [countReference, huri, hpv]
        · simp [countReference, huri, hpv, Ne.symm hpv]
      cases hmap : manager.channelMap pv.name with
      | none =>
          have hnew := h.addChannel_absent hmap huri
          refine hnew.congr fun pvName => ?_
          rw [hcounts, h.absent _ hmap]
      | some id =>
          obtain ⟨-, hname, hcount⟩ := h.mapped _ _ hmap
          have hadded : manager.addChannel uri = manager.setTask id { manager.tasks id with
              keepAlive := (manager.tasks id).keepAlive + 1, toForce := true } := by
            simp [EpicsServiceManager.addChannel, huri, hmap]
          rw [hadded]
          refine InStep.congr (h.setTask hmap ?_ ?_ ?_) hcounts
          · exact hname
          · simp [hcount]
          · intro chain hlt hentry hphase
            exact absurd hphase (htimely pv huri id hmap chain hlt hentry)

theorem removeChannel (h : InStep count manager) (uri : String) :
    InStep (fun pvName => countReference pvName (count pvName) (.removeChannel uri))
      (manager.removeChannel uri) := by
  cases huri : sanitizePVName uri with
  | none => simpa [countReference, EpicsServiceManager.removeChannel, huri] using h
  | some pv =>
      have hcounts : ∀ pvName, countReference pvName (count pvName) (.removeChannel uri) =
          Function.update count pv.name (count pv.name - 1) pvName := by
        intro pvName
        by_cases hpv : pvName = pv.name
        · simp [countReference, huri, hpv]
        · simp [countReference, huri, hpv, Ne.symm hpv]
      cases hmap : manager.channelMap pv.name with
      | none =>
          simp only [EpicsServiceManager.removeChannel, huri, hmap]
          refine h.congr fun pvName => ?_
          rw [hcounts, h.absent _ hmap]
          by_cases hpv : pvName = pv.name
          · simp [hpv, h.absent _ hmap]
          · simp [hpv]
      | some id =>
          obtain ⟨-, hname, hcount⟩ := h.mapped _ _ hmap
          have hremoved : manager.removeChannel uri = manager.setTask id { manager.tasks id with
              keepAlive := if (manager.tasks id).keepAlive ≤ 1 then 0
                else (manager.tasks id).keepAlive - 1 } := by
            simp [EpicsServiceManager.removeChannel, huri, hmap]
          rw [hremoved]
          refine InStep.congr (h.setTask hmap ?_ ?_ ?_) hcounts
          · exact hname
          · simp only [hcount]
            split <;> omega
          · intro chain hlt hentry hphase
            have hzero := h.erasing chain hlt hphase
            rw [hentry, hcount] at hzero
            omega

/-- Every timely step keeps everything in step with the references it leaves. -/
theorem next (h : InStep count manager) {step : ManagerStep} {after : EpicsServiceManager}
    (htimely : manager.Timely step) (hnext : manager.next step = some after) :
    InStep (fun pvName => countReference pvName (count pvName) step) after := by
  cases step with
  | addChannel uri =>
      obtain rfl := Option.some.inj hnext
      exact h.addChannel htimely
  | removeChannel uri =>
      obtain rfl := Option.some.inj hnext
      exact h.removeChannel uri
  | detachTask id =>
      obtain ⟨hid, heq⟩ := Option.ite_none_right_eq_some.mp hnext
      obtain rfl := Option.some.inj heq
      exact h.detachTask hid
  | dequeue chain =>
      obtain ⟨⟨-, hphase⟩, heq⟩ := Option.ite_none_right_eq_some.mp hnext
      obtain rfl := Option.some.inj heq
      exact h.setPhase (by simp [hphase]) (by decide) (by intro h; cases h)
  | readKeepAlive chain =>
      obtain ⟨⟨-, hphase⟩, heq⟩ := Option.ite_none_right_eq_some.mp hnext
      split at heq
      · rename_i hzero
        obtain rfl := Option.some.inj heq
        exact h.setPhase (by simp [hphase]) (by decide) fun _ => hzero
      · obtain rfl := Option.some.inj heq
        exact h.setPhase (by simp [hphase]) (by decide) (by intro h; cases h)
  | cleanupAndErase chain =>
      obtain ⟨⟨hlt, hphase⟩, heq⟩ := Option.ite_none_right_eq_some.mp hnext
      obtain rfl := Option.some.inj heq
      exact h.cleanupAndErase hlt hphase
  | poll chain received =>
      obtain ⟨⟨hlt, hphase⟩, heq⟩ := Option.ite_none_right_eq_some.mp hnext
      obtain rfl := Option.some.inj heq
      exact h.poll received hlt hphase
  | resubmit chain =>
      obtain ⟨⟨-, hphase⟩, heq⟩ := Option.ite_none_right_eq_some.mp hnext
      obtain rfl := Option.some.inj heq
      exact h.setPhase (by simp [hphase]) (by decide) (by intro h; cases h)

theorem initial : InStep (fun _ => 0) {} where
  mapped := by simp
  absent := fun _ _ => rfl
  attended := by simp
  unsubmitted := by simp
  unsubmitted_nodup := List.nodup_nil
  served := by simp [Serves]
  single := by simp [Serves]
  erasing := by simp

/-- After a run of timely steps, everything is in step with the references of the run. -/
theorem of_run {steps : List ManagerStep}
    (h : Run EpicsServiceManager.next Timely {} steps manager) :
    InStep (references steps) manager := by
  refine h.invariant (I := fun steps manager => InStep (references steps) manager) initial ?_
  intro steps manager step after hinv htimely hnext
  exact (hinv.next htimely hnext).congr fun pvName => references_snoc steps step pvName

end InStep

end EpicsServiceManager

end K2eg
