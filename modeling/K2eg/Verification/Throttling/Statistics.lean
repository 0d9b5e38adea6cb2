import Mathlib.Algebra.Order.Ring.Int
import Mathlib.Data.List.Induction
import K2eg.Foundation.Backoff
import K2eg.Foundation.History
import K2eg.Model.ThrottlingManager

/-! # The statistics of a throttle

The calls alone say what the counters and the delay should be. The manager agrees with them as
long as the counts and the products fit an `int`, and no longer. -/

namespace K2eg

open History

/-! ## What the calls say -/

/-- Arguments of the constructor that make sense. -/
structure ThrottlingBounds where
  minUs : Int32
  maxUs : Int32
  threshold : Int32
  minUs_pos : 0 < minUs
  minUs_le_maxUs : minUs ≤ maxUs
  one_le_threshold : 1 ≤ threshold

/-- The idle updates since the last `reset`. -/
def idleUpdates (calls : List ThrottlingCall) : ℕ :=
  countSince (· == .reset) (· == .update false) calls

/-- The updates with events since their counter was last reset, by either method. -/
def eventUpdates (calls : List ThrottlingCall) : ℕ :=
  countSince (fun call => call == .reset || call == .resetEventCounter) (· == .update true) calls

/-- The idle updates since the throttle was last set. -/
def idleRun (calls : List ThrottlingCall) : ℕ :=
  countSince (fun call => call == .reset || call == .update true) (· == .update false) calls

namespace ThrottlingBounds

variable (bounds : ThrottlingBounds)

def manager : ThrottlingManager :=
  .ofBounds bounds.minUs bounds.maxUs bounds.threshold

/-- What a call sets the throttle to, if it does. -/
def setsTo : ThrottlingCall → Option Int32
  | .update true => some bounds.minUs
  | .reset => some bounds.maxUs
  | _ => none

/-- The throttle from which the doublings began. -/
def start (calls : List ThrottlingCall) : Int32 :=
  (lastValue bounds.setsTo calls).getD bounds.minUs

def period : ℕ := bounds.threshold.toInt.toNat

/-- How often the throttle has been doubled since it was last set. -/
def backOffs (calls : List ThrottlingCall) : ℕ := idleRun calls / bounds.period

/-- What is asked of the statistics after some calls. -/
structure Meets (calls : List ThrottlingCall) (stats : ThrottlingStats) : Prop where
  bounded : bounds.minUs ≤ stats.throttleUs ∧ stats.throttleUs ≤ bounds.maxUs
  idle : ∀ before hadEvents, calls = before ++ [.update hadEvents] →
    stats.idleCounter < bounds.threshold
  idleCycles : stats.totalIdleCycles.toInt = idleUpdates calls
  events : stats.totalEventsProcessed.toInt = eventUpdates calls

/-- No call overflows, and the statistics are right after each of them. -/
def Throttles (calls : List ThrottlingCall) : Prop :=
  ∀ past, past <+: calls →
    ∃ manager, bounds.manager.run past = some manager ∧ bounds.Meets past manager.getStats

/-- The counts fit an `int`, and so does what the last doubling has given before the cap. -/
structure InRange (calls : List ThrottlingCall) : Prop where
  idle : idleUpdates calls < 2 ^ 31
  events : eventUpdates calls < 2 ^ 31
  doubled : bounds.backOffs calls = 0 ∨
    (bounds.start calls).toInt * 2 ^ (bounds.backOffs calls - 1) < 2 ^ 30 ∨
    bounds.maxUs.toInt < 2 ^ 30

/-- The calls are in range all along. -/
def StaysInRange (calls : List ThrottlingCall) : Prop :=
  ∀ past, past <+: calls → bounds.InRange past

/-- The manager is where the calls have brought the back-off. -/
structure Tracks (calls : List ThrottlingCall) (manager : ThrottlingManager) : Prop where
  minUs : manager.minThrottleUs = bounds.minUs
  maxUs : manager.maxThrottleUs = bounds.maxUs
  threshold : manager.idleThreshold = bounds.threshold
  idle : manager.stats.idleCounter.toInt = (idleRun calls % bounds.period : ℕ)
  idleCycles : manager.stats.totalIdleCycles.toInt = idleUpdates calls
  events : manager.stats.totalEventsProcessed.toInt = eventUpdates calls
  throttle : manager.stats.throttleUs.toInt =
    backoff (bounds.start calls).toInt bounds.maxUs.toInt 2 (bounds.backOffs calls)

end ThrottlingBounds

/-! ## One more call -/

section Snoc

variable {calls : List ThrottlingCall} {bounds : ThrottlingBounds}

theorem idleUpdates_snoc (call : ThrottlingCall) : idleUpdates (calls ++ [call]) =
    match call with
    | .update false => idleUpdates calls + 1
    | .reset => 0
    | _ => idleUpdates calls := by
  rcases call with (_ | _) | _ | _ <;> simp [idleUpdates, countSince_snoc]

theorem eventUpdates_snoc (call : ThrottlingCall) : eventUpdates (calls ++ [call]) =
    match call with
    | .update false => eventUpdates calls
    | .update true => eventUpdates calls + 1
    | _ => 0 := by
  rcases call with (_ | _) | _ | _ <;> simp [eventUpdates, countSince_snoc]

theorem idleRun_snoc (call : ThrottlingCall) : idleRun (calls ++ [call]) =
    match call with
    | .update false => idleRun calls + 1
    | .resetEventCounter => idleRun calls
    | _ => 0 := by
  rcases call with (_ | _) | _ | _ <;> simp [idleRun, countSince_snoc]

theorem ThrottlingBounds.start_snoc (call : ThrottlingCall) : bounds.start (calls ++ [call]) =
    (bounds.setsTo call).getD (bounds.start calls) := by
  cases h : bounds.setsTo call <;> simp [start, lastValue_snoc, h]

end Snoc

/-! ## The updates -/

namespace ThrottlingManager

variable {manager after : ThrottlingManager} {slept : Option Int32}

theorem run_snoc (calls : List ThrottlingCall) (call : ThrottlingCall) :
    manager.run (calls ++ [call]) = (manager.run calls).bind fun next => next.perform call := by
  simp [run, List.foldlM_append]

/-- An idle update counts itself, and doubles the throttle when the threshold is reached. -/
theorem update_idle_iff : manager.update false = some (after, slept) ↔
    ∃ idleCounter : Int32, idleCounter.toInt = manager.stats.idleCounter.toInt + 1 ∧
    ∃ totalIdleCycles : Int32, totalIdleCycles.toInt = manager.stats.totalIdleCycles.toInt + 1 ∧
      (idleCounter < manager.idleThreshold ∧ slept = none ∧
          after = { manager with stats := { manager.stats with idleCounter, totalIdleCycles } } ∨
        manager.idleThreshold ≤ idleCounter ∧ ∃ doubled : Int32,
          doubled.toInt = manager.stats.throttleUs.toInt * 2 ∧
          slept = some (min doubled manager.maxThrottleUs) ∧
          after = { manager with stats := { manager.stats with
            idleCounter := 0
            totalIdleCycles
            throttleUs := min doubled manager.maxThrottleUs } }) := by
  have hone : (1 : Int32).toInt = 1 := by decide
  have htwo : (2 : Int32).toInt = 2 := by decide
  simp only [update, Bool.not_false, if_true, Option.bind_eq_bind, Option.bind_eq_some_iff,
    Int32.checkedAdd_eq_some_iff, hone]
  refine exists_congr fun idleCounter => and_congr_right fun _ =>
    exists_congr fun totalIdleCycles => and_congr_right fun _ => ?_
  by_cases hreached : manager.idleThreshold ≤ idleCounter
  · have hnot : ¬ idleCounter < manager.idleThreshold := fun h => Int32.not_le.mpr h hreached
    simp only [hreached, hnot, if_true, Option.bind_eq_some_iff, Int32.checkedMul_eq_some_iff, htwo,
      Option.some_inj, Prod.mk.injEq, false_and, false_or, true_and]
    refine exists_congr fun doubled => and_congr_right fun _ => ?_
    rw [eq_comm, and_comm, eq_comm (a := slept)]
  · have hlt : idleCounter < manager.idleThreshold := Int32.not_le.mp hreached
    simp only [hreached, hlt, if_false, Option.some_inj, Prod.mk.injEq, false_and, or_false,
      true_and]
    rw [eq_comm, and_comm, eq_comm (a := slept)]

end ThrottlingManager

/-! ## Following the calls -/

namespace ThrottlingBounds

variable {bounds : ThrottlingBounds} {calls : List ThrottlingCall} {call : ThrottlingCall}
  {manager after : ThrottlingManager} {slept : Option Int32}

theorem period_eq : (bounds.period : ℤ) = bounds.threshold.toInt := by
  have hone : 1 ≤ bounds.threshold.toInt := Int32.le_iff_toInt_le.mp bounds.one_le_threshold
  exact Int.toNat_of_nonneg (by omega)

theorem period_pos : 0 < bounds.period := by
  have hone : 1 ≤ bounds.threshold.toInt := Int32.le_iff_toInt_le.mp bounds.one_le_threshold
  have := bounds.period_eq
  omega

theorem minUs_toInt_pos : 0 < bounds.minUs.toInt := Int32.lt_iff_toInt_lt.mp bounds.minUs_pos

theorem minUs_toInt_le : bounds.minUs.toInt ≤ bounds.maxUs.toInt :=
  Int32.le_iff_toInt_le.mp bounds.minUs_le_maxUs

/-- The doublings begin at one of the two bounds. -/
theorem start_bounded (bounds : ThrottlingBounds) (calls : List ThrottlingCall) :
    bounds.minUs.toInt ≤ (bounds.start calls).toInt ∧
      (bounds.start calls).toInt ≤ bounds.maxUs.toInt := by
  have hle := bounds.minUs_toInt_le
  induction calls using List.reverseRecOn with
  | nil => exact ⟨le_rfl, hle⟩
  | append_singleton calls call ih =>
      rw [start_snoc]
      rcases call with (_ | _) | _ | _
      · exact ih
      · exact ⟨le_rfl, hle⟩
      · exact ⟨hle, le_rfl⟩
      · exact ih

theorem Tracks.initial : bounds.Tracks [] bounds.manager where
  minUs := rfl
  maxUs := rfl
  threshold := rfl
  idle := by simp [manager, ThrottlingManager.ofBounds, idleRun]
  idleCycles := rfl
  events := rfl
  throttle := by
    have hrounds : bounds.backOffs [] = 0 := by simp [backOffs, idleRun]
    rw [hrounds, backoff_zero (bounds.start_bounded []).2]
    rfl

/-- The counter gets to the threshold exactly at the end of a round. -/
theorem Tracks.reached_iff (h : bounds.Tracks calls manager) {idleCounter : Int32}
    (hcounter : idleCounter.toInt = manager.stats.idleCounter.toInt + 1) :
    manager.idleThreshold ≤ idleCounter ↔ idleRun calls % bounds.period + 1 = bounds.period := by
  have hperiod := bounds.period_eq
  have hmod : idleRun calls % bounds.period < bounds.period := Nat.mod_lt _ bounds.period_pos
  rw [h.threshold, Int32.le_iff_toInt_le, hcounter, h.idle]
  omega

theorem Tracks.below_iff (h : bounds.Tracks calls manager) {idleCounter : Int32}
    (hcounter : idleCounter.toInt = manager.stats.idleCounter.toInt + 1) :
    idleCounter < manager.idleThreshold ↔ idleRun calls % bounds.period + 1 < bounds.period := by
  have hmod : idleRun calls % bounds.period < bounds.period := Nat.mod_lt _ bounds.period_pos
  rw [← Int32.not_le, h.reached_iff hcounter]
  omega

/-- An idle update that does not overflow is one more cycle of the back-off. -/
theorem Tracks.idleUpdate (h : bounds.Tracks calls manager)
    (hupdate : manager.update false = some (after, slept)) :
    bounds.Tracks (calls ++ [.update false]) after := by
  obtain ⟨idleCounter, hcounter, totalIdleCycles, htotal, hbranch⟩ :=
    ThrottlingManager.update_idle_iff.mp hupdate
  rw [h.idleCycles] at htotal
  rcases hbranch with ⟨hbelow, -, rfl⟩ | ⟨hreached, doubled, hdoubled, -, rfl⟩
  · obtain ⟨hmod, hrounds⟩ := succ_idle_of_lt ((h.below_iff hcounter).mp hbelow)
    rw [h.idle] at hcounter
    refine ⟨h.minUs, h.maxUs, h.threshold, ?_, ?_, ?_, ?_⟩
    · rw [idleRun_snoc, hmod]
      exact_mod_cast hcounter
    · rw [idleUpdates_snoc]
      exact_mod_cast htotal
    · rw [eventUpdates_snoc]
      exact h.events
    · rw [backOffs, idleRun_snoc, hrounds, start_snoc]
      exact h.throttle
  · obtain ⟨hmod, hrounds⟩ :=
      succ_idle_of_eq bounds.period_pos ((h.reached_iff hcounter).mp hreached)
    refine ⟨h.minUs, h.maxUs, h.threshold, ?_, ?_, ?_, ?_⟩
    · rw [idleRun_snoc, hmod]
      rfl
    · rw [idleUpdates_snoc]
      exact_mod_cast htotal
    · rw [eventUpdates_snoc]
      exact h.events
    · have hmax : 0 ≤ bounds.maxUs.toInt := bounds.minUs_toInt_pos.le.trans bounds.minUs_toInt_le
      rw [backOffs, idleRun_snoc, hrounds, start_snoc, backoff_succ hmax (by decide), h.maxUs,
        Int32.toInt_min, hdoubled, h.throttle]
      rfl

/-- An update with events ends the back-off; a count that fits is counted. -/
theorem Tracks.eventUpdate (h : bounds.Tracks calls manager)
    (hupdate : manager.update true = some (after, slept))
    (hevents : eventUpdates calls + 1 < 2 ^ 31) :
    bounds.Tracks (calls ++ [.update true]) after := by
  obtain ⟨rfl, -⟩ := Prod.mk.inj (Option.some.inj hupdate)
  have hrun : idleRun (calls ++ [.update true]) = 0 := idleRun_snoc _
  have hcount : manager.stats.totalEventsProcessed.toInt + 1 = (eventUpdates calls + 1 : ℕ) := by
    rw [h.events]
    rfl
  refine ⟨h.minUs, h.maxUs, h.threshold, ?_, ?_, ?_, ?_⟩
  · rw [hrun]
    simp
  · rw [idleUpdates_snoc]
    exact h.idleCycles
  · rw [eventUpdates_snoc, Int32.toInt_add_one]
    · exact hcount
    · rw [hcount]
      exact_mod_cast hevents
  · rw [backOffs, hrun, Nat.zero_div, start_snoc]
    exact (congrArg Int32.toInt h.minUs).trans (backoff_zero bounds.minUs_toInt_le).symm

theorem Tracks.reset (h : bounds.Tracks calls manager) :
    bounds.Tracks (calls ++ [.reset]) manager.reset := by
  have hrun : idleRun (calls ++ [.reset]) = 0 := idleRun_snoc _
  refine ⟨h.minUs, h.maxUs, h.threshold, ?_, ?_, ?_, ?_⟩
  · rw [hrun]
    simp [ThrottlingManager.reset]
  · rw [idleUpdates_snoc]
    rfl
  · rw [eventUpdates_snoc]
    rfl
  · rw [backOffs, hrun, Nat.zero_div, start_snoc]
    exact (congrArg Int32.toInt h.maxUs).trans (backoff_zero le_rfl).symm

/-- Only the counter of events starts again. -/
theorem Tracks.resetEventCounter (h : bounds.Tracks calls manager) :
    bounds.Tracks (calls ++ [.resetEventCounter]) manager.resetEventCounter := by
  refine ⟨h.minUs, h.maxUs, h.threshold, ?_, ?_, ?_, ?_⟩
  · rw [idleRun_snoc]
    exact h.idle
  · rw [idleUpdates_snoc]
    exact h.idleCycles
  · rw [eventUpdates_snoc]
    rfl
  · rw [backOffs, idleRun_snoc, start_snoc]
    exact h.throttle

theorem Tracks.perform (h : bounds.Tracks calls manager) (hcall : manager.perform call = some after)
    (hevents : eventUpdates (calls ++ [call]) < 2 ^ 31) :
    bounds.Tracks (calls ++ [call]) after := by
  cases call with
  | update hadEvents =>
      obtain ⟨⟨next, slept⟩, hupdate, rfl⟩ := Option.map_eq_some_iff.mp hcall
      cases hadEvents with
      | false => exact h.idleUpdate hupdate
      | true =>
          rw [eventUpdates_snoc] at hevents
          exact h.eventUpdate hupdate hevents
  | reset =>
      obtain rfl := Option.some.inj hcall
      exact h.reset
  | resetEventCounter =>
      obtain rfl := Option.some.inj hcall
      exact h.resetEventCounter

/-! ## Within the bounds -/

theorem Tracks.idle_lt (h : bounds.Tracks calls manager) :
    manager.stats.idleCounter < bounds.threshold := by
  have hmod : idleRun calls % bounds.period < bounds.period := Nat.mod_lt _ bounds.period_pos
  rw [Int32.lt_iff_toInt_lt, h.idle, ← bounds.period_eq]
  exact_mod_cast hmod

theorem Tracks.meets (h : bounds.Tracks calls manager) :
    bounds.Meets calls manager.getStats where
  bounded := by
    have hstart := bounds.start_bounded calls
    rw [Int32.le_iff_toInt_le, Int32.le_iff_toInt_le, ThrottlingManager.getStats, h.throttle]
    constructor
    · apply hstart.1.trans
      exact le_backoff (bounds.minUs_toInt_pos.le.trans hstart.1) hstart.2 (by decide)
    · exact backoff_le_cap
  idle := fun _ _ _ => h.idle_lt
  idleCycles := h.idleCycles
  events := h.events

/-! ## Overflows -/

private theorem doubled_fits_iff {start cap : ℤ} {rounds : ℕ} :
    backoff start cap 2 rounds * 2 < 2 ^ 31 ↔ start * 2 ^ rounds < 2 ^ 30 ∨ cap < 2 ^ 30 := by
  rw [← backoff_lt_iff]
  omega

/-- An idle update that is in range does not overflow. -/
theorem Tracks.exists_idleUpdate (h : bounds.Tracks calls manager)
    (hrange : bounds.InRange (calls ++ [.update false])) :
    ∃ next, manager.update false = some next := by
  have hidle := hrange.idle
  have hdoubled := hrange.doubled
  rw [idleUpdates_snoc] at hidle
  rw [backOffs, idleRun_snoc, start_snoc] at hdoubled
  have hbelow := Int32.lt_iff_toInt_lt.mp h.idle_lt
  have hthreshold := bounds.threshold.toInt_lt
  have hthrottle := bounds.minUs_toInt_pos.trans_le (Int32.le_iff_toInt_le.mp h.meets.bounded.1)
  rw [ThrottlingManager.getStats] at hthrottle
  obtain ⟨idleCounter, hcounter⟩ := Int32.exists_ofInt?
    (n := manager.stats.idleCounter.toInt + 1) (by rw [h.idle]; omega) (by omega)
  obtain ⟨totalIdleCycles, htotal⟩ := Int32.exists_ofInt?
    (n := manager.stats.totalIdleCycles.toInt + 1) (by rw [h.idleCycles]; omega)
    (by rw [h.idleCycles]; exact_mod_cast hidle)
  rw [Int32.ofInt?_eq_some_iff] at hcounter htotal
  by_cases hreached : manager.idleThreshold ≤ idleCounter
  · -- the counter is at the threshold: one more round is complete
    have hround := (h.reached_iff hcounter).mp hreached
    rw [(succ_idle_of_eq bounds.period_pos hround).2, Nat.add_sub_cancel] at hdoubled
    have hfits := doubled_fits_iff.mpr (hdoubled.resolve_left (Nat.succ_ne_zero _))
    obtain ⟨doubled, hproduct⟩ := Int32.exists_ofInt?
      (n := manager.stats.throttleUs.toInt * 2) (by omega) (by rw [h.throttle]; exact hfits)
    exact ⟨_, ThrottlingManager.update_idle_iff.mpr ⟨_, hcounter, _, htotal,
      .inr ⟨hreached, _, Int32.ofInt?_eq_some_iff.mp hproduct, rfl, rfl⟩⟩⟩
  · exact ⟨_, ThrottlingManager.update_idle_iff.mpr ⟨_, hcounter, _, htotal,
      .inl ⟨Int32.not_le.mp hreached, rfl, rfl⟩⟩⟩

/-- A call that is in range does not overflow. -/
theorem Tracks.exists_perform (h : bounds.Tracks calls manager)
    (hrange : bounds.InRange (calls ++ [call])) :
    ∃ after, manager.perform call = some after ∧ bounds.Tracks (calls ++ [call]) after := by
  suffices ∃ after, manager.perform call = some after by
    obtain ⟨after, hcall⟩ := this
    exact ⟨after, hcall, h.perform hcall hrange.events⟩
  rcases call with (_ | _) | _ | _
  · obtain ⟨next, hupdate⟩ := h.exists_idleUpdate hrange
    exact ⟨next.1, congrArg (Option.map Prod.fst) hupdate⟩
  · exact ⟨_, rfl⟩
  · exact ⟨_, rfl⟩
  · exact ⟨_, rfl⟩

/-- A call after which the statistics are right was in range. -/
theorem Tracks.inRange (h : bounds.Tracks calls manager) (hrange : bounds.InRange calls)
    (hcall : manager.perform call = some after)
    (hmeets : bounds.Meets (calls ++ [call]) after.getStats) :
    bounds.InRange (calls ++ [call]) where
  idle := by
    have hlt := after.getStats.totalIdleCycles.toInt_lt
    rw [hmeets.idleCycles] at hlt
    exact_mod_cast hlt
  events := by
    have hlt := after.getStats.totalEventsProcessed.toInt_lt
    rw [hmeets.events] at hlt
    exact_mod_cast hlt
  doubled := by
    rw [backOffs, idleRun_snoc, start_snoc]
    rcases call with (_ | _) | _ | _
    · obtain ⟨⟨next, slept⟩, hupdate, rfl⟩ := Option.map_eq_some_iff.mp hcall
      obtain ⟨idleCounter, hcounter, _, _, hbranch⟩ :=
        ThrottlingManager.update_idle_iff.mp hupdate
      rcases hbranch with ⟨hbelow, -, -⟩ | ⟨hreached, doubled, hdoubled, -, -⟩
      · rw [(succ_idle_of_lt ((h.below_iff hcounter).mp hbelow)).2]
        exact hrange.doubled
      · have hround := (h.reached_iff hcounter).mp hreached
        have hfits := doubled.toInt_lt
        rw [hdoubled, h.throttle] at hfits
        rw [(succ_idle_of_eq bounds.period_pos hround).2, Nat.add_sub_cancel]
        exact .inr (doubled_fits_iff.mp hfits)
    · exact .inl (Nat.zero_div _)
    · exact .inl (Nat.zero_div _)
    · exact hrange.doubled

/-! ## Runs -/

theorem tracks_of_staysInRange (h : bounds.StaysInRange calls) :
    ∃ manager, bounds.manager.run calls = some manager ∧ bounds.Tracks calls manager := by
  induction calls using List.reverseRecOn with
  | nil => exact ⟨_, rfl, .initial⟩
  | append_singleton calls call ih =>
      obtain ⟨hpast, hlast⟩ := forall_prefix_snoc.mp h
      obtain ⟨manager, hrun, htracks⟩ := ih hpast
      obtain ⟨after, hcall, hafter⟩ := htracks.exists_perform hlast
      refine ⟨after, ?_, hafter⟩
      rw [ThrottlingManager.run_snoc, hrun]
      exact hcall

theorem staysInRange_of_throttles (h : bounds.Throttles calls) : bounds.StaysInRange calls := by
  induction calls using List.reverseRecOn with
  | nil =>
      intro past hpast
      obtain rfl := List.prefix_nil.mp hpast
      exact ⟨by decide, by decide, .inl (Nat.zero_div _)⟩
  | append_singleton calls call ih =>
      obtain ⟨hpast, after, hrun, hmeets⟩ := forall_prefix_snoc.mp h
      have hrange := ih hpast
      obtain ⟨manager, hbefore, htracks⟩ := tracks_of_staysInRange hrange
      rw [ThrottlingManager.run_snoc, hbefore] at hrun
      exact forall_prefix_snoc.mpr
        ⟨hrange, htracks.inRange (hrange calls List.prefix_rfl) hrun hmeets⟩

/-- The throttle is right in every state of a run exactly where the counts and the doublings stay
in range. -/
theorem throttles_iff (bounds : ThrottlingBounds) (calls : List ThrottlingCall) :
    bounds.Throttles calls ↔ bounds.StaysInRange calls := by
  constructor
  · exact staysInRange_of_throttles
  · intro h past hpast
    obtain ⟨manager, hrun, htracks⟩ :=
      tracks_of_staysInRange fun earlier hearlier => h earlier (hearlier.trans hpast)
    exact ⟨manager, hrun, htracks.meets⟩

/-- The doubling overflows before it is capped. -/
example : (ThrottlingManager.ofBounds (2 ^ 30) (2 ^ 31 - 1) 1).run [.update false] = none := by
  decide

/-! ## A silent channel -/

theorem idleUpdates_replicate (n : ℕ) : idleUpdates (List.replicate n (.update false)) = n := by
  induction n with
  | zero => rfl
  | succ n ih => rw [List.replicate_succ', idleUpdates_snoc, ih]

/-- Whatever the bounds are, the idle updates overflow their counter in the end. -/
theorem lt_of_throttles_silent {n : ℕ}
    (h : bounds.Throttles (List.replicate n (.update false))) : n < 2 ^ 31 := by
  have hrange := (staysInRange_of_throttles h _ List.prefix_rfl).idle
  rwa [idleUpdates_replicate] at hrange

/-- The bounds that `EpicsServiceManagerConfig` gives to every channel. -/
def ofChannel : ThrottlingBounds where
  minUs := 50
  maxUs := 50000
  threshold := 10
  minUs_pos := by decide
  minUs_le_maxUs := by decide
  one_le_threshold := by decide

theorem not_throttles_silent :
    ¬ ofChannel.Throttles (List.replicate (2 ^ 31) (.update false)) := by
  intro h
  exact lt_irrefl _ (lt_of_throttles_silent h)

/-- Short runs are in range where the cap can be doubled. -/
theorem inRange_of_length (hcap : bounds.maxUs.toInt < 2 ^ 30) (hlength : calls.length < 2 ^ 31) :
    bounds.InRange calls where
  idle := countSince_le_length.trans_lt hlength
  events := countSince_le_length.trans_lt hlength
  doubled := .inr (.inr hcap)

end ThrottlingBounds

end K2eg
