import K2eg.Model.ChannelSweep
import K2eg.Verification.Monitors.Rows
import Mathlib.Data.List.Perm.Basic
import Mathlib.Data.List.Nodup

/-! # Sweeps over the channel monitors

Each visit of a row takes one row out of the unprocessed ones and leaves the others alone. A call
visits as many as it may, and the calls of a sweep visit every unprocessed row once. -/

namespace K2eg

/-! ## Visits -/

/-- A row in the place of the one with the id, or none. -/
def replaceRow (id : Int) (after : Option ChannelMonitorType) (row : ChannelMonitorType) :
    Option ChannelMonitorType :=
  if row.id = id then after else some row

def unprocessed (rows : List ChannelMonitorType) : List ChannelMonitorType :=
  rows.filter fun row => !row.processed

/-- The primary key of the table. -/
def UniqueIds (rows : List ChannelMonitorType) : Prop := (rows.map ChannelMonitorType.id).Nodup

/-- The row behind the call is the one that the handler has left, but it is processed, and has the
timestamp that the flag asks for: 0 leaves the one of the handler. -/
structure HandledRow.Leaves (entry : HandledRow) (row : ChannelMonitorType) : Prop where
  id : row.id = entry.row.id
  processed : row.processed = true
  left : ∃ left ∈ entry.left,
    row = { left with processed := row.processed, startPurgeTs := row.startPurgeTs }
  reset : entry.purgeTsSetFlag = -1 → row.startPurgeTs = -1
  set : entry.purgeTsSetFlag = 1 → row.startPurgeTs = entry.now
  keep : entry.purgeTsSetFlag ≠ -1 → entry.purgeTsSetFlag ≠ 1 →
    ∀ left ∈ entry.left, row.startPurgeTs = left.startPurgeTs

/-- A visit of an unprocessed row. Only a row with the flag 0 goes. -/
structure Visit (rows : List ChannelMonitorType) (entry : HandledRow)
    (rows' : List ChannelMonitorType) : Prop where
  found : entry.row ∈ rows
  waiting : entry.row.processed = false
  gone : entry.left = none → entry.purgeTsSetFlag = 0
  after : ∃ after, rows' = rows.filterMap (replaceRow entry.row.id after) ∧
    (∀ row ∈ after, entry.Leaves row) ∧ entry.left.isSome = after.isSome

/-- Visits one after the other. -/
inductive Visits : List ChannelMonitorType → List HandledRow → List ChannelMonitorType → Prop where
  | nil {rows} : Visits rows [] rows
  | cons {rows entry between log rows'} (visit : Visit rows entry between)
      (rest : Visits between log rows') : Visits rows (entry :: log) rows'

section Rows

variable {rows rows' : List ChannelMonitorType} {entry : HandledRow} {log log' : List HandledRow}

theorem UniqueIds.eq_of_id (h : UniqueIds rows) {a b : ChannelMonitorType} (ha : a ∈ rows)
    (hb : b ∈ rows) (hid : a.id = b.id) : a = b :=
  List.inj_on_of_nodup_map h ha hb hid

theorem UniqueIds.replace (h : UniqueIds rows) {id : Int} {after : Option ChannelMonitorType}
    (hafter : ∀ row ∈ after, row.id = id) : UniqueIds (rows.filterMap (replaceRow id after)) := by
  refine List.Nodup.sublist ?_ h
  clear h
  induction rows with
  | nil => exact .slnil
  | cons row rest ih =>
      rw [List.filterMap_cons]
      cases hrow : replaceRow id after row with
      | none => exact ih.cons _
      | some new =>
          have hid : new.id = row.id := by
            rw [replaceRow] at hrow
            split at hrow
            · rename_i heq
              rw [hafter new hrow, heq]
            · rw [← Option.some.inj hrow]
          rw [List.map_cons, List.map_cons, hid]
          exact ih.cons_cons _

theorem mem_replace {id : Int} {after : Option ChannelMonitorType} {row : ChannelMonitorType} :
    row ∈ rows.filterMap (replaceRow id after) ↔
      (row ∈ rows ∧ row.id ≠ id) ∨ (row ∈ after ∧ ∃ old ∈ rows, old.id = id) := by
  rw [List.mem_filterMap]
  constructor
  · rintro ⟨old, hold, heq⟩
    rw [replaceRow] at heq
    split at heq
    · exact .inr ⟨heq, old, hold, ‹_›⟩
    · obtain rfl := Option.some.inj heq
      exact .inl ⟨hold, ‹_›⟩
  · rintro (⟨hrow, hne⟩ | ⟨hafter, old, hold, hid⟩)
    · exact ⟨row, hrow, if_neg hne⟩
    · exact ⟨old, hold, (if_pos hid).trans hafter⟩

/-- Only the visited row is no longer waiting. -/
theorem unprocessed_replace {id : Int} {after : Option ChannelMonitorType}
    (hafter : ∀ row ∈ after, row.processed = true) :
    unprocessed (rows.filterMap (replaceRow id after)) =
      (unprocessed rows).filter fun row => decide (row.id ≠ id) := by
  induction rows with
  | nil => rfl
  | cons row rest ih =>
      simp only [unprocessed] at ih ⊢
      rw [List.filterMap_cons, replaceRow]
      by_cases hid : row.id = id
      · rw [if_pos hid]
        cases after with
        | none => cases hrow : row.processed <;> simp [hrow, hid, ih]
        | some new =>
            have hnew := hafter new rfl
            cases hrow : row.processed <;> simp [hrow, hid, hnew, ih]
      · rw [if_neg hid]
        cases hrow : row.processed <;> simp [hrow, hid, ih]

namespace Visit

theorem uniqueIds (h : Visit rows entry rows') (hids : UniqueIds rows) : UniqueIds rows' := by
  obtain ⟨after, rfl, hleaves, -⟩ := h.after
  exact hids.replace fun row hrow => (hleaves row hrow).id

theorem perm (h : Visit rows entry rows') (hids : UniqueIds rows) :
    (entry.row :: unprocessed rows').Perm (unprocessed rows) := by
  obtain ⟨after, rfl, hleaves, -⟩ := h.after
  rw [unprocessed_replace fun row hrow => (hleaves row hrow).processed]
  have hmem : entry.row ∈ unprocessed rows :=
    List.mem_filter.mpr ⟨h.found, by simp [h.waiting]⟩
  have hnodup : (unprocessed rows).Nodup := (hids.of_map _).filter _
  have hfilter : (unprocessed rows).filter (fun row => decide (row.id ≠ entry.row.id)) =
      (unprocessed rows).erase entry.row := by
    rw [hnodup.erase_eq_filter]
    refine List.filter_congr fun row hrow => ?_
    rw [Bool.eq_iff_iff]
    simp only [ne_eq, decide_eq_true_eq, bne_iff_ne]
    constructor
    · rintro hne rfl
      exact hne rfl
    · intro hne hid
      exact hne (hids.eq_of_id (List.mem_filter.mp hrow).1 h.found hid)
  rw [hfilter]
  exact (List.perm_cons_erase hmem).symm

theorem mem_iff (h : Visit rows entry rows') {row : ChannelMonitorType}
    (hne : row.id ≠ entry.row.id) : row ∈ rows' ↔ row ∈ rows := by
  obtain ⟨after, rfl, hleaves, -⟩ := h.after
  rw [mem_replace]
  constructor
  · rintro (⟨hrow, -⟩ | ⟨hrow, -⟩)
    · exact hrow
    · exact absurd (hleaves row hrow).id hne
  · exact fun hrow => .inl ⟨hrow, hne⟩

theorem leaves (h : Visit rows entry rows') {row : ChannelMonitorType} (hrow : row ∈ rows')
    (hid : row.id = entry.row.id) : entry.Leaves row := by
  obtain ⟨after, rfl, hleaves, -⟩ := h.after
  rcases mem_replace.mp hrow with ⟨-, hne⟩ | ⟨hafter, -⟩
  · exact absurd hid hne
  · exact hleaves row hafter

theorem present_iff (h : Visit rows entry rows') :
    entry.left.isSome = true ↔ ∃ row ∈ rows', row.id = entry.row.id := by
  obtain ⟨after, rfl, hleaves, hpresent⟩ := h.after
  rw [hpresent]
  constructor
  · intro hsome
    obtain ⟨row, hrow⟩ := Option.isSome_iff_exists.mp hsome
    exact ⟨row, mem_replace.mpr (.inr ⟨hrow, entry.row, h.found, rfl⟩), (hleaves row hrow).id⟩
  · rintro ⟨row, hrow, hid⟩
    rcases mem_replace.mp hrow with ⟨-, hne⟩ | ⟨hafter, -⟩
    · exact absurd hid hne
    · exact Option.isSome_of_mem hafter

/-- What is processed stays so. -/
theorem processed (h : Visit rows entry rows') {P : ChannelMonitorType → Prop}
    (hdone : ∀ row ∈ rows, P row → row.processed = true) :
    ∀ row ∈ rows', P row → row.processed = true := by
  intro row hrow hP
  by_cases hid : row.id = entry.row.id
  · exact (h.leaves hrow hid).processed
  · exact hdone row ((h.mem_iff hid).mp hrow) hP

end Visit

namespace Visits

theorem append (h : Visits rows log rows') {rows'' : List ChannelMonitorType}
    (h' : Visits rows' log' rows'') : Visits rows (log ++ log') rows'' := by
  induction h with
  | nil => exact h'
  | cons visit rest ih => exact .cons visit (ih h')

theorem uniqueIds (h : Visits rows log rows') (hids : UniqueIds rows) : UniqueIds rows' := by
  induction h with
  | nil => exact hids
  | cons visit rest ih => exact ih (visit.uniqueIds hids)

/-- The visited rows are different unprocessed ones, and the rest is still waiting. -/
theorem perm (h : Visits rows log rows') (hids : UniqueIds rows) :
    (log.map HandledRow.row ++ unprocessed rows').Perm (unprocessed rows) := by
  induction h with
  | nil => exact .refl _
  | cons visit rest ih =>
      exact ((ih (visit.uniqueIds hids)).cons _).trans (visit.perm hids)

theorem processed (h : Visits rows log rows') {P : ChannelMonitorType → Prop}
    (hdone : ∀ row ∈ rows, P row → row.processed = true) :
    ∀ row ∈ rows', P row → row.processed = true := by
  induction h with
  | nil => exact hdone
  | cons visit rest ih => exact ih (visit.processed hdone)

theorem mem_iff (h : Visits rows log rows') {row : ChannelMonitorType}
    (hne : ∀ entry ∈ log, row.id ≠ entry.row.id) : row ∈ rows' ↔ row ∈ rows := by
  induction h with
  | nil => rfl
  | cons visit rest ih =>
      rw [ih fun entry hmem => hne entry (List.mem_cons_of_mem _ hmem)]
      exact visit.mem_iff (hne _ List.mem_cons_self)

/-- The ids of the visited rows. -/
theorem ids_nodup (h : Visits rows log rows') (hids : UniqueIds rows) :
    (log.map fun entry => entry.row.id).Nodup := by
  have hall : ((unprocessed rows).map ChannelMonitorType.id).Nodup :=
    hids.sublist (List.filter_sublist.map _)
  have hperm := ((h.perm hids).map ChannelMonitorType.id).nodup_iff.mpr hall
  rw [List.map_append, List.map_map] at hperm
  exact hperm.of_append_left

/-- The visited rows are left as their calls ask for, or gone. -/
theorem leaves (h : Visits rows log rows') (hids : UniqueIds rows) :
    ∀ entry ∈ log, (entry.left = none → entry.purgeTsSetFlag = 0) ∧
      (entry.left.isSome = true ↔ ∃ row ∈ rows', row.id = entry.row.id) ∧
      ∀ row ∈ rows', row.id = entry.row.id → entry.Leaves row := by
  induction h with
  | nil => simp
  | @cons rows first between log rows' visit rest ih =>
      intro entry hmem
      rcases List.mem_cons.mp hmem with rfl | hmem
      · have hdifferent : ∀ other ∈ log, entry.row.id ≠ other.row.id := by
          have hnodup := (Visits.cons visit rest).ids_nodup hids
          rw [List.map_cons, List.nodup_cons] at hnodup
          intro other hother heq
          exact hnodup.1 (List.mem_map.mpr ⟨other, hother, heq.symm⟩)
        have hsame {row : ChannelMonitorType} (hid : row.id = entry.row.id) :
            row ∈ rows' ↔ row ∈ between :=
          rest.mem_iff fun other hother => hid ▸ hdifferent other hother
        refine ⟨visit.gone, ?_, fun row hrow hid => visit.leaves ((hsame hid).mp hrow) hid⟩
        rw [visit.present_iff]
        exact exists_congr fun row => and_congr_left fun hid => (hsame hid).symm
      · exact ih (visit.uniqueIds hids) entry hmem

end Visits

end Rows

/-! ## Handlers -/

/-- The entry of a call of the handler. -/
def HandledRow.IsCall {σ : Type*} (handler : ChannelMonitorTypeHandler σ) (entry : HandledRow) :
    Prop :=
  ∃ node state, entry.row ∈ node.channelRepository.rows ∧
    entry.purgeTsSetFlag = (handler entry.row node state).purgeTsSetFlag ∧
    entry.left = (handler entry.row node state).node.findRow entry.row.id

namespace ChannelSweep

variable {σ : Type*}

/-- In the state of the sweep the handler adds no row and leaves the rows but its own alone. It may
remove its own, with the flag left 0. -/
def ConfinedAt (handler : ChannelMonitorTypeHandler σ) (sweep : ChannelSweep σ) : Prop :=
  ∀ row ∈ sweep.rows, row.processed = false → ∃ after,
    (handler row sweep.node sweep.state).node.channelRepository.rows =
      sweep.rows.filterMap (replaceRow row.id after) ∧
    (∀ own ∈ after, own.id = row.id) ∧
    (after = none → (handler row sweep.node sweep.state).purgeTsSetFlag = 0)

/-- What calls of the handler and resets come to. -/
inductive Reaches (handler : ChannelMonitorTypeHandler σ) (clock : ℕ → Int) :
    ChannelSweep σ → ChannelSweep σ → Prop where
  | refl {sweep} : Reaches handler clock sweep sweep
  | handle {sweep between sweep'} {row : ChannelMonitorType} (found : row ∈ sweep.rows)
      (waiting : row.processed = false) (call : sweep.handle handler clock row = .ok between)
      (rest : Reaches handler clock between sweep') : Reaches handler clock sweep sweep'
  | reset {sweep sweep'} (rest : Reaches handler clock sweep.resetAllChannelMonitorCheck sweep') :
      Reaches handler clock sweep sweep'

/-- The handler is confined in every state that the sweeps come to. -/
def Confined (handler : ChannelMonitorTypeHandler σ) (clock : ℕ → Int) (sweep : ChannelSweep σ) :
    Prop :=
  ∀ sweep', Reaches handler clock sweep sweep' → sweep'.ConfinedAt handler

variable {handler : ChannelMonitorTypeHandler σ} {clock : ℕ → Int}
  {sweep sweep' sweep'' : ChannelSweep σ}

theorem Reaches.trans (h : Reaches handler clock sweep sweep')
    (h' : Reaches handler clock sweep' sweep'') : Reaches handler clock sweep sweep'' := by
  induction h with
  | refl => exact h'
  | handle found waiting call rest ih => exact .handle found waiting call (ih h')
  | reset rest ih => exact .reset (ih h')

/-- What calls of the handler and resets keep. -/
theorem Reaches.invariant {P : ChannelSweep σ → Prop}
    (hhandle : ∀ {sweep between : ChannelSweep σ} {row : ChannelMonitorType}, P sweep →
      row ∈ sweep.rows → row.processed = false →
      sweep.handle handler clock row = .ok between → P between)
    (hreset : ∀ {sweep : ChannelSweep σ}, P sweep → P sweep.resetAllChannelMonitorCheck)
    (h : Reaches handler clock sweep sweep') (hstart : P sweep) : P sweep' := by
  induction h with
  | refl => exact hstart
  | handle found waiting call rest ih => exact ih (hhandle hstart found waiting call)
  | reset rest ih => exact ih (hreset hstart)

theorem Confined.of_reaches (h : Confined handler clock sweep)
    (hreaches : Reaches handler clock sweep sweep') : Confined handler clock sweep' :=
  fun _ hrest => h _ (hreaches.trans hrest)

end ChannelSweep

theorem map_replace (rows : List ChannelMonitorType) {id : Int} {after : Option ChannelMonitorType}
    (hafter : ∀ own ∈ after, own.id = id) (update : ChannelMonitorType → ChannelMonitorType) :
    (rows.filterMap (replaceRow id after)).map
        (fun row => if row.id = id then update row else row) =
      rows.filterMap (replaceRow id (after.map update)) := by
  rw [List.map_filterMap]
  congr 1
  funext row
  rw [replaceRow, replaceRow]
  split
  · cases after with
    | none => rfl
    | some own => simp [hafter own rfl]
  · rename_i hne
    simp [hne]

namespace ChannelSweep

variable {σ : Type*} {handler : ChannelMonitorTypeHandler σ} {clock : ℕ → Int}
  {sweep sweep' : ChannelSweep σ} {elementToProcess : ℕ}

theorem hasRow_replace {rows : List ChannelMonitorType} {row : ChannelMonitorType}
    {after : Option ChannelMonitorType} (hrow : row ∈ rows)
    (hafter : ∀ own ∈ after, own.id = row.id) {node : NodeConfiguration}
    (hrows : node.channelRepository.rows = rows.filterMap (replaceRow row.id after)) :
    node.hasRow row.id = after.isSome := by
  rw [NodeConfiguration.hasRow, NodeConfiguration.findRow, hrows, Bool.eq_iff_iff,
    List.find?_isSome]
  simp only [decide_eq_true_eq]
  constructor
  · rintro ⟨other, hother, hid⟩
    rcases mem_replace.mp hother with ⟨-, hne⟩ | ⟨hmem, -⟩
    · exact absurd hid hne
    · exact Option.isSome_of_mem hmem
  · intro hsome
    obtain ⟨own, hown⟩ := Option.isSome_iff_exists.mp hsome
    exact ⟨own, mem_replace.mpr (.inr ⟨hown, row, hrow, rfl⟩), hafter own hown⟩

/-- The row that the handler has left. -/
theorem findRow_replace {rows : List ChannelMonitorType} {row : ChannelMonitorType}
    {after : Option ChannelMonitorType} (hrow : row ∈ rows)
    (hafter : ∀ own ∈ after, own.id = row.id) {node : NodeConfiguration}
    (hrows : node.channelRepository.rows = rows.filterMap (replaceRow row.id after)) :
    node.findRow row.id = after := by
  have hsome := hasRow_replace hrow hafter hrows
  rw [NodeConfiguration.hasRow] at hsome
  cases hfind : node.findRow row.id with
  | none =>
      rw [hfind] at hsome
      exact (Option.not_isSome_iff_eq_none.mp (by rw [← hsome]; simp)).symm
  | some own =>
      rw [NodeConfiguration.findRow, hrows] at hfind
      have hid : own.id = row.id := by simpa using List.find?_some hfind
      rcases mem_replace.mp (List.mem_of_find?_eq_some hfind) with ⟨-, hne⟩ | ⟨hmem, -⟩
      · exact absurd hid hne
      · exact (Option.mem_def.mp hmem).symm

/-- The timestamp of a row that is still there is updated; no other flag than 0 needs one. -/
theorem updatePurgeTimeStamp_spec (node : NodeConfiguration) {id flag : Int} (now : Int)
    (hpresent : flag ≠ 0 → node.hasRow id = true) :
    ∃ (node' : NodeConfiguration) (update : ChannelMonitorType → ChannelMonitorType),
      node.updatePurgeTimeStamp id flag now = .ok node' ∧
      node'.channelRepository.rows = node.channelRepository.rows.map
        (fun row => if row.id = id then update row else row) ∧
      ∀ row, update row = { row with startPurgeTs := (update row).startPurgeTs } ∧
        (flag = -1 → (update row).startPurgeTs = -1) ∧
        (flag = 1 → (update row).startPurgeTs = now) ∧
        (flag ≠ -1 → flag ≠ 1 → (update row).startPurgeTs = row.startPurgeTs) := by
  rw [NodeConfiguration.updatePurgeTimeStamp]
  split_ifs with hreset hset
  · rw [NodeConfiguration.updateExisting, if_pos (hpresent (by omega))]
    exact ⟨_, fun row => { row with startPurgeTs := -1 }, rfl, rfl, fun row =>
      ⟨rfl, fun _ => rfl, fun hset => by omega, fun hne => absurd hreset hne⟩⟩
  · rw [NodeConfiguration.updateExisting, if_pos (hpresent (by omega))]
    exact ⟨_, fun row => { row with startPurgeTs := now }, rfl, rfl, fun row =>
      ⟨rfl, fun hreset => by omega, fun _ => rfl, fun _ hne => absurd hset hne⟩⟩
  · exact ⟨node, fun row => row, rfl, by simp, fun row =>
      ⟨rfl, fun h => absurd h hreset, fun h => absurd h hset, fun _ _ => rfl⟩⟩

variable (clock) in
/-- One call of the handler is a visit. -/
theorem handle_spec (hconfined : sweep.ConfinedAt handler)
    {row : ChannelMonitorType} (hrow : row ∈ sweep.rows) (hwaiting : row.processed = false) :
    ∃ sweep' entry, sweep.handle handler clock row = .ok sweep' ∧
      sweep'.handled = sweep.handled ++ [entry] ∧ entry.IsCall handler ∧
      Visit sweep.rows entry sweep'.rows := by
  obtain ⟨after, hrows, hafter, hflag⟩ := hconfined row hrow hwaiting
  have hcall : ∀ now, HandledRow.IsCall handler ⟨row,
      (handler row sweep.node sweep.state).purgeTsSetFlag, now,
      (handler row sweep.node sweep.state).node.findRow row.id⟩ :=
    fun now => ⟨sweep.node, sweep.state, hrow, rfl, rfl⟩
  rw [handle]
  generalize handler row sweep.node sweep.state = outcome at hrows hflag hcall
  have hfind := findRow_replace hrow hafter hrows
  have hpresent : outcome.purgeTsSetFlag ≠ 0 → outcome.node.hasRow row.id = true := by
    intro hne
    rw [NodeConfiguration.hasRow, hfind, Option.isSome_iff_ne_none]
    exact fun hnone => hne (hflag hnone)
  obtain ⟨node, update, hnode, hupdated, hupdate⟩ :=
    updatePurgeTimeStamp_spec outcome.node (clock sweep.handled.length) hpresent
  have hkeepsId : ∀ own, (update own).id = own.id := fun own => by rw [(hupdate own).1]
  simp only [hnode]
  refine ⟨_, _, rfl, rfl, hcall _, hrow, hwaiting, fun hgone => hflag (hfind.symm.trans hgone),
    (after.map update).map fun row => { row with processed := true }, ?_, ?_, ?_⟩
  · have hafter' : ∀ own ∈ after.map update, own.id = row.id := by
      intro own hown
      obtain ⟨before, hbefore, rfl⟩ := Option.mem_map.mp hown
      rw [hkeepsId before, hafter before hbefore]
    have hsame : sweep.rows = sweep.node.channelRepository.rows := rfl
    rw [← map_replace _ hafter', ← map_replace _ hafter, ← hrows, ← hupdated]
    rfl
  · intro own hown
    obtain ⟨updated, hupdated, rfl⟩ := Option.mem_map.mp hown
    obtain ⟨before, hbefore, rfl⟩ := Option.mem_map.mp hupdated
    obtain ⟨hrest, hreset, hset, hkeep⟩ := hupdate before
    refine ⟨(hkeepsId before).trans (hafter before hbefore), rfl,
      ⟨before, hfind ▸ hbefore, ?_⟩, hreset, hset, fun hne hne' left hleft => ?_⟩
    · rw [hrest]
    · rw [hfind] at hleft
      obtain rfl := Option.mem_unique hbefore hleft
      exact hkeep hne hne'
  · simp [hfind]

/-! ## Loops -/

/-- What the loops do that have counted up to `processed`: no row is visited beyond the limit, and
none of the names is left unless the limit is passed. -/
structure Loops (handler : ChannelMonitorTypeHandler σ) (clock : ℕ → Int) (elementToProcess : ℕ)
    (names : List String) (sweep sweep' : ChannelSweep σ) (processed processed' : ℕ)
    (log : List HandledRow) : Prop where
  reaches : Reaches handler clock sweep sweep'
  handled : sweep'.handled = sweep.handled ++ log
  calls : ∀ entry ∈ log, entry.IsCall handler
  visits : Visits sweep.rows log sweep'.rows
  counted : min processed elementToProcess + log.length = min processed' elementToProcess
  le : processed ≤ processed'
  finished : processed' ≤ elementToProcess →
    ∀ row ∈ sweep'.rows, row.pvName ∈ names → row.processed = true

theorem waiting_of_next {repository : ChannelRepository} {pvName : String}
    {row : ChannelMonitorType} (h : repository.getNextChannelMonitorToProcess pvName = some row) :
    row ∈ repository.rows ∧ row.processed = false := by
  have hfound := List.find?_some h
  simp only [Bool.and_eq_true, Bool.not_eq_true'] at hfound
  exact ⟨List.mem_of_find?_eq_some h, hfound.2⟩

variable (elementToProcess) in
theorem processName_spec (pvName : String) (sweep : ChannelSweep σ) (processed : ℕ)
    (hconfined : Confined handler clock sweep) (hids : UniqueIds sweep.rows) :
    ∃ processed' sweep' log,
      processName handler clock elementToProcess pvName sweep processed = .ok (processed', sweep') ∧
        Loops handler clock elementToProcess [pvName] sweep sweep' processed processed' log := by
  induction sweep, processed using processName.induct handler clock elementToProcess pvName with
  | case1 sweep processed hnone =>
      rw [processName, hnone]
      refine ⟨processed, sweep, [], rfl, .refl, by simp, by simp, .nil, by simp, le_rfl,
        fun _ row hrow hname => ?_⟩
      have hall := List.find?_eq_none.mp hnone row hrow
      simp only [List.mem_singleton] at hname
      simpa [hname] using hall
  | case2 sweep processed row hsome hlimit =>
      rw [processName, hsome]
      simp only [if_pos hlimit]
      exact ⟨processed + 1, sweep, [], rfl, .refl, by simp, by simp, .nil, by simp; omega, by omega,
        fun hle => by omega⟩
  | case3 sweep processed row hsome hlimit failure herror =>
      obtain ⟨hmem, hwaiting⟩ := waiting_of_next hsome
      obtain ⟨sweep', entry, hok, -⟩ := handle_spec clock (hconfined _ .refl) hmem hwaiting
      rw [hok] at herror
      cases herror
  | case4 sweep processed row hsome hlimit between hbetween ih =>
      obtain ⟨hmem, hwaiting⟩ := waiting_of_next hsome
      obtain ⟨sweep', entry, hok, hhandled, hcall, hvisit⟩ :=
        handle_spec clock (hconfined _ .refl) hmem hwaiting
      obtain rfl := Except.ok.inj (hok.symm.trans hbetween)
      have hreaches : Reaches handler clock sweep sweep' := .handle hmem hwaiting hok .refl
      obtain ⟨processed', after, log, hloop, hspec⟩ :=
        ih (hconfined.of_reaches hreaches) (hvisit.uniqueIds hids)
      rw [processName, hsome]
      simp only [if_neg hlimit, hok]
      refine ⟨processed', after, entry :: log, hloop, hreaches.trans hspec.reaches, ?_, ?_,
        .cons hvisit hspec.visits, ?_, ?_, hspec.finished⟩
      · rw [hspec.handled, hhandled, List.append_assoc, List.singleton_append]
      · exact List.forall_mem_cons.mpr ⟨hcall, hspec.calls⟩
      · have hcounted := hspec.counted
        rw [List.length_cons]
        omega
      · have hle := hspec.le
        omega

variable (elementToProcess) in
theorem processNames_spec (names : List String) (sweep : ChannelSweep σ) (processed : ℕ)
    (hconfined : Confined handler clock sweep) (hids : UniqueIds sweep.rows) :
    ∃ processed' sweep' log,
      processNames handler clock elementToProcess names sweep processed =
          .ok (processed', sweep') ∧
        Loops handler clock elementToProcess names sweep sweep' processed processed' log := by
  induction names generalizing sweep processed with
  | nil =>
      exact ⟨processed, sweep, [], rfl, .refl, by simp, by simp, .nil, by simp, le_rfl, by simp⟩
  | cons pvName names ih =>
      obtain ⟨between, middle, log, hname, hfirst⟩ :=
        processName_spec elementToProcess pvName sweep processed hconfined hids
      obtain ⟨processed', sweep', log', hnames, hrest⟩ :=
        ih middle between (hconfined.of_reaches hfirst.reaches) (hfirst.visits.uniqueIds hids)
      rw [processNames, hname]
      refine ⟨processed', sweep', log ++ log', hnames, hfirst.reaches.trans hrest.reaches, ?_, ?_,
        hfirst.visits.append hrest.visits, ?_, hfirst.le.trans hrest.le,
        fun hle row hrow hmem => ?_⟩
      · rw [hrest.handled, hfirst.handled, List.append_assoc]
      · exact List.forall_mem_append.mpr ⟨hfirst.calls, hrest.calls⟩
      · rw [List.length_append, ← Nat.add_assoc, hfirst.counted, hrest.counted]
      · rcases List.mem_cons.mp hmem with heq | hmem
        · exact hrest.visits.processed (P := fun row => row.pvName = pvName)
            (fun old hold hold' => hfirst.finished (hrest.le.trans hle) old hold (by simp [hold']))
            row hrow heq
        · exact hrest.finished hle row hrow hmem

/-! ## Calls -/

/-- The handler has been called once for each row of the log, which are different unprocessed ones.
They are left as it asks for, or gone where it has removed them, and every other row stays. -/
structure VisitedOnce (handler : ChannelMonitorTypeHandler σ) (sweep sweep' : ChannelSweep σ)
    (log : List HandledRow) : Prop where
  handled : sweep'.handled = sweep.handled ++ log
  calls : ∀ entry ∈ log, entry.IsCall handler
  visited : (log.map HandledRow.row ++ unprocessed sweep'.rows).Perm (unprocessed sweep.rows)
  different : (log.map fun entry => entry.row.id).Nodup
  removed : ∀ entry ∈ log, (entry.left = none → entry.purgeTsSetFlag = 0) ∧
    (entry.left.isSome = true ↔ ∃ row ∈ sweep'.rows, row.id = entry.row.id)
  leaves : ∀ entry ∈ log, ∀ row ∈ sweep'.rows, row.id = entry.row.id → entry.Leaves row
  others : ∀ row, (∀ entry ∈ log, row.id ≠ entry.row.id) → (row ∈ sweep'.rows ↔ row ∈ sweep.rows)

theorem visitedOnce_of_visits {log : List HandledRow}
    (hhandled : sweep'.handled = sweep.handled ++ log)
    (hcalls : ∀ entry ∈ log, entry.IsCall handler)
    (hvisits : Visits sweep.rows log sweep'.rows) (hids : UniqueIds sweep.rows) :
    VisitedOnce handler sweep sweep' log where
  handled := hhandled
  calls := hcalls
  visited := hvisits.perm hids
  different := hvisits.ids_nodup hids
  removed entry hmem := ⟨(hvisits.leaves hids entry hmem).1, (hvisits.leaves hids entry hmem).2.1⟩
  leaves entry hmem := (hvisits.leaves hids entry hmem).2.2
  others _ hne := hvisits.mem_iff hne

/-- What a call does that may visit so many rows. -/
structure Called (handler : ChannelMonitorTypeHandler σ) (elementToProcess : ℕ)
    (sweep sweep' : ChannelSweep σ) (returned : ℕ) (log : List HandledRow) : Prop
    extends VisitedOnce handler sweep sweep' log where
  count : log.length = min elementToProcess (unprocessed sweep.rows).length
  returned : returned = 0 ↔ unprocessed sweep.rows = []

/-- A call returns, and visits as many rows as it may. -/
theorem iterate_spec (hconfined : Confined handler clock sweep) (hids : UniqueIds sweep.rows)
    (hpos : 1 ≤ elementToProcess) {names : List String}
    (hnames : names.Perm sweep.node.channelRepository.getDistinctByNameProtocol) :
    ∃ returned sweep' log,
      iterateAllChannelMonitorForAction handler clock elementToProcess names sweep =
          .ok (returned, sweep') ∧
        Reaches handler clock sweep sweep' ∧ Visits sweep.rows log sweep'.rows ∧
        Called handler elementToProcess sweep sweep' returned log := by
  obtain ⟨returned, sweep', log, hloop, hspec⟩ :=
    processNames_spec elementToProcess names sweep 0 hconfined hids
  have hperm := hspec.visits.perm hids
  have hlength := hperm.length_eq
  rw [List.length_append, List.length_map] at hlength
  have hcounted := hspec.counted
  rw [Nat.zero_min, Nat.zero_add] at hcounted
  have hnone : returned ≤ elementToProcess → unprocessed sweep'.rows = [] := by
    intro hle
    refine List.filter_eq_nil_iff.mpr fun row hrow hwaiting => ?_
    have hwaiting' : row.processed = false := by simpa using hwaiting
    have hold : row ∈ unprocessed sweep.rows :=
      hperm.subset (List.mem_append_right _ (List.mem_filter.mpr ⟨hrow, hwaiting⟩))
    have hname : row.pvName ∈ names := by
      rw [hnames.mem_iff, ChannelRepository.getDistinctByNameProtocol, List.mem_eraseDups]
      exact List.mem_map_of_mem (List.mem_filter.mp hold).1
    rw [hspec.finished hle row hrow hname] at hwaiting'
    cases hwaiting'
  refine ⟨returned, sweep', log, hloop, hspec.reaches, hspec.visits,
    { visitedOnce_of_visits hspec.handled hspec.calls hspec.visits hids with
      count := ?_, returned := ?_ }⟩
  · rcases Nat.lt_or_ge elementToProcess returned with hlt | hle
    · omega
    · rw [hnone hle, List.length_nil] at hlength
      omega
  · rw [← List.length_eq_zero_iff]
    rcases Nat.lt_or_ge elementToProcess returned with hlt | hle
    · omega
    · rw [hnone hle, List.length_nil] at hlength
      omega

/-! ## Sweeps -/

/-- A call, for some limit and some order of the names. -/
def Call (handler : ChannelMonitorTypeHandler σ) (clock : ℕ → Int)
    (sweep sweep' : ChannelSweep σ) (returned : ℕ) : Prop :=
  ∃ elementToProcess names, 1 ≤ elementToProcess ∧
    names.Perm sweep.node.channelRepository.getDistinctByNameProtocol ∧
    iterateAllChannelMonitorForAction handler clock elementToProcess names sweep =
      .ok (returned, sweep')

/-- Calls that do not return 0, by their number. -/
inductive Calls (handler : ChannelMonitorTypeHandler σ) (clock : ℕ → Int) :
    ChannelSweep σ → ℕ → ChannelSweep σ → Prop where
  | nil {first : ChannelSweep σ} : Calls handler clock first 0 first
  | cons {first between last : ChannelSweep σ} {returned calls : ℕ}
      (call : Call handler clock first between returned) (goesOn : returned ≠ 0)
      (rest : Calls handler clock between calls last) : Calls handler clock first (calls + 1) last

/-- Calls up to the first that returns 0. -/
def Swept (handler : ChannelMonitorTypeHandler σ) (clock : ℕ → Int)
    (sweep sweep' : ChannelSweep σ) : Prop :=
  ∃ calls between, Calls handler clock sweep calls between ∧ Call handler clock between sweep' 0

/-- What calls have done, with the rows of the log. -/
structure Done (handler : ChannelMonitorTypeHandler σ) (clock : ℕ → Int)
    (sweep sweep' : ChannelSweep σ) (log : List HandledRow) : Prop where
  reaches : Reaches handler clock sweep sweep'
  handled : sweep'.handled = sweep.handled ++ log
  calls : ∀ entry ∈ log, entry.IsCall handler
  visits : Visits sweep.rows log sweep'.rows

theorem Done.append {log log' : List HandledRow} (h : Done handler clock sweep sweep' log)
    (h' : Done handler clock sweep' sweep'' log') :
    Done handler clock sweep sweep'' (log ++ log') where
  reaches := h.reaches.trans h'.reaches
  handled := by rw [h'.handled, h.handled, List.append_assoc]
  calls := List.forall_mem_append.mpr ⟨h.calls, h'.calls⟩
  visits := h.visits.append h'.visits

theorem Call.spec (hconfined : Confined handler clock sweep) (hids : UniqueIds sweep.rows)
    {returned : ℕ} (h : Call handler clock sweep sweep' returned) :
    ∃ log, Done handler clock sweep sweep' log ∧
      (returned = 0 ↔ unprocessed sweep.rows = []) ∧ (returned ≠ 0 → log ≠ []) := by
  obtain ⟨elementToProcess, names, hpos, hnames, hcall⟩ := h
  obtain ⟨returned', after, log, hcall', hreaches, hvisits, hcalled⟩ :=
    iterate_spec hconfined hids hpos hnames
  obtain ⟨rfl, rfl⟩ := Prod.mk.inj (Except.ok.inj (hcall.symm.trans hcall'))
  refine ⟨log, ⟨hreaches, hcalled.handled, hcalled.calls, hvisits⟩, hcalled.returned,
    fun hne hnil => hne ?_⟩
  have hcount := hcalled.count
  rw [hnil, List.length_nil] at hcount
  rw [hcalled.returned, ← List.length_eq_zero_iff]
  omega

theorem Calls.spec (hconfined : Confined handler clock sweep) (hids : UniqueIds sweep.rows)
    {calls : ℕ} (h : Calls handler clock sweep calls sweep') :
    ∃ log, Done handler clock sweep sweep' log ∧ calls ≤ log.length := by
  induction h with
  | nil => exact ⟨[], ⟨.refl, by simp, by simp, .nil⟩, le_rfl⟩
  | cons call goesOn rest ih =>
      obtain ⟨log, hdone, -, hne⟩ := call.spec hconfined hids
      obtain ⟨log', hdone', hle⟩ :=
        ih (hconfined.of_reaches hdone.reaches) (hdone.visits.uniqueIds hids)
      refine ⟨log ++ log', hdone.append hdone', ?_⟩
      have := List.length_pos_iff.mpr (hne goesOn)
      rw [List.length_append]
      omega

theorem Swept.spec (hconfined : Confined handler clock sweep) (hids : UniqueIds sweep.rows)
    (h : Swept handler clock sweep sweep') :
    ∃ log, Done handler clock sweep sweep' log ∧
      (log.map HandledRow.row).Perm (unprocessed sweep.rows) := by
  obtain ⟨calls, between, hcalls, hlast⟩ := h
  obtain ⟨log, hdone, -⟩ := hcalls.spec hconfined hids
  have hids' := hdone.visits.uniqueIds hids
  obtain ⟨log', hdone', hreturned, -⟩ := hlast.spec (hconfined.of_reaches hdone.reaches) hids'
  have hall := hdone.append hdone'
  refine ⟨log ++ log', hall, ?_⟩
  have hperm := hdone'.visits.perm hids'
  rw [hreturned.mp rfl] at hperm
  have hnil := (List.append_eq_nil_iff.mp hperm.eq_nil).2
  simpa [hnil] using hall.visits.perm hids

/-- The calls come to one that returns 0. -/
theorem exists_swept (hconfined : Confined handler clock sweep) (hids : UniqueIds sweep.rows) :
    ∃ sweep', Swept handler clock sweep sweep' := by
  generalize hlength : (unprocessed sweep.rows).length = waiting
  induction waiting using Nat.strong_induction_on generalizing sweep with
  | _ waiting ih =>
      obtain ⟨returned, between, log, hcall, hreaches, hvisits, hcalled⟩ :=
        iterate_spec hconfined hids le_rfl (.refl _)
      have hcall : Call handler clock sweep between returned := ⟨1, _, le_rfl, .refl _, hcall⟩
      by_cases hreturned : returned = 0
      · subst hreturned
        exact ⟨between, 0, sweep, .nil, hcall⟩
      · have hsome : 0 < (unprocessed sweep.rows).length :=
          List.length_pos_iff.mpr fun hnil => hreturned (hcalled.returned.mpr hnil)
        have hperm := hcalled.visited.length_eq
        rw [List.length_append, List.length_map, hcalled.count] at hperm
        obtain ⟨sweep', calls, last, hcalls, hlast⟩ :=
          ih _ (by omega) (hconfined.of_reaches hreaches) (hvisits.uniqueIds hids) rfl
        exact ⟨sweep', calls + 1, last, .cons hcall hreturned hcalls, hlast⟩

/-! ## Resets -/

theorem rows_reset (names : List String) (repository : ChannelRepository) :
    (names.foldl ChannelRepository.resetProcessStateChannel repository).rows =
      repository.rows.map fun row =>
        if row.pvName ∈ names then { row with processed := false } else row := by
  induction names generalizing repository with
  | nil => simp
  | cons pvName names ih =>
      rw [List.foldl_cons, ih, ChannelRepository.resetProcessStateChannel, List.map_map]
      refine List.map_congr_left fun row _ => ?_
      by_cases hname : row.pvName = pvName <;> by_cases hnames : row.pvName ∈ names <;>
        simp [hname, hnames]

theorem rows_resetAll (sweep : ChannelSweep σ) :
    sweep.resetAllChannelMonitorCheck.rows =
      sweep.rows.map fun row => { row with processed := false } := by
  rw [rows, resetAllChannelMonitorCheck, NodeConfiguration.resetAllChannelMonitorCheck, rows_reset]
  refine List.map_congr_left fun row hrow => if_pos ?_
  rw [ChannelRepository.getDistinctByNameProtocol, List.mem_eraseDups]
  exact List.mem_map_of_mem hrow

/-- After a reset every row is waiting. -/
theorem unprocessed_resetAll (sweep : ChannelSweep σ) :
    unprocessed sweep.resetAllChannelMonitorCheck.rows = sweep.resetAllChannelMonitorCheck.rows ∧
      sweep.resetAllChannelMonitorCheck.rows.map ChannelMonitorType.id =
        sweep.rows.map ChannelMonitorType.id := by
  rw [rows_resetAll]
  refine ⟨List.filter_eq_self.mpr fun row hrow => ?_, by simp⟩
  obtain ⟨old, -, rfl⟩ := List.mem_map.mp hrow
  rfl

/-- A call returns after the visits that it may make, a sweep ends after at most one call for each
unprocessed row and visits each of them once, and so does the sweep after a reset, for all rows. -/
theorem sweeps_once (hconfined : Confined handler clock sweep) (hids : UniqueIds sweep.rows) :
    (∀ elementToProcess names, 1 ≤ elementToProcess →
      names.Perm sweep.node.channelRepository.getDistinctByNameProtocol →
        ∃ returned sweep' log,
          iterateAllChannelMonitorForAction handler clock elementToProcess names sweep =
              .ok (returned, sweep') ∧
            Called handler elementToProcess sweep sweep' returned log) ∧
      (∀ calls sweep', Calls handler clock sweep calls sweep' →
        calls ≤ (unprocessed sweep.rows).length) ∧
      (∃ sweep', Swept handler clock sweep sweep') ∧
      ∀ sweep', Swept handler clock sweep sweep' →
        (∃ log, VisitedOnce handler sweep sweep' log ∧
          (log.map HandledRow.row).Perm (unprocessed sweep.rows)) ∧
        ∀ sweep'', Swept handler clock sweep'.resetAllChannelMonitorCheck sweep'' →
          ∃ log, VisitedOnce handler sweep'.resetAllChannelMonitorCheck sweep'' log ∧
            (log.map fun entry => entry.row.id).Perm
              (sweep'.rows.map ChannelMonitorType.id) := by
  refine ⟨fun elementToProcess names hpos hnames => ?_, fun calls sweep' hcalls => ?_,
    exists_swept hconfined hids, fun sweep' hswept => ?_⟩
  · obtain ⟨returned, sweep', log, hcall, -, -, hcalled⟩ :=
      iterate_spec hconfined hids hpos hnames
    exact ⟨returned, sweep', log, hcall, hcalled⟩
  · obtain ⟨log, hdone, hle⟩ := hcalls.spec hconfined hids
    have hlength := (hdone.visits.perm hids).length_eq
    rw [List.length_append, List.length_map] at hlength
    omega
  · obtain ⟨log, hdone, hperm⟩ := hswept.spec hconfined hids
    refine ⟨⟨log, visitedOnce_of_visits hdone.handled hdone.calls hdone.visits hids, hperm⟩,
      fun sweep'' hagain => ?_⟩
    obtain ⟨hall, hsame⟩ := sweep'.unprocessed_resetAll
    have hids' : UniqueIds sweep'.resetAllChannelMonitorCheck.rows := by
      rw [UniqueIds, hsame]
      exact hdone.visits.uniqueIds hids
    have hreset : Reaches handler clock sweep sweep'.resetAllChannelMonitorCheck :=
      hdone.reaches.trans (.reset .refl)
    obtain ⟨log', hdone', hperm'⟩ := hagain.spec (hconfined.of_reaches hreset) hids'
    refine ⟨log', visitedOnce_of_visits hdone'.handled hdone'.calls hdone'.visits hids', ?_⟩
    rw [hall] at hperm'
    have hmap := hperm'.map ChannelMonitorType.id
    rwa [List.map_map, hsame] at hmap

/-! ## The handler of the purge -/

/-- Handled rows keep their keys. -/
theorem keyed_handle {row : ChannelMonitorType}
    (hkeyed : (handler row sweep.node sweep.state).node.channelRepository.Keyed)
    (hcall : sweep.handle handler clock row = .ok sweep') :
    sweep'.node.channelRepository.Keyed := by
  rw [handle] at hcall
  simp only [NodeConfiguration.updatePurgeTimeStamp, NodeConfiguration.updateExisting] at hcall
  split at hcall
  · cases hcall
  · rename_i node hnode
    obtain rfl := Except.ok.inj hcall
    apply ChannelRepository.Keyed.updateRow _ _ (ChannelRepository.keepsKey_processed true)
    split_ifs at hnode with hreset hthere hset hthere
    · obtain rfl := Except.ok.inj hnode
      exact hkeyed.updateRow _ (ChannelRepository.keepsKey_startPurgeTs (-1))
    · obtain rfl := Except.ok.inj hnode
      exact hkeyed.updateRow _ (ChannelRepository.keepsKey_startPurgeTs _)
    · obtain rfl := Except.ok.inj hnode
      exact hkeyed

/-- A handler whose calls keep the keys and are confined where the rows have keys. -/
theorem confined_of_keyed
    (hcall : ∀ sweep : ChannelSweep σ, sweep.node.channelRepository.Keyed →
      sweep.ConfinedAt handler ∧ ∀ row ∈ sweep.rows,
        (handler row sweep.node sweep.state).node.channelRepository.Keyed)
    (hkeyed : sweep.node.channelRepository.Keyed) : Confined handler clock sweep := by
  intro sweep' h
  have hkeyed' : sweep'.node.channelRepository.Keyed :=
    h.invariant (P := fun sweep => sweep.node.channelRepository.Keyed)
      (fun h found _ call => keyed_handle ((hcall _ h).2 _ found) call)
      (fun h => h.resetProcessStateChannels _) hkeyed
  exact (hcall sweep' hkeyed').1

/-- A handler that is confined where the rows have ids of their own. -/
theorem confined_of_ids
    (hcall : ∀ sweep : ChannelSweep σ, UniqueIds sweep.rows → sweep.ConfinedAt handler)
    (hids : UniqueIds sweep.rows) : Confined handler clock sweep := by
  intro sweep' h
  refine hcall sweep' (h.invariant (P := fun sweep => UniqueIds sweep.rows) ?_ ?_ hids)
  · intro sweep between row hids found waiting call
    obtain ⟨after, entry, hok, -, -, hvisit⟩ :=
      handle_spec clock (hcall sweep hids) found waiting
    obtain rfl := Except.ok.inj (hok.symm.trans call)
    exact hvisit.uniqueIds hids
  · intro sweep hids
    rw [UniqueIds, sweep.unprocessed_resetAll.2]
    exact hids

/-- A handler that changes no row. -/
theorem replace_self {rows : List ChannelMonitorType} (hids : UniqueIds rows)
    {row : ChannelMonitorType} (hrow : row ∈ rows) :
    rows.filterMap (replaceRow row.id (some row)) = rows := by
  rw [List.filterMap_congr (g := some), List.filterMap_some]
  intro other hother
  rw [replaceRow]
  split
  · rw [hids.eq_of_id hother hrow ‹_›]
  · rfl

theorem scanDelete_node (checker : MonitorChecker) (row : ChannelMonitorType) (throws : Bool) :
    (checker.scanDelete 0 [] 0 row throws).node = checker.node ∨
      (checker.scanDelete 0 [] 0 row throws).node = checker.node.removeChannelMonitor [row] := by
  by_cases hpurge : checker.configuration.purgeQueueOnMonitorTimeout = true
  · cases throws with
    | true => exact .inl (by simp [MonitorChecker.scanDelete, MonitorChecker.setScan, hpurge])
    | false =>
        exact .inr (by
          simp [MonitorChecker.scanDelete, MonitorChecker.setScan, MonitorChecker.record, hpurge])
  · exact .inr (by simp [MonitorChecker.scanDelete, MonitorChecker.setScan, hpurge])

/-- The purge leaves the rows alone, or removes those of the row's channel, with the flag 0. -/
theorem purgeHandler_node (metadata : ℕ → Option (List SubscriberGroup)) (now : ℕ → Int)
    (throws : ℕ → Bool) (row : ChannelMonitorType) (node : NodeConfiguration)
    (state : ℕ × MonitorChecker) :
    (MonitorChecker.purgeHandler metadata now throws row node state).node = node ∨
      (MonitorChecker.purgeHandler metadata now throws row node state).node =
          node.removeChannelMonitor [row] ∧
        (MonitorChecker.purgeHandler metadata now throws row node state).purgeTsSetFlag = 0 := by
  rw [MonitorChecker.purgeHandler]
  cases metadata state.1 with
  | none => exact .inl rfl
  | some groups =>
      simp only [MonitorChecker.scanHandle]
      split_ifs with hsubscribed hfresh hexpired
      · exact .inl rfl
      · exact .inl rfl
      · exact (scanDelete_node ((({ state.2 with node } : MonitorChecker).setScan
          (.stopping 0 [] 0 row)).record [.stopBroadcast row (now state.1)]) row
          (throws state.1)).imp_right fun h => ⟨h, rfl⟩
      · exact .inl rfl

/-- The handler of `scanForMonitorToStop` is confined: its row is the only one of its channel. -/
theorem confined_purgeHandler (metadata : ℕ → Option (List SubscriberGroup)) (now : ℕ → Int)
    (throws : ℕ → Bool) (clock : ℕ → Int) {sweep : ChannelSweep (ℕ × MonitorChecker)}
    (hkeyed : sweep.node.channelRepository.Keyed) :
    Confined (MonitorChecker.purgeHandler metadata now throws) clock sweep := by
  refine confined_of_keyed (fun sweep hkeyed => ⟨fun row hrow _ => ?_, fun row hrow => ?_⟩) hkeyed
  · have hids : UniqueIds sweep.rows := List.pairwise_map.mpr hkeyed.ids
    rcases purgeHandler_node metadata now throws row sweep.node sweep.state with hsame | hremoved
    · refine ⟨some row, ?_, by simp, by simp⟩
      rw [hsame, replace_self hids hrow]
      rfl
    · obtain ⟨hnode, hflag⟩ := hremoved
      refine ⟨none, ?_, by simp, fun _ => hflag⟩
      rw [hnode]
      change (sweep.rows.filter fun other => !other.sameChannel row) = _
      rw [← List.filterMap_eq_filter]
      refine List.filterMap_congr fun other hother => ?_
      rw [replaceRow, Option.guard]
      by_cases hid : other.id = row.id
      · rw [hids.eq_of_id hother hrow hid]
        simp [ChannelMonitorType.sameChannel]
      · have hother' : other.sameChannel row = false := by
          by_contra hsame
          have hchannel := of_decide_eq_true (Bool.not_eq_false _ ▸ hsame)
          exact hid (congrArg _ (hkeyed.eq_of_channel hother hrow hchannel.1 hchannel.2))
        simp [hid, hother']
  · rcases purgeHandler_node metadata now throws row sweep.node sweep.state with hsame | hremoved
    · rw [hsame]
      exact hkeyed
    · rw [hremoved.1]
      exact hkeyed.remove row

/-- Three rows, of which one is processed, one is to be purged and one is to be removed. -/
private def table : ChannelSweep (ℕ × MonitorChecker) where
  node := ⟨{ rows := [⟨1, "x", 0, "a", false, 1, -1⟩, ⟨2, "y", 0, "a", false, 1, 50⟩,
    ⟨3, "x", 0, "b", true, 1, -1⟩], nextId := 4 }, .empty, []⟩
  state := (0, .initial ⟨10, false, fun _ => false⟩ 0)

/-- Both unprocessed rows are visited by one call, or by two that may visit one each: nobody reads
the topics, and the purge of the second row began at 50. -/
theorem sweeps_once_table :
    (∃ returned sweep log,
      iterateAllChannelMonitorForAction (MonitorChecker.purgeHandler (fun _ => some [])
          (fun _ => 100) fun _ => false) (fun _ => 100) 2 ["y", "x"] table =
        .ok (returned, sweep) ∧ log.length = 2 ∧
      VisitedOnce (MonitorChecker.purgeHandler (fun _ => some []) (fun _ => 100) fun _ => false)
        table sweep log) ∧
      ∃ sweep log,
        Swept (MonitorChecker.purgeHandler (fun _ => some []) (fun _ => 100) fun _ => false)
          (fun _ => 100) table sweep ∧
        VisitedOnce (MonitorChecker.purgeHandler (fun _ => some []) (fun _ => 100) fun _ => false)
          table sweep log ∧
        (log.map HandledRow.row).Perm (unprocessed table.rows) := by
  have hkeyed : table.node.channelRepository.Keyed := by
    refine ⟨?_, by decide, by decide⟩
    unfold ChannelRepository.Unique
    decide
  obtain ⟨hcall, -, ⟨swept, hswept⟩, hsweeps⟩ :=
    sweeps_once (confined_purgeHandler (fun _ => some []) (fun _ => 100) (fun _ => false)
      (fun _ => 100) hkeyed) (List.pairwise_map.mpr hkeyed.ids)
  obtain ⟨returned, sweep, log, hok, hcalled⟩ := hcall 2 ["y", "x"] (by decide) (by decide)
  obtain ⟨log', hvisited, hperm⟩ := (hsweeps swept hswept).1
  exact ⟨⟨returned, sweep, log, hok, hcalled.count, hcalled.toVisitedOnce⟩, swept, log', hswept,
    hvisited, hperm⟩

end ChannelSweep

end K2eg
