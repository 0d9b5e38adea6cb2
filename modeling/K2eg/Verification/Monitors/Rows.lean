import K2eg.Verification.Configuration.Channels
import Mathlib.Data.List.Pairwise

/-! # The rows of the repository

Every row has an id of its own and is the only one of its channel. What the calls do to the rows is
said here once, for one row at a time. -/

namespace K2eg

namespace ChannelRepository

variable {repository : ChannelRepository} {description row : ChannelMonitorType}

/-- Ids and channels tell the rows apart. -/
structure Keyed (repository : ChannelRepository) : Prop where
  unique : repository.Unique
  ids : repository.rows.Pairwise fun a b => a.id ≠ b.id
  fresh : ∀ row ∈ repository.rows, row.id < repository.nextId

theorem keyed_empty : Keyed {} := ⟨.nil, .nil, by simp⟩

/-- Two rows of one channel are one row. -/
theorem Keyed.eq_of_channel (h : repository.Keyed) {a b : ChannelMonitorType}
    (ha : a ∈ repository.rows) (hb : b ∈ repository.rows) (hpv : a.pvName = b.pvName)
    (hdest : a.channelDestination = b.channelDestination) : a = b := by
  by_contra hne
  have : Std.Symm fun a b : ChannelMonitorType => a.sameChannel b = false := ⟨fun a b hab => by
    simp only [ChannelMonitorType.sameChannel, decide_eq_false_iff_not, not_and] at hab ⊢
    exact fun h1 h2 => hab h1.symm h2.symm⟩
  have := h.unique.forall ha hb hne
  simp [ChannelMonitorType.sameChannel, hpv, hdest] at this

theorem Keyed.eq_of_id (h : repository.Keyed) {a b : ChannelMonitorType}
    (ha : a ∈ repository.rows) (hb : b ∈ repository.rows) (hid : a.id = b.id) : a = b := by
  by_contra hne
  have : Std.Symm fun a b : ChannelMonitorType => a.id ≠ b.id := ⟨fun _ _ => Ne.symm⟩
  exact h.ids.forall ha hb hne hid

/-! ## Updates -/

/-- An update that leaves the key of a row alone. -/
def KeepsKey (update : ChannelMonitorType → ChannelMonitorType) : Prop :=
  ∀ row, (update row).id = row.id ∧ (update row).pvName = row.pvName ∧
    (update row).channelDestination = row.channelDestination

theorem keepsKey_processed (processed : Bool) : KeepsKey fun row => { row with processed } :=
  fun _ => ⟨rfl, rfl, rfl⟩

theorem keepsKey_startPurgeTs (startPurgeTs : Int) :
    KeepsKey fun row => { row with startPurgeTs } :=
  fun _ => ⟨rfl, rfl, rfl⟩

theorem Keyed.map (h : repository.Keyed) {update : ChannelMonitorType → ChannelMonitorType}
    (hkeeps : KeepsKey update) :
    Keyed { repository with rows := repository.rows.map update } := by
  refine ⟨List.pairwise_map.mpr (h.unique.imp ?_), List.pairwise_map.mpr (h.ids.imp ?_), ?_⟩
  · intro a b hab
    simpa [ChannelMonitorType.sameChannel, hkeeps a, hkeeps b] using hab
  · intro a b hab
    rwa [(hkeeps a).1, (hkeeps b).1]
  · intro row hrow
    obtain ⟨old, hold, rfl⟩ := List.mem_map.mp hrow
    rw [(hkeeps old).1]
    exact h.fresh old hold

theorem KeepsKey.ite {update : ChannelMonitorType → ChannelMonitorType} (h : KeepsKey update)
    (p : ChannelMonitorType → Prop) [DecidablePred p] :
    KeepsKey fun row => if p row then update row else row := by
  intro row
  dsimp only
  split
  · exact h row
  · exact ⟨rfl, rfl, rfl⟩

theorem Keyed.updateRow (h : repository.Keyed) (id : Int)
    {update : ChannelMonitorType → ChannelMonitorType} (hkeeps : KeepsKey update) :
    (repository.updateRow id update).Keyed :=
  h.map (hkeeps.ite fun row => row.id = id)

theorem mem_updateRow {id : Int} {update : ChannelMonitorType → ChannelMonitorType} :
    row ∈ (repository.updateRow id update).rows ↔
      ∃ old ∈ repository.rows, (if old.id = id then update old else old) = row :=
  List.mem_map

theorem Keyed.resetProcessStateChannel (h : repository.Keyed) (pvName : String) :
    (repository.resetProcessStateChannel pvName).Keyed :=
  h.map ((keepsKey_processed false).ite fun row => row.pvName = pvName)

theorem Keyed.resetProcessStateChannels (h : repository.Keyed) (pvNames : List String) :
    (pvNames.foldl ChannelRepository.resetProcessStateChannel repository).Keyed := by
  induction pvNames generalizing repository with
  | nil => exact h
  | cons pvName rest ih => exact ih (h.resetProcessStateChannel pvName)

theorem Keyed.remove (h : repository.Keyed) (description : ChannelMonitorType) :
    (repository.remove description).Keyed :=
  ⟨unique_remove h.unique description, h.ids.filter _,
    fun row hrow => h.fresh row (List.mem_filter.mp hrow).1⟩

theorem mem_remove : row ∈ (repository.remove description).rows ↔
    row ∈ repository.rows ∧ row.sameChannel description = false := by
  simp [remove]

/-! ## Rows that are only tagged -/

/-- The repository has the row, except perhaps for its other columns. -/
def Had (repository : ChannelRepository) (row : ChannelMonitorType) : Prop :=
  ∃ old ∈ repository.rows, old.id = row.id ∧ old.pvName = row.pvName ∧
    old.channelDestination = row.channelDestination ∧ old.startPurgeTs = row.startPurgeTs

theorem had_of_mem (hrow : row ∈ repository.rows) : repository.Had row :=
  ⟨row, hrow, rfl, rfl, rfl, rfl⟩

/-- Updates of the process state keep every row. -/
theorem had_of_mem_resets (pvNames : List String)
    (hrow : row ∈ (pvNames.foldl ChannelRepository.resetProcessStateChannel repository).rows) :
    repository.Had row := by
  induction pvNames generalizing repository with
  | nil => exact had_of_mem hrow
  | cons pvName rest ih =>
      obtain ⟨middle, hmiddle, hid, hpv, hdest, hts⟩ := ih hrow
      obtain ⟨old, hold, rfl⟩ := List.mem_map.mp hmiddle
      refine ⟨old, hold, ?_⟩
      split at hid <;> simp_all

/-! ## Insertion -/

/-- A row after `insert`: a row of another channel as it was, or one of the channel with its purge
timestamp reset. -/
theorem Keyed.mem_insert (h : repository.Keyed)
    (hrow : row ∈ (repository.insert description).2.rows) :
    (row ∈ repository.rows ∧ row.sameChannel description = false) ∨
      (row.sameChannel description = true ∧ row.startPurgeTs = -1) := by
  rw [insert] at hrow
  cases hfind : repository.rows.find? fun row => row.sameChannel description with
  | none =>
      rw [hfind] at hrow
      rcases List.mem_append.mp hrow with hrow | hrow
      · exact .inl ⟨hrow, by simpa using List.find?_eq_none.mp hfind row hrow⟩
      · obtain rfl := List.mem_singleton.mp hrow
        exact .inr ⟨by simp [ChannelMonitorType.sameChannel], rfl⟩
  | some present =>
      rw [hfind] at hrow
      have hpresent : present.sameChannel description = true :=
        List.find?_some (p := fun row : ChannelMonitorType => row.sameChannel description) hfind
      obtain ⟨old, hold, rfl⟩ := List.mem_map.mp hrow
      by_cases hid : old.id = present.id
      · have heq := h.eq_of_id hold (List.mem_of_find?_eq_some hfind) hid
        rw [if_pos hid, heq]
        exact .inr ⟨hpresent, rfl⟩
      · rw [if_neg hid]
        refine .inl ⟨hold, ?_⟩
        by_contra hsame
        simp only [ChannelMonitorType.sameChannel, decide_eq_true_eq,
          Bool.not_eq_false] at hsame hpresent
        have heq := h.eq_of_channel hold (List.mem_of_find?_eq_some hfind)
          (hsame.1.trans hpresent.1.symm) (hsame.2.trans hpresent.2.symm)
        exact hid (congrArg _ heq)

theorem Keyed.insert (h : repository.Keyed) (description : ChannelMonitorType) :
    (repository.insert description).2.Keyed := by
  have hunique := unique_insert h.unique description
  revert hunique
  rw [ChannelRepository.insert]
  cases hfind : repository.rows.find? fun row => row.sameChannel description with
  | none =>
      intro hunique
      refine ⟨hunique, List.pairwise_append.mpr ⟨h.ids, by simp, ?_⟩, ?_⟩
      · intro row hrow new hnew
        obtain rfl := List.mem_singleton.mp hnew
        exact Int.ne_of_lt (h.fresh row hrow)
      · intro row hrow
        rcases List.mem_append.mp hrow with hrow | hrow
        · exact (h.fresh row hrow).trans (Int.lt_succ _)
        · obtain rfl := List.mem_singleton.mp hrow
          exact Int.lt_succ _
  | some present =>
      intro _
      exact h.map ((keepsKey_startPurgeTs (-1)).ite fun row => row.id = present.id)

/-- Every channel that had a row has one after `insert`, and so has the one of the description. -/
theorem exists_insert (repository : ChannelRepository) (description : ChannelMonitorType) :
    (∀ row ∈ repository.rows, ∃ kept ∈ (repository.insert description).2.rows,
      kept.id = row.id ∧ kept.pvName = row.pvName ∧
        kept.channelDestination = row.channelDestination) ∧
    ∃ row ∈ (repository.insert description).2.rows, row.sameChannel description = true := by
  rw [insert]
  cases hfind : repository.rows.find? fun row => row.sameChannel description with
  | none =>
      exact ⟨fun row hrow => ⟨row, List.mem_append_left _ hrow, rfl, rfl, rfl⟩,
        _, List.mem_append_right _ (List.mem_singleton_self _),
        by simp [ChannelMonitorType.sameChannel]⟩
  | some present =>
      have hkeeps : KeepsKey fun row =>
          if row.id = present.id then { row with startPurgeTs := -1 } else row :=
        (keepsKey_startPurgeTs (-1)).ite fun row => row.id = present.id
      refine ⟨fun row hrow => ⟨_, List.mem_map_of_mem hrow, hkeeps row⟩,
        _, List.mem_map_of_mem (List.mem_of_find?_eq_some hfind), ?_⟩
      simpa [ChannelMonitorType.sameChannel, hkeeps present] using List.find?_some hfind

end ChannelRepository

end K2eg
