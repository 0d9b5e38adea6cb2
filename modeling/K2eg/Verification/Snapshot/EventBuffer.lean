import K2eg.Foundation.Ring
import K2eg.Model.TimeWindowEventBuffer
import Mathlib.Data.List.GetD

/-! # The time window event buffer is a queue

The entries of the ring, read in order, are a list. `push` drops its old front and appends to it,
`fetchWindow` reads it and `reset` empties it; growing the ring leaves it as it is. -/

namespace K2eg.TimeWindowEventBuffer

universe u

variable {E Out : Type u} [Inhabited E] {b : TimeWindowEventBuffer E} {value : E}
  {now windowMs : Int}

/-- The entries, oldest first. -/
def entries (b : TimeWindowEventBuffer E) : List (Entry E) :=
  Ring.contents b.buffer b.head b.count

/-- The representation invariant of the ring. -/
structure WellFormed (b : TimeWindowEventBuffer E) : Prop where
  maxSize_pos : 0 < b.maxSize
  grows : 2 ≤ b.growFactor
  count_le : b.count ≤ b.buffer.length
  head_lt : b.head < b.buffer.length
  tail_eq : b.tail = Ring.position b.buffer.length b.head b.count

omit [Inhabited E] in
theorem WellFormed.size_pos (h : b.WellFormed) : 0 < b.buffer.length := Nat.zero_lt_of_lt h.head_lt

theorem wellFormed_make {window : Int} {reserve growFactor : ℕ} (hreserve : 1 ≤ reserve)
    (hgrow : 2 ≤ growFactor) :
    (make window reserve growFactor : TimeWindowEventBuffer E).WellFormed where
  maxSize_pos := hreserve
  grows := hgrow
  count_le := Nat.zero_le _
  head_lt := by simpa [make] using Nat.lt_of_lt_of_le Nat.zero_lt_one hreserve
  tail_eq := by simp [make, Ring.position]

@[simp] theorem entries_make (window : Int) (reserve growFactor : ℕ) :
    (make window reserve growFactor : TimeWindowEventBuffer E).entries = [] := rfl

/-! ## Pruning -/

/-- The loop moves the head past the old entries in front and leaves the end where it is. -/
theorem pruneFrom_spec (buffer : List (Entry E)) (windowMs now : Int) (count head : ℕ)
    (hhead : head < buffer.length) :
    (pruneFrom buffer windowMs now head count).1 < buffer.length ∧
      (pruneFrom buffer windowMs now head count).2 ≤ count ∧
      Ring.contents buffer (pruneFrom buffer windowMs now head count).1
          (pruneFrom buffer windowMs now head count).2 =
        (Ring.contents buffer head count).dropWhile (isOld windowMs now) ∧
      Ring.position buffer.length (pruneFrom buffer windowMs now head count).1
          (pruneFrom buffer windowMs now head count).2 =
        Ring.position buffer.length head count := by
  induction count generalizing head with
  | zero => exact ⟨hhead, Nat.le_refl 0, rfl, rfl⟩
  | succ count ih =>
      have hentry : Ring.entry buffer head 0 = buffer.getD head default := by
        rw [Ring.entry, Ring.position_zero hhead]
      rw [pruneFrom, Ring.contents_cons, hentry]
      by_cases hold : isOld windowMs now (buffer.getD head default) = true
      · rw [if_pos hold, List.dropWhile_cons_of_pos hold]
        have hnext : (head + 1) % buffer.length < buffer.length :=
          Nat.mod_lt _ (Nat.zero_lt_of_lt hhead)
        obtain ⟨hlt, hle, hcontents, hend⟩ := ih _ hnext
        exact ⟨hlt, Nat.le_succ_of_le hle, hcontents, hend.trans (Ring.position_next _ _)⟩
      · rw [if_neg hold, List.dropWhile_cons_of_neg hold]
        refine ⟨hhead, Nat.le_refl _, ?_, rfl⟩
        rw [Ring.contents_cons, hentry]

theorem wellFormed_prune (h : b.WellFormed) (now : Int) :
    (b.pruneOldIfNeeded now).WellFormed := by
  obtain ⟨hlt, hle, -, hend⟩ := pruneFrom_spec b.buffer b.windowMs now b.count b.head h.head_lt
  exact { maxSize_pos := h.maxSize_pos, grows := h.grows, count_le := hle.trans h.count_le,
          head_lt := hlt, tail_eq := h.tail_eq.trans hend.symm }

theorem entries_prune (h : b.WellFormed) :
    (b.pruneOldIfNeeded now).entries = b.entries.dropWhile (isOld b.windowMs now) :=
  (pruneFrom_spec b.buffer b.windowMs now b.count b.head h.head_lt).2.2.1

/-! ## Growing -/

/-- A full ring has room for one more entry after it grows. -/
theorem expandBuffer_room (h : b.WellFormed) : b.count < b.expandBuffer.buffer.length := by
  have hsize : b.expandBuffer.buffer.length = b.buffer.length * b.growFactor := by
    rw [expandBuffer, List.length_map, List.length_range, if_neg h.size_pos.ne']
  calc b.count ≤ b.buffer.length := h.count_le
    _ < b.buffer.length * 2 := by have := h.size_pos; omega
    _ ≤ b.buffer.length * b.growFactor := Nat.mul_le_mul_left _ h.grows
    _ = b.expandBuffer.buffer.length := hsize.symm

theorem wellFormed_expandBuffer (h : b.WellFormed) : b.expandBuffer.WellFormed where
  maxSize_pos := h.maxSize_pos
  grows := h.grows
  count_le := (expandBuffer_room h).le
  head_lt := Nat.zero_lt_of_lt (expandBuffer_room h)
  tail_eq := by
    have htail : b.expandBuffer.tail = b.count := rfl
    have hposition : Ring.position b.expandBuffer.buffer.length b.expandBuffer.head
        b.expandBuffer.count = (0 + b.count) % b.expandBuffer.buffer.length := rfl
    rw [htail, hposition, Nat.zero_add, Nat.mod_eq_of_lt (expandBuffer_room h)]

theorem entries_expandBuffer (h : b.WellFormed) : b.expandBuffer.entries = b.entries := by
  apply Ring.contents_copy (expandBuffer_room h).le
  intro i hi
  have hlt : i < b.expandBuffer.buffer.length := hi.trans (expandBuffer_room h)
  rw [List.getD_eq_getElem _ _ hlt]
  simp only [expandBuffer, List.getElem_map, List.getElem_range, if_pos hi]
  rfl

/-! ## The operations -/

/-- What `push` writes to, after it has pruned and grown. -/
theorem push_room (h : b.WellFormed) :
    let grown := if b.count = b.buffer.length then b.expandBuffer else b
    grown.WellFormed ∧ grown.entries = b.entries ∧ grown.count < grown.buffer.length ∧
      grown.windowMs = b.windowMs := by
  by_cases hfull : b.count = b.buffer.length
  · rw [if_pos hfull]
    exact ⟨wellFormed_expandBuffer h, entries_expandBuffer h, expandBuffer_room h, rfl⟩
  · rw [if_neg hfull]
    exact ⟨h, rfl, lt_of_le_of_ne h.count_le hfull, rfl⟩

/-- Writing behind the last entry of a ring with room. -/
theorem write_spec (h : b.WellFormed) (hroom : b.count < b.buffer.length) (entry : Entry E) :
    let written := { b with
      buffer := b.buffer.set b.tail entry
      tail := (b.tail + 1) % b.buffer.length
      count := b.count + 1 }
    written.WellFormed ∧ written.entries = b.entries ++ [entry] := by
  refine ⟨?_, ?_⟩
  · have hlength : (b.buffer.set b.tail entry).length = b.buffer.length := List.length_set
    exact {
      maxSize_pos := h.maxSize_pos
      grows := h.grows
      count_le := by rw [hlength]; exact hroom
      head_lt := by rw [hlength]; exact h.head_lt
      tail_eq := by
        simp only [List.length_set, h.tail_eq, Ring.position, Nat.mod_add_mod, Nat.add_assoc] }
  · simp only [entries, h.tail_eq]
    exact Ring.contents_set hroom

theorem push_eq (h : b.WellFormed) :
    let pruned := b.pruneOldIfNeeded now
    let grown := if pruned.count = pruned.buffer.length then pruned.expandBuffer else pruned
    b.push value now = { grown with
      buffer := grown.buffer.set grown.tail ⟨now, value⟩
      tail := (grown.tail + 1) % grown.buffer.length
      count := grown.count + 1 } := by
  obtain ⟨-, -, hroom, -⟩ := push_room (wellFormed_prune h now)
  simp only [push, List.length_set, if_pos hroom]

theorem wellFormed_push (h : b.WellFormed) : (b.push value now).WellFormed := by
  obtain ⟨hgrown, -, hroom, -⟩ := push_room (wellFormed_prune h now)
  rw [push_eq h]
  exact (write_spec hgrown hroom ⟨now, value⟩).1

/-- `push` drops the old front and appends the new event. -/
theorem entries_push (h : b.WellFormed) :
    (b.push value now).entries = b.entries.dropWhile (isOld b.windowMs now) ++ [⟨now, value⟩] := by
  obtain ⟨hgrown, hentries, hroom, -⟩ := push_room (wellFormed_prune h now)
  rw [push_eq h, (write_spec hgrown hroom ⟨now, value⟩).2, hentries, entries_prune h]

theorem windowMs_push (h : b.WellFormed) : (b.push value now).windowMs = b.windowMs := by
  obtain ⟨-, -, -, hwindow⟩ := push_room (wellFormed_prune h now)
  rw [push_eq h]
  exact hwindow

theorem wellFormed_reset (h : b.WellFormed) : b.reset.WellFormed where
  maxSize_pos := h.maxSize_pos
  grows := h.grows
  count_le := Nat.zero_le _
  head_lt := by simpa [reset] using h.maxSize_pos
  tail_eq := by simp [reset, Ring.position]

@[simp] theorem entries_reset : b.reset.entries = [] := rfl

/-! ## Reading -/

theorem fetchFrom_eq (buffer : List (Entry E)) (count head : ℕ) (hhead : head < buffer.length) :
    fetchFrom buffer head count = (Ring.contents buffer head count).map Entry.event := by
  induction count generalizing head with
  | zero => rfl
  | succ count ih =>
      have hnext : (head + 1) % buffer.length < buffer.length :=
        Nat.mod_lt _ (Nat.zero_lt_of_lt hhead)
      rw [fetchFrom, Ring.contents_cons, List.map_cons, ih _ hnext, Ring.entry,
        Ring.position_zero hhead]

theorem fetchWindow_eq (h : b.WellFormed) : b.fetchWindow = b.entries.map Entry.event :=
  fetchFrom_eq b.buffer b.count b.head h.head_lt

/-- The filter is applied to the entries in order. -/
theorem fetchMapFrom_eq {ε : Type u} (filterMap : E → Except ε (Option Out))
    (buffer : List (Entry E)) (count head : ℕ) (hhead : head < buffer.length) :
    fetchMapFrom filterMap buffer head count =
      ((Ring.contents buffer head count).mapM fun entry => filterMap entry.event).map
        (List.flatMap Option.toList) := by
  induction count generalizing head with
  | zero => rfl
  | succ count ih =>
      have hnext : (head + 1) % buffer.length < buffer.length :=
        Nat.mod_lt _ (Nat.zero_lt_of_lt hhead)
      have hentry : Ring.entry buffer head 0 = buffer.getD head default := by
        rw [Ring.entry, Ring.position_zero hhead]
      rw [fetchMapFrom, ih _ hnext, Ring.contents_cons, hentry, List.mapM_cons]
      cases filterMap (buffer.getD head default).event with
      | error failure => rfl
      | ok kept =>
          cases (Ring.contents buffer ((head + 1) % buffer.length) count).mapM fun entry =>
              filterMap entry.event <;> rfl

theorem fetchMapWindow_eq {ε : Type u} (h : b.WellFormed)
    (filterMap : E → Except ε (Option Out)) :
    b.fetchMapWindow filterMap =
      (b.entries.mapM fun entry => filterMap entry.event).map (List.flatMap Option.toList) :=
  fetchMapFrom_eq filterMap b.buffer b.count b.head h.head_lt

/-- A filter that returns an event for each of the entries. -/
theorem fetchMapFrom_ok {ε : Type u} {filterMap : E → Except ε (Option Out)} {keep : E → Out}
    (buffer : List (Entry E)) (count head : ℕ) (hhead : head < buffer.length)
    (hkeep : ∀ entry ∈ Ring.contents buffer head count,
      filterMap entry.event = .ok (some (keep entry.event))) :
    fetchMapFrom filterMap buffer head count =
      .ok ((Ring.contents buffer head count).map fun entry => keep entry.event) := by
  induction count generalizing head with
  | zero => rfl
  | succ count ih =>
      have hnext : (head + 1) % buffer.length < buffer.length :=
        Nat.mod_lt _ (Nat.zero_lt_of_lt hhead)
      have hentry : Ring.entry buffer head 0 = buffer.getD head default := by
        rw [Ring.entry, Ring.position_zero hhead]
      rw [Ring.contents_cons, hentry] at hkeep ⊢
      rw [fetchMapFrom, hkeep _ List.mem_cons_self,
        ih _ hnext fun entry hmem => hkeep entry (List.mem_cons_of_mem _ hmem)]
      rfl

theorem fetchMapWindow_ok {ε : Type u} {filterMap : E → Except ε (Option Out)} {keep : E → Out}
    (h : b.WellFormed)
    (hkeep : ∀ entry ∈ b.entries, filterMap entry.event = .ok (some (keep entry.event))) :
    b.fetchMapWindow filterMap = .ok (b.entries.map fun entry => keep entry.event) :=
  fetchMapFrom_ok b.buffer b.count b.head h.head_lt hkeep

/-- The filter has returned on each of the entries. -/
theorem fetchMapFrom_eq_ok {ε : Type u} {filterMap : E → Except ε (Option Out)}
    (buffer : List (Entry E)) (count head : ℕ) (hhead : head < buffer.length) {out : List Out}
    (h : fetchMapFrom filterMap buffer head count = .ok out) :
    ∀ entry ∈ Ring.contents buffer head count, ∃ kept, filterMap entry.event = .ok kept := by
  induction count generalizing head out with
  | zero => simp
  | succ count ih =>
      have hnext : (head + 1) % buffer.length < buffer.length :=
        Nat.mod_lt _ (Nat.zero_lt_of_lt hhead)
      have hentry : Ring.entry buffer head 0 = buffer.getD head default := by
        rw [Ring.entry, Ring.position_zero hhead]
      rw [fetchMapFrom] at h
      rw [Ring.contents_cons, hentry]
      cases hfirst : filterMap (buffer.getD head default).event with
      | error failure =>
          rw [hfirst] at h
          cases h
      | ok kept =>
          cases hrest : fetchMapFrom filterMap buffer ((head + 1) % buffer.length) count with
          | error failure =>
              rw [hfirst, hrest] at h
              cases h
          | ok others =>
              rintro entry (_ | ⟨_, hentry⟩)
              · exact ⟨kept, hfirst⟩
              · exact ih _ hnext hrest entry hentry

theorem fetchMapWindow_eq_ok {ε : Type u} {filterMap : E → Except ε (Option Out)}
    {out : List Out} (hwell : b.WellFormed) (h : b.fetchMapWindow filterMap = .ok out) :
    ∀ entry ∈ b.entries, ∃ kept, filterMap entry.event = .ok kept :=
  fetchMapFrom_eq_ok b.buffer b.count b.head hwell.head_lt h

end K2eg.TimeWindowEventBuffer
