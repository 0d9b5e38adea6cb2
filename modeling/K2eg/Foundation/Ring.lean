import Mathlib.Data.List.Basic
import Mathlib.Data.List.Range
import Mathlib.Data.Nat.ModEq

/-! # Circular reading of a list of slots

A ring keeps `count` entries in a list of slots, from the slot `head` on and around the end of
the list. Read in order, they are a queue. -/

namespace Ring

variable {α : Type*} [Inhabited α] {slots slots' : List α} {head count : ℕ}

/-- The slot at an offset from the head. -/
def position (size head offset : ℕ) : ℕ := (head + offset) % size

/-- The entry at an offset from the head. -/
def entry (slots : List α) (head offset : ℕ) : α :=
  slots.getD (position slots.length head offset) default

/-- The entries of the ring in order. -/
def contents (slots : List α) (head count : ℕ) : List α :=
  (List.range count).map (entry slots head)

@[simp] theorem contents_zero : contents slots head 0 = [] := rfl

@[simp] theorem contents_length : (contents slots head count).length = count := by
  simp [contents]

theorem position_lt (size head offset : ℕ) (hsize : 0 < size) : position size head offset < size :=
  Nat.mod_lt _ hsize

theorem position_zero {size : ℕ} (hhead : head < size) : position size head 0 = head :=
  Nat.mod_eq_of_lt hhead

/-- Two offsets of less than one revolution are the same slot only if they are the same. -/
theorem position_inj {size i j : ℕ} (hi : i < size) (hj : j < size)
    (h : position size head i = position size head j) : i = j := by
  have hmod : i % size = j % size := Nat.ModEq.add_left_cancel' head h
  rwa [Nat.mod_eq_of_lt hi, Nat.mod_eq_of_lt hj] at hmod

theorem position_next (size offset : ℕ) :
    position size ((head + 1) % size) offset = position size head (offset + 1) := by
  rw [position, position, Nat.mod_add_mod, Nat.add_assoc, Nat.add_comm 1 offset]

/-! ## The operations of a queue -/

theorem contents_succ :
    contents slots head (count + 1) = contents slots head count ++ [entry slots head count] := by
  rw [contents, List.range_succ, List.map_append]
  rfl

/-- Moving the head on by one slot drops the first entry. -/
theorem contents_cons :
    contents slots head (count + 1) =
      entry slots head 0 :: contents slots ((head + 1) % slots.length) count := by
  rw [contents, List.range_succ_eq_map, List.map_cons, List.map_map]
  congr 1
  apply List.map_congr_left
  intro offset _
  rw [Function.comp_apply, entry, entry, position_next]

/-- Writing the slot behind the last entry appends to the contents. -/
theorem contents_set {value : α} (hcount : count < slots.length) :
    contents (slots.set (position slots.length head count) value) head (count + 1) =
      contents slots head count ++ [value] := by
  rw [contents_succ]
  have hpos : position slots.length head count < slots.length :=
    position_lt _ _ _ (Nat.zero_lt_of_lt hcount)
  congr 1
  · apply List.map_congr_left
    intro offset hoffset
    have hlt : offset < count := List.mem_range.1 hoffset
    have hne : position slots.length head count ≠ position slots.length head offset := by
      intro heq
      have := position_inj hcount (hlt.trans hcount) heq
      omega
    rw [entry, entry, List.length_set, List.getD_eq_getElem?_getD, List.getD_eq_getElem?_getD,
      List.getElem?_set_ne hne]
  · rw [entry, List.length_set, List.getD_eq_getElem?_getD, List.getElem?_set_self hpos]
    rfl

/-- A copy of the entries to the front of other slots has the same contents. -/
theorem contents_copy (hcount : count ≤ slots'.length)
    (hcopy : ∀ i < count, slots'.getD i default = entry slots head i) :
    contents slots' 0 count = contents slots head count := by
  apply List.map_congr_left
  intro offset hoffset
  have hlt : offset < count := List.mem_range.1 hoffset
  have hpos : position slots'.length 0 offset = offset := by
    rw [position, Nat.zero_add, Nat.mod_eq_of_lt (hlt.trans_le hcount)]
  rw [entry, hpos, hcopy offset hlt]

end Ring
