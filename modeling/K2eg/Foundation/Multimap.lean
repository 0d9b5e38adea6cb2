import Mathlib.Data.List.Sort
import Mathlib.Order.Lattice

/-! # Ordered multimaps

Entries are kept in key order, and entries of one key in the order of their insertion. -/

/-- A multimap from `κ` to `β`, as its list of entries in key order. -/
structure Multimap (κ β : Type*) [LinearOrder κ] where
  entries : List (κ × β)
  sorted : entries.Pairwise fun a b => a.1 ≤ b.1

namespace Multimap

variable {κ β : Type*} [LinearOrder κ]

@[ext] theorem ext {m n : Multimap κ β} (h : m.entries = n.entries) : m = n := by
  cases m
  cases n
  cases h
  rfl

def empty : Multimap κ β := ⟨[], List.Pairwise.nil⟩

/-! ## Insertion at the upper bound of a key -/

/-- Insert an entry behind all entries whose key is not larger. -/
def insertEntry (entry : κ × β) : List (κ × β) → List (κ × β)
  | [] => [entry]
  | head :: tail =>
    if head.1 ≤ entry.1 then head :: insertEntry entry tail else entry :: head :: tail

theorem insertEntry_perm (entry : κ × β) (l : List (κ × β)) :
    (insertEntry entry l).Perm (entry :: l) := by
  induction l with
  | nil => exact List.Perm.refl _
  | cons head tail ih =>
      rw [insertEntry]
      split
      · exact (ih.cons head).trans (List.Perm.swap entry head tail)
      · exact List.Perm.refl _

theorem insertEntry_sorted (entry : κ × β) {l : List (κ × β)}
    (h : l.Pairwise fun a b => a.1 ≤ b.1) :
    (insertEntry entry l).Pairwise fun a b => a.1 ≤ b.1 := by
  induction l with
  | nil => simp [insertEntry]
  | cons head tail ih =>
      obtain ⟨hhead, htail⟩ := List.pairwise_cons.mp h
      rw [insertEntry]
      split
      · rename_i hle
        refine List.pairwise_cons.mpr ⟨?_, ih htail⟩
        intro other hother
        rcases List.mem_cons.mp ((insertEntry_perm entry tail).mem_iff.mp hother) with rfl | hmem
        · exact hle
        · exact hhead other hmem
      · rename_i hle
        refine List.pairwise_cons.mpr ⟨?_, h⟩
        intro other hother
        rcases List.mem_cons.mp hother with rfl | hmem
        · exact le_of_not_ge hle
        · exact (le_of_not_ge hle).trans (hhead other hmem)

def insert (m : Multimap κ β) (key : κ) (value : β) : Multimap κ β :=
  ⟨insertEntry (key, value) m.entries, insertEntry_sorted _ m.sorted⟩

/-- An entry whose key is an upper bound of all keys is appended. -/
theorem insertEntry_eq_append {entry : κ × β} {l : List (κ × β)}
    (h : ∀ other ∈ l, other.1 ≤ entry.1) : insertEntry entry l = l ++ [entry] := by
  induction l with
  | nil => rfl
  | cons head tail ih =>
      rw [insertEntry, if_pos (h head (by simp)), ih fun other hother => h other (by simp [hother])]
      rfl

/-! ## The entries of one key -/

/-- The values of a key, in the order of their insertion. -/
def equalRange (m : Multimap κ β) (key : κ) : List β :=
  (m.entries.filter fun entry => decide (entry.1 = key)).map Prod.snd

@[simp] theorem equalRange_empty (key : κ) : (empty : Multimap κ β).equalRange key = [] := rfl

private theorem filter_eq_nil_of_lt {key : κ} {l : List (κ × β)}
    (h : ∀ entry ∈ l, key < entry.1) :
    (l.filter fun entry => decide (entry.1 = key)) = [] := by
  apply List.filter_eq_nil_iff.mpr
  intro entry hentry
  simpa using (h entry hentry).ne'

theorem equalRange_insert_self (m : Multimap κ β) (key : κ) (value : β) :
    (m.insert key value).equalRange key = m.equalRange key ++ [value] := by
  obtain ⟨l, hsorted⟩ := m
  simp only [equalRange, insert]
  induction l with
  | nil => simp [insertEntry]
  | cons head tail ih =>
      obtain ⟨hhead, htail⟩ := List.pairwise_cons.mp hsorted
      rw [insertEntry]
      split
      · by_cases hkey : head.1 = key
        · simpa [hkey] using ih htail
        · simpa [hkey] using ih htail
      · rename_i hle
        have hlt : key < head.1 := lt_of_not_ge hle
        have hall : ∀ entry ∈ head :: tail, key < entry.1 := by
          intro entry hentry
          rcases List.mem_cons.mp hentry with rfl | hmem
          · exact hlt
          · exact hlt.trans_le (hhead entry hmem)
        have hnil := filter_eq_nil_of_lt hall
        rw [List.filter_cons_of_pos (by simp), hnil]
        rfl

theorem equalRange_insert_of_ne (m : Multimap κ β) {key other : κ} (h : other ≠ key)
    (value : β) : (m.insert key value).equalRange other = m.equalRange other := by
  obtain ⟨l, hsorted⟩ := m
  simp only [equalRange, insert]
  clear hsorted
  induction l with
  | nil => simp [insertEntry, h.symm]
  | cons head tail ih =>
      rw [insertEntry]
      split
      · by_cases hkey : head.1 = other <;> simp [hkey, ih]
      · rw [List.filter_cons_of_neg (by simpa using h.symm)]

/-! ## Reading a list of entries back -/

/-- Insert entries one after the other. -/
def insertAll (m : Multimap κ β) (l : List (κ × β)) : Multimap κ β :=
  l.foldl (fun m entry => m.insert entry.1 entry.2) m

private theorem insertAll_entries {l : List (κ × β)} :
    ∀ m : Multimap κ β, (m.entries ++ l).Pairwise (fun a b => a.1 ≤ b.1) →
      (m.insertAll l).entries = m.entries ++ l := by
  induction l with
  | nil => simp [insertAll]
  | cons entry rest ih =>
      intro m h
      have hinsert : (m.insert entry.1 entry.2).entries = m.entries ++ [entry] :=
        insertEntry_eq_append fun other hother =>
          (List.pairwise_append.mp h).2.2 other hother entry (by simp)
      have hrest := ih (m.insert entry.1 entry.2) (by simpa [hinsert] using h)
      change ((m.insert entry.1 entry.2).insertAll rest).entries = m.entries ++ entry :: rest
      rw [hrest, hinsert, List.append_assoc, List.singleton_append]

/-- Inserting the entries of a multimap into the empty one gives the multimap back. -/
theorem insertAll_empty_entries (m : Multimap κ β) : empty.insertAll m.entries = m :=
  ext (insertAll_entries empty m.sorted)

/-! ## Erasing one entry -/

variable [DecidableEq β]

/-- Erase the first entry of a key that has the given value. -/
def eraseFirst (m : Multimap κ β) (key : κ) (value : β) : Multimap κ β :=
  ⟨m.entries.erase (key, value), m.sorted.sublist List.erase_sublist⟩

theorem equalRange_eraseFirst_self (m : Multimap κ β) (key : κ) (value : β) :
    (m.eraseFirst key value).equalRange key = (m.equalRange key).erase value := by
  obtain ⟨l, hsorted⟩ := m
  simp only [equalRange, eraseFirst]
  clear hsorted
  induction l with
  | nil => rfl
  | cons head tail ih =>
      obtain ⟨k, v⟩ := head
      by_cases hkey : k = key
      · subst k
        by_cases hvalue : v = value
        · subst v
          simp
        · rw [List.erase_cons_tail (by simpa using hvalue)]
          simp [List.erase_cons_tail, hvalue, ih]
      · rw [List.erase_cons_tail (by simp [hkey])]
        simpa [hkey] using ih

theorem equalRange_eraseFirst_of_ne (m : Multimap κ β) {key other : κ} (h : other ≠ key)
    (value : β) : (m.eraseFirst key value).equalRange other = m.equalRange other := by
  obtain ⟨l, hsorted⟩ := m
  simp only [equalRange, eraseFirst]
  clear hsorted
  induction l with
  | nil => rfl
  | cons head tail ih =>
      by_cases hhead : head = (key, value)
      · subst hhead
        simp [h.symm]
      · rw [List.erase_cons_tail (by simpa using hhead)]
        by_cases hkey : head.1 = other <;> simp [hkey, ih]

end Multimap
