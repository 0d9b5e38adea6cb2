import K2eg.Verification.Snapshot.EventBuffer
import Mathlib.Data.List.Induction
import Mathlib.Data.List.TakeWhile

/-! # The event buffer refines a queue

A queue that drops the entries older than the window says what the buffer is for. Every sequence
of calls with nondecreasing timestamps keeps the representation invariant of the ring and leaves
it with the entries of the queue. -/

namespace K2eg

universe u

variable {E : Type u}

/-- A call of the buffer. -/
inductive BufferCall (E : Type u) where
  | push (value : E) (timestamp : Int)
  | fetchWindow
  | reset

def BufferCall.timestamp? : BufferCall E → Option Int
  | .push _ timestamp => some timestamp
  | .fetchWindow | .reset => none

/-- The timestamps of the pushes. -/
def BufferCall.timestamps (calls : List (BufferCall E)) : List Int :=
  calls.filterMap BufferCall.timestamp?

/-- The younger entries in the order of their arrival. -/
structure EventQueue (E : Type u) where
  windowMs : Int
  entries : List (TimeWindowEventBuffer.Entry E) := []

open TimeWindowEventBuffer

/-- A call of the queue, with the events that it returns. -/
def EventQueue.call (queue : EventQueue E) : BufferCall E → EventQueue E × List E
  | .push value timestamp =>
    ({ queue with
      entries := (queue.entries.filter fun entry => !isOld queue.windowMs timestamp entry) ++
        [⟨timestamp, value⟩] }, [])
  | .fetchWindow => (queue, queue.entries.map Entry.event)
  | .reset => ({ queue with entries := [] }, [])

/-- The queue after some calls. -/
def EventQueue.after (queue : EventQueue E) (calls : List (BufferCall E)) : EventQueue E :=
  calls.foldl (fun queue call => (queue.call call).1) queue

theorem EventQueue.after_snoc (queue : EventQueue E) (calls : List (BufferCall E))
    (c : BufferCall E) : queue.after (calls ++ [c]) = ((queue.after calls).call c).1 := by
  rw [EventQueue.after, List.foldl_append]
  rfl

/-- The entries of a queue that starts empty were pushed, in this order. -/
theorem EventQueue.timestamps_sublist (windowMs : Int) (calls : List (BufferCall E)) :
    ((EventQueue.after { windowMs } calls).entries.map Entry.timestamp).Sublist
      (BufferCall.timestamps calls) := by
  induction calls using List.reverseRecOn with
  | nil => exact .slnil
  | append_singleton calls c ih =>
      rw [after_snoc, BufferCall.timestamps, List.filterMap_append]
      cases c with
      | push value timestamp =>
          rw [EventQueue.call, List.map_append]
          exact ((List.filter_sublist.map _).trans ih).append (List.Sublist.refl _)
      | fetchWindow => exact ih.trans (List.sublist_append_left _ _)
      | reset => exact List.nil_sublist _

namespace TimeWindowEventBuffer

variable [Inhabited E] {b : TimeWindowEventBuffer E} {value : E} {now : Int}

/-- A call of the buffer, with the events that it returns. -/
def call (b : TimeWindowEventBuffer E) : BufferCall E → TimeWindowEventBuffer E × List E
  | .push value timestamp => (b.push value timestamp, [])
  | .fetchWindow => (b, b.fetchWindow)
  | .reset => (b.reset, [])

/-- The buffer after some calls. -/
def after (b : TimeWindowEventBuffer E) (calls : List (BufferCall E)) : TimeWindowEventBuffer E :=
  calls.foldl (fun b call => (b.call call).1) b

/-! ## The slot of a push -/

/-- The slots that hold an entry. -/
def liveSlots (b : TimeWindowEventBuffer E) : List ℕ :=
  (List.range b.count).map (Ring.position b.buffer.length b.head)

/-- The buffer that `push` writes to: pruned, and grown where it is full. -/
def prepared (b : TimeWindowEventBuffer E) (now : Int) : TimeWindowEventBuffer E :=
  let pruned := b.pruneOldIfNeeded now
  if pruned.count = pruned.buffer.length then pruned.expandBuffer else pruned

/-- `push` writes one slot, and no entry is in it. -/
structure WritesFreeSlot (b : TimeWindowEventBuffer E) (value : E) (now : Int) : Prop where
  written : (b.push value now).buffer =
    (b.prepared now).buffer.set (b.prepared now).tail ⟨now, value⟩
  free : (b.prepared now).tail ∉ (b.prepared now).liveSlots
  kept : ∀ slot ∈ (b.prepared now).liveSlots,
    (b.push value now).buffer[slot]? = (b.prepared now).buffer[slot]?

omit [Inhabited E] in
/-- In a ring with room the tail is behind the last entry. -/
theorem tail_not_mem_liveSlots (h : b.WellFormed) (hroom : b.count < b.buffer.length) :
    b.tail ∉ b.liveSlots := by
  rw [liveSlots, List.mem_map, h.tail_eq]
  rintro ⟨offset, hoffset, heq⟩
  have hlt : offset < b.count := List.mem_range.mp hoffset
  have : offset = b.count := Ring.position_inj (hlt.trans hroom) hroom heq
  omega

theorem writesFreeSlot (h : b.WellFormed) (value : E) (now : Int) :
    b.WritesFreeSlot value now := by
  obtain ⟨hgrown, -, hroom, -⟩ := push_room (wellFormed_prune h now)
  have hwritten : (b.push value now).buffer =
      (b.prepared now).buffer.set (b.prepared now).tail ⟨now, value⟩ := by
    rw [push_eq h]
    rfl
  have hfree : (b.prepared now).tail ∉ (b.prepared now).liveSlots :=
    tail_not_mem_liveSlots hgrown hroom
  refine ⟨hwritten, hfree, fun slot hslot => ?_⟩
  rw [hwritten]
  apply List.getElem?_set_ne
  rintro rfl
  exact hfree hslot

/-! ## Old entries are in front -/

omit [Inhabited E] in
/-- With nondecreasing timestamps the old entries make up a front of the list. -/
theorem dropWhile_isOld {windowMs now : Int} {entries : List (Entry E)}
    (hsorted : (entries.map Entry.timestamp).Pairwise (· ≤ ·)) :
    entries.dropWhile (isOld windowMs now) =
      entries.filter fun entry => !isOld windowMs now entry := by
  induction entries with
  | nil => rfl
  | cons entry rest ih =>
      rw [List.map_cons, List.pairwise_cons] at hsorted
      obtain ⟨hfirst, hrest⟩ := hsorted
      by_cases hold : isOld windowMs now entry = true
      · rw [List.dropWhile_cons_of_pos hold, ih hrest, List.filter_cons_of_neg (by simp [hold])]
      · have hyoung : ∀ other ∈ entry :: rest, (!isOld windowMs now other) = true := by
          intro other hother
          have hle : entry.timestamp ≤ other.timestamp := by
            rcases List.mem_cons.mp hother with rfl | hmem
            · exact le_rfl
            · exact hfirst _ (List.mem_map_of_mem hmem)
          simp only [isOld, decide_eq_true_eq, Bool.not_eq_true', decide_eq_false_iff_not]
            at hold ⊢
          omega
        rw [List.dropWhile_cons_of_neg hold, List.filter_eq_self.mpr hyoung]

/-- A push drops a front of old entries, keeps the others and writes behind them. -/
structure PushSpec (b : TimeWindowEventBuffer E) (value : E) (now : Int) : Prop where
  drops : ∃ front kept, b.entries = front ++ kept ∧
    (∀ entry ∈ front, isOld b.windowMs now entry = true) ∧
    (∀ entry ∈ kept, isOld b.windowMs now entry = false) ∧
    (b.push value now).entries = kept ++ [⟨now, value⟩]
  writes : b.WritesFreeSlot value now

theorem pushSpec (h : b.WellFormed)
    (hsorted : (b.entries.map Entry.timestamp).Pairwise (· ≤ ·)) (value : E) (now : Int) :
    b.PushSpec value now := by
  refine ⟨⟨_, _, List.takeWhile_append_dropWhile.symm, ?_, ?_, entries_push h⟩,
    writesFreeSlot h value now⟩
  · exact fun entry hentry => List.mem_takeWhile_imp hentry
  · intro entry hentry
    rw [dropWhile_isOld hsorted] at hentry
    simpa using (List.mem_filter.mp hentry).2

/-! ## The simulation -/

/-- The buffer holds the entries of the queue. -/
structure Tracks (b : TimeWindowEventBuffer E) (queue : EventQueue E) : Prop where
  wellFormed : b.WellFormed
  windowMs : b.windowMs = queue.windowMs
  entries : b.entries = queue.entries

/-- A call keeps what is tracked and returns what the queue returns. -/
theorem Tracks.call {queue : EventQueue E} (h : Tracks b queue) (c : BufferCall E)
    (hsorted : (queue.entries.map Entry.timestamp).Pairwise (· ≤ ·)) :
    Tracks (b.call c).1 (queue.call c).1 ∧ (b.call c).2 = (queue.call c).2 := by
  cases c with
  | push value now =>
      refine ⟨⟨wellFormed_push h.wellFormed, (windowMs_push h.wellFormed).trans h.windowMs, ?_⟩,
        rfl⟩
      have hentries : (b.push value now).entries =
          b.entries.dropWhile (isOld b.windowMs now) ++ [⟨now, value⟩] := entries_push h.wellFormed
      rw [h.entries, h.windowMs, dropWhile_isOld hsorted] at hentries
      exact hentries
  | fetchWindow =>
      refine ⟨h, ?_⟩
      rw [TimeWindowEventBuffer.call, fetchWindow_eq h.wellFormed, h.entries]
      rfl
  | reset => exact ⟨⟨wellFormed_reset h.wellFormed, h.windowMs, rfl⟩, rfl⟩

/-- `fetchWindow` with a filter applies it to the entries in order. -/
theorem Tracks.fetchMapWindow {queue : EventQueue E} {ε Out : Type u} (h : Tracks b queue)
    (filterMap : E → Except ε (Option Out)) :
    b.fetchMapWindow filterMap =
      (queue.entries.mapM fun entry => filterMap entry.event).map (List.flatMap Option.toList) := by
  rw [fetchMapWindow_eq h.wellFormed, h.entries]

theorem after_snoc (b : TimeWindowEventBuffer E) (calls : List (BufferCall E)) (c : BufferCall E) :
    b.after (calls ++ [c]) = ((b.after calls).call c).1 := by
  rw [after, List.foldl_append]
  rfl

/-- After every sequence of calls the ring is well formed and holds the entries of the queue; each
call has returned what the queue returns, and each push has met its specification. -/
theorem refines_of_calls (window : Int) {reserve growFactor : ℕ} (hreserve : 1 ≤ reserve)
    (hgrow : 2 ≤ growFactor) (calls : List (BufferCall E))
    (hsorted : (BufferCall.timestamps calls).Pairwise (· ≤ ·)) :
    Tracks ((make window reserve growFactor).after calls)
        (EventQueue.after { windowMs := window } calls) ∧
      ∀ past c future, calls = past ++ c :: future →
        (((make window reserve growFactor).after past).call c).2 =
            ((EventQueue.after { windowMs := window } past).call c).2 ∧
          ∀ value now, c = .push value now →
            ((make window reserve growFactor).after past).PushSpec value now := by
  induction calls using List.reverseRecOn with
  | nil =>
      refine ⟨⟨wellFormed_make hreserve hgrow, rfl, rfl⟩, fun past c future h => ?_⟩
      simp at h
  | append_singleton calls last ih =>
      have hcalls : (BufferCall.timestamps calls).Pairwise (· ≤ ·) := by
        rw [BufferCall.timestamps, List.filterMap_append] at hsorted
        exact (List.pairwise_append.mp hsorted).1
      obtain ⟨htracks, hearlier⟩ := ih hcalls
      have hentries := hcalls.sublist (EventQueue.timestamps_sublist window calls)
      obtain ⟨hlast, hreturned⟩ := htracks.call last hentries
      rw [after_snoc, EventQueue.after_snoc]
      refine ⟨hlast, fun past c future h => ?_⟩
      rcases List.eq_nil_or_concat future with rfl | ⟨init, other, rfl⟩
      · obtain ⟨rfl, heq⟩ := List.append_inj' h rfl
        obtain rfl := List.singleton_inj.mp heq
        exact ⟨hreturned, fun value now _ =>
          pushSpec htracks.wellFormed (by rw [htracks.entries]; exact hentries) value now⟩
      · rw [List.concat_eq_append, ← List.cons_append, ← List.append_assoc] at h
        exact hearlier past c init (List.append_inj' h rfl).1

/-- A ring of two slots is pruned, wraps around and grows while it is full and wrapped. -/
theorem refines_of_calls_wrapped :
    let calls : List (BufferCall ℕ) := [.push 1 0, .push 2 600000, .push 3 1500000,
      .push 4 1550000, .fetchWindow]
    let b := (make 1 2 2).after calls
    Tracks b (EventQueue.after { windowMs := 1 } calls) ∧ b.buffer.length = 4 ∧
      b.entries = [⟨600000, 2⟩, ⟨1500000, 3⟩, ⟨1550000, 4⟩] :=
  ⟨(refines_of_calls 1 (by decide) (by decide) _ (by decide)).1, by decide, by decide⟩

end TimeWindowEventBuffer

end K2eg
