import Mathlib.Algebra.BigOperators.Group.List.Basic
import Mathlib.Algebra.Ring.Int.Defs
import Mathlib.Data.Int.Basic

/-! # Msgpack

A packer writes one token for each call; a message is read back by a machine that keeps a stack of
the arrays and maps that are not yet complete. What `Object.tokens` writes is read back as the same
object, whatever follows it. -/

namespace Msgpack

/-- What one call of a packer writes: a value, or the header of an array or a map. -/
inductive Token where
  | nil
  | boolean (value : Bool)
  | int (value : Int)
  | float32 (value : Float32)
  | float64 (value : Float)
  | str (value : String)
  | bin (value : String)
  | ext
  | array (size : ℕ)
  | map (size : ℕ)

/-- `pack_array`: the size is a 32-bit number. -/
def packArray (size : ℕ) : Token := .array (size % 2 ^ 32)

/-- `pack_map`. -/
def packMap (size : ℕ) : Token := .map (size % 2 ^ 32)

theorem packArray_of_lt {size : ℕ} (h : size < 2 ^ 32) : packArray size = .array size := by
  rw [packArray, Nat.mod_eq_of_lt h]

theorem packMap_of_lt {size : ℕ} (h : size < 2 ^ 32) : packMap size = .map size := by
  rw [packMap, Nat.mod_eq_of_lt h]

/-- `msgpack::object`. -/
inductive Object where
  | nil
  | boolean (value : Bool)
  | int (value : Int)
  | float32 (value : Float32)
  | float64 (value : Float)
  | str (value : String)
  | bin (value : String)
  | ext
  | array (items : List Object)
  | map (entries : List (Object × Object))

namespace Object

mutual

/-- The tokens of an object. -/
def tokens : Object → List Token
  | .nil => [.nil]
  | .boolean value => [.boolean value]
  | .int value => [.int value]
  | .float32 value => [.float32 value]
  | .float64 value => [.float64 value]
  | .str value => [.str value]
  | .bin value => [.bin value]
  | .ext => [.ext]
  | .array items => .array items.length :: itemTokens items
  | .map entries => .map entries.length :: entryTokens entries

def itemTokens : List Object → List Token
  | [] => []
  | item :: rest => tokens item ++ itemTokens rest

def entryTokens : List (Object × Object) → List Token
  | [] => []
  | (key, value) :: rest => tokens key ++ tokens value ++ entryTokens rest

end

theorem itemTokens_append (items others : List Object) :
    itemTokens (items ++ others) = itemTokens items ++ itemTokens others := by
  induction items with
  | nil => rfl
  | cons item rest ih => simp only [List.cons_append, itemTokens, ih, List.append_assoc]

end Object

/-! ## Reading -/

/-- An array or a map that is not complete: how many elements are to come, and those that have
been read. -/
inductive Frame where
  | array (todo : ℕ) (done : List Object)
  | mapKey (todo : ℕ) (done : List (Object × Object))
  | mapValue (todo : ℕ) (done : List (Object × Object)) (key : Object)

/-- An object has been read; it may complete the frames that wait for it. -/
def complete (object : Object) : List Frame → Object ⊕ List Frame
  | [] => .inl object
  | .array todo done :: frames =>
    if todo ≤ 1 then complete (.array (done ++ [object])) frames
    else .inr (.array (todo - 1) (done ++ [object]) :: frames)
  | .mapKey todo done :: frames => .inr (.mapValue todo done object :: frames)
  | .mapValue todo done key :: frames =>
    if todo ≤ 1 then complete (.map (done ++ [(key, object)])) frames
    else .inr (.mapKey (todo - 1) (done ++ [(key, object)]) :: frames)

def feed (frames : List Frame) : Token → Object ⊕ List Frame
  | .nil => complete .nil frames
  | .boolean value => complete (.boolean value) frames
  | .int value => complete (.int value) frames
  | .float32 value => complete (.float32 value) frames
  | .float64 value => complete (.float64 value) frames
  | .str value => complete (.str value) frames
  | .bin value => complete (.bin value) frames
  | .ext => complete .ext frames
  | .array 0 => complete (.array []) frames
  | .array (size + 1) => .inr (.array (size + 1) [] :: frames)
  | .map 0 => complete (.map []) frames
  | .map (size + 1) => .inr (.mapKey (size + 1) [] :: frames)

/-- The first object of a message, with the tokens that follow it. -/
def unpackFrom (frames : List Frame) : List Token → Option (Object × List Token)
  | [] => none
  | token :: rest =>
    match feed frames token with
    | .inl object => some (object, rest)
    | .inr frames => unpackFrom frames rest

/-- `msgpack::unpack`. -/
def unpack (tokens : List Token) : Option (Object × List Token) := unpackFrom [] tokens

/-- Reading goes on behind an object. -/
def resume (rest : List Token) : Object ⊕ List Frame → Option (Object × List Token)
  | .inl object => some (object, rest)
  | .inr frames => unpackFrom frames rest

theorem unpackFrom_cons (frames : List Frame) (token : Token) (rest : List Token) :
    unpackFrom frames (token :: rest) = resume rest (feed frames token) := by
  rw [unpackFrom]
  cases feed frames token <;> rfl

mutual

/-- The tokens of an object are read as this object. -/
theorem unpackFrom_tokens (frames : List Frame) (rest : List Token) :
    ∀ object : Object, unpackFrom frames (object.tokens ++ rest) =
      resume rest (complete object frames)
  | .nil | .boolean _ | .int _ | .float32 _ | .float64 _ | .str _ | .bin _ | .ext => by
      rw [Object.tokens, List.cons_append, List.nil_append, unpackFrom_cons, feed]
  | .array [] | .map [] => by
      rw [Object.tokens, List.cons_append, unpackFrom_cons]
      rfl
  | .array (item :: items) => by
      rw [Object.tokens, List.cons_append, unpackFrom_cons]
      exact unpackFrom_itemTokens frames rest [] (item :: items) (List.cons_ne_nil _ _)
  | .map (entry :: entries) => by
      rw [Object.tokens, List.cons_append, unpackFrom_cons]
      exact unpackFrom_entryTokens frames rest [] (entry :: entries) (List.cons_ne_nil _ _)

/-- The items that are still to come complete the array. -/
theorem unpackFrom_itemTokens (frames : List Frame) (rest : List Token) (done : List Object) :
    ∀ items : List Object, items ≠ [] →
      unpackFrom (.array items.length done :: frames) (Object.itemTokens items ++ rest) =
        resume rest (complete (.array (done ++ items)) frames)
  | [], h => absurd rfl h
  | [item], _ => by
      rw [Object.itemTokens, Object.itemTokens, List.append_nil, unpackFrom_tokens, complete,
        if_pos (by simp)]
  | item :: next :: items, _ => by
      have ih := unpackFrom_itemTokens frames rest (done ++ [item]) (next :: items)
        (List.cons_ne_nil _ _)
      rw [List.append_assoc, List.singleton_append] at ih
      rw [Object.itemTokens, List.append_assoc, unpackFrom_tokens, complete, if_neg (by simp)]
      exact ih

/-- The pairs that are still to come complete the map. -/
theorem unpackFrom_entryTokens (frames : List Frame) (rest : List Token)
    (done : List (Object × Object)) :
    ∀ entries : List (Object × Object), entries ≠ [] →
      unpackFrom (.mapKey entries.length done :: frames) (Object.entryTokens entries ++ rest) =
        resume rest (complete (.map (done ++ entries)) frames)
  | [], h => absurd rfl h
  | [(key, value)], _ => by
      rw [Object.entryTokens, Object.entryTokens, List.append_nil, List.append_assoc,
        unpackFrom_tokens, complete, resume, unpackFrom_tokens, complete, if_pos (by simp)]
  | (key, value) :: next :: entries, _ => by
      have ih := unpackFrom_entryTokens frames rest (done ++ [(key, value)]) (next :: entries)
        (List.cons_ne_nil _ _)
      rw [List.append_assoc, List.singleton_append] at ih
      rw [Object.entryTokens, List.append_assoc, List.append_assoc, unpackFrom_tokens, complete,
        resume, unpackFrom_tokens, complete, if_neg (by simp)]
      exact ih

end

/-- An object is read back, and what follows it is left. -/
theorem unpack_tokens (object : Object) (rest : List Token) :
    unpack (object.tokens ++ rest) = some (object, rest) :=
  unpackFrom_tokens [] rest object

theorem unpack_tokens_nil (object : Object) : unpack object.tokens = some (object, []) := by
  simpa using unpack_tokens object []

/-! ## Sizes

The size of an array or a map that is read is the size in its header, so it is below every bound
on the sizes in the headers. -/

def Token.Below (bound : ℕ) : Token → Prop
  | .array size => size < bound
  | .map size => size < bound
  | _ => True

theorem packArray_below (size : ℕ) : (packArray size).Below (2 ^ 32) :=
  Nat.mod_lt size (by decide)

theorem packMap_below (size : ℕ) : (packMap size).Below (2 ^ 32) :=
  Nat.mod_lt size (by decide)

namespace Object

mutual

/-- The sizes of all arrays and maps in the object are below the bound. -/
def Below (bound : ℕ) : Object → Prop
  | .array items => items.length < bound ∧ ItemsBelow bound items
  | .map entries => entries.length < bound ∧ EntriesBelow bound entries
  | _ => True

def ItemsBelow (bound : ℕ) : List Object → Prop
  | [] => True
  | item :: rest => Below bound item ∧ ItemsBelow bound rest

def EntriesBelow (bound : ℕ) : List (Object × Object) → Prop
  | [] => True
  | (key, value) :: rest => Below bound key ∧ Below bound value ∧ EntriesBelow bound rest

end

theorem itemsBelow_append {bound : ℕ} {items : List Object} {item : Object}
    (h : ItemsBelow bound items) (hitem : item.Below bound) :
    ItemsBelow bound (items ++ [item]) := by
  induction items with
  | nil => exact ⟨hitem, trivial⟩
  | cons other rest ih => exact ⟨h.1, ih h.2⟩

theorem entriesBelow_append {bound : ℕ} {entries : List (Object × Object)} {key value : Object}
    (h : EntriesBelow bound entries) (hkey : key.Below bound) (hvalue : value.Below bound) :
    EntriesBelow bound (entries ++ [(key, value)]) := by
  induction entries with
  | nil => exact ⟨hkey, hvalue, trivial⟩
  | cons other rest ih => exact ⟨h.1, h.2.1, ih h.2.2⟩

end Object

def Frame.Below (bound : ℕ) : Frame → Prop
  | .array todo done => 0 < todo ∧ done.length + todo < bound ∧ Object.ItemsBelow bound done
  | .mapKey todo done => 0 < todo ∧ done.length + todo < bound ∧ Object.EntriesBelow bound done
  | .mapValue todo done key =>
    0 < todo ∧ done.length + todo < bound ∧ Object.EntriesBelow bound done ∧ key.Below bound

/-- What is read so far keeps the bound. -/
def Below (bound : ℕ) : Object ⊕ List Frame → Prop
  | .inl object => object.Below bound
  | .inr frames => ∀ frame ∈ frames, frame.Below bound

theorem complete_below {bound : ℕ} {frames : List Frame} (h : ∀ frame ∈ frames, frame.Below bound)
    {object : Object} (hobject : object.Below bound) : Below bound (complete object frames) := by
  induction frames generalizing object with
  | nil => exact hobject
  | cons frame frames ih =>
    have hframe := h frame (List.mem_cons_self ..)
    have hrest : ∀ frame ∈ frames, frame.Below bound := fun f hf => h f (List.mem_cons_of_mem _ hf)
    cases frame with
    | array todo done =>
      rw [complete]
      split
      case isTrue hlast =>
        apply ih hrest
        refine ⟨?_, Object.itemsBelow_append hframe.2.2 hobject⟩
        have := hframe.1
        have := hframe.2.1
        rw [List.length_append, List.length_singleton]
        omega
      case isFalse hmore =>
        refine List.forall_mem_cons.2 ⟨⟨by omega, ?_, ?_⟩, hrest⟩
        · have := hframe.2.1
          rw [List.length_append, List.length_singleton]
          omega
        · exact Object.itemsBelow_append hframe.2.2 hobject
    | mapKey todo done =>
      exact List.forall_mem_cons.2 ⟨⟨hframe.1, hframe.2.1, hframe.2.2, hobject⟩, hrest⟩
    | mapValue todo done key =>
      rw [complete]
      split
      case isTrue hlast =>
        apply ih hrest
        refine ⟨?_, Object.entriesBelow_append hframe.2.2.1 hframe.2.2.2 hobject⟩
        have := hframe.1
        have := hframe.2.1
        rw [List.length_append, List.length_singleton]
        omega
      case isFalse hmore =>
        refine List.forall_mem_cons.2 ⟨⟨by omega, ?_, ?_⟩, hrest⟩
        · have := hframe.2.1
          rw [List.length_append, List.length_singleton]
          omega
        · exact Object.entriesBelow_append hframe.2.2.1 hframe.2.2.2 hobject

theorem feed_below {bound : ℕ} {frames : List Frame} (h : ∀ frame ∈ frames, frame.Below bound)
    {token : Token} (htoken : token.Below bound) : Below bound (feed frames token) := by
  cases token with
  | nil | boolean _ | int _ | float32 _ | float64 _ | str _ | bin _ | ext =>
    exact complete_below h trivial
  | array size =>
    cases size with
    | zero => exact complete_below h ⟨htoken, trivial⟩
    | succ size =>
      exact List.forall_mem_cons.2
        ⟨⟨Nat.succ_pos _, by simpa [Token.Below] using htoken, trivial⟩, h⟩
  | map size =>
    cases size with
    | zero => exact complete_below h ⟨htoken, trivial⟩
    | succ size =>
      exact List.forall_mem_cons.2
        ⟨⟨Nat.succ_pos _, by simpa [Token.Below] using htoken, trivial⟩, h⟩

theorem unpackFrom_below {bound : ℕ} {tokens rest : List Token} {frames : List Frame}
    {object : Object} (hframes : ∀ frame ∈ frames, frame.Below bound)
    (htokens : ∀ token ∈ tokens, token.Below bound)
    (h : unpackFrom frames tokens = some (object, rest)) : object.Below bound := by
  induction tokens generalizing frames with
  | nil => exact absurd h (by simp [unpackFrom])
  | cons token tokens ih =>
    have hfed := feed_below hframes (htokens token (List.mem_cons_self ..))
    rw [unpackFrom_cons] at h
    cases hnext : feed frames token with
    | inl read =>
      rw [hnext] at h hfed
      cases h
      exact hfed
    | inr next =>
      rw [hnext] at h hfed
      exact ih hfed (fun t ht => htokens t (List.mem_cons_of_mem _ ht)) h

theorem unpack_below {bound : ℕ} {tokens rest : List Token} {object : Object}
    (htokens : ∀ token ∈ tokens, token.Below bound) (h : unpack tokens = some (object, rest)) :
    object.Below bound :=
  unpackFrom_below (fun _ hf => absurd hf (List.not_mem_nil)) htokens h

/-! ## Counting

A token fills one place and opens as many as its header says, so the tokens of one object open one
place less than they fill. -/

/-- How many more places a token opens than it fills. -/
def Token.surplus : Token → Int
  | .array size => size - 1
  | .map size => 2 * size - 1
  | _ => -1

def surplus (tokens : List Token) : Int := (tokens.map Token.surplus).sum

@[simp] theorem surplus_nil : surplus [] = 0 := rfl

@[simp] theorem surplus_cons (token : Token) (tokens : List Token) :
    surplus (token :: tokens) = token.surplus + surplus tokens := rfl

@[simp] theorem surplus_append (front back : List Token) :
    surplus (front ++ back) = surplus front + surplus back := by
  rw [surplus, List.map_append, List.sum_append]
  rfl

/-- The surplus is at most the count, and it is the count only under the condition: a header that
has lost a part of its size lowers it. -/
def Counts (count : Int) (condition : Prop) (tokens : List Token) : Prop :=
  surplus tokens ≤ count ∧ (surplus tokens = count → condition)

theorem Counts.append {m n : Int} {P Q : Prop} {front back : List Token}
    (hfront : Counts m P front) (hback : Counts n Q back) :
    Counts (m + n) (P ∧ Q) (front ++ back) := by
  have hle := hfront.1
  have hle' := hback.1
  refine ⟨by rw [surplus_append]; omega, ?_⟩
  intro h
  rw [surplus_append] at h
  exact ⟨hfront.2 (by omega), hback.2 (by omega)⟩

theorem Counts.mono {n : Int} {P Q : Prop} {tokens : List Token} (h : Counts n P tokens)
    (hPQ : P → Q) : Counts n Q tokens :=
  ⟨h.1, fun hsame => hPQ (h.2 hsame)⟩

theorem counts_nil : Counts 0 True [] := ⟨Int.le_refl 0, fun _ => trivial⟩

theorem counts_packArray (size : ℕ) : Counts (size - 1) (size < 2 ^ 32) [packArray size] := by
  have hmod := Nat.div_add_mod size (2 ^ 32)
  have hlt := Nat.mod_lt size (show 0 < 2 ^ 32 by decide)
  simp only [Counts, surplus_cons, surplus_nil, packArray, Token.surplus]
  omega

theorem counts_packMap (size : ℕ) : Counts (2 * size - 1) (size < 2 ^ 32) [packMap size] := by
  have hmod := Nat.div_add_mod size (2 ^ 32)
  have hlt := Nat.mod_lt size (show 0 < 2 ^ 32 by decide)
  simp only [Counts, surplus_cons, surplus_nil, packMap, Token.surplus]
  omega

/-- The places that are open inside a frame, and the object around it. -/
def Frame.places : Frame → Int
  | .array todo _ => todo - 1
  | .mapKey todo _ => 2 * todo - 1
  | .mapValue todo _ _ => 2 * todo - 2

def places (frames : List Frame) : Int := (frames.map Frame.places).sum + 1

def Frame.Open : Frame → Prop
  | .array todo _ => 0 < todo
  | .mapKey todo _ => 0 < todo
  | .mapValue todo _ _ => 0 < todo

/-- What is left to be read has this many places open. -/
def Opens (count : Int) : Object ⊕ List Frame → Prop
  | .inl _ => count = 0
  | .inr frames => (∀ frame ∈ frames, frame.Open) ∧ places frames = count

theorem complete_opens {frames : List Frame} (h : ∀ frame ∈ frames, frame.Open)
    (object : Object) : Opens (places frames - 1) (complete object frames) := by
  induction frames generalizing object with
  | nil => rfl
  | cons frame frames ih =>
    have hframe := h frame (List.mem_cons_self ..)
    have hrest : ∀ frame ∈ frames, frame.Open := fun f hf => h f (List.mem_cons_of_mem _ hf)
    have hcount : places (frame :: frames) = frame.places + places frames := by
      simp only [places, List.map_cons, List.sum_cons, add_assoc]
    cases frame with
    | array todo done =>
      rw [complete]
      split
      case isTrue hlast =>
        have hzero : places (.array todo done :: frames) = places frames := by
          rw [hcount, Frame.places]
          change 0 < todo at hframe
          omega
        rw [hzero]
        exact ih hrest _
      case isFalse hmore =>
        refine ⟨List.forall_mem_cons.2 ⟨Nat.sub_pos_of_lt (not_le.1 hmore), hrest⟩, ?_⟩
        rw [hcount]
        simp only [places, List.map_cons, List.sum_cons, Frame.places]
        omega
    | mapKey todo done =>
      refine ⟨List.forall_mem_cons.2 ⟨hframe, hrest⟩, ?_⟩
      rw [hcount]
      simp only [places, List.map_cons, List.sum_cons, Frame.places]
      omega
    | mapValue todo done key =>
      rw [complete]
      split
      case isTrue hlast =>
        have hzero : places (.mapValue todo done key :: frames) = places frames := by
          rw [hcount, Frame.places]
          change 0 < todo at hframe
          omega
        rw [hzero]
        exact ih hrest _
      case isFalse hmore =>
        refine ⟨List.forall_mem_cons.2 ⟨Nat.sub_pos_of_lt (not_le.1 hmore), hrest⟩, ?_⟩
        rw [hcount]
        simp only [places, List.map_cons, List.sum_cons, Frame.places]
        omega

theorem feed_opens {frames : List Frame} (h : ∀ frame ∈ frames, frame.Open) (token : Token) :
    Opens (places frames + token.surplus) (feed frames token) := by
  cases token with
  | nil | boolean _ | int _ | float32 _ | float64 _ | str _ | bin _ | ext =>
    exact complete_opens h _
  | array size =>
    cases size with
    | zero => exact complete_opens h _
    | succ size =>
      refine ⟨List.forall_mem_cons.2 ⟨Nat.succ_pos _, h⟩, ?_⟩
      simp only [places, List.map_cons, List.sum_cons, Frame.places, Token.surplus]
      omega
  | map size =>
    cases size with
    | zero => exact complete_opens h _
    | succ size =>
      refine ⟨List.forall_mem_cons.2 ⟨Nat.succ_pos _, h⟩, ?_⟩
      simp only [places, List.map_cons, List.sum_cons, Frame.places, Token.surplus]
      omega

theorem unpackFrom_surplus {tokens : List Token} {frames : List Frame} {object : Object}
    (h : ∀ frame ∈ frames, frame.Open) (hread : unpackFrom frames tokens = some (object, [])) :
    places frames + surplus tokens = 0 := by
  induction tokens generalizing frames with
  | nil => exact absurd hread nofun
  | cons token tokens ih =>
    have hfed := feed_opens h token
    rw [unpackFrom_cons] at hread
    rw [surplus_cons, ← add_assoc]
    cases hnext : feed frames token with
    | inl read =>
      rw [hnext] at hread hfed
      cases hread
      rw [surplus_nil, add_zero]
      exact hfed
    | inr next =>
      rw [hnext] at hread hfed
      rw [← hfed.2]
      exact ih hfed.1 hread

/-- The tokens of a message that is exactly one object. -/
theorem unpack_surplus {tokens : List Token} {object : Object}
    (h : unpack tokens = some (object, [])) : surplus tokens = -1 := by
  have hall := unpackFrom_surplus (fun _ hf => absurd hf List.not_mem_nil) h
  simp only [places, List.map_nil, List.sum_nil] at hall
  omega

end Msgpack
