import Mathlib.Data.List.Basic

/-! # Regular expressions with numbered groups

A regular expression matches a whole text, and a match says what each of its groups has matched. -/

inductive Regex (α : Type*) where
  | empty
  | char (allowed : α → Bool)
  | seq (first second : Regex α)
  | alt (first second : Regex α)
  | star (body : Regex α)
  | group (number : ℕ) (body : Regex α)

namespace Regex

variable {α : Type*}

def plus (body : Regex α) : Regex α := .seq body (.star body)

def opt (body : Regex α) : Regex α := .alt body .empty

/-- Exactly this text. -/
def literal [DecidableEq α] : List α → Regex α
  | [] => .empty
  | c :: rest => .seq (.char (· = c)) (literal rest)

/-- What the groups have matched, in the order in which they are closed. -/
abbrev Groups (α : Type*) := List (ℕ × List α)

/-- The expression matches the text, with these groups. -/
inductive Matches : Regex α → List α → Groups α → Prop where
  | empty : Matches .empty [] []
  | char {allowed : α → Bool} {c : α} (h : allowed c = true) : Matches (.char allowed) [c] []
  | seq {first second : Regex α} {s t : List α} {g k : Groups α} (hfirst : Matches first s g)
      (hsecond : Matches second t k) : Matches (.seq first second) (s ++ t) (g ++ k)
  | left {first second : Regex α} {s : List α} {g : Groups α} (h : Matches first s g) :
      Matches (.alt first second) s g
  | right {first second : Regex α} {s : List α} {g : Groups α} (h : Matches second s g) :
      Matches (.alt first second) s g
  | starNil {body : Regex α} : Matches (.star body) [] []
  | starCons {body : Regex α} {s t : List α} {g k : Groups α} (hbody : Matches body s g)
      (hrest : Matches (.star body) t k) : Matches (.star body) (s ++ t) (g ++ k)
  | group {number : ℕ} {body : Regex α} {s : List α} {g : Groups α} (h : Matches body s g) :
      Matches (.group number body) s (g ++ [(number, s)])

/-- What a group has matched; nothing, where it took no part. -/
def capture (groups : Groups α) (number : ℕ) : List α :=
  (groups.lookup number).getD []

/-! ## Inversion -/

theorem matches_empty_iff {s : List α} {g : Groups α} :
    Matches .empty s g ↔ s = [] ∧ g = [] := by
  constructor
  · rintro ⟨⟩
    exact ⟨rfl, rfl⟩
  · rintro ⟨rfl, rfl⟩
    exact .empty

theorem matches_char_iff {allowed : α → Bool} {s : List α} {g : Groups α} :
    Matches (.char allowed) s g ↔ ∃ c, allowed c = true ∧ s = [c] ∧ g = [] := by
  constructor
  · rintro ⟨⟩
    exact ⟨_, ‹_›, rfl, rfl⟩
  · rintro ⟨c, hc, rfl, rfl⟩
    exact .char hc

theorem matches_seq_iff {first second : Regex α} {s : List α} {g : Groups α} :
    Matches (.seq first second) s g ↔ ∃ s₁ g₁ s₂ g₂, Matches first s₁ g₁ ∧ Matches second s₂ g₂ ∧
      s = s₁ ++ s₂ ∧ g = g₁ ++ g₂ := by
  constructor
  · rintro ⟨⟩
    exact ⟨_, _, _, _, ‹_›, ‹_›, rfl, rfl⟩
  · rintro ⟨s₁, g₁, s₂, g₂, hfirst, hsecond, rfl, rfl⟩
    exact .seq hfirst hsecond

theorem matches_alt_iff {first second : Regex α} {s : List α} {g : Groups α} :
    Matches (.alt first second) s g ↔ Matches first s g ∨ Matches second s g := by
  constructor
  · rintro ⟨⟩
    · exact .inl ‹_›
    · exact .inr ‹_›
  · rintro (h | h)
    · exact .left h
    · exact .right h

theorem matches_opt_iff {body : Regex α} {s : List α} {g : Groups α} :
    Matches (opt body) s g ↔ Matches body s g ∨ s = [] ∧ g = [] := by
  rw [opt, matches_alt_iff, matches_empty_iff]

theorem matches_group_iff {number : ℕ} {body : Regex α} {s : List α} {g : Groups α} :
    Matches (.group number body) s g ↔ ∃ k, Matches body s k ∧ g = k ++ [(number, s)] := by
  constructor
  · rintro ⟨⟩
    exact ⟨_, ‹_›, rfl⟩
  · rintro ⟨k, h, rfl⟩
    exact .group h

theorem matches_literal_iff [DecidableEq α] {text s : List α} {g : Groups α} :
    Matches (literal text) s g ↔ s = text ∧ g = [] := by
  induction text generalizing s g with
  | nil => exact matches_empty_iff
  | cons c rest ih =>
      rw [literal, matches_seq_iff]
      constructor
      · rintro ⟨s₁, g₁, s₂, g₂, hfirst, hsecond, rfl, rfl⟩
        obtain ⟨d, hd, rfl, rfl⟩ := matches_char_iff.1 hfirst
        obtain ⟨rfl, rfl⟩ := ih.1 hsecond
        obtain rfl := of_decide_eq_true hd
        exact ⟨rfl, rfl⟩
      · rintro ⟨rfl, rfl⟩
        exact ⟨[c], [], rest, [], matches_char_iff.2 ⟨c, by simp, rfl, rfl⟩, ih.2 ⟨rfl, rfl⟩,
          rfl, rfl⟩

/-! ## Words -/

/-- A text of allowed characters that is not empty. -/
def IsWord (allowed : α → Bool) (text : List α) : Prop :=
  text ≠ [] ∧ ∀ c ∈ text, allowed c = true

theorem IsWord.not_mem {allowed : α → Bool} {text : List α} (h : IsWord allowed text) {c : α}
    (hc : allowed c = false) : c ∉ text := by
  intro hmem
  rw [h.2 c hmem] at hc
  cases hc

/-- The first word, and the others behind a separator each. -/
def joinWords (separator : α) (first : List α) (rest : List (List α)) : List α :=
  first ++ rest.flatMap (separator :: ·)

theorem matches_star_char_iff {allowed : α → Bool} {s : List α} {g : Groups α} :
    Matches (.star (.char allowed)) s g ↔ (∀ c ∈ s, allowed c = true) ∧ g = [] := by
  constructor
  case mp =>
    intro h
    generalize hstar : Regex.star (.char allowed) = r at h
    induction h with
    | starNil => exact ⟨fun c hc => absurd hc List.not_mem_nil, rfl⟩
    | starCons hbody hrest _ ih =>
        obtain rfl := Regex.star.inj hstar
        obtain ⟨c, hc, rfl, rfl⟩ := matches_char_iff.1 hbody
        obtain ⟨hall, rfl⟩ := ih rfl
        exact ⟨List.forall_mem_cons.2 ⟨hc, hall⟩, rfl⟩
    | _ => cases hstar
  case mpr =>
    rintro ⟨hall, rfl⟩
    induction s with
    | nil => exact .starNil
    | cons c rest ih =>
        obtain ⟨hc, hrest⟩ := List.forall_mem_cons.1 hall
        exact .starCons (.char hc) (ih hrest)

theorem matches_plus_char_iff {allowed : α → Bool} {s : List α} {g : Groups α} :
    Matches (plus (.char allowed)) s g ↔ IsWord allowed s ∧ g = [] := by
  rw [plus, matches_seq_iff]
  constructor
  · rintro ⟨s₁, g₁, s₂, g₂, hfirst, hsecond, rfl, rfl⟩
    obtain ⟨c, hc, rfl, rfl⟩ := matches_char_iff.1 hfirst
    obtain ⟨hall, rfl⟩ := matches_star_char_iff.1 hsecond
    exact ⟨⟨List.cons_ne_nil _ _, List.forall_mem_cons.2 ⟨hc, hall⟩⟩, rfl⟩
  · rintro ⟨⟨hne, hall⟩, rfl⟩
    obtain ⟨c, rest, rfl⟩ := List.exists_cons_of_ne_nil hne
    obtain ⟨hc, hrest⟩ := List.forall_mem_cons.1 hall
    exact ⟨[c], [], rest, [], .char hc, matches_star_char_iff.2 ⟨hrest, rfl⟩, rfl, rfl⟩

section Separated

variable [DecidableEq α] {separator : α} {allowed allowedFirst : α → Bool}

/-- Words behind a separator each. -/
theorem matches_star_separated_iff {s : List α} {g : Groups α} :
    Matches (.star (.seq (.char (· = separator)) (plus (.char allowed)))) s g ↔
      ∃ words : List (List α), (∀ word ∈ words, IsWord allowed word) ∧
        s = words.flatMap (separator :: ·) ∧ g = [] := by
  constructor
  case mp =>
    intro h
    generalize hstar : Regex.star _ = r at h
    induction h with
    | starNil => exact ⟨[], fun word hword => absurd hword List.not_mem_nil, rfl, rfl⟩
    | starCons hbody hrest _ ih =>
        obtain rfl := Regex.star.inj hstar
        obtain ⟨s₁, g₁, word, g₂, hseparator, hplus, rfl, rfl⟩ := matches_seq_iff.1 hbody
        obtain ⟨c, hc, rfl, rfl⟩ := matches_char_iff.1 hseparator
        obtain ⟨hword, rfl⟩ := matches_plus_char_iff.1 hplus
        obtain ⟨words, hwords, rfl, rfl⟩ := ih rfl
        obtain rfl := of_decide_eq_true hc
        exact ⟨word :: words, List.forall_mem_cons.2 ⟨hword, hwords⟩, rfl, rfl⟩
    | _ => cases hstar
  case mpr =>
    rintro ⟨words, hwords, rfl, rfl⟩
    induction words with
    | nil => exact .starNil
    | cons word rest ih =>
        obtain ⟨hword, hrest⟩ := List.forall_mem_cons.1 hwords
        have hbody : Matches (.seq (.char (· = separator)) (plus (.char allowed)))
            (separator :: word) [] :=
          .seq (.char (by simp)) (matches_plus_char_iff.2 ⟨hword, rfl⟩)
        exact .starCons hbody (ih hrest)

/-- A list of words with separators between them. -/
theorem matches_separated_iff {s : List α} {g : Groups α} :
    Matches (.seq (plus (.char allowedFirst))
        (.star (.seq (.char (· = separator)) (plus (.char allowed))))) s g ↔
      ∃ first rest, IsWord allowedFirst first ∧ (∀ word ∈ rest, IsWord allowed word) ∧
        s = joinWords separator first rest ∧ g = [] := by
  rw [matches_seq_iff]
  constructor
  · rintro ⟨first, g₁, s₂, g₂, hplus, hrest, rfl, rfl⟩
    obtain ⟨hfirst, rfl⟩ := matches_plus_char_iff.1 hplus
    obtain ⟨rest, hwords, rfl, rfl⟩ := matches_star_separated_iff.1 hrest
    exact ⟨first, rest, hfirst, hwords, rfl, rfl⟩
  · rintro ⟨first, rest, hfirst, hwords, rfl, rfl⟩
    exact ⟨first, [], _, [], matches_plus_char_iff.2 ⟨hfirst, rfl⟩,
      matches_star_separated_iff.2 ⟨rest, hwords, rfl, rfl⟩, rfl, rfl⟩

end Separated

end Regex
