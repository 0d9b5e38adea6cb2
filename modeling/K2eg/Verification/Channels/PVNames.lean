import K2eg.Foundation.Regex
import K2eg.Model.CommandWorkers

/-! # PV identifiers and the regular expression

The parts of an accepted identifier are the groups of the regular expression, and recompose to the
identifier. The expression accepts one protocol more than the providers there are. -/

namespace K2eg

open Regex

/-! ## Texts between separators -/

theorem segments_ne_nil (separator : Char) (text : List Char) : segments separator text ≠ [] := by
  cases text with
  | nil => exact List.cons_ne_nil _ _
  | cons c rest =>
      rw [segments]
      split
      · exact List.cons_ne_nil _ _
      · split <;> exact List.cons_ne_nil _ _

/-- The segments are the words that the text joins. -/
theorem segments_eq_iff {separator : Char} {text first : List Char} {rest : List (List Char)} :
    segments separator text = first :: rest ↔
      text = joinWords separator first rest ∧ separator ∉ first ∧
        ∀ word ∈ rest, separator ∉ word := by
  induction text generalizing first rest with
  | nil =>
      rw [segments, List.cons.injEq]
      constructor
      · rintro ⟨rfl, rfl⟩
        exact ⟨rfl, List.not_mem_nil, fun word hword => absurd hword List.not_mem_nil⟩
      · rintro ⟨hjoin, -, -⟩
        obtain ⟨hfirst, hrest⟩ := List.append_eq_nil_iff.1 hjoin.symm
        refine ⟨hfirst.symm, ?_⟩
        cases rest with
        | nil => rfl
        | cons word rest => cases hrest
  | cons c text ih =>
      rw [segments]
      by_cases hc : c = separator
      · subst hc
        rw [if_pos rfl, List.cons.injEq]
        constructor
        · rintro ⟨rfl, rfl⟩
          obtain ⟨word, words, hwords⟩ := List.exists_cons_of_ne_nil (segments_ne_nil c text)
          obtain ⟨hjoin, hword, hrest⟩ := ih.1 hwords
          rw [hwords]
          exact ⟨by rw [hjoin]; rfl, List.not_mem_nil, List.forall_mem_cons.2 ⟨hword, hrest⟩⟩
        · rintro ⟨hjoin, hfirst, hrest⟩
          cases first with
          | cons d first =>
              obtain ⟨rfl, -⟩ := List.cons.inj hjoin
              exact absurd List.mem_cons_self hfirst
          | nil =>
              cases rest with
              | nil => cases hjoin
              | cons word rest =>
                  obtain ⟨-, htext⟩ := List.cons.inj hjoin
                  obtain ⟨hword, hrest⟩ := List.forall_mem_cons.1 hrest
                  exact ⟨rfl, ih.2 ⟨htext, hword, hrest⟩⟩
      · rw [if_neg hc]
        obtain ⟨word, words, hwords⟩ := List.exists_cons_of_ne_nil (segments_ne_nil separator text)
        rw [hwords]
        obtain ⟨hjoin, hword, hrest⟩ := ih.1 hwords
        constructor
        · intro h
          obtain ⟨rfl, rfl⟩ := List.cons.inj h
          refine ⟨by rw [hjoin]; rfl, ?_, hrest⟩
          exact fun hmem => (List.mem_cons.1 hmem).elim (fun heq => hc heq.symm) hword
        · rintro ⟨htext, hfirst, hothers⟩
          cases first with
          | nil =>
              cases rest with
              | nil => cases htext
              | cons other rest =>
                  obtain ⟨rfl, -⟩ := List.cons.inj htext
                  exact absurd rfl hc
          | cons d first =>
              obtain ⟨rfl, htail⟩ := List.cons.inj htext
              have hsegments := ih.2 ⟨htail, fun hmem => hfirst (List.mem_cons_of_mem _ hmem),
                hothers⟩
              obtain ⟨rfl, rfl⟩ := List.cons.inj (hwords.symm.trans hsegments)
              rfl

theorem isSegment_iff {allowed : Char → Bool} {text : List Char} :
    isSegment allowed text = true ↔ IsWord allowed text := by
  rw [isSegment, Bool.and_eq_true, List.all_eq_true, IsWord]
  cases text <;> simp

/-! ## The grammar -/

/-- `[a-zA-Z0-9-_]+(?::[a-zA-Z0-9-_]+)*` -/
def IsName (text : List Char) : Prop :=
  ∃ first rest, IsWord isNameChar first ∧ (∀ word ∈ rest, IsWord isNameChar word) ∧
    text = joinWords ':' first rest

/-- `[a-zA-Z0-9-_]+(?:\.[a-zA-Z0-9_]+)*` -/
def IsField (text : List Char) : Prop :=
  ∃ first rest, IsWord isNameChar first ∧ (∀ word ∈ rest, IsWord isFieldChar word) ∧
    text = joinWords '.' first rest

theorem isBaseName_iff {text : List Char} : isBaseName text = true ↔ IsName text := by
  rw [isBaseName, List.all_eq_true]
  constructor
  · intro hall
    obtain ⟨first, rest, hsegments⟩ := List.exists_cons_of_ne_nil (segments_ne_nil ':' text)
    rw [hsegments] at hall
    obtain ⟨hfirst, hrest⟩ := List.forall_mem_cons.1 hall
    exact ⟨first, rest, isSegment_iff.1 hfirst,
      fun word hword => isSegment_iff.1 (hrest word hword), (segments_eq_iff.1 hsegments).1⟩
  · rintro ⟨first, rest, hfirst, hrest, htext⟩
    have hsegments : segments ':' text = first :: rest :=
      segments_eq_iff.2 ⟨htext, hfirst.not_mem (by decide),
        fun word hword => (hrest word hword).not_mem (by decide)⟩
    rw [hsegments]
    exact List.forall_mem_cons.2 ⟨isSegment_iff.2 hfirst,
      fun word hword => isSegment_iff.2 (hrest word hword)⟩

theorem isFieldName_iff {text : List Char} : isFieldName text = true ↔ IsField text := by
  obtain ⟨first, rest, hsegments⟩ := List.exists_cons_of_ne_nil (segments_ne_nil '.' text)
  rw [isFieldName, hsegments]
  simp only [Bool.and_eq_true, List.all_eq_true]
  constructor
  · rintro ⟨hfirst, hrest⟩
    exact ⟨first, rest, isSegment_iff.1 hfirst,
      fun word hword => isSegment_iff.1 (hrest word hword), (segments_eq_iff.1 hsegments).1⟩
  · rintro ⟨other, others, hother, hothers, htext⟩
    have hsame : segments '.' text = other :: others :=
      segments_eq_iff.2 ⟨htext, hother.not_mem (by decide),
        fun word hword => (hothers word hword).not_mem (by decide)⟩
    obtain ⟨rfl, rfl⟩ := List.cons.inj (hsegments.symm.trans hsame)
    exact ⟨isSegment_iff.2 hother, fun word hword => isSegment_iff.2 (hothers word hword)⟩

/-- The dot and the name of a field, where there is one. -/
def fieldPart : Option (List Char) → List Char
  | none => []
  | some field => '.' :: field

/-- The identifier is written with one of the protocols, a name and a field that may be absent. -/
structure Written (protocols : List String) (uri protocol : String) (name : List Char)
    (field : Option (List Char)) : Prop where
  protocol_mem : protocol ∈ protocols
  isName : IsName name
  isField : ∀ text, field = some text → IsField text
  recompose : uri.toList = protocol.toList ++ "://".toList ++ name ++ fieldPart field

/-- The PV of such an identifier. -/
def writtenPV (protocol : String) (name : List Char) (field : Option (List Char)) : PV where
  protocol
  name := String.ofList name
  fieldName := match field with
    | none => "value"
    | some text => String.ofList text

/-- The protocols that `(pva?|ca)` matches. -/
def regexProtocols : List String := ["pva", "pv", "ca"]

theorem splitProtocol_eq_some_iff {text rest : List Char} {protocol : String} :
    splitProtocol text = some (protocol, rest) ↔
      protocol ∈ regexProtocols ∧ text = protocol.toList ++ "://".toList ++ rest := by
  simp only [regexProtocols, List.mem_cons, List.not_mem_nil, or_false]
  constructor
  · intro h
    unfold splitProtocol at h
    split at h
    · obtain ⟨rfl, rfl⟩ := Prod.mk.inj (Option.some.inj h)
      exact ⟨.inl rfl, rfl⟩
    · obtain ⟨rfl, rfl⟩ := Prod.mk.inj (Option.some.inj h)
      exact ⟨.inr (.inl rfl), rfl⟩
    · obtain ⟨rfl, rfl⟩ := Prod.mk.inj (Option.some.inj h)
      exact ⟨.inr (.inr rfl), rfl⟩
    · cases h
  · rintro ⟨rfl | rfl | rfl, rfl⟩ <;> rfl

theorem Written.splitProtocol_eq {uri protocol : String} {name : List Char}
    {field : Option (List Char)} (h : Written regexProtocols uri protocol name field) :
    splitProtocol uri.toList = some (protocol, name ++ fieldPart field) :=
  splitProtocol_eq_some_iff.2 ⟨h.protocol_mem, by rw [h.recompose, List.append_assoc _ name]⟩

/-- No character of a name is a dot. -/
theorem IsName.not_dot {name : List Char} (h : IsName name) : ∀ c ∈ name, (c != '.') = true := by
  obtain ⟨first, rest, hfirst, hrest, rfl⟩ := h
  intro c hc
  refine bne_iff_ne.2 ?_
  rintro rfl
  rcases List.mem_append.1 hc with hc | hc
  · exact hfirst.not_mem (by decide) hc
  · obtain ⟨word, hword, hc⟩ := List.mem_flatMap.1 hc
    rcases List.mem_cons.1 hc with heq | hc
    · revert heq
      decide
    · exact (hrest word hword).not_mem (by decide) hc

theorem takeWhile_name {name : List Char} (h : IsName name) (field : Option (List Char)) :
    (name ++ fieldPart field).takeWhile (· != '.') = name ∧
      (name ++ fieldPart field).dropWhile (· != '.') = fieldPart field := by
  have htake : (fieldPart field).takeWhile (· != '.') = [] := by cases field <;> rfl
  have hdrop : (fieldPart field).dropWhile (· != '.') = fieldPart field := by cases field <;> rfl
  constructor
  · rw [List.takeWhile_append_of_pos h.not_dot, htake, List.append_nil]
  · rw [List.dropWhile_append_of_pos h.not_dot, hdrop]

/-- The first dot divides a text into a part without dots and a part that begins with one. -/
theorem exists_fieldPart (rest : List Char) :
    ∃ field, rest.dropWhile (· != '.') = fieldPart field ∧
      rest = rest.takeWhile (· != '.') ++ fieldPart field := by
  have hparts := (List.takeWhile_append_dropWhile (p := (· != '.')) (l := rest)).symm
  cases hdrop : rest.dropWhile (· != '.') with
  | nil =>
      rw [hdrop] at hparts
      exact ⟨none, rfl, hparts⟩
  | cons c field =>
      have hhead := List.head?_dropWhile_not (· != '.') rest
      rw [hdrop] at hhead hparts
      obtain rfl : c = '.' := by simpa using hhead
      exact ⟨some field, rfl, hparts⟩

/-- What the parser accepts, and the PV that it returns. -/
theorem sanitizePVName_eq_some_iff {uri : String} {pv : PV} :
    sanitizePVName uri = some pv ↔
      ∃ protocol name field, Written regexProtocols uri protocol name field ∧
        pv = writtenPV protocol name field := by
  constructor
  case mp =>
    intro h
    rw [sanitizePVName] at h
    split at h
    case h_1 => cases h
    case h_2 protocol rest hsplit =>
      obtain ⟨hprotocol, huri⟩ := splitProtocol_eq_some_iff.1 hsplit
      obtain ⟨field, hdrop, hrest⟩ := exists_fieldPart rest
      simp only [hdrop] at h
      split at h
      case isFalse => cases h
      case isTrue hbase =>
        have hrecompose : uri.toList = protocol.toList ++ "://".toList ++
            rest.takeWhile (· != '.') ++ fieldPart field := by
          rw [huri, List.append_assoc _ _ (fieldPart field), ← hrest]
        have hname := isBaseName_iff.1 hbase
        cases field with
        | none =>
            obtain rfl := Option.some.inj h
            exact ⟨protocol, _, none,
              ⟨hprotocol, hname, fun _ hsome => (by cases hsome), hrecompose⟩, rfl⟩
        | some text =>
            simp only [fieldPart] at h
            split at h
            case isFalse => cases h
            case isTrue hfield =>
              obtain rfl := Option.some.inj h
              refine ⟨protocol, _, some text, ⟨hprotocol, hname, ?_, hrecompose⟩, rfl⟩
              intro other hother
              obtain rfl := Option.some.inj hother
              exact isFieldName_iff.1 hfield
  case mpr =>
    rintro ⟨protocol, name, field, ⟨hprotocol, hname, hfield, huri⟩, rfl⟩
    obtain ⟨htake, hdrop⟩ := takeWhile_name hname field
    rw [sanitizePVName, Written.splitProtocol_eq ⟨hprotocol, hname, hfield, huri⟩]
    simp only [htake, hdrop, isBaseName_iff.2 hname, if_true]
    cases field with
    | none => rfl
    | some text =>
        simp only [fieldPart, isFieldName_iff.2 (hfield text rfl), if_true]
        rfl

/-! ## The regular expression -/

/-- `pv_name_regex` -/
def pvNameRegex : Regex Char :=
  .seq (.group 1 (.alt (.seq (literal ['p', 'v']) (opt (.char (· = 'a')))) (literal ['c', 'a'])))
    (.seq (literal "://".toList)
      (.seq (.group 2 (.seq (plus (.char isNameChar))
          (.star (.seq (.char (· = ':')) (plus (.char isNameChar))))))
        (opt (.group 3 (.seq (.char (· = '.')) (.group 4 (.seq (plus (.char isNameChar))
          (.star (.seq (.char (· = '.')) (plus (.char isFieldChar)))))))))))

/-- The PV that is made of the groups: the fourth one is the field, unless it is empty. -/
def matchedPV (groups : Groups Char) : PV where
  protocol := String.ofList (capture groups 1)
  name := String.ofList (capture groups 2)
  fieldName := if capture groups 4 = [] then "value" else String.ofList (capture groups 4)

theorem matches_protocol_iff {s : List Char} {g : Groups Char} :
    Matches (.alt (.seq (literal ['p', 'v']) (opt (.char (· = 'a')))) (literal ['c', 'a'])) s g ↔
      (∃ protocol ∈ regexProtocols, s = protocol.toList) ∧ g = [] := by
  simp only [regexProtocols, List.mem_cons, List.not_mem_nil, or_false, exists_eq_or_imp,
    exists_eq_left]
  rw [matches_alt_iff, matches_literal_iff, matches_seq_iff]
  constructor
  · rintro (⟨s₁, g₁, s₂, g₂, hfirst, hsecond, rfl, rfl⟩ | ⟨rfl, rfl⟩)
    · obtain ⟨rfl, rfl⟩ := matches_literal_iff.1 hfirst
      rcases matches_opt_iff.1 hsecond with hchar | ⟨rfl, rfl⟩
      · obtain ⟨c, hc, rfl, rfl⟩ := matches_char_iff.1 hchar
        obtain rfl := of_decide_eq_true hc
        exact ⟨.inl rfl, rfl⟩
      · exact ⟨.inr (.inl rfl), rfl⟩
    · exact ⟨.inr (.inr rfl), rfl⟩
  · rintro ⟨rfl | rfl | rfl, rfl⟩
    · exact .inl ⟨['p', 'v'], [], ['a'], [], matches_literal_iff.2 ⟨rfl, rfl⟩,
        matches_opt_iff.2 (.inl (.char (by decide))), rfl, rfl⟩
    · exact .inl ⟨['p', 'v'], [], [], [], matches_literal_iff.2 ⟨rfl, rfl⟩,
        matches_opt_iff.2 (.inr ⟨rfl, rfl⟩), rfl, rfl⟩
    · exact .inr ⟨rfl, rfl⟩

/-- The third group is the field part, and the fourth one the field in it. -/
def fieldGroups : Option (List Char) → Groups Char
  | none => []
  | some field => [(4, field), (3, '.' :: field)]

theorem matches_field_iff {s : List Char} {g : Groups Char} :
    Matches (opt (.group 3 (.seq (.char (· = '.')) (.group 4 (.seq (plus (.char isNameChar))
        (.star (.seq (.char (· = '.')) (plus (.char isFieldChar))))))))) s g ↔
      ∃ field, (∀ text, field = some text → IsField text) ∧ s = fieldPart field ∧
        g = fieldGroups field := by
  rw [matches_opt_iff, matches_group_iff]
  constructor
  · rintro (⟨k, hseq, rfl⟩ | ⟨rfl, rfl⟩)
    · obtain ⟨s₁, g₁, text, g₂, hdot, hfield, rfl, rfl⟩ := matches_seq_iff.1 hseq
      obtain ⟨c, hc, rfl, rfl⟩ := matches_char_iff.1 hdot
      obtain rfl := of_decide_eq_true hc
      obtain ⟨k, hwords, rfl⟩ := matches_group_iff.1 hfield
      obtain ⟨first, rest, hfirst, hrest, htext, rfl⟩ := matches_separated_iff.1 hwords
      refine ⟨some text, fun other hother => ?_, rfl, rfl⟩
      obtain rfl := Option.some.inj hother
      exact ⟨first, rest, hfirst, hrest, htext⟩
    · exact ⟨none, fun _ hsome => (by cases hsome), rfl, rfl⟩
  · rintro ⟨field, hfield, rfl, rfl⟩
    cases field with
    | none => exact .inr ⟨rfl, rfl⟩
    | some text =>
        obtain ⟨first, rest, hfirst, hrest, htext⟩ := hfield text rfl
        have hwords := matches_separated_iff.2 ⟨first, rest, hfirst, hrest, htext, rfl⟩
        exact .inl ⟨_, .seq (.char (by decide)) (.group hwords), rfl⟩

/-- The matches of the expression are the ways to write the text, with their parts as groups. -/
theorem matches_pvNameRegex_iff {uri : String} {g : Groups Char} :
    Matches pvNameRegex uri.toList g ↔
      ∃ protocol name field, Written regexProtocols uri protocol name field ∧
        g = [(1, protocol.toList), (2, name)] ++ fieldGroups field := by
  rw [pvNameRegex, matches_seq_iff]
  constructor
  case mp =>
    rintro ⟨s₁, g₁, s₂, g₂, hprotocol, hrest, huri, rfl⟩
    obtain ⟨k, halternatives, rfl⟩ := matches_group_iff.1 hprotocol
    obtain ⟨⟨protocol, hmem, rfl⟩, rfl⟩ := matches_protocol_iff.1 halternatives
    obtain ⟨s₃, g₃, s₄, g₄, hslashes, hparts, rfl, rfl⟩ := matches_seq_iff.1 hrest
    obtain ⟨rfl, rfl⟩ := matches_literal_iff.1 hslashes
    obtain ⟨name, g₅, s₆, g₆, hgroup, hoptional, rfl, rfl⟩ := matches_seq_iff.1 hparts
    obtain ⟨k, hseparated, rfl⟩ := matches_group_iff.1 hgroup
    obtain ⟨first, rest, hfirst, hwords, hname, rfl⟩ := matches_separated_iff.1 hseparated
    obtain ⟨field, hfield, rfl, rfl⟩ := matches_field_iff.1 hoptional
    refine ⟨protocol, name, field, ⟨hmem, ⟨first, rest, hfirst, hwords, hname⟩, hfield, ?_⟩, rfl⟩
    rw [huri, List.append_assoc, List.append_assoc]
  case mpr =>
    rintro ⟨protocol, name, field, hwritten, rfl⟩
    obtain ⟨first, rest, hfirst, hwords, hname⟩ := hwritten.isName
    have hnameGroup := matches_separated_iff.2 ⟨first, rest, hfirst, hwords, hname, rfl⟩
    have hfieldGroup := matches_field_iff.2 ⟨field, hwritten.isField, rfl, rfl⟩
    refine ⟨protocol.toList, _, _, _,
      .group (matches_protocol_iff.2 ⟨⟨protocol, hwritten.protocol_mem, rfl⟩, rfl⟩),
      .seq (matches_literal_iff.2 ⟨rfl, rfl⟩) (.seq (.group hnameGroup) hfieldGroup), ?_, rfl⟩
    rw [hwritten.recompose, List.append_assoc, List.append_assoc]

/-- The groups of a match give the PV that the parser returns. -/
theorem matchedPV_eq {protocol : String} {name : List Char} {field : Option (List Char)}
    (hfield : ∀ text, field = some text → IsField text) :
    matchedPV ([(1, protocol.toList), (2, name)] ++ fieldGroups field) =
      writtenPV protocol name field := by
  cases field with
  | none => simp [matchedPV, writtenPV, fieldGroups, capture, List.lookup_cons]
  | some text =>
      obtain ⟨first, rest, hfirst, -, rfl⟩ := hfield text rfl
      have hne : joinWords '.' first rest ≠ [] := fun hnil =>
        hfirst.1 (List.append_eq_nil_iff.1 hnil).1
      simp [matchedPV, writtenPV, fieldGroups, capture, List.lookup_cons, hne]

/-- The parser is `regex_match` with the expression, and its groups taken by their numbers. -/
theorem sanitizePVName_eq_some_iff_matches {uri : String} {pv : PV} :
    sanitizePVName uri = some pv ↔
      ∃ groups, Matches pvNameRegex uri.toList groups ∧ pv = matchedPV groups := by
  rw [sanitizePVName_eq_some_iff]
  constructor
  · rintro ⟨protocol, name, field, hwritten, rfl⟩
    exact ⟨_, matches_pvNameRegex_iff.2 ⟨protocol, name, field, hwritten, rfl⟩,
      (matchedPV_eq hwritten.isField).symm⟩
  · rintro ⟨groups, hmatches, rfl⟩
    obtain ⟨protocol, name, field, hwritten, rfl⟩ := matches_pvNameRegex_iff.1 hmatches
    exact ⟨protocol, name, field, hwritten, matchedPV_eq hwritten.isField⟩

/-! ## The documented identifiers -/

/-- The protocols of the two providers. -/
def providerProtocols : List String := ["pva", "ca"]

/-- A PV is returned exactly for the documented identifiers, it has their parts, and its provider is
the one of its protocol. -/
structure Sanitizes (uri : String) : Prop where
  returned : ∀ pv, sanitizePVName uri = some pv → ∃ name field,
    Written providerProtocols uri pv.protocol name field ∧
      pv = writtenPV pv.protocol name field ∧ selectProvider pv.protocol = pv.protocol
  null : sanitizePVName uri = none → ∀ protocol name field,
    ¬ Written providerProtocols uri protocol name field

theorem Written.mono {protocols others : List String} (hsub : protocols ⊆ others)
    {uri protocol : String} {name : List Char} {field : Option (List Char)}
    (h : Written protocols uri protocol name field) : Written others uri protocol name field :=
  { h with protocol_mem := hsub h.protocol_mem }

/-- The identifiers that are not treated as documented are those that begin with `pv://`. -/
theorem sanitizes_iff (uri : String) :
    Sanitizes uri ↔ ¬ ∃ name field, Written ["pv"] uri "pv" name field := by
  have hpv : (["pv"] : List String) ⊆ regexProtocols := by decide
  have hproviders : providerProtocols ⊆ regexProtocols := by decide
  constructor
  case mp =>
    rintro h ⟨name, field, hwritten⟩
    have hsome := sanitizePVName_eq_some_iff.2 ⟨"pv", name, field, hwritten.mono hpv, rfl⟩
    obtain ⟨other, otherField, hother, -, -⟩ := h.returned _ hsome
    exact absurd hother.protocol_mem (show "pv" ∉ providerProtocols by decide)
  case mpr =>
    intro hnot
    constructor
    case returned =>
      intro pv hpv
      obtain ⟨protocol, name, field, hwritten, rfl⟩ := sanitizePVName_eq_some_iff.1 hpv
      have hprotocol := hwritten.protocol_mem
      simp only [regexProtocols, List.mem_cons, List.not_mem_nil, or_false] at hprotocol
      rcases hprotocol with rfl | rfl | rfl
      · exact ⟨name, field,
          { hwritten with protocol_mem := show "pva" ∈ providerProtocols by decide }, rfl,
          show selectProvider "pva" = "pva" by decide⟩
      · exact absurd ⟨name, field, { hwritten with protocol_mem := by decide }⟩ hnot
      · exact ⟨name, field,
          { hwritten with protocol_mem := show "ca" ∈ providerProtocols by decide }, rfl,
          show selectProvider "ca" = "ca" by decide⟩
    case null =>
      intro hnone protocol name field hwritten
      have hsome := sanitizePVName_eq_some_iff.2
        ⟨protocol, name, field, hwritten.mono hproviders, rfl⟩
      rw [hnone] at hsome
      cases hsome

/-- `pv://a` is accepted, with a protocol that is none of the two, and goes to the provider of the
other one. -/
theorem not_sanitizes_pv :
    ¬ Sanitizes "pv://a" ∧ sanitizePVName "pv://a" = some ⟨"pv", "a", "value"⟩ ∧
      selectProvider "pv" = "ca" := by
  have hsome : sanitizePVName "pv://a" = some ⟨"pv", "a", "value"⟩ := by decide
  refine ⟨fun h => ?_, hsome, by decide⟩
  obtain ⟨name, field, hwritten, -, -⟩ := h.returned _ hsome
  have hmem := hwritten.protocol_mem
  revert hmem
  decide

end K2eg
