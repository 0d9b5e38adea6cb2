import K2eg.Foundation.Base64
import K2eg.Verification.Commands.Replies

/-! # The values of put commands

Which texts `Base64::decode` takes for the value of a put. It looks at every character before it
decodes, but neither at the place of the padding nor at the length. -/

namespace K2eg

open Msgpack (Object)

/-- What `boost::beast` documents: `decode` stops at the first character that is no digit, a `=`
included, and returns the bytes so far. -/
structure Base64Library.Documented (library : Base64Library) : Prop where
  decodedSize : ∀ n, library.decodedSize n = n / 4 * 3
  encodedSize : ∀ n, library.encodedSize n = 4 * ((n + 2) / 3)
  decode : ∀ text, library.decode text = Base64.decode text.toList
  encode : ∀ data, library.encode data = .ofList (Base64.encode data)

/-- A value is decoded to nothing, or to the bytes that it is the text of; a put of any other
value is refused before it is unpacked. -/
structure RefusesDamaged (library : Base64Library) (value : String) : Prop where
  canonical : ∃ data, base64Decode library.toBase64Codec value = .ok data ∧
    (data ≠ [] → base64Encode library data = .ok value)
  refused : ∀ (unpack : List UInt8 → Except Failure Object) (cmd : PutCommand) (now : Int)
    (polls : List (Poll OperationNotice)), cmd.value = value →
      (∀ data, data ≠ [] → base64Encode library data ≠ .ok value) →
        PutCommandWorker.processCommand library.toBase64Codec unpack cmd now polls =
          some (PutCommandWorker.manageReply (-1)
            "Base64 decode error during put command processing" cmd)

/-- The value has a character that is neither a digit nor padding, fewer than four characters, at
most one digit before the first padding, or the form of a base64 text. -/
inductive Distinguished (value : String) : Prop where
  | foreign {c : Char} (mem : c ∈ value.toList) (invalid : isValidBase64Char c = false)
  | short (length : value.length < 4)
  | bare (digits : (value.toList.takeWhile fun c => c != '=').length ≤ 1)
  | canonical (text : Base64.Canonical value.toList)

/-! ## Characters -/

theorem isValidBase64Char_iff {c : Char} :
    isValidBase64Char c = true ↔ (Base64.value? c).isSome = true ∨ c = '=' := by
  change (c.isUpper || c.isLower || c.isDigit || c == '+' || c == '/' || c == '=') = true ↔ _
  rw [Base64.value?]
  simp only [Bool.or_eq_true, beq_iff_eq]
  split_ifs <;> simp_all

/-- A valid character is one byte. -/
theorem utf8Size_of_valid {c : Char} (h : isValidBase64Char c = true) : c.utf8Size = 1 := by
  rw [Char.utf8Size_eq_one_iff, UInt32.le_iff_toNat_le]
  change c.toNat ≤ 127
  rcases isValidBase64Char_iff.1 h with hdigit | rfl
  · obtain ⟨v, hv⟩ := Option.isSome_iff_exists.mp hdigit
    rw [← Base64.digit_of_value? hv]
    exact (by decide : ∀ v < 64, (Base64.digit v).toNat ≤ 127) v (Base64.value?_lt hv)
  · decide

theorem utf8ByteSize_of_valid {text : List Char} (h : ∀ c ∈ text, isValidBase64Char c = true) :
    (String.ofList text).utf8ByteSize = text.length := by
  induction text with
  | nil => rfl
  | cons c rest ih =>
      rw [← List.singleton_append, String.ofList_append, String.utf8ByteSize_append,
        ih fun other hmem => h other (List.mem_cons_of_mem c hmem), ← String.singleton_eq_ofList,
        String.utf8ByteSize_singleton, utf8Size_of_valid (h c List.mem_cons_self),
        List.length_append, List.length_singleton]

/-- The digits of a valid text go on up to the first padding. -/
theorem length_values_of_valid {text : List Char} (h : ∀ c ∈ text, isValidBase64Char c = true) :
    (Base64.values text).length = (text.takeWhile fun c => c != '=').length := by
  induction text with
  | nil => rfl
  | cons c rest ih =>
      have hrest := ih fun other hmem => h other (List.mem_cons_of_mem c hmem)
      by_cases hpad : c = '='
      · subst hpad
        rw [Base64.values_pad, List.takeWhile_cons_of_neg (by simp)]
        rfl
      · have hdigit := (isValidBase64Char_iff.1 (h c List.mem_cons_self)).resolve_right hpad
        obtain ⟨v, hv⟩ := Option.isSome_iff_exists.mp hdigit
        rw [Base64.values_cons hv, List.takeWhile_cons_of_pos (by simpa using hpad),
          List.length_cons, List.length_cons, hrest]

/-! ## Decoding and encoding -/

theorem base64Decode_of_foreign (codec : Base64Codec) {value : String} {c : Char}
    (hmem : c ∈ value.toList) (hinvalid : isValidBase64Char c = false) :
    base64Decode codec value = .ok [] := by
  have hall : (!value.toList.all isValidBase64Char) = true := by
    rw [Bool.not_eq_true', List.all_eq_false]
    exact ⟨c, hmem, by simp [hinvalid]⟩
  rw [base64Decode, if_pos hall, ite_self]

/-- The bytes of the digits, unless they are more than the vector of the decoded size has room
for. -/
theorem base64Decode_of_valid {library : Base64Library} (hlibrary : library.Documented)
    {value : String} (hvalid : ∀ c ∈ value.toList, isValidBase64Char c = true) :
    base64Decode library.toBase64Codec value =
    if value.length / 4 = 0 then .ok []
    else if value.length / 4 * 3 < (Base64.decode value.toList).length then .error .undefined
    else .ok (Base64.decode value.toList) := by
  have hsize : value.utf8ByteSize = value.length := by
    have := utf8ByteSize_of_valid hvalid
    rwa [String.ofList_toList, String.length_toList] at this
  have hall : ¬(!value.toList.all isValidBase64Char) = true := by
    rw [Bool.not_eq_true', Bool.not_eq_false, List.all_eq_true]
    exact hvalid
  rw [base64Decode, if_neg hall, hlibrary.decodedSize, hlibrary.decode, hsize]
  by_cases hempty : value = ""
  · subst hempty
    rfl
  · rw [if_neg hempty]
    simp

theorem base64Encode_eq {library : Base64Library} (hlibrary : library.Documented)
    {data : List UInt8} (hdata : data ≠ []) :
    base64Encode library data = .ok (.ofList (Base64.encode data)) := by
  have hvalid : ∀ c ∈ Base64.encode data, isValidBase64Char c = true := fun c hmem =>
    isValidBase64Char_iff.2 ((Base64.canonical_encode data).digits_or_pad c hmem)
  rw [base64Encode, if_neg hdata, hlibrary.encode, hlibrary.encodedSize,
    utf8ByteSize_of_valid hvalid, Base64.length_encode, if_neg (by omega)]

/-- What `Base64::encode` gives is decoded to the bytes that it was given. -/
theorem base64Decode_encode {library : Base64Library} (hlibrary : library.Documented)
    {data : List UInt8} (hdata : data ≠ []) :
    (base64Encode library data).bind (base64Decode library.toBase64Codec) = .ok data := by
  have hcanonical := Base64.canonical_encode data
  have hlength := Base64.length_encode data
  have hpos := List.length_pos_iff.mpr hdata
  have hvalid : ∀ c ∈ (String.ofList (Base64.encode data)).toList,
      isValidBase64Char c = true := fun c hmem => by
    rw [String.toList_ofList] at hmem
    exact isValidBase64Char_iff.2 (hcanonical.digits_or_pad c hmem)
  rw [base64Encode_eq hlibrary hdata]
  refine (base64Decode_of_valid hlibrary hvalid).trans ?_
  rw [String.toList_ofList, Base64.decode_encode, ← String.length_toList, String.toList_ofList,
    hlength, if_neg (by omega), if_neg (by omega)]

/-! ## Damaged texts -/

/-- A put whose value is decoded to nothing is refused. -/
theorem refused_of_nil {codec : Base64Codec} {cmd : PutCommand}
    (h : base64Decode codec cmd.value = .ok [])
    (unpack : List UInt8 → Except Failure Object) (now : Int)
    (polls : List (Poll OperationNotice)) :
    PutCommandWorker.processCommand codec unpack cmd now polls =
      some (PutCommandWorker.manageReply (-1)
        "Base64 decode error during put command processing" cmd) := by
  rw [PutCommandWorker.processCommand, h]

theorem refusesDamaged_of_canonical {library : Base64Library} {value : String}
    (h : ∃ data, base64Decode library.toBase64Codec value = .ok data ∧
      (data ≠ [] → base64Encode library data = .ok value)) : RefusesDamaged library value := by
  refine ⟨h, fun unpack cmd now polls hvalue hnone => ?_⟩
  obtain ⟨data, hdecode, hencode⟩ := h
  have hnil : data = [] := by
    by_contra hdata
    exact hnone data hdata (hencode hdata)
  subst hvalue hnil
  exact refused_of_nil hdecode unpack now polls

/-- `Base64::decode` tells the damaged values of a put apart if and only if the value shows itself
as one, or has the form of a base64 text. -/
theorem refusesDamaged_iff {library : Base64Library} (hlibrary : library.Documented)
    (value : String) : RefusesDamaged library value ↔ Distinguished value := by
  by_cases hforeign : ∃ c ∈ value.toList, isValidBase64Char c = false
  · obtain ⟨c, hmem, hinvalid⟩ := hforeign
    refine iff_of_true (refusesDamaged_of_canonical ⟨[], ?_, fun h => absurd rfl h⟩)
      (.foreign hmem hinvalid)
    exact base64Decode_of_foreign _ hmem hinvalid
  have hvalid : ∀ c ∈ value.toList, isValidBase64Char c = true := fun c hmem => by
    by_contra hinvalid
    exact hforeign ⟨c, hmem, by simpa using hinvalid⟩
  have hdecode := base64Decode_of_valid hlibrary hvalid
  have hvalues := length_values_of_valid hvalid
  have hbytes := Base64.length_bytes (Base64.values value.toList)
  have hlength : value.toList.length = value.length := String.length_toList
  constructor
  · rintro ⟨⟨data, hdata, hencode⟩, -⟩
    by_cases hshort : value.length < 4
    · exact .short hshort
    by_cases hbare : (value.toList.takeWhile fun c => c != '=').length ≤ 1
    · exact .bare hbare
    rw [hdecode, if_neg (by omega)] at hdata
    split_ifs at hdata
    obtain rfl := Except.ok.inj hdata
    have hne : Base64.decode value.toList ≠ [] := by
      rw [← List.length_pos_iff, Base64.decode, hbytes, hvalues]
      omega
    have htext := hencode hne
    rw [base64Encode_eq hlibrary hne] at htext
    have heq := congrArg String.toList (Except.ok.inj htext)
    rw [String.toList_ofList] at heq
    exact .canonical (Base64.canonical_iff.2 heq)
  · intro h
    apply refusesDamaged_of_canonical
    by_cases hshort : value.length / 4 = 0
    · exact ⟨[], by rw [hdecode, if_pos hshort], fun h => absurd rfl h⟩
    rw [if_neg hshort] at hdecode
    cases h with
    | foreign mem invalid => exact absurd ⟨_, mem, invalid⟩ hforeign
    | short length => omega
    | bare digits =>
        have hnil : Base64.decode value.toList = [] := by
          rw [← List.length_eq_zero_iff, Base64.decode, hbytes, hvalues]
          omega
        rw [hnil, if_neg (by simp)] at hdecode
        exact ⟨[], hdecode, fun h => absurd rfl h⟩
    | canonical text =>
        have hroom := text.length_decode
        rw [if_neg (by omega)] at hdecode
        refine ⟨_, hdecode, fun hne => ?_⟩
        rw [base64Encode_eq hlibrary hne, Base64.encode_decode text, String.ofList_toList]

/-- `boost::beast::detail::base64`. -/
def beast : Base64Library where
  decodedSize n := n / 4 * 3
  encodedSize n := 4 * ((n + 2) / 3)
  decode text := Base64.decode text.toList
  encode data := .ofList (Base64.encode data)

theorem beast_documented : beast.Documented :=
  ⟨fun _ => rfl, fun _ => rfl, fun _ => rfl, fun _ => rfl⟩

/-- The text of the map `{"v": 42}`. -/
theorem refusesDamaged_map : RefusesDamaged beast "gaF2Kg==" := by
  refine (refusesDamaged_iff beast_documented "gaF2Kg==").2 (.canonical ?_)
  rw [Base64.canonical_iff]
  decide +kernel

/-- The text goes on behind its padding: the map is put all the same. -/
theorem not_refusesDamaged_padded :
    ¬ ∀ (library : Base64Library), library.Documented → ∀ value, RefusesDamaged library value := by
  intro hall
  obtain ⟨data, hdecode, hencode⟩ := (hall beast beast_documented "gaF2Kg==AAAA").canonical
  have hdata : base64Decode beast.toBase64Codec "gaF2Kg==AAAA" = .ok [0x81, 0xa1, 0x76, 0x2a] := by
    decide +kernel
  obtain rfl := Except.ok.inj (hdata.symm.trans hdecode)
  exact absurd (hencode (by simp)) (by decide +kernel)

end K2eg
