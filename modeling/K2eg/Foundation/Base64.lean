import Mathlib.Data.Nat.Notation
import Mathlib.Tactic.SplitIfs

/-! # Base64

The text of a list of bytes, with four digits for three bytes and a padded last block, and the
bytes that the leading digits of any text stand for. The canonical texts are those that bytes
are encoded to. -/

namespace Base64

variable {c : Char} {v : ℕ} {text : List Char}

/-! ## The alphabet -/

/-- The digit of a value below 64. -/
def digit (value : ℕ) : Char :=
  if value < 26 then .ofNat (value + 65)
  else if value < 52 then .ofNat (value + 71)
  else if value < 62 then .ofNat (value - 4)
  else if value = 62 then '+'
  else '/'

/-- The value of a digit. -/
def value? (c : Char) : Option ℕ :=
  if c.isUpper then some (c.toNat - 65)
  else if c.isLower then some (c.toNat - 71)
  else if c.isDigit then some (c.toNat + 4)
  else if c = '+' then some 62
  else if c = '/' then some 63
  else none

theorem isUpper_iff : c.isUpper = true ↔ 65 ≤ c.toNat ∧ c.toNat ≤ 90 := by
  change decide (c.val ≥ 'A'.val ∧ c.val ≤ 'Z'.val) = true ↔ _
  simp [UInt32.le_iff_toNat_le]

theorem isLower_iff : c.isLower = true ↔ 97 ≤ c.toNat ∧ c.toNat ≤ 122 := by
  change (decide (c.val ≥ 'a'.val) && decide (c.val ≤ 'z'.val)) = true ↔ _
  simp [UInt32.le_iff_toNat_le]

theorem isDigit_iff : c.isDigit = true ↔ 48 ≤ c.toNat ∧ c.toNat ≤ 57 :=
  Char.isDigit_iff_toNat

theorem value?_digit : ∀ v < 64, value? (digit v) = some v := by decide

theorem value?_lt (h : value? c = some v) : v < 64 := by
  rw [value?] at h
  split_ifs at h with hupper hlower hdigit
  · have := isUpper_iff.1 hupper
    have := Option.some.inj h
    omega
  · have := isLower_iff.1 hlower
    have := Option.some.inj h
    omega
  · have := isDigit_iff.1 hdigit
    have := Option.some.inj h
    omega
  · have := Option.some.inj h
    omega
  · have := Option.some.inj h
    omega

theorem digit_of_value? (h : value? c = some v) : digit v = c := by
  rw [value?] at h
  split_ifs at h with hupper hlower hdigit hplus hslash <;> obtain rfl := Option.some.inj h
  · have hrange := isUpper_iff.1 hupper
    rw [digit, if_pos (by omega), Nat.sub_add_cancel hrange.1, Char.ofNat_toNat]
  · have hrange := isLower_iff.1 hlower
    rw [digit, if_neg (by omega), if_pos (by omega), Nat.sub_add_cancel (by omega),
      Char.ofNat_toNat]
  · have hrange := isDigit_iff.1 hdigit
    rw [digit, if_neg (by omega), if_neg (by omega), if_pos (by omega), Nat.add_sub_cancel,
      Char.ofNat_toNat]
  · rw [hplus]
    rfl
  · rw [hslash]
    rfl

/-! ## Encoding and decoding -/

/-- The text of the bytes. -/
def encode : List UInt8 → List Char
  | [] => []
  | [x] => [digit (x.toNat / 4), digit (x.toNat % 4 * 16), '=', '=']
  | [x, y] =>
    [digit (x.toNat / 4), digit (x.toNat % 4 * 16 + y.toNat / 16), digit (y.toNat % 16 * 4), '=']
  | x :: y :: z :: rest =>
    digit (x.toNat / 4) :: digit (x.toNat % 4 * 16 + y.toNat / 16) ::
      digit (y.toNat % 16 * 4 + z.toNat / 64) :: digit (z.toNat % 64) :: encode rest

/-- The values of the digits up to the first character that is none. -/
def values : List Char → List ℕ
  | [] => []
  | c :: rest =>
    match value? c with
    | some v => v :: values rest
    | none => []

/-- The first byte of a block, of its first two values. -/
def firstByte (a b : ℕ) : UInt8 := .ofNat (a * 4 + b / 16)

def secondByte (b c : ℕ) : UInt8 := .ofNat (b % 16 * 16 + c / 4)

def thirdByte (c d : ℕ) : UInt8 := .ofNat (c % 4 * 64 + d)

/-- The bytes of the values; what is left of a last byte is dropped. -/
def bytes : List ℕ → List UInt8
  | a :: b :: c :: d :: rest => firstByte a b :: secondByte b c :: thirdByte c d :: bytes rest
  | [a, b, c] => [firstByte a b, secondByte b c]
  | [a, b] => [firstByte a b]
  | [_] | [] => []

/-- The bytes of the digits up to the first character that is none. -/
def decode (text : List Char) : List UInt8 := bytes (values text)

/-- Blocks of four digits; the last block may have one or two characters of padding, and then the
bits of its last digit that belong to no byte are zero. -/
inductive Canonical : List Char → Prop where
  | nil : Canonical []
  | one {a b : Char} {v w : ℕ} (first : value? a = some v) (second : value? b = some w)
      (unused : w % 16 = 0) : Canonical [a, b, '=', '=']
  | two {a b c : Char} {v w x : ℕ} (first : value? a = some v) (second : value? b = some w)
      (third : value? c = some x) (unused : x % 4 = 0) : Canonical [a, b, c, '=']
  | block {a b c d : Char} {v w x y : ℕ} {rest : List Char} (first : value? a = some v)
      (second : value? b = some w) (third : value? c = some x) (fourth : value? d = some y)
      (others : Canonical rest) : Canonical (a :: b :: c :: d :: rest)

theorem values_cons (h : value? c = some v) (rest : List Char) :
    values (c :: rest) = v :: values rest := by
  rw [values, h]

theorem values_cons_of_none (h : value? c = none) (rest : List Char) : values (c :: rest) = [] := by
  rw [values, h]

theorem values_pad (rest : List Char) : values ('=' :: rest) = [] :=
  values_cons_of_none (by decide) rest

theorem length_encode (data : List UInt8) : (encode data).length = (data.length + 2) / 3 * 4 := by
  fun_induction encode data with
  | case1 => rfl
  | case2 => simp
  | case3 => simp
  | case4 x y z rest ih =>
      simp only [List.length_cons, ih]
      omega

theorem length_bytes (values : List ℕ) :
    (bytes values).length = values.length / 4 * 3 + (values.length % 4 - 1) := by
  fun_induction bytes values with
  | case1 a b c d rest ih =>
      simp only [List.length_cons, ih]
      omega
  | case2 => simp
  | case3 => simp
  | case4 => simp
  | case5 => rfl

/-! ## Canonical texts -/

/-- The text of bytes is canonical. -/
theorem canonical_encode (data : List UInt8) : Canonical (encode data) := by
  fun_induction encode data with
  | case1 => exact .nil
  | case2 x =>
      have := x.toNat_lt
      exact .one (value?_digit _ (by omega)) (value?_digit _ (by omega)) (by omega)
  | case3 x y =>
      have := x.toNat_lt
      have := y.toNat_lt
      exact .two (value?_digit _ (by omega)) (value?_digit _ (by omega))
        (value?_digit _ (by omega)) (by omega)
  | case4 x y z rest ih =>
      have := x.toNat_lt
      have := y.toNat_lt
      have := z.toNat_lt
      exact .block (value?_digit _ (by omega)) (value?_digit _ (by omega))
        (value?_digit _ (by omega)) (value?_digit _ (by omega)) ih

section Block

variable {a b c d : ℕ}

theorem toNat_firstByte (ha : a < 64) (hb : b < 64) : (firstByte a b).toNat = a * 4 + b / 16 :=
  UInt8.toNat_ofNat_of_lt (show a * 4 + b / 16 < 256 by omega)

theorem toNat_secondByte (hc : c < 64) : (secondByte b c).toNat = b % 16 * 16 + c / 4 :=
  UInt8.toNat_ofNat_of_lt (show b % 16 * 16 + c / 4 < 256 by omega)

theorem toNat_thirdByte (hd : d < 64) : (thirdByte c d).toNat = c % 4 * 64 + d :=
  UInt8.toNat_ofNat_of_lt (show c % 4 * 64 + d < 256 by omega)

theorem firstByte_eq (x : UInt8) {low : ℕ} (hlow : low < 16) :
    firstByte (x.toNat / 4) (x.toNat % 4 * 16 + low) = x := by
  rw [firstByte, show x.toNat / 4 * 4 + (x.toNat % 4 * 16 + low) / 16 = x.toNat by omega,
    UInt8.ofNat_toNat]

theorem secondByte_eq (y : UInt8) {high low : ℕ} (hlow : low < 4) :
    secondByte (high * 16 + y.toNat / 16) (y.toNat % 16 * 4 + low) = y := by
  have := y.toNat_lt
  rw [secondByte, show (high * 16 + y.toNat / 16) % 16 * 16 + (y.toNat % 16 * 4 + low) / 4 =
    y.toNat by omega, UInt8.ofNat_toNat]

theorem thirdByte_eq (z : UInt8) {high : ℕ} :
    thirdByte (high * 4 + z.toNat / 64) (z.toNat % 64) = z := by
  have := z.toNat_lt
  rw [thirdByte, show (high * 4 + z.toNat / 64) % 4 * 64 + z.toNat % 64 = z.toNat by omega,
    UInt8.ofNat_toNat]

end Block

/-- The bytes of the text of bytes. -/
theorem decode_encode (data : List UInt8) : decode (encode data) = data := by
  fun_induction encode data with
  | case1 => rfl
  | case2 x =>
      have := x.toNat_lt
      rw [decode, values_cons (value?_digit _ (by omega)), values_cons (value?_digit _ (by omega)),
        values_pad, bytes]
      exact congrArg (· :: []) (firstByte_eq x (show 0 < 16 by decide))
  | case3 x y =>
      have := x.toNat_lt
      have := y.toNat_lt
      rw [decode, values_cons (value?_digit _ (by omega)), values_cons (value?_digit _ (by omega)),
        values_cons (value?_digit _ (by omega)), values_pad, bytes, firstByte_eq x (by omega)]
      exact congrArg (x :: · :: []) (secondByte_eq y (show 0 < 4 by decide))
  | case4 x y z rest ih =>
      have := x.toNat_lt
      have := y.toNat_lt
      have := z.toNat_lt
      rw [decode, values_cons (value?_digit _ (by omega)), values_cons (value?_digit _ (by omega)),
        values_cons (value?_digit _ (by omega)), values_cons (value?_digit _ (by omega)), bytes,
        firstByte_eq x (by omega), secondByte_eq y (by omega), thirdByte_eq, ← decode, ih]

/-- A canonical text is the text of its bytes. -/
theorem encode_decode (h : Canonical text) : encode (decode text) = text := by
  induction h with
  | nil => rfl
  | @one a b v w first second unused =>
      have hv := value?_lt first
      have hw := value?_lt second
      rw [decode, values_cons first, values_cons second, values_pad, bytes, encode,
        toNat_firstByte hv hw, show (v * 4 + w / 16) / 4 = v by omega,
        show (v * 4 + w / 16) % 4 * 16 = w by omega, digit_of_value? first, digit_of_value? second]
  | @two a b c v w x first second third unused =>
      have hv := value?_lt first
      have hw := value?_lt second
      have hx := value?_lt third
      rw [decode, values_cons first, values_cons second, values_cons third, values_pad, bytes,
        encode, toNat_firstByte hv hw, toNat_secondByte hx,
        show (v * 4 + w / 16) / 4 = v by omega,
        show (v * 4 + w / 16) % 4 * 16 + (w % 16 * 16 + x / 4) / 16 = w by omega,
        show (w % 16 * 16 + x / 4) % 16 * 4 = x by omega,
        digit_of_value? first, digit_of_value? second, digit_of_value? third]
  | @block a b c d v w x y rest first second third fourth others ih =>
      have hv := value?_lt first
      have hw := value?_lt second
      have hx := value?_lt third
      have hy := value?_lt fourth
      rw [decode, values_cons first, values_cons second, values_cons third, values_cons fourth,
        bytes, encode, toNat_firstByte hv hw, toNat_secondByte hx, toNat_thirdByte hy,
        show (v * 4 + w / 16) / 4 = v by omega,
        show (v * 4 + w / 16) % 4 * 16 + (w % 16 * 16 + x / 4) / 16 = w by omega,
        show (w % 16 * 16 + x / 4) % 16 * 4 + (x % 4 * 64 + y) / 64 = x by omega,
        show (x % 4 * 64 + y) % 64 = y by omega, digit_of_value? first, digit_of_value? second,
        digit_of_value? third, digit_of_value? fourth, ← decode, ih]

/-- The canonical texts are those that keep their form when they are decoded and encoded. -/
theorem canonical_iff : Canonical text ↔ encode (decode text) = text := by
  constructor
  · exact encode_decode
  · intro h
    rw [← h]
    exact canonical_encode _

/-- A canonical text consists of digits and padding. -/
theorem Canonical.digits_or_pad (h : Canonical text) :
    ∀ c ∈ text, (value? c).isSome = true ∨ c = '=' := by
  induction h with
  | nil => simp
  | one first second => simp [first, second]
  | two first second third => simp [first, second, third]
  | block first second third fourth others ih =>
      simpa [first, second, third, fourth] using ih

theorem Canonical.length_decode (h : Canonical text) :
    text.length = ((decode text).length + 2) / 3 * 4 := by
  have hlength := length_encode (decode text)
  rwa [encode_decode h] at hlength

end Base64
