import Mathlib.Data.Nat.Digits.Lemmas
import Mathlib.Tactic.IntervalCases

/-! # JSON

The values of JSON, the updating of an object under a key, and the text of a value. Every value is
printed as a text of the grammar of JSON. -/

inductive Json where
  | null
  | bool (value : Bool)
  | int (value : Int)
  | double (value : Float)
  | string (value : String)
  | array (items : List Json)
  | object (members : List (String × Json))

namespace Json

/-! ## Objects -/

/-- `object[key] = value`: the value of the key is replaced, or the key is added at the end. -/
def set (key : String) (value : Json) : List (String × Json) → List (String × Json)
  | [] => [(key, value)]
  | (other, old) :: rest =>
    if other = key then (key, value) :: rest else (other, old) :: set key value rest

theorem set_set (key : String) (first second : Json) (members : List (String × Json)) :
    set key second (set key first members) = set key second members := by
  induction members with
  | nil => simp only [set, if_true]
  | cons member rest ih =>
    rw [set, set]
    split
    case isTrue => simp only [set, if_true]
    case isFalse hne => rw [set, if_neg hne, ih]

theorem set_of_not_mem {key : String} {value : Json} {members : List (String × Json)}
    (h : key ∉ members.map Prod.fst) : set key value members = members ++ [(key, value)] := by
  induction members with
  | nil => rfl
  | cons member rest ih =>
    rw [List.map_cons, List.mem_cons, not_or] at h
    rw [set, if_neg (Ne.symm h.1), ih h.2, List.cons_append]

/-! ## The grammar of texts -/

def IsDigits (text : List Char) : Prop := text ≠ [] ∧ ∀ c ∈ text, c.isDigit = true

/-- `int = zero / ( digit1-9 *DIGIT )` -/
inductive IsInt : List Char → Prop where
  | zero : IsInt ['0']
  | digits {first : Char} {rest : List Char} : first.isDigit = true → first ≠ '0' →
      (∀ c ∈ rest, c.isDigit = true) → IsInt (first :: rest)

/-- `frac = decimal-point 1*DIGIT`, which may be missing -/
inductive IsFrac : List Char → Prop where
  | none : IsFrac []
  | some {digits : List Char} : IsDigits digits → IsFrac ('.' :: digits)

/-- `exp = e [ minus / plus ] 1*DIGIT`, which may be missing -/
inductive IsExp : List Char → Prop where
  | none : IsExp []
  | unsigned {e : Char} {digits : List Char} : e = 'e' ∨ e = 'E' → IsDigits digits →
      IsExp (e :: digits)
  | signed {e sign : Char} {digits : List Char} : e = 'e' ∨ e = 'E' → sign = '-' ∨ sign = '+' →
      IsDigits digits → IsExp (e :: sign :: digits)

/-- `number = [ minus ] int [ frac ] [ exp ]` -/
inductive IsNumber : List Char → Prop where
  | positive {int frac exp : List Char} : IsInt int → IsFrac frac → IsExp exp →
      IsNumber (int ++ frac ++ exp)
  | negative {int frac exp : List Char} : IsInt int → IsFrac frac → IsExp exp →
      IsNumber ('-' :: (int ++ frac ++ exp))

def IsHex (c : Char) : Prop := c.isDigit = true ∨ c ∈ ['a', 'b', 'c', 'd', 'e', 'f']

/-- `char = unescaped / escape (...)` -/
inductive IsChars : List Char → Prop where
  | nil : IsChars []
  | unescaped {c : Char} {rest : List Char} : 0x20 ≤ c.toNat → c ≠ '"' → c ≠ '\\' →
      IsChars rest → IsChars (c :: rest)
  | escape {c : Char} {rest : List Char} : c ∈ ['"', '\\', '/', 'b', 'f', 'n', 'r', 't'] →
      IsChars rest → IsChars ('\\' :: c :: rest)
  | unicode {a b c d : Char} {rest : List Char} : IsHex a → IsHex b → IsHex c → IsHex d →
      IsChars rest → IsChars ('\\' :: 'u' :: a :: b :: c :: d :: rest)

mutual

/-- `value` -/
inductive IsValue : List Char → Prop where
  | null : IsValue ['n', 'u', 'l', 'l']
  | true : IsValue ['t', 'r', 'u', 'e']
  | false : IsValue ['f', 'a', 'l', 's', 'e']
  | number {text : List Char} : IsNumber text → IsValue text
  | string {text : List Char} : IsChars text → IsValue ('"' :: text ++ ['"'])
  | emptyArray : IsValue ['[', ']']
  | array {text : List Char} : IsItems text → IsValue ('[' :: text ++ [']'])
  | emptyObject : IsValue ['{', '}']
  | object {text : List Char} : IsMembers text → IsValue ('{' :: text ++ ['}'])

/-- `value *( value-separator value )` -/
inductive IsItems : List Char → Prop where
  | one {text : List Char} : IsValue text → IsItems text
  | more {text rest : List Char} : IsValue text → IsItems rest → IsItems (text ++ ',' :: rest)

/-- `member *( value-separator member )` -/
inductive IsMembers : List Char → Prop where
  | one {name text : List Char} : IsChars name → IsValue text →
      IsMembers ('"' :: name ++ '"' :: ':' :: text)
  | more {name text rest : List Char} : IsChars name → IsValue text → IsMembers rest →
      IsMembers ('"' :: name ++ '"' :: ':' :: text ++ ',' :: rest)

end

/-! ## Printing -/

/-- How floating point numbers are printed: each as a number or, where it is none, as `null`. -/
structure FloatFormat where
  text : Float → List Char
  valid : ∀ value, IsNumber (text value) ∨ text value = ['n', 'u', 'l', 'l']

def digitsText (n : ℕ) : List Char :=
  if n = 0 then ['0'] else (Nat.digits 10 n).reverse.map fun digit => Nat.digitChar digit

def intText : Int → List Char
  | .ofNat n => digitsText n
  | .negSucc n => '-' :: digitsText (n + 1)

/-- Two hexadecimal digits for a control character. -/
def escapeChar (c : Char) : List Char :=
  if c = '"' then ['\\', '"']
  else if c = '\\' then ['\\', '\\']
  else if c.toNat < 0x20 then
    ['\\', 'u', '0', '0', Nat.digitChar (c.toNat / 16), Nat.digitChar (c.toNat % 16)]
  else [c]

def stringText (value : String) : List Char := '"' :: value.toList.flatMap escapeChar ++ ['"']

mutual

def print (format : FloatFormat) : Json → List Char
  | .null => ['n', 'u', 'l', 'l']
  | .bool true => ['t', 'r', 'u', 'e']
  | .bool false => ['f', 'a', 'l', 's', 'e']
  | .int value => intText value
  | .double value => format.text value
  | .string value => stringText value
  | .array items => '[' :: printItems format items ++ [']']
  | .object members => '{' :: printMembers format members ++ ['}']

def printItems (format : FloatFormat) : List Json → List Char
  | [] => []
  | [item] => print format item
  | item :: rest => print format item ++ ',' :: printItems format rest

def printMembers (format : FloatFormat) : List (String × Json) → List Char
  | [] => []
  | [(name, value)] => stringText name ++ ':' :: print format value
  | (name, value) :: rest =>
    stringText name ++ ':' :: print format value ++ ',' :: printMembers format rest

end

theorem isDigit_digitChar {n : ℕ} (h : n < 10) : (Nat.digitChar n).isDigit = true := by
  interval_cases n <;> rfl

theorem digitsText_isInt (n : ℕ) : IsInt (digitsText n) := by
  rw [digitsText]
  split
  case isTrue => exact .zero
  case isFalse hne =>
    have hdigits : ∀ digit ∈ (Nat.digits 10 n).reverse, digit < 10 := fun digit hmem =>
      Nat.digits_lt_base (by decide) (List.mem_reverse.1 hmem)
    cases hrev : (Nat.digits 10 n).reverse with
    | nil => exact absurd (List.reverse_eq_nil_iff.1 hrev) (Nat.digits_ne_nil_iff_ne_zero.2 hne)
    | cons first rest =>
      have hlast : Nat.digits 10 n = rest.reverse ++ [first] := by
        rw [← List.reverse_reverse (Nat.digits 10 n), hrev, List.reverse_cons]
      have hfirst : first ≠ 0 := by
        have hzero := Nat.getLast_digit_ne_zero 10 hne
        simpa only [hlast, List.getLast_append_singleton] using hzero
      rw [hrev] at hdigits
      have hlt := hdigits first (List.mem_cons_self ..)
      refine .digits (isDigit_digitChar hlt) ?_ ?_
      · interval_cases first
        · exact absurd rfl hfirst
        all_goals decide
      · intro c hc
        obtain ⟨digit, hmem, rfl⟩ := List.mem_map.1 hc
        exact isDigit_digitChar (hdigits digit (List.mem_cons_of_mem _ hmem))

theorem intText_isNumber (value : Int) : IsNumber (intText value) := by
  cases value with
  | ofNat n => simpa [intText] using IsNumber.positive (digitsText_isInt n) .none .none
  | negSucc n => simpa [intText] using IsNumber.negative (digitsText_isInt (n + 1)) .none .none

theorem isHex_digitChar {n : ℕ} (h : n < 16) : IsHex (Nat.digitChar n) := by
  interval_cases n <;> simp [IsHex, Nat.digitChar]

theorem escapeChar_isChars {c : Char} {rest : List Char} (h : IsChars rest) :
    IsChars (escapeChar c ++ rest) := by
  rw [escapeChar]
  split
  case isTrue => exact .escape (by decide) h
  case isFalse hquote =>
    split
    case isTrue => exact .escape (by decide) h
    case isFalse hslash =>
      split
      case isTrue hcontrol =>
        exact .unicode (.inl rfl) (.inl rfl) (isHex_digitChar (by omega))
          (isHex_digitChar (by omega)) h
      case isFalse hcontrol => exact .unescaped (by omega) hquote hslash h

theorem chars_isChars (chars : List Char) : IsChars (chars.flatMap escapeChar) := by
  induction chars with
  | nil => exact .nil
  | cons c rest ih => exact escapeChar_isChars ih

mutual

/-- Every value is printed as a text of the grammar. -/
theorem print_isValue (format : FloatFormat) : ∀ value : Json, IsValue (print format value)
  | .null => .null
  | .bool true => .true
  | .bool false => .false
  | .int value => .number (intText_isNumber value)
  | .double value => by
      cases format.valid value with
      | inl hnumber => exact .number hnumber
      | inr hnull =>
        rw [print, hnull]
        exact .null
  | .string value => .string (chars_isChars value.toList)
  | .array [] => .emptyArray
  | .array (item :: items) => .array (printItems_isItems format (item :: items) nofun)
  | .object [] => .emptyObject
  | .object (member :: members) =>
    .object (printMembers_isMembers format (member :: members) nofun)

theorem printItems_isItems (format : FloatFormat) :
    ∀ items : List Json, items ≠ [] → IsItems (printItems format items)
  | [], h => absurd rfl h
  | [item], _ => .one (print_isValue format item)
  | item :: next :: items, _ =>
    .more (print_isValue format item) (printItems_isItems format (next :: items) nofun)

theorem printMembers_isMembers (format : FloatFormat) :
    ∀ members : List (String × Json), members ≠ [] → IsMembers (printMembers format members)
  | [], h => absurd rfl h
  | [(name, value)], _ => by
      have hone := IsMembers.one (chars_isChars name.toList) (print_isValue format value)
      simpa [printMembers, stringText] using hone
  | (name, value) :: next :: members, _ => by
      have hmore := IsMembers.more (chars_isChars name.toList) (print_isValue format value)
        (printMembers_isMembers format (next :: members) nofun)
      simpa [printMembers, stringText] using hmore

end

end Json
