import Mathlib.Data.Char
import Mathlib.Data.List.Basic
import Mathlib.Data.List.TakeWhile

/-! `strtoull` with base 0, which finds the base in the text, and the decimal numerals
`%llu` prints. -/

set_option autoImplicit false

namespace AgencC.Library

/-- `isspace` in the C locale. -/
def isSpace (c : Char) : Bool := c = ' ' || ('\t' ≤ c && c ≤ '\r')

def digitValue (c : Char) : Option Nat :=
  if '0' ≤ c ∧ c ≤ '9' then some (c.toNat - '0'.toNat)
  else if 'a' ≤ c ∧ c ≤ 'z' then some (c.toNat - 'a'.toNat + 10)
  else if 'A' ≤ c ∧ c ≤ 'Z' then some (c.toNat - 'A'.toNat + 10)
  else none

def isDigitOf (base : Nat) (c : Char) : Bool := (digitValue c).any (· < base)

/-- The value of the longest run of digits the text begins with. -/
def readDigits (base : Nat) (text : List Char) : Nat :=
  (text.takeWhile (isDigitOf base)).foldl (fun value c => base * value + (digitValue c).getD 0) 0

/-- The value of a numeral without a sign, its base told by its prefix. -/
def readPrefixed : List Char → Nat
  | '0' :: x :: digit :: rest =>
      if (x = 'x' ∨ x = 'X') ∧ isDigitOf 16 digit then readDigits 16 (digit :: rest)
      else readDigits 8 ('0' :: x :: digit :: rest)
  | '0' :: rest => readDigits 8 ('0' :: rest)
  | text => readDigits 10 text

/-- Whether there is a minus sign, and the text after the sign. -/
def readSign : List Char → Bool × List Char
  | '-' :: rest => (true, rest)
  | '+' :: rest => (false, rest)
  | text => (false, text)

/-- `strtoull(text, NULL, 0)`: a value out of range gives `ULLONG_MAX`, whatever its sign. -/
def strtoull (text : List Char) : UInt64 :=
  let (negative, text) := readSign (text.dropWhile isSpace)
  let value := readPrefixed text
  if UInt64.size ≤ value then 0 - 1
  else if negative then 0 - .ofNat value
  else .ofNat value

example : strtoull [' ', '-', '0', 'x', 'F', 'g'] = 0 - 15 := by decide +kernel

/-- What `%llu` prints. -/
def decimal (value : UInt64) : List Char := Nat.toDigits 10 value.toNat

theorem digitValue_of_isDigit {c : Char} (digit : c.isDigit) :
    digitValue c = some (c.toNat - '0'.toNat) := by
  have bounds : '0' ≤ c ∧ c ≤ '9' := Char.isDigit_iff_toNat.mp digit
  rw [digitValue, if_pos bounds]

theorem isSpace_of_isDigit {c : Char} (digit : c.isDigit) : isSpace c = false := by
  have first : 48 ≤ c.toNat := (Char.isDigit_iff_toNat.mp digit).1
  rw [isSpace, Bool.or_eq_false_iff, decide_eq_false_iff_not, Bool.and_eq_false_iff]
  constructor
  · rintro rfl
    cases digit
  · right
    exact decide_eq_false fun below : c.toNat ≤ 13 => by omega

theorem readSign_of_isDigit {c : Char} {rest : List Char} (digit : c.isDigit) :
    readSign (c :: rest) = (false, c :: rest) := by
  unfold readSign
  split
  · rename_i same
    rw [(List.cons.inj same).1] at digit
    cases digit
  · rename_i same
    rw [(List.cons.inj same).1] at digit
    cases digit
  · rfl

theorem isDigitOf_ten {c : Char} (digit : c.isDigit) : isDigitOf 10 c := by
  have last : c.toNat ≤ 57 := (Char.isDigit_iff_toNat.mp digit).2
  rw [isDigitOf, digitValue_of_isDigit digit]
  exact decide_eq_true (show c.toNat - 48 < 10 by omega)

theorem readDigits_ten {text : List Char} (digits : ∀ c ∈ text, c.isDigit) :
    readDigits 10 text = Nat.ofDigitChars 10 text 0 := by
  have all : text.takeWhile (isDigitOf 10) = text :=
    List.takeWhile_eq_self_iff.mpr fun c member => isDigitOf_ten (digits c member)
  rw [readDigits, all, Nat.ofDigitChars_eq_foldl]
  apply List.foldl_ext
  intro value c member
  rw [digitValue_of_isDigit (digits c member), Option.getD_some]

/-- A positive numeral does not begin with the digit that would announce another base. -/
theorem head?_toDigits (n : Nat) (positive : 0 < n) : (Nat.toDigits 10 n).head? ≠ some '0' := by
  induction n using Nat.strongRecOn with
  | ind n ih =>
      rw [Nat.toDigits_eq_if (by decide)]
      split
      · rw [List.head?_singleton, ne_eq, Option.some.injEq, Nat.digitChar_eq_zero]
        exact Nat.pos_iff_ne_zero.mp positive
      · have leading := ih (n / 10) (by omega) (by omega)
        cases digits : Nat.toDigits 10 (n / 10) with
        | nil => exact absurd digits Nat.toDigits_ne_nil
        | cons c rest =>
            rw [digits] at leading
            exact leading

theorem isDigit_decimal {value : UInt64} {c : Char} (member : c ∈ decimal value) : c.isDigit :=
  Nat.isDigit_of_mem_toDigits (by decide) (by decide) member

theorem readPrefixed_ten {c : Char} {rest : List Char} (first : c ≠ '0') :
    readPrefixed (c :: rest) = readDigits 10 (c :: rest) := by
  unfold readPrefixed
  split
  · rename_i same
    exact absurd (List.cons.inj same).1 first
  · rename_i same
    exact absurd (List.cons.inj same).1 first
  · rfl

theorem readPrefixed_decimal (value : UInt64) : readPrefixed (decimal value) = value.toNat := by
  have read : readDigits 10 (decimal value) = value.toNat :=
    (readDigits_ten fun c member => isDigit_decimal member).trans Nat.ofDigitChars_ten_toDigits
  rcases Nat.eq_zero_or_pos value.toNat with zero | positive
  · rw [decimal, zero]
    rfl
  · have leading := head?_toDigits value.toNat positive
    rw [← decimal] at leading
    cases digits : decimal value with
    | nil => exact absurd digits Nat.toDigits_ne_nil
    | cons c rest =>
        rw [digits] at leading read
        rw [readPrefixed_ten fun zero => leading (congrArg some zero), read]

/-- A printed value is read back. -/
theorem strtoull_decimal (value : UInt64) : strtoull (decimal value) = value := by
  have read := readPrefixed_decimal value
  cases digits : decimal value with
  | nil => exact absurd digits Nat.toDigits_ne_nil
  | cons c rest =>
      have digit : c.isDigit := isDigit_decimal (digits ▸ List.mem_cons_self)
      have noSpace : ¬ isSpace c = true := Bool.not_eq_true _ ▸ isSpace_of_isDigit digit
      rw [digits] at read
      simp only [strtoull, List.dropWhile_cons_of_neg noSpace, readSign_of_isDigit digit, read]
      rw [if_neg (Nat.not_le_of_lt value.toNat_lt_size), if_neg Bool.false_ne_true]
      exact UInt64.ofNat_toNat

end AgencC.Library
