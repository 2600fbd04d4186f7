/-! Decimal numerals of 64-bit integers. Every integer reads back from its numeral. -/

set_option autoImplicit false

namespace LineLang

inductive Numeral.Fault where
  | empty
  | badDigit
  | tooLarge
  | tooSmall
  deriving DecidableEq, Repr

namespace Numeral

def Fault.message : Fault → String
  | .empty => "cannot parse integer from empty string"
  | .badDigit => "invalid digit found in string"
  | .tooLarge => "number too large to fit in target type"
  | .tooSmall => "number too small to fit in target type"

/-- The digits of the magnitude, most significant first and without leading zeros, after a minus sign
if the integer is negative. -/
def write (value : Int64) : String :=
  let magnitude := String.ofList (Nat.toDigits 10 value.toInt.natAbs)
  if value < 0 then "-" ++ magnitude else magnitude

def digit? (c : Char) : Option Nat :=
  if c.isDigit then some (c.toNat - '0'.toNat) else none

/-- Reads digits from the left onto a running total, which falls for a negative numeral so that the
least integer can be reached. At each place the digit is looked at before the range. -/
def readDigits (negative : Bool) (total : Int) : List Char → Except Fault Int64
  | [] => .ok (Int64.ofInt total)
  | c :: rest =>
    match digit? c with
    | none => .error .badDigit
    | some digit =>
      let next := if negative then total * 10 - digit else total * 10 + digit
      if next > Int64.maxValue.toInt then .error .tooLarge
      else if next < Int64.minValue.toInt then .error .tooSmall
      else readDigits negative next rest

/-- A numeral is at least one digit after at most one sign. -/
def read (text : String) : Except Fault Int64 :=
  match text.toList with
  | [] => .error .empty
  | ['+'] | ['-'] => .error .badDigit
  | '+' :: digits => readDigits false 0 digits
  | '-' :: digits => readDigits true 0 digits
  | digits => readDigits false 0 digits

def signed (negative : Bool) (magnitude : Nat) : Int :=
  if negative then -magnitude else magnitude

def magnitudeLimit (negative : Bool) : Nat :=
  if negative then 9223372036854775808 else 9223372036854775807

theorem le_ofDigitChars (digits : List Char) (total : Nat) :
    total ≤ Nat.ofDigitChars 10 digits total := by
  induction digits generalizing total with
  | nil => exact Nat.le_refl _
  | cons c rest ih =>
    rw [Nat.ofDigitChars_cons]
    exact Nat.le_trans (by omega) (ih _)

def overflow (negative : Bool) : Fault :=
  if negative then .tooSmall else .tooLarge

theorem readDigits_digit (negative : Bool) (total : Nat) {c : Char} (isDigit : c.isDigit = true)
    (rest : List Char) :
    readDigits negative (signed negative total) (c :: rest) =
      if 10 * total + (c.toNat - '0'.toNat) ≤ magnitudeLimit negative then
        readDigits negative (signed negative (10 * total + (c.toNat - '0'.toNat))) rest
      else .error (overflow negative) := by
  rw [readDigits, digit?, if_pos isDigit]
  cases negative with
  | true =>
    simp only [signed, magnitudeLimit, overflow, if_true]
    have same : -(total : Int) * 10 - ((c.toNat - '0'.toNat : Nat) : Int) =
        -((10 * total + (c.toNat - '0'.toNat) : Nat) : Int) := by omega
    rw [same, Int64.toInt_maxValue, Int64.toInt_minValue, if_neg (by omega)]
    split
    · rw [if_neg (by omega)]
    · rw [if_pos (by omega)]
  | false =>
    simp only [signed, magnitudeLimit, overflow, Bool.false_eq_true, if_false]
    have same : (total : Int) * 10 + ((c.toNat - '0'.toNat : Nat) : Int) =
        ((10 * total + (c.toNat - '0'.toNat) : Nat) : Int) := by omega
    rw [same, Int64.toInt_maxValue, Int64.toInt_minValue]
    split
    · rw [if_neg (by omega)]
    · rw [if_neg (by omega), if_pos (by omega)]

theorem readDigits_eq_ok (negative : Bool) (digits : List Char) (total : Nat)
    (allDigits : ∀ c ∈ digits, c.isDigit = true)
    (fits : Nat.ofDigitChars 10 digits total ≤ magnitudeLimit negative) :
    readDigits negative (signed negative total) digits =
      .ok (Int64.ofInt (signed negative (Nat.ofDigitChars 10 digits total))) := by
  induction digits generalizing total with
  | nil => rfl
  | cons c rest ih =>
    rw [Nat.ofDigitChars_cons] at fits ⊢
    have below := Nat.le_trans (le_ofDigitChars rest _) fits
    rw [readDigits_digit negative total (allDigits c List.mem_cons_self), if_pos below]
    exact ih _ (fun d member => allDigits d (List.mem_cons_of_mem _ member)) fits

theorem read_write (value : Int64) : read (write value) = .ok value := by
  have digits : ∀ c ∈ Nat.toDigits 10 value.toInt.natAbs, c.isDigit = true :=
    fun c member => Nat.isDigit_of_mem_toDigits (by decide) (by decide) member
  have value_eq : Nat.ofDigitChars 10 (Nat.toDigits 10 value.toInt.natAbs) 0 = value.toInt.natAbs :=
    Nat.ofDigitChars_toDigits (by decide) (by decide)
  have lower := value.le_toInt
  have upper := value.toInt_lt
  obtain ⟨first, rest, shape⟩ := List.exists_cons_of_ne_nil
    (@Nat.toDigits_ne_nil value.toInt.natAbs 10)
  rw [shape] at digits value_eq
  have firstDigit := digits first List.mem_cons_self
  rw [write]
  simp only [shape]
  split
  next negative =>
    rw [Int64.lt_iff_toInt_lt, Int64.toInt_zero] at negative
    have fits : Nat.ofDigitChars 10 (first :: rest) 0 ≤ magnitudeLimit true := by
      rw [value_eq, magnitudeLimit, if_pos rfl]; omega
    have parsed := readDigits_eq_ok true (first :: rest) 0 digits fits
    rw [value_eq] at parsed
    have back : signed true value.toInt.natAbs = value.toInt := by
      rw [signed, if_pos rfl]; omega
    rw [back, Int64.ofInt_toInt] at parsed
    simp only [read, String.toList_append, String.toList_ofList]
    exact parsed
  next positive =>
    rw [Int64.lt_iff_toInt_lt, Int64.toInt_zero] at positive
    have fits : Nat.ofDigitChars 10 (first :: rest) 0 ≤ magnitudeLimit false := by
      rw [value_eq, magnitudeLimit, if_neg (by decide)]; omega
    have parsed := readDigits_eq_ok false (first :: rest) 0 digits fits
    rw [value_eq] at parsed
    have back : signed false value.toInt.natAbs = value.toInt := by
      rw [signed, if_neg (by decide)]; omega
    rw [back, Int64.ofInt_toInt] at parsed
    have notPlus : first ≠ '+' := by rintro rfl; exact absurd firstDigit (by decide)
    have notMinus : first ≠ '-' := by rintro rfl; exact absurd firstDigit (by decide)
    simp only [read, String.toList_ofList]
    split <;> simp_all [signed]

end Numeral

end LineLang
