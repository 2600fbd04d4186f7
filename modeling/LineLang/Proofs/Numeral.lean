import Mathlib.Algebra.Ring.Int.Defs
import Mathlib.Data.List.TakeWhile
import LineLang.Proofs.Parse.Steps

/-! Which texts are integers, and what is wrong with all others.

A text is looked at up to the first character that is no digit, and not even so far if its digits leave the range
before. More digits never lead back into the range, so it is enough to ask for the value of all digits before
that character.
-/

set_option autoImplicit false

namespace LineLang

namespace Numeral

/-- The values that 64 bits with a sign can hold. -/
def InRange (value : Int) : Prop :=
  -2 ^ 63 ≤ value ∧ value ≤ 2 ^ 63 - 1

instance (value : Int) : Decidable (InRange value) :=
  inferInstanceAs (Decidable (_ ∧ _))

def magnitude (digits : List Char) : Nat :=
  Nat.ofDigitChars 10 digits 0

structure IsDigits (chars : List Char) : Prop where
  nonempty : chars ≠ []
  digits : ∀ c ∈ chars, c.isDigit = true

/-- The characters write the integer: digits, after at most one sign. Whether it is in range does not matter. -/
inductive Writes : List Char → Int → Prop where
  | unsigned {digits} : IsDigits digits → Writes digits (magnitude digits)
  | plus {digits} : IsDigits digits → Writes ('+' :: digits) (magnitude digits)
  | minus {digits} : IsDigits digits → Writes ('-' :: digits) (-magnitude digits)

def withoutSign : List Char → List Char
  | '+' :: chars | '-' :: chars => chars
  | chars => chars

def isNegative : List Char → Bool
  | '-' :: _ => true
  | _ => false

/-- The integer that the digits before the first other character come to, with the sign of the whole. -/
def leadingValue (chars : List Char) : Int :=
  signed (isNegative chars) (magnitude ((withoutSign chars).takeWhile Char.isDigit))

/-- What keeps characters from being an integer in range. A sign alone counts as a bad digit. -/
def fault (chars : List Char) : Fault :=
  if chars = [] then .empty
  else if withoutSign chars = [] then .badDigit
  else if ¬ (withoutSign chars).all Char.isDigit ∧ InRange (leadingValue chars) then .badDigit
  else overflow (isNegative chars)

theorem sign_cases (chars : List Char) :
    chars = '+' :: withoutSign chars ∧ isNegative chars = false ∨
      chars = '-' :: withoutSign chars ∧ isNegative chars = true ∨
      chars = withoutSign chars ∧ isNegative chars = false := by
  rcases chars with _ | ⟨c, rest⟩
  · exact .inr (.inr ⟨rfl, rfl⟩)
  by_cases isPlus : c = '+'
  · subst isPlus
    exact .inl ⟨rfl, rfl⟩
  by_cases isMinus : c = '-'
  · subst isMinus
    exact .inr (.inl ⟨rfl, rfl⟩)
  · exact .inr (.inr (by simp [withoutSign, isNegative, isPlus, isMinus]))

theorem sign_of_isDigits {chars : List Char} (isDigits : IsDigits chars) :
    withoutSign chars = chars ∧ isNegative chars = false := by
  rcases sign_cases chars with ⟨shape, -⟩ | ⟨shape, -⟩ | ⟨same, positive⟩
  · exact absurd (isDigits.digits '+' (shape ▸ List.mem_cons_self)) (by decide)
  · exact absurd (isDigits.digits '-' (shape ▸ List.mem_cons_self)) (by decide)
  · exact ⟨same.symm, positive⟩

theorem writes_iff {chars : List Char} {value : Int} :
    Writes chars value ↔
      IsDigits (withoutSign chars) ∧ value = signed (isNegative chars) (magnitude (withoutSign chars)) := by
  constructor
  · intro writes
    cases writes with
    | unsigned isDigits =>
      obtain ⟨same, positive⟩ := sign_of_isDigits isDigits
      rw [same, positive]
      exact ⟨isDigits, rfl⟩
    | plus isDigits => exact ⟨isDigits, rfl⟩
    | minus isDigits => exact ⟨isDigits, rfl⟩
  · rintro ⟨isDigits, rfl⟩
    rcases sign_cases chars with ⟨shape, positive⟩ | ⟨shape, negative⟩ | ⟨shape, positive⟩
    · have writes := Writes.plus isDigits
      rw [← shape] at writes
      rw [positive]
      exact writes
    · have writes := Writes.minus isDigits
      rw [← shape] at writes
      rw [negative]
      exact writes
    · have writes := Writes.unsigned isDigits
      rw [← shape] at writes
      rw [← shape, positive]
      exact writes

theorem inRange_signed (negative : Bool) (magnitude : Nat) :
    InRange (signed negative magnitude) ↔ magnitude ≤ magnitudeLimit negative := by
  cases negative with
  | true => simp only [InRange, signed, magnitudeLimit, if_true]; omega
  | false => simp only [InRange, signed, magnitudeLimit, Bool.false_eq_true, if_false]; omega

theorem toInt_ofInt_of_inRange {value : Int} (inRange : InRange value) : (Int64.ofInt value).toInt = value :=
  Int64.toInt_ofInt_of_le inRange.1 (by have := inRange.2; omega)

-- The digits in front are read as long as they are in range. What stops them has to be looked at only then.
theorem readDigits_eq (negative : Bool) (chars : List Char) (total : Nat)
    (fits : total ≤ magnitudeLimit negative) :
    readDigits negative (signed negative total) chars =
      let value := signed negative (Nat.ofDigitChars 10 (chars.takeWhile Char.isDigit) total)
      if InRange value then
        if chars.all Char.isDigit then .ok (.ofInt value) else .error .badDigit
      else .error (overflow negative) := by
  induction chars generalizing total with
  | nil => exact (if_pos ((inRange_signed negative total).mpr fits)).symm
  | cons c rest ih =>
    by_cases isDigit : c.isDigit = true
    · rw [readDigits_digit negative total isDigit, List.takeWhile_cons_of_pos isDigit, Nat.ofDigitChars_cons,
        List.all_cons, isDigit, Bool.true_and]
      split
      next fits => exact ih _ fits
      next past =>
        -- More digits only lead further away.
        have more := le_ofDigitChars (rest.takeWhile Char.isDigit) (10 * total + (c.toNat - '0'.toNat))
        refine (if_neg fun inRange => ?_).symm
        exact past (Nat.le_trans more ((inRange_signed negative _).mp inRange))
    · rw [readDigits, digit?, if_neg isDigit, List.takeWhile_cons_of_neg isDigit, Nat.ofDigitChars_nil,
        List.all_cons, Bool.not_eq_true _ |>.mp isDigit, Bool.false_and]
      exact (if_pos ((inRange_signed negative total).mpr fits)).symm

theorem readDigits_withoutSign (chars : List Char) :
    readDigits (isNegative chars) 0 (withoutSign chars) =
      if InRange (leadingValue chars) then
        if (withoutSign chars).all Char.isDigit then .ok (.ofInt (leadingValue chars)) else .error .badDigit
      else .error (overflow (isNegative chars)) := by
  have zero : signed (isNegative chars) 0 = 0 := by cases isNegative chars <;> rfl
  rw [← zero]
  exact readDigits_eq (isNegative chars) (withoutSign chars) 0 (Nat.zero_le _)

theorem leadingValue_of_isDigits {chars : List Char} (isDigits : IsDigits (withoutSign chars)) :
    leadingValue chars = signed (isNegative chars) (magnitude (withoutSign chars)) := by
  rw [leadingValue, List.takeWhile_eq_self_iff.mpr isDigits.digits]

theorem read_eq (text : String) :
    read text =
      if text.toList = [] then .error .empty
      else if withoutSign text.toList = [] then .error .badDigit
      else readDigits (isNegative text.toList) 0 (withoutSign text.toList) := by
  unfold read
  split <;> simp_all [withoutSign, isNegative]

theorem read_of_writes {text : String} {value : Int} (writes : Writes text.toList value) (inRange : InRange value) :
    read text = .ok (.ofInt value) := by
  obtain ⟨isDigits, same⟩ := writes_iff.mp writes
  rw [← leadingValue_of_isDigits isDigits] at same
  have nonempty : text.toList ≠ [] := fun isEmpty => isDigits.nonempty (by rw [isEmpty]; rfl)
  rw [read_eq, if_neg nonempty, if_neg isDigits.nonempty, readDigits_withoutSign, ← same, if_pos inRange,
    if_pos (List.all_eq_true.mpr isDigits.digits)]

theorem read_of_outside {text : String} (outside : ∀ value, Writes text.toList value → ¬ InRange value) :
    read text = .error (fault text.toList) := by
  rw [read_eq, fault]
  split
  · rfl
  split
  · rfl
  next nonempty =>
    rw [readDigits_withoutSign]
    by_cases inRange : InRange (leadingValue text.toList)
    · have notAll : ¬ (withoutSign text.toList).all Char.isDigit = true := by
        intro all
        have isDigits : IsDigits (withoutSign text.toList) := ⟨nonempty, List.all_eq_true.mp all⟩
        exact outside _ (writes_iff.mpr ⟨isDigits, leadingValue_of_isDigits isDigits⟩) inRange
      rw [if_pos inRange, if_neg notAll, if_pos ⟨notAll, inRange⟩]
    · rw [if_neg inRange, if_neg fun both => inRange both.2]

end Numeral

def numeralLine (numeral newLine endOfInput : Token) : List Token :=
  [{ numeral with kind := .integer }, { newLine with kind := .newLine },
    { endOfInput with kind := .endOfInput }]

theorem parse_numeralLine (numeral newLine endOfInput : Token) :
    parse (numeralLine numeral newLine endOfInput) =
      match Numeral.read numeral.text with
      | .ok value => .ok (.integer value)
      | .error fault => .error (.badInteger numeral.text fault) := by
  have first : (Parse.State.expression []).step { numeral with kind := .integer } =
      match Numeral.read numeral.text with
      | .ok value => .ok (.operand [] (.integer value))
      | .error fault => .error (.badInteger numeral.text fault) := rfl
  change ((Parse.State.expression []).run (numeralLine numeral newLine endOfInput)).bind _ = _
  rw [numeralLine, Parse.State.run_cons, first]
  cases Numeral.read numeral.text with
  | ok value => rfl
  | error fault => rfl

/-- An integer token is read exactly when its text is an integer in range: digits, after at most one sign. Every
other one is refused, for the first thing that is wrong with its text. -/
theorem parse_numeral_exact (numeral newLine endOfInput : Token) :
    (∀ value : Int,
      (∃ word : Int64, word.toInt = value ∧
        parse (numeralLine numeral newLine endOfInput) = .ok (.integer word)) ↔
      Numeral.Writes numeral.text.toList value ∧ Numeral.InRange value) ∧
    ((∀ value, Numeral.Writes numeral.text.toList value → ¬ Numeral.InRange value) →
      parse (numeralLine numeral newLine endOfInput) =
        .error (.badInteger numeral.text (Numeral.fault numeral.text.toList))) := by
  have refused : (∀ value, Numeral.Writes numeral.text.toList value → ¬ Numeral.InRange value) →
      parse (numeralLine numeral newLine endOfInput) =
        .error (.badInteger numeral.text (Numeral.fault numeral.text.toList)) := by
    intro outside
    rw [parse_numeralLine, Numeral.read_of_outside outside]
  have accepted : ∀ value, Numeral.Writes numeral.text.toList value → Numeral.InRange value →
      parse (numeralLine numeral newLine endOfInput) = .ok (.integer (.ofInt value)) := by
    intro value writes inRange
    rw [parse_numeralLine, Numeral.read_of_writes writes inRange]
  refine ⟨fun value => ⟨?_, ?_⟩, refused⟩
  · rintro ⟨word, rfl, reads⟩
    by_cases readable : ∃ value, Numeral.Writes numeral.text.toList value ∧ Numeral.InRange value
    · obtain ⟨value, writes, inRange⟩ := readable
      rw [accepted value writes inRange] at reads
      cases reads
      rw [Numeral.toInt_ofInt_of_inRange inRange]
      exact ⟨writes, inRange⟩
    · rw [refused fun value writes inRange => readable ⟨value, writes, inRange⟩] at reads
      cases reads
  · rintro ⟨writes, inRange⟩
    exact ⟨_, Numeral.toInt_ofInt_of_inRange inRange, accepted value writes inRange⟩

-- The least integer after two zeros is read, and a number one too large is refused before the letter behind it.
theorem parse_numeral_exact_atLimits :
    (∃ word : Int64, word.toInt = -2 ^ 63 ∧
      parse [⟨.integer, "-009223372036854775808", 0, 22⟩, ⟨.newLine, "", 22, 23⟩,
        ⟨.endOfInput, "", 23, 23⟩] = .ok (.integer word)) ∧
    parse [⟨.integer, "9223372036854775808x", 0, 20⟩, ⟨.newLine, "", 20, 21⟩, ⟨.endOfInput, "", 21, 21⟩] =
      .error (.badInteger "9223372036854775808x" .tooLarge) := by
  constructor
  · have read := (parse_numeral_exact ⟨.integer, "-009223372036854775808", 0, 22⟩ ⟨.newLine, "", 22, 23⟩
      ⟨.endOfInput, "", 23, 23⟩).1 (-2 ^ 63)
    refine read.mpr ⟨Numeral.writes_iff.mpr ⟨⟨?_, ?_⟩, ?_⟩, ?_⟩
    · decide
    · exact List.all_eq_true.mp (by decide)
    · decide +kernel
    · decide
  · have refused := (parse_numeral_exact ⟨.integer, "9223372036854775808x", 0, 20⟩ ⟨.newLine, "", 20, 21⟩
      ⟨.endOfInput, "", 21, 21⟩).2
    refine refused fun value writes => ?_
    have digits := (Numeral.writes_iff.mp writes).1.digits
    exact absurd (digits 'x' (by decide)) (by decide)

end LineLang
