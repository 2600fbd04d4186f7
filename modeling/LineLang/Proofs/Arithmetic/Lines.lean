import LineLang.Proofs.Arithmetic
import LineLang.Proofs.RoundTrip
import LineLang.Proofs.RoundTrip.Numerals

/-! Arithmetic from text to result.

A line with an operator between two numerals comes to what the operator gives for the two integers. The numeral of a
result can be entered again, and comes to that result. The one integer that cannot be entered is the least.
-/

set_option autoImplicit false

namespace LineLang

open Grammar

namespace Operator

variable {operator : Operator} {left right : Int64}

theorem apply_eq_ofInt (defined : ¬ (operator.isDivision = true ∧ right = 0)) :
    operator.apply left right = .ok (.ofInt (operator.exactValue left.toInt right.toInt)) := by
  have lower := left.minValue_le_toInt
  have upper := left.toInt_le
  have alsoLower := right.minValue_le_toInt
  have alsoUpper := right.toInt_le
  cases operator with
  | divide =>
    rw [apply, if_neg fun isZero => defined ⟨rfl, isZero⟩, exactValue,
      Int64.ofInt_tdiv lower upper alsoLower alsoUpper, Int64.ofInt_toInt, Int64.ofInt_toInt]
  | modulo =>
    rw [apply, if_neg fun isZero => defined ⟨rfl, isZero⟩, exactValue,
      Int64.ofInt_tmod lower upper alsoLower alsoUpper, Int64.ofInt_toInt, Int64.ofInt_toInt]
  | _ =>
    rw [← apply_ofInt rfl, Int64.ofInt_toInt, Int64.ofInt_toInt]

theorem apply_zero (division : operator.isDivision = true) : operator.apply left 0 = .error .divisionByZero := by
  cases operator with
  | divide | modulo => rfl
  | _ => cases division

/-- `left operator right`, with the numerals of the two integers. -/
def line (operator : Operator) (left right : Int64) : String :=
  Numeral.write left ++ " " ++ operator.symbol ++ " " ++ Numeral.write right ++ "\n"

theorem spells_line (readable : left ≠ Int64.minValue) (alsoReadable : right ≠ Int64.minValue) :
    Token.Spells (Numeral.write left ++ " " ++ operator.symbol ++ " " ++ Numeral.write right).toList
      (Token.numeral left ++ .ofSign operator.char :: Token.numeral right) := by
  have isSign : (Token.Kind.ofSign? operator.char).isSome = true := by cases operator <;> rfl
  have spells := (Numeral.spells_numeral readable).spaced isSign (Numeral.spells_numeral alsoReadable)
  simpa [toList_symbol] using spells

-- A minus sign in front of digits is that of a negative integer, also right after an operator.
theorem parseLine_line (readable : left ≠ Int64.minValue) (alsoReadable : right ≠ Int64.minValue) :
    parseLine (operator.line left right) = .ok (.binary operator (.numeral left) (.numeral right)) := by
  have isSign : (Token.ofSign operator.char).kind ≠ .invalid := by cases operator <;> decide
  have derives := Derives.operation operator (derives_numeral left) (derives_numeral right .newLine) (by decide)
    (by decide)
  refine parseLine_of_spells String.toList_append (spells_line readable alsoReadable) ?_ derives
  exact List.forall_mem_append.mpr
    ⟨Token.valid_numeral left, List.forall_mem_cons.mpr ⟨isSign, Token.valid_numeral right⟩⟩

theorem evalLine_line (session : Session) (readable : left ≠ Int64.minValue) (alsoReadable : right ≠ Int64.minValue) :
    session.evalLine (operator.line left right) =
      ⟨((operator.apply left right).map .integer).mapError .eval, session⟩ := by
  rw [Session.evalLine, parseLine_line readable alsoReadable]
  simp only [Session.eval_binary_of_ok operator (Session.eval_numeral left) (Session.eval_numeral right)]
  rfl

theorem evalLine_line_of_zero (session : Session) (readable : left ≠ Int64.minValue)
    (division : operator.isDivision = true) :
    session.evalLine (operator.line left 0) = ⟨.error (.eval .divisionByZero), session⟩ := by
  rw [evalLine_line session readable (by decide), apply_zero division]
  rfl

theorem evalLine_line_of_defined (session : Session) (readable : left ≠ Int64.minValue)
    (alsoReadable : right ≠ Int64.minValue) (defined : ¬ (operator.isDivision = true ∧ right = 0)) :
    session.evalLine (operator.line left right) =
      ⟨.ok (.integer (.ofInt (operator.exactValue left.toInt right.toInt))), session⟩ := by
  rw [evalLine_line session readable alsoReadable, apply_eq_ofInt defined]
  rfl

end Operator

namespace Numeral

variable {value : Int64}

theorem evalLine_write (session : Session) (readable : value ≠ Int64.minValue) :
    session.evalLine (write value ++ "\n") = ⟨.ok (.integer value), session⟩ := by
  have derives := (derives_numeral value .newLine).toWhole (by decide) (by decide)
  have parses : parseLine (write value ++ "\n") = .ok (.numeral value) :=
    parseLine_of_spells String.toList_append (spells_numeral readable) (Token.valid_numeral value) derives
  rw [Session.evalLine, parses]
  simp only [Session.eval_numeral]
  rfl

-- The digits are read before the sign counts, and their value is one too large.
theorem evalLine_write_minValue (session : Session) :
    session.evalLine (write Int64.minValue ++ "\n") =
      ⟨.error (.parse (.badInteger "9223372036854775808" .tooLarge)), session⟩ := by
  have scanned : Token.scan (write Int64.minValue ++ "\n") =
      [⟨.minus, "-", 0, 1⟩, ⟨.integer, "9223372036854775808", 1, 20⟩, ⟨.newLine, "", 20, 21⟩,
        ⟨.endOfInput, "", 21, 21⟩] := by decide +kernel
  have parses : parseLine (write Int64.minValue ++ "\n") =
      .error (.parse (.badInteger "9223372036854775808" .tooLarge)) := by
    rw [parseLine, Token.tokenize, scanned]
    rfl
  rw [Session.evalLine, parses]

end Numeral

theorem quotient_remainder {left right : Int64} (readable : left ≠ Int64.minValue) (nonzero : right ≠ 0) :
    left.toInt = (left / right).toInt * right.toInt + (left % right).toInt ∧
      (left % right).toInt.natAbs < right.toInt.natAbs ∧
      ((left % right).toInt = 0 ∨ (left % right).toInt.sign = left.toInt.sign) := by
  have divisor : right.toInt ≠ 0 := fun isZero => nonzero (Int64.toInt_inj.mp isZero)
  rw [Int64.toInt_div_of_ne_left left right readable, Int64.toInt_mod]
  refine ⟨(Int.tdiv_mul_add_tmod _ _).symm, ?_, ?_⟩
  · rw [Int.natAbs_tmod]
    exact Nat.mod_lt _ (Int.natAbs_pos.mpr divisor)
  · have sign := Int.sign_tmod left.toInt right.toInt
    split at sign
    · exact .inl (Int.sign_eq_zero_iff_zero.mp sign)
    · exact .inr sign

/-- Between two integers that can be entered, every operator gives the exact result wrapped around, except that a
division by zero fails. Quotient and remainder are those of division toward zero. An integer comes back from its
numeral unless it is the least one, whose digits are refused. No such line changes the session. -/
theorem evalLine_numerals_exact (session : Session) :
    (∀ (operator : Operator) (left right : Int64), left ≠ Int64.minValue → right ≠ Int64.minValue →
      if operator.isDivision = true ∧ right = 0 then
        session.evalLine (operator.line left right) = ⟨.error (.eval .divisionByZero), session⟩
      else ∃ value : Int64, session.evalLine (operator.line left right) = ⟨.ok (.integer value), session⟩ ∧
        value.toInt ≡ operator.exactValue left.toInt right.toInt [ZMOD 2 ^ 64]) ∧
    (∀ left right : Int64, left ≠ Int64.minValue → right ≠ Int64.minValue → right ≠ 0 →
      ∃ quotient remainder : Int64,
        session.evalLine (Operator.divide.line left right) = ⟨.ok (.integer quotient), session⟩ ∧
        session.evalLine (Operator.modulo.line left right) = ⟨.ok (.integer remainder), session⟩ ∧
        left.toInt = quotient.toInt * right.toInt + remainder.toInt ∧
        remainder.toInt.natAbs < right.toInt.natAbs ∧
        (remainder.toInt = 0 ∨ remainder.toInt.sign = left.toInt.sign)) ∧
    (∀ value : Int64, session.evalLine ((Value.integer value).display ++ "\n") = ⟨.ok (.integer value), session⟩ ↔
      value ≠ Int64.minValue) ∧
    session.evalLine ((Value.integer Int64.minValue).display ++ "\n") =
      ⟨.error (.parse (.badInteger "9223372036854775808" .tooLarge)), session⟩ := by
  refine ⟨?_, ?_, ?_, Numeral.evalLine_write_minValue session⟩
  · intro operator left right readable alsoReadable
    split
    next divides =>
      obtain ⟨division, rfl⟩ := divides
      exact Operator.evalLine_line_of_zero session readable division
    next defined =>
      exact ⟨_, Operator.evalLine_line_of_defined session readable alsoReadable defined, toInt_ofInt_modEq _⟩
  · intro left right readable alsoReadable nonzero
    refine ⟨left / right, left % right, ?_, ?_, quotient_remainder readable nonzero⟩
    · rw [Operator.evalLine_line session readable alsoReadable, Operator.apply, if_neg nonzero]
      rfl
    · rw [Operator.evalLine_line session readable alsoReadable, Operator.apply, if_neg nonzero]
      rfl
  · intro value
    constructor
    · rintro comes rfl
      have refused := Numeral.evalLine_write_minValue session
      rw [show Numeral.write Int64.minValue = (Value.integer Int64.minValue).display from rfl, comes] at refused
      cases refused
    · exact Numeral.evalLine_write session

theorem evalLine_numerals_exact_negative :
    (∃ value : Int64, Session.evalLine {} "-9223372036854775807 - 9223372036854775807\n" = ⟨.ok (.integer value), {}⟩ ∧
      value.toInt ≡ -2 ^ 64 + 2 [ZMOD 2 ^ 64]) ∧
    Session.evalLine {} "-7 % 0\n" = ⟨.error (.eval .divisionByZero), {}⟩ ∧
    (∃ quotient remainder : Int64, Session.evalLine {} "-7 / 2\n" = ⟨.ok (.integer quotient), {}⟩ ∧
      Session.evalLine {} "-7 % 2\n" = ⟨.ok (.integer remainder), {}⟩ ∧
      -7 = quotient.toInt * 2 + remainder.toInt ∧ remainder.toInt.natAbs < 2 ∧
      (remainder.toInt = 0 ∨ remainder.toInt.sign = -1)) ∧
    Session.evalLine {} "-9223372036854775807\n" = ⟨.ok (.integer (-9223372036854775807)), {}⟩ := by
  obtain ⟨operations, divisions, numerals, -⟩ := evalLine_numerals_exact {}
  have difference : Operator.subtract.line (-9223372036854775807) 9223372036854775807 =
      "-9223372036854775807 - 9223372036854775807\n" := by decide +kernel
  have byZero : Operator.modulo.line (-7) 0 = "-7 % 0\n" := by decide +kernel
  have quotient : Operator.divide.line (-7) 2 = "-7 / 2\n" := by decide +kernel
  have remainder : Operator.modulo.line (-7) 2 = "-7 % 2\n" := by decide +kernel
  have numeral : (Value.integer (-9223372036854775807)).display ++ "\n" = "-9223372036854775807\n" := by
    decide +kernel
  refine ⟨?_, ?_, ?_, ?_⟩
  · have comes := operations .subtract (-9223372036854775807) 9223372036854775807 (by decide) (by decide)
    rw [if_neg (by decide), difference] at comes
    exact comes
  · have fails := operations .modulo (-7) 0 (by decide) (by decide)
    rw [if_pos ⟨rfl, rfl⟩, byZero] at fails
    exact fails
  · have divides := divisions (-7) 2 (by decide) (by decide) (by decide)
    rw [quotient, remainder] at divides
    exact divides
  · have comes := (numerals (-9223372036854775807)).mpr (by decide)
    rw [numeral] at comes
    exact comes

end LineLang
