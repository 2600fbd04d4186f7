import LineLang.Proofs.Evaluation
import LineLang.Proofs.RoundTrip.Derivation

/-! Integers in a line.

A minus sign is not part of a literal. The numeral of a negative integer is read as a sign before a literal, which
comes to the integer all the same. Only the least integer cannot be read back, as its magnitude is no literal.
-/

set_option autoImplicit false

namespace LineLang

open Grammar

/-- What the numeral of an integer is read as. -/
def Expr.numeral (value : Int64) : Expr :=
  if value < 0 then .signed .minus (.integer (-value)) else .integer value

def Token.numeral (value : Int64) : List Token :=
  if value < 0 then [.ofSign '-', ⟨.integer, Numeral.write (-value), 0, 0⟩]
  else [⟨.integer, Numeral.write value, 0, 0⟩]

theorem Token.valid_numeral (value : Int64) : ∀ token ∈ numeral value, token.kind ≠ .invalid := by
  unfold numeral
  split <;> simp [ofSign, Kind.ofSign?]

theorem Session.eval_numeral {session : Session} (value : Int64) :
    session.eval (.numeral value) = ⟨.ok (.integer value), session⟩ := by
  unfold Expr.numeral
  split
  · rw [eval_signed, eval_integer, Outcome.bind_ok, Sign.apply, Int64.neg_neg]
  · exact eval_integer value

theorem Grammar.derives_numeral (value : Int64) (next : Token.Kind) :
    Derives .longest .calls (Token.numeral value) next (.numeral value) := by
  unfold Token.numeral Expr.numeral
  split
  · exact .unary (.signed rfl (.integer rfl (Numeral.read_write (-value))))
  · exact .unary (.atom (.integer rfl (Numeral.read_write value)))

namespace Numeral

variable {value : Int64}

theorem toInt_neg_of_ne_minValue (readable : value ≠ Int64.minValue) : (-value).toInt = -value.toInt := by
  have lower := value.le_toInt
  have upper := value.toInt_lt
  have notLeast : value.toInt ≠ -2 ^ 63 := fun least => readable (Int64.toInt.inj least)
  rw [Int64.toInt_neg, Int.bmod_eq_of_le] <;> omega

theorem write_of_neg (negative : value < 0) (readable : value ≠ Int64.minValue) :
    0 ≤ -value ∧ write value = "-" ++ write (-value) := by
  have opposite := toInt_neg_of_ne_minValue readable
  have below : value.toInt < 0 := Int64.lt_iff_toInt_lt.mp negative
  have positive : 0 ≤ (-value).toInt := by omega
  have noSign : ¬ -value < 0 := fun less => absurd (Int64.lt_iff_toInt_lt.mp less) (Int.not_lt.mpr positive)
  refine ⟨Int64.le_iff_toInt_le.mpr positive, ?_⟩
  rw [write, write, if_pos negative, if_neg noSign, opposite, Int.natAbs_neg]

theorem spells_numeral (readable : value ≠ Int64.minValue) :
    Token.Spells (write value).toList (Token.numeral value) := by
  unfold Token.numeral
  split
  next negative =>
    obtain ⟨positive, written⟩ := write_of_neg negative readable
    rw [written, String.toList_append]
    exact (spells_write positive).sign_cons rfl
  next positive =>
    have nonNegative : 0 ≤ value := by
      rw [Int64.lt_iff_toInt_lt] at positive
      exact Int64.le_iff_toInt_le.mpr (Int.not_lt.mp positive)
    exact spells_write nonNegative

end Numeral

end LineLang
