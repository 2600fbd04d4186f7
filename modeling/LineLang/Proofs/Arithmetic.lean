import Mathlib.Algebra.Ring.Int.Defs
import Mathlib.Data.Int.ModEq
import LineLang.Proofs.Evaluation

/-! Arithmetic at 64 bits.

Every operation wraps its result around. For signs, sums, differences and products it makes no difference when that is
done: integers of any size, wrapped around once at the end, give the same. Quotients and remainders are those of what
their operands have been wrapped to.
-/

set_option autoImplicit false

namespace LineLang

def Sign.exactValue : Sign → Int → Int
  | .plus, operand => operand
  | .minus, operand => -operand

def Operator.exactValue : Operator → Int → Int → Int
  | .add, left, right => left + right
  | .subtract, left, right => left - right
  | .multiply, left, right => left * right
  | .divide, left, right => left.tdiv right
  | .modulo, left, right => left.tmod right

def Operator.isDivision : Operator → Bool
  | .divide | .modulo => true
  | .add | .subtract | .multiply => false

theorem toInt_ofInt_modEq (value : Int) : (Int64.ofInt value).toInt ≡ value [ZMOD 2 ^ 64] := by
  rw [Int64.toInt_ofInt]
  exact Int.bmod_emod

theorem ofInt_eq_iff_modEq {first second : Int} :
    Int64.ofInt first = Int64.ofInt second ↔ first ≡ second [ZMOD 2 ^ 64] := by
  constructor
  · intro same
    have wraps := toInt_ofInt_modEq first
    rw [same] at wraps
    exact wraps.symm.trans (toInt_ofInt_modEq second)
  · intro (congruent : first % 2 ^ 64 = second % 2 ^ 64)
    have wrapped : first.bmod (2 ^ 64) = second.bmod (2 ^ 64) := by
      rw [← Int.emod_bmod first, ← Int.emod_bmod second]
      exact congrArg (Int.bmod · (2 ^ 64)) congruent
    rw [Int64.ofInt_eq_iff_bmod_eq_toInt, Int64.toInt_ofInt]
    exact wrapped

namespace Operator

variable {operator : Operator}

theorem apply_ofInt (ring : operator.isDivision = false) (left right : Int) :
    operator.apply (.ofInt left) (.ofInt right) = .ok (.ofInt (operator.exactValue left right)) := by
  cases operator with
  | add => rw [exactValue, Int64.ofInt_add]; rfl
  | subtract => rw [exactValue, Int64.ofInt_sub]; rfl
  | multiply => rw [exactValue, Int64.ofInt_mul]; rfl
  | divide | modulo => cases ring

end Operator

theorem Sign.apply_ofInt (sign : Sign) (operand : Int) :
    sign.apply (.integer (.ofInt operand)) = .ok (.integer (.ofInt (sign.exactValue operand))) := by
  cases sign with
  | plus => rfl
  | minus => rw [exactValue, Int64.ofInt_neg]; rfl

namespace Expr

/-- Built from integers by signs, sums, differences and products. -/
inductive Arithmetic : Expr → Prop where
  | integer (value : Int64) : Arithmetic (.integer value)
  | signed {operand : Expr} (sign : Sign) : Arithmetic operand → Arithmetic (.signed sign operand)
  | binary {operator : Operator} {left right : Expr} : operator.isDivision = false → Arithmetic left →
      Arithmetic right → Arithmetic (.binary operator left right)

/-- The value over integers of any size, for expressions made of integers, signs and operators only. -/
def exactValue : Expr → Int
  | .integer value => value.toInt
  | .signed sign operand => sign.exactValue operand.exactValue
  | .binary operator left right => operator.exactValue left.exactValue right.exactValue
  | _ => 0

-- Each operation is applied to what its operands have been wrapped to, and wraps around again.
theorem Arithmetic.eval_eq {expr : Expr} (arithmetic : expr.Arithmetic) (session : Session) :
    session.eval expr = ⟨.ok (.integer (.ofInt expr.exactValue)), session⟩ := by
  induction arithmetic with
  | integer value => rw [Session.eval_integer, exactValue, Int64.ofInt_toInt]
  | signed sign _ ih => rw [Session.eval_signed, ih, Outcome.bind_ok, Sign.apply_ofInt, exactValue]
  | binary ring _ _ ihLeft ihRight =>
    rw [Session.eval_binary_of_ok _ ihLeft ihRight, Operator.apply_ofInt ring, exactValue]
    rfl

end Expr

/-- What an arithmetic expression comes to is the 64-bit integer that its exact value wraps around to, whatever has
overflowed on the way. So two of them come to the same if their exact values are the same, or differ by multiples of
`2 ^ 64`, and only then. -/
theorem eval_arithmetic_exact {expr : Expr} (arithmetic : expr.Arithmetic) :
    (∀ session : Session, ∃ result : Int64, session.eval expr = ⟨.ok (.integer result), session⟩ ∧
      -2 ^ 63 ≤ result.toInt ∧ result.toInt < 2 ^ 63 ∧ result.toInt ≡ expr.exactValue [ZMOD 2 ^ 64]) ∧
    ∀ other : Expr, other.Arithmetic → ∀ session another : Session,
      ((session.eval expr).result = (another.eval other).result ↔
        expr.exactValue ≡ other.exactValue [ZMOD 2 ^ 64]) := by
  constructor
  · intro session
    have range := (Int64.ofInt expr.exactValue).le_toInt
    exact ⟨.ofInt expr.exactValue, arithmetic.eval_eq session, range, Int64.toInt_lt _, toInt_ofInt_modEq _⟩
  · intro other alsoArithmetic session another
    rw [arithmetic.eval_eq, alsoArithmetic.eval_eq, ← ofInt_eq_iff_modEq]
    simp

/-- `9223372036854775807 * 4 - -(-9223372036854775808)`, where the product and the negation overflow. -/
def overflowing : Expr :=
  .binary .subtract (.binary .multiply (.integer Int64.maxValue) (.integer 4))
    (.signed .minus (.integer Int64.minValue))

theorem eval_arithmetic_exact_overflowing :
    overflowing.exactValue = 3 * 2 ^ 63 - 4 ∧
      Session.eval {} overflowing = ⟨.ok (.integer 9223372036854775804), {}⟩ ∧
      (Session.eval {} overflowing).result = (Session.eval {} (.integer (-4 - Int64.minValue))).result := by
  have arithmetic : overflowing.Arithmetic :=
    .binary rfl (.binary rfl (.integer _) (.integer _)) (.signed _ (.integer _))
  have value : overflowing.exactValue = 3 * 2 ^ 63 - 4 := by decide
  obtain ⟨comes, alike⟩ := eval_arithmetic_exact arithmetic
  obtain ⟨result, evaluated, lower, upper, congruent⟩ := comes {}
  rw [value] at congruent
  have wrapped : result.toInt = (9223372036854775804 : Int64).toInt := by
    change result.toInt = 9223372036854775804
    unfold Int.ModEq at congruent
    omega
  refine ⟨value, ?_, (alike _ (.integer _) {} {}).mpr (by decide)⟩
  rw [evaluated, Int64.toInt_inj.mp wrapped]

end LineLang
