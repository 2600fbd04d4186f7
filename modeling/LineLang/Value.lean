import LineLang.Expr.Render
import LineLang.Frame

/-! What expressions evaluate to, and the ways in which evaluating fails. -/

set_option autoImplicit false

namespace LineLang

/-- A closure is a function that came out of a call, with the frame the call ended in. -/
inductive Value where
  | integer (value : Int64)
  | function (parameters : List String) (body : Expr)
  | closure (parameters : List String) (body : Expr) (captured : Frame Value)

inductive EvalError where
  | undefined (name : String)
  | notFunction
  | argumentCount (callee : Expr) (expected actual : Nat)
  | operandNotInteger (operator : Operator)
  | negatedNotInteger
  | conditionNotInteger
  | divisionByZero
  | tooManyCalls (limit : Nat)
  deriving DecidableEq

def Value.display : Value → String
  | .integer value => Numeral.write value
  | .function .. | .closure .. => "[Function]"

def EvalError.message : EvalError → String
  | .undefined name => "variable \"" ++ name ++ "\" not defined"
  | .notFunction => "expression does not evaluate to a function"
  | .argumentCount callee expected actual =>
    "incorrect amount of arguments for \"" ++ callee.render ++ "\", expected " ++
      toString expected ++ " got " ++ toString actual
  | .operandNotInteger operator => operator.symbol ++ " cannot be applied to expression"
  | .negatedNotInteger => "cannot apply - to non integer"
  | .conditionNotInteger => "cannot evaluate condition on non integer value"
  | .divisionByZero => "division by zero"
  | .tooManyCalls limit => "max stack size " ++ toString limit ++ " exceeded"

end LineLang
