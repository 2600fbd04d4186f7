import LineLang.Expr
import LineLang.Numeral

/-! The text of an expression.

Everything but integers, names and calls stands in parentheses. A sign binds tighter than a call, so
a call under a sign gets parentheses of its own.
-/

set_option autoImplicit false

namespace LineLang.Expr

def isCall : Expr → Bool
  | .call _ _ => true
  | _ => false

mutual

def render : Expr → String
  | .integer value => Numeral.write value
  | .name word => word
  | .signed sign operand =>
    if operand.isCall then "(" ++ sign.symbol ++ "(" ++ render operand ++ "))"
    else "(" ++ sign.symbol ++ render operand ++ ")"
  | .binary operator left right =>
    "(" ++ render left ++ " " ++ operator.symbol ++ " " ++ render right ++ ")"
  | .choice condition consequence alternative =>
    "(" ++ render condition ++ " ? " ++ render consequence ++ " : " ++ render alternative ++ ")"
  | .assign target value => "(" ++ target ++ " = " ++ render value ++ ")"
  | .function parameters body =>
    "(|" ++ String.intercalate " " parameters ++ "| " ++ render body ++ ")"
  | .call callee arguments =>
    render callee ++ "(" ++ String.intercalate " " (renderAll arguments) ++ ")"

def renderAll : List Expr → List String
  | [] => []
  | argument :: rest => render argument :: renderAll rest

end

end LineLang.Expr
