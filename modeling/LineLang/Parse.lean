import LineLang.Parse.State

/-! The expression of a line of tokens. -/

set_option autoImplicit false

namespace LineLang

namespace Parse

def closeInput (tokens : List Token) : List Token :=
  match tokens.getLast? with
  | none => [⟨.endOfInput, "", 0, 0⟩]
  | some last =>
    if last.kind = .endOfInput then tokens
    else tokens ++ [⟨.endOfInput, "", last.stop, last.stop⟩]

def State.result : State → Except ParseError Expr
  | .finished expr => .ok expr
  | _ => .error .endOfLine

end Parse

/-- Reads one expression, a new line and the end of input. What follows the end is not looked at. -/
def parse (tokens : List Token) : Except ParseError Expr := do
  let state ← (Parse.closeInput tokens).foldlM Parse.State.step (.expression [])
  state.result

end LineLang
