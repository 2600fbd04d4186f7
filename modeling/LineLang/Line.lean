import LineLang.Eval
import LineLang.Parse
import LineLang.Text.Lines
import LineLang.Token.Scan

/-! Evaluating the text of a line. -/

set_option autoImplicit false

namespace LineLang

inductive LineError where
  | token (stray : Token.Stray)
  | parse (error : ParseError)
  | eval (error : EvalError)
  deriving DecidableEq

def LineError.message : LineError → String
  | .token stray => stray.message
  | .parse error => error.message
  | .eval error => error.message

/-- The expression of a text. The text has to hold the new line that ends it. -/
def parseLine (text : String) : Except LineError Expr :=
  match Token.tokenize text with
  | .error stray => .error (.token stray)
  | .ok tokens => (LineLang.parse tokens).mapError .parse

namespace Session

def evalLine (session : Session) (text : String) : Outcome LineError Value :=
  match parseLine text with
  | .error error => ⟨.error error, session⟩
  | .ok expr => (session.eval expr).mapError .eval

def load (session : Session) : List String → Outcome LineError Unit
  | [] => ⟨.ok (), session⟩
  | text :: rest => (session.evalLine text).bind fun _ session => session.load rest

end Session

structure LineRun where
  shown : List String
  outcome : Outcome LineError Value

def showTokens (tracing : Bool) (tokens : List Token) : List String :=
  if tracing then ["Tokens: " ++ String.intercalate " " (tokens.map Token.listing)] else []

def showExpr (tracing : Bool) (expr : Expr) : List String :=
  if tracing then ["Expression: " ++ expr.render] else []

/-- Evaluates a line whatever it ends in. Tracing shows the tokens once there are some and the
expression once there is one. -/
def Session.runLine (session : Session) (tracing : Bool) (line : String) : LineRun :=
  match Token.tokenize (Text.dropLineEnds line ++ "\n") with
  | .error stray => ⟨[], .error (.token stray), session⟩
  | .ok tokens =>
    match LineLang.parse tokens with
    | .error error => ⟨showTokens tracing tokens, .error (.parse error), session⟩
    | .ok expr =>
      ⟨showTokens tracing tokens ++ showExpr tracing expr, (session.eval expr).mapError .eval⟩

end LineLang
