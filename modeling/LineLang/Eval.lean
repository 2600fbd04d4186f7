import LineLang.Session

/-! Evaluating expressions.

A call runs its arguments in the caller's frame and its body in a frame of its own, which starts from
the caller's, is covered by what a closure captured, and is covered again by the parameters. Whichever
way the body ends, the caller's frame comes back.

Calls that are open are counted, from before the arguments until after the body. A call past the limit
is refused and sets the count back to zero; closing a call takes one off a count that is not zero.

What a form does is said once, for whatever its parts do.
-/

set_option autoImplicit false

namespace LineLang

/-- Integers wrap around at 64 bits. A quotient is cut toward zero, and a remainder has the sign of the
left operand. -/
def Operator.apply : Operator → Int64 → Int64 → Except EvalError Int64
  | .add, left, right => .ok (left + right)
  | .subtract, left, right => .ok (left - right)
  | .multiply, left, right => .ok (left * right)
  | .divide, left, right => if right = 0 then .error .divisionByZero else .ok (left / right)
  | .modulo, left, right => if right = 0 then .error .divisionByZero else .ok (left % right)

def Sign.apply : Sign → Value → Except EvalError Value
  | .plus, operand => .ok operand
  | .minus, .integer value => .ok (.integer (-value))
  | .minus, _ => .error .negatedNotInteger

structure Callable where
  parameters : List String
  body : Expr
  captured : Frame Value

def Value.callable? : Value → Option Callable
  | .integer _ => none
  | .function parameters body => some ⟨parameters, body, .empty⟩
  | .closure parameters body captured => some ⟨parameters, body, captured⟩

/-- The frame a body starts in: the last parameter of a name, else what was captured, else what the
caller sees. -/
def Callable.frame (callable : Callable) (arguments : List Value) (caller : Frame Value) :
    Frame Value :=
  (caller.cover callable.captured).insertAll (callable.parameters.zip arguments)

theorem Callable.get?_frame (callable : Callable) (arguments : List Value) (caller : Frame Value)
    (name : String) :
    (callable.frame arguments caller).get? name =
      ((callable.parameters.zip arguments).reverse.lookup name).or
        ((callable.captured.get? name).or (caller.get? name)) := by
  rw [frame, Frame.get?_insertAll, Frame.get?_cover]

/-- A function that comes out of a call takes the frame along. -/
def Value.capture (frame : Frame Value) : Value → Value
  | .function parameters body => .closure parameters body frame
  | value => value

def Session.enter (session : Session) : Outcome EvalError Unit :=
  if session.depth + 1 > session.limit then
    ⟨.error (.tooManyCalls session.limit), { session with depth := 0 }⟩
  else ⟨.ok (), { session with depth := session.depth + 1 }⟩

def Outcome.leave {ε α : Type} (outcome : Outcome ε α) : Outcome ε α :=
  { outcome with session := { outcome.session with depth := outcome.session.depth - 1 } }

abbrev Action := Session → Outcome EvalError Value

abbrev Evaluator := Expr → Action

def Callable.run (runBody : Evaluator) (callable : Callable) (arguments : List Value)
    (caller : Session) : Outcome EvalError Value :=
  let outcome := runBody callable.body { caller with frame := callable.frame arguments caller.frame }
  { result := outcome.result.map (Value.capture outcome.session.frame)
    session := { outcome.session with frame := caller.frame } }

namespace Action

def give (value : Value) : Action
  | session => ⟨.ok value, session⟩

def name (word : String) : Action
  | session =>
    match session.get? word with
    | some value => ⟨.ok value, session⟩
    | none => ⟨.error (.undefined word), session⟩

def signed (sign : Sign) (operand : Action) : Action
  | session => (operand session).bind fun value session => ⟨sign.apply value, session⟩

def binary (operator : Operator) (left right : Action) : Action
  | session =>
    (left session).bind fun
      | .integer first, session =>
        (right session).bind fun
          | .integer second, session => ⟨(operator.apply first second).map .integer, session⟩
          | _, session => ⟨.error (.operandNotInteger operator), session⟩
      | _, session => ⟨.error (.operandNotInteger operator), session⟩

def choice (condition consequence alternative : Action) : Action
  | session =>
    (condition session).bind fun
      | .integer value, session => if value = 0 then alternative session else consequence session
      | _, session => ⟨.error .conditionNotInteger, session⟩

def assign (target : String) (value : Action) : Action
  | session => (value session).bind fun value session => ⟨.ok value, session.set target value⟩

def all : List Action → Session → Outcome EvalError (List Value)
  | [], session => ⟨.ok [], session⟩
  | first :: rest, session =>
    (first session).bind fun value session =>
      (all rest session).bind fun values session => ⟨.ok (value :: values), session⟩

/-- The callee is evaluated before its arguments, and is named as it was written when they are too many
or too few. -/
def call (runBody : Evaluator) (written : Expr) (callee : Action) (arguments : List Action) : Action
  | session =>
    (callee session).bind fun value session =>
      match value.callable? with
      | none => ⟨.error .notFunction, session⟩
      | some callable =>
        if callable.parameters.length = arguments.length then
          session.enter.bind fun _ session => ((all arguments session).bind (callable.run runBody)).leave
        else
          ⟨.error (.argumentCount written callable.parameters.length arguments.length), session⟩

end Action

mutual

/-- Evaluates an expression, where `runBody` evaluates the bodies of the functions it calls. -/
def Expr.evalWith (runBody : Evaluator) : Expr → Action
  | .integer value => .give (.integer value)
  | .name word => .name word
  | .signed sign operand => .signed sign (evalWith runBody operand)
  | .binary operator left right => .binary operator (evalWith runBody left) (evalWith runBody right)
  | .choice condition consequence alternative =>
    .choice (evalWith runBody condition) (evalWith runBody consequence) (evalWith runBody alternative)
  | .assign target value => .assign target (evalWith runBody value)
  | .function parameters body => .give (.function parameters body)
  | .call callee arguments =>
    .call runBody callee (evalWith runBody callee) (evalAllWith runBody arguments)

def Expr.evalAllWith (runBody : Evaluator) : List Expr → List Action
  | [] => []
  | first :: rest => evalWith runBody first :: evalAllWith runBody rest

end

/-- Evaluates where at most `room` more calls can be open at a time. Without room every call is
refused before its body is reached. -/
def Expr.evalWithin : Nat → Expr → Session → Outcome EvalError Value
  | 0, expr, session =>
    expr.evalWith (fun _ session => ⟨.error (.tooManyCalls session.limit), session⟩) session
  | room + 1, expr, session => expr.evalWith (evalWithin room) session

def Session.eval (session : Session) (expr : Expr) : Outcome EvalError Value :=
  expr.evalWithin (session.limit - session.depth) session

end LineLang
