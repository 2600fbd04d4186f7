import LineLang.Expr
import LineLang.Parse.Error

/-! Reading a line one token at a time.

A state is what has been read so far: the constructs that are still open, innermost first, and what
stands after them. Each token opens a construct, ends some, or cannot stand where it is, so the first
token that no line can go on with is the one that is refused.

From loose to tight: assignment and choice, sums, products, calls, signs, single operands. A function
literal is a single operand whose body reaches as far right as it can. Arguments are sums that follow
each other with nothing in between.
-/

set_option autoImplicit false

namespace LineLang.Parse

/-- A construct that waits for the expression read next. -/
inductive Pending where
  | sign (sign : Sign)
  | factor (left : Expr) (operator : Operator)
  | term (left : Expr) (operator : Operator)
  | argument (callee : Expr) (before : List Expr)
  | group
  | target (name : String)
  | consequence (condition : Expr)
  | alternative (condition consequence : Expr)
  | body (parameters : List String)

inductive State where
  -- An expression has to start here.
  | expression (pending : List Pending)
  -- Between the bars of a function literal.
  | parameters (pending : List Pending) (names : List String)
  -- After a name that an equals sign would make the target of an assignment.
  | name (pending : List Pending) (word : String)
  -- After an operand with its signs and calls.
  | operand (pending : List Pending) (expr : Expr)
  -- After the new line.
  | line (expr : Expr)
  | finished (expr : Expr)

/-- Whether a whole expression has to follow, rather than an operand of a sign or an operator or an
argument. Only there can an assignment or a choice stand without parentheses. -/
def takesWhole : List Pending → Bool
  | .sign _ :: _ | .factor _ _ :: _ | .term _ _ :: _ | .argument _ _ :: _ => false
  | _ => true

def afterSign : List Pending → Bool
  | .sign _ :: _ => true
  | _ => false

def State.ofAtom : List Pending → Expr → State
  | .sign sign :: pending, atom => .operand pending (.signed sign atom)
  | pending, atom => .operand pending atom

def openSign (pending : List Pending) (sign : Sign) (token : Token) : Except ParseError State :=
  if afterSign pending then .error (.unexpected .expression token)
  else .ok (.expression (.sign sign :: pending))

def start (pending : List Pending) (token : Token) : Except ParseError State :=
  match token.kind with
  | .newLine | .endOfInput => .error .endOfLine
  | .integer =>
    match Numeral.read token.text with
    | .ok value => .ok (.ofAtom pending (.integer value))
    | .error fault => .error (.badInteger token.text fault)
  | .name =>
    if takesWhole pending then .ok (.name pending token.text)
    else .ok (.ofAtom pending (.name token.text))
  | .leftParen => .ok (.expression (.group :: pending))
  | .bar => .ok (.parameters pending [])
  | .plus => openSign pending .plus token
  | .minus => openSign pending .minus token
  | .rightParen =>
    match pending with
    | .argument callee arguments :: pending => .ok (.operand pending (.call callee arguments))
    | _ => .error (.unexpected .expression token)
  | _ => .error (.unexpected .expression token)

def demand (kind : Token.Kind) (token : Token) (next : State) : Except ParseError State :=
  if token.kind = kind then .ok next else .error (.unexpected (.kind kind) token)

/-- The token does not go on with the expression, so every construct that can end here does. -/
def close : List Pending → Expr → Token → Except ParseError State
  | [], expr, token => demand .newLine token (.line expr)
  | .group :: pending, expr, token => demand .rightParen token (.ofAtom pending expr)
  | .consequence condition :: pending, expr, token =>
    demand .colon token (.expression (.alternative condition expr :: pending))
  | .argument callee arguments :: pending, expr, token =>
    start (.argument callee (arguments ++ [expr]) :: pending) token
  | .sign sign :: pending, expr, token => close pending (.signed sign expr) token
  | .factor left operator :: pending, expr, token => close pending (.binary operator left expr) token
  | .term left operator :: pending, expr, token => close pending (.binary operator left expr) token
  | .target name :: pending, expr, token => close pending (.assign name expr) token
  | .alternative condition consequence :: pending, expr, token =>
    close pending (.choice condition consequence expr) token
  | .body parameters :: pending, expr, token => close pending (.function parameters expr) token

def closeProduct : List Pending → Expr → List Pending × Expr
  | .factor left operator :: pending, expr => (pending, .binary operator left expr)
  | pending, expr => (pending, expr)

def closeSum (pending : List Pending) (expr : Expr) : List Pending × Expr :=
  match closeProduct pending expr with
  | (.term left operator :: pending, expr) => (pending, .binary operator left expr)
  | (pending, expr) => (pending, expr)

def openFactor (pending : List Pending) (operand : Expr) (operator : Operator) : State :=
  let (pending, product) := closeProduct pending operand
  .expression (.factor product operator :: pending)

def openTerm (pending : List Pending) (operand : Expr) (operator : Operator) : State :=
  let (pending, sum) := closeSum pending operand
  .expression (.term sum operator :: pending)

def proceed (pending : List Pending) (operand : Expr) (token : Token) : Except ParseError State :=
  match token.kind with
  | .leftParen => .ok (.expression (.argument operand [] :: pending))
  | .times => .ok (openFactor pending operand .multiply)
  | .divide => .ok (openFactor pending operand .divide)
  | .modulo => .ok (openFactor pending operand .modulo)
  | .plus => .ok (openTerm pending operand .add)
  | .minus => .ok (openTerm pending operand .subtract)
  | .question =>
    let (pending, sum) := closeSum pending operand
    if takesWhole pending then .ok (.expression (.consequence sum :: pending))
    else close pending sum token
  | _ => close pending operand token

def State.step : State → Token → Except ParseError State
  | .expression pending, token => start pending token
  | .parameters pending names, token =>
    match token.kind with
    | .name => .ok (.parameters pending (names ++ [token.text]))
    | _ => demand .bar token (.expression (.body names :: pending))
  | .name pending word, token =>
    if token.kind = .equals then .ok (.expression (.target word :: pending))
    else proceed pending (.name word) token
  | .operand pending expr, token => proceed pending expr token
  | .line expr, token => demand .endOfInput token (.finished expr)
  | .finished expr, _ => .ok (.finished expr)

end LineLang.Parse
