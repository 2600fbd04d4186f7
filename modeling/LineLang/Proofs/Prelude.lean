import LineLang.Prelude

/-! What the definitions of the prelude are. Loading them always succeeds. -/

set_option autoImplicit false

namespace LineLang

theorem Session.evalLine_of_parses {text : String} {expr : Expr} (parses : (parseLine text).toOption = some expr)
    (session : Session) : session.evalLine text = (session.eval expr).mapError .eval := by
  unfold Session.evalLine
  cases read : parseLine text with
  | error fault =>
    rw [read] at parses
    cases parses
  | ok expr =>
    rw [read] at parses
    cases parses
    rfl

-- Naming a function calls nothing, so it succeeds whatever the limit.
theorem Session.evalLine_function {text target : String} {parameters : List String} {body : Expr}
    (parses : (parseLine text).toOption = some (.assign target (.function parameters body))) (session : Session) :
    session.evalLine text =
      ⟨.ok (.function parameters body), session.set target (.function parameters body)⟩ := by
  rw [evalLine_of_parses parses]
  unfold Session.eval
  cases session.limit - session.depth <;> rfl

namespace Prelude

/-- `(1664525 * x + 1013904223) % 4294967296` -/
def randomBody : Expr :=
  .binary .modulo
    (.binary .add (.binary .multiply (.integer 1664525) (.name "x")) (.integer 1013904223))
    (.integer 4294967296)

def nextRandom : Expr :=
  .function ["x"] randomBody

def fibonacciBefore (back : Int64) : Expr :=
  .call (.name "fibonacci") [.binary .subtract (.name "n") (.integer back)]

/-- `n - 1 ? n ? fibonacci(n - 1) + fibonacci(n - 2) : 0 : 1` -/
def fibonacciBody : Expr :=
  .choice (.binary .subtract (.name "n") (.integer 1))
    (.choice (.name "n") (.binary .add (fibonacciBefore 1) (fibonacciBefore 2)) (.integer 0))
    (.integer 1)

theorem load_eq (session : Session) :
    load session =
      ⟨.ok (), (session.set "rand" (.function ["seed"] nextRandom)).set "fibonacci"
        (.function ["n"] fibonacciBody)⟩ := by
  have first : (parseLine "rand = |seed| |x| (1664525 * x + 1013904223) % 4294967296\n").toOption =
      some (.assign "rand" (.function ["seed"] nextRandom)) := by decide +kernel
  have second :
      (parseLine "fibonacci = |n| n - 1 ? n ? fibonacci(n - 1) + fibonacci(n - 2) : 0 : 1\n").toOption =
      some (.assign "fibonacci" (.function ["n"] fibonacciBody)) := by decide +kernel
  simp only [load, definitions, Session.load, Session.evalLine_function first, Session.evalLine_function second,
    Outcome.bind_ok]

end Prelude

end LineLang
