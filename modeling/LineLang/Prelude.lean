import LineLang.Line

/-! Definitions that a session can start with. -/

set_option autoImplicit false

namespace LineLang.Prelude

/-- A step of a linear congruential generator, which takes a seed only to name the generator, and the
Fibonacci numbers by their recurrence. -/
def definitions : List String := [
  "rand = |seed| |x| (1664525 * x + 1013904223) % 4294967296\n",
  "fibonacci = |n| n - 1 ? n ? fibonacci(n - 1) + fibonacci(n - 2) : 0 : 1\n"]

def load (session : Session) : Outcome LineError Unit :=
  session.load definitions

end LineLang.Prelude
