import LineLang.Line

/-! Scripts: lines that are evaluated one after the other until one fails.

Blank lines are passed over, and counted.
-/

set_option autoImplicit false

namespace LineLang.Script

/-- The line that failed, counted from one. -/
structure Failure where
  line : Nat
  error : LineError
  deriving DecidableEq

def Failure.message (failure : Failure) : String :=
  "line " ++ toString failure.line ++ ": " ++ failure.error.message

structure Run where
  printed : List String
  failure : Option Failure
  session : Session

def runLines (tracing : Bool) (number : Nat) (session : Session) : List String → Run
  | [] => ⟨[], none, session⟩
  | line :: rest =>
    if Text.isBlank line then runLines tracing (number + 1) session rest
    else
      let ⟨shown, result, session⟩ := session.runLine tracing line
      match result with
      | .error error => ⟨shown, some ⟨number, error⟩, session⟩
      | .ok value =>
        let tail := runLines tracing (number + 1) session rest
        { tail with printed := shown ++ value.display :: tail.printed }

def run (tracing : Bool) (source : String) (session : Session) : Run :=
  runLines tracing 1 session (Text.lines source)

end LineLang.Script
