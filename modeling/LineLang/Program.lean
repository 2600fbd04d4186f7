import LineLang.Prelude
import LineLang.Script
import LineLang.Shell

/-! The whole program, from its options and inputs to what it prints and its exit code. -/

set_option autoImplicit false

namespace LineLang.Program

structure Options where
  tracing : Bool := false
  withPrelude : Bool := true
  limit : Nat := defaultLimit

structure Report where
  exitCode : UInt32
  stdout : String
  stderr : String

inductive ReadFailure where
  | missing
  | notText
  | other (reason : String)
  deriving DecidableEq, Repr

def ReadFailure.message : ReadFailure → String
  | .missing => "No such file or directory (os error 2)"
  | .notText => "stream did not contain valid UTF-8"
  | .other reason => reason

def unlines (printed : List String) : String :=
  String.join (printed.map (· ++ "\n"))

def Report.succeed (printed : List String) : Report :=
  ⟨0, unlines printed, ""⟩

def Report.fail (printed : List String) (reason : String) : Report :=
  ⟨1, unlines printed, "ERROR: " ++ reason ++ "\n"⟩

def Options.start (options : Options) : Outcome LineError Unit :=
  let session : Session := { limit := options.limit }
  if options.withPrelude then Prelude.load session else ⟨.ok (), session⟩

def decode (bytes : ByteArray) : Except ReadFailure String :=
  match String.fromUTF8? bytes with
  | some text => .ok text
  | none => .error .notText

def runScript (options : Options) (path : String) (contents : Except ReadFailure ByteArray) :
    Report :=
  match options.start with
  | ⟨.error error, _⟩ => .fail [] error.message
  | ⟨.ok (), session⟩ =>
    match contents >>= decode with
    | .error failure => .fail [] ("could not read " ++ path ++ ": " ++ failure.message)
    | .ok source =>
      let ⟨printed, failure, _⟩ := Script.run options.tracing source session
      match failure with
      | none => .succeed printed
      | some failure => .fail printed failure.message

/-- Runs the shell on a whole input, which `reader` cuts into lines. -/
def runShellReading (reader : ByteArray → List String × Shell.Ending) (options : Options) (input : ByteArray) :
    Report :=
  match options.start with
  | ⟨.error error, _⟩ => .fail [] error.message
  | ⟨.ok (), session⟩ =>
    let (lines, ending) := reader input
    .succeed (Shell.banner ++ Shell.transcript { session, tracing := options.tracing } ending lines)

def runShell : Options → ByteArray → Report :=
  runShellReading Shell.readInput

end LineLang.Program
