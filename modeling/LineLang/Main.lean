import LineLang.Program

/-! The command line: an optional path of a script and the options, in any order. -/

set_option autoImplicit false

open LineLang

/-- What the command line asks for: a script by its path, or else the shell. -/
structure Invocation where
  options : Program.Options := {}
  path : Option String := none

def number? (text : String) : Option Nat :=
  if text.toList.all Char.isDigit then text.toNat? else none

def Invocation.parseFrom (invocation : Invocation) : List String → Except String Invocation
  | [] => .ok invocation
  | "-d" :: rest | "--debug" :: rest =>
    parseFrom { invocation with options.tracing := true } rest
  | "--no-prelude" :: rest =>
    parseFrom { invocation with options.withPrelude := false } rest
  | "--max-call-depth" :: count :: rest =>
    match number? count with
    | some limit => parseFrom { invocation with options.limit := limit } rest
    | none => .error ("not a number of calls: " ++ count)
  | argument :: rest =>
    if argument.startsWith "-" then .error ("not an option: " ++ argument)
    else if invocation.path.isSome then .error ("a second path: " ++ argument)
    else parseFrom { invocation with path := some argument } rest

def readScript (path : String) : IO (Except Program.ReadFailure ByteArray) := do
  try
    return .ok (← IO.FS.readBinFile path)
  catch
    | .noFileOrDirectory .. => return .error .missing
    | error => return .error (.other (toString error))

partial def readRest (input : IO.FS.Stream) (bytes : ByteArray) : IO ByteArray := do
  let more ← input.read 65536
  if more.isEmpty then return bytes else readRest input (bytes ++ more)

partial def converse (input output : IO.FS.Stream) (shell : Shell) : IO Unit := do
  output.putStr "> "
  output.flush
  let line ← input.getLine
  if line.isEmpty then
    output.putStr (Program.unlines (shell.transcript .endOfInput []))
  else
    let reply := shell.reply line
    output.putStr (Program.unlines reply.printed)
    match reply.next with
    | some shell => converse input output shell
    | none => output.putStr (Program.unlines [Shell.farewell])

def finish (report : Program.Report) : IO UInt32 := do
  IO.print report.stdout
  IO.eprint report.stderr
  return report.exitCode

def main (arguments : List String) : IO UInt32 := do
  match Invocation.parseFrom {} arguments with
  | .error reason =>
    IO.eprintln reason
    return 2
  | .ok ⟨options, some path⟩ => finish (Program.runScript options path (← readScript path))
  | .ok ⟨options, none⟩ =>
    let input ← IO.getStdin
    if ← input.isTty then
      match options.start with
      | ⟨.error error, _⟩ => finish (.fail [] error.message)
      | ⟨.ok (), session⟩ =>
        let output ← IO.getStdout
        output.putStr (Program.unlines Shell.banner)
        converse input output { session, tracing := options.tracing }
        return 0
    else finish (Program.runShell options (← readRest input .empty))
