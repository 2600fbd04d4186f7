import LineLang.Line
import LineLang.Text.Backspace

/-! The shell answers one line after the other, and goes on after a line that fails. -/

set_option autoImplicit false

namespace LineLang

inductive Shell.Command where
  | exit
  | debug
  | vars
  | help
  deriving DecidableEq, Repr

def Shell.Command.parse? (line : String) : Option Shell.Command :=
  match Text.trim line with
  | "exit" => some .exit
  | "debug" => some .debug
  | "vars" => some .vars
  | "help" => some .help
  | _ => none

structure Shell where
  session : Session
  tracing : Bool := false

namespace Shell

def banner : List String := ["jaba 0.1.0", "Type help for info"]

def help : List String := [
  "Documentation:",
  "  - Functions:",
  "    - Fn definition: adder = |a b| a + b",
  "    - Fn calling:    adder(1 2)",
  "    - Currying:      add = |a| |b| a + b",
  "                     add(1)(2)",
  "  - Basic arithmetic:",
  "    - 1 + b, 8 % 3, (a + 2) * 3, etc",
  "  - Conditionals:",
  "    - n ? 1 : 2      (any non-zero integer is true)",
  "  - Data types:",
  "    - Integer",
  "    - Function",
  "Commands:",
  "  - exit",
  "  - vars",
  "    - Lists every variable",
  "  - debug",
  "    - Toggles printing tokens and parsed expressions",
  "  - help"]

/-- What the shell prints for a line, and the shell that takes the next line, if any. -/
structure Reply where
  printed : List String
  next : Option Shell

def obey (shell : Shell) : Command → Reply
  | .exit => ⟨[], none⟩
  | .debug =>
    let tracing := !shell.tracing
    ⟨[if tracing then "debug on" else "debug off"], some { shell with tracing }⟩
  | .vars =>
    ⟨shell.session.bindings.map fun (name, value) => name ++ ": " ++ value.display, some shell⟩
  | .help => ⟨help, some shell⟩

def display : Except LineError Value → String
  | .ok value => value.display
  | .error error => "ERROR: " ++ error.message

def runLine (shell : Shell) (line : String) : Reply :=
  let ⟨shown, result, session⟩ := shell.session.runLine shell.tracing line
  ⟨shown ++ [display result], some { shell with session }⟩

def reply (shell : Shell) (line : String) : Reply :=
  if Text.isBlank line then ⟨[], some shell⟩
  else
    match Command.parse? line with
    | some command => shell.obey command
    | none => shell.runLine line

inductive Ending where
  | endOfInput
  | notText
  deriving DecidableEq, Repr

def Ending.message : Ending → String
  | .endOfInput => "CTRL-D"
  | .notText =>
    "Error: Io(Error \x7b kind: InvalidData, message: \"stream did not contain valid UTF-8\" \x7d)"

def farewell : String := "bye"

/-- What is printed from here on, up to the farewell. -/
def transcript (shell : Shell) (ending : Ending) : List String → List String
  | [] => [ending.message, farewell]
  | line :: rest =>
    let ⟨printed, next⟩ := shell.reply line
    match next with
    | some shell => printed ++ shell.transcript ending rest
    | none => printed ++ [farewell]

/-- The lines that can be read, up to the first that is not text. -/
def decodeLines : List (List UInt8) → List String × Ending
  | [] => ([], .endOfInput)
  | line :: rest =>
    match String.fromUTF8? ⟨line.toArray⟩ with
    | none => ([], .notText)
    | some text =>
      let (texts, ending) := decodeLines rest
      (text :: texts, ending)

def typedLines (bytes : ByteArray) : List String × Ending :=
  match String.fromUTF8? bytes with
  | some text => (Text.lines text, .endOfInput)
  | none => decodeLines (Text.splitLines 10 13 bytes.toList)

def readInput (bytes : ByteArray) : List String × Ending :=
  let (lines, ending) := typedLines bytes
  (lines.map Text.applyBackspaces, ending)

end Shell

end LineLang
