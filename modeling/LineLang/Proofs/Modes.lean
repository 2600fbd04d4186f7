import LineLang.Program
import LineLang.Proofs.Prelude
import LineLang.Proofs.Script

/-! A script and the shell on the same lines.

Up to the first line that fails the two print the same. There a script stops, and the shell reports the failure and
goes on.
-/

set_option autoImplicit false

namespace LineLang

theorem Text.fromUTF8?_toUTF8 (text : String) : String.fromUTF8? text.toUTF8 = some text :=
  dif_pos text.isValidUTF8

namespace Shell

theorem Command.parse?_eq_none {line : String} (plain : Text.trim line ∉ ["exit", "debug", "vars", "help"]) :
    Command.parse? line = none := by
  unfold Command.parse?
  split <;> simp_all

section Replies

variable {tracing : Bool} {session after : Session} {line : String} {shown : List String} {ending : Ending}

theorem transcript_blank (blank : Text.isBlank line = true) (shell : Shell) (rest : List String) :
    shell.transcript ending (line :: rest) = shell.transcript ending rest := by
  rw [transcript, reply, if_pos blank]
  rfl

theorem transcript_line {result : Except LineError Value} (visible : Text.isBlank line ≠ true)
    (plain : Command.parse? line = none) (runs : session.runLine tracing line = ⟨shown, result, after⟩)
    (rest : List String) :
    transcript ⟨session, tracing⟩ ending (line :: rest) =
      shown ++ display result :: transcript ⟨after, tracing⟩ ending rest := by
  rw [transcript, reply, if_neg visible, plain]
  simp only [runLine, runs, List.append_assoc, List.singleton_append]

end Replies

theorem transcript_append (tracing : Bool) (ending : Ending) (number : Nat) {session : Session} {lines : List String}
    (plain : ∀ line ∈ lines, Command.parse? line = none)
    (succeeds : (Script.runLines tracing number session lines).failure = none) (others : List String) :
    transcript ⟨session, tracing⟩ ending (lines ++ others) =
      (Script.runLines tracing number session lines).printed ++
        transcript ⟨(Script.runLines tracing number session lines).session, tracing⟩ ending others := by
  induction number, session, lines using Script.runLines_induct tracing with
  | nil number session => rfl
  | blank number session line rest isBlank ih =>
    rw [Script.runLines_blank isBlank] at succeeds ⊢
    rw [List.cons_append, transcript_blank isBlank, ih (List.forall_mem_cons.mp plain).2 succeeds]
  | error number session line rest shown error after visible runs =>
    rw [Script.runLines_error visible runs] at succeeds
    cases succeeds
  | ok number session line rest shown value after visible runs ih =>
    obtain ⟨plainLine, plainRest⟩ := List.forall_mem_cons.mp plain
    rw [Script.runLines_ok visible runs] at succeeds ⊢
    rw [List.cons_append, transcript_line visible plainLine runs, ih plainRest succeeds]
    simp only [display, List.append_assoc, List.cons_append]

theorem transcript_of_failure (tracing : Bool) (ending : Ending) {number : Nat} {session : Session}
    {lines : List String} {failure : Script.Failure} (plain : ∀ line ∈ lines, Command.parse? line = none)
    (fails : (Script.runLines tracing number session lines).failure = some failure) :
    ∃ before line rest error after, lines = before ++ line :: rest ∧ failure = ⟨number + before.length, error⟩ ∧
      ((Script.runLines tracing number session before).session.runLine tracing line).outcome =
        ⟨.error error, after⟩ ∧
      transcript ⟨session, tracing⟩ ending lines =
        (Script.runLines tracing number session lines).printed ++
          display (.error error) :: transcript ⟨after, tracing⟩ ending rest := by
  obtain ⟨before, line, rest, shown, error, after, rfl, visible, succeeds, runs, whole⟩ :=
    Script.exists_failing_line tracing fails
  obtain ⟨plainBefore, plainLater⟩ := List.forall_mem_append.mp plain
  have plainLine := (List.forall_mem_cons.mp plainLater).1
  rw [whole] at fails ⊢
  cases fails
  refine ⟨before, line, rest, error, after, rfl, rfl, by rw [runs], ?_⟩
  rw [transcript_append tracing ending number plainBefore succeeds, transcript_line visible plainLine runs,
    List.append_assoc]

theorem readInput_of_not_mem {text : String} (plain : Text.backspace ∉ text.toList) :
    readInput text.toUTF8 = (Text.lines text, .endOfInput) := by
  have unchanged : ∀ line ∈ Text.lines text, Text.applyBackspaces line = id line := by
    intro line isLine
    obtain ⟨chars, isPart, rfl⟩ := List.mem_map.mp isLine
    apply Text.applyBackspaces_of_not_mem
    rw [String.toList_ofList]
    exact fun isOne => plain (Text.mem_of_mem_splitLines isPart _ isOne)
  rw [readInput, typedLines, Text.fromUTF8?_toUTF8]
  dsimp only
  rw [List.map_congr_left unchanged, List.map_id]

end Shell

namespace Program

theorem Options.start_result (options : Options) : options.start.result = .ok () := by
  unfold Options.start
  split
  · rw [Prelude.load_eq]
  · rfl

theorem decode_toUTF8 (text : String) : decode text.toUTF8 = .ok text := by
  rw [decode, Text.fromUTF8?_toUTF8]

theorem unlines_append (first second : List String) : unlines (first ++ second) = unlines first ++ unlines second := by
  simp [unlines, String.join_append]

theorem unlines_cons (line : String) (rest : List String) : unlines (line :: rest) = line ++ "\n" ++ unlines rest := by
  simp [unlines, String.join_cons]

section Started

variable (options : Options)

theorem runScript_text (path text : String) :
    runScript options path (.ok text.toUTF8) =
      match Script.run options.tracing text options.start.session with
      | ⟨printed, none, _⟩ => .succeed printed
      | ⟨printed, some failure, _⟩ => .fail printed failure.message := by
  have started := options.start_result
  unfold runScript
  generalize options.start = outcome at started ⊢
  obtain ⟨result, session⟩ := outcome
  cases started
  have decoded : (Except.ok text.toUTF8 >>= decode) = .ok text := decode_toUTF8 text
  simp only [decoded]
  rcases Script.run options.tracing text session with ⟨printed, _ | failure, after⟩ <;> rfl

theorem runShellReading_lines {reader : ByteArray → List String × Shell.Ending} {input : ByteArray}
    {lines : List String} {ending : Shell.Ending} (reads : reader input = (lines, ending)) :
    runShellReading reader options input =
      .succeed (Shell.banner ++ Shell.transcript ⟨options.start.session, options.tracing⟩ ending lines) := by
  have started := options.start_result
  unfold runShellReading
  generalize options.start = outcome at started ⊢
  obtain ⟨result, session⟩ := outcome
  cases started
  simp only [reads]

variable {options} {path text : String} (noCommands : ∀ line ∈ Text.lines text, Shell.Command.parse? line = none)

include noCommands

theorem transcript_of_script_succeeds (succeeds : (runScript options path (.ok text.toUTF8)).exitCode = 0) :
    Report.succeed (Shell.banner ++
        Shell.transcript ⟨options.start.session, options.tracing⟩ .endOfInput (Text.lines text)) =
      ⟨0, unlines Shell.banner ++ (runScript options path (.ok text.toUTF8)).stdout ++
        unlines ["CTRL-D", "bye"], ""⟩ := by
  rw [runScript_text, Script.run] at succeeds ⊢
  rcases ran : Script.runLines options.tracing 1 options.start.session (Text.lines text) with
    ⟨printed, _ | failure, last⟩
  · have transcript := Shell.transcript_append options.tracing .endOfInput 1 noCommands (by rw [ran]) []
    rw [List.append_nil, ran] at transcript
    rw [transcript]
    simp only [Report.succeed, unlines_append, String.append_assoc]
    rfl
  · rw [ran] at succeeds
    exact absurd succeeds (show (1 : UInt32) ≠ 0 by decide)

theorem transcript_of_script_fails (fails : (runScript options path (.ok text.toUTF8)).exitCode ≠ 0) :
    ∃ before line rest error after, Text.lines text = before ++ line :: rest ∧
      (runScript options path (.ok text.toUTF8)).stderr =
        "ERROR: line " ++ toString (before.length + 1) ++ ": " ++ error.message ++ "\n" ∧
      ((Script.runLines options.tracing 1 options.start.session before).session.runLine
        options.tracing line).outcome = ⟨.error error, after⟩ ∧
      Report.succeed (Shell.banner ++
          Shell.transcript ⟨options.start.session, options.tracing⟩ .endOfInput (Text.lines text)) =
        ⟨0, unlines Shell.banner ++ (runScript options path (.ok text.toUTF8)).stdout ++
          ("ERROR: " ++ error.message ++ "\n") ++
          unlines (Shell.transcript ⟨after, options.tracing⟩ .endOfInput rest), ""⟩ := by
  rw [runScript_text, Script.run] at fails ⊢
  rcases ran : Script.runLines options.tracing 1 options.start.session (Text.lines text) with
    ⟨printed, _ | failure, last⟩
  · rw [ran] at fails
    exact absurd rfl fails
  · obtain ⟨before, line, rest, error, after, parts, rfl, stops, transcript⟩ :=
      Shell.transcript_of_failure options.tracing .endOfInput noCommands (by rw [ran])
    rw [ran] at transcript
    rw [transcript]
    refine ⟨before, line, rest, error, after, parts, ?_, stops, ?_⟩
    · have label : "ERROR: line " = "ERROR: " ++ "line " := rfl
      simp only [Report.fail, Script.Failure.message, label, String.append_assoc, Nat.add_comm]
    · simp only [Report.succeed, Report.fail, Shell.display, unlines_append, unlines_cons, String.append_assoc]

end Started

/-- On the same text, none of whose lines is a command, the shell prints what a script prints and then says goodbye,
if the script succeeds. If the script fails, the shell has printed the same by then, reports the same failure without
the number of the line, and goes on with the lines that are left in the session that the line left. -/
theorem script_shell_agreement (reader : ByteArray → List String × Shell.Ending) (options : Options)
    (path text : String) (splits : reader text.toUTF8 = (Text.lines text, .endOfInput))
    (plain : ∀ line ∈ Text.lines text, Text.trim line ∉ ["exit", "debug", "vars", "help"]) :
    let script := runScript options path (.ok text.toUTF8)
    let shell := runShellReading reader options text.toUTF8
    (script.exitCode = 0 →
      shell = ⟨0, unlines Shell.banner ++ script.stdout ++ unlines ["CTRL-D", "bye"], ""⟩) ∧
    (script.exitCode ≠ 0 →
      ∃ before line rest error after, Text.lines text = before ++ line :: rest ∧
        script.stderr = "ERROR: line " ++ toString (before.length + 1) ++ ": " ++ error.message ++ "\n" ∧
        ((Script.runLines options.tracing 1 options.start.session before).session.runLine
          options.tracing line).outcome = ⟨.error error, after⟩ ∧
        shell = ⟨0, unlines Shell.banner ++ script.stdout ++ ("ERROR: " ++ error.message ++ "\n") ++
          unlines (Shell.transcript ⟨after, options.tracing⟩ .endOfInput rest), ""⟩) := by
  dsimp only
  rw [runShellReading_lines options splits]
  have noCommands : ∀ line ∈ Text.lines text, Shell.Command.parse? line = none :=
    fun line isLine => Shell.Command.parse?_eq_none (plain line isLine)
  exact ⟨transcript_of_script_succeeds noCommands, transcript_of_script_fails noCommands⟩

theorem script_shell_agreement_afterFailure :
    runShell { withPrelude := false } "x = 1\r\n\n x".toUTF8 =
        ⟨0, "jaba 0.1.0\nType help for info\n1\n1\nCTRL-D\nbye\n", ""⟩ ∧
      ∃ error rest after,
        runShell { withPrelude := false } "x = 1\ny\nx\n".toUTF8 =
          ⟨0, "jaba 0.1.0\nType help for info\n1\nERROR: " ++ LineError.message error ++ "\n" ++
            unlines (Shell.transcript ⟨after, false⟩ .endOfInput rest), ""⟩ := by
  unfold runShell
  constructor
  · obtain ⟨agrees, -⟩ := script_shell_agreement Shell.readInput { withPrelude := false } "" "x = 1\r\n\n x"
      (Shell.readInput_of_not_mem (by decide)) (by decide)
    have script : (runScript { withPrelude := false } "" (.ok "x = 1\r\n\n x".toUTF8)).exitCode = 0 ∧
        (runScript { withPrelude := false } "" (.ok "x = 1\r\n\n x".toUTF8)).stdout = "1\n1\n" := by
      rw [runScript_text]
      decide +kernel
    rw [agrees script.1, script.2]
    rfl
  · obtain ⟨-, agrees⟩ := script_shell_agreement Shell.readInput { withPrelude := false } "" "x = 1\ny\nx\n"
      (Shell.readInput_of_not_mem (by decide)) (by decide)
    have script : (runScript { withPrelude := false } "" (.ok "x = 1\ny\nx\n".toUTF8)).exitCode ≠ 0 ∧
        (runScript { withPrelude := false } "" (.ok "x = 1\ny\nx\n".toUTF8)).stdout = "1\n" := by
      rw [runScript_text]
      decide +kernel
    obtain ⟨before, line, rest, error, after, -, -, -, shell⟩ := agrees script.1
    refine ⟨error, rest, after, ?_⟩
    rw [shell, script.2]
    simp only [← String.append_assoc]
    rfl

section Runs

variable {options : Options} {path text : String} (noBackspace : Text.backspace ∉ text.toList)

include noBackspace

theorem runShell_of_not_mem (options : Options) :
    runShell options text.toUTF8 =
      .succeed (Shell.banner ++
        Shell.transcript ⟨options.start.session, options.tracing⟩ .endOfInput (Text.lines text)) :=
  runShellReading_lines options (Shell.readInput_of_not_mem noBackspace)

variable (noCommands : ∀ line ∈ Text.lines text, Shell.Command.parse? line = none)

include noCommands

theorem runShell_of_script_succeeds (succeeds : (runScript options path (.ok text.toUTF8)).exitCode = 0) :
    runShell options text.toUTF8 =
      ⟨0, unlines Shell.banner ++ (runScript options path (.ok text.toUTF8)).stdout ++
        unlines ["CTRL-D", "bye"], ""⟩ := by
  rw [runShell_of_not_mem noBackspace]
  exact transcript_of_script_succeeds noCommands succeeds

theorem runShell_of_script_fails (fails : (runScript options path (.ok text.toUTF8)).exitCode ≠ 0) :
    ∃ before line rest error after, Text.lines text = before ++ line :: rest ∧
      (runScript options path (.ok text.toUTF8)).stderr =
        "ERROR: line " ++ toString (before.length + 1) ++ ": " ++ error.message ++ "\n" ∧
      ((Script.runLines options.tracing 1 options.start.session before).session.runLine
        options.tracing line).outcome = ⟨.error error, after⟩ ∧
      runShell options text.toUTF8 =
        ⟨0, unlines Shell.banner ++ (runScript options path (.ok text.toUTF8)).stdout ++
          ("ERROR: " ++ error.message ++ "\n") ++
          unlines (Shell.transcript ⟨after, options.tracing⟩ .endOfInput rest), ""⟩ := by
  rw [runShell_of_not_mem noBackspace]
  exact transcript_of_script_fails noCommands fails

end Runs

end Program

end LineLang
