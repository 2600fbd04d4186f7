import LineLang.Proofs.Effect
import LineLang.Proofs.Layout
import LineLang.Proofs.Modes
import LineLang.Proofs.RoundTrip

/-! Lines of the shell depend on each other only through what they assign and through the switch of tracing.

What the shell prints falls into one part for each line that it takes. A line which has no expression to evaluate, and
does not switch tracing, leaves the shell as it was, so the parts of all other lines are the same without it.
-/

set_option autoImplicit false

namespace LineLang

theorem Token.spell_separators {blanks : List Char} (separate : ∀ c ∈ blanks, isSeparator c = true)
    (rest : List Char) : spell (blanks ++ rest) = spell rest := by
  rw [spell, scanFrom_separators separate]
  exact map_bare_scanFrom _ _ _

theorem Token.spell_dropLineEnds {line : String} (single : '\n' ∉ line.toList) :
    spell (Text.dropLineEnds line ++ "\n").toList = spell (line.toList ++ ['\n']) := by
  obtain ⟨returns, parts, areReturns⟩ := Text.exists_returns single
  have singleBody : '\n' ∉ (Text.dropLineEnds line).toList :=
    fun isOne => single (parts ▸ List.mem_append_left _ isOne)
  have separate : ∀ c ∈ returns, isSeparator c = true := by
    intro c isOne
    rw [areReturns c isOne]
    decide
  obtain ⟨start, stop, short⟩ := scanFrom_line_end singleBody (List.forall_mem_nil _) 0 0
  obtain ⟨otherStart, otherStop, long⟩ := scanFrom_line_end singleBody separate 0 0
  have whole : line.toList ++ ['\n'] = (Text.dropLineEnds line).toList ++ (returns ++ List.replicate (0 + 1) '\n') := by
    rw [parts, List.append_assoc]
    rfl
  rw [spell, spell, String.toList_append, whole, long, List.map_append]
  rw [show "\n".toList = [] ++ List.replicate (0 + 1) '\n' from rfl, short, List.map_append]
  rfl

theorem parseLine_of_trim {line : String} (single : '\n' ∉ line.toList) (isOne : Token.isWord (Text.trim line) = true) :
    parseLine (Text.dropLineEnds line ++ "\n") = .ok (.name (Text.trim line)) := by
  obtain ⟨before, after, parts, spacesBefore, spacesAfter⟩ := Text.exists_trimmed line
  have separators : ∀ c ∈ before ++ after, Token.isSeparator c = true := by
    intro c isOne
    have inside : c ∈ line.toList := by
      rw [parts]
      simp only [List.mem_append] at isOne ⊢
      exact isOne.imp_right .inr
    have isSpace : Text.isSpace c = true := (List.mem_append.mp isOne).elim (spacesBefore c) (spacesAfter c)
    have noFeed : c ≠ '\n' := fun isFeed => single (isFeed ▸ inside)
    simp [Token.isSeparator, isSpace, noFeed]
  obtain ⟨separateBefore, separateAfter⟩ := List.forall_mem_append.mp separators
  have ends : Token.delimits (after ++ ['\n']) = true := Token.delimits_append separateAfter rfl
  have spelled : Token.spell (Text.dropLineEnds line ++ "\n").toList =
      [⟨.name, Text.trim line, 0, 0⟩, ⟨.newLine, "", 0, 0⟩, ⟨.endOfInput, "", 0, 0⟩] := by
    rw [Token.spell_dropLineEnds single, parts, List.append_assoc, Token.spell_separators separateBefore,
      List.append_assoc, Token.spell_word isOne ends, Token.spell_separators separateAfter, Token.spell_newLine]
  exact parseLine_of_spell spelled (by simp) rfl

namespace Shell

def Command.word : Command → String
  | .exit => "exit"
  | .debug => "debug"
  | .vars => "vars"
  | .help => "help"

theorem Command.word_ne_empty (command : Command) : command.word ≠ "" := by
  cases command <;> decide

theorem Command.parse?_eq_some {line : String} {command : Command} :
    parse? line = some command ↔ Text.trim line = command.word := by
  unfold parse?
  split <;> cases command <;> simp_all [word]

/-- The lines before the one that ends the shell. -/
def taken (lines : List String) : List String :=
  lines.takeWhile fun line => Text.trim line ≠ "exit"

def advance (shell : Shell) (line : String) : Shell :=
  (shell.reply line).next.getD shell

/-- What is printed for each of the lines. -/
def parts (shell : Shell) : List String → List (List String)
  | [] => []
  | line :: rest => (shell.reply line).printed :: (shell.advance line).parts rest

/-- What is printed after the last line. -/
def closing (ending : Ending) (lines : List String) : List String :=
  if lines.all fun line => Text.trim line ≠ "exit" then [ending.message, farewell] else [farewell]

/-- A line that neither evaluates an expression nor switches tracing. -/
def IsIdle (line : String) : Prop :=
  Text.isBlank line = true ∨ Text.trim line ∈ ["vars", "help"] ∨
    ∃ error, parseLine (Text.dropLineEnds line ++ "\n") = .error error

/-- What is evaluated for a line: nothing if it is blank or a command. -/
def evaluated (line : String) : List String :=
  if Text.isBlank line then []
  else if (Command.parse? line).isSome then []
  else [Text.dropLineEnds line ++ "\n"]

section Steps

variable (shell : Shell) {line : String}

theorem reply_blank (blank : Text.isBlank line = true) : shell.reply line = ⟨[], some shell⟩ := by
  rw [reply, if_pos blank]

theorem reply_command {command : Command} (isCommand : Text.trim line = command.word) :
    shell.reply line = shell.obey command := by
  have visible : Text.isBlank line ≠ true := by
    intro blank
    rw [Text.trim_of_isBlank blank] at isCommand
    exact command.word_ne_empty isCommand.symm
  rw [reply, if_neg visible, Command.parse?_eq_some.mpr isCommand]

theorem reply_line (visible : Text.isBlank line ≠ true) (plain : Command.parse? line = none) :
    shell.reply line = shell.runLine line := by
  rw [reply, if_neg visible, plain]

theorem line_cases (line : String) :
    Text.isBlank line = true ∨ (∃ command : Command, Text.trim line = command.word) ∨
      Text.isBlank line ≠ true ∧ Command.parse? line = none := by
  by_cases blank : Text.isBlank line = true
  · exact .inl blank
  · cases isCommand : Command.parse? line with
    | some command => exact .inr (.inl ⟨command, Command.parse?_eq_some.mp isCommand⟩)
    | none => exact .inr (.inr ⟨blank, rfl⟩)

theorem runLine_next (line : String) :
    (shell.runLine line).next =
      some { shell with session := (shell.session.evalLine (Text.dropLineEnds line ++ "\n")).session } := by
  rw [runLine, ← Session.runLine_outcome shell.session shell.tracing]

theorem reply_next (line : String) :
    (shell.reply line).next = if Text.trim line = "exit" then none else some (shell.advance line) := by
  rw [advance]
  rcases line_cases line with blank | ⟨command, isCommand⟩ | ⟨visible, plain⟩
  · rw [reply_blank shell blank, Text.trim_of_isBlank blank]
    rfl
  · rw [reply_command shell isCommand, isCommand]
    cases command <;> rfl
  · have noExit : Text.trim line ≠ "exit" := by
      intro isExit
      rw [Command.parse?_eq_some.mpr (show _ = Command.exit.word from isExit)] at plain
      cases plain
    rw [reply_line shell visible plain, runLine_next, if_neg noExit]
    rfl

theorem advance_session (line : String) :
    (shell.advance line).session = shell.session.evalLines (evaluated line) := by
  rw [advance, evaluated]
  rcases line_cases line with blank | ⟨command, isCommand⟩ | ⟨visible, plain⟩
  · rw [reply_blank shell blank, if_pos blank]
    rfl
  · rw [reply_command shell isCommand, Command.parse?_eq_some.mpr isCommand]
    cases command <;> split <;> rfl
  · rw [reply_line shell visible plain, runLine_next, if_neg visible, plain]
    rfl

theorem advance_of_isIdle (single : '\n' ∉ line.toList) (idle : IsIdle line) : shell.advance line = shell := by
  rw [advance]
  rcases idle with blank | isCommand | ⟨error, fails⟩
  · rw [reply_blank shell blank]
    rfl
  · simp only [List.mem_cons, List.not_mem_nil, or_false] at isCommand
    rcases isCommand with isVars | isHelp
    · rw [reply_command shell (show _ = Command.vars.word from isVars)]
      rfl
    · rw [reply_command shell (show _ = Command.help.word from isHelp)]
      rfl
  · rcases line_cases line with blank | ⟨command, isCommand⟩ | ⟨visible, plain⟩
    · rw [reply_blank shell blank]
      rfl
    · rw [reply_command shell isCommand]
      cases command with
      | debug =>
        -- The word that switches tracing would be read as a name.
        have reads := parseLine_of_trim single (by rw [isCommand]; decide +kernel)
        rw [fails] at reads
        cases reads
      | exit | vars | help => rfl
    · rw [reply_line shell visible plain, runLine_next, Session.evalLine, fails]
      rfl

end Steps

theorem length_parts (shell : Shell) (lines : List String) : (shell.parts lines).length = lines.length := by
  induction lines generalizing shell with
  | nil => rfl
  | cons line rest ih => rw [parts, List.length_cons, List.length_cons, ih]

theorem getElem?_parts (shell : Shell) (lines : List String) (index : Nat) :
    (shell.parts lines)[index]? =
      lines[index]?.map fun line => (((lines.take index).foldl advance shell).reply line).printed := by
  induction lines generalizing shell index with
  | nil => rfl
  | cons line rest ih =>
    cases index with
    | zero => rfl
    | succ index => exact ih (shell.advance line) index

theorem parts_eraseIdx {lines : List String} {index : Nat} {line : String} (isLine : lines[index]? = some line)
    (idle : ∀ shell : Shell, shell.advance line = shell) (shell : Shell) :
    shell.parts (lines.eraseIdx index) = (shell.parts lines).eraseIdx index := by
  induction lines generalizing index shell with
  | nil => rfl
  | cons first rest ih =>
    cases index with
    | zero =>
      cases isLine
      rw [parts, idle]
      rfl
    | succ index => exact congrArg _ (ih isLine (shell.advance first))

theorem foldl_advance_session (shell : Shell) (lines : List String) :
    (lines.foldl advance shell).session = shell.session.evalLines (lines.flatMap evaluated) := by
  induction lines generalizing shell with
  | nil => rfl
  | cons line rest ih =>
    rw [List.foldl_cons, ih, advance_session, List.flatMap_cons, Session.evalLines, Session.evalLines,
      Session.evalLines, List.foldl_append]

section Taken

variable {lines before : List String} {index : Nat} {line : String}

theorem exists_of_taken (isTaken : (taken lines)[index]? = some line) :
    ∃ before after, lines = before ++ line :: after ∧ before.length = index ∧
      (∀ other ∈ before, Text.trim other ≠ "exit") ∧ Text.trim line ≠ "exit" := by
  induction lines generalizing index with
  | nil => cases isTaken
  | cons first rest ih =>
    rw [taken, List.takeWhile_cons] at isTaken
    split at isTaken
    next stays =>
      rw [decide_eq_true_eq] at stays
      cases index with
      | zero =>
        cases isTaken
        exact ⟨[], rest, rfl, rfl, List.forall_mem_nil _, stays⟩
      | succ index =>
        obtain ⟨before, after, rfl, rfl, stayBefore, stay⟩ := ih isTaken
        exact ⟨first :: before, after, rfl, rfl, List.forall_mem_cons.mpr ⟨stays, stayBefore⟩, stay⟩
    next => cases isTaken

variable (stay : ∀ line ∈ before, Text.trim line ≠ "exit")

include stay

theorem taken_append (after : List String) : taken (before ++ after) = before ++ taken after :=
  List.takeWhile_append_of_pos fun line isOne => decide_eq_true (stay line isOne)

theorem closing_append (ending : Ending) (after : List String) :
    closing ending (before ++ after) = closing ending after := by
  have all : (before.all fun line => Text.trim line ≠ "exit") = true :=
    List.all_eq_true.mpr fun line isOne => decide_eq_true (stay line isOne)
  rw [closing, List.all_append, all, Bool.true_and]
  rfl

end Taken

theorem taken_eraseIdx {lines : List String} {index : Nat} {line : String}
    (isTaken : (taken lines)[index]? = some line) (ending : Ending) :
    taken (lines.eraseIdx index) = (taken lines).eraseIdx index ∧
      closing ending (lines.eraseIdx index) = closing ending lines := by
  obtain ⟨before, after, rfl, rfl, stay, stays⟩ := exists_of_taken isTaken
  have erased : ∀ others, (before ++ line :: others).eraseIdx before.length = before ++ others := by
    intro others
    simp [List.eraseIdx_append_of_length_le]
  have takes : taken (line :: after) = line :: taken after := taken_append (List.forall_mem_singleton.mpr stays) after
  have closes : closing ending (line :: after) = closing ending after :=
    closing_append (List.forall_mem_singleton.mpr stays) ending after
  rw [erased, taken_append stay, taken_append stay, takes, erased, closing_append stay, closing_append stay, closes]
  exact ⟨rfl, rfl⟩

theorem taken_of_isIdle {text line : String} {index : Nat} (isTaken : (taken (Text.lines text))[index]? = some line)
    (isIdle : IsIdle line) (shell : Shell) :
    shell.parts (taken ((Text.lines text).eraseIdx index)) = (shell.parts (taken (Text.lines text))).eraseIdx index ∧
      closing .endOfInput ((Text.lines text).eraseIdx index) = closing .endOfInput (Text.lines text) := by
  have isLine : line ∈ Text.lines text := (List.takeWhile_prefix _).subset (List.mem_of_getElem? isTaken)
  have single := Text.feed_not_mem_of_mem_lines isLine
  have idle : ∀ shell : Shell, shell.advance line = shell := fun shell => shell.advance_of_isIdle single isIdle
  obtain ⟨takes, closes⟩ := taken_eraseIdx isTaken .endOfInput
  rw [takes, parts_eraseIdx isTaken idle]
  exact ⟨rfl, closes⟩

theorem transcript_cons (shell : Shell) (ending : Ending) (line : String) (rest : List String) :
    shell.transcript ending (line :: rest) =
      (shell.reply line).printed ++
        match (shell.reply line).next with
        | some next => next.transcript ending rest
        | none => [farewell] := by
  rw [transcript]
  rcases shell.reply line with ⟨printed, _ | next⟩ <;> rfl

theorem transcript_eq_parts (shell : Shell) (ending : Ending) (lines : List String) :
    shell.transcript ending lines = (shell.parts (taken lines)).flatten ++ closing ending lines := by
  induction lines generalizing shell with
  | nil => rfl
  | cons line rest ih =>
    rw [transcript_cons, reply_next]
    by_cases isExit : Text.trim line = "exit"
    · have silent : (shell.reply line).printed = [] := by
        rw [reply_command shell (show _ = Command.exit.word from isExit)]
        rfl
      simp [taken, closing, parts, isExit, silent]
    · have stays : ∀ other ∈ [line], Text.trim other ≠ "exit" := List.forall_mem_singleton.mpr isExit
      have takes : taken (line :: rest) = line :: taken rest := taken_append stays rest
      have closes : closing ending (line :: rest) = closing ending rest := closing_append stays ending rest
      rw [if_neg isExit, takes, closes, parts, List.flatten_cons, List.append_assoc, ← ih]

end Shell

namespace Program

/-- The shell prints its banner, one part for each line before the one that ends it, and the closing. Without an idle
line the parts of all other lines are the same. What lists the names shows those of the session that the lines
evaluated so far have left. -/
theorem shell_lines_independent (reader : ByteArray → List String × Shell.Ending) (options : Options) (text : String)
    (splits : reader text.toUTF8 = (Text.lines text, .endOfInput)) :
    let shell : Shell := ⟨options.start.session, options.tracing⟩
    let lines := Text.lines text
    let parts := shell.parts (Shell.taken lines)
    runShellReading reader options text.toUTF8 =
      .succeed (Shell.banner ++ (parts.flatten ++ Shell.closing .endOfInput lines)) ∧
    parts.length = (Shell.taken lines).length ∧
    (∀ index line, (Shell.taken lines)[index]? = some line → Shell.IsIdle line →
      ∀ other : String, reader other.toUTF8 = (Text.lines other, .endOfInput) →
      Text.lines other = lines.eraseIdx index →
      runShellReading reader options other.toUTF8 =
        .succeed (Shell.banner ++ ((parts.eraseIdx index).flatten ++ Shell.closing .endOfInput lines)) ∧
      shell.parts (Shell.taken (Text.lines other)) = parts.eraseIdx index) ∧
    ∀ index line, (Shell.taken lines)[index]? = some line → Text.trim line = "vars" →
      parts[index]? = some ((options.start.session.evalLines ((lines.take index).flatMap Shell.evaluated)).bindings.map
        fun (name, value) => name ++ ": " ++ value.display) := by
  intro shell lines parts
  refine ⟨?_, shell.length_parts _, ?_, ?_⟩
  · rw [runShellReading_lines options splits, Shell.transcript_eq_parts]
  · intro index line isTaken isIdle other otherSplits without
    have same : shell.parts (Shell.taken (Text.lines other)) = parts.eraseIdx index :=
      without ▸ (Shell.taken_of_isIdle isTaken isIdle shell).1
    refine ⟨?_, same⟩
    rw [runShellReading_lines options otherSplits, Shell.transcript_eq_parts, same, without,
      (Shell.taken_of_isIdle isTaken isIdle shell).2]
  · intro index line isTaken isVars
    have before : (Shell.taken lines).take index = lines.take index := by
      obtain ⟨before, after, whole, rfl, stay, -⟩ := Shell.exists_of_taken isTaken
      rw [whole, Shell.taken_append stay, List.take_left, List.take_left]
    rw [Shell.getElem?_parts, isTaken, before, Option.map_some,
      Shell.reply_command _ (show _ = Shell.Command.vars.word from isVars), Shell.obey, Shell.foldl_advance_session]

-- The second line cannot be read, and the one after the end of the shell is not taken.
theorem shell_lines_independent_unread :
    runShell { withPrelude := false } "x = 5\n1 +\n vars \r\nexit\n7\n".toUTF8 =
        .succeed (Shell.banner ++ ["5", "ERROR: unexpected end of line, expected expression", "x: 5", "bye"]) ∧
      runShell { withPrelude := false } "x = 5\n vars \r\nexit\n7\n".toUTF8 =
        .succeed (Shell.banner ++ ["5", "x: 5", "bye"]) := by
  obtain ⟨prints, -, without, -⟩ := shell_lines_independent Shell.readInput { withPrelude := false }
    "x = 5\n1 +\n vars \r\nexit\n7\n" (Shell.readInput_of_not_mem (by decide))
  have taken : Shell.taken (Text.lines "x = 5\n1 +\n vars \r\nexit\n7\n") = ["x = 5", "1 +", " vars "] := by
    decide +kernel
  have closing : Shell.closing .endOfInput (Text.lines "x = 5\n1 +\n vars \r\nexit\n7\n") = ["bye"] := by
    decide +kernel
  have parts : Shell.parts ⟨(Options.start { withPrelude := false }).session, false⟩ ["x = 5", "1 +", " vars "] =
      [["5"], ["ERROR: unexpected end of line, expected expression"], ["x: 5"]] := by
    decide +kernel
  have unread : (parseLine (Text.dropLineEnds "1 +" ++ "\n")).toOption = none := by decide +kernel
  have idle : Shell.IsIdle "1 +" := by
    refine .inr (.inr ?_)
    cases read : parseLine (Text.dropLineEnds "1 +" ++ "\n") with
    | error error => exact ⟨error, rfl⟩
    | ok expr =>
      rw [read] at unread
      cases unread
  rw [taken, parts, closing] at prints without
  refine ⟨prints, ?_⟩
  exact (without 1 "1 +" rfl idle "x = 5\n vars \r\nexit\n7\n" (Shell.readInput_of_not_mem (by decide))
    (by decide +kernel)).1

section Runs

variable (options : Options) {text other : String} (noBackspace : Text.backspace ∉ text.toList)

include noBackspace

theorem runShell_eq_parts :
    let shell : Shell := ⟨options.start.session, options.tracing⟩
    runShell options text.toUTF8 =
      .succeed (Shell.banner ++
        ((shell.parts (Shell.taken (Text.lines text))).flatten ++ Shell.closing .endOfInput (Text.lines text))) := by
  intro shell
  rw [runShell_of_not_mem noBackspace, Shell.transcript_eq_parts]

theorem runShell_of_isIdle (otherNoBackspace : Text.backspace ∉ other.toList) {index : Nat} {line : String}
    (isTaken : (Shell.taken (Text.lines text))[index]? = some line) (isIdle : Shell.IsIdle line)
    (without : Text.lines other = (Text.lines text).eraseIdx index) :
    let shell : Shell := ⟨options.start.session, options.tracing⟩
    let parts := shell.parts (Shell.taken (Text.lines text))
    let closing := Shell.closing .endOfInput (Text.lines text)
    runShell options text.toUTF8 = .succeed (Shell.banner ++ (parts.flatten ++ closing)) ∧
      runShell options other.toUTF8 = .succeed (Shell.banner ++ ((parts.eraseIdx index).flatten ++ closing)) := by
  intro shell parts closing
  obtain ⟨same, closes⟩ := Shell.taken_of_isIdle isTaken isIdle shell
  refine ⟨runShell_eq_parts options noBackspace, ?_⟩
  rw [runShell_eq_parts options otherNoBackspace, without, same, closes]

end Runs

end Program

end LineLang
