import Mathlib.Order.Bounds.Defs
import LineLang.Proofs.Parse.Correctness

/-! A parse error is about the first token that no line can have in its place.

Every state can still come to the end of a line: an operand where one is missing, then the tokens that close what
is open. A token that is refused is refused whatever follows it. So the tokens before the refused one are the
longest beginning of a line, and the error is about the token after them.
-/

set_option autoImplicit false

namespace LineLang

open Grammar Parse

def Parse.Inside (tokens : List Token) : Prop :=
  ∀ token ∈ tokens, token.kind ≠ .endOfInput

/-- The last token is the only end of input. -/
def Parse.Ended (tokens : List Token) : Prop :=
  ∃ before last, tokens = before ++ [last] ∧ last.kind = .endOfInput ∧ Inside before

/-- The tokens are the beginning of a line. -/
def Parse.Viable (tokens : List Token) : Prop :=
  ∃ rest expr, Ended (tokens ++ rest) ∧ parse (tokens ++ rest) = .ok expr

/-- What an error says about the token that it is about. -/
def ParseError.Blames (token : Token) : ParseError → Prop
  | .unexpected _ found => found = token
  | .endOfLine => token.kind = .newLine ∨ token.kind = .endOfInput
  | .badInteger literal fault =>
    token.kind = .integer ∧ token.text = literal ∧ Numeral.read token.text = .error fault

namespace Parse

section Answers

variable {pending : List Pending} {expr : Expr} {token : Token} {next state : State}

/-- What reading a token may come to: an error is about the token, and the end of input only ends a line. -/
def Answers (token : Token) : Except ParseError State → Prop
  | .error error => error.Blames token
  | .ok next => token.kind = .endOfInput → ∃ expr, next = .finished expr

theorem answers_ok {kind : Token.Kind} (isKind : token.kind = kind) (notEnd : kind ≠ .endOfInput) :
    Answers token (.ok next) :=
  fun isEnd => absurd (isKind.symm.trans isEnd) notEnd

theorem demand_answers {kind : Token.Kind} (notEnd : kind ≠ .endOfInput) :
    Answers token (demand kind token next) := by
  rw [demand]
  split
  next isKind => exact answers_ok isKind notEnd
  · rfl

theorem openSign_answers {sign : Sign} {kind : Token.Kind} (isKind : token.kind = kind)
    (notEnd : kind ≠ .endOfInput) : Answers token (openSign pending sign token) := by
  rw [openSign]
  split
  · rfl
  · exact answers_ok isKind notEnd

theorem start_answers : Answers token (start pending token) := by
  cases kind : token.kind with
  | newLine =>
    simp only [start, kind]
    exact .inl kind
  | endOfInput =>
    simp only [start, kind]
    exact .inr kind
  | integer =>
    cases reads : Numeral.read token.text with
    | ok value =>
      rw [start_integer kind reads]
      exact answers_ok kind (by decide)
    | error fault =>
      simp only [start, kind, reads]
      exact ⟨kind, rfl, reads⟩
  | name =>
    rw [start_name kind]
    split <;> exact answers_ok kind (by decide)
  | leftParen =>
    rw [start_leftParen kind]
    exact answers_ok kind (by decide)
  | bar =>
    rw [start_bar kind]
    exact answers_ok kind (by decide)
  | plus | minus =>
    simp only [start, kind]
    exact openSign_answers kind (by decide)
  | rightParen =>
    simp only [start, kind]
    split
    · exact answers_ok kind (by decide)
    · rfl
  | _ =>
    simp only [start, kind]
    rfl

theorem close_answers : Answers token (close pending expr token) := by
  induction pending generalizing expr with
  | nil => exact demand_answers (by decide)
  | cons construct pending ih =>
    cases construct with
    | group | consequence => exact demand_answers (by decide)
    | argument => exact start_answers
    | _ => exact ih

theorem proceed_answers : Answers token (proceed pending expr token) := by
  cases kind : token.kind with
  | leftParen | times | divide | modulo | plus | minus =>
    simp only [proceed, kind]
    exact answers_ok kind (by decide)
  | question =>
    rw [proceed_question kind]
    split
    · exact answers_ok kind (by decide)
    · exact close_answers
  | _ =>
    simp only [proceed, kind]
    exact close_answers

theorem State.step_answers : Answers token (state.step token) := by
  cases state with
  | expression pending => exact start_answers
  | parameters pending names =>
    rw [State.step]
    split
    next kind => exact answers_ok kind (by decide)
    · exact demand_answers (by decide)
  | name pending word =>
    rw [State.step]
    split
    next kind => exact answers_ok kind (by decide)
    · exact proceed_answers
  | operand pending expr => exact proceed_answers
  | line expr =>
    rw [State.step, demand]
    split
    · exact fun _ => ⟨expr, rfl⟩
    · rfl
  | finished expr => exact fun _ => ⟨expr, rfl⟩

end Answers

def zero : Token := ⟨.integer, "0", 0, 0⟩

theorem step_zero (pending : List Pending) :
    (State.expression pending).step zero = .ok (.ofAtom pending (.integer 0)) := by
  have reads : Numeral.read zero.text = .ok 0 := by rfl
  rw [State.step, start_integer rfl reads]

-- A token after an operand, and more tokens, with which all that is open is closed and the line ends. The first token
-- goes on with nothing.
theorem exists_closing (pending : List Pending) (expr : Expr) :
    ∃ token rest final, Level.assignment.Ends token.kind ∧ token.kind ≠ .equals ∧ Inside (token :: rest) ∧
      (close pending expr token).bind (fun next => next.run rest) = .ok (.line final) := by
  induction pending generalizing expr with
  | nil =>
    exact ⟨⟨.newLine, "", 0, 0⟩, [], expr, by decide, by decide, List.forall_mem_singleton.mpr (by decide), rfl⟩
  | cons construct pending ih =>
    cases construct with
    | group =>
      obtain ⟨token, rest, final, ends, -, inside, closes⟩ := ih expr
      refine ⟨⟨.rightParen, ")", 0, 0⟩, token :: rest, final, by decide, by decide,
        List.forall_mem_cons.mpr ⟨by decide, inside⟩, ?_⟩
      change (State.ofAtom pending expr).run (token :: rest) = _
      rw [State.run_cons, ofAtom_step_ends ends, closes]
    | consequence condition =>
      obtain ⟨token, rest, final, ends, -, inside, closes⟩ := ih (.choice condition expr (.integer 0))
      refine ⟨⟨.colon, ":", 0, 0⟩, zero :: token :: rest, final, by decide, by decide,
        List.forall_mem_cons.mpr ⟨by decide, List.forall_mem_cons.mpr ⟨by decide, inside⟩⟩, ?_⟩
      change (State.expression (.alternative condition expr :: pending)).run _ = _
      rw [State.run_cons_of_step (step_zero _), State.run_cons, ofAtom_step_ends ends]
      exact closes
    | argument callee arguments =>
      obtain ⟨token, rest, final, ends, -, inside, closes⟩ := ih (.call callee (arguments ++ [expr]))
      refine ⟨⟨.rightParen, ")", 0, 0⟩, token :: rest, final, by decide, by decide,
        List.forall_mem_cons.mpr ⟨by decide, inside⟩, ?_⟩
      change (State.operand pending (.call callee (arguments ++ [expr]))).run (token :: rest) = _
      rw [State.run_cons, State.step, proceed_ends ends, closes]
    | sign | factor | term | target | alternative | body => exact ih _

theorem exists_ending_of_expression (pending : List Pending) :
    ∃ rest final, Inside rest ∧ (State.expression pending).run rest = .ok (.line final) := by
  obtain ⟨token, rest, final, ends, -, inside, closes⟩ := exists_closing pending (.integer 0)
  refine ⟨zero :: token :: rest, final, List.forall_mem_cons.mpr ⟨by decide, inside⟩, ?_⟩
  rw [State.run_cons_of_step (step_zero _), State.run_cons, ofAtom_step_ends ends, closes]

theorem State.exists_ending (state : State) (unfinished : ∀ expr, state ≠ .finished expr) :
    ∃ rest final, Inside rest ∧ state.run rest = .ok (.line final) := by
  cases state with
  | expression pending => exact exists_ending_of_expression pending
  | parameters pending names =>
    obtain ⟨rest, final, inside, runs⟩ := exists_ending_of_expression (.body names :: pending)
    exact ⟨⟨.bar, "|", 0, 0⟩ :: rest, final, List.forall_mem_cons.mpr ⟨by decide, inside⟩, runs⟩
  | name pending word =>
    obtain ⟨token, rest, final, ends, noEquals, inside, closes⟩ := exists_closing pending (.name word)
    refine ⟨token :: rest, final, inside, ?_⟩
    rw [State.run_cons, State.step, if_neg noEquals, proceed_ends ends, closes]
  | operand pending expr =>
    obtain ⟨token, rest, final, ends, -, inside, closes⟩ := exists_closing pending expr
    refine ⟨token :: rest, final, inside, ?_⟩
    rw [State.run_cons, State.step, proceed_ends ends, closes]
  | line expr => exact ⟨[], expr, List.forall_mem_nil _, rfl⟩
  | finished expr => exact absurd rfl (unfinished expr)

end Parse

variable {tokens : List Token} {state : State} {error : ParseError} {token : Token}

theorem Parse.Ended.closeInput_eq (ended : Ended tokens) : closeInput tokens = tokens := by
  obtain ⟨before, last, rfl, isEnd, -⟩ := ended
  exact closeInput_of_ends isEnd

theorem viable_of_run (inside : Inside tokens) (runs : (State.expression []).run tokens = .ok state) :
    Viable tokens := by
  have represents : Represents state ([] ++ tokens) := .run (.expression fun _ => .nil) runs
  have unfinished : ∀ expr, state ≠ .finished expr := by
    rintro expr rfl
    rw [List.nil_append] at represents
    cases represents with
    | finished _ _ isEnd => exact inside _ (by simp) isEnd
  obtain ⟨rest, final, insideRest, ends⟩ := state.exists_ending unfinished
  have ended : Ended (tokens ++ (rest ++ [⟨.endOfInput, "", 0, 0⟩])) :=
    ⟨tokens ++ rest, _, (List.append_assoc ..).symm, rfl, List.forall_mem_append.mpr ⟨inside, insideRest⟩⟩
  refine ⟨_, final, ended, ?_⟩
  rw [parse_eq_run, ended.closeInput_eq, State.run_append_of_run runs, State.run_append_of_run ends]
  rfl

theorem not_viable_of_refused {before after : List Token} (runs : (State.expression []).run before = .ok state)
    (refuses : state.step token = .error error) : ¬ Viable (before ++ token :: after) := by
  rintro ⟨rest, expr, ended, parses⟩
  rw [parse_eq_run, ended.closeInput_eq, List.append_assoc, State.run_append_of_run runs, List.cons_append,
    State.run_cons, refuses] at parses
  cases parses

theorem Parse.State.exists_refused (fails : state.run tokens = .error error) :
    ∃ before token after reached, tokens = before ++ token :: after ∧ state.run before = .ok reached ∧
      reached.step token = .error error := by
  induction tokens generalizing state with
  | nil => cases fails
  | cons first rest ih =>
    rw [State.run_cons] at fails
    cases steps : state.step first with
    | error fault =>
      rw [steps] at fails
      cases fails
      exact ⟨[], first, rest, state, rfl, rfl, steps⟩
    | ok next =>
      rw [steps] at fails
      obtain ⟨before, token, after, reached, rfl, runs, refuses⟩ := ih fails
      exact ⟨first :: before, token, after, reached, rfl, by rw [State.run_cons_of_step steps, runs], refuses⟩

theorem Parse.State.finished_of_run {final : State} (runs : state.run (tokens ++ [token]) = .ok final)
    (isEnd : token.kind = .endOfInput) : ∃ expr, final = .finished expr := by
  cases reads : state.run tokens with
  | error fault => simp [State.run_append, reads, Except.bind] at runs
  | ok reached =>
    rw [State.run_append_of_run reads, State.run_cons] at runs
    have answers : Answers token (reached.step token) := State.step_answers
    cases steps : reached.step token with
    | error fault => simp [steps, Except.bind] at runs
    | ok next =>
      rw [steps] at runs answers
      cases runs
      exact answers isEnd

theorem exists_refused_of_parse (ended : Ended tokens) (fails : parse tokens = .error error) :
    ∃ before token after reached, tokens = before ++ token :: after ∧ Inside before ∧
      (State.expression []).run before = .ok reached ∧ reached.step token = .error error := by
  rw [parse_eq_run, ended.closeInput_eq] at fails
  obtain ⟨body, last, rfl, isEnd, only⟩ := ended
  cases runs : (State.expression []).run (body ++ [last]) with
  | ok final =>
    -- The end of input would have been read, and that finishes.
    rw [runs] at fails
    obtain ⟨finished, rfl⟩ := State.finished_of_run runs isEnd
    cases fails
  | error fault =>
    rw [runs] at fails
    cases fails
    obtain ⟨before, token, after, reached, same, reads, refuses⟩ := State.exists_refused runs
    refine ⟨before, token, after, reached, same, ?_, reads, refuses⟩
    have shorter : body = before ++ (token :: after).dropLast := by
      rw [← List.dropLast_append_of_ne_nil (List.cons_ne_nil _ _), ← same, List.dropLast_concat]
    intro other isOne
    exact only other (shorter ▸ List.mem_append_left _ isOne)

/-- Among the beginnings of the tokens that are beginnings of a line there is a longest. It leaves a token, and
the error is about that token. -/
theorem parse_error_blames (ended : Ended tokens) (fails : parse tokens = .error error) :
    ∃ length token, IsGreatest {length | length ≤ tokens.length ∧ Viable (tokens.take length)} length ∧
      tokens[length]? = some token ∧ error.Blames token := by
  obtain ⟨before, token, after, reached, rfl, inside, runs, refuses⟩ := exists_refused_of_parse ended fails
  have blames : Answers token (reached.step token) := State.step_answers
  rw [refuses] at blames
  refine ⟨before.length, token, ⟨⟨by simp, ?_⟩, ?_⟩, by simp, blames⟩
  · rw [List.take_left]
    exact viable_of_run inside runs
  · rintro length ⟨-, viable⟩
    by_cases longer : before.length < length
    · obtain ⟨extra, rfl⟩ := Nat.exists_eq_add_of_lt longer
      rw [Nat.add_assoc, List.take_length_add_append, List.take_succ_cons] at viable
      exact absurd viable (not_viable_of_refused runs refuses)
    · exact Nat.le_of_not_lt longer

/-- `f(x = 1)`: an argument is no assignment. -/
def assignedArgument : List Token :=
  [⟨.name, "f", 0, 1⟩, ⟨.leftParen, "(", 1, 2⟩, ⟨.name, "x", 2, 3⟩, ⟨.equals, "=", 4, 5⟩, ⟨.integer, "1", 6, 7⟩,
    ⟨.rightParen, ")", 7, 8⟩, ⟨.newLine, "", 8, 9⟩, ⟨.endOfInput, "", 9, 9⟩]

theorem parse_error_blames_assignedArgument :
    Ended assignedArgument ∧
      parse assignedArgument = .error (.unexpected .expression ⟨.equals, "=", 4, 5⟩) ∧
      IsGreatest {length | length ≤ assignedArgument.length ∧ Viable (assignedArgument.take length)} 3 := by
  have ended : Ended assignedArgument :=
    ⟨assignedArgument.dropLast, ⟨.endOfInput, "", 9, 9⟩, rfl, rfl, by unfold Inside; decide⟩
  have fails : parse assignedArgument = .error (.unexpected .expression ⟨.equals, "=", 4, 5⟩) := by rfl
  obtain ⟨length, token, greatest, found, rfl⟩ := parse_error_blames ended fails
  -- Only one of the tokens is the one that the error is about.
  have third : ∀ length < 8, assignedArgument[length]? = some ⟨.equals, "=", 4, 5⟩ → length = 3 := by decide
  have short : length < 8 := (List.getElem?_eq_some_iff.mp found).1
  exact ⟨ended, fails, third length short found ▸ greatest⟩

end LineLang
