import LineLang.Proofs.Parse.Completeness
import LineLang.Proofs.Parse.Soundness

/-! The parser accepts exactly the lines of the grammar under its longest reading. -/

set_option autoImplicit false

namespace LineLang

open Grammar Parse

/-- An expression, a new line and the end of input. -/
def Grammar.Line (reading : Reading) (tokens : List Token) (expr : Expr) : Prop :=
  ∃ body newLine ending, tokens = body ++ [newLine, ending] ∧ newLine.kind = .newLine ∧
    ending.kind = .endOfInput ∧ Derives reading .assignment body .newLine expr

variable {tokens : List Token} {last : Token} {expr : Expr}

theorem Grammar.Line.plain (line : Line .longest tokens expr) : Line .plain tokens expr := by
  obtain ⟨body, newLine, ending, same, isNewLine, isEnding, derives⟩ := line
  exact ⟨body, newLine, ending, same, isNewLine, isEnding, derives.plain .newLine⟩

theorem Parse.closeInput_of_ends (isEnd : last.kind = .endOfInput) :
    closeInput (tokens ++ [last]) = tokens ++ [last] := by
  rw [closeInput, List.getLast?_concat]
  exact if_pos isEnd

theorem Parse.mem_closeInput {token : Token} (isOne : token ∈ closeInput tokens) :
    token ∈ tokens ∨ token.kind = .endOfInput := by
  unfold closeInput at isOne
  split at isOne
  · simp_all
  · split at isOne
    · exact .inl isOne
    · rcases List.mem_append.mp isOne with before | added
      · exact .inl before
      · exact .inr (by rw [List.mem_singleton.mp added])

theorem parse_of_line (line : Line .longest tokens expr) : parse tokens = .ok expr := by
  obtain ⟨body, newLine, ending, rfl, isNewLine, isEnding, derives⟩ := line
  obtain ⟨state, runs, steps⟩ := (readsAll_of_derives derives).whole (rfl : need [] = _)
  have ends : state.step newLine = .ok (.line expr) := by
    rw [steps newLine isNewLine, ofAtom_step_ends (by rw [isNewLine]; decide), close,
      demand, if_pos isNewLine]
  have finishes : (State.line expr).step ending = .ok (.finished expr) := if_pos isEnding
  have closed : closeInput (body ++ [newLine, ending]) = body ++ [newLine, ending] := by
    rw [List.append_cons, closeInput_of_ends isEnding]
  rw [parse_eq_run, closed, State.run_append_of_run runs, State.run_cons_of_step ends,
    State.run_cons_of_step finishes, State.run_nil]
  rfl

-- What stands after the first end of input is not read.
theorem line_of_parse (parses : parse tokens = .ok expr) :
    ∃ line rest, closeInput tokens = line ++ rest ∧ Line .longest line expr := by
  rw [parse_eq_run] at parses
  cases runs : (State.expression []).run (closeInput tokens) with
  | error fault => simp [runs, Except.bind] at parses
  | ok final =>
    have represents : Represents final ([] ++ closeInput tokens) :=
      Represents.run (.expression fun _ => .nil) runs
    rw [runs] at parses
    rw [List.nil_append] at represents
    generalize closeInput tokens = all at represents
    cases represents with
    | @finished body _ rest newLine ending derives isNewLine isEnding =>
      cases parses
      exact ⟨body ++ [newLine, ending], rest, by simp, body, newLine, ending, rfl, isNewLine, isEnding, derives⟩
    | _ => cases parses

theorem line_of_parse_of_ends (isLast : last.kind = .endOfInput)
    (only : ∀ token ∈ tokens, token.kind ≠ .endOfInput) (parses : parse (tokens ++ [last]) = .ok expr) :
    Line .longest (tokens ++ [last]) expr := by
  obtain ⟨line, rest, same, derived⟩ := line_of_parse parses
  rw [closeInput_of_ends isLast] at same
  obtain ⟨body, newLine, ending, rfl, isNewLine, isEnding, derives⟩ := derived
  rcases List.eq_nil_or_concat rest with rfl | ⟨others, final, rfl⟩
  · rw [same, List.append_nil]
    exact ⟨body, newLine, ending, rfl, isNewLine, isEnding, derives⟩
  · -- The end of the line would stand before the last token.
    rw [List.concat_eq_append, ← List.append_assoc] at same
    have before : tokens = body ++ [newLine, ending] ++ others := List.append_inj_left' same rfl
    exact absurd isEnding (only ending (by simp [before]))

theorem parse_iff_line (isLast : last.kind = .endOfInput) (only : ∀ token ∈ tokens, token.kind ≠ .endOfInput)
    (expr : Expr) :
    (parse (tokens ++ [last]) = .ok expr ↔ Line .longest (tokens ++ [last]) expr) ∧
      (∀ other, Line .longest (tokens ++ [last]) expr → Line .longest (tokens ++ [last]) other → expr = other) ∧
      (parse (tokens ++ [last]) = .ok expr → Line .plain (tokens ++ [last]) expr) := by
  refine ⟨⟨line_of_parse_of_ends isLast only, parse_of_line⟩, ?_, ?_⟩
  · intro other line another
    have same := (parse_of_line line).symm.trans (parse_of_line another)
    cases same
    rfl
  · intro parses
    exact (line_of_parse_of_ends isLast only parses).plain

/-- `f(|x| x - 1 2)(3)`: the body of the function takes the subtraction and stops before the next argument. -/
def nestedCalls : List Token :=
  [⟨.name, "f", 0, 1⟩, ⟨.leftParen, "(", 1, 2⟩, ⟨.bar, "|", 2, 3⟩, ⟨.name, "x", 3, 4⟩, ⟨.bar, "|", 4, 5⟩,
    ⟨.name, "x", 6, 7⟩, ⟨.minus, "-", 8, 9⟩, ⟨.integer, "1", 10, 11⟩, ⟨.integer, "2", 12, 13⟩,
    ⟨.rightParen, ")", 13, 14⟩, ⟨.leftParen, "(", 14, 15⟩, ⟨.integer, "3", 15, 16⟩,
    ⟨.rightParen, ")", 16, 17⟩, ⟨.newLine, "\n", 17, 18⟩]

theorem parse_iff_line_nestedCalls :
    (∀ token ∈ nestedCalls, token.kind ≠ .endOfInput) ∧
      Line .longest (nestedCalls ++ [⟨.endOfInput, "", 18, 18⟩])
        (.call (.call (.name "f") [.function ["x"] (.binary .subtract (.name "x") (.integer 1)), .integer 2])
          [.integer 3]) :=
  ⟨by decide, (parse_iff_line rfl (by decide) _).1.mp (by rfl)⟩

end LineLang
