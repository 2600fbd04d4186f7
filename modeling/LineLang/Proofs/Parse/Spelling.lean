import LineLang.Proofs.Parse.Steps

/-! What is read depends on the kinds and texts of the tokens. Where they stand only shows in errors. -/

set_option autoImplicit false

namespace LineLang

def Token.bare (token : Token) : Token :=
  { token with start := 0, stop := 0 }

/-- The error, but about this token if it names one. -/
def ParseError.about (token : Token) : ParseError → ParseError
  | .unexpected expected _ => .unexpected expected token
  | error => error

namespace Parse

section About

variable {pending : List Pending} {expr : Expr} (token : Token)

theorem openSign_about (sign : Sign) :
    openSign pending sign token = (openSign pending sign token.bare).mapError (ParseError.about token) := by
  unfold openSign
  split <;> rfl

theorem start_about : start pending token = (start pending token.bare).mapError (ParseError.about token) := by
  obtain ⟨kind, text, first, last⟩ := token
  cases kind with
  | plus | minus => exact openSign_about _ _
  | integer =>
    simp only [start, Token.bare]
    cases Numeral.read text <;> rfl
  | name =>
    simp only [start, Token.bare]
    split <;> rfl
  | rightParen =>
    rcases pending with _ | ⟨construct, pending⟩
    · rfl
    · cases construct <;> rfl
  | _ => rfl

theorem demand_about (kind : Token.Kind) (next : State) :
    demand kind token next = (demand kind token.bare next).mapError (ParseError.about token) := by
  unfold demand Token.bare
  split <;> rfl

theorem close_about : close pending expr token = (close pending expr token.bare).mapError (ParseError.about token) := by
  induction pending generalizing expr with
  | nil => exact demand_about token _ _
  | cons construct pending ih =>
    cases construct with
    | group | consequence => exact demand_about token _ _
    | argument => exact start_about token
    | _ => exact ih

theorem proceed_about :
    proceed pending expr token = (proceed pending expr token.bare).mapError (ParseError.about token) := by
  obtain ⟨kind, text, first, last⟩ := token
  cases kind with
  | leftParen | times | divide | modulo | plus | minus => rfl
  | question =>
    rw [proceed_question (by rfl), proceed_question (by rfl)]
    split
    · rfl
    · exact close_about _
  | _ => exact close_about _

/-- A step looks at the kind and the text of a token. An error names the token, and that is the only trace that its
place leaves. -/
theorem State.step_about (state : State) :
    state.step token = (state.step token.bare).mapError (ParseError.about token) := by
  cases state with
  | expression => exact start_about token
  | parameters pending names =>
    obtain ⟨kind, text, first, last⟩ := token
    cases kind <;> rfl
  | name pending word =>
    have sameKind : token.bare.kind = token.kind := rfl
    rw [step, step, sameKind]
    split
    · rfl
    · exact proceed_about token
  | operand => exact proceed_about token
  | line => exact demand_about token _ _
  | finished => rfl

end About

variable {state next : State} {token : Token}

theorem State.step_bare : state.step token.bare = .ok next ↔ state.step token = .ok next := by
  rw [step_about token]
  cases state.step token.bare with
  | ok between => exact Iff.rfl
  | error fault => constructor <;> intro impossible <;> cases impossible

theorem State.run_bare {tokens : List Token} :
    state.run (tokens.map Token.bare) = .ok next ↔ state.run tokens = .ok next := by
  induction tokens generalizing state with
  | nil => rfl
  | cons token tokens ih =>
    rw [List.map_cons, run_cons, run_cons]
    cases steps : state.step token with
    | ok between =>
      rw [step_bare.mpr steps]
      exact ih
    | error fault =>
      -- The two errors may name different places.
      cases bareSteps : state.step token.bare with
      | ok between =>
        rw [step_bare.mp bareSteps] at steps
        cases steps
      | error bareFault => simp [Except.bind]

theorem closeInput_bare (tokens : List Token) :
    closeInput (tokens.map Token.bare) = (closeInput tokens).map Token.bare := by
  unfold closeInput
  rw [List.getLast?_map]
  cases tokens.getLast? with
  | none => rfl
  | some last => by_cases isEnd : last.kind = .endOfInput <;> simp [Token.bare, isEnd]

end Parse

theorem parse_bare {tokens : List Token} {expr : Expr} :
    parse (tokens.map Token.bare) = .ok expr ↔ parse tokens = .ok expr := by
  have finished : ∀ tokens : List Token, parse tokens = .ok expr ↔
      (Parse.State.expression []).run (Parse.closeInput tokens) = .ok (.finished expr) := by
    intro tokens
    rw [Parse.parse_eq_run]
    cases (Parse.State.expression []).run (Parse.closeInput tokens) with
    | error fault => simp [Except.bind]
    | ok state => cases state <;> simp [Except.bind, Parse.State.result]
  rw [finished, finished, Parse.closeInput_bare, Parse.State.run_bare]

end LineLang
