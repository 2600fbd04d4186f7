import LineLang.Parse
import LineLang.Proofs.Parse.Grammar

/-! What reading a token does, in terms of the levels of the grammar.

The innermost open construct waits for an expression of a certain level. Where a tighter expression is
allowed anyway, ending a product or a sum first makes no difference, and a token that goes on with nothing
closes all that can be closed.
-/

set_option autoImplicit false

namespace LineLang

open Grammar

def Grammar.Level.rank : Level → Nat
  | .atom => 0
  | .unary => 1
  | .calls => 2
  | .call => 3
  | .factors => 4
  | .product => 5
  | .terms => 6
  | .sum => 7
  | .ternary => 8
  | .assignment => 9

namespace Parse

/-- The level of the expression that the innermost construct waits for. -/
def need : List Pending → Level
  | .sign _ :: _ => .atom
  | .factor _ _ :: _ => .call
  | .term _ _ :: _ => .product
  | .argument _ _ :: _ => .sum
  | _ => .assignment

/-- An expression of this level may stand here. -/
def Fits (level : Level) (pending : List Pending) : Prop :=
  level.rank ≤ (need pending).rank

theorem Fits.of_rank_le {level tighter : Level} {pending : List Pending} (fits : Fits level pending)
    (tight : tighter.rank ≤ level.rank) : Fits tighter pending :=
  Nat.le_trans tight fits

theorem Fits.of_need_eq {level : Level} {pending : List Pending} (waits : need pending = level) :
    Fits level pending :=
  Nat.le_of_eq (congrArg Level.rank waits.symm)

theorem takesWhole_iff (pending : List Pending) : takesWhole pending = true ↔ need pending = .assignment := by
  rcases pending with _ | ⟨construct, rest⟩
  · exact iff_of_true rfl rfl
  · cases construct with
    | sign | factor | term | argument => exact iff_of_false nofun nofun
    | _ => exact iff_of_true rfl rfl

section Waits

variable {pending : List Pending} {left : Expr} {operator : Operator}

theorem not_fits_sign {sign : Sign} : ¬ Fits .unary (.sign sign :: pending) :=
  Nat.not_succ_le_zero 0

theorem not_fits_factor : ¬ Fits .factors (.factor left operator :: pending) :=
  Nat.not_succ_le_self 3

theorem not_fits_term : ¬ Fits .terms (.term left operator :: pending) :=
  Nat.not_succ_le_self 5

theorem not_fits_argument {callee : Expr} {before : List Expr} :
    ¬ Fits .ternary (.argument callee before :: pending) :=
  Nat.not_succ_le_self 7

theorem takesWhole_of_fits (fits : Fits .ternary pending) : takesWhole pending = true := by
  rcases pending with _ | ⟨construct, rest⟩
  · rfl
  · cases construct with
    | sign => exact absurd (fits.of_rank_le (by decide)) not_fits_sign
    | factor => exact absurd (fits.of_rank_le (by decide)) not_fits_factor
    | term => exact absurd (fits.of_rank_le (by decide)) not_fits_term
    | argument => exact absurd fits not_fits_argument
    | _ => rfl

theorem afterSign_of_fits (fits : Fits .unary pending) : afterSign pending = false := by
  rcases pending with _ | ⟨construct, rest⟩
  · rfl
  · cases construct with
    | sign => exact absurd fits not_fits_sign
    | _ => rfl

theorem fits_call_of_afterSign (free : afterSign pending = false) : Fits .call pending := by
  rcases pending with _ | ⟨construct, rest⟩
  · exact Nat.le_of_ble_eq_true rfl
  · cases construct with
    | sign => cases free
    | _ => exact Nat.le_of_ble_eq_true rfl

theorem ofAtom_of_fits (fits : Fits .unary pending) (expr : Expr) :
    State.ofAtom pending expr = .operand pending expr := by
  rcases pending with _ | ⟨construct, rest⟩
  · rfl
  · cases construct with
    | sign => exact absurd fits not_fits_sign
    | _ => rfl

theorem closeProduct_of_fits (fits : Fits .factors pending) (expr : Expr) :
    closeProduct pending expr = (pending, expr) := by
  rcases pending with _ | ⟨construct, rest⟩
  · rfl
  · cases construct with
    | factor => exact absurd fits not_fits_factor
    | _ => rfl

theorem closeSum_of_fits (fits : Fits .terms pending) (expr : Expr) :
    closeSum pending expr = (pending, expr) := by
  rw [closeSum, closeProduct_of_fits (fits.of_rank_le (by decide))]
  rcases pending with _ | ⟨construct, rest⟩
  · rfl
  · cases construct with
    | term => exact absurd fits not_fits_term
    | _ => rfl

end Waits

section Proceed

variable {pending : List Pending} {expr : Expr} {token : Token}

theorem start_integer {value : Int64} (kind : token.kind = .integer)
    (reads : Numeral.read token.text = .ok value) :
    start pending token = .ok (.ofAtom pending (.integer value)) := by
  unfold start
  rw [kind]
  dsimp only
  rw [reads]

theorem start_name (kind : token.kind = .name) :
    start pending token =
      if takesWhole pending then .ok (.name pending token.text)
      else .ok (.ofAtom pending (.name token.text)) := by
  unfold start
  rw [kind]

theorem start_leftParen (kind : token.kind = .leftParen) :
    start pending token = .ok (.expression (.group :: pending)) := by
  unfold start
  rw [kind]

theorem start_bar (kind : token.kind = .bar) : start pending token = .ok (.parameters pending []) := by
  unfold start
  rw [kind]

theorem start_sign {sign : Sign} (kind : token.kind.sign? = some sign) :
    start pending token = openSign pending sign token := by
  unfold start
  cases found : token.kind <;> rw [found] at kind <;> cases kind <;> rfl

theorem proceed_leftParen (kind : token.kind = .leftParen) :
    proceed pending expr token = .ok (.expression (.argument expr [] :: pending)) := by
  unfold proceed
  rw [kind]

theorem proceed_factor {operator : Operator} (kind : token.kind.factor? = some operator) :
    proceed pending expr token = .ok (openFactor pending expr operator) := by
  unfold proceed
  cases found : token.kind <;> rw [found] at kind <;> cases kind <;> rfl

theorem proceed_term {operator : Operator} (kind : token.kind.term? = some operator) :
    proceed pending expr token = .ok (openTerm pending expr operator) := by
  unfold proceed
  cases found : token.kind <;> rw [found] at kind <;> cases kind <;> rfl

theorem proceed_question (kind : token.kind = .question) :
    proceed pending expr token =
      if takesWhole (closeSum pending expr).1 then
        .ok (.expression (.consequence (closeSum pending expr).2 :: (closeSum pending expr).1))
      else close (closeSum pending expr).1 (closeSum pending expr).2 token := by
  unfold proceed
  rw [kind]

theorem proceed_ends (ends : Level.assignment.Ends token.kind) :
    proceed pending expr token = close pending expr token := by
  obtain ⟨noQuestion, noTerm, noFactor, noParen⟩ := ends
  unfold proceed
  cases found : token.kind <;> rw [found] at noQuestion noTerm noFactor noParen <;>
    first | rfl | contradiction

theorem ofAtom_step_ends (ends : Level.assignment.Ends token.kind) :
    (State.ofAtom pending expr).step token = close pending expr token := by
  rcases pending with _ | ⟨construct, rest⟩
  · exact proceed_ends ends
  · cases construct <;> exact proceed_ends ends

-- The last factor is part of its product for every token but one that calls it.
theorem proceed_pending_factor (fits : Fits .factors pending) (left : Expr) (operator : Operator)
    (ends : Level.call.Ends token.kind) :
    proceed (.factor left operator :: pending) expr token =
      proceed pending (.binary operator left expr) token := by
  have before := closeProduct_of_fits fits (.binary operator left expr)
  have ended : closeProduct (.factor left operator :: pending) expr =
      (pending, .binary operator left expr) := rfl
  have noParen : token.kind ≠ .leftParen := ends
  -- Every other kind ends the product first, here or when its sum or the whole ends.
  cases found : token.kind <;>
    simp_all [proceed, openFactor, openTerm, closeSum, close]

theorem proceed_pending_term (fits : Fits .terms pending) (left : Expr) (operator : Operator)
    (ends : Level.product.Ends token.kind) :
    proceed (.term left operator :: pending) expr token =
      proceed pending (.binary operator left expr) token := by
  have before := closeSum_of_fits fits (.binary operator left expr)
  have ended : closeSum (.term left operator :: pending) expr =
      (pending, .binary operator left expr) := rfl
  obtain ⟨noFactor, noParen⟩ := ends
  cases found : token.kind <;>
    simp_all [proceed, openTerm, close, Token.Kind.factor?]

end Proceed

theorem proceed_pending_argument {callee expr : Expr} {before : List Expr} {pending : List Pending}
    {token : Token} (ends : Level.sum.Ends token.kind) :
    proceed (.argument callee before :: pending) expr token =
      start (.argument callee (before ++ [expr]) :: pending) token := by
  obtain ⟨noTerm, noFactor, noParen⟩ := ends
  cases found : token.kind <;>
    simp_all [proceed, closeSum, closeProduct, takesWhole, close, Token.Kind.term?, Token.Kind.factor?]

namespace State

def run (state : State) (tokens : List Token) : Except ParseError State :=
  tokens.foldlM step state

theorem run_nil (state : State) : state.run [] = .ok state := rfl

theorem run_cons (state : State) (token : Token) (tokens : List Token) :
    state.run (token :: tokens) = (state.step token).bind fun next => next.run tokens := rfl

theorem run_append (state : State) (first second : List Token) :
    state.run (first ++ second) = (state.run first).bind fun next => next.run second := by
  simp only [run, List.foldlM_append]
  rfl

theorem run_cons_of_step {state next : State} {token : Token} (steps : state.step token = .ok next)
    (tokens : List Token) : state.run (token :: tokens) = next.run tokens := by
  rw [run_cons, steps]
  rfl

theorem run_append_of_run {state next : State} {first : List Token} (runs : state.run first = .ok next)
    (second : List Token) : state.run (first ++ second) = next.run second := by
  rw [run_append, runs]
  rfl

end State

theorem parse_eq_run (tokens : List Token) :
    parse tokens = ((State.expression []).run (closeInput tokens)).bind State.result := rfl

end Parse

end LineLang
