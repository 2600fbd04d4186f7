import LineLang.Proofs.Parse.Descent.Progress
import LineLang.Proofs.Parse.Steps

/-! Reading by descent and reading token by token come to the same.

What a routine still has to do once it returns stands in the constructs that are open. So a routine is compared
with the state that waits for its expression, whatever else is open, and where it returns the state stands after
that expression.
-/

set_option autoImplicit false

namespace LineLang.Descent

open Grammar Parse

def Tier.level : Tier → Level
  | .sum => .sum
  | .product => .product

def Tier.part : Tier → Level
  | .sum => .product
  | .product => .call

def Tier.construct : Tier → Expr → Operator → Pending
  | .sum => .term
  | .product => .factor

section Tiers

variable {pending : List Pending} {left right : Expr} {operator : Operator} {token : Token}

theorem Tier.fits_construct (tier : Tier) : Fits tier.part (tier.construct left operator :: pending) := by
  cases tier <;> exact .of_need_eq rfl

theorem Tier.fits_unary {tier : Tier} (fits : Fits tier.level pending) : Fits .unary pending := by
  cases tier <;> exact fits.of_rank_le (by decide)

theorem Tier.ends {tier : Tier} {kind : Token.Kind} (part : tier.part.Ends kind)
    (stops : tier.operator? kind = none) : tier.level.Ends kind := by
  cases tier <;> exact ⟨stops, part⟩

theorem Tier.proceed_operator {tier : Tier} (fits : Fits tier.level pending)
    (isOperator : tier.operator? token.kind = some operator) :
    proceed pending left token = .ok (.expression (tier.construct left operator :: pending)) := by
  cases tier with
  | sum => rw [proceed_term isOperator, openTerm, closeSum_of_fits (fits.of_rank_le (by decide))]; rfl
  | product => rw [proceed_factor isOperator, openFactor, closeProduct_of_fits (fits.of_rank_le (by decide))]; rfl

theorem Tier.step_construct {tier : Tier} (fits : Fits tier.level pending) (ends : tier.part.Ends token.kind) :
    (State.ofAtom (tier.construct left operator :: pending) right).step token =
      (State.operand pending (.binary operator left right)).step token := by
  cases tier with
  | sum => exact proceed_pending_term (fits.of_rank_le (by decide)) left operator ends
  | product => exact proceed_pending_factor (fits.of_rank_le (by decide)) left operator ends

end Tiers

/-- Reading the tokens one by one from this state goes as the reader does: where the reader returns, the state is
the one for its value and the next token is of one of the kinds, and where it refuses, the error is the same. -/
def Tracks {α : Type} (state : State) (cursor : Cursor) (reader : Reader α) (kinds : Token.Kind → Prop)
    (next : α → State) : Prop :=
  Ends (fun value after => kinds after.ahead ∧ state.run cursor.rest = (next value).run after.rest)
    (fun error _ => state.run cursor.rest = .error error) (runAt reader cursor)

namespace Tracks

variable {α β : Type} {state other : State} {cursor : Cursor} {token : Token} {kind : Token.Kind}
  {kinds others : Token.Kind → Prop} {reader : Reader α} {next : α → State}

theorem pure {value : α} (ends : kinds cursor.ahead) : Tracks (next value) cursor (pure value) kinds next :=
  .returned ⟨ends, rfl⟩

theorem resume {after : Cursor} (same : state.run cursor.rest = other.run after.rest)
    (rest : Tracks other after reader kinds next) :
    Ends (fun value final => kinds final.ahead ∧ state.run cursor.rest = (next value).run final.rest)
      (fun error _ => state.run cursor.rest = .error error) (runAt reader after) := by
  rw [same]
  exact rest

theorem of_step_eq (stands : cursor.At token) (same : state.step token = other.step token)
    (tracks : Tracks other cursor reader kinds next) : Tracks state cursor reader kinds next := by
  refine resume ?_ tracks
  rw [stands.rest, State.run_cons, State.run_cons, same]

theorem bind {gap : Nat} {follow : α → Reader β} {goal : β → State} (safe : Safe gap cursor reader)
    (first : Tracks state cursor reader others next)
    (rest : ∀ value after, cursor.Reaches gap after → others after.ahead →
      Tracks (next value) after (follow value) kinds goal) :
    Tracks state cursor (reader >>= follow) kinds goal := by
  refine Ends.bind ((Ends.and safe first).mono (fun _ _ => id) (fun _ _ => And.right)) ?_
  rintro value after ⟨reached, ends, same⟩
  exact resume same (rest value after reached ends)

theorem peek_bind {follow : Token → Reader α} (stands : cursor.At token)
    (rest : Tracks state cursor (follow token) kinds next) : Tracks state cursor (peek >>= follow) kinds next := by
  rw [Tracks, runAt_bind_of_ok _ (runAt_peek stands)]
  exact rest

theorem next_bind {follow : Token → Reader α} (stands : cursor.At token) (notEnd : token.kind ≠ .endOfInput)
    (steps : state.step token = .ok other) (rest : Tracks other cursor.advance (follow token) kinds next) :
    Tracks state cursor (Descent.next >>= follow) kinds next := by
  rw [Tracks, runAt_bind_of_ok _ (runAt_next_of_not_end stands notEnd)]
  refine resume ?_ rest
  rw [stands.rest, State.run_cons_of_step steps]

theorem next_bind_refuse {follow : Token → Reader α} {error : ParseError} (stands : cursor.At token)
    (refuses : follow token = throw (.refused error)) (fails : state.step token = .error error) :
    Tracks state cursor (Descent.next >>= follow) kinds next := by
  obtain ⟨after, runs, -⟩ := exists_runAt_next stands
  rw [Tracks, runAt_bind_of_ok _ runs, refuses, stands.rest, State.run_cons, fails]
  exact .refused rfl

theorem identifier_bind {follow : String → Reader α} (stands : cursor.At token) (isName : token.kind = .name)
    (steps : state.step token = .ok other) (rest : Tracks other cursor.advance (follow token.text) kinds next) :
    Tracks state cursor (identifier >>= follow) kinds next := by
  rw [identifier, bind_assoc]
  refine next_bind stands (by simp [isName]) steps ?_
  rw [if_pos isName, pure_bind]
  exact rest

theorem nextIf_bind {follow : Bool → Reader α} (stands : cursor.At token) (notEnd : kind ≠ .endOfInput)
    (steps : token.kind = kind → state.step token = .ok other)
    (found : token.kind = kind → cursor.Reaches 1 cursor.advance →
      Tracks other cursor.advance (follow true) kinds next)
    (absent : token.kind ≠ kind → Tracks state cursor (follow false) kinds next) :
    Tracks state cursor (nextIf kind >>= follow) kinds next := by
  rw [nextIf, bind_assoc]
  refine peek_bind stands ?_
  by_cases isKind : token.kind = kind
  · have notEnd : token.kind ≠ .endOfInput := isKind ▸ notEnd
    rw [if_pos isKind, bind_assoc]
    exact next_bind stands notEnd (steps isKind) (found isKind (stands.advance notEnd))
  · rw [if_neg isKind]
    exact absent isKind

theorem expectToken_bind {follow : Unit → Reader α} (stands : cursor.At token) (notEnd : kind ≠ .endOfInput)
    (steps : state.step token = demand kind token other)
    (rest : cursor.Reaches 1 cursor.advance → Tracks other cursor.advance (follow ()) kinds next) :
    Tracks state cursor (expectToken kind >>= follow) kinds next := by
  rw [expectToken, bind_assoc]
  by_cases isKind : token.kind = kind
  · have notEnd : token.kind ≠ .endOfInput := isKind ▸ notEnd
    refine next_bind stands notEnd (steps.trans (if_pos isKind)) ?_
    rw [if_pos isKind, pure_bind]
    exact rest (stands.advance notEnd)
  · refine next_bind_refuse stands ?_ (steps.trans (if_neg isKind))
    rw [if_neg isKind]
    rfl

theorem expectExpression_bind {pending : List Pending} {follow : Unit → Reader α} (stands : cursor.At token)
    (rest : Tracks (.expression pending) cursor (follow ()) kinds next) :
    Tracks (.expression pending) cursor (expectExpression >>= follow) kinds next := by
  rw [expectExpression, bind_assoc]
  refine peek_bind stands ?_
  split
  next isEnd =>
    have fails : start pending token = .error .endOfLine := by
      unfold start
      cases kind : token.kind <;> rw [kind] at isEnd <;> first | rfl | cases isEnd
    refine .refused ?_
    rw [stands.rest, State.run_cons, State.step, fails]
    rfl
  next => exact rest

end Tracks

/-- A tighter expression than an assignment can start here. A name before an equals sign would be a target where an
assignment can stand, and a closing parenthesis would end a list of arguments. -/
structure Starts (pending : List Pending) (cursor : Cursor) : Prop where
  noTarget : need pending = .assignment → cursor.ahead = .name → cursor.advance.ahead ≠ .equals
  noClosing : need pending = .sum → cursor.ahead ≠ .rightParen

namespace Starts

variable {cursor : Cursor} {pending : List Pending}

theorem of_need_eq {level : Level} (waits : need pending = level) (part : level ≠ .assignment)
    (single : level ≠ .sum) : Starts pending cursor :=
  ⟨fun whole => absurd (waits.symm.trans whole) part, fun argument => absurd (waits.symm.trans argument) single⟩

theorem argument {callee : Expr} {before : List Expr} (noClosing : cursor.ahead ≠ .rightParen) :
    Starts (.argument callee before :: pending) cursor := by
  refine ⟨?_, fun _ => noClosing⟩
  intro whole
  cases whole

theorem construct (tier : Tier) {left : Expr} {operator : Operator} :
    Starts (tier.construct left operator :: pending) cursor := by
  cases tier with
  | sum => exact of_need_eq (rfl : _ = Level.product) (by decide) (by decide)
  | product => exact of_need_eq (rfl : _ = Level.call) (by decide) (by decide)

end Starts

/-- What the routines read from here is read alike, under any constructs that an expression of the level fits
into. -/
structure AgreesAt (routines : Routines) (cursor : Cursor) : Prop where
  safe : SafeAt routines cursor
  assignment {pending : List Pending} : need pending = .assignment →
    Tracks (.expression pending) cursor routines.assignment Level.assignment.Ends (.ofAtom pending)
  operand {pending : List Pending} (tier : Tier) : Fits tier.part pending → Starts pending cursor →
    Tracks (.expression pending) cursor (routines.operand tier) tier.part.Ends (.ofAtom pending)
  atom {pending : List Pending} {sign : Sign} :
    Tracks (.expression (.sign sign :: pending)) cursor routines.atom (fun _ => True)
      (.ofAtom (.sign sign :: pending))
  group {pending : List Pending} :
    Tracks (.expression (.group :: pending)) cursor routines.group (fun _ => True) (.ofAtom pending)
  function {pending : List Pending} :
    Tracks (.parameters pending []) cursor routines.function (fun _ => True) (.ofAtom pending)
  goOn {pending : List Pending} {left : Expr} (tier : Tier) : Fits tier.level pending →
    tier.part.Ends cursor.ahead →
    Tracks (.operand pending left) cursor (routines.goOn tier left) tier.level.Ends (.operand pending)
  calls {pending : List Pending} {callee : Expr} :
    Tracks (.operand pending callee) cursor (routines.calls callee) Level.call.Ends (.operand pending)
  arguments {pending : List Pending} {callee : Expr} {before : List Expr} :
    Tracks (.expression (.argument callee before :: pending)) cursor (routines.arguments before) (fun _ => True)
      (fun given => .operand pending (.call callee given))
  parameters {pending : List Pending} {names : List String} :
    Tracks (.parameters pending names) cursor (routines.parameters names) (· ≠ .name) (.parameters pending)

section Step

variable {later : Routines} {cursor : Cursor} {pending : List Pending} (inside : cursor.Inside)

include inside

theorem closing_agrees {construct : Pending} {kinds : Token.Kind → Prop} {expr whole : Expr}
    (closes : ∀ token, close (construct :: pending) expr token = close pending whole token)
    (ends : Level.assignment.Ends cursor.ahead) (kept : kinds cursor.ahead) :
    Tracks (.ofAtom (construct :: pending) expr) cursor (pure whole) kinds (.ofAtom pending) := by
  obtain ⟨token, stands⟩ := inside.exists_at
  rw [stands.ahead] at ends
  -- The token goes on with neither expression, so both states close what they can.
  refine .of_step_eq stands ?_ (.pure kept)
  rw [ofAtom_step_ends ends, ofAtom_step_ends ends, closes]

variable (below : ∀ after, cursor.Reaches 1 after → AgreesAt later after)

include below

theorem safe_of_below : SafeAt (enclosing later) cursor :=
  .enclosing inside fun after reached => (below after reached).safe

theorem parameters_agrees (names : List String) :
    Tracks (.parameters pending names) cursor (parameters later names) (· ≠ .name) (.parameters pending) := by
  obtain ⟨token, stands⟩ := inside.exists_at
  rw [parameters]
  refine .peek_bind stands ?_
  by_cases isName : token.kind = .name
  · have steps : (State.parameters pending names).step token =
        .ok (.parameters pending (names ++ [token.text])) := by
      simp only [State.step, isName]
    rw [if_pos isName]
    exact .identifier_bind stands isName steps (below _ (stands.advance (by simp [isName]))).parameters
  · rw [if_neg isName]
    exact .pure (stands.ahead ▸ isName)

theorem function_agrees :
    Tracks (.parameters pending []) cursor (function later) (fun _ => True) (.ofAtom pending) := by
  rw [function]
  refine .bind ((safe_of_below inside below).parameters []) (parameters_agrees inside below []) ?_
  intro names bar reached notName
  have inside := reached.inside inside
  obtain ⟨token, stands⟩ := inside.exists_at
  rw [stands.ahead] at notName
  have steps : (State.parameters pending names).step token =
      demand .bar token (.expression (.body names :: pending)) := by
    rw [State.step]
    split
    · contradiction
    · rfl
  refine .expectToken_bind stands (by decide) steps ?_
  intro passed
  have inside := passed.inside inside
  obtain ⟨first, begins⟩ := inside.exists_at
  have agrees := below _ (reached.trans passed)
  refine .expectExpression_bind begins (.bind agrees.safe.assignment (agrees.assignment rfl) ?_)
  intro body after last ends
  exact closing_agrees (last.inside inside) (fun _ => rfl) ends trivial

theorem atom_agrees (starts : Starts pending cursor)
    (signs : cursor.ahead.sign? ≠ none → afterSign pending = true) :
    Tracks (.expression pending) cursor (atom later) (fun _ => True) (.ofAtom pending) := by
  obtain ⟨token, stands⟩ := inside.exists_at
  rw [atom]
  cases kind : token.kind with
  | integer =>
    cases reads : Numeral.read token.text with
    | ok value =>
      refine .next_bind stands (by simp [kind]) (start_integer kind reads) ?_
      simp only [kind, integer, reads]
      exact .pure trivial
    | error fault =>
      have fails : (State.expression pending).step token = .error (.badInteger token.text fault) := by
        simp only [State.step, start, kind, reads]
      exact .next_bind_refuse stands (by simp only [kind, integer, reads]) fails
  | name =>
    have further := stands.advance (by simp [kind])
    by_cases whole : takesWhole pending = true
    · -- The name is not yet an operand: it takes the next token to tell that it is no target.
      have waits := (takesWhole_iff pending).mp whole
      obtain ⟨second, follows⟩ := (further.inside inside).exists_at
      have noEquals := starts.noTarget waits (stands.ahead.trans kind)
      rw [follows.ahead] at noEquals
      have steps : (State.expression pending).step token = .ok (.name pending token.text) := by
        rw [State.step, start_name kind, if_pos whole]
      refine .next_bind stands (by simp [kind]) steps ?_
      rw [kind]
      refine .of_step_eq follows ?_ (.pure trivial)
      rw [ofAtom_of_fits ((Fits.of_need_eq waits).of_rank_le (by decide)), State.step, if_neg noEquals]
      rfl
    · have steps : (State.expression pending).step token = .ok (.ofAtom pending (.name token.text)) := by
        rw [State.step, start_name kind, if_neg whole]
      refine .next_bind stands (by simp [kind]) steps ?_
      rw [kind]
      exact .pure trivial
  | leftParen =>
    refine .next_bind stands (by simp [kind]) (start_leftParen kind) ?_
    rw [kind]
    exact (below _ (stands.advance (by simp [kind]))).group
  | bar =>
    refine .next_bind stands (by simp [kind]) (start_bar kind) ?_
    rw [kind]
    exact (below _ (stands.advance (by simp [kind]))).function
  | plus | minus =>
    have isSigned := signs (by rw [stands.ahead, kind]; exact Option.some_ne_none _)
    refine .next_bind_refuse stands (by rw [kind]) ?_
    simp only [State.step, start, kind, openSign, isSigned, if_true]
  | rightParen =>
    have notArgument := fun waits => starts.noClosing waits (stands.ahead.trans kind)
    refine .next_bind_refuse stands (by rw [kind]) ?_
    simp only [State.step, start, kind]
    split
    · exact absurd rfl notArgument
    · rfl
  | _ =>
    refine .next_bind_refuse stands (by rw [kind]) ?_
    simp only [State.step, start, kind]

theorem unary_agrees (fits : Fits .unary pending) (starts : Starts pending cursor) :
    Tracks (.expression pending) cursor (unary later) (fun _ => True) (.ofAtom pending) := by
  obtain ⟨token, stands⟩ := inside.exists_at
  rw [unary]
  refine .peek_bind stands ?_
  cases isSign : token.kind.sign? with
  | none =>
    refine atom_agrees inside below starts ?_
    rw [stands.ahead]
    exact absurd isSign
  | some sign =>
    have notEnd := ne_endOfInput_of_sign isSign
    have steps : (State.expression pending).step token = .ok (.expression (.sign sign :: pending)) := by
      rw [State.step, start_sign isSign, openSign, afterSign_of_fits fits]
      rfl
    have agrees := below _ (stands.advance notEnd)
    obtain ⟨first, begins⟩ := ((stands.advance notEnd).inside inside).exists_at
    refine .next_bind stands notEnd steps (.expectExpression_bind begins (.bind agrees.safe.atom agrees.atom ?_))
    intro inner after _ _
    rw [State.ofAtom, ← ofAtom_of_fits fits]
    exact .pure trivial

theorem calls_agrees (callee : Expr) :
    Tracks (.operand pending callee) cursor (calls later callee) Level.call.Ends (.operand pending) := by
  obtain ⟨token, stands⟩ := inside.exists_at
  rw [calls]
  refine .nextIf_bind stands (by decide) proceed_leftParen ?_ ?_
  · intro _ further
    have agrees := below _ further
    refine .bind (agrees.safe.arguments []) agrees.arguments ?_
    intro given after reached _
    exact (below after (further.onward reached)).calls
  · intro noParen
    exact .pure (stands.ahead ▸ noParen)

theorem call_agrees (fits : Fits .call pending) (starts : Starts pending cursor) :
    Tracks (.expression pending) cursor (call later) Level.call.Ends (.ofAtom pending) := by
  have fits : Fits .unary pending := fits.of_rank_le (by decide)
  rw [call]
  refine .bind (safe_of_below inside below).unary (unary_agrees inside below fits starts) ?_
  intro callee after reached _
  rw [funext (ofAtom_of_fits fits)]
  exact (below after reached).calls

theorem goOn_agrees (tier : Tier) (left : Expr) (fits : Fits tier.level pending)
    (ends : tier.part.Ends cursor.ahead) :
    Tracks (.operand pending left) cursor (goOn later tier left) tier.level.Ends (.operand pending) := by
  obtain ⟨token, stands⟩ := inside.exists_at
  rw [goOn]
  refine .peek_bind stands ?_
  cases isOperator : tier.operator? token.kind with
  | none => exact .pure (Tier.ends ends (stands.ahead ▸ isOperator))
  | some operator =>
    have notEnd := Tier.ne_endOfInput isOperator
    have further := stands.advance notEnd
    have agrees := below _ further
    have inside := further.inside inside
    obtain ⟨first, begins⟩ := inside.exists_at
    refine .next_bind stands notEnd (Tier.proceed_operator fits isOperator) (.expectExpression_bind begins ?_)
    refine .bind (agrees.safe.operand tier) (agrees.operand tier tier.fits_construct (.construct tier)) ?_
    intro right after reached ends
    -- The operation is still open, and the next token ends it before all else.
    obtain ⟨last, stands⟩ := (reached.inside inside).exists_at
    refine .of_step_eq stands (Tier.step_construct fits (stands.ahead ▸ ends)) ?_
    exact (below after (further.onward reached)).goOn tier fits ends

omit inside in
theorem chain_agrees {operand : Reader Expr} (tier : Tier) (fits : Fits tier.level pending)
    (safe : Safe 1 cursor operand)
    (first : Tracks (.expression pending) cursor operand tier.part.Ends (.ofAtom pending)) :
    Tracks (.expression pending) cursor (chain later tier operand) tier.level.Ends (.ofAtom pending) := by
  rw [chain]
  refine .bind safe first ?_
  intro left after reached ends
  rw [funext (ofAtom_of_fits (Tier.fits_unary fits))]
  exact (below after reached).goOn tier fits ends

theorem product_agrees (fits : Fits .product pending) (starts : Starts pending cursor) :
    Tracks (.expression pending) cursor (product later) Level.product.Ends (.ofAtom pending) :=
  chain_agrees below .product fits (safe_of_below inside below).call
    (call_agrees inside below (fits.of_rank_le (by decide)) starts)

theorem sum_agrees (fits : Fits .sum pending) (starts : Starts pending cursor) :
    Tracks (.expression pending) cursor (sum later) Level.sum.Ends (.ofAtom pending) :=
  chain_agrees below .sum fits (safe_of_below inside below).product
    (product_agrees inside below (fits.of_rank_le (by decide)) starts)

theorem operand_agrees (tier : Tier) (fits : Fits tier.part pending) (starts : Starts pending cursor) :
    Tracks (.expression pending) cursor ((enclosing later).operand tier) tier.part.Ends (.ofAtom pending) := by
  cases tier with
  | sum => exact product_agrees inside below fits starts
  | product => exact call_agrees inside below fits starts

theorem arguments_agrees (callee : Expr) (before : List Expr) :
    Tracks (.expression (.argument callee before :: pending)) cursor (arguments later before) (fun _ => True)
      (fun given => .operand pending (.call callee given)) := by
  obtain ⟨token, stands⟩ := inside.exists_at
  have steps (isRight : token.kind = .rightParen) :
      (State.expression (.argument callee before :: pending)).step token =
        .ok (.operand pending (.call callee before)) := by
    simp only [State.step, start, isRight]
  rw [arguments]
  refine .expectExpression_bind stands (.nextIf_bind stands (by decide) steps ?_ ?_)
  · intro _ _
    exact .returned ⟨trivial, rfl⟩
  · intro noClosing
    have starts : Starts (.argument callee before :: pending) cursor := .argument (stands.ahead ▸ noClosing)
    refine .bind (safe_of_below inside below).sum (sum_agrees inside below (.of_need_eq rfl) starts) ?_
    intro argument after reached ends
    obtain ⟨last, follows⟩ := (reached.inside inside).exists_at
    -- No token stands between arguments: the one after a sum starts the next or ends the list.
    have steps : (State.ofAtom (.argument callee before :: pending) argument).step last =
        (State.expression (.argument callee (before ++ [argument]) :: pending)).step last :=
      proceed_pending_argument (follows.ahead ▸ ends)
    exact .of_step_eq follows steps (below after reached).arguments

theorem ternary_agrees (whole : need pending = .assignment) (starts : Starts pending cursor) :
    Tracks (.expression pending) cursor (ternary later) Level.ternary.Ends (.ofAtom pending) := by
  have fits (level : Level) (tight : level.rank ≤ Level.assignment.rank) : Fits level pending :=
    (Fits.of_need_eq whole).of_rank_le tight
  rw [ternary]
  refine .bind (safe_of_below inside below).sum (sum_agrees inside below (fits .sum (by decide)) starts) ?_
  intro condition question reached ends
  have inside := reached.inside inside
  obtain ⟨token, stands⟩ := inside.exists_at
  rw [stands.ahead] at ends
  have steps (isQuestion : token.kind = .question) :
      (State.ofAtom pending condition).step token = .ok (.expression (.consequence condition :: pending)) := by
    rw [ofAtom_of_fits (fits .unary (by decide)), State.step, proceed_question isQuestion,
      closeSum_of_fits (fits .terms (by decide)), if_pos ((takesWhole_iff pending).mpr whole)]
  refine .nextIf_bind stands (by decide) steps ?_ ?_
  · intro _ further
    have reached := reached.onward further
    have inside := further.inside inside
    have agrees := below _ reached
    obtain ⟨first, begins⟩ := inside.exists_at
    refine .expectExpression_bind begins (.bind agrees.safe.assignment (agrees.assignment rfl) ?_)
    intro consequence colon passed ends
    have inside := passed.inside inside
    obtain ⟨separator, divides⟩ := inside.exists_at
    rw [divides.ahead] at ends
    refine .expectToken_bind divides (by decide) (ofAtom_step_ends ends) ?_
    intro separated
    have inside := separated.inside inside
    have agrees := below _ ((reached.onward passed).onward separated)
    obtain ⟨second, begins⟩ := inside.exists_at
    refine .expectExpression_bind begins (.bind agrees.safe.assignment (agrees.assignment rfl) ?_)
    intro alternative after last ends
    exact closing_agrees (last.inside inside) (fun _ => rfl) ends ends
  · intro noQuestion
    exact .pure (stands.ahead ▸ ⟨noQuestion, ends⟩)

theorem assignment_agrees (whole : need pending = .assignment) :
    Tracks (.expression pending) cursor (assignment later) Level.assignment.Ends (.ofAtom pending) := by
  obtain ⟨token, stands⟩ := inside.exists_at
  obtain ⟨found, runs, isTarget⟩ := exists_runAt_startsAssignment stands
  rw [assignment, Tracks, runAt_bind_of_ok _ runs]
  cases found with
  | false =>
    -- A name here is no target, and where an assignment can stand there is no list to close.
    refine ternary_agrees inside below whole ⟨?_, ?_⟩
    · intro _ isName isEquals
      exact Bool.false_ne_true (isTarget.mpr ⟨stands.ahead.symm.trans isName, isEquals⟩)
    · intro argument
      exact absurd (whole.symm.trans argument) (by decide)
  | true =>
    obtain ⟨isName, isEquals⟩ := isTarget.mp rfl
    have further := stands.advance (by simp [isName])
    have steps : (State.expression pending).step token = .ok (.name pending token.text) := by
      rw [State.step, start_name isName, if_pos ((takesWhole_iff pending).mpr whole)]
    have inside := further.inside inside
    obtain ⟨second, follows⟩ := inside.exists_at
    rw [follows.ahead] at isEquals
    have targets : (State.name pending token.text).step second =
        demand .equals second (.expression (.target token.text :: pending)) := by
      rw [State.step, demand, if_pos isEquals, if_pos isEquals]
    refine Tracks.identifier_bind stands isName steps (.expectToken_bind follows (by decide) targets ?_)
    intro passed
    have inside := passed.inside inside
    have agrees := below _ (further.onward passed)
    obtain ⟨first, begins⟩ := inside.exists_at
    refine .expectExpression_bind begins (.bind agrees.safe.assignment (agrees.assignment rfl) ?_)
    intro value after last ends
    exact closing_agrees (last.inside inside) (fun _ => rfl) ends ends

theorem group_agrees :
    Tracks (.expression (.group :: pending)) cursor (group later) (fun _ => True) (.ofAtom pending) := by
  obtain ⟨first, begins⟩ := inside.exists_at
  have safe := (safe_of_below inside below).assignment
  rw [group]
  refine .expectExpression_bind begins (.bind safe (assignment_agrees inside below rfl) ?_)
  intro inner after reached ends
  obtain ⟨token, stands⟩ := (reached.inside inside).exists_at
  rw [stands.ahead] at ends
  refine .expectToken_bind stands (by decide) (ofAtom_step_ends ends) ?_
  intro _
  exact .pure trivial

theorem AgreesAt.enclosing : AgreesAt (enclosing later) cursor where
  safe := safe_of_below inside below
  assignment := assignment_agrees inside below
  operand := operand_agrees inside below
  atom := atom_agrees inside below (.of_need_eq (rfl : _ = Level.atom) (by decide) (by decide)) fun _ => rfl
  group := group_agrees inside below
  function := function_agrees inside below
  goOn tier := goOn_agrees inside below tier _
  calls := calls_agrees inside below _
  arguments := arguments_agrees inside below _ _
  parameters := parameters_agrees inside below _

end Step

theorem agreesAt_nested (bottom : Routines) {cursor : Cursor} (inside : cursor.Inside) {depth : Nat}
    (enough : cursor.left ≤ depth) : AgreesAt (enclosing^[depth] bottom) cursor :=
  nested_induct (motive := AgreesAt) (fun _ _ => AgreesAt.enclosing) bottom inside enough

theorem run_finished (expr : Expr) (tokens : List Token) : (State.finished expr).run tokens = .ok (.finished expr) := by
  induction tokens with
  | nil => rfl
  | cons token tokens ih => exact ih

theorem line_agrees {routines : Routines} {cursor : Cursor} (inside : cursor.Inside)
    (agrees : AgreesAt routines cursor) : Tracks (.expression []) cursor (line routines) (fun _ => True) .finished := by
  rw [line]
  refine .bind agrees.safe.assignment (agrees.assignment rfl) ?_
  intro expr newLine reached ends
  have inside := reached.inside inside
  obtain ⟨token, stands⟩ := inside.exists_at
  rw [stands.ahead] at ends
  refine .expectToken_bind stands (by decide) (ofAtom_step_ends ends) ?_
  intro passed
  have inside := passed.inside inside
  obtain ⟨ending, stands⟩ := inside.exists_at
  obtain ⟨after, runs, -⟩ := exists_runAt_next stands
  rw [expectToken, bind_assoc]
  by_cases isEnd : ending.kind = .endOfInput
  · -- Whatever the cursor has come to, what follows the end of the line is not read.
    have finishes : (State.line expr).step ending = .ok (.finished expr) := if_pos isEnd
    rw [Tracks, runAt_bind_of_ok _ runs, if_pos isEnd, pure_bind]
    refine .returned ⟨trivial, ?_⟩
    rw [stands.rest, State.run_cons_of_step finishes, run_finished, run_finished]
  · refine .next_bind_refuse stands ?_ (if_neg isEnd)
    rw [if_neg isEnd]
    rfl

theorem exists_last_closeInput (tokens : List Token) :
    ∃ last ∈ (closeInput tokens).getLast?, last.kind = .endOfInput := by
  unfold closeInput
  split
  · exact ⟨_, rfl, rfl⟩
  next last isLast =>
    split
    next isEnd => exact ⟨last, isLast, isEnd⟩
    · exact ⟨_, List.getLast?_concat .., rfl⟩

theorem inside_closeInput {tokens : List Token} {position : Nat} (bounded : position < (closeInput tokens).length) :
    Cursor.Inside ⟨closeInput tokens, position⟩ :=
  ⟨bounded, exists_last_closeInput tokens⟩

theorem length_closeInput_pos (tokens : List Token) : 0 < (closeInput tokens).length := by
  obtain ⟨last, isLast, -⟩ := exists_last_closeInput tokens
  exact List.length_pos_of_mem (List.mem_of_getLast? isLast)

/-- Whatever the tokens are, every routine from every position ends inside them, with calls nested no deeper than there
are tokens left, and what reading the line by descent comes to is what the tokens parse to. -/
theorem descent_ends_within_tokens (tokens : List Token) (bottom : Routines) :
    (∀ position depth, position < (closeInput tokens).length → (closeInput tokens).length - position ≤ depth →
      SafeAt (enclosing^[depth] bottom) ⟨closeInput tokens, position⟩) ∧
    ∀ depth, (closeInput tokens).length ≤ depth →
      ∃ after, runAt (line (enclosing^[depth] bottom)) ⟨closeInput tokens, 0⟩ =
          some ((parse tokens).mapError .refused, after) ∧
        Cursor.Reaches ⟨closeInput tokens, 0⟩ 0 after := by
  constructor
  · intro position depth bounded enough
    exact safeAt_nested bottom (inside_closeInput bounded) enough
  · intro depth enough
    have inside := inside_closeInput (length_closeInput_pos tokens)
    have agrees : AgreesAt (enclosing^[depth] bottom) ⟨closeInput tokens, 0⟩ :=
      agreesAt_nested bottom inside enough
    have both := Ends.and (line_safe inside agrees.safe.assignment) (line_agrees inside agrees)
    have whole : Cursor.rest ⟨closeInput tokens, 0⟩ = closeInput tokens := rfl
    rw [whole] at both
    generalize runAt (line (enclosing^[depth] bottom)) ⟨closeInput tokens, 0⟩ = outcome at both
    rw [parse_eq_run]
    cases both with
    | @returned expr after holds =>
      obtain ⟨reached, -, runs⟩ := holds
      rw [runs, run_finished]
      exact ⟨after, rfl, reached.weaken⟩
    | @refused error after holds =>
      obtain ⟨reached, fails⟩ := holds
      rw [fails]
      exact ⟨after, rfl, reached⟩

/-- `f(` and then an end of input with more tokens after it, the last of them a name. -/
def endInside : List Token :=
  [⟨.name, "f", 0, 1⟩, ⟨.leftParen, "(", 1, 2⟩, ⟨.endOfInput, "", 2, 2⟩, ⟨.invalid, "?", 3, 4⟩, ⟨.name, "x", 5, 6⟩]

def never {α : Type} : Reader α :=
  fun _ => none

def endless : Routines where
  assignment := never
  ternary := never
  sum := never
  product := never
  call := never
  unary := never
  atom := never
  group := never
  function := never
  goOn _ _ := never
  calls _ := never
  arguments _ := never
  parameters _ := never

theorem descent_ends_within_tokens_endInside :
    (4 < (closeInput endInside).length ∧ SafeAt (enclosing^[2] endless) ⟨closeInput endInside, 4⟩) ∧
      ∃ after, runAt (line (enclosing^[6] endless)) ⟨closeInput endInside, 0⟩ =
        some (.error (.refused .endOfLine), after) := by
  have parses : parse endInside = .error .endOfLine := by rfl
  obtain ⟨ends, reads⟩ := descent_ends_within_tokens endInside endless
  obtain ⟨after, runs, -⟩ := reads 6 (by decide)
  rw [parses] at runs
  exact ⟨⟨by decide, ends 4 2 (by decide) (by decide)⟩, after, runs⟩

end LineLang.Descent
