import Mathlib.Logic.Function.Iterate
import LineLang.Proofs.Parse.Descent

/-! Reading by descent ends, and never looks past the tokens.

The position never goes back, and a routine of a level that returns has passed a token. So what a routine calls
further on, in a loop or at another level, has fewer tokens left.
-/

set_option autoImplicit false

namespace LineLang.Descent

/-- The reader ends with a result at least `gap` tokens further on or with a refusal, and stays inside the tokens. -/
def Safe {α : Type} (gap : Nat) (cursor : Cursor) (reader : Reader α) : Prop :=
  Ends (fun _ => cursor.Reaches gap) (fun _ => cursor.Reaches 0) (runAt reader cursor)

namespace Safe

variable {α β : Type} {cursor : Cursor} {token : Token} {gap : Nat} {kind : Token.Kind} {reader : Reader α}

theorem weaken (safe : Safe gap cursor reader) : Safe 0 cursor reader :=
  safe.mono (fun _ _ => Cursor.Reaches.weaken) (fun _ _ => id)

theorem pure (inside : cursor.Inside) (value : α) : Safe 0 cursor (pure value) :=
  .returned inside.refl

theorem refuse (inside : cursor.Inside) (error : ParseError) :
    Safe gap cursor (throw (.refused error) : Reader α) :=
  .refused inside.refl

theorem resume {passed : Nat} {after : Cursor} (reached : cursor.Reaches passed after)
    (rest : Safe (gap - passed) after reader) :
    Ends (fun _ => cursor.Reaches gap) (fun _ => cursor.Reaches 0) (runAt reader after) := by
  refine rest.mono ?_ ?_
  · intro _ final onward
    obtain ⟨tokens, forward, bounded⟩ := reached.trans onward
    exact ⟨tokens, by omega, bounded⟩
  · intro _ final onward
    exact (reached.trans onward).weaken

theorem bind {passed : Nat} {next : α → Reader β} (first : Safe passed cursor reader)
    (rest : ∀ value after, cursor.Reaches passed after → Safe (gap - passed) after (next value)) :
    Safe gap cursor (reader >>= next) :=
  Ends.bind first fun value after reached => resume reached (rest value after reached)

theorem peek_bind {next : Token → Reader α} (stands : cursor.At token) (rest : Safe gap cursor (next token)) :
    Safe gap cursor (peek >>= next) := by
  rw [Safe, runAt_bind_of_ok _ (runAt_peek stands)]
  exact rest

theorem next_bind {next : Token → Reader α} (stands : cursor.At token) (notEnd : token.kind ≠ .endOfInput)
    (rest : Safe (gap - 1) cursor.advance (next token)) : Safe gap cursor (Descent.next >>= next) := by
  rw [Safe, runAt_bind_of_ok _ (runAt_next_of_not_end stands notEnd)]
  exact resume (stands.advance notEnd) rest

theorem next_bind_refuse {next : Token → Reader α} {error : ParseError} (stands : cursor.At token)
    (refuses : next token = throw (.refused error)) : Safe gap cursor (Descent.next >>= next) := by
  obtain ⟨after, runs, reached⟩ := exists_runAt_next stands
  rw [Safe, runAt_bind_of_ok _ runs, refuses]
  exact .refused reached

theorem identifier_bind {next : String → Reader α} (stands : cursor.At token) (isName : token.kind = .name)
    (rest : Safe (gap - 1) cursor.advance (next token.text)) : Safe gap cursor (identifier >>= next) := by
  rw [identifier, bind_assoc]
  refine next_bind stands (by simp [isName]) ?_
  rw [if_pos isName, pure_bind]
  exact rest

theorem nextIf_bind {next : Bool → Reader α} (stands : cursor.At token) (notEnd : kind ≠ .endOfInput)
    (found : token.kind = kind → Safe (gap - 1) cursor.advance (next true)) (absent : Safe gap cursor (next false)) :
    Safe gap cursor (nextIf kind >>= next) := by
  rw [nextIf, bind_assoc]
  refine peek_bind stands ?_
  by_cases isKind : token.kind = kind
  · rw [if_pos isKind, bind_assoc]
    exact next_bind stands (isKind ▸ notEnd) (found isKind)
  · rw [if_neg isKind]
    exact absent

theorem peekNth (inside : cursor.Inside) (offset : Nat) : Safe 0 cursor (peekNth offset) := by
  have bounded := inside.bounded
  have there : min (cursor.position + offset) (cursor.tokens.length - 1) < cursor.tokens.length := by omega
  rw [Safe, runAt_peekNth (List.getElem?_eq_getElem there)]
  exact .returned inside.refl

theorem next (inside : cursor.Inside) : Safe 0 cursor next := by
  obtain ⟨token, stands⟩ := inside.exists_at
  obtain ⟨after, runs, reached⟩ := exists_runAt_next stands
  rw [Safe, runs]
  exact .returned reached

theorem expectToken (inside : cursor.Inside) (notEnd : kind ≠ .endOfInput) :
    Safe 1 cursor (expectToken kind) := by
  obtain ⟨token, stands⟩ := inside.exists_at
  rw [Descent.expectToken]
  by_cases isKind : token.kind = kind
  · refine next_bind stands (isKind ▸ notEnd) ?_
    rw [if_pos isKind]
    exact pure ((stands.advance (isKind ▸ notEnd)).inside inside) ()
  · exact next_bind_refuse stands (if_neg isKind)

theorem expectToken_any (inside : cursor.Inside) : Safe 0 cursor (Descent.expectToken kind) := by
  rw [Descent.expectToken]
  refine bind (Safe.next inside) ?_
  intro token after reached
  split
  · exact .pure (reached.inside inside) ()
  · exact .refuse (reached.inside inside) _

theorem expectExpression_bind {next : Unit → Reader α} (inside : cursor.Inside) (rest : Safe gap cursor (next ())) :
    Safe gap cursor (expectExpression >>= next) := by
  obtain ⟨token, stands⟩ := inside.exists_at
  rw [expectExpression, bind_assoc]
  refine peek_bind stands ?_
  split
  · exact .refused inside.refl
  · exact rest

end Safe

/-- Every routine is safe here. Those of a level of the grammar pass a token, and so does a list of arguments. -/
structure SafeAt (routines : Routines) (cursor : Cursor) : Prop where
  assignment : Safe 1 cursor routines.assignment
  ternary : Safe 1 cursor routines.ternary
  sum : Safe 1 cursor routines.sum
  product : Safe 1 cursor routines.product
  call : Safe 1 cursor routines.call
  unary : Safe 1 cursor routines.unary
  atom : Safe 1 cursor routines.atom
  group : Safe 0 cursor routines.group
  function : Safe 0 cursor routines.function
  goOn (tier : Tier) (left : Expr) : Safe 0 cursor (routines.goOn tier left)
  calls (callee : Expr) : Safe 0 cursor (routines.calls callee)
  arguments (before : List Expr) : Safe 1 cursor (routines.arguments before)
  parameters (before : List String) : Safe 0 cursor (routines.parameters before)
  peekNth (offset : Nat) : Safe 0 cursor (peekNth offset)
  next : Safe 0 cursor next

theorem SafeAt.operand {routines : Routines} {cursor : Cursor} (safe : SafeAt routines cursor) (tier : Tier) :
    Safe 1 cursor (routines.operand tier) := by
  cases tier with
  | sum => exact safe.product
  | product => exact safe.call

section Step

-- What a routine calls where it stands is a tighter level, and all else it calls is safe at any later position.
variable {later : Routines} {cursor : Cursor} (inside : cursor.Inside)
  (below : ∀ after, cursor.Reaches 1 after → SafeAt later after)

include inside below

theorem parameters_safe (before : List String) : Safe 0 cursor (parameters later before) := by
  obtain ⟨token, stands⟩ := inside.exists_at
  rw [parameters]
  refine .peek_bind stands ?_
  by_cases isName : token.kind = .name
  · rw [if_pos isName]
    exact .identifier_bind stands isName ((below _ (stands.advance (by simp [isName]))).parameters _)
  · rw [if_neg isName]
    exact .pure inside before

theorem function_safe : Safe 0 cursor (function later) := by
  rw [function]
  refine .bind (parameters_safe inside below []) ?_
  intro names bar reached
  have inside := reached.inside inside
  refine .bind (Safe.expectToken inside (by decide)) ?_
  intro _ start passed
  have inside := passed.inside inside
  refine .expectExpression_bind inside (.bind (below start (reached.trans passed)).assignment ?_)
  intro body after last
  exact .pure (last.inside inside) _

theorem atom_safe : Safe 1 cursor (atom later) := by
  obtain ⟨token, stands⟩ := inside.exists_at
  rw [atom]
  cases kind : token.kind with
  | integer =>
    have further := stands.advance (by simp [kind])
    refine .next_bind stands (by simp [kind]) ?_
    rw [kind]
    dsimp only [integer]
    split
    · exact .pure (further.inside inside) _
    · exact .refuse (further.inside inside) _
  | name =>
    have further := stands.advance (by simp [kind])
    refine .next_bind stands (by simp [kind]) ?_
    rw [kind]
    exact .pure (further.inside inside) _
  | leftParen =>
    have further := stands.advance (by simp [kind])
    refine .next_bind stands (by simp [kind]) ?_
    rw [kind]
    exact (below _ further).group
  | bar =>
    have further := stands.advance (by simp [kind])
    refine .next_bind stands (by simp [kind]) ?_
    rw [kind]
    exact (below _ further).function
  | _ =>
    -- No operand starts with any other token, the end of input included.
    exact .next_bind_refuse stands (by rw [kind])

theorem unary_safe : Safe 1 cursor (unary later) := by
  obtain ⟨token, stands⟩ := inside.exists_at
  rw [unary]
  refine .peek_bind stands ?_
  cases isSign : token.kind.sign? with
  | none => exact atom_safe inside below
  | some sign =>
    have notEnd := ne_endOfInput_of_sign isSign
    have further := stands.advance notEnd
    have inside := further.inside inside
    refine .next_bind stands notEnd (.expectExpression_bind inside (.bind (below _ further).atom ?_))
    intro inner after reached
    exact .pure (reached.inside inside) _

theorem calls_safe (callee : Expr) : Safe 0 cursor (calls later callee) := by
  obtain ⟨token, stands⟩ := inside.exists_at
  rw [calls]
  refine .nextIf_bind stands (by decide) ?_ (.pure inside callee)
  intro isLeft
  have further := stands.advance (by simp [isLeft])
  refine .bind ((below _ further).arguments []) ?_
  intro given after reached
  exact (below after (further.onward reached)).calls _

theorem call_safe : Safe 1 cursor (call later) := by
  rw [call]
  refine .bind (unary_safe inside below) ?_
  intro callee after reached
  exact (below after reached).calls callee

theorem goOn_safe (tier : Tier) (left : Expr) : Safe 0 cursor (goOn later tier left) := by
  obtain ⟨token, stands⟩ := inside.exists_at
  rw [goOn]
  refine .peek_bind stands ?_
  cases isOperator : tier.operator? token.kind with
  | none => exact .pure inside left
  | some operator =>
    have notEnd := Tier.ne_endOfInput isOperator
    have further := stands.advance notEnd
    have inside := further.inside inside
    refine .next_bind stands notEnd (.expectExpression_bind inside (.bind ((below _ further).operand tier) ?_))
    intro right after reached
    exact (below after (further.onward reached)).goOn tier _

omit inside in
theorem chain_safe {operand : Reader Expr} (tier : Tier) (first : Safe 1 cursor operand) :
    Safe 1 cursor (chain later tier operand) := by
  rw [chain]
  refine .bind first ?_
  intro left after reached
  exact (below after reached).goOn tier left

theorem product_safe : Safe 1 cursor (product later) :=
  chain_safe below .product (call_safe inside below)

theorem sum_safe : Safe 1 cursor (sum later) :=
  chain_safe below .sum (product_safe inside below)

theorem ternary_safe : Safe 1 cursor (ternary later) := by
  rw [ternary]
  refine .bind (sum_safe inside below) ?_
  intro condition question reached
  have inside := reached.inside inside
  obtain ⟨token, stands⟩ := inside.exists_at
  refine .nextIf_bind stands (by decide) ?_ (.pure inside condition)
  intro isQuestion
  have further := stands.advance (by simp [isQuestion])
  have reached := reached.onward further
  have inside := further.inside inside
  refine .expectExpression_bind inside (.bind (below _ reached).assignment ?_)
  intro consequence colon passed
  have inside := passed.inside inside
  refine .bind (Safe.expectToken inside (by decide)) ?_
  intro _ start separated
  have reached := (reached.onward passed).onward separated
  have inside := separated.inside inside
  refine .expectExpression_bind inside (.bind (below start reached).assignment ?_)
  intro alternative after last
  exact .pure (last.inside inside) _

theorem arguments_safe (before : List Expr) : Safe 1 cursor (arguments later before) := by
  obtain ⟨token, stands⟩ := inside.exists_at
  rw [arguments]
  refine .expectExpression_bind inside (.nextIf_bind stands (by decide) ?_ ?_)
  · intro isRight
    exact .pure ((stands.advance (by simp [isRight])).inside inside) before
  · -- Where the list goes on, the argument passes a token, and the rest of the list need not.
    refine .bind (sum_safe inside below) ?_
    intro argument after reached
    exact ((below after reached).arguments _).weaken

theorem assignment_safe : Safe 1 cursor (assignment later) := by
  obtain ⟨token, stands⟩ := inside.exists_at
  obtain ⟨found, runs, starts⟩ := exists_runAt_startsAssignment stands
  rw [assignment, Safe, runAt_bind_of_ok _ runs]
  cases found with
  | false => exact ternary_safe inside below
  | true =>
    obtain ⟨isName, -⟩ := starts.mp rfl
    have further := stands.advance (by simp [isName])
    refine Safe.identifier_bind stands isName ?_
    refine .bind (Safe.expectToken (further.inside inside) (by decide)) ?_
    intro _ start passed
    have reached := further.onward passed
    have inside := reached.inside inside
    refine .expectExpression_bind inside (.bind (below start reached).assignment ?_)
    intro value after last
    exact .pure (last.inside inside) _

theorem group_safe : Safe 0 cursor (group later) := by
  rw [group]
  refine .expectExpression_bind inside (.bind (assignment_safe inside below) ?_)
  intro inner closing reached
  have inside := reached.inside inside
  refine .bind (Safe.expectToken inside (by decide)) ?_
  intro _ after passed
  exact .pure (passed.inside inside) inner

theorem SafeAt.enclosing : SafeAt (enclosing later) cursor where
  assignment := assignment_safe inside below
  ternary := ternary_safe inside below
  sum := sum_safe inside below
  product := product_safe inside below
  call := call_safe inside below
  unary := unary_safe inside below
  atom := atom_safe inside below
  group := group_safe inside below
  function := function_safe inside below
  goOn := goOn_safe inside below
  calls := calls_safe inside below
  arguments := arguments_safe inside below
  parameters := parameters_safe inside below
  peekNth := .peekNth inside
  next := .next inside

end Step

/-- Calls are nested no deeper than there are tokens left, so what stands at the bottom is never called. -/
theorem nested_induct {motive : Routines → Cursor → Prop}
    (step : ∀ (later : Routines) (cursor : Cursor), cursor.Inside →
      (∀ after, cursor.Reaches 1 after → motive later after) → motive (enclosing later) cursor)
    (bottom : Routines) {cursor : Cursor} (inside : cursor.Inside) {depth : Nat} (enough : cursor.left ≤ depth) :
    motive (enclosing^[depth] bottom) cursor := by
  induction depth generalizing cursor with
  | zero =>
    -- The cursor is at a token, so one is left.
    have bounded := inside.bounded
    rw [Cursor.left] at enough
    omega
  | succ depth ih =>
    rw [Function.iterate_succ_apply']
    refine step _ cursor inside ?_
    intro after reached
    exact ih (reached.inside inside) (Nat.le_of_lt_succ (Nat.lt_of_lt_of_le reached.left_lt enough))

theorem safeAt_nested (bottom : Routines) {cursor : Cursor} (inside : cursor.Inside) {depth : Nat}
    (enough : cursor.left ≤ depth) : SafeAt (enclosing^[depth] bottom) cursor :=
  nested_induct (motive := SafeAt) (fun _ _ => SafeAt.enclosing) bottom inside enough

theorem line_safe {routines : Routines} {cursor : Cursor} (inside : cursor.Inside)
    (safe : Safe 1 cursor routines.assignment) : Safe 1 cursor (line routines) := by
  rw [line]
  refine .bind safe ?_
  intro expr newLine reached
  have inside := reached.inside inside
  refine .bind (Safe.expectToken inside (by decide)) ?_
  intro _ ending passed
  have inside := passed.inside inside
  -- The end of input may be the last token, which is not passed.
  refine .bind (Safe.expectToken_any inside) ?_
  intro _ after last
  exact .pure (last.inside inside) expr

end LineLang.Descent
