import LineLang.Proofs.Parse.Steps

/-! Every derived word is read.

A state that stands after a word is compared by what it does with the token that follows: it need not have
ended the constructs that are still open at the end of the word, as long as that token ends them.
-/

set_option autoImplicit false

namespace LineLang.Parse

open Grammar

/-- Where an expression has to start, the word is read as this expression by the time a token of kind `next`
follows it. -/
def Reads (pending : List Pending) (word : List Token) (next : Token.Kind) (expr : Expr) : Prop :=
  ∃ state, (State.expression pending).run word = .ok state ∧
    ∀ token, token.kind = next → state.step token = (State.ofAtom pending expr).step token

/-- Words of the level are read so wherever the level fits. Only an assignment may start like one, where one
can stand. -/
def ReadsAll (level : Level) (word : List Token) (next : Token.Kind) (expr : Expr) : Prop :=
  ∀ pending, Fits level pending →
    (level ≠ .assignment → takesWhole pending = true → ¬ StartsAssignment word next) →
    Reads pending word next expr

variable {pending : List Pending} {word : List Token} {next : Token.Kind} {expr : Expr}

-- Where the innermost construct waits for a part, nothing is the target of an assignment.
theorem ReadsAll.inside {level : Level} (reads : ReadsAll level word next expr) (waits : need pending = level)
    (part : takesWhole pending = false) : Reads pending word next expr := by
  refine reads pending (.of_need_eq waits) ?_
  intro _ whole
  rw [part] at whole
  cases whole

theorem ReadsAll.whole (reads : ReadsAll .assignment word next expr) (waits : need pending = .assignment) :
    Reads pending word next expr :=
  reads pending (.of_need_eq waits) (absurd rfl)

theorem Reads.closing {construct : Pending} {whole : Expr} (reads : Reads (construct :: pending) word next expr)
    (ends : Level.assignment.Ends next)
    (closes : ∀ token, close (construct :: pending) expr token = close pending whole token) :
    ∃ state, (State.expression (construct :: pending)).run word = .ok state ∧
      ∀ token, token.kind = next → state.step token = (State.ofAtom pending whole).step token := by
  obtain ⟨state, runs, steps⟩ := reads
  refine ⟨state, runs, ?_⟩
  rintro token rfl
  rw [steps token rfl, ofAtom_step_ends ends, ofAtom_step_ends ends, closes]

theorem run_of_same_step {state other : State} (nonempty : word ≠ []) (next : Token.Kind) (rest : List Token)
    (same : ∀ token, token.kind = ahead word next → state.step token = other.step token) :
    state.run (word ++ rest) = other.run (word ++ rest) := by
  cases word with
  | nil => exact absurd rfl nonempty
  | cons first word => rw [List.cons_append, State.run_cons, State.run_cons, same first rfl]

theorem run_arguments {callee : Expr} {words : List Token} {arguments before : List Expr} {right : Token}
    {state : State} (isRight : right.kind = .rightParen)
    (items : Sequence (fun word next expr => Derives .longest .sum word next expr ∧
      ReadsAll .sum word next expr) words .rightParen arguments)
    (stands : ∀ token, token.kind = ahead words .rightParen →
      state.step token = start (.argument callee before :: pending) token) :
    state.run (words ++ [right]) = .ok (.operand pending (.call callee (before ++ arguments))) := by
  generalize ends : Token.Kind.rightParen = next at items
  induction items generalizing before state with
  | nil =>
    subst ends
    rw [List.nil_append, State.run_cons, stands right isRight, List.append_nil]
    simp only [start, isRight]
    rfl
  | @cons word words next expr exprs item _ ih =>
    subst ends
    obtain ⟨derives, reads⟩ := item
    obtain ⟨after, runs, steps⟩ := reads.inside (rfl : need (.argument callee before :: pending) = _) rfl
    -- The state may still hold the argument before open, which the first token of this one ends.
    have begins : state.run (word ++ (words ++ [right])) =
        (State.expression (.argument callee before :: pending)).run (word ++ (words ++ [right])) := by
      apply run_of_same_step derives.word_ne_nil .rightParen
      intro token kind
      exact stands token (kind.trans (ahead_append derives.word_ne_nil words _ _).symm)
    rw [List.append_assoc, begins, State.run_append_of_run runs, List.append_cons before expr]
    refine ih ?_ rfl
    intro token kind
    rw [steps token kind]
    exact proceed_pending_argument (kind ▸ derives.ends)

theorem run_parameters {parameters : List Token} (names : List String)
    (areNames : ∀ parameter ∈ parameters, parameter.kind = .name) :
    (State.parameters pending names).run parameters =
      .ok (.parameters pending (names ++ parameters.map Token.text)) := by
  induction parameters generalizing names with
  | nil => rw [List.map_nil, List.append_nil, State.run_nil]
  | cons parameter parameters ih =>
    have step : (State.parameters pending names).step parameter =
        .ok (.parameters pending (names ++ [parameter.text])) := by
      simp only [State.step, areNames parameter List.mem_cons_self]
    rw [State.run_cons_of_step step, ih _ fun other member => areNames other (List.mem_cons_of_mem _ member),
      List.map_cons, List.append_assoc, List.singleton_append]

namespace ReadsAll

theorem loosen {level looser : Level} (reads : ReadsAll level word next expr)
    (tight : level.rank ≤ looser.rank) (other : looser ≠ .assignment) : ReadsAll looser word next expr :=
  fun pending fits starts => reads pending (fits.of_rank_le tight) fun _ => starts other

theorem ternary (reads : ReadsAll .ternary word next expr) (starts : ¬ StartsAssignment word next) :
    ReadsAll .assignment word next expr :=
  fun pending fits _ => reads pending (fits.of_rank_le (by decide)) fun _ _ => starts

theorem assign {name equals : Token} (isName : name.kind = .name) (isEquals : equals.kind = .equals)
    (ends : Level.assignment.Ends next) (value : ReadsAll .assignment word next expr) :
    ReadsAll .assignment (name :: equals :: word) next (.assign name.text expr) := by
  intro pending fits starts
  have whole := takesWhole_of_fits (fits.of_rank_le (by decide))
  have first : (State.expression pending).step name = .ok (.name pending name.text) := by
    rw [State.step, start_name isName, if_pos whole]
  have second : (State.name pending name.text).step equals =
      .ok (.expression (.target name.text :: pending)) := by
    rw [State.step, if_pos isEquals]
  have reads := value.whole (rfl : need (.target name.text :: pending) = _)
  obtain ⟨state, runs, steps⟩ := reads.closing ends fun token => rfl
  exact ⟨state, by rw [State.run_cons_of_step first, State.run_cons_of_step second, runs], steps⟩

theorem choice {question colon : Token} {first second third : List Token}
    {condition consequence alternative : Expr} (isQuestion : question.kind = .question)
    (isColon : colon.kind = .colon) (ends : Level.assignment.Ends next)
    (noTarget : ¬ StartsAssignment first .question)
    (tested : ReadsAll .sum first .question condition) (yes : ReadsAll .assignment second .colon consequence)
    (no : ReadsAll .assignment third next alternative) :
    ReadsAll .ternary (first ++ question :: (second ++ colon :: third)) next
      (.choice condition consequence alternative) := by
  intro pending fits starts
  have whole := takesWhole_of_fits fits
  obtain ⟨afterFirst, runsFirst, stepsFirst⟩ := tested pending (fits.of_rank_le (by decide)) fun _ _ => noTarget
  have asks : afterFirst.step question = .ok (.expression (.consequence condition :: pending)) := by
    rw [stepsFirst question isQuestion, ofAtom_of_fits (fits.of_rank_le (by decide)), State.step,
      proceed_question isQuestion, closeSum_of_fits (fits.of_rank_le (by decide)), if_pos whole]
  obtain ⟨afterSecond, runsSecond, stepsSecond⟩ := yes.whole (rfl : need (.consequence condition :: pending) = _)
  have divides : afterSecond.step colon = .ok (.expression (.alternative condition consequence :: pending)) := by
    rw [stepsSecond colon isColon, ofAtom_step_ends (by rw [isColon]; decide), close,
      demand, if_pos isColon]
  have reads := no.whole (rfl : need (.alternative condition consequence :: pending) = _)
  obtain ⟨state, runs, steps⟩ := reads.closing ends fun token => rfl
  refine ⟨state, ?_, steps⟩
  rw [State.run_append_of_run runsFirst, State.run_cons_of_step asks, State.run_append_of_run runsSecond,
    State.run_cons_of_step divides, runs]

theorem term {sign : Token} {operator : Operator} {first second : List Token} {left right : Expr}
    (isSign : sign.kind.term? = some operator) (ends : Level.product.Ends next)
    (noTarget : ¬ StartsAssignment first sign.kind)
    (before : ReadsAll .terms first sign.kind left) (last : ReadsAll .product second next right) :
    ReadsAll .terms (first ++ sign :: second) next (.binary operator left right) := by
  intro pending fits starts
  obtain ⟨middle, runsFirst, stepsFirst⟩ := before pending fits fun _ _ => noTarget
  have opens : middle.step sign = .ok (.expression (.term left operator :: pending)) := by
    rw [stepsFirst sign rfl, ofAtom_of_fits (fits.of_rank_le (by decide)), State.step, proceed_term isSign,
      openTerm, closeSum_of_fits fits]
  obtain ⟨state, runs, steps⟩ := last.inside (rfl : need (.term left operator :: pending) = _) rfl
  refine ⟨state, by rw [State.run_append_of_run runsFirst, State.run_cons_of_step opens, runs], ?_⟩
  -- The sum is still open in the state, but the token treats it as ended.
  rintro token rfl
  rw [steps token rfl, ofAtom_of_fits (fits.of_rank_le (by decide))]
  exact proceed_pending_term fits left operator ends

theorem factor {sign : Token} {operator : Operator} {first second : List Token} {left right : Expr}
    (isSign : sign.kind.factor? = some operator) (ends : Level.call.Ends next)
    (noTarget : ¬ StartsAssignment first sign.kind)
    (before : ReadsAll .factors first sign.kind left) (last : ReadsAll .call second next right) :
    ReadsAll .factors (first ++ sign :: second) next (.binary operator left right) := by
  intro pending fits starts
  obtain ⟨middle, runsFirst, stepsFirst⟩ := before pending fits fun _ _ => noTarget
  have opens : middle.step sign = .ok (.expression (.factor left operator :: pending)) := by
    rw [stepsFirst sign rfl, ofAtom_of_fits (fits.of_rank_le (by decide)), State.step, proceed_factor isSign,
      openFactor, closeProduct_of_fits fits]
  obtain ⟨state, runs, steps⟩ := last.inside (rfl : need (.factor left operator :: pending) = _) rfl
  refine ⟨state, by rw [State.run_append_of_run runsFirst, State.run_cons_of_step opens, runs], ?_⟩
  rintro token rfl
  rw [steps token rfl, ofAtom_of_fits (fits.of_rank_le (by decide))]
  exact proceed_pending_factor fits left operator ends

theorem call {left right : Token} {words : List Token} {callee : Expr} {arguments : List Expr}
    (isLeft : left.kind = .leftParen) (isRight : right.kind = .rightParen)
    (noTarget : ¬ StartsAssignment word .leftParen) (called : ReadsAll .calls word .leftParen callee)
    (items : Sequence (fun word next expr => Derives .longest .sum word next expr ∧
      ReadsAll .sum word next expr) words .rightParen arguments) :
    ReadsAll .calls (word ++ left :: (words ++ [right])) next (.call callee arguments) := by
  intro pending fits starts
  obtain ⟨middle, runsFirst, stepsFirst⟩ := called pending fits fun _ _ => noTarget
  have opens : middle.step left = .ok (.expression (.argument callee [] :: pending)) := by
    rw [stepsFirst left isLeft, ofAtom_of_fits (fits.of_rank_le (by decide)), State.step,
      proceed_leftParen isLeft]
  have closes := run_arguments isRight items
    fun token _ => (rfl : (State.expression (.argument callee [] :: pending)).step token = _)
  refine ⟨.operand pending (.call callee arguments), ?_, ?_⟩
  · rw [State.run_append_of_run runsFirst, State.run_cons_of_step opens, closes, List.nil_append]
  · intro token _
    rw [ofAtom_of_fits (fits.of_rank_le (by decide))]

theorem signed {token : Token} {sign : Sign} (isSign : token.kind.sign? = some sign)
    (operand : ReadsAll .atom word next expr) : ReadsAll .unary (token :: word) next (.signed sign expr) := by
  intro pending fits starts
  have opens : (State.expression pending).step token = .ok (.expression (.sign sign :: pending)) := by
    rw [State.step, start_sign isSign, openSign, afterSign_of_fits fits]
    rfl
  obtain ⟨state, runs, steps⟩ := operand.inside (rfl : need (.sign sign :: pending) = _) rfl
  refine ⟨state, by rw [State.run_cons_of_step opens, runs], ?_⟩
  intro token kind
  rw [steps token kind, ofAtom_of_fits fits, State.ofAtom]

theorem integer {token : Token} {value : Int64} (isInteger : token.kind = .integer)
    (reads : Numeral.read token.text = .ok value) : ReadsAll .atom [token] next (.integer value) := by
  intro pending fits starts
  have step : (State.expression pending).step token = _ := start_integer isInteger reads
  exact ⟨.ofAtom pending (.integer value), by rw [State.run_cons_of_step step, State.run_nil], fun _ _ => rfl⟩

theorem name {token : Token} (isName : token.kind = .name) : ReadsAll .atom [token] next (.name token.text) := by
  intro pending fits starts
  have step : (State.expression pending).step token = _ := start_name isName
  by_cases whole : takesWhole pending = true
  · rw [if_pos whole] at step
    refine ⟨.name pending token.text, by rw [State.run_cons_of_step step, State.run_nil], ?_⟩
    rintro following rfl
    -- The name waits for an equals sign, which does not follow.
    have free : Fits .unary pending :=
      (Fits.of_need_eq ((takesWhole_iff pending).mp whole)).of_rank_le (by decide)
    have noEquals : following.kind ≠ .equals := fun isEquals =>
      starts (by decide) whole ⟨token, [], rfl, isName, isEquals⟩
    rw [ofAtom_of_fits free, State.step, if_neg noEquals, State.step]
  · rw [if_neg whole] at step
    exact ⟨.ofAtom pending (.name token.text), by rw [State.run_cons_of_step step, State.run_nil], fun _ _ => rfl⟩

theorem group {left right : Token} (isLeft : left.kind = .leftParen) (isRight : right.kind = .rightParen)
    (inside : ReadsAll .assignment word .rightParen expr) :
    ReadsAll .atom (left :: (word ++ [right])) next expr := by
  intro pending fits starts
  have opens : (State.expression pending).step left = .ok (.expression (.group :: pending)) :=
    start_leftParen isLeft
  obtain ⟨last, runs, steps⟩ := inside.whole (rfl : need (.group :: pending) = _)
  have closes : last.step right = .ok (.ofAtom pending expr) := by
    rw [steps right isRight, ofAtom_step_ends (by rw [isRight]; decide), close,
      demand, if_pos isRight]
  refine ⟨.ofAtom pending expr, ?_, fun _ _ => rfl⟩
  rw [State.run_cons_of_step opens, State.run_append_of_run runs, State.run_cons_of_step closes, State.run_nil]

theorem function {left right : Token} {parameters : List Token} (isLeft : left.kind = .bar)
    (names : ∀ parameter ∈ parameters, parameter.kind = .name) (isRight : right.kind = .bar)
    (ends : Level.assignment.Ends next) (body : ReadsAll .assignment word next expr) :
    ReadsAll .atom (left :: (parameters ++ right :: word)) next
      (.function (parameters.map Token.text) expr) := by
  intro pending fits starts
  have opens : (State.expression pending).step left = .ok (.parameters pending []) := start_bar isLeft
  have closes : (State.parameters pending ([] ++ parameters.map Token.text)).step right =
      .ok (.expression (.body (parameters.map Token.text) :: pending)) := by
    simp only [State.step, isRight, demand, if_true, List.nil_append]
  have reads := body.whole (rfl : need (.body (parameters.map Token.text) :: pending) = _)
  obtain ⟨state, runs, steps⟩ := reads.closing ends fun token => rfl
  refine ⟨state, ?_, steps⟩
  rw [State.run_cons_of_step opens, State.run_append_of_run (run_parameters [] names),
    State.run_cons_of_step closes, runs]

end ReadsAll

/-- Every word that the longest reading derives is read wherever its level fits. -/
theorem readsAll_of_derives {level : Level} (derives : Derives .longest level word next expr) :
    ReadsAll level word next expr := by
  induction derives with
  | assign isName isEquals value ih => exact ih.assign isName isEquals value.ends
  | ternary _ starts ih => exact ih.ternary (starts rfl)
  | choice tested isQuestion _ isColon no ihTested ihYes ihNo =>
    have noTarget := tested.not_startsAssignment (by decide) (by decide)
    exact ihTested.choice isQuestion isColon no.ends noTarget ihYes ihNo
  | sum _ _ ih | terms _ _ ih | factors _ _ ih | calls _ _ ih => exact ih.loosen (by decide) (by decide)
  | product _ ih | call _ ih | unary _ ih | atom _ ih => exact ih.loosen (by decide) (by decide)
  | term before isSign last ihBefore ihLast =>
    refine ihBefore.term isSign last.ends (before.not_startsAssignment (by decide) ?_) ihLast
    intro isEquals
    rw [isEquals] at isSign
    cases isSign
  | factor before isSign last ihBefore ihLast =>
    refine ihBefore.factor isSign last.ends (before.not_startsAssignment (by decide) ?_) ihLast
    intro isEquals
    rw [isEquals] at isSign
    cases isSign
  | arguments called isLeft _ isRight ih items =>
    refine ih.call isLeft isRight (called.not_startsAssignment (by decide) (by decide)) (items.mono ?_)
    rintro word next expr ⟨part, reads⟩
    exact ⟨part, reads⟩
  | signed isSign _ ih => exact ih.signed isSign
  | integer isInteger reads => exact .integer isInteger reads
  | name isName => exact .name isName
  | group isLeft _ isRight ih => exact ih.group isLeft isRight
  | function isLeft names isRight body ih => exact ih.function isLeft names isRight body.ends

end LineLang.Parse
