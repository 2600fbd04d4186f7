import LineLang.Proofs.Contract

/-! Evaluation by equations.

Every evaluation gives back the limit it started with and, unless a call was refused, the number of
open calls. So the parts of an expression have the room that the whole has, and the meaning of an
expression is given by one equation for each form, in which bodies are evaluated like all else.
-/

set_option autoImplicit false

namespace LineLang

structure Session.Counts (session : Session) (depth limit : Nat) : Prop where
  depth : session.depth = depth
  limit : session.limit = limit

/-- The number of open calls that is left where there were `depth`: none after a refusal. -/
def countAfter {α : Type} (depth : Nat) : Except EvalError α → Nat
  | .error (.tooManyCalls _) => 0
  | _ => depth

namespace Outcome

variable {α β : Type} {depth limit : Nat}

structure Balanced (outcome : Outcome EvalError α) (depth limit : Nat) : Prop where
  depth : outcome.session.depth = countAfter depth outcome.result
  limit : outcome.session.limit = limit

theorem Balanced.counts {outcome : Outcome EvalError α} (balanced : outcome.Balanced depth limit)
    {value : α} (succeeds : outcome.result = .ok value) : outcome.session.Counts depth limit := by
  refine ⟨?_, balanced.limit⟩
  rw [balanced.depth, succeeds]
  rfl

theorem bind_congr {outcome : Outcome EvalError α} {next other : α → Session → Outcome EvalError β}
    (balanced : outcome.Balanced depth limit)
    (same : ∀ value session, session.Counts depth limit → next value session = other value session) :
    outcome.bind next = outcome.bind other := by
  obtain ⟨result, session⟩ := outcome
  cases result with
  | ok value => exact same value session (balanced.counts rfl)
  | error error => rfl

end Outcome

namespace Session

variable {session : Session} {depth limit : Nat}

theorem enter_of_room (counts : session.Counts depth limit) (room : depth < limit) :
    session.enter = ⟨.ok (), { session with depth := depth + 1 }⟩ := by
  rw [enter, counts.depth, counts.limit, if_neg (by omega)]

theorem enter_of_full (counts : session.Counts depth limit) (full : limit ≤ depth) :
    session.enter = ⟨.error (.tooManyCalls limit), { session with depth := 0 }⟩ := by
  rw [enter, counts.depth, counts.limit, if_pos (by omega)]

theorem Counts.within (counts : session.Counts depth limit) (within : depth ≤ limit) :
    session.depth ≤ session.limit := by
  rw [counts.depth, counts.limit]
  exact within

end Session

section Bodies

variable {runBody other : Evaluator} {floor limit : Nat}

/-- Bodies that run with more than `floor` calls open keep the count. -/
def Evaluator.BalancedAbove (runBody : Evaluator) (floor limit : Nat) : Prop :=
  ∀ body session depth, floor < depth → depth ≤ limit → session.Counts depth limit →
    (runBody body session).Balanced depth limit

theorem Callable.run_balanced (bodies : runBody.BalancedAbove floor limit) (callable : Callable)
    (arguments : List Value) {caller : Session} {depth : Nat} (above : floor < depth)
    (within : depth ≤ limit) (counts : caller.Counts depth limit) :
    (callable.run runBody arguments caller).Balanced depth limit := by
  have balanced := bodies callable.body { caller with frame := callable.frame arguments caller.frame }
    depth above within ⟨counts.depth, counts.limit⟩
  -- The frame is put back and the result may be captured, but neither touches the counter.
  refine ⟨?_, balanced.limit⟩
  rw [Callable.run]
  simp only [balanced.depth]
  cases (runBody callable.body { caller with frame := callable.frame arguments caller.frame }).result with
  | ok value => rfl
  | error error => cases error <;> rfl

/-- A call that is refused forgets how many are open, and all else gives back the count it found. -/
def counting (floor limit : Nat) : Contract where
  sound session := floor ≤ session.depth ∧ session.depth ≤ limit ∧ session.limit = limit
  after start final := final.Counts start.depth start.limit
  good _ _ := True
  admits _ _ := True
  fails start error final := final.Counts (@countAfter Unit start.depth (.error error)) start.limit
  after_self _ := ⟨rfl, rfl⟩
  after_trans first second := ⟨second.depth.trans first.depth, second.limit.trans first.limit⟩
  sound_after sound counts := by rw [counts.depth, counts.limit]; exact sound
  good_after _ _ := trivial
  admits_after _ _ := trivial
  admits_part _ _ := trivial
  fails_after counts fails := by rw [← counts.depth, ← counts.limit]; exact fails
  good_integer := trivial
  good_function _ := trivial
  good_held _ _ := trivial
  after_set _ _ _ := ⟨rfl, rfl⟩
  fails_here {_ error} _ _ ordinary := by
    refine ⟨?_, rfl⟩
    cases error with
    | tooManyCalls limit => exact absurd rfl (ordinary limit)
    | _ => rfl
  fails_undefined _ _ _ := ⟨rfl, rfl⟩
  fails_refused _ _ := ⟨rfl, rfl⟩
  sound_opened sound room := ⟨Nat.le_succ_of_le sound.1, sound.2.2 ▸ room, sound.2.2⟩
  after_closed _ counts := ⟨congrArg (· - 1) counts.depth, counts.limit⟩
  fails_closed {_ _ error} _ counts := by
    refine ⟨(congrArg (· - 1) counts.depth).trans ?_, counts.limit⟩
    cases error <;> rfl

theorem Outcome.Balanced.of_meets {α : Type} {start : Session} {holds : Frame Value → α → Prop}
    {outcome other : Outcome EvalError α} (meets : (counting floor limit).Meets start holds outcome other) :
    outcome.Balanced start.depth start.limit := by
  cases meets with
  | ok counts _ => exact ⟨counts.depth, counts.limit⟩
  | @error error _ counts =>
    refine ⟨counts.depth.trans ?_, counts.limit⟩
    cases error <;> rfl

theorem Outcome.Balanced.meets {outcome : Outcome EvalError Value} {start : Session}
    (balanced : outcome.Balanced start.depth start.limit) :
    (counting floor limit).Meets start (counting floor limit).good outcome outcome := by
  refine .of_result (fun value succeeds => ⟨balanced.counts succeeds, trivial⟩) fun error fails => ?_
  refine ⟨balanced.depth.trans ?_, balanced.limit⟩
  rw [fails]
  cases error <;> rfl

theorem counting_runs (bodies : runBody.BalancedAbove floor limit)
    (alike : ∀ body session depth, floor < depth → depth ≤ limit → session.Counts depth limit →
      runBody body session = other body session) : (counting floor limit).Runs runBody other := by
  intro callable arguments caller ready
  -- One call more is open than where the call was made, so the body runs above the floor.
  obtain ⟨outer, ⟨above, within, same⟩, room, counts⟩ := ready.inside
  subst same
  have body := alike callable.body { caller with frame := callable.frame arguments caller.frame } _
    (Nat.lt_succ_of_le above) room ⟨counts.depth, counts.limit⟩
  have same : callable.run runBody arguments caller = callable.run other arguments caller := by
    simp only [Callable.run, body]
  have balanced := callable.run_balanced bodies arguments (Nat.lt_succ_of_le above) room counts
  rw [← same]
  apply Outcome.Balanced.meets
  rw [counts.depth, counts.limit]
  exact balanced

namespace Expr

theorem evalWith_balanced (bodies : runBody.BalancedAbove floor limit) (expr : Expr) (session : Session)
    {depth : Nat} (above : floor ≤ depth) (within : depth ≤ limit) (counts : session.Counts depth limit) :
    (expr.evalWith runBody session).Balanced depth limit := by
  obtain ⟨rfl, rfl⟩ := counts
  have runs := counting_runs bodies fun _ _ _ _ _ _ => rfl
  exact .of_meets (Contract.accepts_evalWith runs expr session ⟨above, within, rfl⟩ trivial)

/-- An evaluation does not tell apart bodies that run alike where they can be reached. -/
theorem evalWith_congr (bodies : runBody.BalancedAbove floor limit)
    (alike : ∀ body session depth, floor < depth → depth ≤ limit → session.Counts depth limit →
      runBody body session = other body session)
    (expr : Expr) (session : Session) {depth : Nat} (above : floor ≤ depth) (within : depth ≤ limit)
    (counts : session.Counts depth limit) :
    expr.evalWith runBody session = expr.evalWith other session := by
  obtain ⟨rfl, rfl⟩ := counts
  exact (Contract.accepts_evalWith (counting_runs bodies alike) expr session ⟨above, within, rfl⟩ trivial).eq

theorem evalWithin_balanced (room : Nat) (expr : Expr) (session : Session) {depth : Nat}
    (within : depth ≤ limit) (enough : limit - depth ≤ room) (counts : session.Counts depth limit) :
    (expr.evalWithin room session).Balanced depth limit := by
  induction room generalizing expr session depth with
  | zero =>
    rw [evalWithin]
    refine evalWith_balanced ?_ expr session (Nat.le_refl depth) within counts
    -- Without room the limit is reached, so no body runs deeper.
    intro body session deeper above within
    omega
  | succ room ih =>
    rw [evalWithin]
    refine evalWith_balanced ?_ expr session (Nat.le_refl depth) within counts
    intro body session deeper above within counts
    exact ih body session within (by omega) counts

end Expr

end Bodies

-- Bodies and arguments run one deeper than the call they belong to, and at the limit there is no call.
@[elab_as_elim]
theorem induct_depth {limit : Nat} {motive : (depth : Nat) → depth ≤ limit → Prop}
    (level : ∀ depth within, (∀ deeper, motive (depth + 1) deeper) → motive depth within)
    (depth : Nat) (within : depth ≤ limit) : motive depth within := by
  induction room : limit - depth generalizing depth with
  | zero => exact level depth within (by omega)
  | succ room ih => exact level depth within fun deeper => ih (depth + 1) deeper (by omega)

namespace Session

def evaluator : Evaluator := fun body session => session.eval body

theorem eval_balanced {session : Session} (within : session.depth ≤ session.limit) (expr : Expr) :
    (session.eval expr).Balanced session.depth session.limit :=
  expr.evalWithin_balanced _ session within (Nat.le_refl _) ⟨rfl, rfl⟩

theorem counts_of_eval {session after : Session} {expr : Expr} {value : Value}
    (within : session.depth ≤ session.limit) (evaluated : session.eval expr = ⟨.ok value, after⟩) :
    after.Counts session.depth session.limit := by
  have balanced := eval_balanced within expr
  rw [evaluated] at balanced
  exact balanced.counts rfl

theorem evaluator_balancedAbove (floor limit : Nat) : evaluator.BalancedAbove floor limit := by
  intro body session depth _ within counts
  obtain ⟨rfl, rfl⟩ := counts
  exact eval_balanced within body

theorem evalWithin_eq_evalWith (room : Nat) (expr : Expr) (session : Session) {depth limit : Nat}
    (within : depth ≤ limit) (enough : limit - depth ≤ room) (counts : session.Counts depth limit) :
    expr.evalWithin room session = expr.evalWith evaluator session := by
  induction room using Nat.strongRecOn generalizing expr session depth with
  | ind room ih =>
    cases room with
    | zero =>
      rw [Expr.evalWithin]
      refine (Expr.evalWith_congr (evaluator_balancedAbove depth limit) ?_ expr session
        (Nat.le_refl depth) within counts).symm
      intro body session deeper above within
      omega
    | succ room =>
      rw [Expr.evalWithin]
      refine (Expr.evalWith_congr (evaluator_balancedAbove depth limit) ?_ expr session
        (Nat.le_refl depth) within counts).symm
      intro body session deeper above within counts
      rw [ih room (Nat.lt_succ_self room) body session within (by omega) counts]
      obtain ⟨rfl, rfl⟩ := counts
      exact ih _ (by omega) body session within (Nat.le_refl _) ⟨rfl, rfl⟩

variable {session : Session}

theorem eval_eq_evalWith (within : session.depth ≤ session.limit) (expr : Expr) :
    session.eval expr = expr.evalWith evaluator session :=
  evalWithin_eq_evalWith _ expr session within (Nat.le_refl _) ⟨rfl, rfl⟩

theorem eval_bind_congr {β : Type} (within : session.depth ≤ session.limit) (expr : Expr)
    {next other : Value → Session → Outcome EvalError β}
    (same : ∀ value after, after.depth ≤ after.limit → next value after = other value after) :
    (session.eval expr).bind next = (session.eval expr).bind other := by
  apply Outcome.bind_congr (eval_balanced within expr)
  intro value after counts
  exact same value after (counts.within within)

def evalAll (session : Session) (arguments : List Expr) : Outcome EvalError (List Value) :=
  Action.all (Expr.evalAllWith evaluator arguments) session

theorem eval_integer (value : Int64) : session.eval (.integer value) = ⟨.ok (.integer value), session⟩ := by
  unfold eval
  cases session.limit - session.depth <;> rfl

theorem eval_name (word : String) :
    session.eval (.name word) =
      match session.get? word with
      | some value => ⟨.ok value, session⟩
      | none => ⟨.error (.undefined word), session⟩ := by
  unfold eval
  cases session.limit - session.depth <;> rfl

theorem eval_function (parameters : List String) (body : Expr) :
    session.eval (.function parameters body) = ⟨.ok (.function parameters body), session⟩ := by
  unfold eval
  cases session.limit - session.depth <;> rfl

theorem exists_evaluator (session : Session) :
    ∃ runBody : Evaluator, ∀ expr, session.eval expr = expr.evalWith runBody session := by
  unfold eval
  cases session.limit - session.depth with
  | zero => exact ⟨_, fun _ => rfl⟩
  | succ room => exact ⟨_, fun _ => rfl⟩

theorem eval_signed (sign : Sign) (operand : Expr) :
    session.eval (.signed sign operand) =
      (session.eval operand).bind fun value session => ⟨sign.apply value, session⟩ := by
  obtain ⟨runBody, runs⟩ := session.exists_evaluator
  rw [runs, runs]
  rfl

theorem eval_binary (within : session.depth ≤ session.limit) (operator : Operator) (left right : Expr) :
    session.eval (.binary operator left right) =
      (session.eval left).bind fun
        | .integer first, session =>
          (session.eval right).bind fun
            | .integer second, session => ⟨(operator.apply first second).map .integer, session⟩
            | _, session => ⟨.error (.operandNotInteger operator), session⟩
        | _, session => ⟨.error (.operandNotInteger operator), session⟩ := by
  rw [eval_eq_evalWith within, Expr.evalWith, Action.binary, ← eval_eq_evalWith within]
  apply eval_bind_congr within
  intro value after within
  -- The count after the left operand is the count before it, so the right one runs within the limit too.
  cases value with
  | integer first => exact congrArg (Outcome.bind · _) (eval_eq_evalWith within right).symm
  | _ => rfl

theorem eval_choice (within : session.depth ≤ session.limit) (condition consequence alternative : Expr) :
    session.eval (.choice condition consequence alternative) =
      (session.eval condition).bind fun
        | .integer value, session =>
          if value = 0 then session.eval alternative else session.eval consequence
        | _, session => ⟨.error .conditionNotInteger, session⟩ := by
  rw [eval_eq_evalWith within, Expr.evalWith, Action.choice, ← eval_eq_evalWith within]
  apply eval_bind_congr within
  intro value after within
  cases value with
  | integer value => simp only [eval_eq_evalWith within]
  | _ => rfl

theorem eval_assign (target : String) (value : Expr) :
    session.eval (.assign target value) =
      (session.eval value).bind fun value session => ⟨.ok value, session.set target value⟩ := by
  obtain ⟨runBody, runs⟩ := session.exists_evaluator
  rw [runs, runs]
  rfl

theorem eval_call (within : session.depth ≤ session.limit) (callee : Expr) (arguments : List Expr) :
    session.eval (.call callee arguments) =
      (session.eval callee).bind fun value session =>
        match value.callable? with
        | none => ⟨.error .notFunction, session⟩
        | some callable =>
          if callable.parameters.length = arguments.length then
            session.enter.bind fun _ session =>
              ((session.evalAll arguments).bind (callable.run evaluator)).leave
          else
            ⟨.error (.argumentCount callee callable.parameters.length arguments.length), session⟩ := by
  rw [eval_eq_evalWith within, eval_eq_evalWith within, Expr.evalWith, Action.call, Expr.length_evalAllWith]
  rfl

theorem evalAll_cons (within : session.depth ≤ session.limit) (first : Expr) (rest : List Expr) :
    session.evalAll (first :: rest) =
      (session.eval first).bind fun value session =>
        (session.evalAll rest).bind fun values session => ⟨.ok (value :: values), session⟩ := by
  rw [eval_eq_evalWith within]
  rfl

theorem evalAll_balanced (within : session.depth ≤ session.limit) (arguments : List Expr) :
    (session.evalAll arguments).Balanced session.depth session.limit := by
  have runs := counting_runs (evaluator_balancedAbove session.depth session.limit) fun _ _ _ _ _ _ => rfl
  exact .of_meets (Contract.meets_evalAllWith runs session ⟨Nat.le_refl _, within, rfl⟩ fun _ _ => trivial)

theorem counts_of_evalAll {after : Session} {arguments : List Expr} {values : List Value}
    (within : session.depth ≤ session.limit) (evaluated : session.evalAll arguments = ⟨.ok values, after⟩) :
    after.Counts session.depth session.limit := by
  have balanced := evalAll_balanced within arguments
  rw [evaluated] at balanced
  exact balanced.counts rfl

section Steady

variable {after : Session} {left right condition : Expr} {first second value : Int64}

theorem eval_name_of_get? {word : String} {value : Value} (bound : session.get? word = some value) :
    session.eval (.name word) = ⟨.ok value, session⟩ := by
  rw [eval_name, bound]

theorem eval_binary_of_ok (operator : Operator)
    (evaluated : session.eval left = ⟨.ok (.integer first), session⟩)
    (alsoEvaluated : session.eval right = ⟨.ok (.integer second), session⟩) :
    session.eval (.binary operator left right) = ⟨(operator.apply first second).map .integer, session⟩ := by
  obtain ⟨runBody, runs⟩ := session.exists_evaluator
  rw [runs] at evaluated alsoEvaluated ⊢
  simp only [Expr.evalWith, Action.binary, evaluated, alsoEvaluated, Outcome.bind_ok]

theorem eval_binary_of_error (within : session.depth ≤ session.limit) (operator : Operator) {error : EvalError}
    (fails : session.eval left = ⟨.error error, after⟩) :
    session.eval (.binary operator left right) = ⟨.error error, after⟩ := by
  rw [eval_binary within, fails, Outcome.bind_error]

theorem eval_choice_of_ok (within : session.depth ≤ session.limit) (consequence alternative : Expr)
    (tested : session.eval condition = ⟨.ok (.integer value), session⟩) :
    session.eval (.choice condition consequence alternative) =
      if value = 0 then session.eval alternative else session.eval consequence := by
  rw [eval_choice within, tested]
  rfl

end Steady

end Session

namespace Callable

variable {callable : Callable} {session : Session}

def apply (callable : Callable) (arguments : List Expr) (session : Session) : Outcome EvalError Value :=
  session.enter.bind fun _ session =>
    ((session.evalAll arguments).bind (callable.run Session.evaluator)).leave

theorem eval_call_eq_apply {called : Session} {callee : Expr} {value : Value} {arguments : List Expr}
    (within : session.depth ≤ session.limit) (evaluated : session.eval callee = ⟨.ok value, called⟩)
    (calls : value.callable? = some callable) (matching : callable.parameters.length = arguments.length) :
    session.eval (.call callee arguments) = callable.apply arguments called := by
  rw [Session.eval_call within, evaluated, Outcome.bind_ok, calls]
  simp only [if_pos matching]
  rfl

theorem apply_of_full (full : session.limit ≤ session.depth) (arguments : List Expr) :
    callable.apply arguments session = ⟨.error (.tooManyCalls session.limit), { session with depth := 0 }⟩ := by
  rw [apply, Session.enter_of_full ⟨rfl, rfl⟩ full, Outcome.bind_error]

/-- The argument comes to the value, and changes nothing, once the call has been entered. -/
def Passes (session : Session) (argument : Expr) (value : Value) : Prop :=
  Session.eval { session with depth := session.depth + 1 } argument =
    ⟨.ok value, { session with depth := session.depth + 1 }⟩

/-- The session in which the body of a call on the value starts. -/
def entered (callable : Callable) (value : Value) (session : Session) : Session :=
  { session with frame := callable.frame [value] session.frame, depth := session.depth + 1 }

section Single

variable {argument : Expr} {value : Value} (room : session.depth < session.limit)
  (passes : Passes session argument value)

include room passes

theorem apply_single :
    callable.apply [argument] session =
      let outcome := (callable.entered value session).eval callable.body
      ⟨outcome.result.map (Value.capture outcome.session.frame),
        { outcome.session with frame := session.frame, depth := outcome.session.depth - 1 }⟩ := by
  have within : ({ session with depth := session.depth + 1 } : Session).depth ≤ session.limit := room
  rw [apply, Session.enter_of_room ⟨rfl, rfl⟩ room, Outcome.bind_ok, Session.evalAll_cons within, passes]
  rfl

theorem apply_single_of_ok {result : Value} {after : Session}
    (body : (callable.entered value session).eval callable.body = ⟨.ok result, after⟩) :
    callable.apply [argument] session = ⟨.ok (result.capture after.frame), session⟩ := by
  have within : (callable.entered value session).depth ≤ (callable.entered value session).limit := room
  have counts : after.Counts (session.depth + 1) session.limit := Session.counts_of_eval within body
  rw [apply_single room passes, body]
  simp only [counts.depth, counts.limit, Nat.add_sub_cancel]
  rfl

theorem apply_single_of_refused {bound : Nat} {after : Session}
    (body : (callable.entered value session).eval callable.body = ⟨.error (.tooManyCalls bound), after⟩) :
    callable.apply [argument] session = ⟨.error (.tooManyCalls bound), { session with depth := 0 }⟩ := by
  have within : (callable.entered value session).depth ≤ (callable.entered value session).limit := room
  have balanced := Session.eval_balanced within callable.body
  rw [body] at balanced
  have depth : after.depth = 0 := balanced.depth
  have limit : after.limit = session.limit := balanced.limit
  rw [apply_single room passes, body]
  simp only [depth, limit]
  rfl

end Single

end Callable

end LineLang
