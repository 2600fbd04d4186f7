import Mathlib.Logic.Function.Iterate
import LineLang.Proofs.Evaluation

/-! Every evaluation ends.

One level of an evaluation asks for the evaluation of parts, arguments and bodies. It asks finitely often, and
each time either about a part of the expression or with one more call open, so what is asked is smaller: first
by the calls that may still be opened, then by the expression. A fuelled evaluator that spends one unit on each
level therefore has enough with some amount, whatever it would do without any.
-/

set_option autoImplicit false

namespace LineLang

namespace Expr

/-- One level of an evaluation. Everything that is evaluated on the way is left to `inner`: parts, arguments
and the bodies of functions. -/
def evalStep (inner : Evaluator) : Expr → Session → Outcome EvalError Value
  | .integer value => Action.give (.integer value)
  | .name word => Action.name word
  | .signed sign operand => Action.signed sign (inner operand)
  | .binary operator left right => Action.binary operator (inner left) (inner right)
  | .choice condition consequence alternative =>
    Action.choice (inner condition) (inner consequence) (inner alternative)
  | .assign target value => Action.assign target (inner value)
  | .function parameters body => Action.give (.function parameters body)
  | .call callee arguments => Action.call inner callee (inner callee) (arguments.map inner)

mutual

def size : Expr → Nat
  | .integer _ | .name _ => 1
  | .signed _ operand => size operand + 1
  | .binary _ left right => size left + size right + 1
  | .choice condition consequence alternative =>
    size condition + size consequence + size alternative + 1
  | .assign _ value => size value + 1
  | .function _ body => size body + 1
  | .call callee arguments => size callee + sizeAll arguments + 1

def sizeAll : List Expr → Nat
  | [] => 0
  | argument :: rest => size argument + sizeAll rest

end

end Expr

namespace Termination

def evalMeasure (input : Expr × Session) : Nat × Nat :=
  (input.2.limit - input.2.depth, input.1.size)

/-- What is evaluated within another evaluation: again within the limit, and smaller. -/
structure Below (input outer : Expr × Session) : Prop where
  within : input.2.depth ≤ input.2.limit
  smaller : Prod.Lex (· < ·) (· < ·) (evalMeasure input) (evalMeasure outer)

namespace Below

variable {expr part : Expr} {session after : Session}

theorem of_part (counts : after.Counts session.depth session.limit) (within : session.depth ≤ session.limit)
    (smaller : part.size < expr.size) : Below (part, after) (expr, session) := by
  refine ⟨counts.within within, ?_⟩
  simp only [evalMeasure, counts.depth, counts.limit]
  exact .right _ smaller

theorem of_deeper (counts : after.Counts (session.depth + 1) session.limit)
    (room : session.depth < session.limit) : Below (part, after) (expr, session) := by
  refine ⟨counts.within room, ?_⟩
  simp only [evalMeasure, counts.depth, counts.limit]
  exact .left _ _ (by omega)

end Below

/-- Finitely many evaluations below `outer` settle what is computed with an evaluator. -/
def Settled {α : Type} (outer : Expr × Session) (compute : Evaluator → Outcome EvalError α)
    (outcome : Outcome EvalError α) : Prop :=
  ∃ inputs : List (Expr × Session), (∀ input ∈ inputs, Below input outer) ∧
    ∀ inner : Evaluator, (∀ input ∈ inputs, inner input.1 input.2 = input.2.eval input.1) →
      compute inner = outcome

namespace Settled

variable {α β : Type} {outer : Expr × Session} {outcome : Outcome EvalError α}
  {compute : Evaluator → Outcome EvalError α}

theorem done : Settled outer (fun _ => outcome) outcome :=
  ⟨[], nofun, fun _ _ => rfl⟩

theorem ask {part : Expr} {session : Session} (below : Below (part, session) outer) :
    Settled outer (fun inner => inner part session) (session.eval part) := by
  refine ⟨[(part, session)], ?_, ?_⟩
  · intro input isOne
    rw [List.mem_singleton.mp isOne]
    exact below
  · intro inner agrees
    exact agrees _ List.mem_cons_self

theorem bind {next : Evaluator → α → Session → Outcome EvalError β}
    {answer : α → Session → Outcome EvalError β} (first : Settled outer compute outcome)
    (goesOn : ∀ value session, outcome = ⟨.ok value, session⟩ →
      Settled outer (fun inner => next inner value session) (answer value session)) :
    Settled outer (fun inner => (compute inner).bind (next inner)) (outcome.bind answer) := by
  obtain ⟨inputs, below, settles⟩ := first
  obtain ⟨result, session⟩ := outcome
  cases result with
  | error error =>
    refine ⟨inputs, below, fun inner agrees => ?_⟩
    simp only [settles inner agrees, Outcome.bind_error]
  | ok value =>
    obtain ⟨others, othersBelow, settlesRest⟩ := goesOn value session rfl
    refine ⟨inputs ++ others, ?_, fun inner agrees => ?_⟩
    · intro input isOne
      exact (List.mem_append.mp isOne).elim (below input) (othersBelow input)
    · rw [List.forall_mem_append] at agrees
      simp only [settles inner agrees.1, Outcome.bind_ok]
      exact settlesRest inner agrees.2

theorem map (change : Outcome EvalError α → Outcome EvalError β) (first : Settled outer compute outcome) :
    Settled outer (fun inner => change (compute inner)) (change outcome) := by
  obtain ⟨inputs, below, settles⟩ := first
  exact ⟨inputs, below, fun inner agrees => congrArg change (settles inner agrees)⟩

end Settled

theorem settled_all {outer : Expr × Session} {depth limit : Nat} (within : depth ≤ limit)
    (below : ∀ argument after, after.Counts depth limit → Below (argument, after) outer)
    (arguments : List Expr) {session : Session} (counts : session.Counts depth limit) :
    Settled outer (fun inner => Action.all (arguments.map inner) session) (session.evalAll arguments) := by
  induction arguments generalizing session with
  | nil => exact .done
  | cons first rest ih =>
    rw [Session.evalAll_cons (counts.within within)]
    apply (Settled.ask (below first session counts)).bind
    intro value after evaluated
    have countsAfter := Session.counts_of_eval (counts.within within) evaluated
    rw [counts.depth, counts.limit] at countsAfter
    exact (ih countsAfter).bind fun _ _ _ => .done

theorem settled_run {outer : Expr × Session} {caller : Session} (callable : Callable)
    (arguments : List Value)
    (below : Below (callable.body, { caller with frame := callable.frame arguments caller.frame }) outer) :
    Settled outer (fun inner => callable.run inner arguments caller)
      (callable.run Session.evaluator arguments caller) :=
  (Settled.ask below).map fun outcome =>
    { result := outcome.result.map (Value.capture outcome.session.frame)
      session := { outcome.session with frame := caller.frame } }

-- Parts are smaller expressions at the same depth; arguments and the body of a call stand one deeper.
theorem settled_evalStep {session : Session} (within : session.depth ≤ session.limit) (expr : Expr) :
    Settled (expr, session) (fun inner => expr.evalStep inner session) (session.eval expr) := by
  have same : session.Counts session.depth session.limit := ⟨rfl, rfl⟩
  cases expr with
  | integer value => rw [Session.eval_integer]; exact .done
  | name word => rw [Session.eval_name]; exact .done
  | function parameters body => rw [Session.eval_function]; exact .done
  | signed sign operand =>
    rw [Session.eval_signed]
    simp only [Expr.evalStep, Action.signed]
    exact (Settled.ask (.of_part same within (by rw [Expr.size]; omega))).bind fun _ _ _ => .done
  | assign target value =>
    rw [Session.eval_assign]
    simp only [Expr.evalStep, Action.assign]
    exact (Settled.ask (.of_part same within (by rw [Expr.size]; omega))).bind fun _ _ _ => .done
  | binary operator left right =>
    rw [Session.eval_binary within]
    simp only [Expr.evalStep, Action.binary]
    apply (Settled.ask (.of_part same within (by rw [Expr.size]; omega))).bind
    intro value middle evaluated
    have counts := Session.counts_of_eval within evaluated
    cases value with
    | integer first =>
      apply (Settled.ask (.of_part counts within (by rw [Expr.size]; omega))).bind
      intro value after _
      cases value <;> exact .done
    | _ => exact .done
  | choice condition consequence alternative =>
    rw [Session.eval_choice within]
    simp only [Expr.evalStep, Action.choice]
    apply (Settled.ask (.of_part same within (by rw [Expr.size]; omega))).bind
    intro value middle evaluated
    have counts := Session.counts_of_eval within evaluated
    cases value with
    | integer value =>
      simp only
      split
      · exact .ask (.of_part counts within (by rw [Expr.size]; omega))
      · exact .ask (.of_part counts within (by rw [Expr.size]; omega))
    | _ => exact .done
  | call callee arguments =>
    rw [Session.eval_call within]
    simp only [Expr.evalStep, Action.call, List.length_map]
    apply (Settled.ask (.of_part same within (by rw [Expr.size]; omega))).bind
    intro value called evaluated
    have counts := Session.counts_of_eval within evaluated
    cases value.callable? with
    | none => exact .done
    | some callable =>
      simp only
      split
      · by_cases room : session.depth < session.limit
        · rw [Session.enter_of_room counts room]
          have entered : ({ called with depth := session.depth + 1 } : Session).Counts (session.depth + 1)
              session.limit := ⟨rfl, counts.limit⟩
          have below : ∀ nested after, after.Counts (session.depth + 1) session.limit →
              Below (nested, after) (callee.call arguments, session) :=
            fun nested after counts => .of_deeper counts room
          simp only [Outcome.bind_ok]
          apply Settled.map Outcome.leave
          apply (settled_all room below arguments entered).bind
          intro values caller evaluated
          have counts := Session.counts_of_evalAll (entered.within room) evaluated
          exact settled_run callable values (below _ _ ⟨counts.depth, counts.limit.trans entered.limit⟩)
        · rw [Session.enter_of_full counts (Nat.le_of_not_lt room)]
          exact .done
      · exact .done

theorem exists_enough {α : Type} (inputs : List α) {Holds : α → Nat → Prop}
    (each : ∀ input ∈ inputs, ∃ enough, ∀ fuel, enough ≤ fuel → Holds input fuel) :
    ∃ enough, ∀ input ∈ inputs, ∀ fuel, enough ≤ fuel → Holds input fuel := by
  induction inputs with
  | nil => exact ⟨0, nofun⟩
  | cons first rest ih =>
    obtain ⟨one, holdsFirst⟩ := each first List.mem_cons_self
    obtain ⟨other, holdsRest⟩ := ih fun input isOne => each input (List.mem_cons_of_mem _ isOne)
    refine ⟨max one other, fun input isOne fuel enough => ?_⟩
    rcases List.mem_cons.mp isOne with rfl | later
    · exact holdsFirst fuel (Nat.le_trans (Nat.le_max_left _ _) enough)
    · exact holdsRest input later fuel (Nat.le_trans (Nat.le_max_right _ _) enough)

theorem exists_fuel (input : Expr × Session) (within : input.2.depth ≤ input.2.limit) :
    ∃ enough, ∀ fuel, enough ≤ fuel → ∀ bottom : Evaluator,
      Expr.evalStep^[fuel] bottom input.1 input.2 = input.2.eval input.1 := by
  induction input using (InvImage.wf evalMeasure (Prod.lex Nat.lt_wfRel Nat.lt_wfRel).wf).induction with
  | _ input ih =>
  obtain ⟨inputs, below, settles⟩ := settled_evalStep within input.1
  obtain ⟨enough, holds⟩ := exists_enough inputs fun nested isOne =>
    ih nested (below nested isOne).smaller (below nested isOne).within
  refine ⟨enough + 1, fun fuel more bottom => ?_⟩
  obtain ⟨spare, rfl⟩ := Nat.exists_eq_add_of_le more
  rw [Nat.add_right_comm, Function.iterate_succ_apply']
  exact settles _ fun nested isOne => holds nested isOne _ (Nat.le_add_right _ _) bottom

theorem evalWithin_eq_iterate (room : Nat) :
    Expr.evalWithin room =
      Expr.evalWith^[room + 1] fun _ session => ⟨.error (.tooManyCalls session.limit), session⟩ := by
  induction room with
  | zero => rfl
  | succ room ih =>
    rw [Function.iterate_succ_apply', ← ih]
    rfl

theorem iterate_evalWith (bottom : Evaluator) (room : Nat) (expr : Expr) (session : Session)
    (within : session.depth ≤ session.limit) (enough : session.limit - session.depth ≤ room) :
    Expr.evalWith^[room + 1] bottom expr session = session.eval expr := by
  induction room generalizing expr session with
  | zero =>
    rw [Session.eval_eq_evalWith within]
    refine (Expr.evalWith_congr (Session.evaluator_balancedAbove session.depth session.limit) ?_ expr session
      (Nat.le_refl _) within ⟨rfl, rfl⟩).symm
    -- The limit is reached, so no body runs.
    intro body after deeper above within
    omega
  | succ room ih =>
    rw [Session.eval_eq_evalWith within, Function.iterate_succ_apply']
    refine (Expr.evalWith_congr (Session.evaluator_balancedAbove session.depth session.limit) ?_ expr session
      (Nat.le_refl _) within ⟨rfl, rfl⟩).symm
    intro body after deeper above deeperWithin counts
    refine (ih body after (counts.within deeperWithin) ?_).symm
    rw [counts.depth, counts.limit]
    omega

/-- Evaluation is a recursion on what is smaller: finitely many evaluations below an input settle it. So a
fuelled evaluator finishes with enough fuel, and the one that counts room finishes with as much as there are
calls left. Neither ever asks what happens at its bottom. -/
theorem eval_terminates (frame : Frame Value) (depth limit : Nat) (within : depth ≤ limit) (expr : Expr) :
    let session : Session := { frame, depth, limit }
    Settled (expr, session) (fun inner => expr.evalStep inner session) (session.eval expr) ∧
      (∃ enough, ∀ fuel, enough ≤ fuel → ∀ bottom : Evaluator,
        Expr.evalStep^[fuel] bottom expr session = session.eval expr) ∧
      ∀ room, limit - depth ≤ room → expr.evalWithin room session = session.eval expr ∧
        ∀ bottom : Evaluator, Expr.evalWith^[room + 1] bottom expr session = session.eval expr := by
  intro session
  refine ⟨settled_evalStep within expr, exists_fuel (expr, session) within, ?_⟩
  intro room enough
  have unasked := fun bottom => iterate_evalWith bottom room expr session within enough
  refine ⟨?_, unasked⟩
  rw [evalWithin_eq_iterate]
  exact unasked _

/-- `f = |f| f(f)`. -/
def selfCalling : Frame Value :=
  ⟨[("f", .function ["f"] (.call (.name "f") [.name "f"]))]⟩

theorem eval_terminates_selfCalling :
    1 ≤ 3 ∧ ∃ enough, ∀ fuel, enough ≤ fuel → ∀ bottom : Evaluator,
      (Expr.evalStep^[fuel] bottom (.call (.name "f") [.name "f"]) ⟨selfCalling, 1, 3⟩).result =
        .error (.tooManyCalls 3) := by
  obtain ⟨enough, holds⟩ := (eval_terminates selfCalling 1 3 (by decide) (.call (.name "f") [.name "f"])).2.1
  refine ⟨by decide, enough, ?_⟩
  intro fuel more bottom
  rw [holds fuel more bottom]
  rfl

end Termination

end LineLang
