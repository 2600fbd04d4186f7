import LineLang.Proofs.BigStep.Refinement
import LineLang.Proofs.Effect

/-! Calling with one argument after the other.

A function that takes its parameters one by one, called on one argument after the other, does what the function
that takes them all at once does with the same arguments. Each closure on the way holds the frame that the call
before it ended in; where no later argument assigns, that is the frame which the one call has, up to the
parameters that are still to come.
-/

set_option autoImplicit false

namespace LineLang

open BigStep

namespace Expr

/-- `|p| |q| ... body`. -/
def curried (parameters : List String) (body : Expr) : Expr :=
  parameters.foldr (fun parameter inner => .function [parameter] inner) body

/-- `callee(x)(y)...`. -/
def callEach (callee : Expr) (arguments : List Expr) : Expr :=
  arguments.foldl (fun callee argument => .call callee [argument]) callee

end Expr

/-- The same result, with captured frames read as maps, and the same session. -/
structure Outcome.Alike (outcome other : Outcome EvalError Value) : Prop where
  result : outcome.result.map Value.meaning = other.result.map Value.meaning
  session : outcome.session = other.session

namespace Outcome.Alike

variable {outcome middle other : Outcome EvalError Value}

theorem refl (outcome : Outcome EvalError Value) : outcome.Alike outcome :=
  ⟨rfl, rfl⟩

theorem trans (first : outcome.Alike middle) (second : middle.Alike other) : outcome.Alike other :=
  ⟨first.result.trans second.result, first.session.trans second.session⟩

theorem leave (alike : outcome.Alike other) : outcome.leave.Alike other.leave :=
  ⟨alike.result, congrArg (fun session : Session => { session with depth := session.depth - 1 }) alike.session⟩

end Outcome.Alike

theorem countAfter_map {α β : Type} (depth : Nat) (change : α → β) (result : Except EvalError α) :
    countAfter depth (result.map change) = countAfter depth result := by
  cases result with
  | ok value => rfl
  | error error => cases error <;> rfl

theorem BigStep.Scope.ofCall_ofCall (parameter : String) (parameters : List String) (value : Meaning)
    (values : List Meaning) (captured caller : Scope) :
    Scope.ofCall parameters values (.ofCall [parameter] [value] captured caller) caller =
      .ofCall (parameter :: parameters) (value :: values) captured caller := by
  funext name
  simp only [ofCall, List.zip_cons_cons, List.zip_nil_right, List.reverse_cons, List.reverse_nil, List.nil_append,
    List.lookup_append, Option.or_assoc]
  congr 3
  -- What the caller sees stands last on both sides, once more on the left.
  cases caller name <;> simp

namespace Session

variable {session other : Session}

theorem eval_of_scope_eq (within : session.depth ≤ session.limit) (counts : other.Counts session.depth session.limit)
    (same : session.frame.scope = other.frame.scope) (expr : Expr) :
    (session.eval expr).Shows Value.meaning ((other.eval expr).result.map Value.meaning)
      (other.eval expr).session.frame.scope := by
  have evaluates := derived within expr other counts
  rw [← same] at evaluates
  exact determined within expr session _ _ ⟨rfl, rfl⟩ evaluates

end Session

namespace Callable

variable {callable other : Callable} {arguments otherArguments : List Value} {caller : Session}

theorem run_alike (within : caller.depth ≤ caller.limit) (body : callable.body = other.body)
    (frame : (callable.frame arguments caller.frame).scope = (other.frame otherArguments caller.frame).scope) :
    (callable.run Session.evaluator arguments caller).Alike
      (other.run Session.evaluator otherArguments caller) := by
  have shows := @Session.eval_of_scope_eq { caller with frame := callable.frame arguments caller.frame }
    { caller with frame := other.frame otherArguments caller.frame } within ⟨rfl, rfl⟩ frame callable.body
  have balanced := @Session.eval_balanced { caller with frame := callable.frame arguments caller.frame } within
    callable.body
  have otherBalanced := @Session.eval_balanced { caller with frame := other.frame otherArguments caller.frame }
    within callable.body
  simp only [run, Session.evaluator, ← body]
  generalize Session.eval { caller with frame := callable.frame arguments caller.frame } callable.body = outcome
    at shows balanced ⊢
  generalize Session.eval { caller with frame := other.frame otherArguments caller.frame } callable.body =
    otherOutcome at shows otherBalanced ⊢
  obtain ⟨result, after⟩ := shows
  refine ⟨?_, ?_⟩
  · rw [Value.map_meaning_capture, Value.map_meaning_capture, result, after]
  · -- The count that is left follows from the result, up to which the two agree.
    have depth : outcome.session.depth = otherOutcome.session.depth := by
      rw [balanced.depth, otherBalanced.depth, ← countAfter_map _ Value.meaning, result, countAfter_map]
    have limit := balanced.limit.trans otherBalanced.limit.symm
    simp only [depth, limit]

end Callable

theorem Session.eval_callEach_of_error {session after : Session} {callee : Expr} {error : EvalError}
    (within : session.depth ≤ session.limit) (fails : session.eval callee = ⟨.error error, after⟩)
    (arguments : List Expr) : session.eval (callee.callEach arguments) = ⟨.error error, after⟩ := by
  induction arguments generalizing callee with
  | nil => exact fails
  | cons argument rest ih =>
    apply ih
    rw [Session.eval_call within, fails, Outcome.bind_error]

theorem Session.evalAll_frame_eq {session : Session} {arguments : List Expr}
    (assignNothing : ∀ argument ∈ arguments, argument.targets = []) :
    (session.evalAll arguments).session.frame = session.frame := by
  have keepsLimit : Session.evaluator.KeepsLimit :=
    fun body session => (session.eval_reaches (List.Subset.refl body.targets)).limit_eq
  have nothing : ∀ argument ∈ arguments, argument.targets ⊆ [] :=
    fun argument isOne => List.subset_nil.mpr (assignNothing argument isOne)
  have meets := Contract.meets_evalAllWith (reaching_runs keepsLimit) session trivial nothing
  exact (Session.Reaches.of_meets meets).frame_eq

namespace Callable

variable {called : Session} {first next : String} {others : List String} {body inner argument : Expr}
  {captured : Frame Value} {rest : List Expr}

theorem run_captured_alike {middle : Session} (within : middle.depth ≤ middle.limit)
    (assignNothing : ∀ argument ∈ rest, argument.targets = []) (value : Value) :
    ((middle.evalAll rest).bind
        (run Session.evaluator ⟨others, body, frame ⟨[first], inner, captured⟩ [value] middle.frame⟩)).Alike
      (((middle.evalAll rest).bind fun values session => ⟨.ok (value :: values), session⟩).bind
        (run Session.evaluator ⟨first :: others, body, captured⟩)) := by
  have frame := middle.evalAll_frame_eq assignNothing
  have balanced := Session.evalAll_balanced within rest
  generalize middle.evalAll rest = passed at frame balanced ⊢
  obtain ⟨result, caller⟩ := passed
  cases result with
  | error error => exact .refl _
  | ok values =>
    have unchanged : caller.frame = middle.frame := frame
    refine run_alike ((balanced.counts rfl).within within) rfl ?_
    -- Without an assignment in between, the closure was made in the frame that the call is made from.
    rw [scope_frame, scope_frame, scope_frame, ← unchanged]
    exact Scope.ofCall_ofCall first others value.meaning (values.map Value.meaning) captured.scope
      caller.frame.scope

-- One parameter less: either the first argument stops both calls in the same way, or it leaves a closure on which the
-- rest of the arguments do what they do in the call on all of them.
theorem apply_curried (assignNothing : ∀ argument ∈ rest, argument.targets = []) :
    let outcome := apply ⟨[first], .function [next] inner, captured⟩ [argument] called
    let direct := apply ⟨first :: next :: others, body, captured⟩ (argument :: rest) called
    (∃ error after, outcome = ⟨.error error, after⟩ ∧ direct = ⟨.error error, after⟩) ∨
      ∃ frame after, outcome = ⟨.ok (.closure [next] inner frame), after⟩ ∧
        (apply ⟨next :: others, body, frame⟩ rest after).Alike direct := by
  intro outcome direct
  simp only [outcome, direct, apply]
  by_cases room : called.depth < called.limit
  · have entered : ({ called with depth := called.depth + 1 } : Session).Counts (called.depth + 1) called.limit :=
      ⟨rfl, rfl⟩
    rw [Session.enter_of_room ⟨rfl, rfl⟩ room, Outcome.bind_ok, Outcome.bind_ok,
      Session.evalAll_cons (entered.within room), Session.evalAll_cons (entered.within room)]
    cases evaluated : Session.eval { called with depth := called.depth + 1 } argument with
    | mk result middle =>
    cases result with
    | error error => exact .inl ⟨error, _, rfl, rfl⟩
    | ok value =>
      have counts : middle.Counts (called.depth + 1) called.limit :=
        Session.counts_of_eval (entered.within room) evaluated
      refine .inr ⟨frame ⟨[first], .function [next] inner, captured⟩ [value] middle.frame,
        { middle with depth := called.depth }, ?_, ?_⟩
      · -- The body is a function literal, which takes the frame of the call along.
        simp only [Outcome.bind_ok, Session.evalAll, Expr.evalAllWith, Action.all, run, Session.evaluator,
          Session.eval_function, Outcome.leave, counts.depth]
        rfl
      · -- The call on the closure is opened where the first one was, in the same session.
        have reentered : ({ middle with depth := called.depth + 1 } : Session) = middle := by
          rw [← counts.depth]
        have closed : ({ middle with depth := called.depth } : Session).Counts called.depth called.limit :=
          ⟨rfl, counts.limit⟩
        rw [Session.enter_of_room closed room]
        simp only [Outcome.bind_ok, reentered]
        exact (run_captured_alike (counts.within room) assignNothing value).leave
  · rw [Session.enter_of_full ⟨rfl, rfl⟩ (Nat.le_of_not_lt room)]
    exact .inl ⟨_, _, rfl, rfl⟩

end Callable

theorem Session.eval_callEach {session called : Session} {callee : Expr} {value : Value} {first : String}
    {others : List String} {body : Expr} {captured : Frame Value} {argument : Expr} {rest : List Expr}
    (within : session.depth ≤ session.limit) (evaluated : session.eval callee = ⟨.ok value, called⟩)
    (calls : value.callable? = some ⟨[first], .curried others body, captured⟩)
    (matching : others.length = rest.length) (assignNothing : ∀ argument ∈ rest, argument.targets = []) :
    (session.eval (callee.callEach (argument :: rest))).Alike
      (Callable.apply ⟨first :: others, body, captured⟩ (argument :: rest) called) := by
  induction others generalizing callee value called first captured argument rest with
  | nil =>
    cases List.eq_nil_of_length_eq_zero matching.symm
    have applied : session.eval (.call callee [argument]) = _ :=
      Callable.eval_call_eq_apply within evaluated calls rfl
    exact applied ▸ .refl _
  | cons next others ih =>
    obtain ⟨following, rest, rfl⟩ := List.exists_cons_of_length_eq_add_one matching.symm
    have applied : session.eval (.call callee [argument]) = _ :=
      Callable.eval_call_eq_apply within evaluated calls rfl
    rcases Callable.apply_curried assignNothing with ⟨error, after, stops, same⟩ | ⟨frame, after, goesOn, alike⟩
    · rw [same]
      have failed := Session.eval_callEach_of_error within (applied.trans stops) (following :: rest)
      exact ⟨congrArg (·.result.map Value.meaning) failed, congrArg Outcome.session failed⟩
    · have further : (session.eval ((Expr.call callee [argument]).callEach (following :: rest))).Alike
          (Callable.apply ⟨next :: others, body, frame⟩ (following :: rest) after) :=
        ih (applied.trans goesOn) rfl (Nat.succ.inj matching)
          (fun argument isOne => assignNothing argument (List.mem_cons_of_mem _ isOne))
      exact further.trans alike

/-- `|p| |q| ... body` called on one argument after the other and `|p q ...| body` called on all of them have the
same result and leave the same session, if no argument after the first assigns. -/
theorem curried_call_eq_direct (parameters : List String) (body : Expr) (arguments : List Expr)
    (session : Session) (nonempty : arguments ≠ []) (matching : parameters.length = arguments.length)
    (assignNothing : ∀ argument ∈ arguments.tail, argument.targets = [])
    (within : session.depth ≤ session.limit) :
    let curried := session.eval ((Expr.curried parameters body).callEach arguments)
    let direct := session.eval (.call (.function parameters body) arguments)
    curried.result.map Value.meaning = direct.result.map Value.meaning ∧ curried.session = direct.session := by
  intro curried direct
  obtain ⟨argument, rest, rfl⟩ := List.exists_cons_of_ne_nil nonempty
  obtain ⟨first, others, rfl⟩ := List.exists_cons_of_length_eq_add_one matching
  have alike : curried.Alike (Callable.apply ⟨first :: others, body, .empty⟩ (argument :: rest) session) :=
    Session.eval_callEach within (Session.eval_function [first] _) rfl (Nat.succ.inj matching) assignNothing
  have applied : direct = Callable.apply ⟨first :: others, body, .empty⟩ (argument :: rest) session :=
    Callable.eval_call_eq_apply within (Session.eval_function _ _) rfl matching
  rw [applied]
  exact ⟨alike.result, alike.session⟩

def threeSum : Expr :=
  .function ["c"] (.binary .add (.binary .add (.name "a") (.name "b")) (.name "c"))

def oneTwoOne : List Expr :=
  [.assign "x" (.integer 1), .integer 2, .name "x"]

-- `(|a| |b| |a| |c| a + b + c)(x = 1)(2)(x)` comes to a closure that holds the second `a`.
theorem curried_call_eq_direct_repeated :
    oneTwoOne ≠ [] ∧ ["a", "b", "a"].length = oneTwoOne.length ∧
      (∀ argument ∈ oneTwoOne.tail, argument.targets = []) ∧
      ∃ closure, (Session.eval {} ((Expr.curried ["a", "b", "a"] threeSum).callEach oneTwoOne)).result.map
          Value.meaning = .ok closure ∧
        (Session.eval {} (.call (.function ["a", "b", "a"] threeSum) oneTwoOne)).result.map Value.meaning =
          .ok closure ∧
        (Session.eval {} ((Expr.curried ["a", "b", "a"] threeSum).callEach oneTwoOne)).session.bindings =
          [("x", .integer 1)] := by
  have direct := curried_call_eq_direct ["a", "b", "a"] threeSum oneTwoOne {} (by decide) rfl (by decide)
    (by decide)
  refine ⟨by decide, rfl, by decide, _, direct.1.trans rfl, rfl, ?_⟩
  rw [direct.2]
  rfl

end LineLang
