import LineLang.Proofs.Effect

/-! The limit does nothing but cut off.

Two sessions with the same frame are run side by side, each with its own count and its own limit, where the
second may open at least as many more calls as the first. Every call that the first opens the second opens too,
so they part only where the first refuses one.
-/

set_option autoImplicit false

namespace LineLang

/-- The sessions hold the same frame, each with its own number of open calls and its own limit. -/
structure Session.Paired (depth limit otherDepth otherLimit : Nat) (session other : Session) : Prop where
  counts : session.Counts depth limit
  otherCounts : other.Counts otherDepth otherLimit
  frame : other.frame = session.frame

/-- What the second of two runs gives beside the first, when `spare` more calls can be open in it and
`otherLimit` is its limit. -/
inductive Outcome.Agrees {α : Type} (otherLimit spare : Nat) :
    Outcome EvalError α → Outcome EvalError α → Prop where
  | same {result session other} : (∀ limit, result ≠ .error (.tooManyCalls limit)) →
      other.frame = session.frame → Agrees otherLimit spare ⟨result, session⟩ ⟨result, other⟩
  -- Each reports its own limit.
  | refused {limit session other} : other.frame = session.frame →
      Agrees otherLimit spare ⟨.error (.tooManyCalls limit), session⟩
        ⟨.error (.tooManyCalls otherLimit), other⟩
  | cutOff {limit session outcome} : 0 < spare →
      Agrees otherLimit spare ⟨.error (.tooManyCalls limit), session⟩ outcome

namespace Outcome.Agrees

variable {α β : Type} {depth limit otherDepth otherLimit spare : Nat} {outcome other : Outcome EvalError α}

theorem ok {value : α} {session after : Session} (frame : after.frame = session.frame) :
    Agrees otherLimit spare ⟨.ok value, session⟩ ⟨.ok value, after⟩ :=
  .same (by simp) frame

theorem error {fault : EvalError} {session after : Session} (ordinary : ∀ limit, fault ≠ .tooManyCalls limit)
    (frame : after.frame = session.frame) :
    Agrees otherLimit spare (⟨.error fault, session⟩ : Outcome EvalError α) ⟨.error fault, after⟩ :=
  .same (by simpa using ordinary) frame

theorem bind {next nextOther : α → Session → Outcome EvalError β} (agrees : Agrees otherLimit spare outcome other)
    (balanced : outcome.Balanced depth limit) (otherBalanced : other.Balanced otherDepth otherLimit)
    (goesOn : ∀ value session after, Session.Paired depth limit otherDepth otherLimit session after →
      Agrees otherLimit spare (next value session) (nextOther value after)) :
    Agrees otherLimit spare (outcome.bind next) (other.bind nextOther) := by
  cases agrees with
  | @same result session after ordinary frame =>
    cases result with
    | ok value => exact goesOn value session after ⟨balanced.counts rfl, otherBalanced.counts rfl, frame⟩
    | error fault => exact .error (by simpa using ordinary) frame
  | refused frame => exact .refused frame
  | cutOff more => exact .cutOff more

theorem leave (agrees : Agrees otherLimit spare outcome other) :
    Agrees otherLimit spare outcome.leave other.leave := by
  cases agrees with
  | same ordinary frame => exact .same ordinary frame
  | refused frame => exact .refused frame
  | cutOff more => exact .cutOff more

end Outcome.Agrees

theorem Operator.apply_ne_tooManyCalls (operator : Operator) (left right : Int64) (limit : Nat) :
    operator.apply left right ≠ .error (.tooManyCalls limit) := by
  intro fails
  cases Operator.eq_divisionByZero fails

theorem Sign.apply_ne_tooManyCalls (sign : Sign) (operand : Value) (limit : Nat) :
    sign.apply operand ≠ .error (.tooManyCalls limit) := by
  cases sign with
  | plus => simp [apply]
  | minus => cases operand <;> simp [apply]

theorem map_ne_tooManyCalls {α β : Type} {result : Except EvalError α} {limit : Nat} (change : α → β)
    (ordinary : result ≠ .error (.tooManyCalls limit)) : result.map change ≠ .error (.tooManyCalls limit) := by
  cases result with
  | ok value => simp [Except.map]
  | error fault => simpa [Except.map] using ordinary

namespace Session

open Outcome (Agrees)

variable {depth limit otherDepth otherLimit spare : Nat} {session other : Session}

theorem Paired.eval_bind {β : Type} {expr : Expr} {next nextOther : Value → Session → Outcome EvalError β}
    (paired : Paired depth limit otherDepth otherLimit session other) (within : depth ≤ limit)
    (otherWithin : otherDepth ≤ otherLimit)
    (agrees : Agrees otherLimit spare (session.eval expr) (other.eval expr))
    (goesOn : ∀ value session after, Paired depth limit otherDepth otherLimit session after →
      Agrees otherLimit spare (next value session) (nextOther value after)) :
    Agrees otherLimit spare ((session.eval expr).bind next) ((other.eval expr).bind nextOther) := by
  obtain ⟨⟨rfl, rfl⟩, ⟨rfl, rfl⟩, _⟩ := paired
  exact agrees.bind (eval_balanced within expr) (eval_balanced otherWithin expr) goesOn

theorem Paired.evalAll_bind {β : Type} {arguments : List Expr}
    {next nextOther : List Value → Session → Outcome EvalError β}
    (paired : Paired depth limit otherDepth otherLimit session other) (within : depth ≤ limit)
    (otherWithin : otherDepth ≤ otherLimit)
    (agrees : Agrees otherLimit spare (session.evalAll arguments) (other.evalAll arguments))
    (goesOn : ∀ values session after, Paired depth limit otherDepth otherLimit session after →
      Agrees otherLimit spare (next values session) (nextOther values after)) :
    Agrees otherLimit spare ((session.evalAll arguments).bind next) ((other.evalAll arguments).bind nextOther) := by
  obtain ⟨⟨rfl, rfl⟩, ⟨rfl, rfl⟩, _⟩ := paired
  exact agrees.bind (evalAll_balanced within arguments) (evalAll_balanced otherWithin arguments) goesOn

theorem Paired.evalAll (within : depth ≤ limit) (otherWithin : otherDepth ≤ otherLimit) (arguments : List Expr)
    (each : ∀ argument session other, Paired depth limit otherDepth otherLimit session other →
      Agrees otherLimit spare (session.eval argument) (other.eval argument))
    (paired : Paired depth limit otherDepth otherLimit session other) :
    Agrees otherLimit spare (session.evalAll arguments) (other.evalAll arguments) := by
  induction arguments generalizing session other with
  | nil => exact .ok paired.frame
  | cons first rest ih =>
    have inside := paired.counts.within within
    have otherInside := paired.otherCounts.within otherWithin
    rw [evalAll_cons inside, evalAll_cons otherInside]
    apply paired.eval_bind within otherWithin (each first session other paired)
    intro value session other paired
    apply paired.evalAll_bind within otherWithin (ih paired)
    intro values session other paired
    exact .ok paired.frame

theorem Paired.enter_bind {β : Type} {next nextOther : Session → Outcome EvalError β}
    (paired : Paired depth limit otherDepth otherLimit session other)
    (rooms : otherLimit + depth = limit + otherDepth + spare)
    (goesOn : depth < limit → ∀ session other, Paired (depth + 1) limit (otherDepth + 1) otherLimit session other →
      Agrees otherLimit spare (next session) (nextOther other)) :
    Agrees otherLimit spare (session.enter.bind fun _ entered => next entered)
      (other.enter.bind fun _ entered => nextOther entered) := by
  by_cases room : depth < limit
  · rw [enter_of_room paired.counts room, enter_of_room paired.otherCounts (by omega)]
    exact goesOn room _ _ ⟨⟨rfl, paired.counts.limit⟩, ⟨rfl, paired.otherCounts.limit⟩, paired.frame⟩
  · rw [enter_of_full paired.counts (Nat.le_of_not_lt room)]
    by_cases noneSpare : spare = 0
    · -- Without spare calls the second session is full as well.
      rw [enter_of_full paired.otherCounts (by omega)]
      exact .refused paired.frame
    · exact .cutOff (Nat.pos_of_ne_zero noneSpare)

theorem Paired.run (callable : Callable) (arguments : List Value)
    (body : ∀ session other, Paired depth limit otherDepth otherLimit session other →
      Agrees otherLimit spare (session.eval callable.body) (other.eval callable.body))
    (paired : Paired depth limit otherDepth otherLimit session other) :
    Agrees otherLimit spare (callable.run evaluator arguments session)
      (callable.run evaluator arguments other) := by
  have ran := body { session with frame := callable.frame arguments session.frame }
    { other with frame := callable.frame arguments other.frame }
    ⟨⟨paired.counts.depth, paired.counts.limit⟩, ⟨paired.otherCounts.depth, paired.otherCounts.limit⟩,
      congrArg (callable.frame arguments) paired.frame⟩
  simp only [Callable.run, evaluator]
  generalize Session.eval { session with frame := callable.frame arguments session.frame } callable.body =
    outcome at ran ⊢
  generalize Session.eval { other with frame := callable.frame arguments other.frame } callable.body =
    otherOutcome at ran ⊢
  cases ran with
  | same ordinary frame =>
    simp only [frame]
    exact .same (fun limit => map_ne_tooManyCalls _ (ordinary limit)) paired.frame
  | refused frame => exact .refused paired.frame
  | cutOff more => exact .cutOff more

-- Whatever calls are open in the two sessions, the second has `spare` more to open, and still has them after each
-- opens one.
theorem eval_agrees (within : depth ≤ limit) (rooms : otherLimit + depth = limit + otherDepth + spare)
    (expr : Expr) (paired : Paired depth limit otherDepth otherLimit session other) :
    Agrees otherLimit spare (session.eval expr) (other.eval expr) := by
  -- The outer induction is on the calls that the first session may still open, for the bodies.
  induction depth, within using induct_depth generalizing otherDepth expr session other with
  | level depth within deeper =>
  have otherWithin : otherDepth ≤ otherLimit := by omega
  induction expr generalizing session other with
  | integer value =>
    rw [eval_integer, eval_integer]
    exact .ok paired.frame
  | name word =>
    rw [eval_name, eval_name, get?, get?, paired.frame]
    cases session.frame.get? word with
    | some value => exact .ok paired.frame
    | none => exact .error (by simp) paired.frame
  | function parameters body =>
    rw [eval_function, eval_function]
    exact .ok paired.frame
  | signed sign operand ih =>
    rw [eval_signed, eval_signed]
    apply paired.eval_bind within otherWithin (ih paired)
    intro value session other paired
    exact .same (sign.apply_ne_tooManyCalls value) paired.frame
  | binary operator left right ihLeft ihRight =>
    rw [eval_binary (paired.counts.within within), eval_binary (paired.otherCounts.within otherWithin)]
    apply paired.eval_bind within otherWithin (ihLeft paired)
    intro value session other paired
    cases value with
    | integer first =>
      apply paired.eval_bind within otherWithin (ihRight paired)
      intro value session other paired
      cases value with
      | integer second =>
        have ordinary := operator.apply_ne_tooManyCalls first second
        exact .same (fun limit => map_ne_tooManyCalls _ (ordinary limit)) paired.frame
      | _ => exact .error (by simp) paired.frame
    | _ => exact .error (by simp) paired.frame
  | choice condition consequence alternative ihCondition ihConsequence ihAlternative =>
    rw [eval_choice (paired.counts.within within), eval_choice (paired.otherCounts.within otherWithin)]
    apply paired.eval_bind within otherWithin (ihCondition paired)
    intro value session other paired
    cases value with
    | integer value =>
      simp only
      split
      · exact ihAlternative paired
      · exact ihConsequence paired
    | _ => exact .error (by simp) paired.frame
  | assign target value ih =>
    rw [eval_assign, eval_assign]
    apply paired.eval_bind within otherWithin (ih paired)
    intro value session other paired
    exact .ok (congrArg (Frame.insert · target value) paired.frame)
  | call callee arguments ih _ =>
    rw [eval_call (paired.counts.within within), eval_call (paired.otherCounts.within otherWithin)]
    apply paired.eval_bind within otherWithin (ih paired)
    intro value session other paired
    cases value.callable? with
    | none => exact .error (by simp) paired.frame
    | some callable =>
      by_cases matching : callable.parameters.length = arguments.length
      · simp only [if_pos matching]
        apply paired.enter_bind rooms
        intro room session other entered
        have otherRoom : otherDepth + 1 ≤ otherLimit := by omega
        have inside : ∀ expr session other, Paired (depth + 1) limit (otherDepth + 1) otherLimit session other →
            Agrees otherLimit spare (session.eval expr) (other.eval expr) :=
          fun expr session other paired => deeper room (by omega) expr paired
        apply Agrees.leave
        apply entered.evalAll_bind room otherRoom (entered.evalAll room otherRoom arguments inside)
        intro values session other paired
        exact paired.run callable values (inside callable.body)
      · simp only [if_neg matching]
        exact .error (by simp) paired.frame

/-- What each of the items leaves, where every one is run in the session that the one before it left. -/
def outcomes {ε α : Type} (run : Session → α → Outcome ε Value) (session : Session) :
    List α → List (Outcome ε Value)
  | [] => []
  | item :: rest => run session item :: (run session item).session.outcomes run rest

def history : Session → List String → List (Outcome LineError Value) :=
  outcomes Session.evalLine

theorem history_cons (session : Session) (text : String) (rest : List String) :
    session.history (text :: rest) = session.evalLine text :: (session.evalLine text).session.history rest := rfl

theorem Paired.evalLine (paired : Paired 0 limit 0 otherLimit session other) (larger : limit ≤ otherLimit)
    (text : String)
    (notCut : ∀ bound, (session.evalLine text).result ≠ .error (.eval (.tooManyCalls bound))) :
    (other.evalLine text).result = (session.evalLine text).result ∧
      Paired 0 limit 0 otherLimit (session.evalLine text).session (other.evalLine text).session := by
  have idle := evalLine_depth paired.counts.depth text
  have otherIdle := evalLine_depth paired.otherCounts.depth text
  unfold Session.evalLine at notCut idle otherIdle ⊢
  generalize parseLine text = parsed at notCut idle otherIdle ⊢
  cases parsed with
  | error fault => exact ⟨rfl, paired⟩
  | ok expr =>
    have kept := (session.eval_reaches (List.Subset.refl expr.targets)).limit_eq.trans paired.counts.limit
    have otherKept := (other.eval_reaches (List.Subset.refl expr.targets)).limit_eq.trans paired.otherCounts.limit
    have agrees : Agrees otherLimit (otherLimit - limit) (session.eval expr) (other.eval expr) :=
      eval_agrees (Nat.zero_le limit) (by omega) expr paired
    simp only [Outcome.mapError] at notCut idle otherIdle ⊢
    generalize session.eval expr = outcome at agrees notCut idle kept ⊢
    generalize other.eval expr = otherOutcome at agrees otherIdle otherKept ⊢
    cases agrees with
    | same _ frame => exact ⟨rfl, ⟨idle, kept⟩, ⟨otherIdle, otherKept⟩, frame⟩
    | refused _ | cutOff _ => exact absurd rfl (notCut _)

end Session

/-- The result of a line, and what each name stands for after it. -/
def Outcome.seen (outcome : Outcome LineError Value) : Except LineError Value × List (String × Value) :=
  (outcome.result, outcome.session.bindings)

theorem Session.Paired.history {limit larger : Nat} {session other : Session}
    (paired : Paired 0 limit 0 larger session other) (isLarger : limit ≤ larger) (texts : List String)
    (notCut : ∀ outcome ∈ session.history texts, ∀ bound,
      outcome.result ≠ .error (.eval (.tooManyCalls bound))) :
    (other.history texts).map Outcome.seen = (session.history texts).map Outcome.seen := by
  induction texts generalizing session other with
  | nil => rfl
  | cons text rest ih =>
    simp only [Session.history_cons, List.forall_mem_cons] at notCut
    obtain ⟨result, after⟩ := paired.evalLine isLarger text notCut.1
    have seen : (other.evalLine text).seen = (session.evalLine text).seen := by
      rw [Outcome.seen, Outcome.seen, result, bindings, bindings, after.frame]
    simp only [Session.history_cons, List.map_cons, seen, ih after notCut.2]

/-- An evaluation that is not cut off has the same result and leaves the same frame wherever at least as many
calls may still be opened. Where exactly as many may be opened, one that is cut off is cut off there too, with the
same frame. So lines of which none is cut off show the same under every larger limit. -/
theorem limit_only_cuts_off :
    (∀ (frame : Frame Value) (expr : Expr) (depth limit otherDepth otherLimit : Nat),
      depth ≤ limit → otherDepth ≤ otherLimit → limit - depth ≤ otherLimit - otherDepth →
      let outcome := Session.eval { frame, depth, limit } expr
      let other := Session.eval { frame, depth := otherDepth, limit := otherLimit } expr
      ((∀ bound, outcome.result ≠ .error (.tooManyCalls bound)) →
        other.result = outcome.result ∧ other.session.frame = outcome.session.frame) ∧
      (limit - depth = otherLimit - otherDepth → ∀ bound, outcome.result = .error (.tooManyCalls bound) →
        other.result = .error (.tooManyCalls otherLimit) ∧ other.session.frame = outcome.session.frame)) ∧
    ∀ (frame : Frame Value) (texts : List String) (limit larger : Nat), limit ≤ larger →
      (∀ outcome ∈ Session.history { frame, limit } texts, ∀ bound,
        outcome.result ≠ .error (.eval (.tooManyCalls bound))) →
      (Session.history { frame, limit := larger } texts).map Outcome.seen =
        (Session.history { frame, limit } texts).map Outcome.seen := by
  refine ⟨?_, ?_⟩
  · intro frame expr depth limit otherDepth otherLimit within otherWithin atLeast outcome other
    obtain ⟨spare, more⟩ := Nat.exists_eq_add_of_le atLeast
    have rooms : otherLimit + depth = limit + otherDepth + spare := by omega
    have agrees : outcome.Agrees otherLimit spare other :=
      Session.eval_agrees within rooms expr ⟨⟨rfl, rfl⟩, ⟨rfl, rfl⟩, rfl⟩
    generalize outcome = outcome at agrees ⊢
    generalize other = other at agrees ⊢
    cases agrees with
    | same ordinary frame =>
      exact ⟨fun _ => ⟨rfl, frame⟩, fun _ bound isCut => absurd isCut (ordinary bound)⟩
    | refused frame => exact ⟨fun notCut => absurd rfl (notCut _), fun _ _ _ => ⟨rfl, frame⟩⟩
    | cutOff more => exact ⟨fun notCut => absurd rfl (notCut _), fun asMany => by omega⟩
  · intro frame texts limit larger isLarger notCut
    have paired : Session.Paired 0 limit 0 larger { frame, limit } { frame, limit := larger } :=
      ⟨⟨rfl, rfl⟩, ⟨rfl, rfl⟩, rfl⟩
    exact paired.history isLarger texts notCut

/-- `f = |x| x + 1`. -/
def incrementing : Frame Value :=
  ⟨[("f", .function ["x"] (.binary .add (.name "x") (.integer 1)))]⟩

/-- `f(f(1))`, where the inner call is opened while the outer one is open. -/
def nestedCall : Expr :=
  .call (.name "f") [.call (.name "f") [.integer 1]]

theorem limit_only_cuts_off_nestedCall :
    (Session.eval { frame := incrementing, depth := 3, limit := 7 } nestedCall).result = .ok (.integer 3) ∧
    (Session.eval { frame := incrementing, depth := 6, limit := 7 } nestedCall).result = .error (.tooManyCalls 7) ∧
    (Session.history { frame := incrementing, limit := 500 } ["f(f(1))\n"]).map Outcome.seen =
      [(.ok (.integer 3), incrementing.entries)] := by
  obtain ⟨evaluations, lines⟩ := limit_only_cuts_off
  have evaluates : (Session.eval { frame := incrementing, limit := 2 } nestedCall).result = .ok (.integer 3) := rfl
  have scanned : Token.scan "f(f(1))\n" =
      [⟨.name, "f", 0, 1⟩, ⟨.leftParen, "(", 1, 2⟩, ⟨.name, "f", 2, 3⟩, ⟨.leftParen, "(", 3, 4⟩,
        ⟨.integer, "1", 4, 5⟩, ⟨.rightParen, ")", 5, 6⟩, ⟨.rightParen, ")", 6, 7⟩, ⟨.newLine, "", 7, 8⟩,
        ⟨.endOfInput, "", 8, 8⟩] := by decide +kernel
  have parses : parseLine "f(f(1))\n" = .ok nestedCall := by
    rw [parseLine, Token.tokenize, scanned]
    rfl
  have history : Session.history { frame := incrementing, limit := 2 } ["f(f(1))\n"] =
      [⟨.ok (.integer 3), { frame := incrementing, limit := 2 }⟩] := by
    simp only [Session.history_cons, Session.evalLine, parses]
    rfl
  refine ⟨?_, ?_, ?_⟩
  · have kept := (evaluations incrementing nestedCall 0 2 3 7 (by decide) (by decide) (by decide)).1
      (by simp [evaluates])
    exact kept.1.trans evaluates
  · exact ((evaluations incrementing nestedCall 0 1 6 7 (by decide) (by decide) (by decide)).2 rfl 1 rfl).1
  · rw [lines incrementing ["f(f(1))\n"] 2 500 (by decide) (by simp [history]), history]
    rfl

end LineLang
