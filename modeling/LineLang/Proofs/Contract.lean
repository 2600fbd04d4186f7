import Mathlib.Data.List.Forall2
import LineLang.Eval

/-! What every evaluation keeps.

A contract says where an evaluation may start, where it may come to, which results are good there, and how it may
fail. Its laws are about single steps: a name is read or set, a call is opened or closed, a failure is raised. If the
bodies that are called meet the contract, the whole evaluation meets it. Each form of expression is looked at once,
whatever the contract is.

Two evaluators of bodies are followed side by side. So the same induction shows that an evaluation does not tell them
apart, if they run alike the bodies that it can come to.
-/

set_option autoImplicit false

namespace LineLang

namespace Expr

/-- What is evaluated with the expression. The body of a function literal is not. -/
def parts : Expr → List Expr
  | .integer _ | .name _ | .function _ _ => []
  | .signed _ operand => [operand]
  | .binary _ left right => [left, right]
  | .choice condition consequence alternative => [condition, consequence, alternative]
  | .assign _ value => [value]
  | .call callee arguments => callee :: arguments

@[elab_as_elim]
theorem induct_parts {motive : Expr → Prop}
    (whole : ∀ expr, (∀ part ∈ expr.parts, motive part) → motive expr) (expr : Expr) : motive expr := by
  induction expr with
  | integer | name | function => exact whole _ (List.forall_mem_nil _)
  | signed _ _ ih | assign _ _ ih => exact whole _ (List.forall_mem_singleton.mpr ih)
  | binary _ _ _ ihLeft ihRight => exact whole _ (by simp [parts, ihLeft, ihRight])
  | choice _ _ _ ihCondition ihConsequence ihAlternative =>
    exact whole _ (by simp [parts, ihCondition, ihConsequence, ihAlternative])
  | call _ _ ihCallee ihArguments => exact whole _ (List.forall_mem_cons.mpr ⟨ihCallee, ihArguments⟩)

theorem length_evalAllWith (runBody : Evaluator) (arguments : List Expr) :
    (evalAllWith runBody arguments).length = arguments.length := by
  induction arguments with
  | nil => rfl
  | cons argument rest ih => exact congrArg (· + 1) ih

end Expr

theorem Operator.eq_divisionByZero {operator : Operator} {left right : Int64} {error : EvalError}
    (fails : operator.apply left right = .error error) : error = .divisionByZero := by
  cases operator with
  | divide | modulo =>
    rw [apply] at fails
    split at fails <;> cases fails
    rfl
  | _ => cases fails

/-- What an evaluation is held to. `good` and `admits` look at a frame only, so that counting calls does not matter to
them. -/
structure Contract where
  sound : Session → Prop
  after : Session → Session → Prop
  good : Frame Value → Value → Prop
  admits : Frame Value → Expr → Prop
  fails : Session → EvalError → Session → Prop
  after_self {session} : sound session → after session session
  after_trans {start middle final} : after start middle → after middle final → after start final
  sound_after {start final} : sound start → after start final → sound final
  good_after {start final value} : after start final → good start.frame value → good final.frame value
  admits_after {start final expr} : after start final → admits start.frame expr → admits final.frame expr
  admits_part {frame expr part} : part ∈ expr.parts → admits frame expr → admits frame part
  fails_after {start middle final error} : after start middle → fails middle error final → fails start error final
  good_integer {frame value} : good frame (.integer value)
  good_function {frame parameters body} : admits frame (.function parameters body) →
    good frame (.function parameters body)
  good_held {session word value} : sound session → session.get? word = some value → good session.frame value
  after_set {session target expr value} : sound session → admits session.frame (.assign target expr) →
    good session.frame value → after session (session.set target value)
  fails_here {session error} : sound session → (∀ word, error ≠ .undefined word) →
    (∀ limit, error ≠ .tooManyCalls limit) → fails session error session
  fails_undefined {session word} : sound session → admits session.frame (.name word) → session.get? word = none →
    fails session (.undefined word) session
  fails_refused {session} : sound session → session.limit ≤ session.depth →
    fails session (.tooManyCalls session.limit) { session with depth := 0 }
  sound_opened {session} : sound session → session.depth < session.limit →
    sound { session with depth := session.depth + 1 }
  after_closed {session final} : sound session → after { session with depth := session.depth + 1 } final →
    after session { final with depth := final.depth - 1 }
  fails_closed {session final error} : sound session →
    fails { session with depth := session.depth + 1 } error final →
    fails session error { final with depth := final.depth - 1 }

namespace Contract

variable {contract : Contract} {α β : Type} {start session : Session} {holds : Frame Value → α → Prop}
  {outcome other : Outcome EvalError α}

/-- Both outcomes are the one that is allowed. -/
inductive Meets (contract : Contract) (start : Session) (holds : Frame Value → α → Prop) :
    Outcome EvalError α → Outcome EvalError α → Prop where
  | ok {value session} : contract.after start session → holds session.frame value →
      Meets contract start holds ⟨.ok value, session⟩ ⟨.ok value, session⟩
  | error {error session} : contract.fails start error session →
      Meets contract start holds ⟨.error error, session⟩ ⟨.error error, session⟩

namespace Meets

theorem of_result
    (ok : ∀ value, outcome.result = .ok value →
      contract.after start outcome.session ∧ holds outcome.session.frame value)
    (error : ∀ error, outcome.result = .error error → contract.fails start error outcome.session) :
    contract.Meets start holds outcome outcome := by
  obtain ⟨result, session⟩ := outcome
  cases result with
  | ok value => exact .ok (ok value rfl).1 (ok value rfl).2
  | error fault => exact .error (error fault rfl)

theorem eq (meets : contract.Meets start holds outcome other) : outcome = other := by
  cases meets <;> rfl

theorem since (after : contract.after start session) (meets : contract.Meets session holds outcome other) :
    contract.Meets start holds outcome other := by
  cases meets with
  | ok later fits => exact .ok (contract.after_trans after later) fits
  | error fails => exact .error (contract.fails_after after fails)

theorem bind {next nextOther : α → Session → Outcome EvalError β} {holdsNext : Frame Value → β → Prop}
    (first : contract.Meets start holds outcome other)
    (goesOn : ∀ value session, contract.after start session → holds session.frame value →
      contract.Meets session holdsNext (next value session) (nextOther value session)) :
    contract.Meets start holdsNext (outcome.bind next) (other.bind nextOther) := by
  cases first with
  | ok after fits => exact (goesOn _ _ after fits).since after
  | error fails => exact .error fails

theorem enter_bind {next nextOther : Session → Outcome EvalError α} (sound : contract.sound session)
    (goesOn : session.depth < session.limit →
      contract.Meets session holds (next { session with depth := session.depth + 1 })
        (nextOther { session with depth := session.depth + 1 })) :
    contract.Meets session holds (session.enter.bind fun _ entered => next entered)
      (session.enter.bind fun _ entered => nextOther entered) := by
  rw [Session.enter]
  split
  next full => exact .error (contract.fails_refused sound (by omega))
  next room => exact goesOn (by omega)

theorem leave (sound : contract.sound session)
    (meets : contract.Meets { session with depth := session.depth + 1 } holds outcome other) :
    contract.Meets session holds outcome.leave other.leave := by
  cases meets with
  | ok after fits => exact .ok (contract.after_closed sound after) fits
  | error fails => exact .error (contract.fails_closed sound fails)

end Meets

/-- A body is about to run: a call was opened, and its callee and arguments were evaluated since. -/
structure Ready (contract : Contract) (callable : Callable) (arguments : List Value) (caller : Session) : Prop where
  inside : ∃ outer, contract.sound outer ∧ outer.depth < outer.limit ∧
    contract.after { outer with depth := outer.depth + 1 } caller
  callee : ∃ value : Value, value.callable? = some callable ∧ contract.good caller.frame value
  matching : callable.parameters.length = arguments.length
  passed : ∀ argument ∈ arguments, contract.good caller.frame argument

theorem Ready.sound {callable : Callable} {arguments : List Value} {caller : Session}
    (ready : contract.Ready callable arguments caller) : contract.sound caller := by
  obtain ⟨outer, sound, room, after⟩ := ready.inside
  exact contract.sound_after (contract.sound_opened sound room) after

/-- What an evaluation needs to know of the bodies it calls. -/
def Runs (contract : Contract) (runBody other : Evaluator) : Prop :=
  ∀ callable arguments caller, contract.Ready callable arguments caller →
    contract.Meets caller contract.good (callable.run runBody arguments caller) (callable.run other arguments caller)

def Lasts (contract : Contract) (admitted : Frame Value → Prop) : Prop :=
  ∀ ⦃start final : Session⦄, contract.after start final → admitted start.frame → admitted final.frame

/-- Wherever the frame is admitted, both actions meet the contract. -/
def Accepts (contract : Contract) (admitted : Frame Value → Prop) (action other : Action) : Prop :=
  ∀ session, contract.sound session → admitted session.frame →
    contract.Meets session contract.good (action session) (other session)

namespace Accepts

variable {admitted : Frame Value → Prop} {action actionOther left leftOther right rightOther : Action}

theorem give {value : Value} (fits : ∀ frame, admitted frame → contract.good frame value) :
    contract.Accepts admitted (.give value) (.give value) :=
  fun session sound admits => .ok (contract.after_self sound) (fits session.frame admits)

theorem name (word : String) : contract.Accepts (contract.admits · (.name word)) (.name word) (.name word) := by
  intro session sound admits
  rw [Action.name]
  split
  next value found => exact .ok (contract.after_self sound) (contract.good_held sound found)
  next missing => exact .error (contract.fails_undefined sound admits missing)

section Parts

variable (lasts : contract.Lasts admitted)

include lasts

theorem bind {next nextOther : Value → Session → Outcome EvalError β} {holdsNext : Frame Value → β → Prop}
    (first : contract.Accepts admitted action actionOther) (sound : contract.sound session)
    (admits : admitted session.frame)
    (goesOn : ∀ value session, contract.sound session → admitted session.frame → contract.good session.frame value →
      contract.Meets session holdsNext (next value session) (nextOther value session)) :
    contract.Meets session holdsNext ((action session).bind next) ((actionOther session).bind nextOther) := by
  apply (first session sound admits).bind
  intro value after reached fits
  exact goesOn value after (contract.sound_after sound reached) (lasts reached admits) fits

theorem signed (sign : Sign) (operand : contract.Accepts admitted action actionOther) :
    contract.Accepts admitted (.signed sign action) (.signed sign actionOther) := by
  intro session sound admits
  rw [Action.signed, Action.signed]
  apply operand.bind lasts sound admits
  intro value session sound _ fits
  cases sign with
  | plus => exact .ok (contract.after_self sound) fits
  | minus =>
    cases value with
    | integer value => exact .ok (contract.after_self sound) contract.good_integer
    | _ => exact .error (contract.fails_here sound (by simp) (by simp))

theorem binary (operator : Operator) (first : contract.Accepts admitted left leftOther)
    (second : contract.Accepts admitted right rightOther) :
    contract.Accepts admitted (.binary operator left right) (.binary operator leftOther rightOther) := by
  intro session sound admits
  rw [Action.binary, Action.binary]
  apply first.bind lasts sound admits
  intro value session sound admits _
  cases value with
  | integer value =>
    apply second.bind lasts sound admits
    intro other session sound _ _
    cases other with
    | integer other =>
      cases applied : operator.apply value other with
      | ok result =>
        simp only [applied]
        exact .ok (contract.after_self sound) contract.good_integer
      | error error =>
        simp only [applied, Operator.eq_divisionByZero applied]
        exact .error (contract.fails_here sound (by simp) (by simp))
    | _ => exact .error (contract.fails_here sound (by simp) (by simp))
  | _ => exact .error (contract.fails_here sound (by simp) (by simp))

theorem choice {condition conditionOther : Action} (tested : contract.Accepts admitted condition conditionOther)
    (yes : contract.Accepts admitted left leftOther) (no : contract.Accepts admitted right rightOther) :
    contract.Accepts admitted (.choice condition left right) (.choice conditionOther leftOther rightOther) := by
  intro session sound admits
  rw [Action.choice, Action.choice]
  apply tested.bind lasts sound admits
  intro value session sound admits _
  cases value with
  | integer value =>
    simp only
    split
    · exact no session sound admits
    · exact yes session sound admits
  | _ => exact .error (contract.fails_here sound (by simp) (by simp))

theorem assign {target : String} {expr : Expr}
    (targets : ∀ frame, admitted frame → contract.admits frame (.assign target expr))
    (value : contract.Accepts admitted action actionOther) :
    contract.Accepts admitted (.assign target action) (.assign target actionOther) := by
  intro session sound admits
  rw [Action.assign, Action.assign]
  apply value.bind lasts sound admits
  intro value session sound admits fits
  have set := contract.after_set sound (targets _ admits) fits
  exact .ok set (contract.good_after set fits)

theorem all {actions others : List Action} (each : List.Forall₂ (contract.Accepts admitted) actions others)
    {session : Session} (sound : contract.sound session) (admits : admitted session.frame) :
    contract.Meets session
      (fun frame values => values.length = actions.length ∧ ∀ value ∈ values, contract.good frame value)
      (Action.all actions session) (Action.all others session) := by
  induction each generalizing session with
  | nil => exact .ok (contract.after_self sound) ⟨rfl, List.forall_mem_nil _⟩
  | cons first _ ih =>
    apply first.bind lasts sound admits
    intro value session sound admits fits
    apply (ih sound admits).bind
    rintro values final reached ⟨counted, fit⟩
    refine .ok (contract.after_self (contract.sound_after sound reached)) ⟨congrArg (· + 1) counted, ?_⟩
    exact List.forall_mem_cons.mpr ⟨contract.good_after reached fits, fit⟩

theorem call {runBody other : Evaluator} (runs : contract.Runs runBody other) (written : Expr)
    (callee : contract.Accepts admitted action actionOther) {arguments others : List Action}
    (each : List.Forall₂ (contract.Accepts admitted) arguments others) :
    contract.Accepts admitted (.call runBody written action arguments) (.call other written actionOther others) := by
  intro session sound admits
  rw [Action.call, Action.call]
  apply callee.bind lasts sound admits
  intro value session sound admits fits
  cases calls : value.callable? with
  | none => exact .error (contract.fails_here sound (by simp) (by simp))
  | some callable =>
    simp only [← each.length_eq]
    split
    next matching =>
      apply Meets.enter_bind sound
      intro room
      apply Meets.leave sound
      apply (all lasts each (contract.sound_opened sound room) admits).bind
      rintro values caller reached ⟨counted, fit⟩
      exact runs callable values caller
        { inside := ⟨session, sound, room, reached⟩
          -- The callee was evaluated before its arguments.
          callee := ⟨value, calls, contract.good_after reached fits⟩
          matching := matching.trans counted.symm
          passed := fit }
    next => exact .error (contract.fails_here sound (by simp) (by simp))

end Parts

end Accepts

section Bodies

variable {runBody bodiesOther : Evaluator}

theorem forall₂_evalAllWith {admitted : Frame Value → Prop} {arguments : List Expr}
    (each : ∀ argument ∈ arguments,
      contract.Accepts admitted (argument.evalWith runBody) (argument.evalWith bodiesOther)) :
    List.Forall₂ (contract.Accepts admitted) (Expr.evalAllWith runBody arguments)
      (Expr.evalAllWith bodiesOther arguments) := by
  induction arguments with
  | nil => exact .nil
  | cons argument rest ih =>
    obtain ⟨first, others⟩ := List.forall_mem_cons.mp each
    exact .cons first (ih others)

/-- An evaluation meets the contract if the bodies it calls do. -/
theorem accepts_evalWith (runs : contract.Runs runBody bodiesOther) (expr : Expr) :
    contract.Accepts (contract.admits · expr) (expr.evalWith runBody) (expr.evalWith bodiesOther) := by
  induction expr using Expr.induct_parts with
  | whole expr ih =>
  have lasts : contract.Lasts (contract.admits · expr) := fun _ _ => contract.admits_after
  have parts : ∀ part ∈ expr.parts,
      contract.Accepts (contract.admits · expr) (part.evalWith runBody) (part.evalWith bodiesOther) :=
    fun part isPart session sound admits => ih part isPart session sound (contract.admits_part isPart admits)
  cases expr with
  | integer value => exact .give fun _ _ => contract.good_integer
  | name word => exact .name word
  | function parameters body => exact .give fun _ => contract.good_function
  | signed sign operand => exact .signed lasts sign (parts operand List.mem_cons_self)
  | assign target value => exact .assign lasts (fun _ => id) (parts value List.mem_cons_self)
  | binary operator left right =>
    exact .binary lasts operator (parts left (by simp [Expr.parts])) (parts right (by simp [Expr.parts]))
  | choice condition consequence alternative =>
    exact .choice lasts (parts condition (by simp [Expr.parts])) (parts consequence (by simp [Expr.parts]))
      (parts alternative (by simp [Expr.parts]))
  | call callee arguments =>
    obtain ⟨called, passed⟩ := List.forall_mem_cons.mp parts
    exact .call lasts runs callee called (forall₂_evalAllWith passed)

theorem meets_evalAllWith (runs : contract.Runs runBody bodiesOther) {arguments : List Expr} (session : Session)
    (sound : contract.sound session) (admits : ∀ argument ∈ arguments, contract.admits session.frame argument) :
    contract.Meets session
      (fun frame values => values.length = arguments.length ∧ ∀ value ∈ values, contract.good frame value)
      (Action.all (Expr.evalAllWith runBody arguments) session)
      (Action.all (Expr.evalAllWith bodiesOther arguments) session) := by
  have lasts : contract.Lasts fun frame => ∀ argument ∈ arguments, contract.admits frame argument :=
    fun _ _ reached admits argument isOne => contract.admits_after reached (admits argument isOne)
  have each : ∀ argument ∈ arguments, contract.Accepts
      (fun frame => ∀ argument ∈ arguments, contract.admits frame argument)
      (argument.evalWith runBody) (argument.evalWith bodiesOther) :=
    fun argument isOne session sound admits => accepts_evalWith runs argument session sound (admits argument isOne)
  have meets := Accepts.all lasts (forall₂_evalAllWith each) sound admits
  rwa [Expr.length_evalAllWith] at meets

end Bodies

end Contract

theorem Expr.evalWithin_induct {motive : Evaluator → Prop}
    (refused : motive fun _ session => ⟨.error (.tooManyCalls session.limit), session⟩)
    (level : ∀ runBody, motive runBody → motive (evalWith runBody)) (room : Nat) : motive (evalWithin room) := by
  induction room with
  | zero => exact level _ refused
  | succ room ih => exact level _ ih

end LineLang
