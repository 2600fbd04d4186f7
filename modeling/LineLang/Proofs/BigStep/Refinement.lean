import LineLang.Proofs.BigStep
import LineLang.Proofs.Evaluation

/-! Evaluating in a session follows the rules.

A frame is read as the map of its names, and a value as what is left of it when its frames are read
so. Then a session, with its counter and its exchange of frames, has exactly the result and the map
that the rules derive, and its counter ends where it started unless a call was refused.
-/

set_option autoImplicit false

namespace LineLang

open BigStep

mutual

def Value.meaning : Value → Meaning
  | .integer value => .integer value
  | .function parameters body => .function parameters body
  | .closure parameters body ⟨entries⟩ => .closure parameters body (entriesScope entries)

def entriesScope : List (String × Value) → Scope
  | [], _ => none
  | (name, value) :: rest, other => if other = name then some value.meaning else entriesScope rest other

end

def Frame.scope (frame : Frame Value) : Scope :=
  entriesScope frame.entries

namespace Frame

theorem entriesScope_eq_lookup (entries : List (String × Value)) (name : String) :
    entriesScope entries name = (entries.lookup name).map Value.meaning := by
  induction entries with
  | nil => simp [entriesScope]
  | cons entry rest ih =>
    obtain ⟨key, held⟩ := entry
    rw [entriesScope, lookup_cons, ih]
    split <;> rfl

theorem scope_apply (frame : Frame Value) (name : String) :
    frame.scope name = (frame.get? name).map Value.meaning :=
  entriesScope_eq_lookup frame.entries name

theorem scope_insert (frame : Frame Value) (name : String) (value : Value) :
    (frame.insert name value).scope = frame.scope.set name value.meaning := by
  funext other
  rw [scope_apply, get?_insert, Scope.set, scope_apply]
  split <;> rfl

end Frame

theorem Value.meaning_closure (parameters : List String) (body : Expr) (captured : Frame Value) :
    (Value.closure parameters body captured).meaning = .closure parameters body captured.scope := by
  rw [Value.meaning, Frame.scope]

theorem Value.meaning_capture (frame : Frame Value) (value : Value) :
    (value.capture frame).meaning = value.meaning.capture frame.scope := by
  cases value with
  | integer value => simp only [capture, meaning, Meaning.capture]
  | function parameters body => simp only [capture, meaning_closure, meaning, Meaning.capture]
  | closure parameters body captured => simp only [capture, meaning_closure, Meaning.capture]

theorem Value.map_meaning_capture (frame : Frame Value) (result : Except EvalError Value) :
    (result.map (Value.capture frame)).map Value.meaning =
      (result.map Value.meaning).map (Meaning.capture frame.scope) := by
  cases result with
  | error error => rfl
  | ok value => exact congrArg Except.ok (value.meaning_capture frame)

theorem lookup_zip_map (name : String) (parameters : List String) (values : List Value) :
    (parameters.zip (values.map Value.meaning)).reverse.lookup name =
      ((parameters.zip values).reverse.lookup name).map Value.meaning := by
  rw [List.zip_map_right, ← List.map_reverse]
  induction (parameters.zip values).reverse with
  | nil => rfl
  | cons entry rest ih =>
    obtain ⟨key, held⟩ := entry
    simp only [List.map_cons, Prod.map, id, Frame.lookup_cons, ih]
    split <;> rfl

theorem Callable.scope_frame (callable : Callable) (arguments : List Value) (caller : Frame Value) :
    (callable.frame arguments caller).scope =
      .ofCall callable.parameters (arguments.map Value.meaning) callable.captured.scope caller.scope := by
  funext name
  rw [Frame.scope_apply, Callable.frame, Frame.get?_insertAll, Frame.get?_cover, Scope.ofCall,
    lookup_zip_map, Frame.scope_apply, Frame.scope_apply]
  cases (callable.parameters.zip arguments).reverse.lookup name with
  | some value => rfl
  | none => cases callable.captured.get? name <;> rfl

theorem Value.callable?_meaning (value : Value) :
    value.meaning.callable? = value.callable?.map fun callable =>
      (callable.parameters, callable.body, callable.captured.scope) := by
  cases value with
  | integer value => simp [meaning, callable?, Meaning.callable?]
  | function parameters body =>
    have nothing : (Frame.empty : Frame Value).scope = fun _ => none := by
      funext name
      simp [Frame.scope, Frame.empty, entriesScope]
    simp [meaning, callable?, Meaning.callable?, nothing]
  | closure parameters body captured => simp [meaning_closure, callable?, Meaning.callable?]

theorem Value.exists_callable {value : Value} {parameters : List String} {body : Expr} {captured : Scope}
    (parts : value.meaning.callable? = some (parameters, body, captured)) :
    ∃ callable, value.callable? = some callable ∧ callable.parameters = parameters ∧
      callable.body = body ∧ callable.captured.scope = captured := by
  rw [callable?_meaning] at parts
  obtain ⟨callable, found, same⟩ := Option.map_eq_some_iff.mp parts
  simp only [Prod.mk.injEq] at same
  exact ⟨callable, found, same⟩

theorem Value.callable?_eq_none {value : Value} (parts : value.meaning.callable? = none) :
    value.callable? = none := by
  rw [callable?_meaning] at parts
  exact Option.map_eq_none_iff.mp parts

theorem Value.integer?_meaning (value : Value) (other : ∀ number, value ≠ .integer number) :
    value.meaning.integer? = none := by
  cases value with
  | integer number => exact absurd rfl (other number)
  | function parameters body => simp only [meaning, Meaning.integer?]
  | closure parameters body captured => simp only [meaning_closure, Meaning.integer?]

theorem Value.eq_integer {value : Value} {number : Int64} (same : value.meaning = .integer number) :
    value = .integer number := by
  cases value with
  | integer number => simpa [meaning] using same
  | function parameters body => simp [meaning] at same
  | closure parameters body captured => simp [meaning_closure] at same

/-- Read through `view`, the outcome has this result, and its session this map. -/
def Outcome.Shows {α β : Type} (outcome : Outcome EvalError α) (view : α → β)
    (result : Except EvalError β) (after : Scope) : Prop :=
  outcome.result.map view = result ∧ outcome.session.frame.scope = after

namespace Outcome.Shows

variable {α β : Type} {outcome : Outcome EvalError α} {view : α → β} {after : Scope}

theorem ok {seen : β} (shows : outcome.Shows view (.ok seen) after) :
    ∃ value session, outcome = ⟨.ok value, session⟩ ∧ view value = seen ∧ session.frame.scope = after := by
  obtain ⟨result, session⟩ := outcome
  obtain ⟨same, rfl⟩ := shows
  cases result with
  | ok value => exact ⟨value, session, rfl, Except.ok.inj same, rfl⟩
  | error error => cases same

theorem error {error : EvalError} (shows : outcome.Shows view (.error error) after) :
    ∃ session, outcome = ⟨.error error, session⟩ ∧ session.frame.scope = after := by
  obtain ⟨result, session⟩ := outcome
  obtain ⟨same, rfl⟩ := shows
  cases result with
  | ok value => cases same
  | error error =>
    cases same
    exact ⟨session, rfl, rfl⟩

end Outcome.Shows

namespace BigStep

variable {limit depth : Nat}

/-- The rules derive what evaluating in such a session gives. -/
def Derived (limit depth : Nat) (expr : Expr) : Prop :=
  ∀ session : Session, session.Counts depth limit →
    Evaluates limit depth session.frame.scope expr ((session.eval expr).result.map Value.meaning)
      (session.eval expr).session.frame.scope

theorem evaluatesAll_evalAll (within : depth ≤ limit) (arguments : List Expr)
    (each : ∀ argument ∈ arguments, Derived limit depth argument)
    (session : Session) (counts : session.Counts depth limit) :
    EvaluatesAll limit depth session.frame.scope arguments
      ((session.evalAll arguments).result.map (List.map Value.meaning))
      (session.evalAll arguments).session.frame.scope := by
  induction arguments generalizing session with
  | nil => exact .nil
  | cons first rest ih =>
    obtain ⟨rfl, rfl⟩ := counts
    have derived := each first List.mem_cons_self session ⟨rfl, rfl⟩
    have balanced := session.eval_balanced within first
    rw [Session.evalAll_cons within]
    generalize session.eval first = outcome at derived balanced ⊢
    obtain ⟨_ | value, middle⟩ := outcome
    · exact .firstFails derived
    · have others := ih (fun argument member => each argument (List.mem_cons_of_mem _ member)) middle
        (balanced.counts rfl)
      simp only [Outcome.bind_ok]
      generalize middle.evalAll rest = outcome at others ⊢
      obtain ⟨_ | values, last⟩ := outcome
      · exact .restFails derived others
      · exact .cons derived others

theorem Derived.call (within : depth ≤ limit) {callee : Expr} (arguments : List Expr)
    (calleeDerived : Derived limit depth callee)
    (deeper : depth + 1 ≤ limit → ∀ expr, Derived limit (depth + 1) expr) :
    Derived limit depth (.call callee arguments) := by
  intro session counts
  obtain ⟨rfl, rfl⟩ := counts
  have derived := calleeDerived session ⟨rfl, rfl⟩
  have balanced := session.eval_balanced within callee
  rw [Session.eval_call within]
  generalize session.eval callee = outcome at derived balanced ⊢
  obtain ⟨error | value, called⟩ := outcome
  · exact .calleeFails derived
  · have counts := balanced.counts rfl
    have parts := value.callable?_meaning
    simp only [Outcome.bind_ok]
    cases found : value.callable? with
    | none =>
      rw [found] at parts
      exact .notFunction derived parts
    | some callable =>
      rw [found] at parts
      simp only
      split
      next matching =>
        by_cases room : session.depth < session.limit
        · rw [Session.enter_of_room counts room]
          -- Arguments and body run one deeper, where the rules are known to follow the session.
          have entered : ({ called with depth := session.depth + 1 } : Session).Counts
              (session.depth + 1) session.limit := ⟨rfl, counts.limit⟩
          have others := evaluatesAll_evalAll room arguments (fun argument _ => deeper room argument) _ entered
          have argumentsBalanced := Session.evalAll_balanced (entered.within room) arguments
          simp only [Outcome.bind_ok]
          generalize Session.evalAll { called with depth := session.depth + 1 } arguments = outcome
            at others argumentsBalanced ⊢
          obtain ⟨error | values, caller⟩ := outcome
          · exact .argumentFails derived parts matching room others
          · have counts := argumentsBalanced.counts rfl
            have body := deeper room callable.body
              { caller with frame := callable.frame values caller.frame }
              ⟨counts.depth, counts.limit.trans entered.limit⟩
            -- Covering the caller's frame by what was captured gives the map that the rule asks for.
            rw [callable.scope_frame] at body
            have result := Evaluates.call derived parts matching room others body
            rw [← Value.map_meaning_capture] at result
            exact result
        · rw [Session.enter_of_full counts (Nat.le_of_not_lt room)]
          exact .tooManyCalls derived parts matching (Nat.lt_succ_of_le (Nat.le_of_not_lt room))
      next differing => exact .argumentCount derived parts differing

theorem Derived.signed (within : depth ≤ limit) {operand : Expr} (sign : Sign)
    (operandDerived : Derived limit depth operand) : Derived limit depth (.signed sign operand) := by
  intro session counts
  obtain ⟨rfl, rfl⟩ := counts
  have derived := operandDerived session ⟨rfl, rfl⟩
  rw [Session.eval_signed]
  generalize session.eval operand = outcome at derived ⊢
  obtain ⟨error | value, after⟩ := outcome
  · exact .operandFails derived
  · cases sign with
    | plus => exact .plus derived
    | minus =>
      cases value with
      | integer value => exact .minus derived
      | _ => exact .negatedNotInteger derived (Value.integer?_meaning _ (by simp))

theorem Derived.binary (within : depth ≤ limit) {left right : Expr} (operator : Operator)
    (leftDerived : Derived limit depth left) (rightDerived : Derived limit depth right) :
    Derived limit depth (.binary operator left right) := by
  intro session counts
  obtain ⟨rfl, rfl⟩ := counts
  have first := leftDerived session ⟨rfl, rfl⟩
  have balanced := session.eval_balanced within left
  rw [Session.eval_binary within]
  generalize session.eval left = outcome at first balanced ⊢
  obtain ⟨error | value, middle⟩ := outcome
  · exact .leftFails first
  · cases value with
    | integer value =>
      have second := rightDerived middle (balanced.counts rfl)
      simp only [Outcome.bind_ok]
      generalize middle.eval right = outcome at second ⊢
      obtain ⟨error | other, after⟩ := outcome
      · exact .rightFails first second
      · cases other with
        | integer other =>
          have result : Evaluates session.limit session.depth _ (.binary operator left right) _ _ :=
            .binary first second
          simp only [Outcome.bind_ok]
          generalize operator.apply value other = computed at result ⊢
          cases computed <;> exact result
        | _ => exact .rightNotInteger first second (Value.integer?_meaning _ (by simp))
    | _ => exact .leftNotInteger first (Value.integer?_meaning _ (by simp))

theorem Derived.choice (within : depth ≤ limit) {condition consequence alternative : Expr}
    (conditionDerived : Derived limit depth condition) (consequenceDerived : Derived limit depth consequence)
    (alternativeDerived : Derived limit depth alternative) :
    Derived limit depth (.choice condition consequence alternative) := by
  intro session counts
  obtain ⟨rfl, rfl⟩ := counts
  have derived := conditionDerived session ⟨rfl, rfl⟩
  have balanced := session.eval_balanced within condition
  rw [Session.eval_choice within]
  generalize session.eval condition = outcome at derived balanced ⊢
  obtain ⟨error | value, middle⟩ := outcome
  · exact .conditionFails derived
  · have counts := balanced.counts rfl
    cases value with
    | integer value =>
      simp only [Outcome.bind_ok]
      split
      next zero =>
        subst zero
        exact .alternative derived (alternativeDerived middle counts)
      next nonzero => exact .consequence derived nonzero (consequenceDerived middle counts)
    | _ => exact .conditionNotInteger derived (Value.integer?_meaning _ (by simp))

theorem Derived.assign (within : depth ≤ limit) {value : Expr} (target : String)
    (valueDerived : Derived limit depth value) : Derived limit depth (.assign target value) := by
  intro session counts
  obtain ⟨rfl, rfl⟩ := counts
  have derived := valueDerived session ⟨rfl, rfl⟩
  rw [Session.eval_assign]
  generalize session.eval value = outcome at derived ⊢
  obtain ⟨error | value, after⟩ := outcome
  · exact .assignedFails derived
  · have result : Evaluates session.limit session.depth _ (.assign target _) _ _ := .assign derived
    rw [← Frame.scope_insert] at result
    exact result

theorem derived (within : depth ≤ limit) (expr : Expr) : Derived limit depth expr := by
  -- The outer induction is on the calls that are left: the body of a call is no part of its expression.
  induction depth, within using induct_depth generalizing expr with
  | level depth within deeper =>
  induction expr with
  | integer value =>
    intro session _
    rw [Session.eval_integer]
    exact .integer
  | name word =>
    intro session _
    rw [Session.eval_name]
    have found := session.frame.scope_apply word
    rw [← Session.get?] at found
    cases value : session.get? word with
    | some value =>
      exact .name (by simpa [value] using found)
    | none => exact .undefined (by simpa [value] using found)
  | function parameters body =>
    intro session _
    rw [Session.eval_function]
    exact .function
  | signed sign operand ih => exact ih.signed within sign
  | binary operator left right ihLeft ihRight => exact ihLeft.binary within operator ihRight
  | choice condition consequence alternative ihCondition ihConsequence ihAlternative =>
    exact ihCondition.choice within ihConsequence ihAlternative
  | assign target value ih => exact ih.assign within target
  | call callee arguments ih _ => exact ih.call within arguments deeper

/-- Whatever the rules derive is what evaluating in such a session gives. -/
def Determined (limit depth : Nat) (expr : Expr) : Prop :=
  ∀ (session : Session) (result : Except EvalError Meaning) (after : Scope), session.Counts depth limit →
    Evaluates limit depth session.frame.scope expr result after →
    (session.eval expr).Shows Value.meaning result after

theorem shows_evalAll (within : depth ≤ limit) {arguments : List Expr}
    (each : ∀ argument ∈ arguments, Determined limit depth argument)
    {session : Session} {result : Except EvalError (List Meaning)} {after : Scope}
    (counts : session.Counts depth limit)
    (evaluates : EvaluatesAll limit depth session.frame.scope arguments result after) :
    (session.evalAll arguments).Shows (List.map Value.meaning) result after := by
  induction arguments generalizing session result with
  | nil =>
    cases evaluates
    exact ⟨rfl, rfl⟩
  | cons first rest ih =>
    obtain ⟨rfl, rfl⟩ := counts
    have balanced := session.eval_balanced within first
    rw [Session.evalAll_cons within]
    cases evaluates with
    | firstFails head =>
      obtain ⟨last, outcome, rfl⟩ := (each first List.mem_cons_self session _ _ ⟨rfl, rfl⟩ head).error
      rw [outcome]
      exact ⟨rfl, rfl⟩
    | cons head tail =>
      obtain ⟨value, middle, outcome, rfl, rfl⟩ :=
        (each first List.mem_cons_self session _ _ ⟨rfl, rfl⟩ head).ok
      rw [outcome] at balanced ⊢
      obtain ⟨values, last, outcome, rfl, rfl⟩ :=
        (ih (fun argument member => each argument (List.mem_cons_of_mem _ member)) (balanced.counts rfl) tail).ok
      simp only [Outcome.bind_ok, outcome]
      exact ⟨rfl, rfl⟩
    | restFails head tail =>
      obtain ⟨value, middle, outcome, rfl, rfl⟩ :=
        (each first List.mem_cons_self session _ _ ⟨rfl, rfl⟩ head).ok
      rw [outcome] at balanced ⊢
      obtain ⟨last, outcome, rfl⟩ :=
        (ih (fun argument member => each argument (List.mem_cons_of_mem _ member)) (balanced.counts rfl)
          tail).error
      simp only [Outcome.bind_ok, outcome]
      exact ⟨rfl, rfl⟩

theorem Determined.signed (within : depth ≤ limit) {operand : Expr} (sign : Sign)
    (operandDetermined : Determined limit depth operand) : Determined limit depth (.signed sign operand) := by
  intro session result after counts evaluates
  obtain ⟨rfl, rfl⟩ := counts
  rw [Session.eval_signed]
  cases evaluates with
  | plus operand =>
    obtain ⟨value, last, outcome, rfl, rfl⟩ := (operandDetermined session _ _ ⟨rfl, rfl⟩ operand).ok
    rw [outcome]
    exact ⟨rfl, rfl⟩
  | minus operand =>
    obtain ⟨value, last, outcome, same, rfl⟩ := (operandDetermined session _ _ ⟨rfl, rfl⟩ operand).ok
    rw [outcome, Value.eq_integer same]
    exact ⟨rfl, rfl⟩
  | negatedNotInteger operand other =>
    obtain ⟨value, last, outcome, rfl, rfl⟩ := (operandDetermined session _ _ ⟨rfl, rfl⟩ operand).ok
    rw [outcome]
    cases value with
    | integer value => cases other
    | _ => exact ⟨rfl, rfl⟩
  | operandFails operand =>
    obtain ⟨last, outcome, rfl⟩ := (operandDetermined session _ _ ⟨rfl, rfl⟩ operand).error
    rw [outcome]
    exact ⟨rfl, rfl⟩

theorem Determined.binary (within : depth ≤ limit) {left right : Expr} (operator : Operator)
    (leftDetermined : Determined limit depth left) (rightDetermined : Determined limit depth right) :
    Determined limit depth (.binary operator left right) := by
  intro session result after counts evaluates
  obtain ⟨rfl, rfl⟩ := counts
  have balanced := session.eval_balanced within left
  rw [Session.eval_binary within]
  cases evaluates with
  | leftFails first =>
    obtain ⟨last, outcome, rfl⟩ := (leftDetermined session _ _ ⟨rfl, rfl⟩ first).error
    rw [outcome]
    exact ⟨rfl, rfl⟩
  | leftNotInteger first other =>
    obtain ⟨value, last, outcome, rfl, rfl⟩ := (leftDetermined session _ _ ⟨rfl, rfl⟩ first).ok
    rw [outcome]
    cases value with
    | integer value => cases other
    | _ => exact ⟨rfl, rfl⟩
  | binary first second =>
    obtain ⟨value, middle, outcome, same, rfl⟩ := (leftDetermined session _ _ ⟨rfl, rfl⟩ first).ok
    rw [outcome, Value.eq_integer same] at balanced ⊢
    obtain ⟨other, last, outcome, same, rfl⟩ := (rightDetermined middle _ _ (balanced.counts rfl) second).ok
    simp only [Outcome.bind_ok, outcome, Value.eq_integer same]
    refine ⟨?_, rfl⟩
    cases operator.apply _ _ <;> rfl
  | rightFails first second =>
    obtain ⟨value, middle, outcome, same, rfl⟩ := (leftDetermined session _ _ ⟨rfl, rfl⟩ first).ok
    rw [outcome, Value.eq_integer same] at balanced ⊢
    obtain ⟨last, outcome, rfl⟩ := (rightDetermined middle _ _ (balanced.counts rfl) second).error
    simp only [Outcome.bind_ok, outcome]
    exact ⟨rfl, rfl⟩
  | rightNotInteger first second other =>
    obtain ⟨value, middle, outcome, same, rfl⟩ := (leftDetermined session _ _ ⟨rfl, rfl⟩ first).ok
    rw [outcome, Value.eq_integer same] at balanced ⊢
    obtain ⟨value, last, outcome, rfl, rfl⟩ := (rightDetermined middle _ _ (balanced.counts rfl) second).ok
    simp only [Outcome.bind_ok, outcome]
    cases value with
    | integer value => cases other
    | _ => exact ⟨rfl, rfl⟩

theorem Determined.choice (within : depth ≤ limit) {condition consequence alternative : Expr}
    (conditionDetermined : Determined limit depth condition)
    (consequenceDetermined : Determined limit depth consequence)
    (alternativeDetermined : Determined limit depth alternative) :
    Determined limit depth (.choice condition consequence alternative) := by
  intro session result after counts evaluates
  obtain ⟨rfl, rfl⟩ := counts
  have balanced := session.eval_balanced within condition
  rw [Session.eval_choice within]
  cases evaluates with
  | conditionFails tested =>
    obtain ⟨last, outcome, rfl⟩ := (conditionDetermined session _ _ ⟨rfl, rfl⟩ tested).error
    rw [outcome]
    exact ⟨rfl, rfl⟩
  | conditionNotInteger tested other =>
    obtain ⟨value, last, outcome, rfl, rfl⟩ := (conditionDetermined session _ _ ⟨rfl, rfl⟩ tested).ok
    rw [outcome]
    cases value with
    | integer value => cases other
    | _ => exact ⟨rfl, rfl⟩
  | consequence tested nonzero chosen =>
    obtain ⟨value, middle, outcome, same, rfl⟩ := (conditionDetermined session _ _ ⟨rfl, rfl⟩ tested).ok
    rw [outcome, Value.eq_integer same] at balanced ⊢
    simp only [Outcome.bind_ok, if_neg nonzero]
    exact consequenceDetermined middle _ _ (balanced.counts rfl) chosen
  | alternative tested chosen =>
    obtain ⟨value, middle, outcome, same, rfl⟩ := (conditionDetermined session _ _ ⟨rfl, rfl⟩ tested).ok
    rw [outcome, Value.eq_integer same] at balanced ⊢
    simp only [Outcome.bind_ok, if_pos]
    exact alternativeDetermined middle _ _ (balanced.counts rfl) chosen

theorem Determined.assign (within : depth ≤ limit) {value : Expr} (target : String)
    (valueDetermined : Determined limit depth value) : Determined limit depth (.assign target value) := by
  intro session result after counts evaluates
  obtain ⟨rfl, rfl⟩ := counts
  rw [Session.eval_assign]
  cases evaluates with
  | assign assigned =>
    obtain ⟨value, last, outcome, rfl, rfl⟩ := (valueDetermined session _ _ ⟨rfl, rfl⟩ assigned).ok
    rw [outcome]
    exact ⟨rfl, last.frame.scope_insert target value⟩
  | assignedFails assigned =>
    obtain ⟨last, outcome, rfl⟩ := (valueDetermined session _ _ ⟨rfl, rfl⟩ assigned).error
    rw [outcome]
    exact ⟨rfl, rfl⟩

theorem Determined.call (within : depth ≤ limit) {callee : Expr} (arguments : List Expr)
    (calleeDetermined : Determined limit depth callee)
    (deeper : depth + 1 ≤ limit → ∀ expr, Determined limit (depth + 1) expr) :
    Determined limit depth (.call callee arguments) := by
  intro session result after counts evaluates
  obtain ⟨rfl, rfl⟩ := counts
  have balanced := session.eval_balanced within callee
  rw [Session.eval_call within]
  cases evaluates with
  | calleeFails calling =>
    obtain ⟨last, outcome, rfl⟩ := (calleeDetermined session _ _ ⟨rfl, rfl⟩ calling).error
    rw [outcome]
    exact ⟨rfl, rfl⟩
  | notFunction calling parts =>
    obtain ⟨value, called, outcome, rfl, rfl⟩ := (calleeDetermined session _ _ ⟨rfl, rfl⟩ calling).ok
    simp only [outcome, Outcome.bind_ok, Value.callable?_eq_none parts]
    exact ⟨rfl, rfl⟩
  | argumentCount calling parts differing =>
    obtain ⟨value, called, outcome, rfl, rfl⟩ := (calleeDetermined session _ _ ⟨rfl, rfl⟩ calling).ok
    obtain ⟨callable, found, rfl, rfl, rfl⟩ := Value.exists_callable parts
    simp only [outcome, Outcome.bind_ok, found, if_neg differing]
    exact ⟨rfl, rfl⟩
  | tooManyCalls calling parts matching full =>
    obtain ⟨value, called, outcome, rfl, rfl⟩ := (calleeDetermined session _ _ ⟨rfl, rfl⟩ calling).ok
    obtain ⟨callable, found, rfl, rfl, rfl⟩ := Value.exists_callable parts
    rw [outcome] at balanced ⊢
    simp only [Outcome.bind_ok, found, if_pos matching,
      Session.enter_of_full (balanced.counts rfl) (Nat.le_of_lt_succ full)]
    exact ⟨rfl, rfl⟩
  | argumentFails calling parts matching room passed =>
    obtain ⟨value, called, outcome, rfl, rfl⟩ := (calleeDetermined session _ _ ⟨rfl, rfl⟩ calling).ok
    obtain ⟨callable, found, rfl, rfl, rfl⟩ := Value.exists_callable parts
    rw [outcome] at balanced ⊢
    have counts := balanced.counts rfl
    simp only [Outcome.bind_ok, found, if_pos matching, Session.enter_of_room counts room]
    have entered : ({ called with depth := session.depth + 1 } : Session).Counts
        (session.depth + 1) session.limit := ⟨rfl, counts.limit⟩
    obtain ⟨last, outcome, rfl⟩ :=
      (shows_evalAll room (fun argument _ => deeper room argument) entered passed).error
    rw [outcome]
    exact ⟨rfl, rfl⟩
  | call calling parts matching room passed ran =>
    obtain ⟨value, called, outcome, rfl, rfl⟩ := (calleeDetermined session _ _ ⟨rfl, rfl⟩ calling).ok
    obtain ⟨callable, found, rfl, rfl, rfl⟩ := Value.exists_callable parts
    rw [outcome] at balanced ⊢
    have counts := balanced.counts rfl
    have entered : ({ called with depth := session.depth + 1 } : Session).Counts
        (session.depth + 1) session.limit := ⟨rfl, counts.limit⟩
    simp only [Outcome.bind_ok, found, if_pos matching, Session.enter_of_room counts room]
    have argumentsBalanced := Session.evalAll_balanced (entered.within room) arguments
    obtain ⟨values, caller, outcome, rfl, rfl⟩ :=
      (shows_evalAll room (fun argument _ => deeper room argument) entered passed).ok
    rw [outcome] at argumentsBalanced ⊢
    have counts := argumentsBalanced.counts rfl
    rw [← callable.scope_frame] at ran
    obtain ⟨same, rfl⟩ := deeper room callable.body
      { caller with frame := callable.frame values caller.frame } _ _
      ⟨counts.depth, counts.limit.trans entered.limit⟩ ran
    refine ⟨?_, rfl⟩
    rw [← same]
    exact Value.map_meaning_capture _ _

theorem determined (within : depth ≤ limit) (expr : Expr) : Determined limit depth expr := by
  induction depth, within using induct_depth generalizing expr with
  | level depth within deeper =>
  induction expr with
  | integer value =>
    intro session result after _ evaluates
    rw [Session.eval_integer]
    cases evaluates
    exact ⟨rfl, rfl⟩
  | name word =>
    intro session result after _ evaluates
    have seen := session.frame.scope_apply word
    rw [← Session.get?] at seen
    rw [Session.eval_name]
    cases evaluates with
    | name found =>
      obtain ⟨value, holds, rfl⟩ := Option.map_eq_some_iff.mp (seen.symm.trans found)
      rw [holds]
      exact ⟨rfl, rfl⟩
    | undefined missing =>
      rw [Option.map_eq_none_iff.mp (seen.symm.trans missing)]
      exact ⟨rfl, rfl⟩
  | function parameters body =>
    intro session result after _ evaluates
    rw [Session.eval_function]
    cases evaluates
    exact ⟨rfl, rfl⟩
  | signed sign operand ih => exact ih.signed within sign
  | binary operator left right ihLeft ihRight => exact ihLeft.binary within operator ihRight
  | choice condition consequence alternative ihCondition ihConsequence ihAlternative =>
    exact ihCondition.choice within ihConsequence ihAlternative
  | assign target value ih => exact ih.assign within target
  | call callee arguments ih _ => exact ih.call within arguments deeper

/-- A session started with `depth` calls open has exactly the result and the map that the rules derive.
Its counter ends where it started, or at zero when a call was refused. -/
theorem session_eval_refines (frame : Frame Value) (depth limit : Nat) (within : depth ≤ limit) (expr : Expr)
    (result : Except EvalError Meaning) (after : Scope) :
    let outcome := Session.eval { frame, depth, limit } expr
    (Evaluates limit depth frame.scope expr result after ↔
      outcome.result.map Value.meaning = result ∧ outcome.session.frame.scope = after) ∧
    outcome.session.depth = countAfter depth outcome.result ∧ outcome.session.limit = limit := by
  intro outcome
  have balanced : outcome.Balanced depth limit := Session.eval_balanced within expr
  refine ⟨⟨determined within expr { frame, depth, limit } result after ⟨rfl, rfl⟩, ?_⟩,
    balanced.depth, balanced.limit⟩
  rintro ⟨rfl, rfl⟩
  exact derived within expr { frame, depth, limit } ⟨rfl, rfl⟩

def endless : Expr :=
  let twice : Expr := .function ["f"] (.call (.name "f") [.name "f"])
  .call twice [twice]

theorem session_eval_refines_endless :
    1 ≤ 3 ∧ Evaluates 3 1 Frame.empty.scope endless (.error (.tooManyCalls 3)) Frame.empty.scope ∧
      (Session.eval { frame := .empty, depth := 1, limit := 3 } endless).session.depth = 0 := by
  have refines := session_eval_refines .empty 1 3 (by decide) endless (.error (.tooManyCalls 3)) Frame.empty.scope
  have refused : (Session.eval { frame := .empty, depth := 1, limit := 3 } endless).result =
      .error (.tooManyCalls 3) := by rfl
  refine ⟨by decide, refines.1.mpr ⟨by rw [refused]; rfl, by rfl⟩, ?_⟩
  rw [refines.2.1, refused]
  rfl

end BigStep

end LineLang
