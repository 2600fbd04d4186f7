import LineLang.Line
import LineLang.Proofs.Evaluation

/-! What an evaluation does to its session.

Whichever way it ends, an evaluation sets names that its expression assigns outside function literals, and
counts calls. It does nothing else: what a body assigns is gone with its frame, and what was assigned before a
failure stays.
-/

set_option autoImplicit false

namespace LineLang

namespace Expr

mutual

/-- The names assigned outside every function literal. -/
def targets : Expr → List String
  | .integer _ | .name _ | .function _ _ => []
  | .signed _ operand => targets operand
  | .binary _ left right => targets left ++ targets right
  | .choice condition consequence alternative =>
    targets condition ++ (targets consequence ++ targets alternative)
  | .assign target value => target :: targets value
  | .call callee arguments => targets callee ++ targetsAll arguments

def targetsAll : List Expr → List String
  | [] => []
  | argument :: rest => targets argument ++ targetsAll rest

end

theorem targets_subset_targetsAll {arguments : List Expr} {argument : Expr} (isOne : argument ∈ arguments) :
    argument.targets ⊆ targetsAll arguments := by
  induction arguments with
  | nil => cases isOne
  | cons first rest ih =>
    rw [targetsAll]
    rcases List.mem_cons.mp isOne with rfl | later
    · exact List.subset_append_left _ _
    · exact List.Subset.trans (ih later) (List.subset_append_right _ _)

theorem targets_subset_of_mem_parts {expr : Expr} : ∀ part ∈ expr.parts, part.targets ⊆ expr.targets := by
  cases expr with
  | call callee arguments =>
    refine List.forall_mem_cons.mpr ⟨List.subset_append_left _ _, fun argument isOne => ?_⟩
    exact List.Subset.trans (targets_subset_targetsAll isOne) (List.subset_append_right _ _)
  | _ => simp [parts, targets, List.subset_append_of_subset_right]

end Expr

/-- The second session comes from the first by setting some of the names and by counting calls. -/
inductive Session.Reaches (names : List String) (start : Session) : Session → Prop where
  | refl : Reaches names start start
  | set {session name} (value : Value) : Reaches names start session → name ∈ names →
      Reaches names start (session.set name value)
  | count {session} (depth : Nat) : Reaches names start session → Reaches names start { session with depth }

namespace Session.Reaches

variable {names : List String} {start middle final : Session}

theorem trans (first : start.Reaches names middle) (second : middle.Reaches names final) :
    start.Reaches names final := by
  induction second with
  | refl => exact first
  | set value _ isOne ih => exact ih.set value isOne
  | count depth _ ih => exact ih.count depth

theorem limit_eq (reaches : start.Reaches names final) : final.limit = start.limit := by
  induction reaches with
  | refl => rfl
  | set _ _ _ ih | count _ _ ih => exact ih

theorem get?_eq (reaches : start.Reaches names final) {name : String} (other : name ∉ names) :
    final.get? name = start.get? name := by
  induction reaches with
  | refl => rfl
  | @set session target value _ isOne ih =>
    have different : name ≠ target := fun same => other (same ▸ isOne)
    rw [← ih, Session.get?, Session.set, Frame.get?_insert, if_neg different]
    rfl
  | count _ _ ih => exact ih

theorem frame_eq (reaches : start.Reaches [] final) : final.frame = start.frame := by
  induction reaches with
  | refl => rfl
  | set _ _ isOne => cases isOne
  | count _ _ ih => exact ih

theorem names_subset (reaches : start.Reaches names final) : start.frame.names ⊆ final.frame.names := by
  induction reaches with
  | refl => exact List.Subset.refl _
  | set value _ _ ih => exact List.Subset.trans ih (Frame.names_subset_insert _ _ value)
  | count _ _ ih => exact ih

end Session.Reaches

def Evaluator.KeepsLimit (runBody : Evaluator) : Prop :=
  ∀ body session, (runBody body session).session.limit = session.limit

def Evaluator.SetsTargets (runBody : Evaluator) : Prop :=
  ∀ names body session, body.targets ⊆ names → Session.Reaches names session (runBody body session).session

section Bodies

variable {runBody : Evaluator} {names : List String}

-- The frame of the body is gone, so of all that the body did only the counter is left.
theorem Callable.run_reaches (bodies : runBody.KeepsLimit) (callable : Callable) (arguments : List Value)
    (caller : Session) : caller.Reaches names (callable.run runBody arguments caller).session := by
  have kept := bodies callable.body { caller with frame := callable.frame arguments caller.frame }
  have counted : (callable.run runBody arguments caller).session =
      { caller with depth := (callable.run runBody arguments caller).session.depth } := by
    simp only [Callable.run, kept]
  rw [counted]
  exact .count _ .refl

def reaching (names : List String) : Contract where
  sound _ := True
  after start final := start.Reaches names final
  good _ _ := True
  admits _ expr := expr.targets ⊆ names
  fails start _ final := start.Reaches names final
  after_self _ := .refl
  after_trans := .trans
  sound_after _ _ := trivial
  good_after _ _ := trivial
  admits_after _ covers := covers
  admits_part isPart covers := List.Subset.trans (Expr.targets_subset_of_mem_parts _ isPart) covers
  fails_after := .trans
  good_integer := trivial
  good_function _ := trivial
  good_held _ _ := trivial
  after_set _ covers _ := .set _ .refl (List.cons_subset.mp covers).1
  fails_here _ _ _ := .refl
  fails_undefined _ _ _ := .refl
  fails_refused _ _ := .count 0 .refl
  sound_opened _ _ := trivial
  after_closed _ reaches := .count _ ((Session.Reaches.refl.count _).trans reaches)
  fails_closed _ reaches := .count _ ((Session.Reaches.refl.count _).trans reaches)

theorem reaching_runs (bodies : runBody.KeepsLimit) : (reaching names).Runs runBody runBody := by
  intro callable arguments caller _
  have reaches : caller.Reaches names _ := callable.run_reaches bodies arguments caller
  exact .of_result (fun _ _ => ⟨reaches, trivial⟩) fun _ _ => reaches

theorem Session.Reaches.of_meets {α : Type} {start : Session} {holds : Frame Value → α → Prop}
    {outcome other : Outcome EvalError α} (meets : (reaching names).Meets start holds outcome other) :
    start.Reaches names outcome.session := by
  cases meets with
  | ok reaches _ => exact reaches
  | error reaches => exact reaches

namespace Expr

theorem evalWith_reaches (bodies : runBody.KeepsLimit) (expr : Expr) (covers : expr.targets ⊆ names)
    (session : Session) : session.Reaches names (expr.evalWith runBody session).session :=
  .of_meets (Contract.accepts_evalWith (reaching_runs bodies) expr session trivial covers)

theorem evalWithin_reaches (room : Nat) : Evaluator.SetsTargets (evalWithin room) := by
  refine evalWithin_induct (fun _ _ _ _ => .refl) ?_ room
  intro runBody bodies names expr session covers
  -- What a body sets is gone with its frame, so of a body only the limit matters that it ends with.
  have keepsLimit : runBody.KeepsLimit := fun body session => (bodies _ body session (List.Subset.refl _)).limit_eq
  exact evalWith_reaches keepsLimit expr covers session

end Expr

end Bodies

namespace Session

variable {names : List String}

-- Holds in every session, also in one with more calls open than its limit.
theorem eval_reaches (session : Session) {expr : Expr} (covers : expr.targets ⊆ names) :
    session.Reaches names (session.eval expr).session :=
  Expr.evalWithin_reaches _ names expr session covers

theorem exists_target_of_evalLine {session : Session} {text name : String} (fresh : name ∉ session.frame.names)
    (bound : name ∈ (session.evalLine text).session.frame.names) :
    ∃ expr, parseLine text = .ok expr ∧ name ∈ expr.targets := by
  rw [evalLine] at bound
  cases parsed : parseLine text with
  | error error =>
    rw [parsed] at bound
    exact absurd bound fresh
  | ok expr =>
    rw [parsed] at bound
    by_cases isTarget : name ∈ expr.targets
    · exact ⟨expr, rfl, isTarget⟩
    · have same := (session.eval_reaches (List.Subset.refl expr.targets)).get?_eq isTarget
      refine absurd ((Frame.mem_names _ _).mpr ?_) fresh
      rw [← Session.get?, ← same]
      exact (Frame.mem_names _ _).mp bound

theorem evalLine_session_eq {session : Session} {text : String} {error : LineError}
    (fails : (session.evalLine text).result = .error error) (notEval : ∀ fault, error ≠ .eval fault) :
    (session.evalLine text).session = session := by
  rw [evalLine] at fails ⊢
  cases parsed : parseLine text with
  | error error => rfl
  | ok expr =>
    simp only [parsed, Outcome.mapError] at fails
    cases result : (session.eval expr).result with
    | ok value =>
      rw [result] at fails
      cases fails
    | error fault =>
      rw [result] at fails
      exact absurd (Except.error.inj fails).symm (notEval fault)

theorem evalLine_depth {session : Session} (idle : session.depth = 0) (text : String) :
    (session.evalLine text).session.depth = 0 := by
  rw [evalLine]
  cases parseLine text with
  | error error => exact idle
  | ok expr =>
    have balanced := eval_balanced (idle ▸ Nat.zero_le session.limit) expr
    have left := balanced.depth
    rw [idle] at left
    -- A refused call leaves a count of zero, and everything else the count of zero it began with.
    cases result : (session.eval expr).result with
    | ok value => rw [result] at left; exact left
    | error error => rw [result] at left; cases error <;> exact left

def evalLines (session : Session) (texts : List String) : Session :=
  texts.foldl (fun session text => (session.evalLine text).session) session

theorem evalLines_depth {session : Session} (idle : session.depth = 0) (texts : List String) :
    (session.evalLines texts).depth = 0 := by
  induction texts generalizing session with
  | nil => exact idle
  | cons text rest ih => exact ih (evalLine_depth idle text)

theorem exists_target_of_evalLines {session : Session} {texts : List String} {name : String}
    (fresh : name ∉ session.frame.names) (bound : name ∈ (session.evalLines texts).frame.names) :
    ∃ text ∈ texts, ∃ expr, parseLine text = .ok expr ∧ name ∈ expr.targets := by
  induction texts generalizing session with
  | nil => exact absurd bound fresh
  | cons text rest ih =>
    by_cases early : name ∈ (session.evalLine text).session.frame.names
    · exact ⟨text, List.mem_cons_self, exists_target_of_evalLine fresh early⟩
    · obtain ⟨later, isOne, assigned⟩ := ih early bound
      exact ⟨later, List.mem_cons_of_mem _ isOne, assigned⟩

end Session

/-- An evaluation changes no name but the targets of its expression, loses no name and keeps the limit. So a
session that begins empty holds targets of its lines only, is idle after each of them, and is left alone by a
line that has no expression. -/
theorem eval_changes_only_targets :
    (∀ (session : Session) (expr : Expr),
      (∀ name, name ∉ expr.targets → (session.eval expr).session.get? name = session.get? name) ∧
      session.frame.names ⊆ (session.eval expr).session.frame.names ∧
      (session.eval expr).session.limit = session.limit) ∧
    (∀ (limit : Nat) (texts : List String),
      (∀ name ∈ (Session.evalLines { limit } texts).frame.names,
        ∃ text ∈ texts, ∃ expr, parseLine text = .ok expr ∧ name ∈ expr.targets) ∧
      (Session.evalLines { limit } texts).depth = 0) ∧
    ∀ (session : Session) (text : String) (error : LineError),
      (session.evalLine text).result = .error error → (∀ fault, error ≠ .eval fault) →
      (session.evalLine text).session = session := by
  refine ⟨?_, ?_, ?_⟩
  · intro session expr
    have reaches := session.eval_reaches (List.Subset.refl expr.targets)
    exact ⟨fun name other => reaches.get?_eq other, reaches.names_subset, reaches.limit_eq⟩
  · intro limit texts
    have fresh : ∀ name, name ∉ (Session.frame { limit }).names := fun name => List.not_mem_nil
    exact ⟨fun name bound => Session.exists_target_of_evalLines (fresh name) bound, Session.evalLines_depth rfl texts⟩
  · intro session text error fails notEval
    exact Session.evalLine_session_eq fails notEval

end LineLang
