import LineLang.Proofs.Contract

/-! Names are defined where they are read.

A frame is flat: nothing looks a name up in the frame of a caller or of a definition. A function still finds
all it refers to, because a call starts from the caller's frame, a closure brings its frame along, and a
function that leaves a call takes the frame of the call with it.
-/

set_option autoImplicit false

namespace LineLang

namespace Expr

mutual

/-- The names that are read and are no parameter around the place where they are. An assignment binds
nothing. -/
def free : Expr → List String
  | .integer _ => []
  | .name word => [word]
  | .signed _ operand => free operand
  | .binary _ left right => free left ++ free right
  | .choice condition consequence alternative =>
    free condition ++ (free consequence ++ free alternative)
  | .assign _ value => free value
  | .function parameters body => (free body).filter (· ∉ parameters)
  | .call callee arguments => free callee ++ freeAll arguments

def freeAll : List Expr → List String
  | [] => []
  | argument :: rest => free argument ++ freeAll rest

end

theorem free_subset_freeAll {arguments : List Expr} {argument : Expr} (isOne : argument ∈ arguments) :
    argument.free ⊆ freeAll arguments := by
  induction arguments with
  | nil => cases isOne
  | cons first rest ih =>
    rw [freeAll]
    rcases List.mem_cons.mp isOne with rfl | later
    · exact List.subset_append_left _ _
    · exact List.Subset.trans (ih later) (List.subset_append_right _ _)

theorem free_subset_of_mem_parts {expr : Expr} : ∀ part ∈ expr.parts, part.free ⊆ expr.free := by
  cases expr with
  | call callee arguments =>
    refine List.forall_mem_cons.mpr ⟨List.subset_append_left _ _, fun argument isOne => ?_⟩
    exact List.Subset.trans (free_subset_freeAll isOne) (List.subset_append_right _ _)
  | _ => simp [parts, free, List.subset_append_of_subset_right]

end Expr

/-- The value refers to nothing that is missing: a function to names of the frame it stands in, a closure to
names that it captured, where the same holds of every value. -/
inductive Value.ClosedIn : Frame Value → Value → Prop where
  | integer {frame value} : ClosedIn frame (.integer value)
  | function {frame parameters body} : (Expr.function parameters body).free ⊆ frame.names →
      ClosedIn frame (.function parameters body)
  | closure {frame parameters body captured} :
      (∀ name value, captured.get? name = some value → ClosedIn captured value) →
      (Expr.function parameters body).free ⊆ captured.names →
      ClosedIn frame (.closure parameters body captured)

def Frame.Closed (frame : Frame Value) : Prop :=
  ∀ name value, frame.get? name = some value → value.ClosedIn frame

theorem Value.ClosedIn.mono {frame other : Frame Value} {value : Value} (closed : value.ClosedIn frame)
    (more : frame.names ⊆ other.names) : value.ClosedIn other := by
  cases closed with
  | integer => exact .integer
  | function known => exact .function (List.Subset.trans known more)
  | closure captured known => exact .closure captured known

theorem Frame.Closed.insert {frame : Frame Value} {value : Value} (closed : frame.Closed)
    (closedIn : value.ClosedIn frame) (name : String) : (frame.insert name value).Closed := by
  have more := frame.names_subset_insert name value
  intro other held found
  rw [Frame.get?_insert] at found
  split at found
  · cases found
    exact closedIn.mono more
  · exact (closed other held found).mono more

namespace Callable

variable {callable : Callable} {arguments : List Value} {frame caller : Frame Value} {name : String}

/-- Called where these names are known, the body finds its own and what was captured finds its. -/
structure ScopedIn (callable : Callable) (frame : Frame Value) : Prop where
  captured : callable.captured.Closed
  body : ∀ name ∈ callable.body.free,
    name ∈ callable.parameters ∨ name ∈ callable.captured.names ∨ name ∈ frame.names

theorem scopedIn_of_closedIn {value : Value} (closed : value.ClosedIn frame)
    (calls : value.callable? = some callable) : callable.ScopedIn frame := by
  cases closed with
  | integer => cases calls
  | @function _ parameters body known =>
    cases calls
    refine ⟨(fun name value found => nomatch found), fun name isFree => ?_⟩
    by_cases isParameter : name ∈ parameters
    · exact .inl isParameter
    · exact .inr (.inr (known (by simp [Expr.free, isFree, isParameter])))
  | @closure _ parameters body captured closed known =>
    cases calls
    refine ⟨closed, fun name isFree => ?_⟩
    by_cases isParameter : name ∈ parameters
    · exact .inl isParameter
    · exact .inr (.inl (known (by simp [Expr.free, isFree, isParameter])))

theorem get?_frame_cases {value : Value} (found : (callable.frame arguments caller).get? name = some value) :
    value ∈ arguments ∨ callable.captured.get? name = some value ∨ caller.get? name = some value := by
  rw [get?_frame, Option.or_eq_some_iff, Option.or_eq_some_iff] at found
  rcases found with passed | ⟨-, captured | ⟨-, seen⟩⟩
  · obtain ⟨before, after, same, -⟩ := List.lookup_eq_some_iff.mp passed
    have isOne : (name, value) ∈ (callable.parameters.zip arguments).reverse := by simp [same]
    exact .inl (List.of_mem_zip (List.mem_reverse.mp isOne)).2
  · exact .inr (.inl captured)
  · exact .inr (.inr seen)

theorem mem_names_frame (matching : callable.parameters.length = arguments.length)
    (known : name ∈ callable.parameters ∨ name ∈ callable.captured.names ∨ name ∈ caller.names) :
    name ∈ (callable.frame arguments caller).names := by
  rw [Frame.mem_names, ← Option.isSome_iff_exists, get?_frame, Option.isSome_or, Option.isSome_or,
    Bool.or_eq_true, Bool.or_eq_true]
  refine known.imp ?_ (.imp ?_ ?_)
  · intro isParameter
    rw [← List.map_fst_zip (Nat.le_of_eq matching)] at isParameter
    obtain ⟨entry, isOne, rfl⟩ := List.mem_map.mp isParameter
    exact List.lookup_isSome_iff.mpr ⟨entry, List.mem_reverse.mpr isOne, beq_self_eq_true entry.1⟩
  · intro captured
    exact Option.isSome_iff_exists.mpr ((Frame.mem_names _ _).mp captured)
  · intro seen
    exact Option.isSome_iff_exists.mpr ((Frame.mem_names _ _).mp seen)

theorem closed_frame (known : callable.ScopedIn caller) (closed : caller.Closed)
    (passed : ∀ value ∈ arguments, value.ClosedIn caller)
    (matching : callable.parameters.length = arguments.length) :
    (callable.frame arguments caller).Closed := by
  have fromCaller : caller.names ⊆ (callable.frame arguments caller).names :=
    fun name seen => mem_names_frame matching (.inr (.inr seen))
  have fromCaptured : callable.captured.names ⊆ (callable.frame arguments caller).names :=
    fun name captured => mem_names_frame matching (.inr (.inl captured))
  intro name value found
  rcases get?_frame_cases found with isArgument | captured | seen
  · exact (passed value isArgument).mono fromCaller
  · exact (known.captured name value captured).mono fromCaptured
  · exact (closed name value seen).mono fromCaller

end Callable

theorem Value.closedIn_capture {value : Value} {final : Frame Value} (closed : value.ClosedIn final)
    (finalClosed : final.Closed) (caller : Frame Value) : (value.capture final).ClosedIn caller := by
  cases closed with
  | integer => exact .integer
  | function known => exact .closure finalClosed known
  | closure captured known => exact .closure captured known

/-- No name is missing. The frame stays closed and keeps its names, and results are closed in it. -/
def scoping : Contract where
  sound session := session.frame.Closed
  after start final := final.frame.Closed ∧ start.frame.names ⊆ final.frame.names
  good := Value.ClosedIn
  admits frame expr := expr.free ⊆ frame.names
  fails _ error final := (∀ name, error ≠ .undefined name) ∧ final.frame.Closed
  after_self closed := ⟨closed, List.Subset.refl _⟩
  after_trans first second := ⟨second.1, List.Subset.trans first.2 second.2⟩
  sound_after _ reached := reached.1
  good_after reached fits := fits.mono reached.2
  admits_after reached knows := List.Subset.trans knows reached.2
  admits_part isPart knows := List.Subset.trans (Expr.free_subset_of_mem_parts _ isPart) knows
  fails_after _ fails := fails
  good_integer := .integer
  good_function knows := .function knows
  good_held closed found := closed _ _ found
  after_set closed _ fits := ⟨closed.insert fits _, Frame.names_subset_insert _ _ _⟩
  fails_here closed other _ := ⟨other, closed⟩
  fails_undefined _ knows missing := by
    obtain ⟨value, found⟩ := (Frame.mem_names _ _).mp (knows List.mem_cons_self)
    cases missing.symm.trans found
  fails_refused closed _ := ⟨by simp, closed⟩
  sound_opened closed _ := closed
  after_closed _ reached := reached
  fails_closed _ fails := fails

def Evaluator.KeepsScope (runBody : Evaluator) : Prop :=
  ∀ body session, session.frame.Closed → body.free ⊆ session.frame.names →
    scoping.Meets session Value.ClosedIn (runBody body session) (runBody body session)

section Bodies

variable {runBody : Evaluator}

theorem Callable.run_scoped (bodies : runBody.KeepsScope) {callable : Callable} {arguments : List Value}
    {caller : Session} (inScope : callable.ScopedIn caller.frame) (closed : caller.frame.Closed)
    (matching : callable.parameters.length = arguments.length)
    (passed : ∀ value ∈ arguments, value.ClosedIn caller.frame) :
    scoping.Meets caller Value.ClosedIn (callable.run runBody arguments caller)
      (callable.run runBody arguments caller) := by
  have body := bodies callable.body { caller with frame := callable.frame arguments caller.frame }
    (closed_frame inScope closed passed matching)
    (fun name isFree => mem_names_frame matching (inScope.body name isFree))
  rw [Callable.run]
  generalize runBody callable.body { caller with frame := callable.frame arguments caller.frame } = outcome
    at body
  -- The caller's frame comes back as it was, so only the result is left to look at.
  cases body with
  | error fails => exact .error ⟨fails.1, closed⟩
  | ok reached fits => exact .ok ⟨closed, List.Subset.refl _⟩ (Value.closedIn_capture fits reached.1 _)

theorem scoping_runs (bodies : runBody.KeepsScope) : scoping.Runs runBody runBody := by
  intro callable arguments caller ready
  obtain ⟨value, calls, fits⟩ := ready.callee
  exact callable.run_scoped bodies (Callable.scopedIn_of_closedIn fits calls) ready.sound ready.matching ready.passed

theorem Expr.evalWith_scoped (bodies : runBody.KeepsScope) : Evaluator.KeepsScope (evalWith runBody) :=
  fun expr => Contract.accepts_evalWith (scoping_runs bodies) expr

theorem Expr.evalWithin_scoped (room : Nat) : Evaluator.KeepsScope (evalWithin room) :=
  evalWithin_induct (motive := Evaluator.KeepsScope) (fun _ _ closed _ => .error ⟨by simp, closed⟩)
    (fun _ => evalWith_scoped) room

end Bodies

/-- In a closed frame that has the free names of an expression, evaluating it finds every name. However it
ends, the frame is closed, and a result is closed in it. -/
theorem eval_scoped (session : Session) (expr : Expr) (closed : session.frame.Closed)
    (knows : expr.free ⊆ session.frame.names) :
    (∀ name, (session.eval expr).result ≠ .error (.undefined name)) ∧
      (session.eval expr).session.frame.Closed ∧
      ∀ value, (session.eval expr).result = .ok value → value.ClosedIn (session.eval expr).session.frame := by
  have inScope : scoping.Meets session Value.ClosedIn (session.eval expr) (session.eval expr) :=
    Expr.evalWithin_scoped _ expr session closed knows
  generalize session.eval expr = outcome at inScope ⊢
  cases inScope with
  | ok reached fits => exact ⟨by simp, reached.1, fun _ same => Except.ok.inj same ▸ fits⟩
  | error fails => exact ⟨by simpa using fails.1, fails.2, by simp⟩

/-- `compose = |f g| |x| f(g(x))`, and an `add` that captured an `a` which the frame does not have. -/
def composing : Frame Value :=
  ⟨[("add", .closure ["b"] (.binary .add (.name "a") (.name "b")) ⟨[("a", .integer 1)]⟩),
    ("compose", .function ["f", "g"]
      (.function ["x"] (.call (.name "f") [.call (.name "g") [.name "x"]])))]⟩

theorem composing_closed : composing.Closed := by
  intro name value found
  simp only [composing, Frame.get?, Frame.lookup_cons, List.lookup_nil] at found
  split at found
  · cases found
    refine .closure ?_ (by decide)
    intro name value found
    simp only [Frame.get?, Frame.lookup_cons, List.lookup_nil] at found
    split at found
    · cases found
      exact .integer
    · cases found
  · split at found
    · cases found
      exact .function (by decide)
    · cases found

/-- `compose(add add)` comes to a closure that holds closures. -/
def composed : Expr :=
  .call (.name "compose") [.name "add", .name "add"]

theorem eval_scoped_composed :
    composing.Closed ∧ composed.free ⊆ composing.names ∧
      ∃ parameters body captured,
        (Session.eval { frame := composing } composed).result = .ok (.closure parameters body captured) ∧
        captured.Closed := by
  refine ⟨composing_closed, by decide, _, _, _, rfl, ?_⟩
  have closed := (eval_scoped { frame := composing } composed composing_closed (by decide)).2.2 _ rfl
  cases closed with
  | closure captured _ => exact captured

end LineLang
