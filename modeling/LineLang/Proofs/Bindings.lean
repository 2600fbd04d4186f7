import Mathlib.Logic.Function.Basic
import LineLang.Proofs.Contract
import LineLang.Proofs.Frame
import LineLang.Proofs.Prelude

/-! Bindings stay maps.

Nothing but inserting changes a frame, so the frame of a session is sorted. The same holds of every frame that a
closure captured, however deep, because what is captured is a frame that was in use. The frame of a call comes from
three sources. The order in which two of them are gone through does not matter, because they are maps.
-/

set_option autoImplicit false

namespace LineLang

namespace Callable

/-- The argument that the last parameter of a name takes. -/
def argument? (callable : Callable) (arguments : List Value) (name : String) : Option Value :=
  (callable.parameters.zip arguments).reverse.lookup name

theorem sorted_frame (callable : Callable) (arguments : List Value) {caller : Frame Value} (sorted : caller.Sorted) :
    (callable.frame arguments caller).Sorted :=
  (sorted.insertAll _).insertAll _

theorem lists_frame (callable : Callable) (arguments : List Value) {caller : Frame Value} (sorted : caller.Sorted) :
    Lists (callable.frame arguments caller).entries fun name =>
      (callable.argument? arguments name).or ((callable.captured.get? name).or (caller.get? name)) := by
  have lists := (callable.sorted_frame arguments sorted).lists
  refine ⟨lists.ordered, fun name value => ?_⟩
  rw [lists.mem_iff, get?_frame, argument?]

theorem fill_eq_frame (callable : Callable) (arguments : List Value) {caller : Frame Value}
    (capturedSorted : callable.captured.Sorted) (callerSorted : caller.Sorted) {captured seen : List (String × Value)}
    (capturedPerm : captured.Perm callable.captured.entries) (callerPerm : seen.Perm caller.entries) :
    ((Frame.empty.insertAll (callable.parameters.zip arguments)).fill captured).fill seen =
      callable.frame arguments caller := by
  have sorted := (Frame.sorted_empty.insertAll (callable.parameters.zip arguments)).fill captured
  refine (sorted.fill seen).ext (callable.sorted_frame arguments callerSorted) fun name => ?_
  rw [Frame.get?_fill, Frame.get?_fill, Frame.get?_insertAll, Frame.lookup_of_perm capturedSorted capturedPerm,
    Frame.lookup_of_perm callerSorted callerPerm, get?_frame, Option.or_assoc]
  simp [Frame.get?, Frame.empty]

end Callable

/-- Every frame in the value is sorted. -/
inductive Value.Tidy : Value → Prop where
  | integer {value} : Tidy (.integer value)
  | function {parameters body} : Tidy (.function parameters body)
  | closure {parameters body captured} : captured.Sorted → (∀ entry ∈ captured.entries, Tidy entry.2) →
      Tidy (.closure parameters body captured)

structure Frame.Tidy (frame : Frame Value) : Prop where
  sorted : frame.Sorted
  values : ∀ entry ∈ frame.entries, entry.2.Tidy

namespace Frame

variable {frame : Frame Value}

theorem tidy_empty : (empty : Frame Value).Tidy :=
  ⟨sorted_empty, List.forall_mem_nil _⟩

theorem Tidy.get? (tidy : frame.Tidy) {name : String} {value : Value} (found : frame.get? name = some value) :
    value.Tidy :=
  tidy.values (name, value) ((tidy.sorted.lists.mem_iff name value).mpr found)

theorem Tidy.insert (tidy : frame.Tidy) (name : String) {value : Value} (fits : value.Tidy) :
    (frame.insert name value).Tidy := by
  refine ⟨tidy.sorted.insert name value, fun entry isOne => ?_⟩
  rcases mem_insertEntry name value frame.entries entry isOne with rfl | old
  · exact fits
  · exact tidy.values entry old

theorem Tidy.insertAll (tidy : frame.Tidy) {entries : List (String × Value)}
    (fit : ∀ entry ∈ entries, entry.2.Tidy) : (frame.insertAll entries).Tidy := by
  induction entries generalizing frame with
  | nil => exact tidy
  | cons entry rest ih =>
    obtain ⟨first, others⟩ := List.forall_mem_cons.mp fit
    exact ih (tidy.insert entry.1 first) others

end Frame

namespace Callable

theorem captured_tidy {callable : Callable} {value : Value} (tidy : value.Tidy)
    (calls : value.callable? = some callable) : callable.captured.Tidy := by
  cases tidy with
  | integer => cases calls
  | function => cases calls; exact Frame.tidy_empty
  | closure sorted values => cases calls; exact ⟨sorted, values⟩

theorem frame_tidy {callable : Callable} {arguments : List Value} {caller : Frame Value}
    (captured : callable.captured.Tidy) (passed : ∀ value ∈ arguments, value.Tidy) (tidy : caller.Tidy) :
    (callable.frame arguments caller).Tidy := by
  refine Frame.Tidy.insertAll (tidy.insertAll ?_) ?_
  · intro entry isOne
    exact captured.values entry (List.mem_reverse.mp isOne)
  · intro entry isOne
    exact passed entry.2 (List.of_mem_zip isOne).2

end Callable

theorem Value.Tidy.capture {value : Value} {frame : Frame Value} (fits : value.Tidy) (tidy : frame.Tidy) :
    (value.capture frame).Tidy := by
  cases fits with
  | integer => exact .integer
  | function => exact .closure tidy.sorted tidy.values
  | closure sorted values => exact .closure sorted values

namespace Outcome

variable {ε δ α β : Type} {good : α → Prop} {goodNext : β → Prop}

structure Tidy (outcome : Outcome ε α) (good : α → Prop) : Prop where
  frame : outcome.session.frame.Tidy
  result : ∀ value, outcome.result = .ok value → good value

theorem Tidy.ok {value : α} {session : Session} (frame : session.frame.Tidy) (result : good value) :
    (⟨.ok value, session⟩ : Outcome ε α).Tidy good :=
  ⟨frame, fun _ same => Except.ok.inj same ▸ result⟩

theorem Tidy.error {error : ε} {session : Session} (frame : session.frame.Tidy) :
    (⟨.error error, session⟩ : Outcome ε α).Tidy good :=
  ⟨frame, fun _ same => by cases same⟩

theorem Tidy.bind {outcome : Outcome ε α} {next : α → Session → Outcome ε β} (first : outcome.Tidy good)
    (goesOn : ∀ value session, session.frame.Tidy → good value → (next value session).Tidy goodNext) :
    (outcome.bind next).Tidy goodNext := by
  obtain ⟨result, session⟩ := outcome
  cases result with
  | ok value => exact goesOn value session first.frame (first.result value rfl)
  | error error => exact .error first.frame

theorem Tidy.mapError {outcome : Outcome ε α} (tidy : outcome.Tidy good) (name : ε → δ) :
    (outcome.mapError name).Tidy good := by
  obtain ⟨result, session⟩ := outcome
  cases result with
  | ok value => exact .ok tidy.frame (tidy.result value rfl)
  | error error => exact .error tidy.frame

end Outcome

def Evaluator.KeepsTidy (runBody : Evaluator) : Prop :=
  ∀ body session, session.frame.Tidy → (runBody body session).Tidy Value.Tidy

section Bodies

variable {runBody : Evaluator}

theorem Callable.run_tidy (bodies : runBody.KeepsTidy) {callable : Callable} {arguments : List Value}
    {caller : Session} (captured : callable.captured.Tidy) (passed : ∀ value ∈ arguments, value.Tidy)
    (tidy : caller.frame.Tidy) : (callable.run runBody arguments caller).Tidy Value.Tidy := by
  have body := bodies callable.body { caller with frame := callable.frame arguments caller.frame }
    (frame_tidy captured passed tidy)
  rw [Callable.run]
  generalize runBody callable.body { caller with frame := callable.frame arguments caller.frame } = outcome
    at body
  obtain ⟨result, final⟩ := outcome
  -- The caller's frame comes back on a failure too. A function takes the frame of the body along.
  cases result with
  | error error => exact .error tidy
  | ok value => exact .ok tidy ((body.result value rfl).capture body.frame)

theorem Session.enter_tidy {session : Session} (tidy : session.frame.Tidy) : session.enter.Tidy fun _ => True := by
  rw [Session.enter]
  split
  · exact .error tidy
  · exact .ok tidy trivial

def tidying : Contract where
  sound session := session.frame.Tidy
  after _ final := final.frame.Tidy
  good _ value := value.Tidy
  admits _ _ := True
  fails _ _ final := final.frame.Tidy
  after_self tidy := tidy
  after_trans _ tidy := tidy
  sound_after _ tidy := tidy
  good_after _ fits := fits
  admits_after _ _ := trivial
  admits_part _ _ := trivial
  fails_after _ tidy := tidy
  good_integer := .integer
  good_function _ := .function
  good_held tidy found := tidy.get? found
  after_set tidy _ fits := tidy.insert _ fits
  fails_here tidy _ _ := tidy
  fails_undefined tidy _ _ := tidy
  fails_refused tidy _ := tidy
  sound_opened tidy _ := tidy
  after_closed _ tidy := tidy
  fails_closed _ tidy := tidy

theorem tidying_runs (bodies : runBody.KeepsTidy) : tidying.Runs runBody runBody := by
  intro callable arguments caller ready
  obtain ⟨value, calls, fits⟩ := ready.callee
  have ran := callable.run_tidy bodies (Callable.captured_tidy fits calls) ready.passed ready.sound
  exact .of_result (fun value comes => ⟨ran.frame, ran.result value comes⟩) fun _ _ => ran.frame

theorem Expr.evalWith_tidy (bodies : runBody.KeepsTidy) (expr : Expr) (session : Session)
    (tidy : session.frame.Tidy) : (expr.evalWith runBody session).Tidy Value.Tidy := by
  have meets := Contract.accepts_evalWith (tidying_runs bodies) expr session tidy trivial
  generalize expr.evalWith runBody session = outcome at meets
  cases meets with
  | ok tidy fits => exact .ok tidy fits
  | error tidy => exact .error tidy

theorem Expr.evalWithin_tidy (room : Nat) : Evaluator.KeepsTidy (evalWithin room) :=
  evalWithin_induct (motive := Evaluator.KeepsTidy) (fun _ _ tidy => .error tidy)
    (fun _ bodies => evalWith_tidy bodies) room

end Bodies

/-- The value is in the frame, or in a frame that a closure there captured, however deep. -/
inductive Frame.Holds (frame : Frame Value) : Value → Prop where
  | entry {name value} : (name, value) ∈ frame.entries → Holds frame value
  | captured {parameters body captured name value} : Holds frame (.closure parameters body captured) →
      (name, value) ∈ captured.entries → Holds frame value

theorem Frame.Holds.tidy {frame : Frame Value} {value : Value} (holds : frame.Holds value) (tidy : frame.Tidy) :
    value.Tidy := by
  induction holds with
  | entry isOne => exact tidy.values _ isOne
  | captured _ isOne ih =>
    cases ih with
    | closure _ values => exact values _ isOne

namespace Session

variable {session : Session}

theorem eval_tidy (tidy : session.frame.Tidy) (expr : Expr) : (session.eval expr).Tidy Value.Tidy :=
  Expr.evalWithin_tidy _ expr session tidy

theorem evalLine_tidy (tidy : session.frame.Tidy) (text : String) : (session.evalLine text).Tidy Value.Tidy := by
  rw [evalLine]
  cases parseLine text with
  | error error => exact .error tidy
  | ok expr => exact (eval_tidy tidy expr).mapError LineError.eval

theorem load_tidy (tidy : session.frame.Tidy) (texts : List String) : (session.load texts).Tidy fun _ => True := by
  induction texts generalizing session with
  | nil => exact .ok tidy trivial
  | cons text rest ih =>
    rw [load]
    exact (evalLine_tidy tidy text).bind fun _ _ tidy _ => ih tidy

theorem lists_set (sorted : session.frame.Sorted) (name : String) (value : Value) :
    Lists (session.set name value).bindings (Function.update session.get? name (some value)) := by
  have lists := (sorted.insert name value).lists
  refine ⟨lists.ordered, fun other held => ?_⟩
  rw [Function.update_apply]
  exact (lists.mem_iff other held).trans (by rw [Frame.get?_insert]; rfl)

end Session

mutual

/-- A session that a program can come to. A copy of a session is the session itself, so the program can go on with it
more than once. The last three ways are those within a line: a part of an expression was evaluated, a call was entered,
or the body of a function starts. -/
inductive Session.Reachable : Session → Prop where
  | fresh (limit : Nat) : Session.Reachable { limit }
  | line {session} (text : String) : Session.Reachable session → Session.Reachable (session.evalLine text).session
  | prelude {session} : Session.Reachable session → Session.Reachable (Prelude.load session).session
  | set {session value} (name : String) : Session.Reachable session → Value.Available value →
      Session.Reachable (session.set name value)
  | part {session} (expr : Expr) : Session.Reachable session → Session.Reachable (session.eval expr).session
  | enter {session} : Session.Reachable session → Session.Reachable session.enter.session
  | body {caller callee callable arguments} : Session.Reachable caller → Value.Available callee →
      callee.callable? = some callable → (∀ value ∈ arguments, Value.Available value) →
      Session.Reachable { caller with frame := callable.frame arguments caller.frame }

/-- A value that a program can come by: made by hand, or taken from a session, be it the one it is used in or
another. -/
inductive Value.Available : Value → Prop where
  | integer (value : Int64) : Value.Available (.integer value)
  | function (parameters : List String) (body : Expr) : Value.Available (.function parameters body)
  | closure (parameters : List String) (body : Expr) {entries : List (String × Value)} :
      (∀ entry ∈ entries, Value.Available entry.2) →
      Value.Available (.closure parameters body (Frame.empty.insertAll entries))
  | held {session name value} : Session.Reachable session → session.get? name = some value → Value.Available value
  | result {session expr value} : Session.Reachable session → (session.eval expr).result = .ok value →
      Value.Available value

end

mutual

theorem Session.Reachable.tidy {session : Session} : session.Reachable → session.frame.Tidy
  | .fresh _ => Frame.tidy_empty
  | .line text reachable => (Session.evalLine_tidy reachable.tidy text).frame
  | .prelude reachable => (Session.load_tidy reachable.tidy Prelude.definitions).frame
  | .set name reachable available => reachable.tidy.insert name available.tidy
  | .part expr reachable => (Session.eval_tidy reachable.tidy expr).frame
  | .enter reachable => (Session.enter_tidy reachable.tidy).frame
  | .body reachable available calls passed =>
    Callable.frame_tidy (Callable.captured_tidy available.tidy calls)
      (fun value isOne => (passed value isOne).tidy) reachable.tidy

theorem Value.Available.tidy {value : Value} : value.Available → value.Tidy
  | .integer _ => .integer
  | .function _ _ => .function
  | .closure parameters body values =>
    have tidy := Frame.tidy_empty.insertAll fun entry isOne => (values entry isOne).tidy
    .closure tidy.sorted tidy.values
  | .held reachable found => reachable.tidy.get? found
  | .result reachable comes => (Session.eval_tidy reachable.tidy _).result _ comes

end

/-- In every session that can be reached, bindings are listed in the order of the bytes of their names, each name once,
and are what is found; setting a name changes the list at that name only. What a closure in the session captured is
such a list too. So is the frame of a call, where a name has the value of its last parameter, else the one that was
captured, else the caller's, in whatever order the two maps are gone through to fill in what is missing. -/
theorem bindings_stay_maps :
    (∀ session : Session, session.Reachable →
      Lists session.bindings session.get? ∧
      (∀ name value, Lists (session.set name value).bindings (Function.update session.get? name (some value))) ∧
      ∀ parameters body captured, session.frame.Holds (.closure parameters body captured) →
        Lists captured.entries captured.get?) ∧
    ∀ (caller : Session) (callee : Value) (callable : Callable) (arguments : List Value),
      caller.Reachable → callee.Available → callee.callable? = some callable →
      (Lists (callable.frame arguments caller.frame).entries fun name =>
        (callable.argument? arguments name).or ((callable.captured.get? name).or (caller.get? name))) ∧
      ∀ captured seen, captured.Perm callable.captured.entries → seen.Perm caller.bindings →
        ((Frame.empty.insertAll (callable.parameters.zip arguments)).fill captured).fill seen =
          callable.frame arguments caller.frame := by
  refine ⟨?_, ?_⟩
  · intro session reachable
    have tidy := reachable.tidy
    refine ⟨tidy.sorted.lists, Session.lists_set tidy.sorted, ?_⟩
    intro parameters body captured holds
    cases holds.tidy tidy with
    | closure sorted _ => exact sorted.lists
  · intro caller callee callable arguments reachable available calls
    have callerSorted := reachable.tidy.sorted
    have capturedSorted := (Callable.captured_tidy available.tidy calls).sorted
    refine ⟨callable.lists_frame arguments callerSorted, ?_⟩
    intro captured seen capturedPerm callerPerm
    exact callable.fill_eq_frame arguments capturedSorted callerSorted capturedPerm callerPerm

/-- `|a| |b| a + b` -/
def adding : Value :=
  .function ["a"] (.function ["b"] (.binary .add (.name "a") (.name "b")))

/-- `|f f| |x| f(x)` -/
def keeping : Value :=
  .function ["f", "f"] (.function ["x"] (.call (.name "f") [.name "x"]))

/-- The session after `keep(0 add(1))` was kept: a closure in a closure. -/
def nested : Session :=
  let deep : Value := .closure ["b"] (.binary .add (.name "a") (.name "b"))
    ⟨[("a", .integer 1), ("add", adding), ("keep", keeping)]⟩
  let kept : Value := .closure ["x"] (.call (.name "f") [.name "x"])
    ⟨[("add", adding), ("f", deep), ("keep", keeping)]⟩
  { frame := ⟨[("add", adding), ("keep", keeping), ("kept", kept)]⟩ }

theorem nested_reachable : nested.Reachable := by
  have first : (Session.evalLine {} "add = |a| |b| a + b\n").session = { frame := ⟨[("add", adding)]⟩ } := by
    have parses : (parseLine "add = |a| |b| a + b\n").toOption =
        some (.assign "add" (.function ["a"] (.function ["b"] (.binary .add (.name "a") (.name "b"))))) := by
      decide +kernel
    rw [Session.evalLine_of_parses parses]
    rfl
  have second : (Session.evalLine { frame := ⟨[("add", adding)]⟩ } "keep = |f f| |x| f(x)\n").session =
      { frame := ⟨[("add", adding), ("keep", keeping)]⟩ } := by
    have parses : (parseLine "keep = |f f| |x| f(x)\n").toOption =
        some (.assign "keep" (.function ["f", "f"] (.function ["x"] (.call (.name "f") [.name "x"])))) := by
      decide +kernel
    rw [Session.evalLine_of_parses parses]
    rfl
  have third : (Session.evalLine { frame := ⟨[("add", adding), ("keep", keeping)]⟩ }
      "kept = keep(0 add(1))\n").session = nested := by
    have parses : (parseLine "kept = keep(0 add(1))\n").toOption =
        some (.assign "kept" (.call (.name "keep") [.integer 0, .call (.name "add") [.integer 1]])) := by
      decide +kernel
    rw [Session.evalLine_of_parses parses]
    rfl
  rw [← third, ← second, ← first]
  exact .line _ (.line _ (.line _ (.fresh _)))

/-- A closure whose parameters have one name, which hides what it captured under that name. -/
def shadowing : Callable :=
  ⟨["f", "f"], .name "g", Frame.empty.insertAll [("g", .integer 8), ("f", .integer 7)]⟩

theorem bindings_stay_maps_nested :
    (nested.Reachable ∧ Lists nested.bindings nested.get? ∧
      ∃ parameters body captured, nested.frame.Holds (.closure parameters body captured) ∧
        captured.get? "a" = some (.integer 1) ∧ Lists captured.entries captured.get?) ∧
    ∃ callee : Value, callee.Available ∧ callee.callable? = some shadowing ∧
      shadowing.argument? [.integer 1, .integer 2] "f" = some (.integer 2) ∧
      ((Frame.empty.insertAll (shadowing.parameters.zip [.integer 1, .integer 2])).fill
          [("g", .integer 8), ("f", .integer 7)]).fill nested.bindings.reverse =
        shadowing.frame [.integer 1, .integer 2] nested.frame := by
  obtain ⟨sessions, calls⟩ := bindings_stay_maps
  obtain ⟨lists, -, closures⟩ := sessions nested nested_reachable
  have outer : nested.frame.Holds (.closure ["x"] (.call (.name "f") [.name "x"]) _) :=
    .entry (List.mem_cons_of_mem _ (List.mem_cons_of_mem _ List.mem_cons_self))
  have inner := outer.captured (List.mem_cons_of_mem _ List.mem_cons_self)
  have available : (Value.closure ["f", "f"] (.name "g") shadowing.captured).Available := by
    refine .closure _ _ (List.forall_mem_cons.mpr ⟨.integer 8, ?_⟩)
    exact List.forall_mem_cons.mpr ⟨.integer 7, List.forall_mem_nil _⟩
  have captured : [("g", Value.integer 8), ("f", .integer 7)].Perm shadowing.captured.entries := .swap _ _ _
  have frames := (calls nested _ shadowing [.integer 1, .integer 2] nested_reachable available rfl).2
  exact ⟨⟨nested_reachable, lists, _, _, _, inner, rfl, closures _ _ _ inner⟩, _, available, rfl, rfl,
    frames _ _ captured (List.reverse_perm _)⟩

end LineLang
