import LineLang.Script
import LineLang.Proofs.Scan.Coverage
import LineLang.Proofs.Text.Lines

/-! Scripts that are put together from parts.

A script whose first part ends a line runs as its parts do, one after the other: the second part starts in the
session that the first one leaves, if that one does not fail, and only the numbers of its lines show where it stands.
-/

set_option autoImplicit false

namespace LineLang

theorem Session.runLine_outcome (session : Session) (tracing : Bool) (line : String) :
    (session.runLine tracing line).outcome = session.evalLine (Text.dropLineEnds line ++ "\n") := by
  unfold Session.runLine Session.evalLine parseLine
  cases Token.tokenize (Text.dropLineEnds line ++ "\n") with
  | error stray => rfl
  | ok tokens =>
    dsimp only
    cases LineLang.parse tokens <;> rfl

theorem Session.runLine_shown (session : Session) (line : String) : (session.runLine false line).shown = [] := by
  unfold Session.runLine
  split
  · rfl
  · split <;> rfl

namespace Script

def Failure.later (count : Nat) (failure : Failure) : Failure :=
  { failure with line := failure.line + count }

/-- What the lines evaluate to, in order, up to the first that fails. -/
def results (session : Session) : List String → List Value
  | [] => []
  | line :: rest =>
    if Text.isBlank line then results session rest
    else
      match session.evalLine (Text.dropLineEnds line ++ "\n") with
      | ⟨.error _, _⟩ => []
      | ⟨.ok value, session⟩ => value :: results session rest

section Lines

variable {tracing : Bool} {number : Nat} {session after : Session} {line : String} {rest shown : List String}

theorem runLines_blank (blank : Text.isBlank line = true) :
    runLines tracing number session (line :: rest) = runLines tracing (number + 1) session rest := by
  rw [runLines, if_pos blank]

theorem runLines_error {error : LineError} (visible : Text.isBlank line ≠ true)
    (runs : session.runLine tracing line = ⟨shown, .error error, after⟩) :
    runLines tracing number session (line :: rest) = ⟨shown, some ⟨number, error⟩, after⟩ := by
  rw [runLines, if_neg visible, runs]

theorem runLines_ok {value : Value} (visible : Text.isBlank line ≠ true)
    (runs : session.runLine tracing line = ⟨shown, .ok value, after⟩) :
    runLines tracing number session (line :: rest) =
      { runLines tracing (number + 1) after rest with
        printed := shown ++ value.display :: (runLines tracing (number + 1) after rest).printed } := by
  rw [runLines, if_neg visible, runs]

end Lines

/-- A blank line is passed over, and any other one fails or gives a value. This is all a script can meet, so what
holds of no lines and is kept in these three cases holds of every run. -/
theorem runLines_induct (tracing : Bool) {motive : Nat → Session → List String → Prop}
    (nil : ∀ number session, motive number session [])
    (blank : ∀ number session line rest, Text.isBlank line = true → motive (number + 1) session rest →
      motive number session (line :: rest))
    (error : ∀ number session line rest shown error after, Text.isBlank line ≠ true →
      session.runLine tracing line = ⟨shown, .error error, after⟩ → motive number session (line :: rest))
    (ok : ∀ number session line rest shown value after, Text.isBlank line ≠ true →
      session.runLine tracing line = ⟨shown, .ok value, after⟩ → motive (number + 1) after rest →
      motive number session (line :: rest))
    (number : Nat) (session : Session) (lines : List String) : motive number session lines := by
  induction lines generalizing number session with
  | nil => exact nil number session
  | cons line rest ih =>
    by_cases isBlank : Text.isBlank line = true
    · exact blank number session line rest isBlank (ih _ _)
    · rcases runs : session.runLine tracing line with ⟨shown, result, after⟩
      cases result with
      | error fault => exact error number session line rest shown fault after isBlank runs
      | ok value => exact ok number session line rest shown value after isBlank runs (ih _ _)

section Runs

variable (tracing : Bool)

theorem runLines_add (number count : Nat) (session : Session) (lines : List String) :
    runLines tracing (number + count) session lines =
      { runLines tracing number session lines with
        failure := (runLines tracing number session lines).failure.map (Failure.later count) } := by
  induction number, session, lines using runLines_induct tracing with
  | nil number session => rfl
  | blank number session line rest isBlank ih =>
    rw [runLines_blank isBlank, runLines_blank isBlank, Nat.add_right_comm, ih]
  | error number session line rest shown error after visible runs =>
    rw [runLines_error visible runs, runLines_error visible runs]
    rfl
  | ok number session line rest shown value after visible runs ih =>
    rw [runLines_ok visible runs, runLines_ok visible runs, Nat.add_right_comm, ih]

theorem runLines_append {number : Nat} {session : Session} {lines : List String}
    (succeeds : (runLines tracing number session lines).failure = none) (others : List String) :
    let before := runLines tracing number session lines
    let after := runLines tracing (number + lines.length) before.session others
    runLines tracing number session (lines ++ others) =
      ⟨before.printed ++ after.printed, after.failure, after.session⟩ := by
  induction number, session, lines using runLines_induct tracing with
  | nil number session => rfl
  | blank number session line rest isBlank ih =>
    rw [runLines_blank isBlank] at succeeds
    have shifted := ih succeeds
    rw [Nat.add_right_comm] at shifted
    rw [List.cons_append, runLines_blank isBlank, runLines_blank isBlank, List.length_cons]
    exact shifted
  | error number session line rest shown error after visible runs =>
    rw [runLines_error visible runs] at succeeds
    cases succeeds
  | ok number session line rest shown value after visible runs ih =>
    rw [runLines_ok visible runs] at succeeds
    have shifted := ih succeeds
    rw [Nat.add_right_comm] at shifted
    rw [List.cons_append, runLines_ok visible runs, runLines_ok visible runs, List.length_cons, shifted]
    simp only [List.append_assoc, List.cons_append]
    rfl

/-- A run that fails does so at one line. Those before it have run without a failure. -/
theorem exists_failing_line {number : Nat} {session : Session} {lines : List String} {failure : Failure}
    (fails : (runLines tracing number session lines).failure = some failure) :
    ∃ before line rest shown error after, lines = before ++ line :: rest ∧ Text.isBlank line ≠ true ∧
      (runLines tracing number session before).failure = none ∧
      (runLines tracing number session before).session.runLine tracing line = ⟨shown, .error error, after⟩ ∧
      runLines tracing number session lines =
        ⟨(runLines tracing number session before).printed ++ shown, some ⟨number + before.length, error⟩, after⟩ := by
  induction number, session, lines using runLines_induct tracing with
  | nil number session => cases fails
  | blank number session line rest isBlank ih =>
    rw [runLines_blank isBlank] at fails
    obtain ⟨before, failing, others, shown, error, after, rfl, visible, succeeds, runs, whole⟩ := ih fails
    refine ⟨line :: before, failing, others, shown, error, after, rfl, visible, ?_, ?_, ?_⟩
    · rw [runLines_blank isBlank, succeeds]
    · rw [runLines_blank isBlank, runs]
    · rw [runLines_blank isBlank, runLines_blank isBlank, whole, List.length_cons, Nat.add_assoc, Nat.add_comm 1]
  | error number session line rest shown error after visible runs =>
    exact ⟨[], line, rest, shown, error, after, rfl, visible, rfl, runs, runLines_error visible runs⟩
  | ok number session line rest shown value after visible runs ih =>
    rw [runLines_ok visible runs] at fails
    obtain ⟨before, failing, others, shown, error, last, rfl, otherVisible, succeeds, otherRuns, whole⟩ := ih fails
    refine ⟨line :: before, failing, others, shown, error, last, rfl, otherVisible, ?_, ?_, ?_⟩
    · rw [runLines_ok visible runs, succeeds]
    · rw [runLines_ok visible runs, otherRuns]
    · rw [runLines_ok visible runs, runLines_ok visible runs, whole, List.length_cons, Nat.add_assoc, Nat.add_comm 1]
      simp only [List.append_assoc, List.cons_append]

theorem failure_line_bounds {number : Nat} {session : Session} {lines : List String} {failure : Failure}
    (fails : (runLines tracing number session lines).failure = some failure) :
    number ≤ failure.line ∧ failure.line < number + lines.length := by
  obtain ⟨before, line, rest, shown, error, after, rfl, -, -, -, whole⟩ := exists_failing_line tracing fails
  rw [whole] at fails
  cases fails
  simp only [List.length_append, List.length_cons]
  omega

theorem runLines_append_of_failure {number : Nat} {session : Session} {lines : List String} {failure : Failure}
    (fails : (runLines tracing number session lines).failure = some failure) (others : List String) :
    runLines tracing number session (lines ++ others) = runLines tracing number session lines := by
  obtain ⟨before, line, rest, shown, error, after, rfl, visible, succeeds, runs, whole⟩ :=
    exists_failing_line tracing fails
  rw [whole, List.append_assoc, List.cons_append, runLines_append tracing succeeds, runLines_error visible runs]

theorem runLines_of_blank {lines : List String} (blank : ∀ line ∈ lines, Text.isBlank line = true) (number : Nat)
    (session : Session) : runLines tracing number session lines = ⟨[], none, session⟩ := by
  induction lines generalizing number with
  | nil => rfl
  | cons line rest ih =>
    obtain ⟨isBlank, blankRest⟩ := List.forall_mem_cons.mp blank
    rw [runLines_blank isBlank, ih blankRest]

theorem results_append (number : Nat) (session : Session) (lines others : List String) :
    results session (lines ++ others) =
      match runLines tracing number session lines with
      | ⟨_, some _, _⟩ => results session lines
      | ⟨_, none, after⟩ => results session lines ++ results after others := by
  induction number, session, lines using runLines_induct tracing with
  | nil number session => rfl
  | blank number session line rest isBlank ih =>
    rw [List.cons_append, results, if_pos isBlank, results, if_pos isBlank, runLines_blank isBlank, ih]
  | error number session line rest shown error after visible runs =>
    have evaluates := session.runLine_outcome tracing line
    rw [runs] at evaluates
    rw [List.cons_append, results, if_neg visible, results, if_neg visible, runLines_error visible runs, ← evaluates]
  | ok number session line rest shown value after visible runs ih =>
    have evaluates := session.runLine_outcome tracing line
    rw [runs] at evaluates
    rw [List.cons_append, results, if_neg visible, results, if_neg visible, runLines_ok visible runs, ← evaluates]
    dsimp only
    rw [ih]
    rcases runLines tracing (number + 1) after rest with ⟨printed, _ | failure, last⟩ <;> rfl

theorem results_of_blank {lines : List String} (blank : ∀ line ∈ lines, Text.isBlank line = true)
    (session : Session) : results session lines = [] := by
  induction lines with
  | nil => rfl
  | cons line rest ih =>
    obtain ⟨isBlank, blankRest⟩ := List.forall_mem_cons.mp blank
    rw [results, if_pos isBlank, ih blankRest]

/-- Without tracing a script prints what its lines evaluate to. -/
theorem printed_runLines (number : Nat) (session : Session) (lines : List String) :
    (runLines false number session lines).printed = (results session lines).map Value.display := by
  induction number, session, lines using runLines_induct false with
  | nil number session => rfl
  | blank number session line rest isBlank ih => rw [runLines_blank isBlank, ih, results, if_pos isBlank]
  | error number session line rest shown error after visible runs =>
    have evaluates := session.runLine_outcome false line
    have silent := session.runLine_shown line
    rw [runs] at evaluates silent
    rw [runLines_error visible runs, results, if_neg visible, ← evaluates]
    exact silent
  | ok number session line rest shown value after visible runs ih =>
    have evaluates := session.runLine_outcome false line
    have silent : shown = [] := by simpa [runs] using session.runLine_shown line
    rw [runs] at evaluates
    rw [runLines_ok visible runs, results, if_neg visible, ← evaluates, ih, silent]
    rfl

end Runs

theorem Failure.later_later (failure : Failure) (count more : Nat) :
    (failure.later count).later more = failure.later (count + more) := by
  simp only [later, Nat.add_assoc]

def emitted (source : String) (session : Session) : List Value :=
  results session (Text.lines source)

section Sources

variable (tracing : Bool) {first : String} (ends : Text.EndsLine first) (second : String) {session : Session}

include ends

theorem run_append_of_failure (fails : (run tracing first session).failure ≠ none) :
    run tracing (first ++ second) session = run tracing first session ∧
      emitted (first ++ second) session = emitted first session := by
  obtain ⟨failure, fails⟩ := Option.ne_none_iff_exists'.mp fails
  have given := results_append tracing 1 session (Text.lines first) (Text.lines second)
  unfold run at fails ⊢
  unfold emitted
  rw [Text.lines_append ends, runLines_append_of_failure tracing fails, given]
  generalize runLines tracing 1 session (Text.lines first) = before at fails
  obtain ⟨printed, found, after⟩ := before
  cases fails
  exact ⟨rfl, rfl⟩

theorem run_append_of_success (succeeds : (run tracing first session).failure = none) :
    let before := run tracing first session
    let after := run tracing second before.session
    run tracing (first ++ second) session =
        ⟨before.printed ++ after.printed, after.failure.map (Failure.later (Text.countFeeds first)), after.session⟩ ∧
      emitted (first ++ second) session = emitted first session ++ emitted second before.session := by
  have given := results_append tracing 1 session (Text.lines first) (Text.lines second)
  unfold run at succeeds ⊢
  unfold emitted
  dsimp only
  rw [Text.lines_append ends, runLines_append tracing succeeds, given, runLines_add, Text.length_lines ends]
  generalize runLines tracing 1 session (Text.lines first) = before at succeeds
  obtain ⟨printed, found, after⟩ := before
  cases succeeds
  exact ⟨rfl, rfl⟩

end Sources

theorem run_blank_append (tracing : Bool) {blank : String} (isBlank : Text.isBlank blank = true)
    (ends : Text.EndsLine blank) (second : String) (session : Session) :
    run tracing (blank ++ second) session =
        { run tracing second session with
          failure := (run tracing second session).failure.map (Failure.later (Text.countFeeds blank)) } ∧
      emitted (blank ++ second) session = emitted second session := by
  have blankLines : ∀ line ∈ Text.lines blank, Text.isBlank line = true :=
    fun line isLine => Text.isBlank_of_mem_lines isBlank isLine
  have silent : run tracing blank session = ⟨[], none, session⟩ := runLines_of_blank tracing blankLines 1 session
  have nothing : emitted blank session = [] := results_of_blank blankLines session
  obtain ⟨runs, emits⟩ := run_append_of_success tracing ends second (by rw [silent] : (run _ _ session).failure = _)
  rw [runs, emits, silent, nothing]
  exact ⟨rfl, rfl⟩

theorem run_insert_blank (tracing : Bool) {first blank : String} (ends : Text.EndsLine first)
    (isBlank : Text.isBlank blank = true) (blankEnds : Text.EndsLine blank) (second : String) (session : Session) :
    let plain := run tracing (first ++ second) session
    run tracing (first ++ blank ++ second) session =
        { plain with failure := plain.failure.map fun failure =>
            if failure.line ≤ Text.countFeeds first then failure else failure.later (Text.countFeeds blank) } ∧
      emitted (first ++ blank ++ second) session = emitted (first ++ second) session := by
  dsimp only
  rw [String.append_assoc]
  cases fails : (run tracing first session).failure with
  | some failure =>
    have early : failure.line ≤ Text.countFeeds first := by
      have bounds := failure_line_bounds tracing fails
      rw [Text.length_lines ends] at bounds
      omega
    have failed : (run tracing first session).failure ≠ none := by simp [fails]
    obtain ⟨insertedRun, insertedEmits⟩ := run_append_of_failure tracing ends (blank ++ second) failed
    obtain ⟨plainRun, plainEmits⟩ := run_append_of_failure tracing ends second failed
    rw [insertedRun, plainRun, insertedEmits, plainEmits, fails, Option.map_some, if_pos early, ← fails]
    exact ⟨rfl, rfl⟩
  | none =>
    obtain ⟨insertedRun, insertedEmits⟩ := run_append_of_success tracing ends (blank ++ second) fails
    obtain ⟨plainRun, plainEmits⟩ := run_append_of_success tracing ends second fails
    obtain ⟨blankRun, blankEmits⟩ :=
      run_blank_append tracing isBlank blankEnds second (run tracing first session).session
    rw [insertedRun, plainRun, insertedEmits, plainEmits, blankRun, blankEmits]
    refine ⟨?_, rfl⟩
    simp only [Run.mk.injEq, Option.map_map, true_and, and_true]
    -- The second part counts from one, so it fails past the lines of the first.
    apply Option.map_congr
    intro failure failed
    have positive := (failure_line_bounds tracing failed).1
    have late : ¬ (failure.later (Text.countFeeds first)).line ≤ Text.countFeeds first := by
      simp only [Failure.later]
      omega
    rw [Function.comp_apply, Function.comp_apply, if_neg late, Failure.later_later, Failure.later_later, Nat.add_comm]

end Script

theorem Token.all_isSpace_iff_scanFrom (start : Nat) (chars : List Char) :
    chars.all Text.isSpace = true ↔ ∀ token ∈ scanFrom start chars, token.kind.endsLine = true := by
  fun_induction scanFrom start chars with
  | case1 start => simp [Kind.endsLine]
  | case2 start c rest separates ih =>
    have space : Text.isSpace c = true := (Bool.and_eq_true_iff.mp separates).1
    rw [List.all_cons, space, Bool.true_and]
    exact ih
  | case3 start c rest visible kind token ih =>
    rw [List.forall_mem_cons, ← ih]
    by_cases ends : kind.endsLine = true
    · -- Only line feeds go on with line feeds.
      obtain ⟨rfl, isLine⟩ := Kind.ofFirst_of_endsLine ends
      have feeds : ∀ d ∈ rest.takeWhile kind.continuesWith, Text.isSpace d = true := by
        intro d taken
        have continues := List.all_eq_true.mp List.all_takeWhile d taken
        rw [show kind = .newLine from isLine] at continues
        rw [beq_iff_eq.mp continues]
        decide
      have parts := congrArg (List.all · Text.isSpace) (@List.takeWhile_append_dropWhile _ kind.continuesWith rest)
      rw [List.all_append, List.all_eq_true.mpr feeds, Bool.true_and] at parts
      rw [List.all_cons, ← parts]
      exact ⟨fun spaces => ⟨ends, (Bool.and_eq_true_iff.mp spaces).2⟩, fun both => both.2⟩
    · have solid : Text.isSpace c = false := by
        rw [Bool.eq_false_iff]
        intro space
        have isFeed : c = '\n' := by simpa [isSeparator, space] using visible
        subst isFeed
        exact ends rfl
      rw [List.all_cons, solid, Bool.false_and]
      exact iff_of_false Bool.false_ne_true fun both => ends both.1

theorem Text.isBlank_iff_scan (text : String) :
    isBlank text = true ↔ ∀ token ∈ Token.scan text, token.kind = .newLine ∨ token.kind = .endOfInput := by
  have endsLine : ∀ kind : Token.Kind, kind.endsLine = true ↔ kind = .newLine ∨ kind = .endOfInput := by
    intro kind
    cases kind <;> simp [Token.Kind.endsLine]
  simp only [← endsLine]
  exact Token.all_isSpace_iff_scanFrom 0 text.toList

namespace Script

/-- A script runs as its parts do if the first of them ends a line. When the first part fails, the whole fails in the
same way. Otherwise the second part runs in the session that the first leaves, and its lines count from the line feeds
of the first on. Blank lines in between move the lines that follow, and a line counts as blank if nothing in it is a
token. -/
theorem script_concatenation (tracing : Bool) (session : Session) {first : String} (ends : Text.EndsLine first)
    (second : String) :
    let before := run tracing first session
    let after := run tracing second before.session
    let plain := run tracing (first ++ second) session
    (before.failure ≠ none → plain = before ∧ emitted (first ++ second) session = emitted first session) ∧
    (before.failure = none →
      plain = ⟨before.printed ++ after.printed, after.failure.map (Failure.later (Text.countFeeds first)),
        after.session⟩ ∧
      emitted (first ++ second) session = emitted first session ++ emitted second before.session) ∧
    (∀ blank, Text.isBlank blank = true → Text.EndsLine blank →
      run tracing (first ++ blank ++ second) session =
        { plain with failure := plain.failure.map fun failure =>
            if failure.line ≤ Text.countFeeds first then failure else failure.later (Text.countFeeds blank) } ∧
      emitted (first ++ blank ++ second) session = emitted (first ++ second) session) ∧
    ∀ line, Text.isBlank line = true ↔
      ∀ token ∈ Token.scan line, token.kind = .newLine ∨ token.kind = .endOfInput :=
  ⟨run_append_of_failure tracing ends second, run_append_of_success tracing ends second,
    fun _ isBlank blankEnds => run_insert_blank tracing ends isBlank blankEnds second session,
    Text.isBlank_iff_scan⟩

theorem script_concatenation_undefined :
    (run false ("x = 1\n\n" ++ "y\n") {}).failure = some ⟨3, .eval (.undefined "y")⟩ ∧
      (run false ("x = 1\n\n" ++ " \r\n" ++ "y\n") {}).failure = some ⟨4, .eval (.undefined "y")⟩ := by
  have ends : Text.EndsLine "x = 1\n\n" := .inr rfl
  obtain ⟨-, succeeds, inserted, -⟩ := script_concatenation false {} ends "y\n"
  have quiet : (run false "x = 1\n\n" {}).failure = none := by decide +kernel
  have fails : (run false "y\n" (run false "x = 1\n\n" {}).session).failure = some ⟨1, .eval (.undefined "y")⟩ := by
    decide +kernel
  have plain : (run false ("x = 1\n\n" ++ "y\n") {}).failure = some ⟨3, .eval (.undefined "y")⟩ := by
    rw [(succeeds quiet).1, fails]
    rfl
  refine ⟨plain, ?_⟩
  rw [(inserted " \r\n" (by decide) (.inr rfl)).1, plain]
  rfl

end Script

end LineLang
