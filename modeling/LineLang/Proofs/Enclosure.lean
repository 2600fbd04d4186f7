import LineLang.Proofs.Evaluation
import LineLang.Proofs.Layout
import LineLang.Proofs.RoundTrip

/-! Around a line.

A target or the parameters of a function can be put before any line, and parentheses around it: the line is still read
as a whole, whatever it is. So to assign what a line comes to, it is enough to put the target before it.
-/

set_option autoImplicit false

namespace LineLang

namespace Grammar

section Following

variable {level : Level} {word : List Token} {next other : Token.Kind} {expr : Expr}

theorem Derives.endedBy (derives : Derives .longest level word next expr) (ends : Level.assignment.Ends other)
    (noEquals : other ≠ .equals) : Derives .longest level word other expr := by
  obtain ⟨noQuestion, noTerm, noFactor, noParen⟩ := ends
  -- Only the last part of a word is followed by `next`; the parts before it keep what follows them.
  induction derives with
  | assign isName isEquals _ ih => exact .assign isName isEquals ih
  | ternary _ _ ih => exact .ternary ih fun _ => ih.not_startsAssignment (by decide) noEquals
  | choice tested isQuestion yes isColon _ _ _ ih => exact .choice tested isQuestion yes isColon ih
  | sum _ _ ih => exact .sum ih fun _ => noQuestion
  | terms _ _ ih => exact .terms ih fun _ => noTerm
  | product _ ih => exact .product ih
  | term before isSign _ _ ih => exact .term before isSign ih
  | factors _ _ ih => exact .factors ih fun _ => noFactor
  | call _ ih => exact .call ih
  | factor before isSign _ _ ih => exact .factor before isSign ih
  | calls _ _ ih => exact .calls ih fun _ => noParen
  | unary _ ih => exact .unary ih
  | arguments called isLeft items isRight => exact .arguments called isLeft items isRight
  | atom _ ih => exact .atom ih
  | signed isSign _ ih => exact .signed isSign ih
  | integer isInteger reads => exact .integer isInteger reads
  | name isName => exact .name isName
  | group isLeft part isRight => exact .group isLeft part isRight
  | function isLeft names isRight _ ih => exact .function isLeft names isRight ih

end Following

section Front

variable {left right : Token} {parameters word : List Token} {next : Token.Kind}

theorem derives_assign_iff (isName : left.kind = .name) (isEquals : right.kind = .equals) {tree : Expr} :
    Derives .longest .assignment (left :: right :: word) next tree ↔
      ∃ value, tree = .assign left.text value ∧ Derives .longest .assignment word next value := by
  constructor
  · intro derives
    cases derives with
    | assign _ _ assigned => exact ⟨_, rfl, assigned⟩
    | ternary _ ends => exact absurd ⟨left, right :: word, rfl, isName, isEquals⟩ (ends rfl)
  · rintro ⟨value, rfl, assigned⟩
    exact .assign isName isEquals assigned

theorem parameters_inj {others : List Token} {bar : Token} {rest : List Token}
    (names : ∀ parameter ∈ parameters, parameter.kind = .name) (isRight : right.kind = .bar)
    (otherNames : ∀ parameter ∈ others, parameter.kind = .name) (isBar : bar.kind = .bar)
    (same : others ++ bar :: rest = parameters ++ right :: word) : others = parameters ∧ rest = word := by
  -- The parameters are the names up to the first bar, on either side.
  have front := congrArg (List.takeWhile fun token => token.kind = .name) same
  rw [List.takeWhile_append_of_pos (by simpa using otherNames), List.takeWhile_append_of_pos (by simpa using names),
    List.takeWhile_cons_of_neg (by simp [isBar]), List.takeWhile_cons_of_neg (by simp [isRight]), List.append_nil,
    List.append_nil] at front
  subst front
  exact ⟨rfl, (List.cons.inj (List.append_cancel_left same)).2⟩

-- Only one rule gives a function, and the bars in its word are those of the rule.
theorem Derives.body_of_function {reading : Reading} {level : Level} {tokens : List Token} {tree : Expr}
    (derives : Derives reading level tokens next tree) (isLeft : left.kind = .bar)
    (names : ∀ parameter ∈ parameters, parameter.kind = .name) (isRight : right.kind = .bar)
    (shape : tokens = left :: (parameters ++ right :: word)) {words : List String} {body : Expr}
    (isFunction : tree = .function words body) :
    parameters.map Token.text = words ∧ Derives reading .assignment word next body := by
  induction derives with
  -- The levels in between leave word and tree alone.
  | ternary _ _ ih | sum _ _ ih | terms _ _ ih | factors _ _ ih | calls _ _ ih => exact ih shape isFunction
  | product _ ih | call _ ih | unary _ ih | atom _ ih => exact ih shape isFunction
  | group isParen =>
    obtain ⟨rfl, -⟩ := List.cons.inj shape
    rw [isLeft] at isParen
    cases isParen
  | function _ otherNames isBar inner =>
    obtain ⟨rfl, rfl⟩ := parameters_inj names isRight otherNames isBar (List.cons.inj shape).2
    cases isFunction
    exact ⟨rfl, inner⟩
  | _ => cases isFunction

theorem derives_function_iff (isLeft : left.kind = .bar) (names : ∀ parameter ∈ parameters, parameter.kind = .name)
    (isRight : right.kind = .bar) (noEquals : next ≠ .equals) {body : Expr} :
    Derives .longest .assignment (left :: (parameters ++ right :: word)) next
        (.function (parameters.map Token.text) body) ↔ Derives .longest .assignment word next body := by
  constructor
  · intro derives
    exact (derives.body_of_function isLeft names isRight rfl rfl).2
  · intro inner
    have literal := Derives.function isLeft names isRight inner
    exact literal.rise inner.ends noEquals (by decide)

theorem line_append_iff {reading : Reading} {front tokens : List Token} {tree : Expr}
    (inside : ∀ token ∈ front, token.kind ≠ .newLine) :
    Line reading (front ++ tokens) tree ↔ ∃ body newLine ending, tokens = body ++ [newLine, ending] ∧
      newLine.kind = .newLine ∧ ending.kind = .endOfInput ∧
        Derives reading .assignment (front ++ body) .newLine tree := by
  constructor
  · rintro ⟨word, newLine, ending, same, isNewLine, isEnding, derives⟩
    rcases List.append_eq_append_iff.mp same with ⟨body, rfl, rest⟩ | ⟨others, rfl, rest⟩
    · exact ⟨body, newLine, ending, rest, isNewLine, isEnding, derives⟩
    · -- Here the line would end within the front.
      cases others with
      | nil => exact ⟨[], newLine, ending, rest.symm, isNewLine, isEnding, by simpa using derives⟩
      | cons first others =>
        obtain ⟨rfl, -⟩ := List.cons.inj rest
        exact absurd isNewLine (inside newLine (by simp))
  · rintro ⟨body, newLine, ending, rfl, isNewLine, isEnding, derives⟩
    exact ⟨front ++ body, newLine, ending, (List.append_assoc ..).symm, isNewLine, isEnding, derives⟩

end Front

end Grammar

open Grammar

theorem Token.spells_of_single {chars : List Char} (single : '\n' ∉ chars) : Spells chars (spell chars).dropLast := by
  intro rest ends
  have apart := not_goesOn_of_single 0 (0 + Text.byteLength chars) single ends
  rw [spell, (scanFrom_append_iff 0 chars rest).mpr apart, List.map_append, List.map_dropLast,
    map_bare_scanFrom _ 0 rest]
  rfl

theorem parseLine_iff_line {text : String} {expr : Expr} :
    parseLine text = .ok expr ↔
      (∀ token ∈ Token.spell text.toList, token.kind ≠ .invalid) ∧ Line .longest (Token.spell text.toList) expr := by
  obtain ⟨front, ends, each⟩ := (Token.covers_scan text).exists_front
  have spelled : Token.spell text.toList = front.map Token.bare ++ [⟨.endOfInput, "", 0, 0⟩] := by
    change (Token.scan text).map Token.bare = _
    rw [ends, List.map_append]
    rfl
  have only : ∀ token ∈ front.map Token.bare, token.kind ≠ .endOfInput := by
    intro token isOne
    obtain ⟨scanned, isScanned, rfl⟩ := List.mem_map.mp isOne
    exact (each scanned isScanned).notEnd
  rw [parseLine_eq_ok, ← parse_bare]
  refine and_congr ?_ ?_
  · rw [Token.spell, List.forall_mem_map]
    exact Iff.rfl
  · change parse (Token.spell text.toList) = .ok expr ↔ _
    rw [spelled]
    exact ⟨line_of_parse_of_ends rfl only, parse_of_line⟩

-- If the grammar reads a front only as what `build` makes of the rest, then so are texts read.
theorem parseLine_front {whole text : String} {front : List Token} {build : Expr → Expr} {tree : Expr}
    (spelled : Token.spell whole.toList = front ++ Token.spell text.toList)
    (inside : ∀ token ∈ front, token.kind ≠ .invalid ∧ token.kind ≠ .newLine)
    (reads : ∀ body, Derives .longest .assignment (front ++ body) .newLine tree ↔
      ∃ expr, tree = build expr ∧ Derives .longest .assignment body .newLine expr) :
    parseLine whole = .ok tree ↔ ∃ expr, tree = build expr ∧ parseLine text = .ok expr := by
  simp only [parseLine_iff_line, spelled, List.forall_mem_append,
    line_append_iff fun token isOne => (inside token isOne).2, reads]
  constructor
  · rintro ⟨⟨-, valid⟩, body, newLine, ending, same, isNewLine, isEnding, expr, built, derives⟩
    exact ⟨expr, built, valid, body, newLine, ending, same, isNewLine, isEnding, derives⟩
  · rintro ⟨expr, built, valid, body, newLine, ending, same, isNewLine, isEnding, derives⟩
    exact ⟨⟨fun token isOne => (inside token isOne).1, valid⟩, body, newLine, ending, same, isNewLine, isEnding, expr,
      built, derives⟩

def Token.header (parameters : List String) : List Token :=
  .ofSign '|' :: (parameters.map .ofName ++ [.ofSign '|'])

theorem Token.spell_header {parameters : List String}
    (areWords : ∀ parameter ∈ parameters, isWord parameter = true) (text : String) :
    spell ("|" ++ String.intercalate " " parameters ++ "| " ++ text).toList =
      header parameters ++ spell text.toList := by
  have each : ∀ parameter ∈ parameters, Spells (id parameter).toList [ofName parameter] :=
    fun parameter isOne => .word (areWords parameter isOne)
  have joined := Spells.joined each
  rw [List.map_id, ← List.map_eq_flatMap] at joined
  have chars : ("|" ++ String.intercalate " " parameters ++ "| " ++ text).toList =
      '|' :: ((String.intercalate " " parameters).toList ++ '|' :: ' ' :: text.toList) := by simp
  rw [chars, spell_sign rfl, joined _ rfl, spell_sign rfl, spell_separator (by decide), header]
  simp

theorem Token.inside_header (parameters : List String) :
    ∀ token ∈ header parameters, token.kind ≠ .invalid ∧ token.kind ≠ .newLine := by
  refine List.forall_mem_cons.mpr ⟨by decide, List.forall_mem_append.mpr ⟨?_, ?_⟩⟩
  · intro token isOne
    rw [kind_of_mem_names isOne]
    decide
  · exact List.forall_mem_singleton.mpr (by decide)

theorem Grammar.derives_header_iff {parameters : List String} {word : List Token} {body : Expr} :
    Derives .longest .assignment (Token.header parameters ++ word) .newLine (.function parameters body) ↔
      Derives .longest .assignment word .newLine body := by
  have texts : (parameters.map Token.ofName).map Token.text = parameters := by
    simp [Function.comp_def, Token.ofName]
  have parts := @derives_function_iff (.ofSign '|') (.ofSign '|') (parameters.map .ofName) word .newLine rfl
    (fun _ => Token.kind_of_mem_names) rfl (by decide) body
  rw [texts] at parts
  simpa [Token.header] using parts

section Texts

variable {name text : String} {parameters : List String}

theorem parseLine_assign (isWord : Token.isWord name = true) {tree : Expr} :
    parseLine (name ++ " = " ++ text) = .ok tree ↔
      ∃ value, tree = .assign name value ∧ parseLine text = .ok value := by
  have spelled : Token.spell (name ++ " = " ++ text).toList =
      [.ofName name, .ofSign '='] ++ Token.spell text.toList := by
    have chars : (name ++ " = " ++ text).toList = name.toList ++ ' ' :: '=' :: ' ' :: text.toList := by simp
    rw [chars, Token.Spells.word isWord _ rfl, Token.spell_separator (by decide), Token.spell_sign rfl,
      Token.spell_separator (by decide)]
    rfl
  refine parseLine_front spelled ?_ fun body => derives_assign_iff rfl rfl
  simp [Token.ofName, Token.ofSign, Token.Kind.ofSign?]

theorem parseLine_function (areWords : ∀ parameter ∈ parameters, Token.isWord parameter = true) {body : Expr} :
    parseLine ("|" ++ String.intercalate " " parameters ++ "| " ++ text) = .ok (.function parameters body) ↔
      parseLine text = .ok body := by
  have front := @parseLine_front _ text _ (.function parameters) (.function parameters body)
    (Token.spell_header areWords text) (Token.inside_header parameters) fun word => by simp [derives_header_iff]
  simpa using front

theorem parseLine_parens (single : '\n' ∉ text.toList) {expr : Expr} (parses : parseLine (text ++ "\n") = .ok expr) :
    parseLine ("(" ++ text ++ ")\n") = .ok expr := by
  have spells := Token.spells_of_single single
  have spelled : Token.spell (text ++ "\n").toList =
      (Token.spell text.toList).dropLast ++ [⟨.newLine, "", 0, 0⟩, ⟨.endOfInput, "", 0, 0⟩] := by
    rw [String.toList_append, ← Token.spell_newLine]
    exact spells ['\n'] rfl
  obtain ⟨valid, body, newLine, ending, same, -, -, derives⟩ := parseLine_iff_line.mp parses
  rw [spelled] at same valid
  rw [← List.append_inj_left' same rfl] at derives
  have inside := (List.forall_mem_append.mp valid).1
  have closed : ∀ token ∈ Token.parens (Token.spell text.toList).dropLast, token.kind ≠ .invalid :=
    List.forall_mem_cons.mpr ⟨by decide,
      List.forall_mem_append.mpr ⟨inside, List.forall_mem_singleton.mpr (by decide)⟩⟩
  -- The line feed that ended the expression gives way to a closing parenthesis.
  have ended : Derives .longest .assignment _ .rightParen expr := derives.endedBy (by decide) (by decide)
  have grouped := ended.parens .newLine
  refine parseLine_of_spells ?_ spells.parens closed (grouped.rise (by decide) (by decide) (by decide))
  simp

theorem parseLine_name (isWord : Token.isWord name = true) : parseLine (name ++ "\n") = .ok (.name name) := by
  have derives : Derives .longest .assignment [.ofName name] .newLine (.name name) :=
    (Derives.ofName name .newLine).rise (by decide) (by decide) (by decide)
  exact parseLine_of_spells String.toList_append (.word isWord) (by simp [Token.ofName]) derives

end Texts

theorem parseLine_ne_eval (text : String) (fault : EvalError) : parseLine text ≠ .error (.eval fault) := by
  unfold parseLine
  intro fails
  cases cut : Token.tokenize text with
  | error stray =>
    rw [cut] at fails
    cases fails
  | ok tokens =>
    rw [cut] at fails
    change (parse tokens).mapError LineError.parse = .error (.eval fault) at fails
    cases parsed : parse tokens <;> rw [parsed] at fails <;> cases fails

namespace Session

variable {name text : String}

theorem evalLine_assign (session : Session) (isWord : Token.isWord name = true) {expr : Expr}
    (parses : parseLine text = .ok expr) :
    session.evalLine (name ++ " = " ++ text) =
      (session.evalLine text).bind fun value after => ⟨.ok value, after.set name value⟩ := by
  have whole : parseLine (name ++ " = " ++ text) = .ok (.assign name expr) :=
    (parseLine_assign isWord).mpr ⟨expr, rfl, parses⟩
  rw [evalLine, whole, evalLine, parses]
  simp only [eval_assign]
  cases session.eval expr with
  | mk result after => cases result <;> rfl

theorem evalLine_of_parseLine_error (session : Session) {error : LineError} (fails : parseLine text = .error error) :
    session.evalLine text = ⟨.error error, session⟩ := by
  rw [evalLine, fails]

theorem evalLine_assign_of_error (session : Session) (isWord : Token.isWord name = true) {error : LineError}
    (fails : parseLine text = .error error) :
    ∃ other, session.evalLine (name ++ " = " ++ text) = ⟨.error other, session⟩ := by
  cases whole : parseLine (name ++ " = " ++ text) with
  | error other => exact ⟨other, evalLine_of_parseLine_error session whole⟩
  | ok tree =>
    obtain ⟨value, -, parses⟩ := (parseLine_assign isWord).mp whole
    rw [fails] at parses
    cases parses

theorem evalLine_name (session : Session) (isWord : Token.isWord name = true) (value : Value) :
    (session.set name value).evalLine (name ++ "\n") = ⟨.ok value, session.set name value⟩ := by
  have bound : (session.set name value).get? name = some value := by
    rw [get?, set, Frame.get?_insert, if_pos rfl]
  rw [evalLine, parseLine_name isWord]
  simp only [eval_name_of_get? bound]
  rfl

end Session

/-- Whatever a text is read as, after a target it is read as the value to assign, after parameters as the body of a
function, and, if it is one line, in parentheses as the same. So a target before a line leaves what the line leaves,
with its value in the target, from where it can be read; if the line fails, so does the assignment. -/
theorem line_enclosed :
    (∀ name, Token.isWord name = true → ∀ text expr,
      parseLine text = .ok expr ↔ parseLine (name ++ " = " ++ text) = .ok (.assign name expr)) ∧
    (∀ parameters : List String, (∀ parameter ∈ parameters, Token.isWord parameter = true) → ∀ text expr,
      parseLine text = .ok expr ↔
        parseLine ("|" ++ String.intercalate " " parameters ++ "| " ++ text) = .ok (.function parameters expr)) ∧
    (∀ text : String, '\n' ∉ text.toList → ∀ expr, parseLine (text ++ "\n") = .ok expr →
      parseLine ("(" ++ text ++ ")\n") = .ok expr) ∧
    ∀ name, Token.isWord name = true → ∀ (text : String) (session : Session),
      (∀ value after, session.evalLine text = ⟨.ok value, after⟩ →
        session.evalLine (name ++ " = " ++ text) = ⟨.ok value, after.set name value⟩ ∧
        (after.set name value).evalLine (name ++ "\n") = ⟨.ok value, after.set name value⟩) ∧
      ∀ error after, session.evalLine text = ⟨.error error, after⟩ →
        ∃ other, session.evalLine (name ++ " = " ++ text) = ⟨.error other, after⟩ ∧
          ∀ fault, error = .eval fault → other = error := by
  refine ⟨?_, fun parameters areWords text expr => (parseLine_function areWords).symm,
    fun text single expr => parseLine_parens single, ?_⟩
  · intro name isWord text expr
    rw [parseLine_assign isWord]
    simp
  · intro name isWord text session
    cases parsed : parseLine text with
    | error refusal =>
      -- The refusals of the two texts may differ, but neither is a fault of the evaluation.
      rw [session.evalLine_of_parseLine_error parsed]
      constructor
      · intro value after evaluated
        cases evaluated
      · intro error after fails
        cases fails
        obtain ⟨other, alsoFails⟩ := session.evalLine_assign_of_error isWord parsed
        refine ⟨other, alsoFails, ?_⟩
        rintro fault rfl
        exact absurd parsed (parseLine_ne_eval text fault)
    | ok expr =>
      rw [session.evalLine_assign isWord parsed]
      constructor
      · intro value after evaluated
        rw [evaluated]
        exact ⟨rfl, after.evalLine_name isWord value⟩
      · intro error after fails
        rw [fails]
        exact ⟨error, rfl, fun _ _ => rfl⟩

/-- `a ? 1 : b = 2`, where the assignment is part of the choice. -/
def assignedChoice : Expr :=
  .choice (.name "a") (.integer 1) (.assign "b" (.integer 2))

def choosing : Session :=
  { frame := ⟨[("a", .integer 0)]⟩, limit := 1 }

theorem line_enclosed_choice :
    parseLine "x_1 = a ? 1 : b = 2\n" = .ok (.assign "x_1" assignedChoice) ∧
      parseLine "|a b| a ? 1 : b = 2\n" = .ok (.function ["a", "b"] assignedChoice) ∧
      parseLine "(a ? 1 : b = 2)\n" = .ok assignedChoice ∧
      choosing.evalLine "x_1 = a ? 1 : b = 2\n" =
        ⟨.ok (.integer 2), (choosing.set "b" (.integer 2)).set "x_1" (.integer 2)⟩ ∧
      ((choosing.set "b" (.integer 2)).set "x_1" (.integer 2)).evalLine "x_1\n" =
        ⟨.ok (.integer 2), (choosing.set "b" (.integer 2)).set "x_1" (.integer 2)⟩ := by
  obtain ⟨assigns, takes, groups, evaluates⟩ := line_enclosed
  have scanned : Token.scan "a ? 1 : b = 2\n" =
      [⟨.name, "a", 0, 1⟩, ⟨.question, "?", 2, 3⟩, ⟨.integer, "1", 4, 5⟩, ⟨.colon, ":", 6, 7⟩, ⟨.name, "b", 8, 9⟩,
        ⟨.equals, "=", 10, 11⟩, ⟨.integer, "2", 12, 13⟩, ⟨.newLine, "", 13, 14⟩, ⟨.endOfInput, "", 14, 14⟩] := by
    decide +kernel
  have parses : parseLine "a ? 1 : b = 2\n" = .ok assignedChoice := by
    rw [parseLine_eq_ok, scanned]
    exact ⟨by decide, by rfl⟩
  have evaluated : choosing.evalLine "a ? 1 : b = 2\n" = ⟨.ok (.integer 2), choosing.set "b" (.integer 2)⟩ := by
    rw [Session.evalLine, parses]
    rfl
  have words : ∀ parameter ∈ ["a", "b"], Token.isWord parameter = true :=
    List.forall_mem_cons.mpr ⟨by decide, List.forall_mem_singleton.mpr (by decide)⟩
  obtain ⟨assigned, read⟩ := (evaluates "x_1" (by decide) "a ? 1 : b = 2\n" choosing).1 _ _ evaluated
  exact ⟨(assigns "x_1" (by decide) "a ? 1 : b = 2\n" _).mp parses,
    (takes ["a", "b"] words "a ? 1 : b = 2\n" _).mp parses, groups "a ? 1 : b = 2" (by decide) _ parses, assigned,
    read⟩

end LineLang
