import LineLang.Line
import LineLang.Proofs.Parse.Correctness
import LineLang.Proofs.RoundTrip.Derivation

/-! Which trees come back from their renderings.

A text only gives integers without a sign and names that are words. Among such trees, those come back whose
renderings have as many calls as they do.
-/

set_option autoImplicit false

namespace LineLang

open Grammar

namespace Numeral

theorem readDigits_nonNegative {digits : List Char} {total : Int} {value : Int64}
    (reads : readDigits false total digits = .ok value) (lower : 0 ≤ total)
    (upper : total ≤ Int64.maxValue.toInt) : 0 ≤ value := by
  induction digits generalizing total with
  | nil =>
    cases reads
    rw [Int64.le_iff_toInt_le, Int64.toInt_zero]
    rw [Int64.toInt_maxValue] at upper
    rw [Int64.toInt_ofInt_of_le (by omega) (by omega)]
    exact lower
  | cons c rest ih =>
    rw [readDigits] at reads
    split at reads
    · cases reads
    next digit _ =>
      simp only [Bool.false_eq_true, if_false] at reads
      split at reads
      · cases reads
      next small =>
        split at reads
        · cases reads
        · exact ih reads (by omega) (by omega)

theorem read_nonNegative {text : String} {value : Int64} (digits : ∀ c ∈ text.toList, c.isDigit = true)
    (reads : read text = .ok value) : 0 ≤ value := by
  have fits : (0 : Int) ≤ Int64.maxValue.toInt := by decide
  unfold read at reads
  split at reads
  · cases reads
  · cases reads
  · cases reads
  next chars => exact absurd (digits '+' (by simp [chars])) (by decide)
  next chars => exact absurd (digits '-' (by simp [chars])) (by decide)
  · exact readDigits_nonNegative reads (by decide) fits

theorem head?_write (value : Int64) : ∃ c, (write value).toList.head? = some c ∧ c ≠ '(' := by
  unfold write
  split
  · exact ⟨'-', by simp, by decide⟩
  · obtain ⟨first, rest, shape⟩ := List.exists_cons_of_ne_nil (@Nat.toDigits_ne_nil value.toInt.natAbs 10)
    have digit : first.isDigit = true :=
      Nat.isDigit_of_mem_toDigits (by decide) (by decide) (shape ▸ List.mem_cons_self)
    refine ⟨first, by simp [shape], ?_⟩
    rintro rfl
    exact absurd digit (by decide)

end Numeral

theorem Grammar.Sequence.forall_of_tokens {P : Token → Prop} {Q : Expr → Prop} {words : List Token}
    {next : Token.Kind} {exprs : List Expr}
    (items : Sequence (fun word _ expr => (∀ token ∈ word, P token) → Q expr) words next exprs)
    (tokens : ∀ token ∈ words, P token) : ∀ expr ∈ exprs, Q expr := by
  induction items with
  | nil => exact nofun
  | cons item _ ih =>
    obtain ⟨first, others⟩ := List.forall_mem_append.mp tokens
    exact List.forall_mem_cons.mpr ⟨item first, ih others⟩

theorem Grammar.Derives.lexical {reading : Reading} {level : Level} {word : List Token} {next : Token.Kind}
    {expr : Expr} (derives : Derives reading level word next expr) (tokens : ∀ token ∈ word, token.Lexical) :
    ∀ node ∈ expr.nodes, node.isNonNegative = true ∧ node.hasWords = true := by
  induction derives with
  | ternary _ _ ih | sum _ _ ih | terms _ _ ih | factors _ _ ih | calls _ _ ih => exact ih tokens
  | product _ ih | call _ ih | unary _ ih | atom _ ih => exact ih tokens
  | integer isInteger reads =>
    have digits := (tokens _ List.mem_cons_self).1 isInteger
    simp [Expr.nodes, Expr.isNonNegative, Expr.hasWords, Numeral.read_nonNegative digits reads]
  | name isName =>
    have isOne := (tokens _ List.mem_cons_self).2 isName
    simp [Expr.nodes, Expr.isNonNegative, Expr.hasWords, isOne]
  | assign isName _ _ ih =>
    simp only [List.forall_mem_cons] at tokens
    obtain ⟨target, -, value⟩ := tokens
    simp only [Expr.nodes, List.forall_mem_cons]
    exact ⟨⟨rfl, target.2 isName⟩, ih value⟩
  | choice _ _ _ _ _ ihTested ihYes ihNo =>
    simp only [List.forall_mem_append, List.forall_mem_cons] at tokens
    obtain ⟨tested, -, yes, -, no⟩ := tokens
    simp only [Expr.nodes, List.forall_mem_cons, List.forall_mem_append]
    exact ⟨⟨rfl, rfl⟩, ⟨ihTested tested, ihYes yes⟩, ihNo no⟩
  | term _ _ _ ihBefore ihLast | factor _ _ _ ihBefore ihLast =>
    simp only [List.forall_mem_append, List.forall_mem_cons] at tokens
    obtain ⟨before, -, last⟩ := tokens
    simp only [Expr.nodes, List.forall_mem_cons, List.forall_mem_append]
    exact ⟨⟨rfl, rfl⟩, ihBefore before, ihLast last⟩
  | arguments _ _ _ _ ih items =>
    simp only [List.forall_mem_append, List.forall_mem_cons] at tokens
    obtain ⟨called, -, passed, -⟩ := tokens
    have each := Sequence.forall_of_tokens (items.mono fun _ _ _ item => item.choose_spec) passed
    simp only [Expr.nodes, Expr.nodesAll_eq_flatMap, List.forall_mem_cons, List.forall_mem_append]
    refine ⟨⟨rfl, rfl⟩, ih called, ?_⟩
    intro node isNode
    obtain ⟨argument, isOne, isNode⟩ := List.mem_flatMap.mp isNode
    exact each argument isOne node isNode
  | signed _ _ ih =>
    simp only [List.forall_mem_cons] at tokens
    simp only [Expr.nodes, List.forall_mem_cons]
    exact ⟨⟨rfl, rfl⟩, ih tokens.2⟩
  | group _ _ _ ih =>
    simp only [List.forall_mem_append, List.forall_mem_cons] at tokens
    exact ih tokens.2.1
  | function _ names _ _ ih =>
    simp only [List.forall_mem_append, List.forall_mem_cons] at tokens
    obtain ⟨-, parameters, -, body⟩ := tokens
    simp only [Expr.nodes, List.forall_mem_cons]
    refine ⟨⟨rfl, ?_⟩, ih body⟩
    simp only [Expr.hasWords, List.all_map, List.all_eq_true]
    intro parameter isOne
    exact (parameters parameter isOne).2 (names parameter isOne)

theorem parseLine_eq_ok {text : String} {expr : Expr} :
    parseLine text = .ok expr ↔
      (∀ token ∈ Token.scan text, token.kind ≠ .invalid) ∧ parse (Token.scan text) = .ok expr := by
  unfold parseLine
  cases cut : Token.tokenize text with
  | error stray =>
    refine iff_of_false nofun ?_
    rintro ⟨valid, -⟩
    rw [Token.tokenize_eq_ok.mpr ⟨valid, rfl⟩] at cut
    cases cut
  | ok tokens =>
    obtain ⟨valid, rfl⟩ := Token.tokenize_eq_ok.mp cut
    rw [and_iff_right valid]
    change (parse (Token.scan text)).mapError LineError.parse = .ok expr ↔ parse (Token.scan text) = .ok expr
    cases parse (Token.scan text) with
    | error fault => exact iff_of_false nofun nofun
    | ok found =>
      constructor
      · intro same
        cases same
        rfl
      · intro same
        cases same
        rfl

theorem parseLine_of_spell {text : String} {tokens : List Token} {expr : Expr}
    (spelled : Token.spell text.toList = tokens) (valid : ∀ token ∈ tokens, token.kind ≠ .invalid)
    (parses : parse tokens = .ok expr) : parseLine text = .ok expr := by
  rw [← spelled] at valid parses
  refine parseLine_eq_ok.mpr ⟨?_, parse_bare.mp parses⟩
  intro token scanned
  exact valid token.bare (List.mem_map_of_mem scanned)

theorem parseLine_of_spells {text : String} {chars : List Char} {tokens : List Token} {expr : Expr}
    (ends : text.toList = chars ++ ['\n']) (spells : Token.Spells chars tokens)
    (valid : ∀ token ∈ tokens, token.kind ≠ .invalid) (derives : Derives .longest .assignment tokens .newLine expr) :
    parseLine text = .ok expr := by
  have spelled : Token.spell text.toList = tokens ++ [⟨.newLine, "", 0, 0⟩, ⟨.endOfInput, "", 0, 0⟩] := by
    rw [ends, spells ['\n'] (by decide), Token.spell_newLine]
  refine parseLine_of_spell spelled ?_ (parse_of_line ⟨tokens, _, _, rfl, rfl, rfl, derives⟩)
  exact List.forall_mem_append.mpr ⟨valid, by simp⟩

theorem lexical_of_parseLine {text : String} {expr : Expr} (parses : parseLine text = .ok expr) :
    ∀ node ∈ expr.nodes, node.isNonNegative = true ∧ node.hasWords = true := by
  obtain ⟨line, rest, same, body, newLine, ending, rfl, -, -, derives⟩ :=
    line_of_parse (parseLine_eq_ok.mp parses).2
  refine derives.lexical fun token isOne => ?_
  have read : token ∈ Parse.closeInput (Token.scan text) := by simp [same, isOne]
  rcases Parse.mem_closeInput read with scanned | isEnd
  · exact Token.lexical_scanFrom 0 text.toList token scanned
  · simp [Token.Lexical, isEnd]

theorem Expr.spell_line {expr : Expr}
    (lexical : ∀ node ∈ expr.nodes, node.isNonNegative = true ∧ node.hasWords = true) :
    Token.spell (expr.render ++ "\n").toList =
      expr.tokens ++ [⟨.newLine, "", 0, 0⟩] ++ [⟨.endOfInput, "", 0, 0⟩] := by
  have line : (expr.render ++ "\n").toList = expr.render.toList ++ ['\n'] := by simp
  rw [line, expr.spells_render lexical ['\n'] (by decide), Token.spell_newLine, List.append_assoc]
  rfl

def Token.isInner (token : Token) : Bool :=
  token.kind ≠ .invalid && token.kind ≠ .endOfInput

theorem Token.all_isInner_parens (word : List Token) :
    (Token.parens word).all Token.isInner = word.all Token.isInner := by
  have left : (Token.ofSign '(').isInner = true := rfl
  have right : (Token.ofSign ')').isInner = true := rfl
  simp [Token.parens, left, right]

namespace Expr

theorem all_isInner_tokens (expr : Expr) : expr.tokens.all Token.isInner = true := by
  induction expr with
  | integer | name => rfl
  | signed sign operand ih =>
    have isInner : (Token.ofSign sign.char).isInner = true := by cases sign <;> rfl
    rw [tokens, Token.all_isInner_parens, List.all_cons, isInner]
    split
    · rwa [Token.all_isInner_parens]
    · exact ih
  | binary operator left right ihLeft ihRight =>
    have isInner : (Token.ofSign operator.char).isInner = true := by cases operator <;> rfl
    simp only [tokens, Token.all_isInner_parens, List.all_append, List.all_cons, isInner, ihLeft, ihRight,
      Bool.and_self]
  | choice condition consequence alternative ihTested ihYes ihNo =>
    simp only [tokens, Token.all_isInner_parens, List.all_append, List.all_cons, ihTested, ihYes, ihNo]
    rfl
  | assign target value ih =>
    simp only [tokens, Token.all_isInner_parens, List.all_cons, ih]
    rfl
  | function parameters body ih =>
    have names : (parameters.map Token.ofName).all Token.isInner = true := by simp [Token.isInner, Token.ofName]
    simp only [tokens, Token.all_isInner_parens, List.all_append, List.all_cons, names, ih, Bool.and_true]
    rfl
  | call callee arguments ihCallee ihArguments =>
    rw [tokens, List.all_append, ihCallee, Token.all_isInner_parens, tokensAll_eq_flatMap, List.all_flatMap]
    simpa using ihArguments

/-- If its names are words and its integers have no sign, a tree comes back unless an argument looks like a
call. -/
theorem parseLine_render {expr : Expr}
    (lexical : ∀ node ∈ expr.nodes, node.isNonNegative = true ∧ node.hasWords = true) :
    parseLine (expr.render ++ "\n") = .ok expr ↔ ∀ node ∈ expr.nodes, node.argumentsBare = true := by
  have inner := List.all_eq_true.mp expr.all_isInner_tokens
  simp only [Token.isInner, Bool.and_eq_true, decide_eq_true_eq] at inner
  constructor
  · intro read
    have spelled : (Token.scan (expr.render ++ "\n")).map Token.bare = _ := spell_line lexical
    have parses := (parseLine_eq_ok.mp read).2
    rw [← parse_bare, spelled] at parses
    -- The line that was read is the whole rendering, as only its last token ends the input.
    have only : ∀ token ∈ expr.tokens ++ [⟨.newLine, "", 0, 0⟩], token.kind ≠ .endOfInput := by
      simp only [List.forall_mem_append, List.forall_mem_singleton]
      exact ⟨fun token isOne => (inner token isOne).2, by decide⟩
    obtain ⟨body, newLine, ending, same, -, -, derives⟩ := line_of_parse_of_ends rfl only parses
    rw [List.append_assoc] at same
    rw [← List.append_inj_left' same rfl] at derives
    exact argumentsBare_of_derives derives
  · intro bare
    have derives : Derives .longest .assignment expr.tokens .newLine expr :=
      (derives_calls (derives_tokens bare .newLine)).toWhole (by decide) (by decide)
    exact parseLine_of_spells String.toList_append (expr.spells_render lexical) (fun token isOne => (inner token isOne).1)
      derives

/-- The text of the expression begins with a parenthesis. -/
def opensParen (expr : Expr) : Bool :=
  expr.render.toList.head? = some '('

/-- Of the arguments of the expression itself, none after the first opens with a parenthesis. -/
def argumentsApart : Expr → Bool
  | .call _ arguments => arguments.tail.all fun argument => !argument.opensParen
  | _ => true

theorem nodes_trans {expr node : Expr} (isNode : node ∈ expr.nodes) : ∀ part ∈ node.nodes, part ∈ expr.nodes := by
  intro part isPart
  induction expr with
  | integer | name => rwa [List.mem_singleton.mp isNode] at isPart
  | signed _ _ ih | assign _ _ ih | function _ _ ih =>
    rcases List.mem_cons.mp isNode with rfl | inside
    · exact isPart
    · exact List.mem_cons_of_mem _ (ih inside)
  | binary _ _ _ ihLeft ihRight =>
    rcases List.mem_cons.mp isNode with rfl | inside
    · exact isPart
    · refine List.mem_cons_of_mem _ (List.mem_append.mpr ?_)
      exact (List.mem_append.mp inside).imp ihLeft ihRight
  | choice _ _ _ ihTested ihYes ihNo =>
    rcases List.mem_cons.mp isNode with rfl | inside
    · exact isPart
    · refine List.mem_cons_of_mem _ ?_
      simp only [List.mem_append] at inside ⊢
      exact inside.imp (Or.imp ihTested ihYes) ihNo
  | call callee arguments ihCallee ihArguments =>
    rcases List.mem_cons.mp isNode with rfl | inside
    · exact isPart
    · refine List.mem_cons_of_mem _ ?_
      simp only [nodesAll_eq_flatMap, List.mem_append, List.mem_flatMap] at inside ⊢
      rcases inside with called | ⟨argument, isOne, passed⟩
      · exact .inl (ihCallee called)
      · exact .inr ⟨argument, isOne, ihArguments argument isOne passed⟩

theorem head?_render {expr : Expr} (words : ∀ node ∈ expr.nodes, node.hasWords = true) :
    ∃ c, expr.render.toList.head? = some c ∧ (c = '(' ↔ expr.head.isLeaf = false) := by
  induction expr with
  | integer value =>
    obtain ⟨c, first, noParen⟩ := Numeral.head?_write value
    exact ⟨c, first, iff_of_false noParen nofun⟩
  | name word =>
    have isOne := words _ List.mem_cons_self
    simp only [hasWords, Token.isWord] at isOne
    split at isOne
    · cases isOne
    next first rest chars =>
      refine ⟨first, by simp [render, chars], iff_of_false ?_ nofun⟩
      rintro rfl
      exact absurd (Bool.and_eq_true_iff.mp isOne).1 (by decide)
  | call callee arguments ihCallee =>
    simp only [nodes, List.forall_mem_cons, List.forall_mem_append] at words
    obtain ⟨c, first, opens⟩ := ihCallee words.2.1
    exact ⟨c, by simp [render, first], opens⟩
  | signed sign operand =>
    refine ⟨'(', ?_, iff_of_true rfl rfl⟩
    rw [render]
    split <;> simp
  | _ => exact ⟨'(', by simp [render], iff_of_true rfl rfl⟩

theorem opensParen_eq {expr : Expr} (words : ∀ node ∈ expr.nodes, node.hasWords = true) :
    expr.opensParen = !expr.head.isLeaf := by
  obtain ⟨c, first, opens⟩ := head?_render words
  rw [opensParen, first]
  cases isLeaf : expr.head.isLeaf <;> simp_all

theorem argumentsApart_iff {expr : Expr} (words : ∀ node ∈ expr.nodes, node.hasWords = true) :
    (∀ node ∈ expr.nodes, node.argumentsApart = true) ↔ ∀ node ∈ expr.nodes, node.argumentsBare = true := by
  refine forall₂_congr fun node isNode => ?_
  cases node with
  | call callee arguments =>
    have each : ∀ argument ∈ arguments.tail, argument.opensParen = !argument.head.isLeaf := by
      intro argument isOne
      refine opensParen_eq fun part isPart => words part (nodes_trans isNode part ?_)
      simp only [nodes, nodesAll_eq_flatMap, List.mem_cons, List.mem_append, List.mem_flatMap]
      exact .inr (.inr ⟨argument, List.mem_of_mem_tail isOne, isPart⟩)
    simp only [argumentsApart, argumentsBare, List.all_eq_true]
    refine forall₂_congr fun argument isOne => ?_
    rw [each argument isOne, Bool.not_not]
  | _ => rfl

end Expr

/-- A tree that was read from a text comes back from its rendering, unless an argument after the first opens with
a parenthesis. -/
theorem parseLine_render_of_parseLine {text : String} {expr : Expr} (parses : parseLine text = .ok expr) :
    parseLine (expr.render ++ "\n") = .ok expr ↔ ∀ node ∈ expr.nodes, node.argumentsApart = true := by
  have lexical := lexical_of_parseLine parses
  rw [Expr.parseLine_render lexical, Expr.argumentsApart_iff fun node isNode => (lexical node isNode).2]

/-- Its rendering is `f(1 (2 + 3))`, where the sum is an argument of a call of the integer. -/
def argumentSum : Expr :=
  .call (.name "f") [.integer 1, .binary .add (.integer 2) (.integer 3)]

theorem parseLine_render_argumentSum :
    parseLine "f(1 2 + 3)\n" = .ok argumentSum ∧ parseLine (argumentSum.render ++ "\n") ≠ .ok argumentSum := by
  have scanned : Token.scan "f(1 2 + 3)\n" =
      [⟨.name, "f", 0, 1⟩, ⟨.leftParen, "(", 1, 2⟩, ⟨.integer, "1", 2, 3⟩, ⟨.integer, "2", 4, 5⟩,
        ⟨.plus, "+", 6, 7⟩, ⟨.integer, "3", 8, 9⟩, ⟨.rightParen, ")", 9, 10⟩, ⟨.newLine, "", 10, 11⟩,
        ⟨.endOfInput, "", 11, 11⟩] := by decide +kernel
  have parses : parseLine "f(1 2 + 3)\n" = .ok argumentSum := by
    rw [parseLine_eq_ok, scanned]
    exact ⟨by decide, by rfl⟩
  refine ⟨parses, fun back => ?_⟩
  exact absurd ((parseLine_render_of_parseLine parses).mp back) (by decide)

/-- The trees that come back, whether a text gave them or not. -/
theorem parseLine_render_iff (expr : Expr) :
    (parseLine (expr.render ++ "\n") = .ok expr ↔
        (∀ node ∈ expr.nodes, node.isNonNegative = true) ∧ (∀ node ∈ expr.nodes, node.hasWords = true) ∧
          ∀ node ∈ expr.nodes, node.argumentsApart = true) ∧
      (∀ word, Token.isWord word = true ↔
        (Token.scan word).map Token.bare = [⟨.name, word, 0, 0⟩, ⟨.endOfInput, "", 0, 0⟩]) ∧
      ((∀ node ∈ expr.nodes, node.hasWords = true) ∧ (∀ node ∈ expr.nodes, node.argumentsApart = true) ↔
        (∀ node ∈ expr.nodes, node.hasWords = true) ∧ ∀ node ∈ expr.nodes, node.argumentsBare = true) := by
  refine ⟨⟨?_, ?_⟩, Token.isWord_iff_scan, and_congr_right Expr.argumentsApart_iff⟩
  · intro parses
    have lexical := lexical_of_parseLine parses
    have words := fun node isNode => (lexical node isNode).2
    exact ⟨fun node isNode => (lexical node isNode).1, words,
      (Expr.argumentsApart_iff words).mpr ((Expr.parseLine_render lexical).mp parses)⟩
  · rintro ⟨nonNegative, words, apart⟩
    have lexical := fun node isNode => And.intro (nonNegative node isNode) (words node isNode)
    exact (Expr.parseLine_render lexical).mpr ((Expr.argumentsApart_iff words).mp apart)

end LineLang
