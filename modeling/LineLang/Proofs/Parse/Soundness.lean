import LineLang.Proofs.Parse.Steps

/-! What is read is derived.

For every open construct the tokens that opened it are kept, with derivations of the words it already holds.
A state then stands for the tokens that led to it, and reading one more token keeps this true: when a construct
is closed, the derivation of its last part completes that of the whole.
-/

set_option autoImplicit false

namespace LineLang

open Grammar

theorem Grammar.Sequence.snoc {Item : List Token → Token.Kind → Expr → Prop} {words word : List Token}
    {next : Token.Kind} {exprs : List Expr} {expr : Expr}
    (sequence : Sequence Item words (ahead word next) exprs) (item : Item word next expr) :
    Sequence Item (words ++ word) next (exprs ++ [expr]) := by
  generalize same : ahead word next = following at sequence
  induction sequence with
  | nil =>
    have single : Sequence Item (word ++ []) next [expr] := .cons item .nil
    rwa [List.append_nil] at single
  | @cons first words _ _ _ begins _ ih =>
    subst same
    rw [List.append_assoc]
    refine .cons ?_ (ih rfl)
    cases words with
    | nil => exact begins
    | cons token words => exact begins

namespace Grammar

def Level.looser : Level → Level
  | .atom => .unary
  | .unary => .calls
  | .calls => .call
  | .call => .factors
  | .factors => .product
  | .product => .terms
  | .terms => .sum
  | .sum => .ternary
  | .ternary | .assignment => .assignment

theorem Level.rank_injective {level other : Level} (same : level.rank = other.rank) : level = other := by
  cases level <;> cases other <;> first | rfl | cases same

theorem Derives.loosen {level : Level} {word : List Token} {next : Token.Kind} {expr : Expr}
    (derives : Derives .longest level word next expr) (ends : Level.assignment.Ends next)
    (noEquals : next ≠ .equals) : Derives .longest level.looser word next expr := by
  obtain ⟨noQuestion, noTerm, noFactor, noParen⟩ := ends
  cases level with
  | atom => exact .atom derives
  | unary => exact .unary derives
  | calls => exact .calls derives fun _ => noParen
  | call => exact .call derives
  | factors => exact .factors derives fun _ => noFactor
  | product => exact .product derives
  | terms => exact .terms derives fun _ => noTerm
  | sum => exact .sum derives fun _ => noQuestion
  | ternary => exact .ternary derives fun _ => derives.not_startsAssignment (by decide) noEquals
  | assignment => exact derives

theorem Derives.rise {level other : Level} {word : List Token} {next : Token.Kind} {expr : Expr}
    (derives : Derives .longest level word next expr) (ends : Level.assignment.Ends next)
    (noEquals : next ≠ .equals) (tight : level.rank ≤ other.rank) : Derives .longest other word next expr := by
  induction gap : other.rank - level.rank generalizing level with
  | zero =>
    have same : level = other := Level.rank_injective (by omega)
    exact same ▸ derives
  | succ gap ih =>
    have step : level.looser.rank = level.rank + 1 := by
      cases level with
      | assignment => cases other <;> simp [Level.rank] at gap
      | _ => rfl
    exact ih (derives.loosen ends noEquals) (by omega) (by omega)

end Grammar

namespace Parse

/-- The tokens were read up to where the innermost construct waits for its expression, which starts with a
token of kind `next`. -/
inductive Opened : List Pending → List Token → Token.Kind → Prop where
  | nil {next} : Opened [] [] next
  | sign {pending read token sign next} : Opened pending read token.kind → Fits .unary pending →
      token.kind.sign? = some sign → Opened (.sign sign :: pending) (read ++ [token]) next
  | factor {pending read word left operator next} {sign : Token} :
      Opened pending read (ahead word sign.kind) → Fits .factors pending →
      Derives .longest .factors word sign.kind left → sign.kind.factor? = some operator →
      Opened (.factor left operator :: pending) (read ++ (word ++ [sign])) next
  | term {pending read word left operator next} {sign : Token} :
      Opened pending read (ahead word sign.kind) → Fits .terms pending →
      Derives .longest .terms word sign.kind left → sign.kind.term? = some operator →
      Opened (.term left operator :: pending) (read ++ (word ++ [sign])) next
  | argument {pending read word words callee before next} {left : Token} :
      Opened pending read (ahead word .leftParen) → Fits .call pending →
      Derives .longest .calls word .leftParen callee → left.kind = .leftParen →
      Sequence (Derives .longest .sum) words next before →
      Opened (.argument callee before :: pending) (read ++ (word ++ left :: words)) next
  | group {pending read next} {left : Token} : Opened pending read left.kind → left.kind = .leftParen →
      Opened (.group :: pending) (read ++ [left]) next
  | target {pending read next} {name equals : Token} : Opened pending read name.kind →
      need pending = .assignment → name.kind = .name → equals.kind = .equals →
      Opened (.target name.text :: pending) (read ++ [name, equals]) next
  | consequence {pending read word condition next} {question : Token} :
      Opened pending read (ahead word .question) → need pending = .assignment →
      Derives .longest .sum word .question condition → question.kind = .question →
      Opened (.consequence condition :: pending) (read ++ (word ++ [question])) next
  | alternative {pending read first second condition consequence next} {question colon : Token} :
      Opened pending read (ahead first .question) → need pending = .assignment →
      Derives .longest .sum first .question condition → question.kind = .question →
      Derives .longest .assignment second .colon consequence → colon.kind = .colon →
      Opened (.alternative condition consequence :: pending)
        (read ++ (first ++ question :: (second ++ [colon]))) next
  | body {pending read parameters next} {left right : Token} : Opened pending read left.kind →
      left.kind = .bar → (∀ parameter ∈ parameters, Token.kind parameter = .name) → right.kind = .bar →
      Opened (.body (parameters.map Token.text) :: pending) (read ++ left :: (parameters ++ [right])) next

/-- The tokens that were read lead to the state. -/
inductive Represents : State → List Token → Prop where
  | expression {pending read} : (∀ next, Opened pending read next) → Represents (.expression pending) read
  | parameters {pending read parameters} {left : Token} : Opened pending read left.kind → left.kind = .bar →
      (∀ parameter ∈ parameters, Token.kind parameter = .name) →
      Represents (.parameters pending (parameters.map Token.text)) (read ++ left :: parameters)
  | name {pending read} {token : Token} : Opened pending read token.kind → need pending = .assignment →
      token.kind = .name → Represents (.name pending token.text) (read ++ [token])
  | operand {pending read word expr} : (∀ next, Opened pending read (ahead word next)) → Fits .call pending →
      (∀ next, Derives .longest .calls word next expr) → Represents (.operand pending expr) (read ++ word)
  | line {body expr} {newLine : Token} : Derives .longest .assignment body .newLine expr →
      newLine.kind = .newLine → Represents (.line expr) (body ++ [newLine])
  | finished {body expr rest} {newLine ending : Token} : Derives .longest .assignment body .newLine expr →
      newLine.kind = .newLine → ending.kind = .endOfInput →
      Represents (.finished expr) (body ++ newLine :: ending :: rest)

variable {pending : List Pending} {read word : List Token} {expr : Expr} {token : Token} {next : State}

theorem demand_eq_ok {kind : Token.Kind} {after : State} (demands : demand kind token after = .ok next) :
    token.kind = kind ∧ after = next := by
  rw [demand] at demands
  split at demands
  next isKind => exact ⟨isKind, by simpa using demands⟩
  · cases demands

theorem represents_ofAtom (opened : ∀ next, Opened pending read (ahead word next))
    (atom : ∀ next, Derives .longest .atom word next expr) :
    Represents (.ofAtom pending expr) (read ++ word) := by
  by_cases free : Fits .unary pending
  · rw [ofAtom_of_fits free]
    exact .operand opened (fits_call_of_afterSign (afterSign_of_fits free)) fun next => .unary (.atom (atom next))
  · cases opened .newLine with
    | sign before waits isSign =>
      rw [List.append_assoc]
      refine .operand (fun _ => before) (fits_call_of_afterSign (afterSign_of_fits waits)) ?_
      exact fun next => .unary (.signed isSign (atom next))
    | _ => exact absurd (by simp [Fits, need, Level.rank]) free

theorem represents_start (opened : Opened pending read token.kind) (starts : start pending token = .ok next) :
    Represents next (read ++ [token]) := by
  cases kind : token.kind with
  | integer =>
    cases reads : Numeral.read token.text with
    | ok value =>
      rw [start_integer kind reads] at starts
      cases starts
      exact represents_ofAtom (fun _ => opened) fun _ => .integer kind reads
    | error fault => simp [start, kind, reads] at starts
  | name =>
    rw [start_name kind] at starts
    split at starts
    next whole =>
      cases starts
      exact .name opened ((takesWhole_iff pending).mp whole) kind
    next =>
      cases starts
      exact represents_ofAtom (fun _ => opened) fun _ => .name kind
  | leftParen =>
    rw [start_leftParen kind] at starts
    cases starts
    exact .expression fun next => .group opened kind
  | bar =>
    rw [start_bar kind] at starts
    cases starts
    have begins : Represents (.parameters pending ([].map Token.text)) (read ++ [token]) :=
      .parameters opened kind nofun
    exact begins
  | plus | minus =>
    have isSign : ∃ sign, token.kind.sign? = some sign := by rw [kind]; exact ⟨_, rfl⟩
    obtain ⟨sign, isSign⟩ := isSign
    rw [start_sign isSign, openSign] at starts
    split at starts
    · cases starts
    next free =>
      cases starts
      have waits : Fits .call pending := fits_call_of_afterSign (by simpa using free)
      exact .expression fun next => .sign opened (waits.of_rank_le (by decide)) isSign
  | rightParen =>
    rw [kind] at opened
    simp only [start, kind] at starts
    split at starts
    next =>
      cases starts
      cases opened with
      | @argument pending read word words callee before _ left earlier fits called isLeft items =>
        rw [List.append_assoc, List.append_assoc, List.cons_append]
        refine .operand ?_ fits fun next => .arguments called isLeft items kind
        intro next
        rw [ahead_append called.word_ne_nil _ _ .leftParen]
        exact earlier
    · cases starts
  | _ => simp [start, kind] at starts

/-- The tokens end with an expression of this level where the open constructs allow one. -/
def Stands (level : Level) (pending : List Pending) (tokens : List Token) (next : Token.Kind)
    (expr : Expr) : Prop :=
  ∃ read word, tokens = read ++ word ∧ Opened pending read (ahead word next) ∧ Fits level pending ∧
    Derives .longest level word next expr

theorem Stands.rise {tokens : List Token} {next : Token.Kind} {level : Level}
    (stands : Stands level pending tokens next expr) (ends : Level.assignment.Ends next)
    (noEquals : next ≠ .equals) : Stands (need pending) pending tokens next expr := by
  obtain ⟨read, word, same, opened, fits, derives⟩ := stands
  exact ⟨read, word, same, opened, Nat.le_refl _, derives.rise ends noEquals fits⟩

theorem Stands.endProduct {tokens : List Token} {next : Token.Kind}
    (stands : Stands .call pending tokens next expr) :
    Stands .factors (closeProduct pending expr).1 tokens next (closeProduct pending expr).2 := by
  obtain ⟨read, word, rfl, opened, fits, derives⟩ := stands
  by_cases free : Fits .factors pending
  · rw [closeProduct_of_fits free]
    exact ⟨read, word, rfl, opened, free, .call derives⟩
  · cases opened with
    | @factor pending read first _ _ _ sign before waits factors isSign =>
      refine ⟨read, first ++ sign :: word, by simp, ?_, waits, .factor factors isSign derives⟩
      rwa [ahead_append factors.word_ne_nil _ _ sign.kind]
    | sign => simp [Fits, need, Level.rank] at fits
    | _ => exact absurd (by simp [Fits, need, Level.rank]) free

theorem Stands.endSum {tokens : List Token} {next : Token.Kind}
    (stands : Stands .call pending tokens next expr) (ends : next.factor? = none) :
    Stands .terms (closeSum pending expr).1 tokens next (closeSum pending expr).2 := by
  have product := stands.endProduct
  rw [closeSum]
  generalize closeProduct pending expr = ended at product ⊢
  obtain ⟨pending, expr⟩ := ended
  obtain ⟨read, word, rfl, opened, fits, derives⟩ := product
  cases opened with
  | @term pending read first _ _ _ sign before waits terms isSign =>
    refine ⟨read, first ++ sign :: word, by simp, ?_, waits, .term terms isSign (.factors derives fun _ => ends)⟩
    rwa [ahead_append terms.word_ne_nil _ _ sign.kind]
  | sign | factor => simp [Fits, need, Level.rank] at fits
  | nil =>
    exact ⟨_, _, rfl, .nil, by simp [Fits, need, Level.rank], .product (.factors derives fun _ => ends)⟩

  | _ =>
    refine ⟨_, _, rfl, ?_, by simp [Fits, need, Level.rank], .product (.factors derives fun _ => ends)⟩
    constructor <;> assumption

theorem represents_close (stands : Stands (need pending) pending read token.kind expr)
    (ends : Level.assignment.Ends token.kind) (noEquals : token.kind ≠ .equals)
    (closes : close pending expr token = .ok next) : Represents next (read ++ [token]) := by
  induction pending generalizing read expr with
  | nil =>
    obtain ⟨_, word, rfl, opened, -, derives⟩ := stands
    -- Nothing is open, so the word is all that was read.
    cases opened
    obtain ⟨isNewLine, rfl⟩ := demand_eq_ok closes
    rw [isNewLine] at derives
    exact .line derives isNewLine
  | cons construct pending ih =>
    obtain ⟨_, word, rfl, opened, -, derives⟩ := stands
    cases opened with
    | @sign _ read sign _ _ before waits isSign =>
      refine ih (Stands.rise ⟨read, sign :: word, by simp, before, waits, .signed isSign derives⟩
        ends noEquals) closes
    | @factor _ read first _ _ _ sign before waits factors isSign =>
      refine ih (Stands.rise ⟨read, first ++ sign :: word, by simp, ?_, waits, .factor factors isSign derives⟩
        ends noEquals) closes
      rwa [ahead_append factors.word_ne_nil _ _ sign.kind]
    | @term _ read first _ _ _ sign before waits terms isSign =>
      refine ih (Stands.rise ⟨read, first ++ sign :: word, by simp, ?_, waits, .term terms isSign derives⟩
        ends noEquals) closes
      rwa [ahead_append terms.word_ne_nil _ _ sign.kind]
    | @argument _ read first words callee before _ left earlier fits called isLeft items =>
      have longer : Opened (.argument callee (before ++ [expr]) :: pending)
          (read ++ (first ++ left :: (words ++ word))) token.kind :=
        .argument earlier fits called isLeft (items.snoc derives)
      have represents := represents_start longer closes
      simpa using represents
    | @group _ read _ left before isLeft =>
      obtain ⟨isRight, rfl⟩ := demand_eq_ok closes
      rw [isRight] at derives
      have atom : Represents (.ofAtom pending expr) (read ++ left :: (word ++ [token])) :=
        represents_ofAtom (fun _ => before) fun _ => .group isLeft derives isRight
      simpa using atom
    | @target _ read _ name equals before whole isName isEquals =>
      refine ih (Stands.rise ⟨read, name :: equals :: word, by simp, before, ?_, .assign isName isEquals derives⟩
        ends noEquals) closes
      simp [Fits, whole]
    | @consequence _ read first condition _ question before whole tested isQuestion =>
      obtain ⟨isColon, rfl⟩ := demand_eq_ok closes
      rw [isColon] at derives
      have opens : Represents (.expression (.alternative condition expr :: pending))
          (read ++ (first ++ question :: (word ++ [token]))) :=
        .expression fun _ => .alternative before whole tested isQuestion derives isColon
      simpa using opens
    | @alternative _ read first second _ _ _ question colon before whole tested isQuestion yes isColon =>
      refine ih (Stands.rise ⟨read, first ++ question :: (second ++ colon :: word), by simp, ?_, ?_,
        .choice tested isQuestion yes isColon derives⟩ ends noEquals) closes
      · rwa [ahead_append tested.word_ne_nil _ _ .question]
      · simp [Fits, whole, Level.rank]
    | @body _ read parameters _ left right before isLeft names isRight =>
      -- A function is a single operand, and still ends only with what it is part of.
      refine ih (Stands.rise ⟨read, left :: (parameters ++ right :: word), by simp, before, Nat.zero_le _,
        .function isLeft names isRight derives⟩ ends noEquals) closes

theorem close_refuses (refused : token.kind = .equals ∨ token.kind = .question) :
    close pending expr token ≠ .ok next := by
  intro closes
  induction pending generalizing expr with
  | nil =>
    obtain ⟨isNewLine, -⟩ := demand_eq_ok closes
    simp [isNewLine] at refused
  | cons construct pending ih =>
    cases construct with
    | group | consequence =>
      obtain ⟨isEnd, -⟩ := demand_eq_ok closes
      simp [isEnd] at refused
    | argument => rcases refused with kind | kind <;> simp [close, start, kind] at closes
    | _ => exact ih closes

theorem represents_proceed (opened : ∀ next, Opened pending read (ahead word next)) (fits : Fits .call pending)
    (derives : ∀ next, Derives .longest .calls word next expr)
    (proceeds : proceed pending expr token = .ok next) :
    Represents next (read ++ word ++ [token]) := by
  by_cases isLeft : token.kind = .leftParen
  · rw [proceed_leftParen isLeft] at proceeds
    cases proceeds
    rw [List.append_assoc]
    exact .expression fun next => .argument (opened _) fits (derives _) isLeft .nil
  have stands : Stands .call pending (read ++ word) token.kind expr :=
    ⟨read, word, rfl, opened _, fits, .calls (derives _) fun _ => isLeft⟩
  -- What the token goes on with tells which constructs the operand ends: none, its product, its sum, or all.
  cases isFactor : token.kind.factor? with
  | some operator =>
    rw [proceed_factor isFactor, openFactor] at proceeds
    cases proceeds
    obtain ⟨read, word, same, before, waits, factors⟩ := stands.endProduct
    rw [same, List.append_assoc]
    exact .expression fun next => .factor before waits factors isFactor
  | none =>
  have sum := stands.endSum isFactor
  cases isTerm : token.kind.term? with
  | some operator =>
    rw [proceed_term isTerm, openTerm] at proceeds
    cases proceeds
    obtain ⟨read, word, same, before, waits, terms⟩ := sum
    rw [same, List.append_assoc]
    exact .expression fun next => .term before waits terms isTerm
  | none =>
  by_cases isQuestion : token.kind = .question
  · rw [proceed_question isQuestion] at proceeds
    split at proceeds
    next whole =>
      cases proceeds
      obtain ⟨read, word, same, before, waits, terms⟩ := sum
      rw [isQuestion] at before terms isTerm
      rw [same, List.append_assoc]
      exact .expression fun next =>
        .consequence before ((takesWhole_iff _).mp whole) (.terms terms fun _ => isTerm) isQuestion
    next => exact absurd proceeds (close_refuses (.inr isQuestion))
  · have ends : Level.assignment.Ends token.kind := ⟨isQuestion, isTerm, isFactor, isLeft⟩
    rw [proceed_ends ends] at proceeds
    have noEquals : token.kind ≠ .equals := fun isEquals => close_refuses (.inl isEquals) proceeds
    exact represents_close (stands.rise ends noEquals) ends noEquals proceeds

theorem Represents.step {state : State} (represents : Represents state read)
    (steps : state.step token = .ok next) :
    Represents next (read ++ [token]) := by
  cases represents with
  | expression opened => exact represents_start (opened _) steps
  | @parameters pending read parameters left opened isLeft names =>
    rw [List.append_assoc, List.cons_append]
    by_cases isName : token.kind = .name
    · simp only [State.step, isName] at steps
      cases steps
      have longer : Represents (.parameters pending ((parameters ++ [token]).map Token.text))
          (read ++ left :: (parameters ++ [token])) := by
        refine .parameters opened isLeft fun parameter isOne => ?_
        rcases List.mem_append.mp isOne with earlier | last
        · exact names parameter earlier
        · rw [List.mem_singleton.mp last, isName]
      simpa using longer
    · have ended : demand .bar token (.expression (.body (parameters.map Token.text) :: pending)) = .ok next := by
        simpa only [State.step, isName] using steps
      obtain ⟨isBar, rfl⟩ := demand_eq_ok ended
      exact .expression fun next => .body opened isLeft names isBar
  | @name pending read word opened whole isName =>
    rw [State.step] at steps
    split at steps
    next isEquals =>
      cases steps
      rw [List.append_assoc]
      exact .expression fun next => .target opened whole isName isEquals
    next =>
      refine represents_proceed (fun _ => opened) ?_ (fun next => .unary (.atom (.name isName))) steps
      simp [Fits, whole, Level.rank]
  | operand opened fits derives => exact represents_proceed opened fits derives steps
  | line derives isNewLine =>
    obtain ⟨isEnd, rfl⟩ := demand_eq_ok steps
    rw [List.append_assoc]
    exact .finished derives isNewLine isEnd
  | finished derives isNewLine isEnd =>
    cases steps
    rw [List.append_assoc]
    exact .finished derives isNewLine isEnd

theorem Represents.run {state : State} {tokens : List Token} (represents : Represents state read)
    (runs : state.run tokens = .ok next) : Represents next (read ++ tokens) := by
  induction tokens generalizing state read with
  | nil =>
    cases runs
    rwa [List.append_nil]
  | cons token tokens ih =>
    rw [State.run_cons] at runs
    cases steps : state.step token with
    | error fault => simp [steps, Except.bind] at runs
    | ok between =>
      rw [steps] at runs
      have rest := ih (represents.step steps) runs
      simpa using rest

end Parse

end LineLang
