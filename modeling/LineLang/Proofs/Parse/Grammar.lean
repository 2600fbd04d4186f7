import LineLang.Expr
import LineLang.Numeral
import LineLang.Token

/-! The grammar of a line.

    assignment  ←  NAME '=' assignment  |  ternary
    ternary     ←  sum '?' assignment ':' assignment  |  sum
    sum         ←  product (('+' | '-') product)*
    product     ←  call (('*' | '/' | '%') call)*
    call        ←  unary ('(' sum* ')')*
    unary       ←  ('+' | '-')? atom
    atom        ←  INTEGER  |  NAME  |  '(' assignment ')'  |  '|' NAME* '|' assignment

Read plainly it is ambiguous: nothing separates arguments, and the body of a function has no end of its
own. Under the longest reading a repetition goes on while it can and a name before an equals sign is
always a target, so a derivation also depends on the kind of the token after the word it derives.
-/

set_option autoImplicit false

namespace LineLang

def Token.Kind.term? : Token.Kind → Option Operator
  | .plus => some .add
  | .minus => some .subtract
  | _ => none

def Token.Kind.factor? : Token.Kind → Option Operator
  | .times => some .multiply
  | .divide => some .divide
  | .modulo => some .modulo
  | _ => none

def Token.Kind.sign? : Token.Kind → Option Sign
  | .plus => some .plus
  | .minus => some .minus
  | _ => none

namespace Grammar

inductive Reading where
  | plain
  | longest

/-- Repetitions stand here twice: `terms`, `factors` and `calls` may yet go on; `sum`, `product` and `call`
are over. -/
inductive Level where
  | assignment
  | ternary
  | sum
  | terms
  | product
  | factors
  | call
  | calls
  | unary
  | atom
  deriving DecidableEq

def ahead (word : List Token) (next : Token.Kind) : Token.Kind :=
  match word with
  | [] => next
  | token :: _ => token.kind

def StartsAssignment (word : List Token) (next : Token.Kind) : Prop :=
  ∃ name rest, word = name :: rest ∧ name.kind = .name ∧ ahead rest next = .equals

/-- Words side by side, each with the next one after it and the last before a token of kind `next`. -/
inductive Sequence (Item : List Token → Token.Kind → Expr → Prop) :
    List Token → Token.Kind → List Expr → Prop where
  | nil {next} : Sequence Item [] next []
  | cons {word words next expr exprs} : Item word (ahead words next) expr → Sequence Item words next exprs →
      Sequence Item (word ++ words) next (expr :: exprs)

/-- `Derives reading level word next expr`: before a token of kind `next`, the word is an expression of this
level, namely `expr`. -/
inductive Derives (reading : Reading) : Level → List Token → Token.Kind → Expr → Prop where
  | assign {name equals : Token} {word next value} : name.kind = .name → equals.kind = .equals →
      Derives reading .assignment word next value →
      Derives reading .assignment (name :: equals :: word) next (.assign name.text value)
  | ternary {word next expr} : Derives reading .ternary word next expr →
      (reading = .longest → ¬ StartsAssignment word next) → Derives reading .assignment word next expr
  | choice {question colon : Token} {first second third next condition consequence alternative} :
      Derives reading .sum first .question condition → question.kind = .question →
      Derives reading .assignment second .colon consequence → colon.kind = .colon →
      Derives reading .assignment third next alternative →
      Derives reading .ternary (first ++ question :: (second ++ colon :: third)) next
        (.choice condition consequence alternative)
  | sum {word next expr} : Derives reading .sum word next expr →
      (reading = .longest → next ≠ .question) → Derives reading .ternary word next expr
  | terms {word next expr} : Derives reading .terms word next expr →
      (reading = .longest → next.term? = none) → Derives reading .sum word next expr
  | product {word next expr} : Derives reading .product word next expr → Derives reading .terms word next expr
  | term {sign : Token} {operator first second next left right} :
      Derives reading .terms first sign.kind left → sign.kind.term? = some operator →
      Derives reading .product second next right →
      Derives reading .terms (first ++ sign :: second) next (.binary operator left right)
  | factors {word next expr} : Derives reading .factors word next expr →
      (reading = .longest → next.factor? = none) → Derives reading .product word next expr
  | call {word next expr} : Derives reading .call word next expr → Derives reading .factors word next expr
  | factor {sign : Token} {operator first second next left right} :
      Derives reading .factors first sign.kind left → sign.kind.factor? = some operator →
      Derives reading .call second next right →
      Derives reading .factors (first ++ sign :: second) next (.binary operator left right)
  | calls {word next expr} : Derives reading .calls word next expr →
      (reading = .longest → next ≠ .leftParen) → Derives reading .call word next expr
  | unary {word next expr} : Derives reading .unary word next expr → Derives reading .calls word next expr
  | arguments {left right : Token} {word words next callee arguments} :
      Derives reading .calls word .leftParen callee → left.kind = .leftParen →
      Sequence (Derives reading .sum) words .rightParen arguments → right.kind = .rightParen →
      Derives reading .calls (word ++ left :: (words ++ [right])) next (.call callee arguments)
  | atom {word next expr} : Derives reading .atom word next expr → Derives reading .unary word next expr
  | signed {token : Token} {sign word next operand} : token.kind.sign? = some sign →
      Derives reading .atom word next operand →
      Derives reading .unary (token :: word) next (.signed sign operand)
  | integer {token : Token} {value next} : token.kind = .integer → Numeral.read token.text = .ok value →
      Derives reading .atom [token] next (.integer value)
  | name {token : Token} {next} : token.kind = .name → Derives reading .atom [token] next (.name token.text)
  | group {left right : Token} {word next expr} : left.kind = .leftParen →
      Derives reading .assignment word .rightParen expr → right.kind = .rightParen →
      Derives reading .atom (left :: (word ++ [right])) next expr
  | function {left right : Token} {parameters word next body} : left.kind = .bar →
      (∀ parameter ∈ parameters, parameter.kind = .name) → right.kind = .bar →
      Derives reading .assignment word next body →
      Derives reading .atom (left :: (parameters ++ right :: word)) next
        (.function (parameters.map Token.text) body)

theorem Sequence.mono {Item Other : List Token → Token.Kind → Expr → Prop} {words : List Token}
    {next : Token.Kind} {exprs : List Expr}
    (each : ∀ word next expr, Item word next expr → Other word next expr)
    (sequence : Sequence Item words next exprs) : Sequence Other words next exprs := by
  induction sequence with
  | nil => exact .nil
  | cons item _ ih => exact .cons (each _ _ _ item) ih

namespace Derives

variable {reading : Reading}

@[elab_as_elim, induction_eliminator]
theorem induct {motive : {level : Level} → {word : List Token} → {next : Token.Kind} → {expr : Expr} →
      Derives reading level word next expr → Prop}
    (assign : ∀ {name equals : Token} {word next value} (isName : name.kind = .name)
      (isEquals : equals.kind = .equals)
      (part : Derives reading .assignment word next value), motive part →
      motive (.assign isName isEquals part))
    (ternary : ∀ {word next expr} (part : Derives reading .ternary word next expr)
      (ends : reading = .longest → ¬ StartsAssignment word next), motive part → motive (.ternary part ends))
    (choice : ∀ {question colon : Token} {first second third next condition consequence alternative}
      (tested : Derives reading .sum first .question condition) (isQuestion : question.kind = .question)
      (yes : Derives reading .assignment second .colon consequence) (isColon : colon.kind = .colon)
      (no : Derives reading .assignment third next alternative),
      motive tested → motive yes → motive no → motive (.choice tested isQuestion yes isColon no))
    (sum : ∀ {word next expr} (part : Derives reading .sum word next expr)
      (ends : reading = .longest → next ≠ .question), motive part → motive (.sum part ends))
    (terms : ∀ {word next expr} (part : Derives reading .terms word next expr)
      (ends : reading = .longest → next.term? = none), motive part → motive (.terms part ends))
    (product : ∀ {word next expr} (part : Derives reading .product word next expr),
      motive part → motive (.product part))
    (term : ∀ {sign : Token} {operator first second next left right}
      (before : Derives reading .terms first sign.kind left) (isSign : sign.kind.term? = some operator)
      (last : Derives reading .product second next right),
      motive before → motive last → motive (.term before isSign last))
    (factors : ∀ {word next expr} (part : Derives reading .factors word next expr)
      (ends : reading = .longest → next.factor? = none), motive part → motive (.factors part ends))
    (call : ∀ {word next expr} (part : Derives reading .call word next expr), motive part → motive (.call part))
    (factor : ∀ {sign : Token} {operator first second next left right}
      (before : Derives reading .factors first sign.kind left) (isSign : sign.kind.factor? = some operator)
      (last : Derives reading .call second next right),
      motive before → motive last → motive (.factor before isSign last))
    (calls : ∀ {word next expr} (part : Derives reading .calls word next expr)
      (ends : reading = .longest → next ≠ .leftParen), motive part → motive (.calls part ends))
    (unary : ∀ {word next expr} (part : Derives reading .unary word next expr),
      motive part → motive (.unary part))
    (arguments : ∀ {left right : Token} {word words next callee arguments}
      (called : Derives reading .calls word .leftParen callee) (isLeft : left.kind = .leftParen)
      (items : Sequence (Derives reading .sum) words .rightParen arguments) (isRight : right.kind = .rightParen),
      motive called →
      Sequence (fun word next expr => ∃ part : Derives reading .sum word next expr, motive part)
        words .rightParen arguments →
      motive (.arguments called isLeft items isRight : Derives reading .calls _ next _))
    (atom : ∀ {word next expr} (part : Derives reading .atom word next expr), motive part → motive (.atom part))
    (signed : ∀ {token : Token} {sign word next operand} (isSign : token.kind.sign? = some sign)
      (part : Derives reading .atom word next operand), motive part → motive (.signed isSign part))
    (integer : ∀ {token : Token} {value next} (isInteger : token.kind = .integer)
      (reads : Numeral.read token.text = .ok value),
      motive (.integer isInteger reads : Derives reading .atom _ next _))
    (name : ∀ {token : Token} {next} (isName : token.kind = .name),
      motive (.name isName : Derives reading .atom _ next _))
    (group : ∀ {left right : Token} {word next expr} (isLeft : left.kind = .leftParen)
      (part : Derives reading .assignment word .rightParen expr) (isRight : right.kind = .rightParen),
      motive part → motive (.group isLeft part isRight : Derives reading .atom _ next _))
    (function : ∀ {left right : Token} {parameters : List Token} {word next body} (isLeft : left.kind = .bar)
      (names : ∀ parameter ∈ parameters, parameter.kind = .name) (isRight : right.kind = .bar)
      (part : Derives reading .assignment word next body), motive part →
      motive (.function isLeft names isRight part))
    {level : Level} {word : List Token} {next : Token.Kind} {expr : Expr}
    (derives : Derives reading level word next expr) : motive derives :=
  @Derives.rec reading (fun _ _ _ _ derives => motive derives)
    (fun words next exprs _ => Sequence
      (fun word next expr => ∃ part : Derives reading .sum word next expr, motive part) words next exprs)
    assign ternary choice sum terms product term factors call factor calls unary arguments atom signed integer
    name group function .nil (fun item _ ih ihs => .cons ⟨item, ih⟩ ihs)
    level word next expr derives

theorem plain {level : Level} {word : List Token} {next : Token.Kind} {expr : Expr}
    (derives : Derives .longest level word next expr) (other : Token.Kind) :
    Derives .plain level word other expr := by
  induction derives generalizing other with
  | assign isName isEquals _ ih => exact .assign isName isEquals (ih other)
  | ternary _ _ ih => exact .ternary (ih other) nofun
  | choice _ isQuestion _ isColon _ ihTested ihThen ihElse =>
    exact .choice (ihTested _) isQuestion (ihThen _) isColon (ihElse other)
  | sum _ _ ih => exact .sum (ih other) nofun
  | terms _ _ ih => exact .terms (ih other) nofun
  | product _ ih => exact .product (ih other)
  | term _ isSign _ ihBefore ihLast => exact .term (ihBefore _) isSign (ihLast other)
  | factors _ _ ih => exact .factors (ih other) nofun
  | call _ ih => exact .call (ih other)
  | factor _ isSign _ ihBefore ihLast => exact .factor (ihBefore _) isSign (ihLast other)
  | calls _ _ ih => exact .calls (ih other) nofun
  | unary _ ih => exact .unary (ih other)
  | arguments _ isLeft _ isRight ih items =>
    refine .arguments (ih _) isLeft (items.mono ?_) isRight
    rintro word next expr ⟨_, plain⟩
    exact plain next
  | atom _ ih => exact .atom (ih other)
  | signed isSign _ ih => exact .signed isSign (ih other)
  | integer isInteger reads => exact .integer isInteger reads
  | name isName => exact .name isName
  | group isLeft _ isRight ih => exact .group isLeft (ih _) isRight
  | function isLeft names isRight _ ih => exact .function isLeft names isRight (ih other)

theorem word_ne_nil {level : Level} {word : List Token} {next : Token.Kind} {expr : Expr}
    (derives : Derives reading level word next expr) : word ≠ [] := by
  induction derives with
  | ternary _ _ ih | sum _ _ ih | terms _ _ ih | factors _ _ ih | calls _ _ ih => exact ih
  | product _ ih | call _ ih | unary _ ih | atom _ ih => exact ih
  | _ => simp

end Derives

def Level.Ends : Level → Token.Kind → Prop
  | .assignment, next | .ternary, next =>
    next ≠ .question ∧ next.term? = none ∧ next.factor? = none ∧ next ≠ .leftParen
  | .sum, next => next.term? = none ∧ next.factor? = none ∧ next ≠ .leftParen
  | .terms, next | .product, next => next.factor? = none ∧ next ≠ .leftParen
  | .factors, next | .call, next => next ≠ .leftParen
  | .calls, _ | .unary, _ | .atom, _ => True

instance (level : Level) (next : Token.Kind) : Decidable (level.Ends next) :=
  match level with
  | .assignment | .ternary =>
    inferInstanceAs (Decidable (next ≠ .question ∧ next.term? = none ∧ next.factor? = none ∧ next ≠ .leftParen))
  | .sum => inferInstanceAs (Decidable (next.term? = none ∧ next.factor? = none ∧ next ≠ .leftParen))
  | .terms | .product => inferInstanceAs (Decidable (next.factor? = none ∧ next ≠ .leftParen))
  | .factors | .call => inferInstanceAs (Decidable (next ≠ .leftParen))
  | .calls | .unary | .atom => inferInstanceAs (Decidable True)

/-- The longest reading stops only where it has to. -/
theorem Derives.ends {level : Level} {word : List Token} {next : Token.Kind} {expr : Expr}
    (derives : Derives .longest level word next expr) : level.Ends next := by
  induction derives with
  | assign _ _ _ ih | choice _ _ _ _ _ _ _ ih => exact ih
  | ternary _ _ ih => exact ih
  | sum _ ends ih | terms _ ends ih | factors _ ends ih => exact ⟨ends rfl, ih⟩
  | product _ ih | call _ ih | term _ _ _ _ ih | factor _ _ _ _ ih => exact ih
  | calls _ ends _ => exact ends rfl
  | unary | arguments | atom | signed | integer | name | group | function => trivial

theorem ahead_append {word : List Token} (nonempty : word ≠ []) (rest : List Token) (next other : Token.Kind) :
    ahead (word ++ rest) next = ahead word other := by
  cases word with
  | nil => exact absurd rfl nonempty
  | cons token word => rfl

theorem StartsAssignment.of_append {word rest : List Token} {token : Token} {next : Token.Kind}
    (nonempty : word ≠ []) (starts : StartsAssignment (word ++ token :: rest) next) :
    StartsAssignment word token.kind := by
  obtain ⟨name, others, same, isName, isEquals⟩ := starts
  cases word with
  | nil => exact absurd rfl nonempty
  | cons first word =>
    simp only [List.cons_append, List.cons.injEq] at same
    obtain ⟨rfl, rfl⟩ := same
    refine ⟨first, word, rfl, isName, ?_⟩
    cases word with
    | nil => exact isEquals
    | cons second word => exact isEquals

theorem Derives.not_startsAssignment {reading : Reading} {level : Level} {word : List Token}
    {next : Token.Kind} {expr : Expr} (derives : Derives reading level word next expr)
    (other : level ≠ .assignment) (noEquals : next ≠ .equals) : ¬ StartsAssignment word next := by
  intro starts
  induction derives with
  | assign | ternary => exact other rfl
  | sum _ _ ih | terms _ _ ih | factors _ _ ih | calls _ _ ih => exact ih (by decide) noEquals starts
  | product _ ih | call _ ih | unary _ ih | atom _ ih => exact ih (by decide) noEquals starts
  | choice tested isQuestion _ _ _ ih =>
    have earlier := starts.of_append tested.word_ne_nil
    rw [isQuestion] at earlier
    exact ih (by decide) (by decide) earlier
  | term before isSign _ ih | factor before isSign _ ih =>
    -- An equals sign after the first name would have to be the operator.
    refine ih (by decide) ?_ (starts.of_append before.word_ne_nil)
    intro isEquals
    rw [isEquals] at isSign
    cases isSign
  | arguments called isLeft _ _ ih =>
    have earlier := starts.of_append called.word_ne_nil
    rw [isLeft] at earlier
    exact ih (by decide) (by decide) earlier
  | signed isSign =>
    obtain ⟨_, _, same, isName, _⟩ := starts
    cases same
    rw [isName] at isSign
    cases isSign
  | integer kind | group kind | function kind =>
    obtain ⟨_, _, same, isName, _⟩ := starts
    cases same
    rw [isName] at kind
    cases kind
  | name =>
    obtain ⟨_, _, same, _, isEquals⟩ := starts
    cases same
    exact noEquals isEquals

end Grammar

end LineLang
