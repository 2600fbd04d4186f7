import LineLang.Proofs.Parse.Soundness
import LineLang.Proofs.RoundTrip.Calls

/-! Deriving a tree from the tokens of its rendering.

All but calls stand in parentheses, so they are single operands whatever follows them. Only from one argument to
the next does it matter what follows.
-/

set_option autoImplicit false

namespace LineLang

open Grammar

namespace Grammar.Derives

variable {word : List Token} {next : Token.Kind} {expr : Expr}

theorem toFactors (derives : Derives .longest .calls word next expr) (noParen : next ≠ .leftParen) :
    Derives .longest .factors word next expr :=
  .call (.calls derives fun _ => noParen)

theorem toTerms (derives : Derives .longest .calls word next expr) (noParen : next ≠ .leftParen)
    (noFactor : next.factor? = none) : Derives .longest .terms word next expr :=
  .product (.factors (derives.toFactors noParen) fun _ => noFactor)

theorem toSum (derives : Derives .longest .calls word next expr) (ends : Level.sum.Ends next) :
    Derives .longest .sum word next expr :=
  .terms (derives.toTerms ends.2.2 ends.2.1) fun _ => ends.1

theorem toWhole (derives : Derives .longest .calls word next expr) (ends : Level.assignment.Ends next)
    (noEquals : next ≠ .equals) : Derives .longest .assignment word next expr :=
  derives.rise ends noEquals (by decide)

theorem parens {level : Level} (inside : Derives .longest level word .rightParen expr) (next : Token.Kind) :
    Derives .longest .atom (Token.parens word) next expr := by
  have whole : Derives .longest .assignment word .rightParen expr :=
    inside.rise (by decide) (by decide) (by cases level <;> decide)
  exact .group rfl whole rfl

theorem ofName (name : String) (next : Token.Kind) : Derives .longest .atom [.ofName name] next (.name name) :=
  @Derives.name .longest (.ofName name) next rfl

theorem called {passed : List Token} {argument : Expr} (derives : Derives .longest .calls word .leftParen expr)
    (passes : Derives .longest .calls passed .rightParen argument) (next : Token.Kind) :
    Derives .longest .calls (word ++ Token.parens passed) next (.call expr [argument]) := by
  have single : Sequence (Derives .longest .sum) (passed ++ []) .rightParen [argument] :=
    .cons (passes.toSum (by decide)) .nil
  rw [List.append_nil] at single
  exact .arguments derives rfl single rfl

end Grammar.Derives

theorem Operator.term_or_factor (operator : Operator) :
    let kind := (Token.ofSign operator.char).kind
    (kind.term? = some operator ∧ kind.factor? = none ∨ kind.factor? = some operator) ∧ kind ≠ .leftParen := by
  cases operator <;> simp [Token.ofSign, Operator.char, Token.Kind.ofSign?, Token.Kind.term?, Token.Kind.factor?]

theorem Grammar.Derives.operation {first second : List Token} {next : Token.Kind} {left right : Expr}
    (operator : Operator) (before : ∀ next, Derives .longest .calls first next left)
    (last : Derives .longest .calls second next right) (ends : Level.assignment.Ends next)
    (noEquals : next ≠ .equals) :
    Derives .longest .assignment (first ++ .ofSign operator.char :: second) next (.binary operator left right) := by
  obtain ⟨isTerm | isFactor, noParen⟩ := operator.term_or_factor
  · have product : Derives .longest .product second next right := last.rise ends noEquals (by decide)
    have sum := Derives.term ((before _).toTerms noParen isTerm.2) isTerm.1 product
    exact sum.rise ends noEquals (by decide)
  · have call : Derives .longest .call second next right := last.rise ends noEquals (by decide)
    have product := Derives.factor ((before _).toFactors noParen) isFactor call
    exact product.rise ends noEquals (by decide)

namespace Expr

theorem sequence_tokensAll {arguments : List Expr}
    (each : ∀ argument ∈ arguments, ∀ next, Derives .longest .calls argument.tokens next argument)
    (bare : ∀ argument ∈ arguments.tail, argument.head.isLeaf = true) :
    Sequence (Derives .longest .sum) (tokensAll arguments) .rightParen arguments := by
  induction arguments with
  | nil => exact .nil
  | cons argument arguments ih =>
    obtain ⟨derives, others⟩ := List.forall_mem_cons.mp each
    have after : Sequence (Derives .longest .sum) (tokensAll arguments) .rightParen arguments :=
      ih others fun other isOther => bare other (List.mem_of_mem_tail isOther)
    refine .cons ((derives _).toSum ?_) after
    cases arguments with
    | nil => decide
    | cons following arguments =>
      have leaf : following.isWrapped = false := by simp [isWrapped, bare following List.mem_cons_self]
      have starts := following.ahead_tokens .rightParen
      rw [leaf] at starts
      rw [tokensAll, ahead_append following.tokens_ne_nil _ _ .rightParen]
      rcases starts with kind | kind <;> rw [kind] <;> decide

/-- What the tokens of a rendering are derived as: a chain of calls, or a single operand. -/
def level (expr : Expr) : Level :=
  if expr.isCall then .calls else .atom

theorem derives_calls {expr : Expr} {word : List Token} {next : Token.Kind}
    (derives : Derives .longest expr.level word next expr) : Derives .longest .calls word next expr := by
  unfold level at derives
  split at derives
  · exact derives
  · exact .unary (.atom derives)

theorem derives_tokens {expr : Expr} (bare : ∀ node ∈ expr.nodes, node.argumentsBare = true) (next : Token.Kind) :
    Derives .longest expr.level expr.tokens next expr := by
  induction expr generalizing next with
  | integer value => exact .integer rfl (Numeral.read_write value)
  | name word => exact .ofName word next
  | signed sign operand ih =>
    simp only [nodes, List.forall_mem_cons] at bare
    have isSign : (Token.ofSign sign.char).kind.sign? = some sign := by cases sign <;> rfl
    have derives := fun next => ih bare.2 next
    rw [tokens]
    split
    next isCall => exact .parens (.signed isSign ((derives_calls (derives _)).parens _)) next
    next single =>
      simp only [level, single] at derives
      exact .parens (.signed isSign (derives _)) next
  | binary operator left right ihLeft ihRight =>
    simp only [nodes, List.forall_mem_cons, List.forall_mem_append] at bare
    have before := fun next => derives_calls (ihLeft bare.2.1 next)
    have last := derives_calls (ihRight bare.2.2 .rightParen)
    exact .parens (.operation operator before last (by decide) (by decide)) next
  | choice condition consequence alternative ihTested ihYes ihNo =>
    simp only [nodes, List.forall_mem_cons, List.forall_mem_append] at bare
    obtain ⟨-, ⟨bareTested, bareYes⟩, bareNo⟩ := bare
    have tested := (derives_calls (ihTested bareTested .question)).toSum (by decide)
    have yes := (derives_calls (ihYes bareYes .colon)).toWhole (by decide) (by decide)
    have no := (derives_calls (ihNo bareNo .rightParen)).toWhole (by decide) (by decide)
    exact .parens (.choice tested rfl yes rfl no) next
  | assign target value ih =>
    simp only [nodes, List.forall_mem_cons] at bare
    have assigned := (derives_calls (ih bare.2 .rightParen)).toWhole (by decide) (by decide)
    have whole : Derives .longest .assignment (.ofName target :: .ofSign '=' :: value.tokens) .rightParen
        (.assign (Token.ofName target).text value) := .assign rfl rfl assigned
    exact .parens whole next
  | function parameters body ih =>
    simp only [nodes, List.forall_mem_cons] at bare
    have inner := (derives_calls (ih bare.2 .rightParen)).toWhole (by decide) (by decide)
    have texts : (parameters.map Token.ofName).map Token.text = parameters := by
      simp [Function.comp_def, Token.ofName]
    have whole : Derives .longest .atom (.ofSign '|' :: (parameters.map .ofName ++ .ofSign '|' :: body.tokens))
        .rightParen (.function ((parameters.map Token.ofName).map Token.text) body) :=
      .function rfl (fun _ => Token.kind_of_mem_names) rfl inner
    rw [texts] at whole
    exact .parens whole next
  | call callee arguments ihCallee ihArguments =>
    simp only [nodes, nodesAll_eq_flatMap, List.forall_mem_cons, List.forall_mem_append] at bare
    obtain ⟨here, called, passed⟩ := bare
    have each : ∀ argument ∈ arguments, ∀ next, Derives .longest .calls argument.tokens next argument := by
      intro argument isOne next
      refine derives_calls (ihArguments argument isOne (fun node isNode => passed node ?_) next)
      exact List.mem_flatMap.mpr ⟨argument, isOne, isNode⟩
    -- Only here does the condition on the arguments of this very call matter.
    have items := sequence_tokensAll each (List.all_eq_true.mp here)
    exact .arguments (derives_calls (ihCallee called .leftParen)) rfl items rfl

end Expr

end LineLang
