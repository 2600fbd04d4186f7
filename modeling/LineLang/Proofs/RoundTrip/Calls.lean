import Mathlib.Algebra.BigOperators.Group.List.Basic
import Mathlib.Algebra.GroupWithZero.Nat
import LineLang.Proofs.Parse.Grammar
import LineLang.Proofs.RoundTrip.Tokens

/-! Counting calls in words and in trees.

Under the longest reading a parenthesis right after an operand always opens a call, so a word tells how many
calls its tree has. In a rendering such a parenthesis may also begin an argument, which makes the word count one
call more than the tree.
-/

set_option autoImplicit false

namespace LineLang

open Grammar

namespace Token

def Kind.endsOperand : Kind → Bool
  | .integer | .name | .rightParen => true
  | _ => false

/-- The parentheses right after an operand. `after` tells whether an operand stands before the word. -/
def callsIn (after : Bool) : List Token → Nat
  | [] => 0
  | token :: rest => (if after && token.kind == .leftParen then 1 else 0) + callsIn token.kind.endsOperand rest

def leaves (after : Bool) (word : List Token) : Bool :=
  word.foldl (fun _ token => token.kind.endsOperand) after

theorem callsIn_append (after : Bool) (first second : List Token) :
    callsIn after (first ++ second) = callsIn after first + callsIn (leaves after first) second := by
  induction first generalizing after with
  | nil => simp [callsIn, leaves]
  | cons token first ih => rw [List.cons_append, callsIn, callsIn, ih, Nat.add_assoc]; rfl

theorem leaves_append (after : Bool) (first second : List Token) :
    leaves after (first ++ second) = leaves (leaves after first) second :=
  List.foldl_append

/-- The word ends as an operand does, and has so many calls. -/
structure Operand (word : List Token) (calls : Nat) : Prop where
  ends : ∀ after, leaves after word = true
  counts : callsIn false word = calls

namespace Operand

variable {word first second words : List Token} {token sign left right : Token} {calls others : Nat}

theorem ne_nil (operand : Operand word calls) : word ≠ [] := by
  rintro rfl
  exact absurd (operand.ends false) Bool.false_ne_true

theorem counts_after (operand : Operand word calls) (next : Kind) :
    callsIn true word = calls + if ahead word next = .leftParen then 1 else 0 := by
  have counts := operand.counts
  cases word with
  | nil => exact absurd rfl operand.ne_nil
  | cons token word =>
    simp only [callsIn, Bool.false_and, Bool.false_eq_true, if_false, Nat.zero_add] at counts
    rw [callsIn, counts, Nat.add_comm]
    by_cases isLeft : token.kind = .leftParen <;> simp [ahead, isLeft]

theorem leaf (isEnd : token.kind.endsOperand = true) : Operand [token] 0 where
  ends _ := isEnd
  counts := rfl

theorem cons (opens : token.kind.endsOperand = false) (operand : Operand word calls) :
    Operand (token :: word) calls where
  ends _ := operand.ends _
  counts := by rw [callsIn, opens, operand.counts]; simp

theorem infixed (opens : sign.kind.endsOperand = false) (noParen : sign.kind ≠ .leftParen)
    (before : Operand first calls) (last : Operand second others) :
    Operand (first ++ sign :: second) (calls + others) where
  ends after := by
    rw [leaves_append]
    exact last.ends _
  counts := by rw [callsIn_append, before.counts, before.ends, callsIn, opens, last.counts]; simp [noParen]

theorem parens (isLeft : left.kind = .leftParen) (inside : callsIn false words = calls)
    (isRight : right.kind = .rightParen) : Operand (left :: (words ++ [right])) calls where
  ends after := by
    rw [← List.cons_append, leaves_append]
    simp [leaves, isRight, Kind.endsOperand]
  counts := by
    rw [callsIn, isLeft, Kind.endsOperand.eq_def, callsIn_append, inside]
    simp [callsIn, isRight]

theorem grouped (operand : Operand word calls) : Operand (Token.parens word) calls :=
  .parens rfl operand.counts rfl

theorem called (callee : Operand word calls) (isLeft : left.kind = .leftParen)
    (inside : callsIn false words = others) (isRight : right.kind = .rightParen) :
    Operand (word ++ left :: (words ++ [right])) (calls + (1 + others)) where
  ends after := by
    rw [leaves_append]
    exact (parens isLeft inside isRight).ends _
  counts := by
    rw [callsIn_append, callee.counts, callee.ends, (parens isLeft inside isRight).counts_after .leftParen]
    simp [ahead, isLeft, Nat.add_comm]

theorem function {parameters : List Token} (isLeft : left.kind = .bar)
    (names : ∀ parameter ∈ parameters, parameter.kind = .name) (isRight : right.kind = .bar)
    (body : Operand word calls) : Operand (left :: (parameters ++ right :: word)) calls := by
  refine .cons (by rw [isLeft]; rfl) ?_
  have none : ∀ after, callsIn after parameters = 0 := by
    induction parameters with
    | nil => exact fun _ => rfl
    | cons parameter parameters ih =>
      intro after
      obtain ⟨isName, others⟩ := List.forall_mem_cons.mp names
      simp [callsIn, isName, ih others]
  refine ⟨fun after => ?_, ?_⟩
  · rw [leaves_append]
    exact body.ends _
  · rw [callsIn_append, none, callsIn, isRight, Kind.endsOperand.eq_def, body.counts]
    simp

end Operand

end Token

namespace Expr

def ownCalls : Expr → Nat
  | .call _ _ => 1
  | _ => 0

def head : Expr → Expr
  | .call callee _ => head callee
  | expr => expr

def isLeaf : Expr → Bool
  | .integer _ | .name _ => true
  | _ => false

/-- The rendering begins with a parenthesis, unless a name does. -/
def isWrapped (expr : Expr) : Bool :=
  !expr.head.isLeaf

/-- Of the arguments of the expression itself, those after the first are not wrapped. -/
def argumentsBare : Expr → Bool
  | .call _ arguments => arguments.tail.all fun argument => argument.head.isLeaf
  | _ => true

/-- The arguments of the expression itself that stand after another one and are wrapped. -/
def ownCollisions : Expr → Nat
  | .call _ arguments => arguments.tail.countP isWrapped
  | _ => 0

theorem ownCollisions_eq_zero (expr : Expr) : expr.ownCollisions = 0 ↔ expr.argumentsBare = true := by
  cases expr <;> simp [ownCollisions, argumentsBare, isWrapped]

def ownOpenings (expr : Expr) : Nat :=
  expr.ownCalls + expr.ownCollisions

end Expr

namespace Grammar

theorem Sequence.callsIn {words : List Token} {exprs : List Expr} {next : Token.Kind}
    (items : Sequence (fun word next expr => next ≠ .leftParen ∧
      Token.Operand word (expr.nodes.map Expr.ownCalls).sum) words next exprs) :
    Token.callsIn false words = ((Expr.nodesAll exprs).map Expr.ownCalls).sum := by
  induction items with
  | nil => rfl
  | @cons word words next expr exprs item _ ih =>
    obtain ⟨noParen, operand⟩ := item
    -- The next argument does not begin with a parenthesis, or the longest reading would have gone on.
    have same : Token.callsIn true words = Token.callsIn false words := by
      cases words with
      | nil => rfl
      | cons token words =>
        have kind : token.kind ≠ .leftParen := noParen
        simp [Token.callsIn, kind]
    rw [Token.callsIn_append, operand.counts, operand.ends, same, ih, Expr.nodesAll, List.map_append, List.sum_append]

theorem infix_of_sign {kind : Token.Kind} (isSign : kind.term?.isSome = true ∨ kind.factor?.isSome = true) :
    kind.endsOperand = false ∧ kind ≠ .leftParen := by
  cases kind <;> simp_all [Token.Kind.term?, Token.Kind.factor?, Token.Kind.endsOperand]

theorem not_endsOperand_of_sign {kind : Token.Kind} {sign : Sign} (isSign : kind.sign? = some sign) :
    kind.endsOperand = false := by
  cases kind <;> first | rfl | cases isSign

theorem Derives.operand {level : Level} {word : List Token} {next : Token.Kind} {expr : Expr}
    (derives : Derives .longest level word next expr) :
    Token.Operand word (expr.nodes.map Expr.ownCalls).sum := by
  induction derives with
  | ternary _ _ ih | sum _ _ ih | terms _ _ ih | factors _ _ ih | calls _ _ ih => exact ih
  | product _ ih | call _ ih | unary _ ih | atom _ ih => exact ih
  | assign isName isEquals _ ih =>
    have target := Token.Operand.leaf (by rw [isName]; rfl)
    simpa [Expr.nodes, Expr.ownCalls] using
      target.infixed (by rw [isEquals]; rfl) (by rw [isEquals]; decide) ih
  | choice _ isQuestion _ isColon _ ihTested ihYes ihNo =>
    have branches := ihYes.infixed (by rw [isColon]; rfl) (by rw [isColon]; decide) ihNo
    simpa [Expr.nodes, Expr.ownCalls, Nat.add_assoc] using
      ihTested.infixed (by rw [isQuestion]; rfl) (by rw [isQuestion]; decide) branches
  | term _ isSign _ ihBefore ihLast =>
    obtain ⟨opens, noParen⟩ := infix_of_sign (.inl (Option.isSome_of_eq_some isSign))
    simpa [Expr.nodes, Expr.ownCalls] using ihBefore.infixed opens noParen ihLast
  | factor _ isSign _ ihBefore ihLast =>
    obtain ⟨opens, noParen⟩ := infix_of_sign (.inr (Option.isSome_of_eq_some isSign))
    simpa [Expr.nodes, Expr.ownCalls] using ihBefore.infixed opens noParen ihLast
  | arguments _ isLeft _ isRight ih items =>
    have passed := Sequence.callsIn (items.mono ?_)
    · simpa [Expr.nodes, Expr.ownCalls, Nat.add_left_comm] using
        ih.called isLeft passed isRight
    · rintro word next expr ⟨part, operand⟩
      exact ⟨part.ends.2.2, operand⟩
  | signed isSign _ ih =>
    simpa [Expr.nodes, Expr.ownCalls] using ih.cons (not_endsOperand_of_sign isSign)
  | integer kind | name kind => exact .leaf (by rw [kind]; rfl)
  | group isLeft _ isRight ih => exact .parens isLeft ih.counts isRight
  | function isLeft names isRight _ ih =>
    simpa [Expr.nodes, Expr.ownCalls] using Token.Operand.function isLeft names isRight ih

end Grammar

namespace Expr

theorem tokens_ne_nil (expr : Expr) : expr.tokens ≠ [] := by
  cases expr <;> simp [tokens, Token.parens]

theorem ahead_tokens (expr : Expr) (next : Token.Kind) :
    if expr.isWrapped then ahead expr.tokens next = .leftParen
    else ahead expr.tokens next = .integer ∨ ahead expr.tokens next = .name := by
  induction expr with
  | integer => exact .inl rfl
  | name => exact .inr rfl
  | call callee arguments ih =>
    have first : ahead (Expr.call callee arguments).tokens next = ahead callee.tokens next := by
      rw [tokens, ahead_append callee.tokens_ne_nil]
    rw [first]
    exact ih
  | _ => rfl

theorem ahead_tokens_eq_leftParen (expr : Expr) (next : Token.Kind) :
    ahead expr.tokens next = .leftParen ↔ expr.isWrapped = true := by
  have starts := expr.ahead_tokens next
  split at starts
  next wrapped => exact iff_of_true starts wrapped
  next bare =>
    refine iff_of_false ?_ bare
    rcases starts with kind | kind <;> rw [kind] <;> decide

theorem callsIn_tokensAll {arguments : List Expr}
    (each : ∀ argument ∈ arguments, Token.Operand argument.tokens (argument.nodes.map ownOpenings).sum)
    (after : Bool) :
    Token.callsIn after (tokensAll arguments) =
      ((nodesAll arguments).map ownOpenings).sum +
        if after then arguments.countP isWrapped else arguments.tail.countP isWrapped := by
  induction arguments generalizing after with
  | nil => cases after <;> rfl
  | cons argument arguments ih =>
    obtain ⟨operand, others⟩ := List.forall_mem_cons.mp each
    rw [tokensAll, Token.callsIn_append, operand.ends, ih others, nodesAll, List.map_append, List.sum_append]
    -- Only the first argument is not counted: it stands after the parenthesis of the call.
    cases after with
    | false =>
      rw [operand.counts]
      simp [Nat.add_assoc]
    | true =>
      rw [operand.counts_after .leftParen]
      simp only [ahead_tokens_eq_leftParen, List.countP_cons, if_true]
      omega

theorem operand_tokens (expr : Expr) : Token.Operand expr.tokens (expr.nodes.map ownOpenings).sum := by
  induction expr with
  | integer | name => exact .leaf rfl
  | signed sign operand ih =>
    have opens : (Token.ofSign sign.char).kind.endsOperand = false := by cases sign <;> rfl
    rw [tokens]
    split
    · simpa [nodes, ownOpenings, ownCalls, ownCollisions] using (ih.grouped.cons opens).grouped
    · simpa [nodes, ownOpenings, ownCalls, ownCollisions] using (ih.cons opens).grouped
  | binary operator left right ihLeft ihRight =>
    have isInfix : (Token.ofSign operator.char).kind.endsOperand = false ∧
        (Token.ofSign operator.char).kind ≠ .leftParen := by
      cases operator <;> decide
    have whole := (ihLeft.infixed isInfix.1 isInfix.2 ihRight).grouped
    rw [tokens]
    simpa [nodes, ownOpenings, ownCalls, ownCollisions] using whole
  | choice condition consequence alternative ihTested ihYes ihNo =>
    have branches : Token.Operand (consequence.tokens ++ .ofSign ':' :: alternative.tokens) _ :=
      ihYes.infixed rfl (by decide) ihNo
    have whole : Token.Operand (condition.tokens ++ .ofSign '?' :: _) _ :=
      ihTested.infixed rfl (by decide) branches
    rw [tokens]
    simpa [nodes, ownOpenings, ownCalls, ownCollisions, Nat.add_assoc]
      using whole.grouped
  | assign target value ih =>
    have name : Token.Operand [.ofName target] 0 := .leaf rfl
    have whole : Token.Operand ([.ofName target] ++ .ofSign '=' :: value.tokens) _ :=
      name.infixed rfl (by decide) ih
    rw [tokens]
    simpa [nodes, ownOpenings, ownCalls, ownCollisions] using whole.grouped
  | function parameters body ih =>
    have whole : Token.Operand (.ofSign '|' :: (parameters.map .ofName ++ .ofSign '|' :: body.tokens)) _ :=
      .function rfl (fun _ => Token.kind_of_mem_names) rfl ih
    rw [tokens]
    simpa [nodes, ownOpenings, ownCalls, ownCollisions] using whole.grouped
  | call callee arguments ihCallee ihArguments =>
    have whole : Token.Operand (callee.tokens ++ Token.parens (tokensAll arguments)) _ :=
      ihCallee.called rfl (callsIn_tokensAll ihArguments false) rfl
    have same : ((Expr.call callee arguments).nodes.map ownOpenings).sum = (callee.nodes.map ownOpenings).sum +
        (1 + (((nodesAll arguments).map ownOpenings).sum + arguments.tail.countP isWrapped)) := by
      simp only [nodes, List.map_cons, List.map_append, List.sum_cons, List.sum_append, ownOpenings, ownCalls,
        ownCollisions]
      omega
    rw [tokens, same]
    exact whole

theorem argumentsBare_of_derives {expr : Expr} {level : Level} {next : Token.Kind}
    (derives : Derives .longest level expr.tokens next expr) :
    ∀ node ∈ expr.nodes, node.argumentsBare = true := by
  have counted : (expr.nodes.map ownCalls).sum + (expr.nodes.map ownCollisions).sum =
      (expr.nodes.map ownCalls).sum := by
    rw [← List.sum_map_add, ← derives.operand.counts]
    exact expr.operand_tokens.counts.symm
  have none : (expr.nodes.map ownCollisions).sum = 0 := Nat.add_left_cancel counted
  rw [List.sum_eq_zero_iff_forall_eq_nat, List.forall_mem_map] at none
  intro node isNode
  exact node.ownCollisions_eq_zero.mp (none node isNode)

end Expr

end LineLang
