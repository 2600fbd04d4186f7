import LineLang.Expr.Render
import LineLang.Proofs.Scan

/-! The tokens of a rendering.

If the names in a tree are words and its integers are not negative, its text is cut into the tokens that the
shape of the tree gives.
-/

set_option autoImplicit false

namespace LineLang

def Sign.char : Sign → Char
  | .plus => '+'
  | .minus => '-'

def Operator.char : Operator → Char
  | .add => '+'
  | .subtract => '-'
  | .multiply => '*'
  | .divide => '/'
  | .modulo => '%'

theorem Sign.toList_symbol (sign : Sign) : sign.symbol.toList = [sign.char] := by
  cases sign <;> decide

theorem Operator.toList_symbol (operator : Operator) : operator.symbol.toList = [operator.char] := by
  cases operator <;> decide

def Token.parens (word : List Token) : List Token :=
  .ofSign '(' :: (word ++ [.ofSign ')'])

def Token.ofName (name : String) : Token :=
  ⟨.name, name, 0, 0⟩

theorem Token.kind_of_mem_names {names : List String} {token : Token} (isOne : token ∈ names.map ofName) :
    token.kind = .name := by
  obtain ⟨name, -, rfl⟩ := List.mem_map.mp isOne
  rfl

namespace Expr

mutual

/-- The expression and all that it is made of. -/
def nodes : Expr → List Expr
  | .integer value => [.integer value]
  | .name word => [.name word]
  | .signed sign operand => .signed sign operand :: nodes operand
  | .binary operator left right => .binary operator left right :: (nodes left ++ nodes right)
  | .choice condition consequence alternative =>
    .choice condition consequence alternative ::
      (nodes condition ++ nodes consequence ++ nodes alternative)
  | .assign target value => .assign target value :: nodes value
  | .function parameters body => .function parameters body :: nodes body
  | .call callee arguments => .call callee arguments :: (nodes callee ++ nodesAll arguments)

def nodesAll : List Expr → List Expr
  | [] => []
  | argument :: rest => nodes argument ++ nodesAll rest

end

mutual

def tokens : Expr → List Token
  | .integer value => [⟨.integer, Numeral.write value, 0, 0⟩]
  | .name word => [.ofName word]
  | .signed sign operand =>
    Token.parens (.ofSign sign.char :: if operand.isCall then Token.parens (tokens operand) else tokens operand)
  | .binary operator left right => Token.parens (tokens left ++ .ofSign operator.char :: tokens right)
  | .choice condition consequence alternative =>
    Token.parens (tokens condition ++ .ofSign '?' :: (tokens consequence ++ .ofSign ':' :: tokens alternative))
  | .assign target value => Token.parens (.ofName target :: .ofSign '=' :: tokens value)
  | .function parameters body =>
    Token.parens (.ofSign '|' :: (parameters.map .ofName ++ .ofSign '|' :: tokens body))
  | .call callee arguments => tokens callee ++ Token.parens (tokensAll arguments)

def tokensAll : List Expr → List Token
  | [] => []
  | argument :: rest => tokens argument ++ tokensAll rest

end

theorem nodesAll_eq_flatMap (arguments : List Expr) : nodesAll arguments = arguments.flatMap nodes := by
  induction arguments with
  | nil => rfl
  | cons argument rest ih => rw [nodesAll, ih, List.flatMap_cons]

theorem tokensAll_eq_flatMap (arguments : List Expr) : tokensAll arguments = arguments.flatMap tokens := by
  induction arguments with
  | nil => rfl
  | cons argument rest ih => rw [tokensAll, ih, List.flatMap_cons]

theorem renderAll_eq_map (arguments : List Expr) : renderAll arguments = arguments.map render := by
  induction arguments with
  | nil => rfl
  | cons argument rest ih => rw [renderAll, ih, List.map_cons]

/-- No text holds a negative integer as one token. -/
def isNonNegative : Expr → Bool
  | .integer value => 0 ≤ value
  | _ => true

def hasWords : Expr → Bool
  | .name word => Token.isWord word
  | .assign target _ => Token.isWord target
  | .function parameters _ => parameters.all Token.isWord
  | _ => true

end Expr

namespace Token

/-- Before anything that ends a word, the characters are cut into these tokens. -/
def Spells (chars : List Char) (tokens : List Token) : Prop :=
  ∀ rest, delimits rest = true → spell (chars ++ rest) = tokens ++ spell rest

namespace Spells

variable {chars others : List Char} {tokens following : List Token}

theorem word {name : String} (isOne : isWord name = true) : Spells name.toList [ofName name] :=
  fun _ ends => spell_word isOne ends

theorem sign_cons {c : Char} (isSign : (Kind.ofSign? c).isSome = true) (spells : Spells chars tokens) :
    Spells (c :: chars) (ofSign c :: tokens) := by
  intro rest ends
  rw [List.cons_append, spell_sign isSign, spells rest ends, List.cons_append]

theorem space_cons (spells : Spells chars tokens) : Spells (' ' :: chars) tokens := by
  intro rest ends
  rw [List.cons_append, spell_separator (by decide), spells rest ends]

theorem append {c : Char} (stops : isNameChar c = false) (spells : Spells chars tokens)
    (after : Spells (c :: others) following) : Spells (chars ++ c :: others) (tokens ++ following) := by
  intro rest ends
  have delimited : delimits (c :: others ++ rest) = true := by simp [delimits, stops]
  rw [List.append_assoc, spells _ delimited, after rest ends, List.append_assoc]

theorem parens (spells : Spells chars tokens) : Spells ('(' :: (chars ++ [')'])) (Token.parens tokens) := by
  have closing : Spells [')'] [ofSign ')'] := fun rest _ => spell_sign (by decide) rest
  exact (spells.append (by decide) closing).sign_cons (by decide)

theorem spaced {c : Char} (isSign : (Kind.ofSign? c).isSome = true) (spells : Spells chars tokens)
    (after : Spells others following) :
    Spells (chars ++ ' ' :: c :: ' ' :: others) (tokens ++ ofSign c :: following) :=
  spells.append (by decide) (after.space_cons.sign_cons isSign).space_cons

theorem joined {α : Type} {text : α → String} {tokensOf : α → List Token} {items : List α}
    (each : ∀ item ∈ items, Spells (text item).toList (tokensOf item)) :
    Spells (String.intercalate " " (items.map text)).toList (items.flatMap tokensOf) := by
  induction items with
  | nil =>
    intro rest _
    simp
  | cons item items ih =>
    have first := each item List.mem_cons_self
    have after := ih fun other isOther => each other (List.mem_cons_of_mem _ isOther)
    cases items with
    | nil => simpa using first
    | cons next items =>
      have whole := first.append (by decide) after.space_cons
      simpa [String.intercalate_cons_cons] using whole

end Spells

end Token

namespace Numeral

theorem spells_write {value : Int64} (nonNegative : 0 ≤ value) :
    Token.Spells (write value).toList [⟨.integer, write value, 0, 0⟩] := by
  have written : write value = String.ofList (Nat.toDigits 10 value.toInt.natAbs) := by
    have noSign : ¬ value < 0 := by
      rw [Int64.lt_iff_toInt_lt]
      rw [Int64.le_iff_toInt_le] at nonNegative
      omega
    rw [write, if_neg noSign]
  intro rest ends
  rw [written, String.toList_ofList]
  refine Token.spell_digits Nat.toDigits_ne_nil ?_ ends
  intro c member
  exact Nat.isDigit_of_mem_toDigits (by decide) (by decide) member

end Numeral

namespace Expr

theorem spells_render {expr : Expr}
    (lexical : ∀ node ∈ expr.nodes, node.isNonNegative = true ∧ node.hasWords = true) :
    Token.Spells expr.render.toList expr.tokens := by
  induction expr with
  | integer value =>
    have nonNegative := (lexical _ List.mem_cons_self).1
    exact Numeral.spells_write (by simpa [isNonNegative] using nonNegative)
  | name word => exact .word (lexical _ List.mem_cons_self).2
  | signed sign operand ih =>
    simp only [nodes, List.forall_mem_cons] at lexical
    have isSign : (Token.Kind.ofSign? sign.char).isSome = true := by cases sign <;> rfl
    -- A call under a sign has parentheses of its own.
    by_cases isCall : operand.isCall = true
    · have whole := ((ih lexical.2).parens.sign_cons isSign).parens
      simpa [render, tokens, isCall, Sign.toList_symbol] using whole
    · have whole := ((ih lexical.2).sign_cons isSign).parens
      simpa [render, tokens, isCall, Sign.toList_symbol] using whole
  | binary operator left right ihLeft ihRight =>
    simp only [nodes, List.forall_mem_cons, List.forall_mem_append] at lexical
    have isSign : (Token.Kind.ofSign? operator.char).isSome = true := by cases operator <;> rfl
    have whole := ((ihLeft lexical.2.1).spaced isSign (ihRight lexical.2.2)).parens
    simpa [render, tokens, Operator.toList_symbol] using whole
  | choice condition consequence alternative ihTested ihYes ihNo =>
    simp only [nodes, List.forall_mem_cons, List.forall_mem_append] at lexical
    obtain ⟨-, ⟨tested, yes⟩, no⟩ := lexical
    have branches := (ihYes yes).spaced (c := ':') rfl (ihNo no)
    have whole := ((ihTested tested).spaced (c := '?') rfl branches).parens
    simpa [render, tokens] using whole
  | assign target value ih =>
    simp only [nodes, List.forall_mem_cons] at lexical
    have whole := ((Token.Spells.word lexical.1.2).spaced (c := '=') rfl (ih lexical.2)).parens
    simpa [render, tokens] using whole
  | function parameters body ih =>
    simp only [nodes, List.forall_mem_cons] at lexical
    have each : ∀ parameter ∈ parameters,
        Token.Spells (id parameter).toList [Token.ofName parameter] := by
      intro parameter isOne
      exact .word (List.all_eq_true.mp lexical.1.2 parameter isOne)
    have bars := (Token.Spells.joined each).append (by decide)
      ((ih lexical.2).space_cons.sign_cons (c := '|') rfl)
    have whole := (bars.sign_cons (c := '|') rfl).parens
    simpa [render, tokens, ← List.map_eq_flatMap] using whole
  | call callee arguments ihCallee ihArguments =>
    simp only [nodes, nodesAll_eq_flatMap, List.forall_mem_cons, List.forall_mem_append] at lexical
    obtain ⟨-, called, passed⟩ := lexical
    have each : ∀ argument ∈ arguments, Token.Spells argument.render.toList argument.tokens := by
      intro argument isOne
      refine ihArguments argument isOne fun node isNode => passed node ?_
      exact List.mem_flatMap.mpr ⟨argument, isOne, isNode⟩
    -- The parenthesis ends whatever the callee ends with, so no blank is needed.
    have whole := (ihCallee called).append (by decide) (Token.Spells.joined each).parens
    simpa [render, tokens, renderAll_eq_map, tokensAll_eq_flatMap] using whole

end Expr

end LineLang
