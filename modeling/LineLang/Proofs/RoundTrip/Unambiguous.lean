import LineLang.Proofs.RoundTrip
import LineLang.Proofs.Text.Nesting

/-! Different trees have different renderings.

A rendering is closed: it has no blank and no bar outside its parentheses. So wherever a part of a tree stands in the
text of the whole, what stands after it shows where it ends. That is enough to find the parts of any tree again, also
of one that is not read back from its text.
-/

set_option autoImplicit false

namespace LineLang

def Text.isBreak (c : Char) : Bool :=
  c == ' ' || c == '|'

namespace Token

theorem plain_of_isNameChar {c : Char} (isOne : isNameChar c = true) :
    Text.isBreak c = false ∧ c ≠ '(' ∧ c ≠ ')' := by
  refine ⟨?_, ?_, ?_⟩
  · rw [Bool.eq_false_iff]
    intro breaks
    rcases Bool.or_eq_true_iff.mp breaks with blank | bar
    · exact absurd (eq_of_beq blank ▸ isOne) (by decide)
    · exact absurd (eq_of_beq bar ▸ isOne) (by decide)
  · rintro rfl
    exact absurd isOne (by decide)
  · rintro rfl
    exact absurd isOne (by decide)

theorem exists_letter_of_isWord {word : String} (isOne : isWord word = true) :
    ∃ first rest, word.toList = first :: rest ∧ Text.isLetter first = true ∧ ∀ c ∈ rest, isNameChar c = true := by
  unfold isWord at isOne
  split at isOne
  · cases isOne
  next first rest chars =>
    obtain ⟨letter, goOn⟩ := Bool.and_eq_true_iff.mp isOne
    exact ⟨first, rest, chars, letter, List.all_eq_true.mp goOn⟩

theorem plain_of_isWord {word : String} (isOne : isWord word = true) :
    ∀ c ∈ word.toList, Text.isBreak c = false ∧ c ≠ '(' ∧ c ≠ ')' := by
  obtain ⟨first, rest, chars, letter, goOn⟩ := exists_letter_of_isWord isOne
  rw [chars, List.forall_mem_cons]
  exact ⟨plain_of_isNameChar (by simp [isNameChar, letter]), fun c isIn => plain_of_isNameChar (goOn c isIn)⟩

end Token

namespace Numeral

theorem digit_or_minus_of_mem_write {value : Int64} {c : Char} (isIn : c ∈ (write value).toList) :
    c.isDigit = true ∨ c = '-' := by
  have digits : ∀ d ∈ Nat.toDigits 10 value.toInt.natAbs, d.isDigit = true :=
    fun d member => Nat.isDigit_of_mem_toDigits (by decide) (by decide) member
  unfold write at isIn
  split at isIn
  · rw [String.toList_append] at isIn
    rcases List.mem_append.mp isIn with minus | digit
    · exact .inr (List.mem_singleton.mp minus)
    · rw [String.toList_ofList] at digit
      exact .inl (digits c digit)
  · rw [String.toList_ofList] at isIn
    exact .inl (digits c isIn)

theorem plain_write (value : Int64) :
    ∀ c ∈ (write value).toList, Text.isBreak c = false ∧ c ≠ '(' ∧ c ≠ ')' := by
  intro c isIn
  rcases digit_or_minus_of_mem_write isIn with digit | rfl
  · exact Token.plain_of_isNameChar (by simp [Token.isNameChar, digit])
  · decide

theorem write_injective {value other : Int64} (same : write value = write other) : value = other := by
  have reads := read_write value
  rw [same, read_write] at reads
  exact (Except.ok.inj reads).symm

theorem write_ne_word (value : Int64) {word : String} (isOne : Token.isWord word = true) : write value ≠ word := by
  intro same
  obtain ⟨first, rest, chars, letter, -⟩ := Token.exists_letter_of_isWord isOne
  have isIn : first ∈ (write value).toList := by simp [same, chars]
  rcases digit_or_minus_of_mem_write isIn with digit | rfl
  · rw [Text.not_isDigit_of_isLetter letter] at digit
    cases digit
  · exact absurd letter (by decide)

end Numeral

theorem Operator.char_inj {operator other : Operator} : operator.char = other.char → operator = other := by
  cases operator <;> cases other <;> decide

theorem Sign.char_inj {sign other : Sign} : sign.char = other.char → sign = other := by
  cases sign <;> cases other <;> decide

namespace Expr

def Worded (expr : Expr) : Prop :=
  ∀ node ∈ expr.nodes, node.hasWords = true

theorem worded_name {word : String} : (Expr.name word).Worded ↔ Token.isWord word = true := by
  simp [Worded, nodes, hasWords]

theorem worded_signed {sign : Sign} {operand : Expr} : (Expr.signed sign operand).Worded ↔ operand.Worded := by
  simp [Worded, nodes, hasWords]

theorem worded_binary {operator : Operator} {left right : Expr} :
    (Expr.binary operator left right).Worded ↔ left.Worded ∧ right.Worded := by
  simp only [Worded, nodes, List.forall_mem_cons, List.forall_mem_append, hasWords, true_and]

theorem worded_choice {condition consequence alternative : Expr} :
    (Expr.choice condition consequence alternative).Worded ↔
      condition.Worded ∧ consequence.Worded ∧ alternative.Worded := by
  simp only [Worded, nodes, List.forall_mem_cons, List.forall_mem_append, hasWords, true_and, and_assoc]

theorem worded_assign {target : String} {value : Expr} :
    (Expr.assign target value).Worded ↔ Token.isWord target = true ∧ value.Worded := by
  simp only [Worded, nodes, List.forall_mem_cons, hasWords]

theorem worded_function {parameters : List String} {body : Expr} :
    (Expr.function parameters body).Worded ↔ (∀ name ∈ parameters, Token.isWord name = true) ∧ body.Worded := by
  simp only [Worded, nodes, List.forall_mem_cons, hasWords, List.all_eq_true]

theorem worded_call {callee : Expr} {arguments : List Expr} :
    (Expr.call callee arguments).Worded ↔ callee.Worded ∧ ∀ argument ∈ arguments, argument.Worded := by
  simp only [Worded, nodes, nodesAll_eq_flatMap, List.forall_mem_cons, List.forall_mem_append, hasWords, true_and,
    List.forall_mem_flatMap]

/-- Integers, names and calls are the renderings without parentheses around them. -/
def isGroup (expr : Expr) : Bool :=
  !expr.isLeaf && !expr.isCall

def operandText (operand : Expr) : List Char :=
  if operand.isCall then '(' :: (operand.render.toList ++ [')']) else operand.render.toList

/-- What stands in a group up to the first blank or bar. -/
def lead : Expr → List Char
  | .signed sign operand => sign.char :: operand.operandText
  | .binary _ left _ => left.render.toList
  | .choice condition _ _ => condition.render.toList
  | .assign target _ => target.toList
  | .integer _ | .name _ | .function _ _ | .call _ _ => []

/-- What stands in a group from the first blank or bar on. -/
def trail : Expr → List Char
  | .binary operator _ right => ' ' :: operator.char :: ' ' :: right.render.toList
  | .choice _ consequence alternative =>
    ' ' :: '?' :: ' ' :: (consequence.render.toList ++ ' ' :: ':' :: ' ' :: alternative.render.toList)
  | .assign _ value => ' ' :: '=' :: ' ' :: value.render.toList
  | .function parameters body =>
    '|' :: ((String.intercalate " " parameters).toList ++ '|' :: ' ' :: body.render.toList)
  | .integer _ | .name _ | .signed _ _ | .call _ _ => []

theorem render_of_isGroup {expr : Expr} (group : expr.isGroup = true) :
    expr.render.toList = '(' :: (expr.lead ++ expr.trail ++ [')']) := by
  cases expr with
  | integer | name | call => cases group
  | signed sign operand =>
    rw [render, lead, trail, operandText]
    split <;> simp [Sign.toList_symbol]
  | binary => simp [render, lead, trail, Operator.toList_symbol]
  | _ => simp [render, lead, trail]

theorem render_call (callee : Expr) (arguments : List Expr) :
    (Expr.call callee arguments).render.toList =
      callee.render.toList ++ '(' :: ((String.intercalate " " (arguments.map render)).toList ++ [')']) := by
  simp [render, renderAll_eq_map]

theorem isBreak_of_mem_head?_trail (expr : Expr) : ∀ c ∈ expr.trail.head?, Text.isBreak c = true := by
  cases expr <;> simp [trail, Text.isBreak]

theorem render_ne_nil {expr : Expr} (words : expr.Worded) : expr.render.toList ≠ [] := by
  obtain ⟨c, first, -⟩ := head?_render words
  intro empty
  rw [empty] at first
  cases first

/-- The whole text and its two parts can be told from what follows them. -/
structure Separable (expr : Expr) : Prop where
  render : Text.Closed Text.isBreak expr.render.toList
  lead : Text.Closed Text.isBreak expr.lead
  trail : Text.Balanced expr.trail

theorem Separable.inside {expr : Expr} (separable : expr.Separable) : Text.Balanced (expr.lead ++ expr.trail) :=
  separable.lead.balanced.append separable.trail

theorem Separable.of_isGroup {expr : Expr} (group : expr.isGroup = true)
    (lead : Text.Closed Text.isBreak expr.lead) (trail : Text.Balanced expr.trail) : expr.Separable where
  render := by
    rw [render_of_isGroup group]
    exact (lead.balanced.append trail).parens rfl
  lead := lead
  trail := trail

theorem balanced_joined {arguments : List Expr} (separable : ∀ argument ∈ arguments, argument.Separable) :
    Text.Balanced (String.intercalate " " (arguments.map render)).toList :=
  Text.closed_intercalate rfl (List.forall_mem_map.mpr fun argument isOne =>
    (separable argument isOne).render.balanced)

theorem separable {expr : Expr} (words : expr.Worded) : expr.Separable := by
  induction expr with
  | integer value => exact ⟨.of_plain (Numeral.plain_write value), .nil, .nil⟩
  | name word => exact ⟨.of_plain (Token.plain_of_isWord (worded_name.mp words)), .nil, .nil⟩
  | signed sign operand ih =>
    have closed := (ih (worded_signed.mp words)).render
    have plain : Text.isBreak sign.char = false ∧ sign.char ≠ '(' ∧ sign.char ≠ ')' := by cases sign <;> decide
    refine .of_isGroup rfl (.cons plain.1 plain.2 ?_) .nil
    unfold operandText
    split
    · exact closed.parens rfl
    · exact closed
  | binary operator left right ihLeft ihRight =>
    obtain ⟨first, second⟩ := worded_binary.mp words
    have plain : operator.char ≠ '(' ∧ operator.char ≠ ')' := by cases operator <;> decide
    exact .of_isGroup rfl (ihLeft first).render ((ihRight second).render.balanced.spaced plain)
  | choice condition consequence alternative ihTested ihYes ihNo =>
    obtain ⟨tested, yes, no⟩ := worded_choice.mp words
    have after := (ihNo no).render.balanced.spaced (by decide : ':' ≠ '(' ∧ ':' ≠ ')')
    exact .of_isGroup rfl (ihTested tested).render (((ihYes yes).render.balanced.append after).spaced (by decide))
  | assign target value ih =>
    obtain ⟨isOne, valueWords⟩ := worded_assign.mp words
    exact .of_isGroup rfl (.of_plain (Token.plain_of_isWord isOne)) ((ih valueWords).render.balanced.spaced (by decide))
  | function parameters body ih =>
    obtain ⟨areWords, bodyWords⟩ := worded_function.mp words
    have names : Text.Balanced (String.intercalate " " parameters).toList :=
      Text.closed_intercalate rfl fun name isOne =>
        (Text.Closed.of_plain (Token.plain_of_isWord (areWords name isOne))).balanced
    have after := ((ih bodyWords).render.balanced.cons (by decide : ' ' ≠ '(' ∧ ' ' ≠ ')')).cons
      (by decide : '|' ≠ '(' ∧ '|' ≠ ')')
    exact .of_isGroup rfl .nil ((names.append after).cons (by decide))
  | call callee arguments ihCallee ihArguments =>
    obtain ⟨calleeWords, argumentWords⟩ := worded_call.mp words
    have passed := balanced_joined fun argument isOne => ihArguments argument isOne (argumentWords argument isOne)
    refine ⟨?_, .nil, .nil⟩
    rw [render_call]
    exact (ihCallee calleeWords).render.append (passed.parens rfl)

theorem balanced_arguments {callee : Expr} {arguments : List Expr} (words : (Expr.call callee arguments).Worded) :
    Text.Balanced (String.intercalate " " (arguments.map render)).toList :=
  balanced_joined fun argument isOne => separable ((worded_call.mp words).2 argument isOne)

theorem closed_renderings {exprs : List Expr} (words : ∀ expr ∈ exprs, expr.Worded) :
    ∀ text ∈ exprs.map render, text.toList ≠ [] ∧ Text.Closed Text.isBreak text.toList :=
  List.forall_mem_map.mpr fun expr isOne => ⟨render_ne_nil (words expr isOne), (separable (words expr isOne)).render⟩

theorem isLeaf_iff {expr : Expr} (words : expr.Worded) : expr.isLeaf = true ↔ '(' ∉ expr.render.toList := by
  cases expr with
  | integer value => exact iff_of_true rfl fun isIn => (Numeral.plain_write value _ isIn).2.1 rfl
  | name word =>
    exact iff_of_true rfl fun isIn => (Token.plain_of_isWord (worded_name.mp words) _ isIn).2.1 rfl
  | call callee arguments => exact iff_of_false nofun (by simp [render_call])
  | _ => exact iff_of_false nofun (by simp [render_of_isGroup, isGroup, isLeaf, isCall])

theorem isLeaf_of_render_eq {expr other : Expr} (words : expr.Worded) (otherWords : other.Worded)
    (same : expr.render = other.render) (leaf : expr.isLeaf = true) : other.isLeaf = true := by
  rw [isLeaf_iff otherWords, ← same]
  exact (isLeaf_iff words).mp leaf

theorem render_ne_sign {expr : Expr} (words : expr.Worded) (sign : Sign) : expr.render.toList ≠ [sign.char] := by
  intro text
  have leaf : expr.isLeaf = true := by
    rw [isLeaf_iff words, text, List.mem_singleton]
    cases sign <;> decide
  cases expr with
  | integer value =>
    have reads := Numeral.read_write value
    rw [render] at text
    rw [Numeral.read, text] at reads
    cases sign <;> cases reads
  | name word =>
    obtain ⟨first, rest, chars, letter, -⟩ := Token.exists_letter_of_isWord (worded_name.mp words)
    rw [render, chars] at text
    rw [(List.cons.inj text).1] at letter
    cases sign <;> exact absurd letter (by decide)
  | _ => cases leaf

theorem eq_of_map_render_eq {exprs others : List Expr}
    (inj : ∀ expr ∈ exprs, ∀ other ∈ others, expr.render = other.render → expr = other)
    (same : exprs.map render = others.map render) : exprs = others := by
  induction exprs generalizing others with
  | nil => exact (List.map_eq_nil_iff.mp same.symm).symm
  | cons expr exprs ih =>
    cases others with
    | nil => cases same
    | cons other others =>
      obtain ⟨sameFirst, sameRest⟩ := List.cons.inj same
      rw [inj expr List.mem_cons_self other List.mem_cons_self sameFirst]
      rw [ih (fun expr isOne other isOther =>
        inj expr (List.mem_cons_of_mem _ isOne) other (List.mem_cons_of_mem _ isOther)) sameRest]

theorem render_ne_call_of_isGroup {expr callee : Expr} {arguments : List Expr} (group : expr.isGroup = true)
    (words : expr.Worded) (callWords : (Expr.call callee arguments).Worded) :
    expr.render ≠ (Expr.call callee arguments).render := by
  intro same
  have text := congrArg String.toList same
  rw [render_of_isGroup group, render_call, ← List.nil_append ('(' :: _)] at text
  have before := ((separable words).inside.last (balanced_arguments callWords) text).1
  exact render_ne_nil (worded_call.mp callWords).1 before.symm

theorem parts_eq_of_render_eq {expr other : Expr} (group : expr.isGroup = true) (words : expr.Worded)
    (otherWords : other.Worded) (same : expr.render = other.render) :
    other.isGroup = true ∧ expr.lead = other.lead ∧ expr.trail = other.trail := by
  have alsoGroup : other.isGroup = true := by
    cases other with
    | integer | name =>
      have leaf := isLeaf_of_render_eq otherWords words same.symm rfl
      rw [isGroup, leaf] at group
      cases group
    | call => exact absurd same (render_ne_call_of_isGroup group words otherWords)
    | _ => rfl
  have text := congrArg String.toList same
  rw [render_of_isGroup group, render_of_isGroup alsoGroup] at text
  have inside := List.append_cancel_right (List.cons.inj text).2
  exact ⟨alsoGroup, (separable words).lead.cut (separable otherWords).lead (isBreak_of_mem_head?_trail expr)
    (isBreak_of_mem_head?_trail other) inside⟩

theorem lead_signed_ne_call {sign : Sign} {operand callee : Expr} {arguments : List Expr}
    (words : operand.Worded) (callWords : (Expr.call callee arguments).Worded) :
    (Expr.signed sign operand).lead ≠ (Expr.call callee arguments).render.toList := by
  intro text
  -- The last group of the call would be all that stands after the sign, and the sign alone would be called.
  have noGroup : ∀ inside, Text.Balanced inside → operand.operandText ≠ '(' :: (inside ++ [')']) := by
    intro inside balanced shape
    rw [lead, shape, render_call, ← List.singleton_append] at text
    exact render_ne_sign (worded_call.mp callWords).1 sign (balanced.last (balanced_arguments callWords) text).1.symm
  cases called : operand.isCall with
  | true => exact noGroup _ (separable words).render.balanced (if_pos called)
  | false =>
    have shown : operand.operandText = operand.render.toList := by simp [operandText, called]
    cases leaf : operand.isLeaf with
    | true =>
      have isIn : '(' ∈ (Expr.signed sign operand).lead := by simp [text, render_call]
      rw [lead, shown] at isIn
      rcases List.mem_cons.mp isIn with isSign | isIn
      · cases sign <;> exact absurd isSign (by decide)
      · exact (isLeaf_iff words).mp leaf isIn
    | false =>
      rw [shown] at noGroup
      exact noGroup _ (separable words).inside (render_of_isGroup (by simp [isGroup, leaf, called]))

theorem parens_call_ne_render {called other : Expr} (isCall : called.isCall = true) (notCall : other.isCall = false)
    (words : called.Worded) (otherWords : other.Worded) :
    '(' :: (called.render.toList ++ [')']) ≠ other.render.toList := by
  intro text
  have noLeaf : other.isLeaf = false := by
    rw [← Bool.not_eq_true, isLeaf_iff otherWords, ← text]
    simp
  have group : other.isGroup = true := by simp [isGroup, noLeaf, notCall]
  rw [render_of_isGroup group] at text
  have inside := List.append_cancel_right (List.cons.inj text).2
  rw [← List.append_nil called.render.toList] at inside
  -- The call has no blank and no bar outside its parentheses, so the group would be a sign before something.
  obtain ⟨sameLead, sameTrail⟩ := (separable words).render.cut (separable otherWords).lead (by simp)
    (isBreak_of_mem_head?_trail other) inside
  cases called with
  | call callee arguments =>
    cases other with
    | signed sign operand => exact lead_signed_ne_call (worded_signed.mp otherWords) words sameLead.symm
    | integer | name => cases noLeaf
    | call => cases notCall
    | _ => cases sameTrail
  | _ => cases isCall

theorem render_eq_of_operandText_eq {operand other : Expr} (words : operand.Worded) (otherWords : other.Worded)
    (same : operand.operandText = other.operandText) : operand.render = other.render := by
  unfold operandText at same
  split at same
  next isCall =>
    split at same
    · exact String.toList_inj.mp (List.append_cancel_right (List.cons.inj same).2)
    next notCall => exact absurd same (parens_call_ne_render isCall (Bool.eq_false_iff.mpr notCall) words otherWords)
  next notCall =>
    split at same
    next isCall =>
      exact absurd same.symm (parens_call_ne_render isCall (Bool.eq_false_iff.mpr notCall) otherWords words)
    · exact String.toList_inj.mp same

theorem closed_of_isWord {name : String} (isOne : Token.isWord name = true) :
    name.toList ≠ [] ∧ Text.Closed Text.isBreak name.toList := by
  obtain ⟨first, rest, chars, -⟩ := Token.exists_letter_of_isWord isOne
  exact ⟨by simp [chars], .of_plain (Token.plain_of_isWord isOne)⟩

theorem closed_parameters {parameters : List String} (areWords : ∀ name ∈ parameters, Token.isWord name = true) :
    Text.Closed (· == '|') (String.intercalate " " parameters).toList := by
  refine Text.closed_intercalate rfl fun name isOne => (closed_of_isWord (areWords name isOne)).2.weaken ?_
  intro c bar
  simp [Text.isBreak, eq_of_beq bar]

theorem eq_of_render_eq {expr other : Expr} (words : expr.Worded) (otherWords : other.Worded)
    (same : expr.render = other.render) : expr = other := by
  induction expr generalizing other with
  | integer value =>
    have leaf := isLeaf_of_render_eq words otherWords same rfl
    cases other with
    | integer otherValue => rw [Numeral.write_injective same]
    | name word => exact absurd same (Numeral.write_ne_word value (worded_name.mp otherWords))
    | _ => cases leaf
  | name word =>
    have leaf := isLeaf_of_render_eq words otherWords same rfl
    cases other with
    | integer value => exact absurd same.symm (Numeral.write_ne_word value (worded_name.mp words))
    | name otherWord => rw [show word = otherWord from same]
    | _ => cases leaf
  | signed sign operand ih =>
    obtain ⟨group, sameLead, sameTrail⟩ := parts_eq_of_render_eq rfl words otherWords same
    cases other with
    | signed otherSign otherOperand =>
      have words := worded_signed.mp words
      have otherWords := worded_signed.mp otherWords
      obtain ⟨sameSign, sameOperand⟩ := List.cons.inj sameLead
      have sameText := render_eq_of_operandText_eq words otherWords sameOperand
      rw [Sign.char_inj sameSign, ih words otherWords sameText]
    | integer | name | call => cases group
    | _ => cases sameTrail
  | binary operator left right ihLeft ihRight =>
    obtain ⟨group, sameLead, sameTrail⟩ := parts_eq_of_render_eq rfl words otherWords same
    cases other with
    | binary otherOperator otherLeft otherRight =>
      obtain ⟨first, second⟩ := worded_binary.mp words
      obtain ⟨otherFirst, otherSecond⟩ := worded_binary.mp otherWords
      simp only [trail, List.cons.injEq, true_and] at sameTrail
      rw [Operator.char_inj sameTrail.1, ihLeft first otherFirst (String.toList_inj.mp sameLead),
        ihRight second otherSecond (String.toList_inj.mp sameTrail.2)]
    | choice | assign => cases operator <;> simp [trail, Operator.char] at sameTrail
    | signed | function => simp [trail] at sameTrail
    | _ => cases group
  | choice condition consequence alternative ihTested ihYes ihNo =>
    obtain ⟨group, sameLead, sameTrail⟩ := parts_eq_of_render_eq rfl words otherWords same
    cases other with
    | choice otherCondition otherConsequence otherAlternative =>
      obtain ⟨tested, yes, no⟩ := worded_choice.mp words
      obtain ⟨otherTested, otherYes, otherNo⟩ := worded_choice.mp otherWords
      simp only [trail, List.cons.injEq, true_and] at sameTrail
      obtain ⟨sameYes, sameRest⟩ := (separable yes).render.cut (separable otherYes).render (by simp [Text.isBreak])
        (by simp [Text.isBreak]) sameTrail
      simp only [List.cons.injEq, true_and] at sameRest
      rw [ihTested tested otherTested (String.toList_inj.mp sameLead),
        ihYes yes otherYes (String.toList_inj.mp sameYes), ihNo no otherNo (String.toList_inj.mp sameRest)]
    | binary operator => cases operator <;> simp [trail, Operator.char] at sameTrail
    | signed | function | assign => simp [trail] at sameTrail
    | _ => cases group
  | assign target value ih =>
    obtain ⟨group, sameLead, sameTrail⟩ := parts_eq_of_render_eq rfl words otherWords same
    cases other with
    | assign otherTarget otherValue =>
      simp only [trail, List.cons.injEq, true_and] at sameTrail
      rw [String.toList_inj.mp sameLead, ih (worded_assign.mp words).2 (worded_assign.mp otherWords).2
        (String.toList_inj.mp sameTrail)]
    | binary operator => cases operator <;> simp [trail, Operator.char] at sameTrail
    | signed | function | choice => simp [trail] at sameTrail
    | _ => cases group
  | function parameters body ih =>
    obtain ⟨group, -, sameTrail⟩ := parts_eq_of_render_eq rfl words otherWords same
    cases other with
    | function otherParameters otherBody =>
      obtain ⟨areWords, bodyWords⟩ := worded_function.mp words
      obtain ⟨alsoWords, otherBodyWords⟩ := worded_function.mp otherWords
      simp only [trail, List.cons.injEq, true_and] at sameTrail
      obtain ⟨sameNames, sameRest⟩ := (closed_parameters areWords).cut (closed_parameters alsoWords) (by simp)
        (by simp) sameTrail
      simp only [List.cons.injEq, true_and] at sameRest
      rw [Text.intercalate_inj rfl (fun name isOne => closed_of_isWord (areWords name isOne))
        (fun name isOne => closed_of_isWord (alsoWords name isOne)) sameNames]
      rw [ih bodyWords otherBodyWords (String.toList_inj.mp sameRest)]
    | integer | name | call => cases group
    | _ => simp [trail] at sameTrail
  | call callee arguments ihCallee ihArguments =>
    cases other with
    | call otherCallee otherArguments =>
      obtain ⟨calleeWords, argumentWords⟩ := worded_call.mp words
      obtain ⟨otherCalleeWords, otherArgumentWords⟩ := worded_call.mp otherWords
      have text := congrArg String.toList same
      rw [render_call, render_call] at text
      obtain ⟨sameCallee, samePassed⟩ := (balanced_arguments words).last (balanced_arguments otherWords) text
      have sameTexts := Text.intercalate_inj rfl (closed_renderings argumentWords)
        (closed_renderings otherArgumentWords) samePassed
      rw [ihCallee calleeWords otherCalleeWords (String.toList_inj.mp sameCallee)]
      rw [eq_of_map_render_eq (fun argument isOne other isOther => ihArguments argument isOne
        (argumentWords argument isOne) (otherArgumentWords other isOther)) sameTexts]
    | integer | name => cases isLeaf_of_render_eq otherWords words same.symm rfl
    | _ => exact absurd same.symm (render_ne_call_of_isGroup rfl otherWords words)

def ownNames : Expr → List String
  | .name word => [word]
  | .assign target _ => [target]
  | .function parameters _ => parameters
  | .integer _ | .signed _ _ | .binary _ _ _ | .choice _ _ _ | .call _ _ => []

/-- Each name in the tree is read as one token, which is a name. -/
def Named (expr : Expr) : Prop :=
  ∀ node ∈ expr.nodes, ∀ word ∈ node.ownNames,
    (Token.scan word).map Token.bare = [⟨.name, word, 0, 0⟩, ⟨.endOfInput, "", 0, 0⟩]

theorem hasWords_iff (expr : Expr) : expr.hasWords = true ↔ ∀ word ∈ expr.ownNames, Token.isWord word = true := by
  cases expr <;> simp [hasWords, ownNames]

theorem worded_iff_named (expr : Expr) : expr.Worded ↔ expr.Named := by
  refine forall₂_congr fun node isNode => ?_
  rw [hasWords_iff]
  exact forall₂_congr fun word isOne => Token.isWord_iff_scan word

end Expr

/-- Trees with the same text are the same, whether a text gave them or not. -/
theorem render_unambiguous {expr other : Expr} (named : expr.Named) (otherNamed : other.Named)
    (same : expr.render = other.render) : expr = other :=
  Expr.eq_of_render_eq (expr.worded_iff_named.mpr named) (other.worded_iff_named.mpr otherNamed) same

-- A name that is not a word can look like any other tree.
example : (Expr.name "1").render = (Expr.integer 1).render := by decide +kernel

/-- No text gives this tree: in its own text, the later arguments are passed to the first. -/
def besideNegative : Expr :=
  .call (.name "f") [.integer (-1), .signed .minus (.integer (-1)), .binary .add (.integer 2) (.integer 3)]

theorem render_unambiguous_besideNegative :
    besideNegative.Named ∧ besideNegative.render = "f(-1 (--1) (2 + 3))" ∧
      besideNegative =
        .call (.name "f") [.integer (1 - 2), .signed .minus (.integer (1 - 2)),
          .binary .add (.integer 2) (.integer 3)] := by
  have named : besideNegative.Named := by
    rw [← Expr.worded_iff_named]
    unfold Expr.Worded
    decide
  exact ⟨named, by decide +kernel, render_unambiguous named named rfl⟩

end LineLang
