import LineLang.Parse
import LineLang.Proofs.Parse.Grammar

/-! Reading a line by recursive descent.

There is one routine for each level of the grammar, over a list of tokens and a position in it. A routine calls the
tighter levels where it stands, and leaves all else to the routines it is given for what comes further on. Nothing
says that those are called at a later position, or what they do: they may look past the tokens or never end.
-/

set_option autoImplicit false

namespace LineLang.Descent

open Parse

structure Cursor where
  tokens : List Token
  position : Nat

inductive Stop where
  | refused (error : ParseError)
  | notName (found : Token)
  | outOfRange

/-- A reader that does not end has no outcome. Any other leaves the cursor somewhere. -/
abbrev Reader := ExceptT Stop (StateT Cursor Option)

def runAt {α : Type} (reader : Reader α) (cursor : Cursor) : Option (Except Stop α × Cursor) :=
  reader.run cursor

def peekNth (offset : Nat) : Reader Token := do
  let cursor ← get
  match cursor.tokens[min (cursor.position + offset) (cursor.tokens.length - 1)]? with
  | some token => return token
  | none => throw .outOfRange

def peek : Reader Token :=
  peekNth 0

/-- The last token is never passed. -/
def next : Reader Token := do
  let token ← peek
  modify fun cursor =>
    if cursor.position < cursor.tokens.length - 1 then { cursor with position := cursor.position + 1 } else cursor
  return token

def nextIf (kind : Token.Kind) : Reader Bool := do
  if (← peek).kind = kind then
    let _ ← next
    return true
  else return false

def expectToken (kind : Token.Kind) : Reader Unit := do
  let token ← next
  if token.kind = kind then return () else throw (.refused (.unexpected (.kind kind) token))

/-- An expression is still owed, so the line cannot end here. -/
def expectExpression : Reader Unit := do
  if (← peek).kind.endsLine then throw (.refused .endOfLine) else return ()

def identifier : Reader String := do
  let token ← next
  if token.kind = .name then return token.text else throw (.notName token)

def integer (token : Token) : Reader Expr :=
  match Numeral.read token.text with
  | .ok value => return .integer value
  | .error fault => throw (.refused (.badInteger token.text fault))

def startsAssignment : Reader Bool := do
  if (← peek).kind = .name then return (← peekNth 1).kind = .equals else return false

inductive Tier where
  | sum
  | product

def Tier.operator? : Tier → Token.Kind → Option Operator
  | .sum => Token.Kind.term?
  | .product => Token.Kind.factor?

theorem Tier.ne_endOfInput {tier : Tier} {kind : Token.Kind} {operator : Operator}
    (isOperator : tier.operator? kind = some operator) : kind ≠ .endOfInput := by
  rintro rfl
  cases tier <;> cases isOperator

theorem ne_endOfInput_of_sign {kind : Token.Kind} {sign : Sign} (isSign : kind.sign? = some sign) :
    kind ≠ .endOfInput := by
  rintro rfl
  cases isSign

/-- What a line is read with. -/
structure Routines where
  assignment : Reader Expr
  ternary : Reader Expr
  sum : Reader Expr
  product : Reader Expr
  call : Reader Expr
  unary : Reader Expr
  atom : Reader Expr
  group : Reader Expr
  function : Reader Expr
  -- The rest of a chain after its first operands.
  goOn : Tier → Expr → Reader Expr
  -- The lists of arguments after a callee.
  calls : Expr → Reader Expr
  arguments : List Expr → Reader (List Expr)
  parameters : List String → Reader (List String)

def Routines.operand (routines : Routines) : Tier → Reader Expr
  | .sum => routines.product
  | .product => routines.call

section Bodies

variable (later : Routines)

def parameters (before : List String) : Reader (List String) := do
  if (← peek).kind = .name then
    let name ← identifier
    later.parameters (before ++ [name])
  else return before

def function : Reader Expr := do
  let names ← parameters later []
  expectToken .bar
  expectExpression
  let body ← later.assignment
  return .function names body

def atom : Reader Expr := do
  let token ← next
  match token.kind with
  | .integer => integer token
  | .name => return .name token.text
  | .leftParen => later.group
  | .bar => later.function
  | .newLine | .endOfInput => throw (.refused .endOfLine)
  | _ => throw (.refused (.unexpected .expression token))

def unary : Reader Expr := do
  match (← peek).kind.sign? with
  | none => atom later
  | some sign =>
    let _ ← next
    expectExpression
    let inner ← later.atom
    return .signed sign inner

def calls (callee : Expr) : Reader Expr := do
  if ← nextIf .leftParen then
    let given ← later.arguments []
    later.calls (.call callee given)
  else return callee

def call : Reader Expr := do
  let callee ← unary later
  later.calls callee

def goOn (tier : Tier) (left : Expr) : Reader Expr := do
  match tier.operator? (← peek).kind with
  | none => return left
  | some operator =>
    let _ ← next
    expectExpression
    let right ← later.operand tier
    later.goOn tier (.binary operator left right)

def chain (tier : Tier) (operand : Reader Expr) : Reader Expr := do
  let left ← operand
  later.goOn tier left

def product : Reader Expr :=
  chain later .product (call later)

def sum : Reader Expr :=
  chain later .sum (product later)

def arguments (before : List Expr) : Reader (List Expr) := do
  expectExpression
  if ← nextIf .rightParen then return before
  else
    let argument ← sum later
    later.arguments (before ++ [argument])

def ternary : Reader Expr := do
  let condition ← sum later
  if ← nextIf .question then
    expectExpression
    let consequence ← later.assignment
    expectToken .colon
    expectExpression
    let alternative ← later.assignment
    return .choice condition consequence alternative
  else return condition

def assignment : Reader Expr := do
  if ← startsAssignment then
    let name ← identifier
    expectToken .equals
    expectExpression
    let value ← later.assignment
    return .assign name value
  else ternary later

def group : Reader Expr := do
  expectExpression
  let inner ← assignment later
  expectToken .rightParen
  return inner

/-- The routines that call these further on. -/
def enclosing : Routines where
  assignment := assignment later
  ternary := ternary later
  sum := sum later
  product := product later
  call := call later
  unary := unary later
  atom := atom later
  group := group later
  function := function later
  goOn := goOn later
  calls := calls later
  arguments := arguments later
  parameters := parameters later

end Bodies

def line (routines : Routines) : Reader Expr := do
  let expr ← routines.assignment
  expectToken .newLine
  expectToken .endOfInput
  return expr

namespace Cursor

def advance (cursor : Cursor) : Cursor :=
  { cursor with position := cursor.position + 1 }

/-- The position is that of a token, and the last token is an end of input. -/
structure Inside (cursor : Cursor) : Prop where
  bounded : cursor.position < cursor.tokens.length
  ended : ∃ last ∈ cursor.tokens.getLast?, last.kind = .endOfInput

def rest (cursor : Cursor) : List Token :=
  cursor.tokens.drop cursor.position

def left (cursor : Cursor) : Nat :=
  cursor.tokens.length - cursor.position

def ahead (cursor : Cursor) : Token.Kind :=
  Grammar.ahead cursor.rest .endOfInput

structure At (cursor : Cursor) (token : Token) : Prop extends Inside cursor where
  here : cursor.tokens[cursor.position]? = some token

/-- The same tokens at a later position, at least `gap` further on. -/
structure Reaches (cursor : Cursor) (gap : Nat) (after : Cursor) : Prop where
  tokens : after.tokens = cursor.tokens
  forward : cursor.position + gap ≤ after.position
  bounded : after.position < after.tokens.length

variable {cursor after : Cursor} {token : Token} {gap : Nat}

theorem Inside.exists_at (inside : cursor.Inside) : ∃ token, cursor.At token :=
  ⟨_, inside, List.getElem?_eq_getElem inside.bounded⟩

theorem Inside.refl (inside : cursor.Inside) : cursor.Reaches 0 cursor :=
  ⟨rfl, Nat.le_refl _, inside.bounded⟩

theorem Reaches.inside (reaches : cursor.Reaches gap after) (inside : cursor.Inside) : after.Inside :=
  ⟨reaches.bounded, reaches.tokens ▸ inside.ended⟩

theorem Reaches.weaken (reaches : cursor.Reaches gap after) : cursor.Reaches 0 after :=
  ⟨reaches.tokens, Nat.le_of_add_right_le reaches.forward, reaches.bounded⟩

theorem Reaches.onward {final : Cursor} {more : Nat} (first : cursor.Reaches gap after)
    (second : after.Reaches more final) : cursor.Reaches gap final :=
  ⟨second.tokens.trans first.tokens,
    Nat.le_trans first.forward (Nat.le_of_add_right_le second.forward), second.bounded⟩

theorem Reaches.trans {final : Cursor} {more : Nat} (first : cursor.Reaches gap after)
    (second : after.Reaches more final) : cursor.Reaches (gap + more) final := by
  refine ⟨second.tokens.trans first.tokens, ?_, second.bounded⟩
  have := first.forward
  have := second.forward
  omega

theorem At.rest (stands : cursor.At token) : cursor.rest = token :: cursor.advance.rest :=
  List.drop_eq_getElem?_toList_append .. |>.trans (by rw [stands.here]; rfl)

theorem At.ahead (stands : cursor.At token) : cursor.ahead = token.kind := by
  rw [Cursor.ahead, stands.rest, Grammar.ahead]

-- Only an end of input can be the last token.
theorem At.advance (stands : cursor.At token) (notEnd : token.kind ≠ .endOfInput) :
    cursor.Reaches 1 cursor.advance := by
  refine ⟨rfl, Nat.le_refl _, ?_⟩
  obtain ⟨last, isLast, isEnd⟩ := stands.ended
  have here := stands.here
  rw [Option.mem_def, List.getLast?_eq_getElem?] at isLast
  have bounded := stands.bounded
  have notLast : cursor.position ≠ cursor.tokens.length - 1 := by
    -- The last token would be this one, which is no end of input.
    intro same
    rw [same, isLast] at here
    cases here
    exact notEnd isEnd
  change cursor.position + 1 < cursor.tokens.length
  omega

theorem Reaches.left_lt (reaches : cursor.Reaches 1 after) : after.left < cursor.left := by
  obtain ⟨tokens, forward, bounded⟩ := reaches
  simp only [left, tokens] at bounded ⊢
  omega

end Cursor

section Outcomes

variable {α β : Type} {cursor : Cursor} {token : Token}

/-- The outcome is a result or a refusal, and what holds then. -/
inductive Ends (returns : α → Cursor → Prop) (refuses : ParseError → Cursor → Prop) :
    Option (Except Stop α × Cursor) → Prop where
  | returned {value : α} {after : Cursor} : returns value after → Ends returns refuses (some (.ok value, after))
  | refused {error : ParseError} {after : Cursor} : refuses error after →
      Ends returns refuses (some (.error (.refused error), after))

variable {returns : α → Cursor → Prop} {refuses : ParseError → Cursor → Prop}

theorem runAt_bind_of_ok {reader : Reader α} {value : α} {after : Cursor} (next : α → Reader β)
    (runs : runAt reader cursor = some (.ok value, after)) :
    runAt (reader >>= next) cursor = runAt (next value) after := by
  change (runAt reader cursor).bind _ = _
  rw [runs]
  rfl

theorem runAt_bind_of_error {reader : Reader α} {stop : Stop} {after : Cursor} (next : α → Reader β)
    (runs : runAt reader cursor = some (.error stop, after)) :
    runAt (reader >>= next) cursor = some (.error stop, after) := by
  change (runAt reader cursor).bind _ = _
  rw [runs]
  rfl

theorem Ends.mono {outcome : Option (Except Stop α × Cursor)} {finishes : α → Cursor → Prop}
    {declines : ParseError → Cursor → Prop} (ends : Ends returns refuses outcome)
    (result : ∀ value after, returns value after → finishes value after)
    (refusal : ∀ error after, refuses error after → declines error after) : Ends finishes declines outcome := by
  cases ends with
  | returned holds => exact .returned (result _ _ holds)
  | refused holds => exact .refused (refusal _ _ holds)

theorem Ends.and {outcome : Option (Except Stop α × Cursor)} {finishes : α → Cursor → Prop}
    {declines : ParseError → Cursor → Prop} (ends : Ends returns refuses outcome)
    (too : Ends finishes declines outcome) :
    Ends (fun value after => returns value after ∧ finishes value after)
      (fun error after => refuses error after ∧ declines error after) outcome := by
  cases ends with
  | returned holds =>
    cases too with
    | returned too => exact .returned ⟨holds, too⟩
  | refused holds =>
    cases too with
    | refused too => exact .refused ⟨holds, too⟩

theorem Ends.bind {reader : Reader α} {next : α → Reader β} {finishes : β → Cursor → Prop}
    (first : Ends returns refuses (runAt reader cursor))
    (rest : ∀ value after, returns value after → Ends finishes refuses (runAt (next value) after)) :
    Ends finishes refuses (runAt (reader >>= next) cursor) := by
  generalize runs : runAt reader cursor = outcome at first
  cases first with
  | returned holds =>
    rw [runAt_bind_of_ok next runs]
    exact rest _ _ holds
  | refused holds =>
    rw [runAt_bind_of_error next runs]
    exact .refused holds

theorem runAt_peekNth {offset : Nat}
    (there : cursor.tokens[min (cursor.position + offset) (cursor.tokens.length - 1)]? = some token) :
    runAt (peekNth offset) cursor = some (.ok token, cursor) := by
  have gets : runAt (get : Reader Cursor) cursor = some (.ok cursor, cursor) := rfl
  rw [peekNth, runAt_bind_of_ok _ gets, there]
  rfl

theorem runAt_peekNth_of_lt {offset : Nat} (bounded : cursor.position + offset < cursor.tokens.length)
    (there : cursor.tokens[cursor.position + offset]? = some token) :
    runAt (peekNth offset) cursor = some (.ok token, cursor) := by
  refine runAt_peekNth ?_
  rw [Nat.min_eq_left (Nat.le_sub_one_of_lt bounded), there]

theorem runAt_peek (stands : cursor.At token) : runAt peek cursor = some (.ok token, cursor) :=
  runAt_peekNth_of_lt stands.bounded stands.here

theorem runAt_next (stands : cursor.At token) :
    runAt next cursor = some (.ok token,
      if cursor.position < cursor.tokens.length - 1 then cursor.advance else cursor) := by
  rw [next, runAt_bind_of_ok _ (runAt_peek stands)]
  rfl

theorem exists_runAt_next (stands : cursor.At token) :
    ∃ after, runAt next cursor = some (.ok token, after) ∧ cursor.Reaches 0 after := by
  rw [runAt_next stands]
  split
  next before => exact ⟨_, rfl, rfl, Nat.le_succ _, Nat.add_lt_of_lt_sub before⟩
  next => exact ⟨_, rfl, stands.toInside.refl⟩

theorem runAt_next_of_not_end (stands : cursor.At token) (notEnd : token.kind ≠ .endOfInput) :
    runAt next cursor = some (.ok token, cursor.advance) := by
  have bounded : cursor.position + 1 < cursor.tokens.length := (stands.advance notEnd).bounded
  rw [runAt_next stands, if_pos (Nat.lt_sub_of_add_lt bounded)]

theorem exists_runAt_startsAssignment (stands : cursor.At token) :
    ∃ found, runAt startsAssignment cursor = some (.ok found, cursor) ∧
      (found = true ↔ token.kind = .name ∧ cursor.advance.ahead = .equals) := by
  rw [startsAssignment, runAt_bind_of_ok _ (runAt_peek stands)]
  by_cases isName : token.kind = .name
  · -- A name is not the last token, so the second look does not fall back on it.
    have further := stands.advance (by simp [isName])
    obtain ⟨second, follows⟩ := (further.inside stands.toInside).exists_at
    rw [if_pos isName, runAt_bind_of_ok _ (runAt_peekNth_of_lt further.bounded follows.here)]
    exact ⟨_, rfl, by simp [isName, follows.ahead]⟩
  · rw [if_neg isName]
    exact ⟨false, rfl, by simp [isName]⟩

end Outcomes

end LineLang.Descent
