import LineLang.Eval

/-! Evaluation as rules.

Here a frame is a map from names, the depth is a number that a rule hands to the parts of an
expression, and nothing is counted, swapped or put back. A rule takes an expression and the map before
it to a result and the map after it. A failure keeps what was assigned before it.
-/

set_option autoImplicit false

namespace LineLang.BigStep

/-- A value whose closures hold a map from names. -/
inductive Meaning where
  | integer (value : Int64)
  | function (parameters : List String) (body : Expr)
  | closure (parameters : List String) (body : Expr) (captured : String → Option Meaning)

abbrev Scope := String → Option Meaning

def Scope.set (scope : Scope) (name : String) (value : Meaning) : Scope :=
  fun other => if other = name then some value else scope other

/-- The map a body starts in: the last parameter of a name, else what was captured, else what the caller
sees. -/
def Scope.ofCall (parameters : List String) (arguments : List Meaning) (captured caller : Scope) :
    Scope :=
  fun name => ((parameters.zip arguments).reverse.lookup name).or ((captured name).or (caller name))

namespace Meaning

def integer? : Meaning → Option Int64
  | .integer value => some value
  | _ => none

def callable? : Meaning → Option (List String × Expr × Scope)
  | .integer _ => none
  | .function parameters body => some (parameters, body, fun _ => none)
  | .closure parameters body captured => some (parameters, body, captured)

def capture (final : Scope) : Meaning → Meaning
  | .function parameters body => .closure parameters body final
  | value => value

end Meaning

mutual

/-- `Evaluates limit depth scope expr result after`: with `depth` calls open out of `limit`, the expression
has this result and leaves this map. -/
inductive Evaluates (limit : Nat) : Nat → Scope → Expr → Except EvalError Meaning → Scope → Prop where
  | integer {depth scope value} : Evaluates limit depth scope (.integer value) (.ok (.integer value)) scope
  | name {depth scope word value} : scope word = some value →
      Evaluates limit depth scope (.name word) (.ok value) scope
  | undefined {depth scope word} : scope word = none →
      Evaluates limit depth scope (.name word) (.error (.undefined word)) scope
  | function {depth scope parameters body} :
      Evaluates limit depth scope (.function parameters body) (.ok (.function parameters body)) scope
  | plus {depth scope operand value after} : Evaluates limit depth scope operand (.ok value) after →
      Evaluates limit depth scope (.signed .plus operand) (.ok value) after
  | minus {depth scope operand value after} : Evaluates limit depth scope operand (.ok (.integer value)) after →
      Evaluates limit depth scope (.signed .minus operand) (.ok (.integer (-value))) after
  | negatedNotInteger {depth scope operand value after} :
      Evaluates limit depth scope operand (.ok value) after → value.integer? = none →
      Evaluates limit depth scope (.signed .minus operand) (.error .negatedNotInteger) after
  | operandFails {depth scope sign operand error after} :
      Evaluates limit depth scope operand (.error error) after →
      Evaluates limit depth scope (.signed sign operand) (.error error) after
  | binary {depth scope operator left right first second middle after} :
      Evaluates limit depth scope left (.ok (.integer first)) middle →
      Evaluates limit depth middle right (.ok (.integer second)) after →
      Evaluates limit depth scope (.binary operator left right)
        ((operator.apply first second).map .integer) after
  | leftFails {depth scope operator left right error after} :
      Evaluates limit depth scope left (.error error) after →
      Evaluates limit depth scope (.binary operator left right) (.error error) after
  -- The right operand is not looked at.
  | leftNotInteger {depth scope operator left right value after} :
      Evaluates limit depth scope left (.ok value) after → value.integer? = none →
      Evaluates limit depth scope (.binary operator left right) (.error (.operandNotInteger operator)) after
  | rightFails {depth scope operator left right first error middle after} :
      Evaluates limit depth scope left (.ok (.integer first)) middle →
      Evaluates limit depth middle right (.error error) after →
      Evaluates limit depth scope (.binary operator left right) (.error error) after
  | rightNotInteger {depth scope operator left right first value middle after} :
      Evaluates limit depth scope left (.ok (.integer first)) middle →
      Evaluates limit depth middle right (.ok value) after → value.integer? = none →
      Evaluates limit depth scope (.binary operator left right) (.error (.operandNotInteger operator)) after
  | consequence {depth scope condition consequence alternative value result middle after} :
      Evaluates limit depth scope condition (.ok (.integer value)) middle → value ≠ 0 →
      Evaluates limit depth middle consequence result after →
      Evaluates limit depth scope (.choice condition consequence alternative) result after
  | alternative {depth scope condition consequence alternative result middle after} :
      Evaluates limit depth scope condition (.ok (.integer 0)) middle →
      Evaluates limit depth middle alternative result after →
      Evaluates limit depth scope (.choice condition consequence alternative) result after
  | conditionFails {depth scope condition consequence alternative error after} :
      Evaluates limit depth scope condition (.error error) after →
      Evaluates limit depth scope (.choice condition consequence alternative) (.error error) after
  | conditionNotInteger {depth scope condition consequence alternative value after} :
      Evaluates limit depth scope condition (.ok value) after → value.integer? = none →
      Evaluates limit depth scope (.choice condition consequence alternative)
        (.error .conditionNotInteger) after
  | assign {depth scope target expr value after} : Evaluates limit depth scope expr (.ok value) after →
      Evaluates limit depth scope (.assign target expr) (.ok value) (after.set target value)
  | assignedFails {depth scope target expr error after} : Evaluates limit depth scope expr (.error error) after →
      Evaluates limit depth scope (.assign target expr) (.error error) after
  | call {depth scope callee arguments value parameters body captured values result called caller final} :
      Evaluates limit depth scope callee (.ok value) called →
      value.callable? = some (parameters, body, captured) → parameters.length = arguments.length →
      depth + 1 ≤ limit →
      EvaluatesAll limit (depth + 1) called arguments (.ok values) caller →
      Evaluates limit (depth + 1) (.ofCall parameters values captured caller) body result final →
      Evaluates limit depth scope (.call callee arguments) (result.map (Meaning.capture final)) caller
  | calleeFails {depth scope callee arguments error after} :
      Evaluates limit depth scope callee (.error error) after →
      Evaluates limit depth scope (.call callee arguments) (.error error) after
  | notFunction {depth scope callee arguments value after} :
      Evaluates limit depth scope callee (.ok value) after → value.callable? = none →
      Evaluates limit depth scope (.call callee arguments) (.error .notFunction) after
  | argumentCount {depth scope callee arguments value parameters body captured after} :
      Evaluates limit depth scope callee (.ok value) after →
      value.callable? = some (parameters, body, captured) → parameters.length ≠ arguments.length →
      Evaluates limit depth scope (.call callee arguments)
        (.error (.argumentCount callee parameters.length arguments.length)) after
  | tooManyCalls {depth scope callee arguments value parameters body captured after} :
      Evaluates limit depth scope callee (.ok value) after →
      value.callable? = some (parameters, body, captured) → parameters.length = arguments.length →
      limit < depth + 1 →
      Evaluates limit depth scope (.call callee arguments) (.error (.tooManyCalls limit)) after
  | argumentFails {depth scope callee arguments value parameters body captured error called after} :
      Evaluates limit depth scope callee (.ok value) called →
      value.callable? = some (parameters, body, captured) → parameters.length = arguments.length →
      depth + 1 ≤ limit →
      EvaluatesAll limit (depth + 1) called arguments (.error error) after →
      Evaluates limit depth scope (.call callee arguments) (.error error) after

inductive EvaluatesAll (limit : Nat) :
    Nat → Scope → List Expr → Except EvalError (List Meaning) → Scope → Prop where
  | nil {depth scope} : EvaluatesAll limit depth scope [] (.ok []) scope
  | cons {depth scope first rest value values middle after} :
      Evaluates limit depth scope first (.ok value) middle →
      EvaluatesAll limit depth middle rest (.ok values) after →
      EvaluatesAll limit depth scope (first :: rest) (.ok (value :: values)) after
  | firstFails {depth scope first rest error after} : Evaluates limit depth scope first (.error error) after →
      EvaluatesAll limit depth scope (first :: rest) (.error error) after
  | restFails {depth scope first rest value error middle after} :
      Evaluates limit depth scope first (.ok value) middle →
      EvaluatesAll limit depth middle rest (.error error) after →
      EvaluatesAll limit depth scope (first :: rest) (.error error) after

end

end LineLang.BigStep
