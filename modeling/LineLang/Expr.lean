/-! Expressions of the language.

A tree may hold what no text produces: a negative integer, a name that is not one word.
-/

set_option autoImplicit false

namespace LineLang

inductive Sign where
  | plus
  | minus
  deriving DecidableEq, Repr

inductive Operator where
  | add
  | subtract
  | multiply
  | divide
  | modulo
  deriving DecidableEq, Repr

inductive Expr where
  | integer (value : Int64)
  | name (word : String)
  | signed (sign : Sign) (operand : Expr)
  | binary (operator : Operator) (left right : Expr)
  | choice (condition consequence alternative : Expr)
  | assign (target : String) (value : Expr)
  | function (parameters : List String) (body : Expr)
  | call (callee : Expr) (arguments : List Expr)

def Sign.symbol : Sign → String
  | .plus => "+"
  | .minus => "-"

def Operator.symbol : Operator → String
  | .add => "+"
  | .subtract => "-"
  | .multiply => "*"
  | .divide => "/"
  | .modulo => "%"

namespace Expr

@[elab_as_elim, induction_eliminator]
theorem induct {motive : Expr → Prop}
    (integer : ∀ value, motive (.integer value))
    (name : ∀ word, motive (.name word))
    (signed : ∀ sign operand, motive operand → motive (.signed sign operand))
    (binary : ∀ operator left right, motive left → motive right →
      motive (.binary operator left right))
    (choice : ∀ condition consequence alternative, motive condition → motive consequence →
      motive alternative → motive (.choice condition consequence alternative))
    (assign : ∀ target value, motive value → motive (.assign target value))
    (function : ∀ parameters body, motive body → motive (.function parameters body))
    (call : ∀ callee arguments, motive callee → (∀ argument ∈ arguments, motive argument) →
      motive (.call callee arguments)) (expr : Expr) : motive expr :=
  @Expr.rec motive (fun arguments => ∀ argument ∈ arguments, motive argument)
    integer name signed binary choice assign function call (by simp)
    (by
      intro head tail holdsHead holdsTail argument member
      rcases List.mem_cons.mp member with rfl | member
      · exact holdsHead
      · exact holdsTail argument member)
    expr

mutual

def same : Expr → Expr → Bool
  | .integer a, .integer b => a == b
  | .name a, .name b => a == b
  | .signed a e, .signed b f => a == b && same e f
  | .binary a l r, .binary b m s => a == b && same l m && same r s
  | .choice c t e, .choice d u f => same c d && same t u && same e f
  | .assign a e, .assign b f => a == b && same e f
  | .function a e, .function b f => a == b && same e f
  | .call e as, .call f bs => same e f && sameAll as bs
  | _, _ => false

def sameAll : List Expr → List Expr → Bool
  | [], [] => true
  | a :: as, b :: bs => same a b && sameAll as bs
  | _, _ => false

end

mutual

theorem same_iff : (a b : Expr) → (same a b = true ↔ a = b)
  | .integer _, b => by cases b <;> simp [same]
  | .name _, b => by cases b <;> simp [same]
  | .signed _ e, b => by
    cases b <;> simp [same]
    rename_i f
    rw [same_iff e f]
    simp
  | .binary _ l r, b => by
    cases b <;> simp [same]
    rename_i m s
    rw [same_iff l m, same_iff r s]
    simp [and_assoc]
  | .choice c t e, b => by
    cases b <;> simp [same]
    rename_i d u f
    rw [same_iff c d, same_iff t u, same_iff e f]
    simp [and_assoc]
  | .assign _ e, b => by
    cases b <;> simp [same]
    rename_i f
    rw [same_iff e f]
    simp
  | .function _ e, b => by
    cases b <;> simp [same]
    rename_i f
    rw [same_iff e f]
    simp
  | .call e as, b => by
    cases b <;> simp [same]
    rename_i f bs
    rw [same_iff e f, sameAll_iff as bs]

theorem sameAll_iff : (as bs : List Expr) → (sameAll as bs = true ↔ as = bs)
  | [], bs => by cases bs <;> simp [sameAll]
  | a :: as, bs => by
    cases bs <;> simp [sameAll]
    rename_i b bs
    rw [same_iff a b, sameAll_iff as bs]

end

instance : DecidableEq Expr := fun a b => decidable_of_iff _ (same_iff a b)

end Expr

end LineLang
