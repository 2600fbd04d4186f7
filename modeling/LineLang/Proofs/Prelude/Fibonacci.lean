import Mathlib.Data.Nat.Fib.Basic
import LineLang.Proofs.Evaluation
import LineLang.Proofs.Prelude

/-! The Fibonacci numbers of the prelude, and how many calls they need.

The number with index `n` needs `n` open calls at a time, or one if `n` is zero: the second call of a body is opened
where the first one was. Every other index leads from one call to the next without an end, and the limit stops it.
-/

set_option autoImplicit false

namespace LineLang.Prelude

open Callable (Passes)

def fibonacci : Callable where
  parameters := ["n"]
  body := fibonacciBody
  captured := .empty

section Evaluation

variable {session : Session} {argument : Expr} {value : Int64}

/-- What the name stands for after the prelude was loaded. -/
def Defines (session : Session) : Prop :=
  session.get? "fibonacci" = some (.function ["n"] fibonacciBody)

theorem Defines.entered (defines : Defines session) (value : Value) : Defines (fibonacci.entered value session) := by
  change (session.frame.insert "n" value).get? "fibonacci" = _
  rw [Frame.get?_insert, if_neg (by decide)]
  exact defines

theorem get?_entered (value : Value) : (fibonacci.entered value session).get? "n" = some value := by
  change (session.frame.insert "n" value).get? "n" = _
  rw [Frame.get?_insert, if_pos rfl]

theorem eval_call (defines : Defines session) (within : session.depth ≤ session.limit) (argument : Expr) :
    session.eval (.call (.name "fibonacci") [argument]) = fibonacci.apply [argument] session :=
  Callable.eval_call_eq_apply within (Session.eval_name_of_get? defines) rfl rfl

theorem eval_subtract (bound : session.get? "n" = some (.integer value)) (back : Int64) :
    session.eval (.binary .subtract (.name "n") (.integer back)) = ⟨.ok (.integer (value - back)), session⟩ :=
  Session.eval_binary_of_ok .subtract (Session.eval_name_of_get? bound) (Session.eval_integer back)

theorem eval_fibonacciBody (within : session.depth ≤ session.limit)
    (bound : session.get? "n" = some (.integer value)) :
    session.eval fibonacciBody =
      if value = 1 then ⟨.ok (.integer 1), session⟩
      else if value = 0 then ⟨.ok (.integer 0), session⟩
      else session.eval (.binary .add (fibonacciBefore 1) (fibonacciBefore 2)) := by
  rw [fibonacciBody, Session.eval_choice_of_ok within _ _ (eval_subtract bound 1),
    Session.eval_choice_of_ok within _ _ (Session.eval_name_of_get? bound), Session.eval_integer, Session.eval_integer]
  simp only [Int64.sub_eq_iff_eq_add, Int64.zero_add]

theorem eval_fibonacciBody_of_ne (within : session.depth ≤ session.limit)
    (bound : session.get? "n" = some (.integer value)) (notOne : value.toInt ≠ 1) (notZero : value.toInt ≠ 0) :
    session.eval fibonacciBody = session.eval (.binary .add (fibonacciBefore 1) (fibonacciBefore 2)) := by
  rw [eval_fibonacciBody within bound]
  rw [if_neg fun isOne => notOne (congrArg Int64.toInt isOne)]
  rw [if_neg fun isZero => notZero (congrArg Int64.toInt isZero)]

theorem passes_subtract (bound : session.get? "n" = some (.integer value)) (back : Int64) :
    Passes session (.binary .subtract (.name "n") (.integer back)) (.integer (value - back)) :=
  @eval_subtract { session with depth := session.depth + 1 } value bound back

end Evaluation

theorem ofInt_fib_add_two (count : Nat) :
    Int64.ofInt (Nat.fib (count + 1)) + Int64.ofInt (Nat.fib count) = Int64.ofInt (Nat.fib (count + 2)) := by
  rw [Nat.fib_add_two, Nat.cast_add, Int64.ofInt_add, Int64.add_comm]

theorem toInt_sub_of_two_le {value back : Int64} (large : 2 ≤ value.toInt) (positive : 0 ≤ back.toInt)
    (small : back.toInt ≤ 2) : (value - back).toInt = value.toInt - back.toInt := by
  apply Int64.toInt_sub_of_le
  · rw [Int64.le_iff_toInt_le]
    exact positive
  · rw [Int64.le_iff_toInt_le]
    omega

-- Both calls of a body are opened one deeper than the call that the body belongs to.
theorem eval_fibonacci_of_le (count : Nat) {session : Session} {argument : Expr} {value : Int64}
    (defines : Defines session) (index : value.toInt = count) (passes : Passes session argument (.integer value))
    (below : session.depth < session.limit) (room : session.depth + count ≤ session.limit) :
    session.eval (.call (.name "fibonacci") [argument]) = ⟨.ok (.integer (.ofInt (Nat.fib count))), session⟩ := by
  induction count using Nat.strongRecOn generalizing session argument value with
  | ind count ih =>
  have inside : (fibonacci.entered (.integer value) session).depth ≤ session.limit := below
  have bound := @get?_entered session (.integer value)
  have body := eval_fibonacciBody inside bound
  rw [eval_call defines (Nat.le_of_lt below)]
  match count, index, room, ih with
  | 0, index, _, _ =>
    have isZero : value = 0 := Int64.toInt.inj index
    subst isZero
    exact Callable.apply_single_of_ok below passes body
  | 1, index, _, _ =>
    have isOne : value = 1 := Int64.toInt.inj index
    subst isOne
    exact Callable.apply_single_of_ok below passes body
  | count + 2, index, room, ih =>
    have one : (1 : Int64).toInt = 1 := rfl
    have two : (2 : Int64).toInt = 2 := rfl
    have further : session.depth + 1 < session.limit := by omega
    have firstIndex : (value - 1).toInt = (count + 1 : Nat) := by
      rw [toInt_sub_of_two_le] <;> omega
    have secondIndex : (value - 2).toInt = count := by
      rw [toInt_sub_of_two_le] <;> omega
    have first : (fibonacci.entered (.integer value) session).eval (fibonacciBefore 1) = _ :=
      ih (count + 1) (by omega) (defines.entered _) firstIndex (passes_subtract bound 1) further
        (show session.depth + 1 + _ ≤ session.limit by omega)
    have second : (fibonacci.entered (.integer value) session).eval (fibonacciBefore 2) = _ :=
      ih count (by omega) (defines.entered _) secondIndex (passes_subtract bound 2) further
        (show session.depth + 1 + _ ≤ session.limit by omega)
    have body := eval_fibonacciBody_of_ne inside bound (by omega) (by omega)
    rw [Session.eval_binary_of_ok .add first second] at body
    rw [Callable.apply_single_of_ok below passes body, ← ofInt_fib_add_two]
    rfl

/-- An index that does not come to an end while so many calls can be opened. One below the least integer is the
greatest, from where the limit is not far enough to reach the end. -/
def Endless (room : Nat) (value : Int64) : Prop :=
  value.toInt < 0 ∨ room < value.toInt

theorem Endless.sub_one {room : Nat} {value : Int64} (endless : Endless (room + 1) value)
    (small : room + 1 < 2 ^ 63) : Endless room (value - 1) := by
  have one : (1 : Int64).toInt = 1 := rfl
  have lower := value.le_toInt
  have upper := value.toInt_lt
  unfold Endless at endless ⊢
  rw [Int64.toInt_sub, one, Int.bmod]
  split <;> omega

theorem eval_fibonacci_of_endless (room : Nat) {session : Session} {argument : Expr} {value : Int64}
    (defines : Defines session) (endless : room = 0 ∨ Endless room value)
    (passes : session.depth < session.limit → Passes session argument (.integer value))
    (left : session.depth + room = session.limit) (small : room < 2 ^ 63) :
    session.eval (.call (.name "fibonacci") [argument]) =
      ⟨.error (.tooManyCalls session.limit), { session with depth := 0 }⟩ := by
  induction room generalizing session argument value with
  | zero => rw [eval_call defines (by omega), Callable.apply_of_full (by omega)]
  | succ room ih =>
    have below : session.depth < session.limit := by omega
    have inside : (fibonacci.entered (.integer value) session).depth ≤ session.limit := below
    have bound := @get?_entered session (.integer value)
    have endless : Endless (room + 1) value := endless.resolve_left (by omega)
    have first : (fibonacci.entered (.integer value) session).eval (fibonacciBefore 1) = _ :=
      ih (defines.entered _) (.inr (endless.sub_one small)) (fun _ => passes_subtract bound 1)
        (show session.depth + 1 + room = session.limit by omega) (by omega)
    unfold Endless at endless
    have body := eval_fibonacciBody_of_ne inside bound (by omega) (by omega)
    rw [Session.eval_binary_of_error inside .add first] at body
    rw [eval_call defines (Nat.le_of_lt below), Callable.apply_single_of_refused below (passes below) body]
    rfl

theorem defines_load (session : Session) : Defines (load session).session := by
  rw [Defines, load_eq, Session.get?, Session.set, Frame.get?_insert, if_pos rfl]

/-- Where the name stands for what the prelude gives it, a call on an index comes to the number with that index if
there is room for as many calls, and for one. On every other index the calls go on until one is refused. -/
theorem fibonacci_exact (session : Session) (value : Int64) (idle : session.depth = 0)
    (bounded : session.limit < 2 ^ 63)
    (defined : session.get? "fibonacci" = (load {}).session.get? "fibonacci") :
    session.eval (.call (.name "fibonacci") [.integer value]) =
      if 0 ≤ value.toInt ∧ value.toInt ≤ session.limit ∧ 1 ≤ session.limit then
        ⟨.ok (.integer (.ofInt (Nat.fib value.toInt.toNat))), session⟩
      else ⟨.error (.tooManyCalls session.limit), session⟩ := by
  have defines : Defines session := defined.trans (defines_load {})
  have passes : Passes session (.integer value) (.integer value) := Session.eval_integer value
  split
  next fits =>
    obtain ⟨positive, reached, one⟩ := fits
    exact eval_fibonacci_of_le value.toInt.toNat defines (by omega) passes (by omega) (by omega)
  next exceeds =>
    have same : { session with depth := 0 } = session := by rw [← idle]
    have endless : session.limit = 0 ∨ Endless session.limit value := by
      unfold Endless
      omega
    rw [eval_fibonacci_of_endless session.limit defines endless (fun _ => passes) (by omega) bounded, same]

-- The sum that gives the last of these numbers does not fit into 64 bits.
theorem fibonacci_exact_wraps :
    let session := (load { frame := ⟨[("n", .integer 7)]⟩, limit := 93 }).session
    let call := fun value => Expr.call (.name "fibonacci") [.integer value]
    session.eval (call 93) = ⟨.ok (.integer (-6246583658587674878)), session⟩ ∧
      session.eval (call 94) = ⟨.error (.tooManyCalls 93), session⟩ ∧
      session.eval (call (-1)) = ⟨.error (.tooManyCalls 93), session⟩ := by
  intro session call
  have idle : session.depth = 0 := by simp only [session, load_eq, Session.set]
  have limit : session.limit = 93 := by simp only [session, load_eq, Session.set]
  have defined := (defines_load _ : Defines session).trans (defines_load {}).symm
  have calls := fun value => fibonacci_exact session value idle (by omega) defined
  simp only [limit] at calls
  have wrapped : Int64.ofInt (Nat.fib 93) = -6246583658587674878 := by decide +kernel
  refine ⟨(calls 93).trans ?_, (calls 94).trans rfl, (calls (-1)).trans rfl⟩
  rw [if_pos (by decide), ← wrapped]
  rfl

end LineLang.Prelude
