import Mathlib.Algebra.Ring.Int.Defs
import Mathlib.Logic.Function.Iterate
import LineLang.Proofs.Limit
import LineLang.Proofs.Prelude
import LineLang.Proofs.RoundTrip
import LineLang.Proofs.RoundTrip.Numerals

/-! The generator of the prelude.

A step is taken by a line `x = rand(seed)(x)`. From a number below `2 ^ 32` no step leaves the range of 64-bit
integers, so what is computed is the generator over the integers, and it stays below `2 ^ 32`. The seed is captured
and never read.
-/

set_option autoImplicit false

namespace LineLang

open Callable (Passes)

namespace Prelude

def randomAfter (value : Int64) : Int64 :=
  (1664525 * value + 1013904223) % 4294967296

/-- `x = rand(seed)(x)` -/
def draw (seed : Expr) : Expr :=
  .assign "x" (.call (.call (.name "rand") [seed]) [.name "x"])

def drawLine (seed : Int64) : String :=
  "x = rand(" ++ Numeral.write seed ++ ")(x)\n"

/-- A step of the generator can be taken from the value. -/
structure Drawable (session : Session) (value : Int64) : Prop where
  room : session.depth < session.limit
  defined : session.get? "rand" = some (.function ["seed"] nextRandom)
  bound : session.get? "x" = some (.integer value)

variable {session : Session} {value : Int64}

theorem eval_randomBody (bound : session.get? "x" = some (.integer value)) :
    session.eval randomBody = ⟨.ok (.integer (randomAfter value)), session⟩ := by
  have product := Session.eval_binary_of_ok .multiply (Session.eval_integer 1664525)
    (Session.eval_name_of_get? bound)
  have sum := Session.eval_binary_of_ok .add product (Session.eval_integer 1013904223)
  exact Session.eval_binary_of_ok .modulo sum (Session.eval_integer 4294967296)

namespace Drawable

theorem set (drawable : Drawable session value) (next : Int64) :
    Drawable (session.set "x" (.integer next)) next where
  room := drawable.room
  defined := by
    rw [Session.get?, Session.set, Frame.get?_insert, if_neg (by decide)]
    exact drawable.defined
  bound := by rw [Session.get?, Session.set, Frame.get?_insert, if_pos rfl]

-- The generator that a seed names has captured the seed and an older number, which its parameter hides.
theorem eval_draw (drawable : Drawable session value) {seed : Expr} {seeded : Value}
    (passes : Passes session seed seeded) :
    session.eval (draw seed) =
      ⟨.ok (.integer (randomAfter value)), session.set "x" (.integer (randomAfter value))⟩ := by
  have within := Nat.le_of_lt drawable.room
  let rand : Callable := ⟨["seed"], nextRandom, .empty⟩
  let generator : Callable := ⟨["x"], randomBody, (rand.entered seeded session).frame⟩
  have body : (rand.entered seeded session).eval rand.body = ⟨.ok (.function ["x"] randomBody), _⟩ :=
    Session.eval_function ["x"] randomBody
  have made := Callable.apply_single_of_ok drawable.room passes body
  have named : session.eval (.call (.name "rand") [seed]) =
      ⟨.ok (.closure ["x"] randomBody (rand.entered seeded session).frame), session⟩ :=
    (Callable.eval_call_eq_apply within (Session.eval_name_of_get? drawable.defined) rfl rfl).trans made
  have passesNumber : Passes session (.name "x") (.integer value) :=
    @Session.eval_name_of_get? { session with depth := session.depth + 1 } _ _ drawable.bound
  have hidden : (generator.entered (.integer value) session).get? "x" = some (.integer value) := by
    rw [Session.get?, Callable.entered, Callable.get?_frame]
    rfl
  have stepped : session.eval (.call (.call (.name "rand") [seed]) [.name "x"]) =
      ⟨.ok (.integer (randomAfter value)), session⟩ :=
    (Callable.eval_call_eq_apply within named rfl rfl).trans
      (Callable.apply_single_of_ok drawable.room passesNumber (eval_randomBody hidden))
  rw [draw, Session.eval_assign, stepped, Outcome.bind_ok]

end Drawable

theorem outcomes_eq {ε α : Type} {run : Session → α → Outcome ε Value} {items : List α} {next : Int64 → Int64}
    (steps : ∀ item ∈ items, ∀ session value, Drawable session value →
      run session item = ⟨.ok (.integer (next value)), session.set "x" (.integer (next value))⟩)
    (drawable : Drawable session value) :
    session.outcomes run items =
      (List.range items.length).map fun i =>
        ⟨.ok (.integer (next^[i + 1] value)), session.set "x" (.integer (next^[i + 1] value))⟩ := by
  induction items generalizing session value with
  | nil => rfl
  | cons item rest ih =>
    obtain ⟨step, others⟩ := List.forall_mem_cons.mp steps
    have replaced : ∀ first second : Value, (session.set "x" first).set "x" second = session.set "x" second := by
      intro first second
      rw [Session.set, Session.set, Frame.insert_insert]
      rfl
    rw [Session.outcomes, step session value drawable, ih others (drawable.set _), List.length_cons,
      List.range_succ_eq_map, List.map_cons, List.map_map]
    simp only [replaced]
    rfl

theorem toInt_randomAfter (lower : 0 ≤ value.toInt) (upper : value.toInt < 2 ^ 32) :
    (randomAfter value).toInt = (1664525 * value.toInt + 1013904223) % 2 ^ 32 := by
  have factor : (1664525 : Int64).toInt = 1664525 := rfl
  have increment : (1013904223 : Int64).toInt = 1013904223 := rfl
  have modulus : (4294967296 : Int64).toInt = 2 ^ 32 := rfl
  have product : (1664525 * value).toInt = 1664525 * value.toInt := by
    rw [Int64.toInt_mul, factor, Int.bmod_eq_of_le] <;> omega
  have sum : (1664525 * value + 1013904223).toInt = 1664525 * value.toInt + 1013904223 := by
    rw [Int64.toInt_add, product, increment, Int.bmod_eq_of_le] <;> omega
  rw [randomAfter, Int64.toInt_mod, sum, modulus, Int.tmod_eq_emod_of_nonneg (by omega)]

theorem iterate_randomAfter_range (lower : 0 ≤ value.toInt) (upper : value.toInt < 2 ^ 32) (count : Nat) :
    0 ≤ (randomAfter^[count] value).toInt ∧ (randomAfter^[count] value).toInt < 2 ^ 32 := by
  induction count with
  | zero => exact ⟨lower, upper⟩
  | succ count ih =>
    rw [Function.iterate_succ_apply', toInt_randomAfter ih.1 ih.2]
    omega

section Lines

open Grammar

def drawTokens (seed : Int64) : List Token :=
  .ofName "x" :: .ofSign '=' :: ([.ofName "rand"] ++ Token.parens (Token.numeral seed) ++ Token.parens [.ofName "x"])

theorem derives_draw (seed : Int64) :
    Derives .longest .assignment (drawTokens seed) .newLine (draw (.numeral seed)) := by
  have rand : Derives .longest .calls [.ofName "rand"] .leftParen (.name "rand") := .unary (.atom (.ofName _ _))
  have number : Derives .longest .calls [.ofName "x"] .rightParen (.name "x") := .unary (.atom (.ofName _ _))
  have step := (rand.called (derives_numeral seed .rightParen) .leftParen).called number .newLine
  have whole : Derives .longest .assignment (drawTokens seed) .newLine (.assign (Token.ofName "x").text _) :=
    .assign rfl rfl (step.toWhole (by decide) (by decide))
  exact whole

theorem valid_drawTokens (seed : Int64) : ∀ token ∈ drawTokens seed, token.kind ≠ .invalid := by
  have valid := Token.valid_numeral seed
  simpa [drawTokens, Token.parens, Token.ofName, Token.ofSign, Token.Kind.ofSign?, or_imp, forall_and] using valid

theorem parseLine_drawLine {seed : Int64} (readable : seed ≠ Int64.minValue) :
    parseLine (drawLine seed) = .ok (draw (.numeral seed)) := by
  have number : Token.Spells "x".toList [.ofName "x"] := .word (by decide)
  have rand : Token.Spells "rand".toList [.ofName "rand"] := .word (by decide)
  have generator := rand.append (by decide) (Numeral.spells_numeral readable).parens
  have spells := number.spaced (c := '=') rfl (generator.append (by decide) number.parens)
  refine parseLine_of_spells ?_ spells (valid_drawTokens seed) (derives_draw seed)
  simp [drawLine]

theorem Drawable.evalLine_drawLine (drawable : Drawable session value) {seed : Int64}
    (readable : seed ≠ Int64.minValue) :
    session.evalLine (drawLine seed) =
      ⟨.ok (.integer (randomAfter value)), session.set "x" (.integer (randomAfter value))⟩ := by
  have passes : Passes session (.numeral seed) (.integer seed) :=
    @Session.eval_numeral { session with depth := session.depth + 1 } seed
  rw [Session.evalLine, parseLine_drawLine readable]
  simp only [drawable.eval_draw passes]
  rfl

end Lines

theorem get?_rand_load (session : Session) :
    (load session).session.get? "rand" = some (.function ["seed"] nextRandom) := by
  rw [load_eq, Session.get?, Session.set, Frame.get?_insert, if_neg (by decide), Session.set, Frame.get?_insert,
    if_pos rfl]

/-- From a number below `2 ^ 32`, lines `x = rand(seed)(x)` give the numbers of the generator over the integers, one
after the other, whatever the seeds are. They change nothing but `x`. -/
theorem rand_orbit_exact (session : Session) (start : Int64) (idle : session.depth = 0) (room : 1 ≤ session.limit)
    (defined : session.get? "rand" = (load {}).session.get? "rand")
    (bound : session.get? "x" = some (.integer start)) (lower : 0 ≤ start.toInt) (upper : start.toInt < 2 ^ 32) :
    ∃ orbit : Nat → Int64, orbit 0 = start ∧
      (∀ i, (orbit (i + 1)).toInt = (1664525 * (orbit i).toInt + 1013904223) % 2 ^ 32 ∧
        0 ≤ (orbit (i + 1)).toInt ∧ (orbit (i + 1)).toInt < 2 ^ 32) ∧
      (∀ seeds : List Int64,
        session.outcomes Session.eval (seeds.map fun seed => draw (.integer seed)) =
          (List.range seeds.length).map fun i =>
            ⟨.ok (.integer (orbit (i + 1))), session.set "x" (.integer (orbit (i + 1)))⟩) ∧
      ∀ seeds : List Int64, (∀ seed ∈ seeds, seed ≠ Int64.minValue) →
        session.history (seeds.map drawLine) =
          (List.range seeds.length).map fun i =>
            ⟨.ok (.integer (orbit (i + 1))), session.set "x" (.integer (orbit (i + 1)))⟩ := by
  have drawable : Drawable session start := ⟨by omega, defined.trans (get?_rand_load {}), bound⟩
  refine ⟨fun i => randomAfter^[i] start, rfl, ?_, ?_, ?_⟩
  · intro i
    have here := iterate_randomAfter_range lower upper i
    refine ⟨?_, iterate_randomAfter_range lower upper (i + 1)⟩
    simp only [Function.iterate_succ_apply', toInt_randomAfter here.1 here.2]
  · intro seeds
    rw [outcomes_eq ?_ drawable, List.length_map]
    intro item isOne session value drawable
    obtain ⟨seed, -, rfl⟩ := List.mem_map.mp isOne
    exact drawable.eval_draw (Session.eval_integer seed)
  · intro seeds readable
    rw [Session.history, outcomes_eq ?_ drawable, List.length_map]
    intro item isOne session value drawable
    obtain ⟨seed, isSeed, rfl⟩ := List.mem_map.mp isOne
    exact drawable.evalLine_drawLine (readable seed isSeed)

def seeded : Session :=
  (load { frame := ⟨[("x", .integer 1)]⟩, limit := 1 }).session

theorem rand_orbit_exact_twice :
    ∃ first second : Int64, first.toInt = 1015568748 ∧ second.toInt = 1586005467 ∧
      seeded.history ["x = rand(5)(x)\n", "x = rand(-3)(x)\n"] =
        [⟨.ok (.integer first), seeded.set "x" (.integer first)⟩,
          ⟨.ok (.integer second), seeded.set "x" (.integer second)⟩] := by
  have bound : seeded.get? "x" = some (.integer 1) := by
    rw [seeded, load_eq]
    rfl
  have idle : seeded.depth = 0 := by rw [seeded, load_eq]; rfl
  have limit : seeded.limit = 1 := by rw [seeded, load_eq]; rfl
  obtain ⟨orbit, begins, steps, -, lines⟩ := rand_orbit_exact seeded 1 idle (by omega)
    ((get?_rand_load _).trans (get?_rand_load {}).symm) bound (by decide) (by decide)
  have start : (orbit 0).toInt = 1 := by rw [begins]; rfl
  have first : (orbit 1).toInt = _ := (steps 0).1
  have second : (orbit 2).toInt = _ := (steps 1).1
  have texts : [5, -3].map drawLine = ["x = rand(5)(x)\n", "x = rand(-3)(x)\n"] := by decide +kernel
  refine ⟨orbit 1, orbit 2, by omega, by omega, ?_⟩
  rw [← texts]
  exact lines [5, -3] (List.forall_mem_cons.mpr ⟨by decide, List.forall_mem_singleton.mpr (by decide)⟩)

end Prelude

end LineLang
