/-! Classes of characters, given as runs of code points. -/

set_option autoImplicit false

namespace LineLang.Text

/-- Whether the character lies in one of the runs, each given by its first and last code point. -/
def inRuns (runs : List (Nat × Nat)) (c : Char) : Bool :=
  runs.any fun run => run.1 ≤ c.toNat && c.toNat ≤ run.2

def apart (left right : List (Nat × Nat)) : Bool :=
  left.all fun one => right.all fun other => one.2 < other.1 || other.2 < one.1

theorem not_inRuns_of_apart {left right : List (Nat × Nat)} (disjoint : apart left right = true)
    {c : Char} (inLeft : inRuns left c = true) : inRuns right c = false := by
  simp only [inRuns, List.any_eq_true, Bool.and_eq_true, decide_eq_true_eq] at inLeft
  obtain ⟨one, oneMem, lower, upper⟩ := inLeft
  simp only [inRuns, List.any_eq_false, Bool.and_eq_true, decide_eq_true_eq, not_and]
  intro other otherMem otherLower otherUpper
  have separate := List.all_eq_true.mp (List.all_eq_true.mp disjoint one oneMem) other otherMem
  simp only [Bool.or_eq_true, decide_eq_true_eq] at separate
  omega

end LineLang.Text
