import LineLang.Text.Cluster.Class

/-! User-perceived characters.

A cluster is what a reader takes for one character: a letter with its marks, a syllable of jamo, a
flag, a sequence of joined pictographs. Where one ends depends on the character that follows and on
a little of what stands before it, which is the edge of the text so far.
-/

set_option autoImplicit false

namespace LineLang.Text.Cluster

/-- How a text ends, as far as it decides whether the next character joins. -/
inductive Edge where
  -- At the start, or after a control character.
  | closed
  | carriageReturn
  | prepended
  | leadingJamo
  | vowelJamo
  | trailingJamo
  -- The first half of a flag.
  | halfFlag
  -- A pictograph, also with marks after it.
  | pictograph
  -- A pictograph, its marks, and a joiner.
  | joinedPictograph
  -- A consonant, also with marks after it.
  | consonant
  -- A consonant and marks, a linker among them.
  | linkedConsonant
  | plain
  deriving DecidableEq, Repr

def Edge.joins : Edge → Class → Bool
  | .carriageReturn, .lineFeed => true
  | .closed, _ | .carriageReturn, _ => false
  | _, .control | _, .lineFeed | _, .carriageReturn => false
  | _, .extend | _, .linker | _, .nonJoiner | _, .joiner | _, .spacingMark => true
  | .prepended, _ => true
  | .leadingJamo, .leadingJamo | .leadingJamo, .vowelJamo => true
  | .leadingJamo, .openSyllable | .leadingJamo, .closedSyllable => true
  | .vowelJamo, .vowelJamo | .vowelJamo, .trailingJamo => true
  | .trailingJamo, .trailingJamo => true
  | .halfFlag, .regional => true
  | .joinedPictograph, .pictograph => true
  | .linkedConsonant, .consonant => true
  | _, _ => false

def Edge.advance : Edge → Class → Edge
  | _, .lineFeed | _, .control => .closed
  | _, .carriageReturn => .carriageReturn
  | _, .prepend => .prepended
  | _, .leadingJamo => .leadingJamo
  | _, .vowelJamo | _, .openSyllable => .vowelJamo
  | _, .trailingJamo | _, .closedSyllable => .trailingJamo
  | .halfFlag, .regional => .plain
  | _, .regional => .halfFlag
  | _, .pictograph => .pictograph
  | .pictograph, .extend | .pictograph, .linker | .pictograph, .nonJoiner => .pictograph
  | .pictograph, .joiner => .joinedPictograph
  | _, .consonant => .consonant
  | .consonant, .extend | .consonant, .joiner => .consonant
  | .consonant, .linker => .linkedConsonant
  | .linkedConsonant, .extend | .linkedConsonant, .joiner | .linkedConsonant, .linker =>
    .linkedConsonant
  | _, _ => .plain

/-- The characters that still belong to the cluster that ends here, and the clusters after it. -/
def cut (edge : Edge) : List Char → List Char × List (List Char)
  | [] => ([], [])
  | c :: rest =>
    let kind := Class.ofChar c
    let (more, others) := cut (edge.advance kind) rest
    if edge.joins kind then (c :: more, others) else ([], (c :: more) :: others)

theorem cut_flatten (edge : Edge) (chars : List Char) :
    (cut edge chars).1 ++ (cut edge chars).2.flatten = chars := by
  induction chars generalizing edge with
  | nil => rfl
  | cons c rest ih =>
    rw [cut]
    split
    · rename_i more others equation
      have rejoined := ih (edge.advance (Class.ofChar c))
      rw [equation] at rejoined
      split <;> simpa using rejoined

theorem cut_closed (chars : List Char) : (cut .closed chars).1 = [] := by
  cases chars <;> simp [cut, Edge.joins]

def split (chars : List Char) : List (List Char) :=
  (cut .closed chars).2

theorem flatten_split (chars : List Char) : (split chars).flatten = chars := by
  have rejoined := cut_flatten .closed chars
  rwa [cut_closed, List.nil_append] at rejoined

end LineLang.Text.Cluster
