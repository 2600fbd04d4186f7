import Mathlib.Data.List.TakeWhile
import LineLang.Proofs.Text.Offsets
import LineLang.Token.Scan

/-! A scan accounts for every byte of its text.

Tokens and the separators between them lie side by side from the first byte to the last. Every token begins and
ends between two characters, has the characters there as its text, and ends only where its kind cannot go on.
-/

set_option autoImplicit false

namespace LineLang

/-- White space other than line feeds fills the text from `start` to `stop`. -/
structure Text.Blank (text : String) (start stop : Nat) : Prop where
  ordered : start ≤ stop
  space : ∀ c ∈ (Text.slice text start stop).toList, Text.isSpace c = true ∧ c ≠ '\n'

namespace Token

/-- What a token other than the end of input is in its text. -/
structure CutFrom (text : String) (token : Token) : Prop where
  notEnd : token.kind ≠ .endOfInput
  nonempty : token.start < token.stop
  inside : token.stop ≤ text.utf8ByteSize
  startsBetween : Text.IsBoundary text token.start
  stopsBetween : Text.IsBoundary text token.stop
  text_eq : token.kind ≠ .newLine → token.text = Text.slice text token.start token.stop
  lineFeeds : token.kind = .newLine → ∀ c ∈ (Text.slice text token.start token.stop).toList, c = '\n'
  integer_stops : token.kind = .integer → ∀ c ∈ Text.charAt? text token.stop, c.isDigit = false
  name_stops : token.kind = .name → ∀ c ∈ Text.charAt? text token.stop, isNameChar c = false
  newLine_stops : token.kind = .newLine → ∀ c ∈ Text.charAt? text token.stop, c ≠ '\n'

/-- From the offset on, the text is these tokens with separators before each of them. -/
inductive Covers (text : String) : Nat → List Token → Prop where
  | finish {start} : Text.Blank text start text.utf8ByteSize →
      Covers text start [⟨.endOfInput, "", text.utf8ByteSize, text.utf8ByteSize⟩]
  | token {start token rest} : Text.Blank text start token.start → token.CutFrom text →
      Covers text token.stop rest → Covers text start (token :: rest)

variable {text : String} {before blanks rest : List Char}

theorem blank_of_separators (parts : text.toList = before ++ (blanks ++ rest))
    (separate : ∀ c ∈ blanks, isSeparator c = true) :
    Text.Blank text (Text.byteLength before) (Text.byteLength (before ++ blanks)) := by
  refine ⟨?_, ?_⟩
  · rw [Text.byteLength_append]
    exact Nat.le_add_right _ _
  · rw [Text.slice_of_append parts, String.toList_ofList]
    intro c isOne
    simpa [isSeparator] using separate c isOne

theorem Kind.ofFirst_of_endsLine {c : Char} (ends : (ofFirst c).endsLine = true) :
    c = '\n' ∧ ofFirst c = .newLine := by
  by_cases feed : c = '\n'
  · subst feed
    exact ⟨rfl, rfl⟩
  · simp only [ofFirst, beq_iff_eq, if_neg feed] at ends
    split at ends
    · cases ends
    · split at ends
      · cases ends
      · unfold ofSign? at ends
        split at ends <;> cases ends

theorem Kind.ofFirst_ne_endOfInput (c : Char) : ofFirst c ≠ .endOfInput := by
  intro isEnd
  have isLine := (ofFirst_of_endsLine (by rw [isEnd]; rfl)).2
  rw [isEnd] at isLine
  cases isLine

theorem cutFrom_ofChars {c : Char} {others : List Char} (parts : text.toList = before ++ (c :: others ++ rest))
    (goOn : ∀ d ∈ others, (Kind.ofFirst c).continuesWith d = true)
    (stops : ∀ d ∈ rest.head?, (Kind.ofFirst c).continuesWith d = false) :
    (ofChars (Kind.ofFirst c) (c :: others) (Text.byteLength before)).CutFrom text := by
  have regrouped : text.toList = (before ++ c :: others) ++ rest := by
    rw [parts, List.append_assoc]
  have size : text.utf8ByteSize = Text.byteLength (before ++ c :: others) + Text.byteLength rest := by
    rw [← Text.byteLength_toList, regrouped, Text.byteLength_append]
  have slice := Text.slice_of_append parts
  have ended : ∀ d ∈ Text.charAt? text (Text.byteLength (before ++ c :: others)),
      (Kind.ofFirst c).continuesWith d = false := by
    rw [Text.charAt?_of_append regrouped]
    exact stops
  have positive := c.utf8Size_pos
  simp only [ofChars, ← Text.byteLength_append]
  refine ⟨Kind.ofFirst_ne_endOfInput c, ?_, ?_, Text.isBoundary_of_append parts,
    Text.isBoundary_of_append regrouped, ?_, ?_, ?_, ?_, ?_⟩
  · simp only [Text.byteLength_append, Text.byteLength_cons]
    omega
  · simp only
    omega
  · intro (notLine : Kind.ofFirst c ≠ .newLine)
    simp only [if_neg notLine, slice]
  · intro (isLine : Kind.ofFirst c = .newLine)
    simp only [slice, String.toList_ofList, List.forall_mem_cons]
    refine ⟨(Kind.ofFirst_of_endsLine (by rw [isLine]; rfl)).1, fun d isOther => ?_⟩
    have continues := goOn d isOther
    rw [isLine] at continues
    exact beq_iff_eq.mp continues
  · intro (isInteger : Kind.ofFirst c = .integer) d isNext
    have stopped := ended d isNext
    rwa [isInteger] at stopped
  · intro (isName : Kind.ofFirst c = .name) d isNext
    have stopped := ended d isNext
    rwa [isName] at stopped
  · intro (isLine : Kind.ofFirst c = .newLine) d isNext
    have stopped := ended d isNext
    rw [isLine] at stopped
    exact beq_eq_false_iff_ne.mp stopped

-- `blanks` are the separators that were passed over since the last token.
theorem covers_scanFrom (start : Nat) (chars : List Char) :
    ∀ before blanks : List Char, text.toList = before ++ (blanks ++ chars) →
      (∀ c ∈ blanks, isSeparator c = true) → start = Text.byteLength (before ++ blanks) →
      Covers text (Text.byteLength before) (scanFrom start chars) := by
  fun_induction scanFrom start chars with
  | case1 start =>
    intro before blanks parts separate reached
    have blank := blank_of_separators parts separate
    have size : text.utf8ByteSize = start := by
      rw [← Text.byteLength_toList, parts, List.append_nil, reached]
    rw [← reached, ← size] at blank
    rw [← size]
    exact .finish blank
  | case2 start c rest separates ih =>
    intro before blanks parts separate reached
    have further : text.toList = before ++ (blanks ++ [c] ++ rest) := by simp [parts]
    have passed : ∀ d ∈ blanks ++ [c], isSeparator d = true :=
      List.forall_mem_append.mpr ⟨separate, List.forall_mem_singleton.mpr separates⟩
    apply ih before (blanks ++ [c]) further passed
    simp [reached, Nat.add_assoc]
  | case3 start c rest visible kind token ih =>
    intro before blanks parts separate reached
    have blank := blank_of_separators parts separate
    have around : text.toList = (before ++ blanks) ++
        (c :: rest.takeWhile kind.continuesWith ++ rest.dropWhile kind.continuesWith) := by
      simp [parts]
    have cut : token.CutFrom text := by
      simp only [token, reached]
      apply cutFrom_ofChars around
      · intro d taken
        exact List.mem_takeWhile_imp taken
      · intro d isNext
        have stopped := List.head?_dropWhile_not kind.continuesWith rest
        rwa [isNext] at stopped
    have further : text.toList = (before ++ blanks ++ c :: rest.takeWhile kind.continuesWith) ++
        ([] ++ rest.dropWhile kind.continuesWith) := by
      simp [parts]
    have stop : token.stop = Text.byteLength (before ++ blanks ++ c :: rest.takeWhile kind.continuesWith) := by
      rw [Text.byteLength_append, ← reached]
      rfl
    rw [← reached] at blank
    refine .token blank cut ?_
    have rest := ih _ [] further (List.forall_mem_nil _) (by rw [stop, List.append_nil])
    rwa [← stop] at rest

theorem covers_scan (text : String) : Covers text 0 (scan text) :=
  covers_scanFrom 0 text.toList [] [] rfl (List.forall_mem_nil _) rfl

namespace Covers

variable {start : Nat} {tokens : List Token}

theorem exists_front (covers : Covers text start tokens) :
    ∃ front, tokens = front ++ [⟨.endOfInput, "", text.utf8ByteSize, text.utf8ByteSize⟩] ∧
      ∀ token ∈ front, token.CutFrom text := by
  induction covers with
  | finish blank => exact ⟨[], rfl, List.forall_mem_nil _⟩
  | @token start token rest blank cut _ ih =>
    obtain ⟨front, rfl, each⟩ := ih
    exact ⟨token :: front, rfl, List.forall_mem_cons.mpr ⟨cut, each⟩⟩

theorem length_le (covers : Covers text start tokens) : start + tokens.length ≤ text.utf8ByteSize + 1 := by
  induction covers with
  | finish blank =>
    have ordered := blank.ordered
    simp only [List.length_singleton]
    omega
  | token blank cut _ ih =>
    have ordered := blank.ordered
    have nonempty := cut.nonempty
    simp only [List.length_cons]
    omega

theorem start_le (covers : Covers text start tokens) : ∀ token ∈ tokens, start ≤ token.start := by
  induction covers with
  | finish blank => exact List.forall_mem_singleton.mpr blank.ordered
  | token blank cut _ ih =>
    refine List.forall_mem_cons.mpr ⟨blank.ordered, fun later isLater => ?_⟩
    exact Nat.le_trans blank.ordered (Nat.le_trans (Nat.le_of_lt cut.nonempty) (ih later isLater))

theorem pairwise (covers : Covers text start tokens) :
    tokens.Pairwise fun token later => token.stop ≤ later.start := by
  induction covers with
  | finish blank => exact List.pairwise_singleton _ _
  | token blank cut rest ih => exact List.pairwise_cons.mpr ⟨rest.start_le, ih⟩

theorem blank_first {first : Token} {rest : List Token} (covers : Covers text start (first :: rest)) :
    Text.Blank text start first.start := by
  cases covers with
  | finish blank => exact blank
  | token blank cut covers => exact blank

theorem blank_between {front rest : List Token} {token next : Token}
    (covers : Covers text start (front ++ token :: next :: rest)) :
    Text.Blank text token.stop next.start := by
  induction front generalizing start with
  | nil =>
    cases covers with
    | token blank cut covers => exact covers.blank_first
  | cons first front ih =>
    rw [List.cons_append] at covers
    generalize after : front ++ token :: next :: rest = tokens at covers ih
    cases covers with
    | finish blank => simp at after
    | token blank cut covers => exact ih covers

end Covers

/-- A scan ends with the one token for the end of the input. Each token before it is a piece of the text, later
pieces lie further on, and before the first and between any two neighbours there is nothing but white space. -/
theorem scan_covers_text (text : String) :
    (scan text).length ≤ text.utf8ByteSize + 1 ∧
    (∃ front, scan text = front ++ [⟨.endOfInput, "", text.utf8ByteSize, text.utf8ByteSize⟩] ∧
      ∀ token ∈ front, token.CutFrom text) ∧
    (scan text).Pairwise (fun token later => token.stop ≤ later.start) ∧
    (∀ first rest, scan text = first :: rest → Text.Blank text 0 first.start) ∧
    ∀ front token next rest, scan text = front ++ token :: next :: rest →
      Text.Blank text token.stop next.start := by
  have covers := covers_scan text
  refine ⟨?_, covers.exists_front, covers.pairwise, ?_, ?_⟩
  · rw [← Nat.zero_add (scan text).length]
    exact covers.length_le
  · intro first rest same
    exact (same ▸ covers).blank_first
  · intro front token next rest same
    exact (same ▸ covers).blank_between

end Token

end LineLang
