import LineLang.Proofs.Scan
import LineLang.Proofs.Scan.Coverage

/-! Scanning a text in two parts.

The tokens of two texts, one after the other, are the tokens of the whole, with those of the second part moved on
by the length of the first. The one exception is a token that ends with the first part and could have gone on.
-/

set_option autoImplicit false

namespace LineLang.Token

def shift (offset : Nat) (token : Token) : Token :=
  { token with start := token.start + offset, stop := token.stop + offset }

theorem shift_ofChars (offset : Nat) (kind : Kind) (chars : List Char) (start : Nat) :
    (ofChars kind chars start).shift offset = ofChars kind chars (start + offset) := by
  simp only [shift, ofChars, Token.mk.injEq, true_and]
  omega

theorem scanFrom_add (start offset : Nat) (chars : List Char) :
    scanFrom (start + offset) chars = (scanFrom start chars).map (shift offset) := by
  fun_induction scanFrom start chars with
  | case1 start => simp [scanFrom, shift]
  | case2 start c rest separates ih =>
    rw [scanFrom, if_pos separates, ← ih, Nat.add_right_comm]
  | case3 start c rest visible kind token ih =>
    rw [scanFrom, if_neg visible, List.map_cons, ← ih]
    have moved := shift_ofChars offset kind (c :: rest.takeWhile kind.continuesWith) start
    have stop : (token.shift offset).stop = token.stop + offset := rfl
    simp only [kind, token, moved, ← stop]

theorem scanFrom_ne_nil (start : Nat) (chars : List Char) : scanFrom start chars ≠ [] := by
  fun_induction scanFrom start chars with
  | case1 | case3 => simp
  | case2 start c rest separates ih => exact ih

theorem stop_ofChars_add (kind : Kind) (c : Char) (rest : List Char) (start : Nat) :
    (ofChars kind (c :: rest.takeWhile kind.continuesWith) start).stop +
        Text.byteLength (rest.dropWhile kind.continuesWith) = start + Text.byteLength (c :: rest) := by
  have parts := congrArg Text.byteLength (@List.takeWhile_append_dropWhile _ kind.continuesWith rest)
  rw [Text.byteLength_append] at parts
  simp only [ofChars, Text.byteLength_cons]
  omega

/-- The last of the tokens ends at `stop` and goes on with the character that follows there. -/
def GoesOn (tokens : List Token) (stop : Nat) (following : Option Char) : Prop :=
  ∃ last ∈ tokens.getLast?, last.stop = stop ∧ ∃ c ∈ following, last.kind.continuesWith c = true

theorem not_goesOn_nil (stop : Nat) (following : Option Char) : ¬ GoesOn [] stop following := by
  rintro ⟨last, isLast, -⟩
  cases isLast

theorem goesOn_singleton (token : Token) (following : Option Char) :
    GoesOn [token] token.stop following ↔ ∃ c ∈ following, token.kind.continuesWith c = true := by
  simp [GoesOn]

theorem goesOn_cons {token : Token} {tokens : List Token} {stop : Nat} (before : token.stop ≠ stop)
    (following : Option Char) : GoesOn (token :: tokens) stop following ↔ GoesOn tokens stop following := by
  cases tokens with
  | nil =>
    refine iff_of_false ?_ (not_goesOn_nil stop following)
    rintro ⟨last, isLast, ends, -⟩
    cases isLast
    exact before ends
  | cons next tokens => rw [GoesOn, GoesOn, List.getLast?_cons_cons]

theorem scanFrom_run_append {c : Char} {others second : List Char} {start : Nat} (visible : isSeparator c ≠ true)
    (goOn : ∀ d ∈ others, (Kind.ofFirst c).continuesWith d = true) :
    scanFrom start (c :: (others ++ second)) =
        ofChars (Kind.ofFirst c) (c :: others) start ::
          scanFrom (start + Text.byteLength (c :: others)) second ↔
      ¬ ∃ d ∈ second.head?, (Kind.ofFirst c).continuesWith d = true := by
  rw [scanFrom, if_neg visible]
  simp only [List.takeWhile_append_of_pos goOn, List.dropWhile_append_of_pos goOn]
  constructor
  · rintro same ⟨d, isFirst, continues⟩
    have stops := congrArg Token.stop (List.cons.inj same).1
    obtain ⟨following, rfl⟩ := List.head?_eq_some_iff.mp isFirst
    have positive := d.utf8Size_pos
    simp only [ofChars, List.takeWhile_cons_of_pos continues, Text.byteLength_cons, Text.byteLength_append] at stops
    omega
  · intro stops
    cases second with
    | nil => simp [ofChars]
    | cons d second =>
      have stopped : (Kind.ofFirst c).continuesWith d ≠ true := fun continues => stops ⟨d, rfl, continues⟩
      simp only [List.takeWhile_cons_of_neg stopped, List.dropWhile_cons_of_neg stopped, List.append_nil, ofChars]

theorem scanFrom_append_iff (start : Nat) (first second : List Char) :
    scanFrom start (first ++ second) =
        (scanFrom start first).dropLast ++ scanFrom (start + Text.byteLength first) second ↔
      ¬ GoesOn (scanFrom start first).dropLast (start + Text.byteLength first) second.head? := by
  fun_induction scanFrom start first with
  | case1 start => simp [not_goesOn_nil]
  | case2 start c rest separates ih =>
    rw [List.cons_append, scanFrom, if_pos separates, Text.byteLength_cons, ← Nat.add_assoc]
    exact ih
  | case3 start c rest visible kind token ih =>
    have whole : token.stop + Text.byteLength (rest.dropWhile kind.continuesWith) =
        start + Text.byteLength (c :: rest) := stop_ofChars_add kind c rest start
    rw [List.dropLast_cons_of_ne_nil (scanFrom_ne_nil _ _), List.cons_append, List.cons_append]
    by_cases ended : rest.dropWhile kind.continuesWith = []
    · -- The token ends with the first part.
      have goOn := List.dropWhile_eq_nil_iff.mp ended
      have taken : token = ofChars kind (c :: rest) start := by
        simp only [token, List.takeWhile_eq_self_iff.mpr goOn]
      rw [ended, Text.byteLength_nil, Nat.add_zero] at whole
      rw [ended, scanFrom, List.dropLast_singleton, List.nil_append, ← whole, goesOn_singleton, taken]
      exact scanFrom_run_append visible goOn
    · -- The token ends before a character of the first part, so what follows decides.
      have shorter : (rest.takeWhile kind.continuesWith).length ≠ rest.length := by
        intro same
        have parts := congrArg List.length (@List.takeWhile_append_dropWhile _ kind.continuesWith rest)
        rw [List.length_append, same] at parts
        exact ended (List.eq_nil_of_length_eq_zero (by omega))
      have before : token.stop ≠ start + Text.byteLength (c :: rest) := by
        intro same
        exact ended (Text.byteLength_eq_zero.mp (by omega))
      have scanned : scanFrom start (c :: (rest ++ second)) =
          token :: scanFrom token.stop (rest.dropWhile kind.continuesWith ++ second) := by
        rw [scanFrom, if_neg visible]
        simp only [List.takeWhile_append, List.dropWhile_append, if_neg shorter, List.isEmpty_iff, if_neg ended,
          kind, token]
      rw [scanned, List.cons_inj_right, goesOn_cons before, ← whole]
      exact ih

theorem Kind.continuesWith_iff {kind : Kind} {c : Char} :
    kind.continuesWith c = true ↔
      kind = .integer ∧ c.isDigit = true ∨
      kind = .name ∧ (Text.isLetter c = true ∨ c.isDigit = true ∨ c = '_') ∨
      kind = .newLine ∧ c = '\n' := by
  cases kind <;> simp [continuesWith, isNameChar, or_assoc]

theorem Kind.not_isSeparator_of_continuesWith {kind : Kind} {c : Char} (continues : kind.continuesWith c = true) :
    isSeparator c = false := by
  rcases continuesWith_iff.mp continues with ⟨-, digit⟩ | ⟨-, letter | digit | rfl⟩ | ⟨-, rfl⟩
  · exact not_isSeparator_of_not_isSpace (Text.not_isSpace_of_isDigit digit)
  · exact not_isSeparator_of_not_isSpace (Text.not_isSpace_of_isLetter letter)
  · exact not_isSeparator_of_not_isSpace (Text.not_isSpace_of_isDigit digit)
  · decide
  · decide

theorem not_isNameChar_of_isSeparator {c : Char} (separates : isSeparator c = true) : isNameChar c = false := by
  rw [Bool.eq_false_iff]
  intro (isOne : Kind.continuesWith .name c = true)
  rw [Kind.not_isSeparator_of_continuesWith isOne] at separates
  cases separates

/-- Two texts can be scanned apart, the second moved on by the bytes of the first, exactly if the first does not
end in an integer that a digit follows, in a name that a letter, a digit or an underscore follows, or in line feeds
that another one follows. -/
theorem scan_append_iff (first second : String) :
    scan first =
        (scan first).dropLast ++ [⟨.endOfInput, "", first.utf8ByteSize, first.utf8ByteSize⟩] ∧
    (scan (first ++ second) = (scan first).dropLast ++ (scan second).map (shift first.utf8ByteSize) ↔
      ¬ ∃ last ∈ (scan first).dropLast.getLast?, last.stop = first.utf8ByteSize ∧ ∃ c ∈ second.toList.head?,
        last.kind = .integer ∧ c.isDigit = true ∨
        last.kind = .name ∧ (Text.isLetter c = true ∨ c.isDigit = true ∨ c = '_') ∨
        last.kind = .newLine ∧ c = '\n') := by
  obtain ⟨front, ends, -⟩ := (covers_scan first).exists_front
  refine ⟨by rw [ends, List.dropLast_concat], ?_⟩
  have composed := scanFrom_append_iff 0 first.toList second.toList
  rw [Nat.zero_add, Text.byteLength_toList] at composed
  have moved := scanFrom_add 0 first.utf8ByteSize second.toList
  rw [Nat.zero_add] at moved
  simp only [← Kind.continuesWith_iff, scan, String.toList_append, ← moved]
  exact composed

end LineLang.Token
