import Mathlib.Data.List.Forall2
import LineLang.Proofs.Scan
import LineLang.Proofs.Scan.Composition
import LineLang.Proofs.Script

/-! The layout of a line does not matter.

Two texts with the same tokens, wherever these stand, are read as the same expression or refused for the same reason,
and only the offsets in the report can tell them apart. Blanks between tokens are layout, and so is the way in which a
line ends.
-/

set_option autoImplicit false

namespace LineLang

def Token.content (token : Token) : Token.Kind × String :=
  (token.kind, token.text)

def ParseError.bare : ParseError → ParseError
  | .unexpected expected found => .unexpected expected found.bare
  | error => error

def LineError.bare : LineError → LineError
  | .token stray => .token { stray with position := 0 }
  | .parse error => .parse error.bare
  | .eval error => .eval error

theorem mapError_bind {ε β α γ : Type} (name : ε → β) (result : Except ε α) (next : α → Except ε γ) :
    (result.bind next).mapError name = (result.mapError name).bind fun value => (next value).mapError name := by
  cases result <;> rfl

theorem mapError_mapError {ε β δ α : Type} (inner : ε → β) (outer : β → δ) (result : Except ε α) :
    (result.mapError inner).mapError outer = result.mapError (outer ∘ inner) := by
  cases result <;> rfl

theorem Session.evalLine_mapError {β : Type} (name : LineError → β) (session : Session) (text : String) :
    (session.evalLine text).mapError name =
      match (parseLine text).mapError name with
      | .error error => ⟨.error error, session⟩
      | .ok expr => ((session.eval expr).mapError .eval).mapError name := by
  unfold Session.evalLine
  cases parseLine text <;> rfl

/-- The tokens differ at most in their places, and `name` does not tell an error about the one from the same error
about the other. -/
structure Interchangeable {β : Type} (name : LineError → β) (token other : Token) : Prop where
  bare : token.bare = other.bare
  stray : token.kind = .invalid → name (.token ⟨token.text, token.start⟩) = name (.token ⟨other.text, other.start⟩)
  parse : ∀ error : ParseError, name (.parse (error.about token)) = name (.parse (error.about other))

section Related

variable {β : Type} {name : LineError → β} {tokens others : List Token}

theorem Parse.State.run_mapError_eq (related : List.Forall₂ (Interchangeable name) tokens others) (state : State) :
    (state.run tokens).mapError (name ∘ .parse) = (state.run others).mapError (name ∘ .parse) := by
  induction related generalizing state with
  | nil => rfl
  | @cons token other tokens others alike _ ih =>
    rw [run_cons, run_cons, step_about token, step_about other, alike.bare]
    cases state.step other.bare with
    | error fault => exact congrArg Except.error (alike.parse fault)
    | ok next => exact ih next

theorem find?_invalid_related (related : List.Forall₂ (Interchangeable name) tokens others) :
    (tokens.find? (·.kind = .invalid) = none ∧ others.find? (·.kind = .invalid) = none) ∨
    ∃ token other, Interchangeable name token other ∧ token.kind = .invalid ∧
      tokens.find? (·.kind = .invalid) = some token ∧ others.find? (·.kind = .invalid) = some other := by
  induction related with
  | nil => exact .inl ⟨rfl, rfl⟩
  | @cons token other tokens others alike _ ih =>
    have sameKind : token.bare.kind = other.bare.kind := congrArg Token.kind alike.bare
    by_cases invalid : token.kind = .invalid
    · have also : other.kind = .invalid := sameKind.symm.trans invalid
      exact .inr ⟨token, other, alike, invalid, by simp [invalid], by simp [also]⟩
    · have also : other.kind ≠ .invalid := fun isInvalid => invalid (sameKind.trans isInvalid)
      simpa [List.find?_cons, invalid, also] using ih

end Related

theorem closeInput_scan (text : String) : Parse.closeInput (Token.scan text) = Token.scan text := by
  obtain ⟨front, ends, -⟩ := (Token.covers_scan text).exists_front
  rw [ends, Parse.closeInput, List.getLast?_concat]
  exact if_pos rfl

section Lines

variable {β : Type} {name : LineError → β} {first second : String}
  (related : List.Forall₂ (Interchangeable name) (Token.scan first) (Token.scan second))

include related

theorem parseLine_mapError_eq : (parseLine first).mapError name = (parseLine second).mapError name := by
  unfold parseLine Token.tokenize
  rcases find?_invalid_related related with
    ⟨clean, alsoClean⟩ | ⟨token, other, alike, invalid, found, alsoFound⟩
  · simp only [clean, alsoClean, mapError_mapError]
    rw [Parse.parse_eq_run, Parse.parse_eq_run, closeInput_scan, closeInput_scan, mapError_bind, mapError_bind,
      Parse.State.run_mapError_eq related]
  · simp only [found, alsoFound]
    exact congrArg Except.error (alike.stray invalid)

theorem Session.evalLine_mapError_eq (session : Session) :
    (session.evalLine first).mapError name = (session.evalLine second).mapError name := by
  rw [evalLine_mapError, evalLine_mapError, parseLine_mapError_eq related]

end Lines

/-- Read as the same expression, with the same effect, or refused with errors that differ in offsets only. -/
def SameReading (first second : String) : Prop :=
  (parseLine first).mapError LineError.bare = (parseLine second).mapError LineError.bare ∧
    ∀ session : Session,
      (session.evalLine first).mapError LineError.bare = (session.evalLine second).mapError LineError.bare

theorem sameReading_of_content {first second : String}
    (same : (Token.scan first).map Token.content = (Token.scan second).map Token.content) :
    SameReading first second := by
  have related : List.Forall₂ (Interchangeable LineError.bare) (Token.scan first) (Token.scan second) := by
    rw [← List.forall₂_eq_eq_eq, List.forall₂_map_left_iff, List.forall₂_map_right_iff] at same
    refine same.imp ?_
    rintro ⟨kind, text, start, stop⟩ ⟨otherKind, otherText, otherStart, otherStop⟩ sameContent
    cases sameContent
    exact ⟨rfl, fun _ => rfl, fun error => by cases error <;> rfl⟩
  exact ⟨parseLine_mapError_eq related, Session.evalLine_mapError_eq related⟩

namespace Token

theorem scanFrom_separators {blanks : List Char} (separate : ∀ c ∈ blanks, isSeparator c = true) (start : Nat)
    (rest : List Char) : scanFrom start (blanks ++ rest) = scanFrom (start + Text.byteLength blanks) rest := by
  induction blanks generalizing start with
  | nil => rfl
  | cons c blanks ih =>
    obtain ⟨separates, separateRest⟩ := List.forall_mem_cons.mp separate
    rw [List.cons_append, scanFrom, if_pos separates, ih separateRest, Text.byteLength_cons, Nat.add_assoc]

theorem not_goesOn_separator {tokens : List Token} {stop : Nat} {following : Option Char}
    (separates : ∀ c ∈ following, isSeparator c = true) : ¬ GoesOn tokens stop following := by
  rintro ⟨last, -, -, c, isNext, continues⟩
  have visible := Kind.not_isSeparator_of_continuesWith continues
  rw [separates c isNext] at visible
  cases visible

theorem map_content_scanFrom (start other : Nat) (chars : List Char) :
    (scanFrom start chars).map content = (scanFrom other chars).map content := by
  have same := congrArg (List.map content) (map_bare_scanFrom start other chars)
  rwa [List.map_map, List.map_map] at same

theorem map_content_insert_blanks {before blanks after : List Char} (start : Nat)
    (separate : ∀ c ∈ blanks, isSeparator c = true)
    (apart : ¬ GoesOn (scanFrom start before).dropLast (start + Text.byteLength before) after.head?) :
    (scanFrom start (before ++ (blanks ++ after))).map content = (scanFrom start (before ++ after)).map content := by
  cases blanks with
  | nil => rfl
  | cons c blanks =>
    have blankNext : ∀ d ∈ (c :: blanks ++ after).head?, isSeparator d = true := by
      rintro d ⟨⟩
      exact separate c List.mem_cons_self
    rw [(scanFrom_append_iff start before after).mpr apart,
      (scanFrom_append_iff start before _).mpr (not_goesOn_separator blankNext), scanFrom_separators separate,
      List.map_append, List.map_append, map_content_scanFrom]

theorem kind_ne_newLine_of_not_mem (start : Nat) (chars : List Char) (single : '\n' ∉ chars) :
    ∀ token ∈ scanFrom start chars, token.kind ≠ .newLine := by
  fun_induction scanFrom start chars with
  | case1 start => simp
  | case2 start c rest separates ih => exact ih fun isOne => single (List.mem_cons_of_mem _ isOne)
  | case3 start c rest visible kind token ih =>
    refine List.forall_mem_cons.mpr ⟨?_, ih fun isOne => ?_⟩
    · intro isLine
      have isFeed := (Kind.ofFirst_of_endsLine (by rw [show Kind.ofFirst c = .newLine from isLine]; rfl)).1
      exact single (isFeed ▸ List.mem_cons_self)
    · exact single (List.mem_cons_of_mem _ ((List.dropWhile_suffix _).subset isOne))

theorem delimits_append {blanks rest : List Char} (separate : ∀ c ∈ blanks, isSeparator c = true)
    (ends : delimits rest = true) : delimits (blanks ++ rest) = true := by
  cases blanks with
  | nil => exact ends
  | cons c blanks => simp [delimits, not_isNameChar_of_isSeparator (separate c List.mem_cons_self)]

theorem not_goesOn_of_single {chars rest : List Char} (start stop : Nat) (single : '\n' ∉ chars)
    (ends : delimits rest = true) : ¬ GoesOn (scanFrom start chars).dropLast stop rest.head? := by
  rintro ⟨last, isLast, -, c, isNext, continues⟩
  have stops := not_isNameChar_of_delimits ends isNext
  rcases Kind.continuesWith_iff.mp continues with ⟨-, digit⟩ | ⟨isName, -⟩ | ⟨isLine, -⟩
  · simp [isNameChar, digit] at stops
  · rw [isName] at continues
    exact absurd (stops.symm.trans continues) (by decide)
  · exact kind_ne_newLine_of_not_mem start chars single last
      ((List.dropLast_prefix _).subset (List.mem_of_getLast? isLast)) isLine

theorem scanFrom_feeds (start count : Nat) :
    ∃ stop, scanFrom start (List.replicate (count + 1) '\n') =
      [⟨.newLine, "", start, stop⟩, ⟨.endOfInput, "", stop, stop⟩] := by
  have feeds : ∀ c ∈ List.replicate count '\n', Kind.continuesWith .newLine c = true := by
    intro c isOne
    rw [List.eq_of_mem_replicate isOne]
    rfl
  rw [List.replicate_succ, scanFrom, if_neg (by decide)]
  have kind : Kind.ofFirst '\n' = .newLine := rfl
  simp only [kind, List.takeWhile_eq_self_iff.mpr feeds, List.dropWhile_eq_nil_iff.mpr feeds, scanFrom]
  exact ⟨_, rfl⟩

theorem scanFrom_line_end {body blanks : List Char} (single : '\n' ∉ body)
    (separate : ∀ c ∈ blanks, isSeparator c = true) (start count : Nat) :
    ∃ first last, scanFrom start (body ++ (blanks ++ List.replicate (count + 1) '\n')) =
      (scanFrom start body).dropLast ++ [⟨.newLine, "", first, last⟩, ⟨.endOfInput, "", last, last⟩] := by
  obtain ⟨last, feeds⟩ := scanFrom_feeds (start + Text.byteLength body + Text.byteLength blanks) count
  refine ⟨start + Text.byteLength body + Text.byteLength blanks, last, ?_⟩
  have ends : delimits (blanks ++ List.replicate (count + 1) '\n') = true := delimits_append separate rfl
  rw [(scanFrom_append_iff start body _).mpr (not_goesOn_of_single _ _ single ends), scanFrom_separators separate,
    feeds]

end Token

namespace Text

theorem dropLineEnds_append {text ends : String} (lineEnds : ∀ c ∈ ends.toList, isLineEnd c = true) :
    dropLineEnds (text ++ ends) = dropLineEnds text := by
  unfold dropLineEnds
  rw [String.toList_append, List.reverse_append, List.dropWhile_append_of_pos]
  intro c isOne
  exact lineEnds c (List.mem_reverse.mp isOne)

theorem exists_returns {text : String} (single : '\n' ∉ text.toList) :
    ∃ returns, text.toList = (dropLineEnds text).toList ++ returns ∧ ∀ c ∈ returns, c = '\r' := by
  refine ⟨(text.toList.reverse.takeWhile isLineEnd).reverse, ?_, ?_⟩
  · rw [dropLineEnds, String.toList_ofList, ← List.reverse_append, List.takeWhile_append_dropWhile,
      List.reverse_reverse]
  · intro c isOne
    rw [List.mem_reverse] at isOne
    have ends := List.mem_takeWhile_imp isOne
    have inside := List.mem_reverse.mp ((List.takeWhile_prefix _).subset isOne)
    simp only [isLineEnd, Bool.or_eq_true, beq_iff_eq] at ends
    rcases ends with isReturn | rfl
    · exact isReturn
    · exact absurd inside single

end Text

theorem Interchangeable.refl {β : Type} (name : LineError → β) (token : Token) : Interchangeable name token token :=
  ⟨rfl, fun _ => rfl, fun _ => rfl⟩

theorem Token.display_of_endsLine {token : Token} (ends : token.kind.endsLine = true) :
    token.display = token.kind.display := by
  unfold Token.display
  rw [if_pos ends]

theorem interchangeable_of_endsLine {token other : Token} (bare : token.bare = other.bare)
    (ends : token.kind.endsLine = true) : Interchangeable LineError.message token other := by
  have sameKind : token.bare.kind = other.bare.kind := congrArg Token.kind bare
  have alsoEnds : other.kind.endsLine = true := (congrArg Token.Kind.endsLine sameKind).symm.trans ends
  have sameDisplay : token.display = other.display := by
    rw [Token.display_of_endsLine ends, Token.display_of_endsLine alsoEnds]
    exact congrArg Token.Kind.display sameKind
  refine ⟨bare, ?_, ?_⟩
  · intro invalid
    rw [invalid] at ends
    cases ends
  · intro error
    cases error with
    | unexpected expected found =>
      change "expected " ++ expected.display ++ ", found " ++ token.display =
        "expected " ++ expected.display ++ ", found " ++ other.display
      rw [sameDisplay]
    | endOfLine | badInteger => rfl

/-- Both ways to evaluate a line agree on one that ends in any number of carriage returns and then line feeds. -/
theorem Session.runLine_agrees {text : String} (single : '\n' ∉ text.toList) (returns feeds : Nat) (session : Session)
    (tracing : Bool) :
    let line := text ++ String.ofList (List.replicate returns '\r') ++ String.ofList (List.replicate (feeds + 1) '\n')
    (session.runLine tracing line).outcome.mapError LineError.message =
      (session.evalLine line).mapError LineError.message := by
  intro line
  obtain ⟨inner, parts, areReturns⟩ := Text.exists_returns single
  have shortened : Text.dropLineEnds line = Text.dropLineEnds text := by
    simp only [line]
    rw [Text.dropLineEnds_append, Text.dropLineEnds_append]
    · simp [Text.isLineEnd]
    · simp [Text.isLineEnd]
  have singleBody : '\n' ∉ (Text.dropLineEnds text).toList := by
    intro isOne
    exact single (parts ▸ List.mem_append_left _ isOne)
  have separate : ∀ c ∈ inner ++ List.replicate returns '\r', Token.isSeparator c = true := by
    intro c isOne
    have isReturn : c = '\r' := by
      rcases List.mem_append.mp isOne with within | added
      · exact areReturns c within
      · exact List.eq_of_mem_replicate added
    subst isReturn
    decide
  obtain ⟨start, stop, short⟩ := Token.scanFrom_line_end singleBody (List.forall_mem_nil _) 0 0
  obtain ⟨otherStart, otherStop, long⟩ := Token.scanFrom_line_end singleBody separate 0 feeds
  rw [runLine_outcome, shortened]
  apply evalLine_mapError_eq
  have scanned : (Text.dropLineEnds text ++ "\n").toList =
      (Text.dropLineEnds text).toList ++ ([] ++ List.replicate (0 + 1) '\n') := by
    rw [String.toList_append]
    rfl
  have alsoScanned : line.toList = (Text.dropLineEnds text).toList ++
      ((inner ++ List.replicate returns '\r') ++ List.replicate (feeds + 1) '\n') := by
    simp only [line, String.toList_append, String.toList_ofList, parts, List.append_assoc]
  rw [Token.scan, Token.scan, scanned, alsoScanned, short, long]
  refine List.rel_append (List.forall₂_same.mpr fun token _ => .refl _ token) ?_
  exact .cons (interchangeable_of_endsLine rfl rfl) (.cons (interchangeable_of_endsLine rfl rfl) .nil)

/-- Texts with the same tokens read the same. So do texts that differ in blanks between tokens which do not merge. How
a line ends makes no difference either, nor which of the two ways evaluates it. -/
theorem layout_never_matters :
    (∀ first second : String, (Token.scan first).map Token.content = (Token.scan second).map Token.content →
      SameReading first second) ∧
    (∀ before blanks after : String, (∀ c ∈ blanks.toList, Text.isSpace c = true ∧ c ≠ '\n') →
      ¬ Token.GoesOn (Token.scan before).dropLast before.utf8ByteSize after.toList.head? →
      SameReading (before ++ blanks ++ after) (before ++ after)) ∧
    ∀ (text : String) (returns feeds : Nat) (session : Session) (tracing : Bool), '\n' ∉ text.toList → 1 ≤ feeds →
      let line := text ++ String.ofList (List.replicate returns '\r') ++ String.ofList (List.replicate feeds '\n')
      (session.runLine tracing line).outcome.mapError LineError.message =
        (session.evalLine line).mapError LineError.message := by
  refine ⟨fun first second same => sameReading_of_content same, ?_, ?_⟩
  · intro before blanks after spaces apart
    apply sameReading_of_content
    have separate : ∀ c ∈ blanks.toList, Token.isSeparator c = true := by
      intro c isOne
      simp [Token.isSeparator, spaces c isOne]
    rw [← Text.byteLength_toList, ← Nat.zero_add (Text.byteLength _)] at apart
    have inserted := Token.map_content_insert_blanks 0 separate apart
    rwa [← List.append_assoc, ← String.toList_append, ← String.toList_append, ← String.toList_append] at inserted
  · intro text returns feeds session tracing single positive
    obtain ⟨feeds, rfl⟩ := Nat.exists_eq_add_of_le' positive
    exact session.runLine_agrees single returns feeds tracing

theorem layout_never_matters_spread :
    SameReading "f( 1\t2 )\r\n" "f(1 2)\n" ∧ SameReading ("1" ++ " \t" ++ "+ 2\n") ("1" ++ "+ 2\n") ∧
      (Session.runLine {} true "1 + )\r\r\n\n").outcome.mapError LineError.message =
        (Session.evalLine {} "1 + )\r\r\n\n").mapError LineError.message := by
  obtain ⟨sameTokens, blanks, lineEnds⟩ := layout_never_matters
  have spaces : ∀ c ∈ [' ', '\t'], Text.isSpace c = true ∧ c ≠ '\n' :=
    List.forall_mem_cons.mpr ⟨by decide, List.forall_mem_singleton.mpr (by decide)⟩
  refine ⟨sameTokens _ _ (by decide +kernel), blanks "1" " \t" "+ 2\n" spaces ?_, ?_⟩
  · have scanned : (Token.scan "1").dropLast = [⟨.integer, "1", 0, 1⟩] := by decide +kernel
    rw [scanned]
    rintro ⟨last, isLast, -, c, isNext, continues⟩
    cases isLast
    cases isNext
    exact absurd continues (by decide)
  · exact lineEnds "1 + )" 2 2 {} true (by decide) (by decide)

end LineLang
