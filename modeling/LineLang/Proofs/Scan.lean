import LineLang.Token.Scan
import LineLang.Proofs.Parse.Spelling

/-! How characters are cut into tokens, wherever the tokens stand.

A word or a numeral is one token if what follows cannot go on with it. Conversely every name that is found is a
word, and every integer is made of digits.
-/

set_option autoImplicit false

namespace LineLang

namespace Text

theorem isDigit_iff {c : Char} : c.isDigit = true ↔ 48 ≤ c.toNat ∧ c.toNat ≤ 57 := by
  unfold Char.isDigit
  simp [UInt32.le_iff_toNat_le, ← Char.toNat_val]

theorem isAlpha_iff {c : Char} :
    c.isAlpha = true ↔ 65 ≤ c.toNat ∧ c.toNat ≤ 90 ∨ 97 ≤ c.toNat ∧ c.toNat ≤ 122 := by
  unfold Char.isAlpha Char.isUpper Char.isLower
  simp [UInt32.le_iff_toNat_le, ← Char.toNat_val]

theorem not_isDigit_of_isLetter {c : Char} (letter : isLetter c = true) : c.isDigit = false := by
  rw [Bool.eq_false_iff]
  intro digit
  rw [isDigit_iff] at digit
  rw [isLetter, if_pos (by omega), isAlpha_iff] at letter
  omega

theorem not_isSpace_of_isDigit {c : Char} (digit : c.isDigit = true) : isSpace c = false := by
  obtain ⟨lower, upper⟩ := isDigit_iff.mp digit
  have ascii : inRuns [(48, 57)] c = true := by simp [inRuns, lower, upper]
  exact not_inRuns_of_apart (by decide) ascii

end Text

namespace Token

/-- A letter, then letters, digits and underscores. -/
def isWord (text : String) : Bool :=
  match text.toList with
  | [] => false
  | first :: rest => Text.isLetter first && rest.all isNameChar

/-- The characters do not go on with a word or a numeral that stands before them. -/
def delimits : List Char → Bool
  | [] => true
  | c :: _ => !isNameChar c

/-- The tokens of the characters without their places. -/
def spell (chars : List Char) : List Token :=
  (scanFrom 0 chars).map bare

theorem map_bare_scanFrom (start other : Nat) (chars : List Char) :
    (scanFrom start chars).map bare = (scanFrom other chars).map bare := by
  fun_induction scanFrom start chars generalizing other with
  | case1 => simp [scanFrom, bare]
  | case2 start c rest separates ih =>
    rw [scanFrom, if_pos separates]
    exact ih _
  | case3 start c rest visible kind token ih =>
    rw [scanFrom, if_neg visible, List.map_cons, List.map_cons]
    exact congrArg _ (ih _)

theorem spell_nil : spell [] = [⟨.endOfInput, "", 0, 0⟩] := by
  simp [spell, scanFrom, bare]

theorem spell_separator {c : Char} (separates : isSeparator c = true) (rest : List Char) :
    spell (c :: rest) = spell rest := by
  rw [spell, scanFrom, if_pos separates]
  exact map_bare_scanFrom _ _ _

theorem spell_run {c : Char} {others rest : List Char} (visible : isSeparator c = false)
    (goOn : ∀ d ∈ others, (Kind.ofFirst c).continuesWith d = true)
    (stops : ∀ d, rest.head? = some d → (Kind.ofFirst c).continuesWith d = false) :
    spell (c :: (others ++ rest)) = (ofChars (Kind.ofFirst c) (c :: others) 0).bare :: spell rest := by
  have taken : rest.takeWhile (Kind.ofFirst c).continuesWith = [] ∧
      rest.dropWhile (Kind.ofFirst c).continuesWith = rest := by
    cases rest with
    | nil => exact ⟨rfl, rfl⟩
    | cons d rest => simp [stops d rfl]
  -- The rest starts elsewhere in the text, but what it is cut into does not depend on that.
  rw [spell, scanFrom, if_neg (by simp [visible])]
  simp only [List.takeWhile_append_of_pos goOn, List.dropWhile_append_of_pos goOn, taken, List.append_nil,
    List.map_cons]
  exact congrArg _ (map_bare_scanFrom _ _ _)

theorem not_isNameChar_of_delimits {rest : List Char} (ends : delimits rest = true) {d : Char}
    (first : rest.head? = some d) : isNameChar d = false := by
  cases rest with
  | nil => cases first
  | cons c rest =>
    cases first
    simpa [delimits] using ends

theorem not_isSeparator_of_not_isSpace {c : Char} (visible : Text.isSpace c = false) : isSeparator c = false := by
  simp [isSeparator, visible]

theorem Kind.ofFirst_of_isLetter {c : Char} (letter : Text.isLetter c = true) : ofFirst c = .name := by
  have visible := Text.not_isSpace_of_isLetter letter
  have noLine : c ≠ '\n' := by
    rintro rfl
    exact absurd visible (by decide)
  simp [ofFirst, noLine, Text.not_isDigit_of_isLetter letter, letter]

theorem Kind.ofFirst_of_isDigit {c : Char} (digit : c.isDigit = true) : ofFirst c = .integer := by
  have noLine : c ≠ '\n' := by
    rintro rfl
    exact absurd digit (by decide)
  simp [ofFirst, noLine, digit]

theorem spell_word {word : String} (isOne : isWord word = true) {rest : List Char} (ends : delimits rest = true) :
    spell (word.toList ++ rest) = ⟨.name, word, 0, 0⟩ :: spell rest := by
  unfold isWord at isOne
  split at isOne
  · cases isOne
  next first others chars =>
    obtain ⟨letter, goOn⟩ := Bool.and_eq_true_iff.mp isOne
    have kind := Kind.ofFirst_of_isLetter letter
    rw [chars, List.cons_append, spell_run]
    · simp [ofChars, bare, kind, ← chars]
    · exact not_isSeparator_of_not_isSpace (Text.not_isSpace_of_isLetter letter)
    · rw [kind]
      exact List.all_eq_true.mp goOn
    · rw [kind]
      exact fun d first => not_isNameChar_of_delimits ends first

theorem spell_digits {digits : List Char} (nonempty : digits ≠ []) (all : ∀ c ∈ digits, c.isDigit = true)
    {rest : List Char} (ends : delimits rest = true) :
    spell (digits ++ rest) = ⟨.integer, String.ofList digits, 0, 0⟩ :: spell rest := by
  obtain ⟨first, others, rfl⟩ := List.exists_cons_of_ne_nil nonempty
  have digit := all first List.mem_cons_self
  have kind := Kind.ofFirst_of_isDigit digit
  rw [List.cons_append, spell_run]
  · simp [ofChars, bare, kind]
  · exact not_isSeparator_of_not_isSpace (Text.not_isSpace_of_isDigit digit)
  · rw [kind]
    exact fun d isOther => all d (List.mem_cons_of_mem _ isOther)
  · rw [kind]
    intro d first
    have noName := not_isNameChar_of_delimits ends first
    simp only [isNameChar, Bool.or_eq_false_iff] at noName
    exact noName.1.2

def ofSign (c : Char) : Token :=
  ⟨(Kind.ofSign? c).getD .invalid, String.singleton c, 0, 0⟩

theorem spell_sign {c : Char} (isSign : (Kind.ofSign? c).isSome = true) (rest : List Char) :
    spell (c :: rest) = ofSign c :: spell rest := by
  have alone : isSeparator c = false ∧ Kind.ofFirst c = (Kind.ofSign? c).getD .invalid ∧
      Kind.ofFirst c ≠ .newLine ∧ ∀ d, (Kind.ofFirst c).continuesWith d = false := by
    unfold Kind.ofSign? at isSign
    split at isSign <;> first | exact ⟨by decide, by decide, by decide, fun _ => rfl⟩ | cases isSign
  obtain ⟨visible, kind, noLine, stops⟩ := alone
  have run := @spell_run c [] rest visible nofun fun d _ => stops d
  rw [List.nil_append] at run
  rw [run, ofSign, ← kind]
  simp [ofChars, bare, noLine]

theorem spell_newLine : spell ['\n'] = [⟨.newLine, "", 0, 0⟩, ⟨.endOfInput, "", 0, 0⟩] := by
  have run := @spell_run '\n' [] [] (by decide) nofun nofun
  rw [List.append_nil] at run
  rw [run, spell_nil]
  rfl

theorem Kind.first_of_ofFirst (c : Char) :
    (ofFirst c = .integer → c.isDigit = true) ∧ (ofFirst c = .name → Text.isLetter c = true) := by
  by_cases digit : c.isDigit = true
  · rw [ofFirst_of_isDigit digit]
    exact ⟨fun _ => digit, nofun⟩
  by_cases letter : Text.isLetter c = true
  · rw [ofFirst_of_isLetter letter]
    exact ⟨nofun, fun _ => letter⟩
  have other : ofFirst c ≠ .integer ∧ ofFirst c ≠ .name := by
    unfold ofFirst ofSign?
    split
    · exact ⟨nofun, nofun⟩
    · split <;> exact ⟨nofun, nofun⟩
  exact ⟨fun isInteger => absurd isInteger other.1, fun isName => absurd isName other.2⟩

/-- An integer is made of digits, and a name is a word. -/
def Lexical (token : Token) : Prop :=
  (token.kind = .integer → ∀ c ∈ token.text.toList, c.isDigit = true) ∧
    (token.kind = .name → isWord token.text = true)

theorem lexical_scanFrom (start : Nat) (chars : List Char) : ∀ token ∈ scanFrom start chars, token.Lexical := by
  fun_induction scanFrom start chars with
  | case1 => simp [Lexical]
  | case2 start c rest separates ih => exact ih
  | case3 start c rest visible kind token ih =>
    refine List.forall_mem_cons.mpr ⟨⟨?_, ?_⟩, ih⟩
    · intro isInteger
      have isInteger : kind = .integer := isInteger
      have digit := (Kind.first_of_ofFirst c).1 isInteger
      have goOn : ∀ d ∈ rest.takeWhile kind.continuesWith, d.isDigit = true := by
        intro d taken
        have continues := List.all_eq_true.mp List.all_takeWhile d taken
        rwa [isInteger] at continues
      simpa [token, ofChars, isInteger, digit] using goOn
    · intro isName
      have isName : kind = .name := isName
      have letter := (Kind.first_of_ofFirst c).2 isName
      have goOn : (rest.takeWhile kind.continuesWith).all isNameChar = true := by
        have continues := @List.all_takeWhile _ kind.continuesWith rest
        rwa [isName] at continues ⊢
      simpa [token, ofChars, isName, isWord, letter] using goOn

theorem isWord_iff_scan (word : String) :
    isWord word = true ↔ (scan word).map bare = [⟨.name, word, 0, 0⟩, ⟨.endOfInput, "", 0, 0⟩] := by
  constructor
  · intro isOne
    have spelled := spell_word isOne (by rfl : delimits [] = true)
    rwa [List.append_nil, spell_nil] at spelled
  · intro single
    have isOne : (⟨.name, word, 0, 0⟩ : Token) ∈ (scan word).map bare := by simp [single]
    obtain ⟨token, scanned, same⟩ := List.mem_map.mp isOne
    have kind : token.kind = .name := congrArg Token.kind same
    have text : token.text = word := congrArg Token.text same
    rw [← text]
    exact (lexical_scanFrom 0 word.toList token scanned).2 kind

theorem tokenize_eq_ok {text : String} {tokens : List Token} :
    tokenize text = .ok tokens ↔ (∀ token ∈ scan text, token.kind ≠ .invalid) ∧ scan text = tokens := by
  cases found : (scan text).find? (·.kind = .invalid) with
  | some token =>
    have invalid : token.kind = .invalid := by simpa using List.find?_some found
    simp only [tokenize, found, reduceCtorEq, false_iff]
    rintro ⟨valid, -⟩
    exact valid token (List.mem_of_find?_eq_some found) invalid
  | none =>
    have valid : ∀ token ∈ scan text, token.kind ≠ .invalid := by simpa using found
    simp only [tokenize, found, Except.ok.injEq]
    exact ⟨fun same => ⟨valid, same⟩, fun both => both.2⟩

end Token

end LineLang
