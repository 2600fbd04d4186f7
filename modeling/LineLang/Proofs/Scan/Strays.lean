import LineLang.Proofs.Scan
import LineLang.Proofs.Scan.Composition

/-! The characters that no token holds.

A character outside the language is stray wherever it stands. An underscore only goes on with a name, so it is stray
where no name has begun: between it and the start of the name characters it stands among, there is no letter.

A scan takes a run of name characters apart from the left, into integers and strays, until the first letter begins a
name that takes the rest. Before every token that starts with a name character no letter of its run has been passed.
This is what the scan keeps up, and so its invalid tokens are the strays.
-/

set_option autoImplicit false

namespace LineLang.Token

def signs : List Char :=
  ['/', '*', '%', '-', '+', '=', '(', ')', '?', ':', '|']

/-- No token holds the character, and it does not separate tokens either. -/
def isForeign (c : Char) : Bool :=
  !(Text.isSpace c || Text.isLetter c || c.isDigit || c == '_' || signs.contains c)

/-- The name characters at the end, back to the nearest other character, hold no letter. -/
def isUnnamed (before : List Char) : Bool :=
  (before.reverse.takeWhile isNameChar).all fun d => !Text.isLetter d

/-- Where these characters stand before it, the character belongs to no token. -/
def isStray (before : List Char) (c : Char) : Bool :=
  isForeign c || c == '_' && isUnnamed before

/-- The character that begins at the offset is stray. -/
def StrayAt (text : String) (offset : Nat) (c : Char) : Prop :=
  ∃ before after, text.toList = before ++ c :: after ∧ Text.byteLength before = offset ∧ isStray before c = true

theorem Kind.mem_signs_of_ofSign? {c : Char} {kind : Kind} (isSign : ofSign? c = some kind) : c ∈ signs := by
  unfold ofSign? at isSign
  split at isSign <;> simp_all [signs]

theorem of_mem_signs {c : Char} (isSign : c ∈ signs) :
    Text.isLetter c = false ∧ isForeign c = false ∧ c ≠ '_' ∧ Kind.ofFirst c ≠ .invalid := by
  have each : (signs.all fun c => decide
      (Text.isLetter c = false ∧ isForeign c = false ∧ c ≠ '_' ∧ Kind.ofFirst c ≠ .invalid)) = true := by decide
  exact of_decide_eq_true (List.all_eq_true.mp each c isSign)

section Unnamed

variable {before run : List Char}

theorem isUnnamed_concat (before : List Char) (c : Char) :
    isUnnamed (before ++ [c]) = (!isNameChar c || !Text.isLetter c && isUnnamed before) := by
  rw [isUnnamed, List.reverse_append, List.reverse_singleton, List.singleton_append, List.takeWhile_cons]
  cases isNameChar c <;> simp [isUnnamed]

theorem isUnnamed_append (unnamed : isUnnamed before = true) (noLetter : ∀ d ∈ run, Text.isLetter d = false) :
    isUnnamed (before ++ run) = true := by
  induction run generalizing before with
  | nil => simpa using unnamed
  | cons d run ih =>
    obtain ⟨first, others⟩ := List.forall_mem_cons.mp noLetter
    rw [List.append_cons]
    refine ih ?_ others
    simp [isUnnamed_concat, first, unnamed]

theorem not_isUnnamed_append (named : isUnnamed before = false) (goOn : ∀ d ∈ run, isNameChar d = true) :
    isUnnamed (before ++ run) = false := by
  induction run generalizing before with
  | nil => simpa using named
  | cons d run ih =>
    obtain ⟨first, others⟩ := List.forall_mem_cons.mp goOn
    rw [List.append_cons]
    refine ih ?_ others
    simp [isUnnamed_concat, first, named]

end Unnamed

/-- The tokens of the strays among the characters that come after `before`. -/
def strays (before : List Char) : List Char → List Token
  | [] => []
  | c :: rest =>
    if isStray before c then ofChars .invalid [c] (Text.byteLength before) :: strays (before ++ [c]) rest
    else strays (before ++ [c]) rest

theorem strays_append (before first second : List Char) :
    strays before (first ++ second) = strays before first ++ strays (before ++ first) second := by
  induction first generalizing before with
  | nil => simp [strays]
  | cons c first ih =>
    rw [List.cons_append, strays, strays, ih, ← List.append_cons]
    split <;> rfl

theorem mem_strays {before chars : List Char} {token : Token} :
    token ∈ strays before chars ↔ ∃ passed c after, chars = passed ++ c :: after ∧
      isStray (before ++ passed) c = true ∧ token = ofChars .invalid [c] (Text.byteLength (before ++ passed)) := by
  induction chars generalizing before with
  | nil => simp [strays]
  | cons c rest ih =>
    have split : token ∈ strays before (c :: rest) ↔
        isStray before c = true ∧ token = ofChars .invalid [c] (Text.byteLength before) ∨
          token ∈ strays (before ++ [c]) rest := by
      rw [strays]
      split <;> simp [*]
    rw [split, ih]
    constructor
    · rintro (⟨stray, same⟩ | ⟨passed, d, after, rfl, stray, same⟩)
      · exact ⟨[], c, rest, rfl, by simpa using stray, by simpa using same⟩
      · exact ⟨c :: passed, d, after, rfl, by simpa using stray, by simpa using same⟩
    · rintro ⟨passed, d, after, parts, stray, same⟩
      cases passed with
      | nil =>
        cases parts
        exact .inl ⟨by simpa using stray, by simpa using same⟩
      | cons e passed =>
        cases parts
        exact .inr ⟨passed, d, after, rfl, by simpa using stray, by simpa using same⟩

theorem pairwise_strays (before chars : List Char) :
    (strays before chars).Pairwise fun token later => token.start < later.start := by
  induction chars generalizing before with
  | nil => exact .nil
  | cons c rest ih =>
    rw [strays]
    split
    · refine List.pairwise_cons.mpr ⟨?_, ih _⟩
      intro later isLater
      obtain ⟨passed, d, after, -, -, rfl⟩ := mem_strays.mp isLater
      have positive := c.utf8Size_pos
      simp only [ofChars, Text.byteLength_append, Text.byteLength_cons]
      omega
    · exact ih _

theorem strays_eq_nil {before chars : List Char}
    (none : ∀ passed c after, chars = passed ++ c :: after → isStray (before ++ passed) c = false) :
    strays before chars = [] := by
  refine List.eq_nil_iff_forall_not_mem.mpr fun token isOne => ?_
  obtain ⟨passed, c, after, parts, stray, -⟩ := mem_strays.mp isOne
  rw [none passed c after parts] at stray
  cases stray

def Common (c : Char) : Prop :=
  c.isDigit = true ∨ c = '\n' ∨ c ∈ signs

theorem Common.ordinary {c : Char} (common : Common c) :
    Text.isLetter c = false ∧ ∀ before, isStray before c = false := by
  rcases common with digit | rfl | isSign
  · have noLetter : Text.isLetter c = false := by
      rw [Bool.eq_false_iff]
      intro letter
      rw [Text.not_isDigit_of_isLetter letter] at digit
      cases digit
    have noUnderscore : c ≠ '_' := by
      rintro rfl
      exact absurd digit (by decide)
    exact ⟨noLetter, fun before => by simp [isStray, isForeign, digit, noUnderscore]⟩
  · exact ⟨by decide, fun before => rfl⟩
  · obtain ⟨noLetter, known, noUnderscore, -⟩ := of_mem_signs isSign
    exact ⟨noLetter, fun before => by simp [isStray, known, noUnderscore]⟩

namespace Kind

theorem ofFirst_eq_invalid_iff {c : Char} : ofFirst c = .invalid ↔ Text.isLetter c = false ∧ ¬ Common c := by
  constructor
  · intro invalid
    constructor
    · rw [Bool.eq_false_iff]
      intro letter
      rw [ofFirst_of_isLetter letter] at invalid
      cases invalid
    · rintro (digit | rfl | isSign)
      · rw [ofFirst_of_isDigit digit] at invalid
        cases invalid
      · cases invalid
      · exact (of_mem_signs isSign).2.2.2 invalid
  · rintro ⟨noLetter, uncommon⟩
    simp only [Common, not_or] at uncommon
    have noSign : ofSign? c = none :=
      Option.eq_none_iff_forall_ne_some.mpr fun kind isSign => uncommon.2.2 (mem_signs_of_ofSign? isSign)
    simp [ofFirst, uncommon, noLetter, noSign]

theorem isForeign_of_ofFirst {c : Char} (visible : isSeparator c ≠ true) (invalid : ofFirst c = .invalid)
    (other : c ≠ '_') : isForeign c = true := by
  obtain ⟨noLetter, uncommon⟩ := ofFirst_eq_invalid_iff.mp invalid
  simp only [Common, not_or] at uncommon
  have noSpace : Text.isSpace c = false := by simpa [isSeparator, uncommon.2.1] using visible
  simp [isForeign, noSpace, noLetter, other, uncommon]

theorem common_of_continuesWith {kind : Kind} {d : Char} (other : kind ≠ .name)
    (continues : kind.continuesWith d = true) : Common d := by
  rcases continuesWith_iff.mp continues with ⟨-, digit⟩ | ⟨isName, -⟩ | ⟨-, feed⟩
  · exact .inl digit
  · exact absurd isName other
  · exact .inr (.inl feed)

end Kind

theorem not_isForeign_of_isNameChar {c : Char} (isOne : isNameChar c = true) : isForeign c = false := by
  simp only [isNameChar, Bool.or_eq_true] at isOne
  rcases isOne with (letter | digit) | underscore
  · simp [isForeign, letter]
  · simp [isForeign, digit]
  · simp [isForeign, underscore]

/-- Where a scan stands between two tokens, the characters that follow do not go on with a name. -/
def Between (before chars : List Char) : Prop :=
  ∀ c ∈ chars.head?, isNameChar c = true → isUnnamed before = true

section Step

variable {before taken rest : List Char} {c : Char} (between : Between before (c :: taken))
  (goOn : ∀ d ∈ taken, (Kind.ofFirst c).continuesWith d = true)

include goOn in
theorem strays_name (letter : Text.isLetter c = true) : strays before (c :: taken) = [] := by
  rw [Kind.ofFirst_of_isLetter letter] at goOn
  have isOne : isNameChar c = true := by simp [isNameChar, letter]
  apply strays_eq_nil
  intro passed d after parts
  cases passed with
  | nil =>
    cases parts
    have noUnderscore : c ≠ '_' := by
      rintro rfl
      exact absurd letter (by decide)
    simp [isStray, not_isForeign_of_isNameChar isOne, noUnderscore]
  | cons e passed =>
    -- An underscore may stand here, but the letter is in its run.
    cases parts
    obtain ⟨passedOn, goesOn, -⟩ := List.forall_mem_append.mp goOn |>.imp_right List.forall_mem_cons.mp
    have named : isUnnamed (before ++ [c]) = false := by simp [isUnnamed_concat, isOne, letter]
    rw [List.append_cons, isStray, not_isForeign_of_isNameChar goesOn, not_isUnnamed_append named passedOn,
      Bool.and_false]
    rfl

include between goOn in
theorem strays_token (visible : isSeparator c ≠ true) :
    strays before (c :: taken) =
      [ofChars (Kind.ofFirst c) (c :: taken) (Text.byteLength before)].filter (·.kind = .invalid) := by
  by_cases letter : Text.isLetter c = true
  · rw [strays_name goOn letter, Kind.ofFirst_of_isLetter letter]
    rfl
  by_cases invalid : Kind.ofFirst c = .invalid
  · -- Invalid tokens are single characters, and this one is an underscore only if it goes on with no name.
    have single : taken = [] := by
      refine List.eq_nil_iff_forall_not_mem.mpr fun d isTaken => ?_
      have continues := goOn d isTaken
      rw [invalid] at continues
      cases continues
    have stray : isStray before c = true := by
      by_cases underscore : c = '_'
      · subst underscore
        simp [isStray, between '_' rfl rfl]
      · simp [isStray, Kind.isForeign_of_ofFirst visible invalid underscore]
    rw [single, strays, if_pos stray, invalid]
    rfl
  · have notName : Kind.ofFirst c ≠ .name := fun isName => letter ((Kind.first_of_ofFirst c).2 isName)
    have first : Common c := by
      by_contra uncommon
      exact invalid (Kind.ofFirst_eq_invalid_iff.mpr ⟨by simpa using letter, uncommon⟩)
    have each : ∀ d ∈ c :: taken, Common d :=
      List.forall_mem_cons.mpr ⟨first, fun d isTaken => Kind.common_of_continuesWith notName (goOn d isTaken)⟩
    have none : strays before (c :: taken) = [] := by
      apply strays_eq_nil
      intro passed d after parts
      exact (each d (by simp [parts])).ordinary.2 _
    rw [none, List.filter_cons_of_neg (by simpa [ofChars] using invalid), List.filter_nil]

include between goOn in
theorem Between.after (stops : ∀ d ∈ rest.head?, (Kind.ofFirst c).continuesWith d = false) :
    Between (before ++ c :: taken) rest := by
  intro d isNext isOne
  by_cases letter : Text.isLetter c = true
  · -- A name takes every name character, so none follows it.
    have stopped := stops d isNext
    rw [Kind.ofFirst_of_isLetter letter] at stopped
    exact absurd (stopped.symm.trans isOne) (by decide)
  · -- All other tokens leave a run of name characters without a letter as it is, or end it.
    have notName : Kind.ofFirst c ≠ .name := fun isName => letter ((Kind.first_of_ofFirst c).2 isName)
    have unnamed : isUnnamed (before ++ [c]) = true := by
      rw [isUnnamed_concat]
      cases named : isNameChar c with
      | true => simp [between c rfl named, letter]
      | false => rfl
    rw [List.append_cons]
    refine isUnnamed_append unnamed fun e isTaken => ?_
    exact (Kind.common_of_continuesWith notName (goOn e isTaken)).ordinary.1

end Step

theorem filter_scanFrom (start : Nat) (chars : List Char) :
    ∀ before, start = Text.byteLength before → Between before chars →
      (scanFrom start chars).filter (·.kind = .invalid) = strays before chars := by
  fun_induction scanFrom start chars with
  | case1 start =>
    intro before reached between
    rfl
  | case2 start c rest separates ih =>
    intro before reached between
    have space : Text.isSpace c = true := (Bool.and_eq_true_iff.mp separates).1
    have noUnderscore : c ≠ '_' := by
      rintro rfl
      exact absurd space (by decide)
    have ordinary : isStray before c = false := by simp [isStray, isForeign, space, noUnderscore]
    rw [strays, if_neg (by simp [ordinary])]
    apply ih (before ++ [c])
    · simp [reached]
    · intro d isNext isOne
      simp [isUnnamed_concat, not_isNameChar_of_isSeparator separates]
  | case3 start c rest visible kind token ih =>
    intro before reached between
    have goOn : ∀ d ∈ rest.takeWhile kind.continuesWith, kind.continuesWith d = true :=
      fun d isTaken => List.mem_takeWhile_imp isTaken
    have stops : ∀ d ∈ (rest.dropWhile kind.continuesWith).head?, kind.continuesWith d = false := by
      intro d isNext
      have stopped := List.head?_dropWhile_not kind.continuesWith rest
      rwa [isNext] at stopped
    have parts : c :: rest = (c :: rest.takeWhile kind.continuesWith) ++ rest.dropWhile kind.continuesWith := by simp
    have stop : token.stop = Text.byteLength (before ++ c :: rest.takeWhile kind.continuesWith) := by
      rw [Text.byteLength_append, ← reached]
      rfl
    -- Whether a scan stands between tokens is a matter of the next character only.
    have here : Between before (c :: rest.takeWhile kind.continuesWith) := between
    rw [parts, strays_append, strays_token here goOn visible, ← ih _ stop (here.after goOn stops), ← reached,
      ← List.filter_append]
    rfl

def ofStray (offset : Nat) (c : Char) : Token :=
  ⟨.invalid, String.singleton c, offset, offset + c.utf8Size⟩

theorem ofChars_invalid (c : Char) (offset : Nat) : ofChars .invalid [c] offset = ofStray offset c := by
  rw [ofChars, ofStray, Text.byteLength_cons, Text.byteLength_nil, Nat.add_zero]
  rfl

theorem filter_scan (text : String) : (scan text).filter (·.kind = .invalid) = strays [] text.toList :=
  filter_scanFrom 0 text.toList [] rfl fun _ _ _ => rfl

theorem mem_strays_text {text : String} {token : Token} :
    token ∈ strays [] text.toList ↔ ∃ offset c, StrayAt text offset c ∧ token = ofStray offset c := by
  rw [mem_strays]
  constructor
  · rintro ⟨before, c, after, parts, stray, rfl⟩
    exact ⟨_, c, ⟨before, after, parts, rfl, stray⟩, ofChars_invalid c _⟩
  · rintro ⟨_, c, ⟨before, after, parts, rfl, stray⟩, rfl⟩
    exact ⟨before, c, after, parts, stray, (ofChars_invalid c _).symm⟩

theorem tokenize_eq_error {text : String} {stray : Stray} :
    tokenize text = .error stray ↔
      ∃ first later, strays [] text.toList = first :: later ∧ stray = ⟨first.text, first.start⟩ := by
  simp only [tokenize, ← List.head?_filter, filter_scan]
  cases strays [] text.toList with
  | nil => simp
  | cons first later =>
    simp only [List.head?_cons, Except.error.injEq, List.cons.injEq]
    constructor
    · rintro rfl
      exact ⟨first, later, ⟨rfl, rfl⟩, rfl⟩
    · rintro ⟨_, _, ⟨rfl, rfl⟩, rfl⟩
      rfl

theorem strays_eq_cons_iff {text : String} {token : Token} :
    (∃ later, strays [] text.toList = token :: later) ↔
      token ∈ strays [] text.toList ∧ ∀ offset c, StrayAt text offset c → token.start ≤ offset := by
  have ordered := pairwise_strays [] text.toList
  constructor
  · rintro ⟨later, same⟩
    rw [same] at ordered
    refine ⟨same ▸ List.mem_cons_self, fun offset c strayAt => ?_⟩
    have isOne : ofStray offset c ∈ token :: later := same ▸ mem_strays_text.mpr ⟨offset, c, strayAt, rfl⟩
    rcases List.mem_cons.mp isOne with rfl | isLater
    · exact Nat.le_refl _
    · exact Nat.le_of_lt ((List.pairwise_cons.mp ordered).1 _ isLater)
  · rintro ⟨isOne, least⟩
    cases same : strays [] text.toList with
    | nil =>
      rw [same] at isOne
      cases isOne
    | cons first later =>
      rw [same] at isOne ordered
      have isFirst : first ∈ strays [] text.toList := same ▸ List.mem_cons_self
      rcases List.mem_cons.mp isOne with rfl | isLater
      · exact ⟨later, rfl⟩
      · obtain ⟨offset, c, strayAt, rfl⟩ := mem_strays_text.mp isFirst
        have before := (List.pairwise_cons.mp ordered).1 _ isLater
        exact absurd (least offset c strayAt) (Nat.not_le.mpr before)

/-- A text is refused exactly if some character of it is stray, and for the first of them. The invalid tokens of its
scan are its strays, each once and in order. -/
theorem tokenize_refuses_strays (text : String) :
    ((∃ stray, tokenize text = .error stray) ↔ ∃ offset c, StrayAt text offset c) ∧
    (∀ stray, tokenize text = .error stray ↔
      ∃ offset c, StrayAt text offset c ∧ (∀ other d, StrayAt text other d → offset ≤ other) ∧
        stray = ⟨String.singleton c, offset⟩) ∧
    (∀ token, token ∈ scan text ∧ token.kind = .invalid ↔
      ∃ offset c, StrayAt text offset c ∧ token = ⟨.invalid, String.singleton c, offset, offset + c.utf8Size⟩) ∧
    ((scan text).filter (·.kind = .invalid)).Pairwise fun token later => token.start < later.start := by
  refine ⟨?_, ?_, ?_, ?_⟩
  · constructor
    · rintro ⟨stray, fails⟩
      obtain ⟨first, later, same, -⟩ := tokenize_eq_error.mp fails
      have isFirst : first ∈ strays [] text.toList := same ▸ List.mem_cons_self
      obtain ⟨offset, c, strayAt, -⟩ := mem_strays_text.mp isFirst
      exact ⟨offset, c, strayAt⟩
    · rintro ⟨offset, c, strayAt⟩
      have isOne := mem_strays_text.mpr ⟨offset, c, strayAt, rfl⟩
      obtain ⟨first, later, same⟩ := List.exists_cons_of_ne_nil (List.ne_nil_of_mem isOne)
      exact ⟨_, tokenize_eq_error.mpr ⟨first, later, same, rfl⟩⟩
  · intro stray
    rw [tokenize_eq_error]
    constructor
    · rintro ⟨first, later, same, rfl⟩
      obtain ⟨isOne, least⟩ := strays_eq_cons_iff.mp ⟨later, same⟩
      obtain ⟨offset, c, strayAt, rfl⟩ := mem_strays_text.mp isOne
      exact ⟨offset, c, strayAt, least, rfl⟩
    · rintro ⟨offset, c, strayAt, least, rfl⟩
      obtain ⟨later, same⟩ := strays_eq_cons_iff.mpr ⟨mem_strays_text.mpr ⟨offset, c, strayAt, rfl⟩, least⟩
      exact ⟨_, later, same, rfl⟩
  · intro token
    have isOne := @mem_strays_text text token
    rw [← filter_scan, List.mem_filter, decide_eq_true_eq] at isOne
    exact isOne
  · rw [filter_scan]
    exact pairwise_strays [] text.toList

end LineLang.Token
