import Mathlib.Data.String.Basic

/-! Texts in the order of their bytes.

In UTF-8 the first byte of a character says how many follow, and says so in such a way that characters of more bytes
come later. The bytes after it hold six bits each, from the top. So bytes are in the same order as characters.
-/

set_option autoImplicit false

namespace LineLang.Text

def bytes (text : String) : List UInt8 :=
  text.toUTF8.data.toList

theorem bytes_eq (text : String) : bytes text = text.toList.flatMap String.utf8EncodeChar := by
  have encoded : text.toUTF8 = text.toList.utf8Encode := by
    rw [String.toUTF8_eq_toByteArray, ← String.toByteArray_ofList, String.ofList_toList]
  rw [bytes, encoded, List.utf8Encode, List.data_toByteArray]

namespace Utf8

/-- A first byte with a mark, then as many bytes of six bits each as said. -/
def sequence (mark : Nat) : Nat → Nat → List UInt8
  | 0, code => [.ofNat (code + mark)]
  | more + 1, code => sequence mark more (code / 64) ++ [.ofNat (code % 64 + 128)]

def upper : Nat → Nat → Nat
  | 0, code => code
  | more + 1, code => upper more (code / 64)

/-- The mark of the first byte and how many bytes follow it. -/
def form (code : Nat) : Nat × Nat :=
  if code ≤ 0x7f then (0, 0)
  else if code ≤ 0x7ff then (0xc0, 1)
  else if code ≤ 0xffff then (0xe0, 2)
  else (0xf0, 3)

def lead (code : Nat) : Nat :=
  upper (form code).2 code + (form code).1

theorem toNat_val_lt (c : Char) : c.val.toNat < 0x110000 := by
  have valid := c.valid
  simp only [UInt32.isValidChar, Nat.isValidChar] at valid
  omega

theorem lead_lt {code : Nat} (bound : code < 0x110000) : lead code < 256 := by
  unfold lead form
  repeat' split
  all_goals simp only [upper]; omega

theorem form_eq_or_lead_lt {code other : Nat} (less : code < other) (bound : other < 0x110000) :
    form code = form other ∨ lead code < lead other := by
  unfold lead form
  repeat' split
  all_goals simp only [upper, true_or]
  all_goals omega

theorem utf8EncodeChar_eq (c : Char) :
    String.utf8EncodeChar c = sequence (form c.val.toNat).1 (form c.val.toNat).2 c.val.toNat := by
  have bound := toNat_val_lt c
  unfold String.utf8EncodeChar form
  generalize c.val.toNat = code at bound
  simp only
  split
  · rfl
  split
  · rw [Nat.mod_eq_of_lt (by omega : code / 64 < 32)]
    rfl
  split
  · rw [Nat.mod_eq_of_lt (by omega : code / 4096 < 16), ← Nat.div_div_eq_div_mul code 64 64]
    rfl
  · rw [Nat.mod_eq_of_lt (by omega : code / 262144 < 8), ← Nat.div_div_eq_div_mul code 4096 64,
      ← Nat.div_div_eq_div_mul code 64 64]
    rfl

theorem exists_sequence_eq_cons (mark more code : Nat) :
    ∃ rest, sequence mark more code = .ofNat (upper more code + mark) :: rest := by
  induction more generalizing code with
  | zero => exact ⟨[], rfl⟩
  | succ more ih =>
    obtain ⟨rest, shape⟩ := ih (code / 64)
    exact ⟨rest ++ [.ofNat (code % 64 + 128)], by rw [sequence, shape, upper, List.cons_append]⟩

theorem exists_utf8EncodeChar_eq_cons (c : Char) :
    ∃ rest, String.utf8EncodeChar c = .ofNat (lead c.val.toNat) :: rest := by
  rw [utf8EncodeChar_eq]
  exact exists_sequence_eq_cons _ _ _

theorem cons_lt_cons {byte other : Nat} (less : byte < other) (small : other < 256) (first second : List UInt8) :
    UInt8.ofNat byte :: first < UInt8.ofNat other :: second := by
  refine List.cons_lt_cons_iff.mpr (.inl (UInt8.lt_iff_toNat_lt.mpr ?_))
  rw [UInt8.toNat_ofNat', UInt8.toNat_ofNat']
  omega

theorem sequence_append_lt {mark more code other : Nat} (less : code < other)
    (small : upper more other + mark < 256) (first second : List UInt8) :
    sequence mark more code ++ first < sequence mark more other ++ second := by
  induction more generalizing code other first second with
  | zero => exact cons_lt_cons (Nat.add_lt_add_right less mark) small first second
  | succ more ih =>
    rw [sequence, sequence, List.append_assoc, List.append_assoc]
    rcases Nat.lt_or_eq_of_le (Nat.div_le_div_right (c := 64) (Nat.le_of_lt less)) with higher | same
    · exact ih higher small _ _
    · rw [same]
      exact List.append_left_lt (cons_lt_cons (by omega) (by omega) first second)

theorem utf8EncodeChar_append_lt {c d : Char} (less : c < d) (first second : List UInt8) :
    String.utf8EncodeChar c ++ first < String.utf8EncodeChar d ++ second := by
  have less : c.val.toNat < d.val.toNat := less
  have bound := toNat_val_lt d
  rcases form_eq_or_lead_lt less bound with same | leads
  · rw [utf8EncodeChar_eq, utf8EncodeChar_eq, same]
    exact sequence_append_lt less (lead_lt bound) first second
  · obtain ⟨rest, shape⟩ := exists_utf8EncodeChar_eq_cons c
    obtain ⟨others, alsoShape⟩ := exists_utf8EncodeChar_eq_cons d
    rw [shape, alsoShape]
    exact cons_lt_cons leads (lead_lt bound) _ _

end Utf8

/-- Texts in the order of their characters are in the order of their bytes. -/
theorem bytes_lt {text other : String} (less : text < other) : bytes text < bytes other := by
  have less := String.lt_iff_toList_lt.mp less
  rw [bytes_eq, bytes_eq]
  generalize text.toList = chars at less
  generalize other.toList = others at less
  induction less with
  | @nil d rest =>
    obtain ⟨more, shape⟩ := Utf8.exists_utf8EncodeChar_eq_cons d
    rw [List.flatMap_nil, List.flatMap_cons, shape]
    exact List.nil_lt_cons _ _
  | rel less =>
    rw [List.flatMap_cons, List.flatMap_cons]
    exact Utf8.utf8EncodeChar_append_lt less _ _
  | cons _ ih =>
    rw [List.flatMap_cons, List.flatMap_cons]
    exact List.append_left_lt ih

end LineLang.Text
