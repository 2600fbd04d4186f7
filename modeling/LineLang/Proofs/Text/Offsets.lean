import Mathlib.Data.String.Basic
import LineLang.Text.Bytes

/-! Byte offsets in a text.

An offset counts the bytes of the characters before it. Such an offset stands between two characters, the one
after it is the next to read, and two of them cut out the characters between them.
-/

set_option autoImplicit false

namespace LineLang.Text

theorem byteLength_eq_utf8Len (chars : List Char) : byteLength chars = String.utf8Len chars := by
  induction chars with
  | nil => rfl
  | cons c rest ih => rw [byteLength_cons, ih, String.utf8Len_cons, Nat.add_comm]

theorem byteLength_toList (text : String) : byteLength text.toList = text.utf8ByteSize := by
  rw [byteLength_eq_utf8Len, String.utf8Len_toList]

/-- The offset stands between two characters, or at an end. -/
def IsBoundary (text : String) (offset : Nat) : Prop :=
  String.Pos.Raw.IsValid text ⟨offset⟩

def charAt? (text : String) (offset : Nat) : Option Char :=
  String.Pos.Raw.get? text ⟨offset⟩

def slice (text : String) (start stop : Nat) : String :=
  String.Pos.Raw.extract text ⟨start⟩ ⟨stop⟩

variable {text : String} {before middle rest : List Char}

theorem isBoundary_of_append (parts : text.toList = before ++ rest) : IsBoundary text (byteLength before) := by
  refine String.Pos.Raw.isValid_iff_exists_append.mpr ⟨.ofList before, .ofList rest, ?_, ?_⟩
  · rw [← String.ofList_append, ← parts, String.ofList_toList]
  · rw [String.rawEndPos_ofList, byteLength_eq_utf8Len]

theorem charAt?_of_append (parts : text.toList = before ++ rest) :
    charAt? text (byteLength before) = rest.head? := by
  have found := String.get?_of_valid before rest
  rwa [← parts, String.ofList_toList, ← byteLength_eq_utf8Len] at found

theorem slice_of_append (parts : text.toList = before ++ (middle ++ rest)) :
    slice text (byteLength before) (byteLength (before ++ middle)) = String.ofList middle := by
  have cut := String.extract_of_valid before middle rest
  rwa [List.append_assoc, ← parts, String.ofList_toList, ← byteLength_eq_utf8Len, ← byteLength_eq_utf8Len,
    ← byteLength_append] at cut

end LineLang.Text
