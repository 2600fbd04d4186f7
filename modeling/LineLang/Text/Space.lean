import LineLang.Text.Runs

/-! White space. -/

set_option autoImplicit false

namespace LineLang.Text

/-- The characters with the Unicode property White_Space. The four separators from U+001C on and the
zero-width space are not among them. -/
def spaceRuns : List (Nat × Nat) := [
  (0x0009, 0x000D), (0x0020, 0x0020), (0x0085, 0x0085), (0x00A0, 0x00A0), (0x1680, 0x1680),
  (0x2000, 0x200A), (0x2028, 0x2029), (0x202F, 0x202F), (0x205F, 0x205F), (0x3000, 0x3000)]

def isSpace (c : Char) : Bool :=
  inRuns spaceRuns c

def trim (text : String) : String :=
  String.ofList ((text.toList.dropWhile isSpace).reverse.dropWhile isSpace).reverse

def isBlank (text : String) : Bool :=
  text.toList.all isSpace

end LineLang.Text
