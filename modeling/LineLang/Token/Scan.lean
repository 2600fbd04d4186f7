import LineLang.Token
import LineLang.Text.Alphabetic
import LineLang.Text.Bytes
import LineLang.Text.Space

/-! Cutting a text into tokens.

The first character of a token fixes its kind, and the kind says which characters go on with it.
White space other than a line feed only separates tokens. Every scan finishes with one end-of-input
token; characters that start no token become invalid tokens of one character each.
-/

set_option autoImplicit false

namespace LineLang.Token

def Kind.ofFirst (c : Char) : Kind :=
  if c == '\n' then .newLine
  else if c.isDigit then .integer
  else if Text.isLetter c then .name
  else (Kind.ofSign? c).getD .invalid

def isNameChar (c : Char) : Bool :=
  Text.isLetter c || c.isDigit || c == '_'

def Kind.continuesWith : Kind → Char → Bool
  | .newLine, c => c == '\n'
  | .integer, c => c.isDigit
  | .name, c => isNameChar c
  | _, _ => false

def isSeparator (c : Char) : Bool :=
  Text.isSpace c && c != '\n'

/-- The token over the given characters. Line feeds have no text. -/
def ofChars (kind : Kind) (chars : List Char) (start : Nat) : Token where
  kind := kind
  text := if kind = .newLine then "" else String.ofList chars
  start := start
  stop := start + Text.byteLength chars

def scanFrom (start : Nat) : List Char → List Token
  | [] => [⟨.endOfInput, "", start, start⟩]
  | c :: rest =>
    if isSeparator c then scanFrom (start + c.utf8Size) rest
    else
      let kind := Kind.ofFirst c
      let token := ofChars kind (c :: rest.takeWhile kind.continuesWith) start
      token :: scanFrom token.stop (rest.dropWhile kind.continuesWith)
termination_by chars => chars.length
decreasing_by
  · simp
  · exact Nat.lt_succ_of_le (List.dropWhile_suffix _).length_le

def scan (text : String) : List Token :=
  scanFrom 0 text.toList

structure Stray where
  text : String
  position : Nat
  deriving DecidableEq, Repr

def Stray.message (stray : Stray) : String :=
  "invalid token '" ++ stray.text ++ "' at position " ++ toString stray.position

def tokenize (text : String) : Except Stray (List Token) :=
  let tokens := scan text
  match tokens.find? (·.kind = .invalid) with
  | some token => .error ⟨token.text, token.start⟩
  | none => .ok tokens

end LineLang.Token
