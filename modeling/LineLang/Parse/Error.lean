import LineLang.Numeral
import LineLang.Token

/-! Why a sequence of tokens is not a line. -/

set_option autoImplicit false

namespace LineLang

inductive Expected where
  | expression
  | kind (kind : Token.Kind)
  deriving DecidableEq, Repr

inductive ParseError where
  | endOfLine
  | unexpected (expected : Expected) (found : Token)
  | badInteger (literal : String) (fault : Numeral.Fault)
  deriving DecidableEq, Repr

def Expected.display : Expected → String
  | .expression => "expression"
  | .kind wanted => "`" ++ wanted.display ++ "`"

def ParseError.message : ParseError → String
  | .endOfLine => "unexpected end of line, expected expression"
  | .unexpected expected found => "expected " ++ expected.display ++ ", found " ++ found.display
  | .badInteger literal fault => "invalid integer literal " ++ literal ++ ": " ++ fault.message

end LineLang
