/-! Tokens: the words and signs of a line, each with the bytes it covers. -/

set_option autoImplicit false

namespace LineLang

inductive Token.Kind where
  | plus
  | minus
  | times
  | divide
  | modulo
  | bar
  | leftParen
  | rightParen
  | equals
  | question
  | colon
  | integer
  | name
  | newLine
  | endOfInput
  | invalid
  deriving DecidableEq, Repr

/-- The offsets count bytes of the UTF-8 text, from `start` up to but not including `stop`. -/
structure Token where
  kind : Token.Kind
  text : String
  start : Nat
  stop : Nat
  deriving DecidableEq, Repr

namespace Token

def Kind.ofSign? : Char → Option Kind
  | '+' => some .plus
  | '-' => some .minus
  | '*' => some .times
  | '/' => some .divide
  | '%' => some .modulo
  | '|' => some .bar
  | '(' => some .leftParen
  | ')' => some .rightParen
  | '=' => some .equals
  | '?' => some .question
  | ':' => some .colon
  | _ => none

def Kind.display : Kind → String
  | .plus => "+"
  | .minus => "-"
  | .times => "*"
  | .divide => "/"
  | .modulo => "%"
  | .bar => "|"
  | .leftParen => "("
  | .rightParen => ")"
  | .equals => "="
  | .question => "?"
  | .colon => ":"
  | .integer => "integer"
  | .name => "identifier"
  | .newLine => "new line"
  | .endOfInput => "end of input"
  | .invalid => "invalid token"

def Kind.endsLine : Kind → Bool
  | .newLine | .endOfInput => true
  | _ => false

/-- How a message points at a token: line ends by their kind, all others by text and position. -/
def display (token : Token) : String :=
  if token.kind.endsLine then token.kind.display
  else "'" ++ token.text ++ "' at position " ++ toString token.start

def listing (token : Token) : String :=
  if token.text.isEmpty then "(" ++ token.kind.display ++ ")"
  else "(" ++ token.kind.display ++ " " ++ token.text ++ ")"

end Token

end LineLang
