/-! Lines of a text. -/

set_option autoImplicit false

namespace LineLang.Text

def isLineEnd (c : Char) : Bool :=
  c == '\r' || c == '\n'

def dropLineEnds (text : String) : String :=
  String.ofList (text.toList.reverse.dropWhile isLineEnd).reverse

/-- Cuts a sequence after every line feed and leaves out the feed and one carriage return right
before it. What follows the last feed is a line of its own unless it is empty. -/
def splitLines {α : Type} [DecidableEq α] (feed carriage : α) : List α → List (List α)
  | [] => []
  | unit :: rest =>
    if unit = feed then [] :: splitLines feed carriage rest
    else if unit = carriage ∧ rest.head? = some feed then splitLines feed carriage rest
    else
      match splitLines feed carriage rest with
      | [] => [[unit]]
      | line :: lines => (unit :: line) :: lines

def lines (text : String) : List String :=
  (splitLines '\n' '\r' text.toList).map String.ofList

end LineLang.Text
