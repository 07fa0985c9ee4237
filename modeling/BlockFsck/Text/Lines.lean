/-!
# Lines

A text is cut into lines at every kind of line break. A break at the end begins no line.
-/

namespace BlockFsck.Text

def isLineBreak (c : Char) : Bool :=
  "\n\r\x0b\x0c\x1c\x1d\x1e\x85\u2028\u2029".toList.contains c

/-- The lines of a text whose first line has begun with the given characters, the last one first. -/
def linesFrom : List Char → List Char → List String
  | [], [] => []
  | line, [] => [String.ofList line.reverse]
  | line, '\r' :: '\n' :: rest => String.ofList line.reverse :: linesFrom [] rest
  | line, c :: rest =>
    if isLineBreak c then String.ofList line.reverse :: linesFrom [] rest
    else linesFrom (c :: line) rest

def lines (text : String) : List String := linesFrom [] text.toList

end BlockFsck.Text
