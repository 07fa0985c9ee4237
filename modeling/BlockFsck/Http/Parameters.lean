import BlockFsck.Path
import BlockFsck.Text.Percent

/-!
# Parameters of requests

Parameters are written as `name=value` with `&` between them, in letters, digits and percent signs,
a plus standing for a space.
-/

namespace BlockFsck.Http.Parameters

def encode (text : String) : List Char :=
  text.toList.flatMap fun c =>
    if c = ' ' then ['+'] else if Text.isUnreserved c then [c] else Text.percentChars c

def text (pairs : List (String × String)) : String :=
  String.ofList <| List.intercalate ['&'] <| pairs.map fun (name, value) =>
    encode name ++ '=' :: encode value

def decode (cs : List Char) : String :=
  String.ofList (Text.percentDecode (cs.map fun c => if c = '+' then ' ' else c))

/-- The name and the value in a piece; the value may be absent. -/
def pairOf (piece : List Char) : String × String :=
  (decode (piece.takeWhile (· ≠ '=')), decode (piece.dropWhile (· ≠ '=')).tail)

/-- Brings the values of a name together where the name comes first. -/
def grouped (pairs : List (String × String)) : List (String × String) :=
  (pairs.map Prod.fst).eraseDups.flatMap fun name => pairs.filter (·.1 = name)

def ofText (text : String) : List (String × String) :=
  grouped (((Path.pieces '&' text.toList).filter (· ≠ [])).map pairOf)

end BlockFsck.Http.Parameters
