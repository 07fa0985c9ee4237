/-!
# Sets of characters

A set of characters is given by the code points at which its stretches start and end, in order: each
stretch begins at one of them and ends before the next.
-/

namespace BlockFsck.Text

/-- An odd number of boundaries lies at or below the character. -/
def isWithin (boundaries : List Nat) (c : Char) : Bool :=
  (boundaries.takeWhile (· ≤ c.toNat)).length % 2 = 1

end BlockFsck.Text
