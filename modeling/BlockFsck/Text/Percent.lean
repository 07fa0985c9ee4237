import BlockFsck.Text.Encoding
import BlockFsck.Text.Utf8

/-!
# Percent signs

A character that must not stand by itself in an address is written as its UTF-8 bytes, each with a
percent sign and two hexadecimal digits.
-/

namespace BlockFsck.Text

def isUnreserved (c : Char) : Bool := c.isAlphanum || "-._~".toList.contains c

def isHexDigit (c : Char) : Bool := c.isDigit || ('a' ≤ c && c ≤ 'f') || ('A' ≤ c && c ≤ 'F')

def hexValue (c : Char) : Nat :=
  if c.isDigit then c.toNat - 48 else if 'a' ≤ c then c.toNat - 87 else c.toNat - 55

/-! ## Writing -/

/-- The bytes of a character, each with a percent sign. -/
def percentChars (c : Char) : List Char :=
  (String.singleton c).toUTF8.toList.flatMap fun b =>
    '%' :: (hexByte b).toList.map Char.toUpper

/-- Percent signs for all characters that are not safe; those that are there already stay. -/
def percentEncode (safe : Char → Bool) : List Char → List Char
  | [] => []
  | c :: rest =>
    let coded := c = '%' && (rest.take 2).length = 2 && (rest.take 2).all isHexDigit
    (if coded || isUnreserved c || safe c then [c] else percentChars c) ++ percentEncode safe rest

/-- Printable ASCII without the given characters. -/
def isPlainExcept (others : String) (c : Char) : Bool :=
  32 < c.toNat && c.toNat < 127 && !others.toList.contains c

/-! ## Reading -/

/-- The bytes at the front of a text, up to the first character beyond ASCII, and what follows. -/
def percentBytes : List Char → List Nat × List Char
  | [] => ([], [])
  | '%' :: a :: b :: rest =>
    if isHexDigit a && isHexDigit b then
      let (bytes, rest) := percentBytes rest
      ((16 * hexValue a + hexValue b) :: bytes, rest)
    else
      let (bytes, rest) := percentBytes (a :: b :: rest)
      (37 :: bytes, rest)
  | c :: rest =>
    if c.toNat < 128 then
      let (bytes, rest) := percentBytes rest
      (c.toNat :: bytes, rest)
    else ([], c :: rest)

theorem percentBytes_length (cs : List Char) : (percentBytes cs).2.length ≤ cs.length := by
  fun_induction percentBytes cs <;> simp_all <;> omega

/-- The text that was written with percent signs. Two of them that are no byte stay. -/
def percentDecode (cs : List Char) : List Char :=
  ofBytes (percentBytes cs).1 ++
    match _h : (percentBytes cs).2 with
    | [] => []
    | c :: rest => c :: percentDecode rest
termination_by cs.length
decreasing_by
  have := percentBytes_length cs
  simp only [_h, List.length_cons] at this
  omega

end BlockFsck.Text
