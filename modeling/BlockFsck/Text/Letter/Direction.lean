import BlockFsck.Text.Letter.Mark

/-!
# Writing directions

Letters are written to the right or to the left, Arabic letters and digits having rules of their
own. The tables cover the characters of names; whatever is in none of them is written to the right.
-/

namespace BlockFsck.Text

inductive Direction
  | right
  | left
  | arabic
  | number
  | arabicNumber
  | neutral
  | mark
  deriving Repr, DecidableEq

def leftBoundaries : List Nat :=
  [0x5D0, 0x5F5, 0x7C0, 0x7EB, 0x7F4, 0x7F6, 0x800, 0x816, 0x81A, 0x81B, 0x824, 0x825, 0x828,
    0x829, 0x840, 0x859, 0x10800, 0x10A01, 0x10A10, 0x10A36, 0x10A60, 0x10AE5, 0x10B00, 0x10CF3,
    0x10E80, 0x10EAA, 0x10EB0, 0x10F28, 0x10F70, 0x10F82, 0x10FB0, 0x10FF7, 0x1E800, 0x1E8C5,
    0x1E922, 0x1E944, 0x1E94B, 0x1E95A]

def arabicBoundaries : List Nat :=
  [0x620, 0x64B, 0x66E, 0x670, 0x671, 0x6D6, 0x6E5, 0x6E7, 0x6EE, 0x6F0, 0x6FA, 0x711, 0x712,
    0x730, 0x74D, 0x7A6, 0x7B1, 0x7B2, 0x860, 0x88F, 0x8A0, 0x8CA, 0xFE73, 0xFE74, 0x10D00,
    0x10D24, 0x10F30, 0x10F46]

def numberBoundaries : List Nat :=
  [0x30, 0x3A, 0x6F0, 0x6FA]

def arabicNumberBoundaries : List Nat :=
  [0x660, 0x66A, 0x10D30, 0x10D3A]

def neutralBoundaries : List Nat :=
  [0x2D, 0x2E, 0xB7, 0xB8, 0x2B9, 0x2BB, 0x2C6, 0x2D0, 0x2EC, 0x2ED, 0x375, 0x376, 0x200C,
    0x200E, 0x2E2F, 0x2E30, 0x30FB, 0x30FC, 0xA67F, 0xA680, 0xA717, 0xA720, 0xA788, 0xA789]

/-- Marks that nevertheless count as letters written to the right. -/
def letterlikeMarks : List Nat :=
  [0xCBF, 0xCC6, 0x11A07, 0x11A08, 0x11C3F]

def direction (c : Char) : Direction :=
  if isWithin leftBoundaries c then .left
  else if isWithin arabicBoundaries c then .arabic
  else if isWithin numberBoundaries c then .number
  else if isWithin arabicNumberBoundaries c then .arabicNumber
  else if isWithin neutralBoundaries c then .neutral
  else if isNonspacingMark c && !letterlikeMarks.contains c.toNat then .mark
  else .right

/-- A part of a name with letters or digits of the left direction starts with such a letter, has no
letters of the right one, has digits of one kind, and ends in a letter or a digit. -/
def keepsDirection (cs : List Char) : Bool :=
  let found := cs.map direction
  let isLeft := fun d => d = .left || d = .arabic
  !found.any (fun d => isLeft d || d = .arabicNumber) ||
    (found.head?.any isLeft && !found.contains .right &&
      !(found.contains .number && found.contains .arabicNumber) &&
      (found.reverse.dropWhile (· = .mark)).head?.any (· ≠ .neutral))

end BlockFsck.Text
