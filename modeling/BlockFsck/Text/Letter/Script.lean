import BlockFsck.Text.Stretch

/-!
# Scripts

The scripts that matter for the place of a character in a name. The tables cover the characters of
names.
-/

namespace BlockFsck.Text

def greekBoundaries : List Nat :=
  [0x371, 0x3E2, 0x3F3, 0x3FD, 0x1D26, 0x1D2B, 0x1F00, 0x1FF7, 0xAB65, 0xAB66]

def hebrewBoundaries : List Nat :=
  [0x591, 0x5F5, 0xFB1E, 0xFB1F]

/-- Hiragana, Katakana and Han. -/
def japaneseBoundaries : List Nat :=
  [0x3005, 0x3006, 0x3007, 0x3008, 0x3041, 0x3097, 0x309D, 0x30FB, 0x30FD, 0x30FF, 0x31F0,
    0xA000, 0xFA0E, 0xFA2A, 0x16FE3, 0x16FE4, 0x16FF0, 0x16FF2, 0x1AFF0, 0x1B168, 0x20000,
    0x3134B]

def isGreek (c : Char) : Bool := isWithin greekBoundaries c

def isHebrew (c : Char) : Bool := isWithin hebrewBoundaries c

def isJapanese (c : Char) : Bool := isWithin japaneseBoundaries c

end BlockFsck.Text
