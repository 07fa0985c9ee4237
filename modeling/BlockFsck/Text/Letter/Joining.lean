import BlockFsck.Text.Letter.Mark

/-!
# Joining letters

The letters of some scripts join the letter before or after them; marks between them do not matter.
The tables cover the characters of names.
-/

namespace BlockFsck.Text

/-- Letters that join the letter after them. -/
def joiningNextBoundaries : List Nat :=
  [0x620, 0x621, 0x626, 0x627, 0x628, 0x629, 0x62A, 0x62F, 0x633, 0x648, 0x649, 0x64B, 0x66E,
    0x670, 0x679, 0x688, 0x69A, 0x6C0, 0x6C1, 0x6C3, 0x6CC, 0x6CD, 0x6CE, 0x6CF, 0x6D0, 0x6D2,
    0x6FA, 0x6FD, 0x6FF, 0x700, 0x712, 0x715, 0x71A, 0x71E, 0x71F, 0x728, 0x729, 0x72A, 0x72B,
    0x72C, 0x72D, 0x72F, 0x74E, 0x759, 0x75C, 0x76B, 0x76D, 0x771, 0x772, 0x773, 0x775, 0x778,
    0x77A, 0x780, 0x7CA, 0x7EB, 0x841, 0x846, 0x848, 0x849, 0x84A, 0x854, 0x855, 0x856, 0x860,
    0x861, 0x862, 0x866, 0x868, 0x869, 0x886, 0x887, 0x889, 0x88E, 0x8A0, 0x8AA, 0x8AF, 0x8B1,
    0x8B3, 0x8B9, 0x8BA, 0x8C9, 0x1820, 0x1879, 0x1887, 0x18A9, 0x18AA, 0x18AB, 0xA840, 0xA873,
    0x10AC0, 0x10AC5, 0x10ACD, 0x10ACE, 0x10AD3, 0x10ADD, 0x10ADE, 0x10AE1, 0x10B80, 0x10B81,
    0x10B82, 0x10B83, 0x10B86, 0x10B89, 0x10B8A, 0x10B8C, 0x10B8D, 0x10B8E, 0x10B90, 0x10B91,
    0x10D00, 0x10D22, 0x10D23, 0x10D24, 0x10F30, 0x10F33, 0x10F34, 0x10F45, 0x10F70, 0x10F74,
    0x10F76, 0x10F82, 0x10FB0, 0x10FB1, 0x10FB2, 0x10FB4, 0x10FB8, 0x10FB9, 0x10FBB, 0x10FBD,
    0x10FBE, 0x10FC0, 0x10FC1, 0x10FC2, 0x10FC4, 0x10FC5, 0x1E922, 0x1E944]

/-- Letters that join the letter before them. -/
def joiningPreviousBoundaries : List Nat :=
  [0x620, 0x621, 0x622, 0x64B, 0x66E, 0x670, 0x671, 0x674, 0x679, 0x6D6, 0x6EE, 0x6F0, 0x6FA,
    0x6FD, 0x6FF, 0x711, 0x712, 0x730, 0x74D, 0x780, 0x7CA, 0x7EB, 0x840, 0x859, 0x860, 0x861,
    0x862, 0x866, 0x867, 0x883, 0x886, 0x887, 0x889, 0x88F, 0x8A0, 0x8AD, 0x8AE, 0x8C9, 0x1820,
    0x1879, 0x1887, 0x18A9, 0x18AA, 0x18AB, 0xA840, 0xA872, 0x10AC0, 0x10AC6, 0x10AC7, 0x10ACB,
    0x10ACE, 0x10AD7, 0x10AD8, 0x10AE2, 0x10AE4, 0x10AE5, 0x10B80, 0x10B92, 0x10D01, 0x10D24,
    0x10F30, 0x10F45, 0x10F70, 0x10F82, 0x10FB0, 0x10FB1, 0x10FB2, 0x10FB7, 0x10FB8, 0x10FC0,
    0x10FC1, 0x10FC5, 0x1E922, 0x1E944]

/-- Marks and one letter do not matter for the joining of those around them. -/
def isTransparent (c : Char) : Bool := isNonspacingMark c || c = Char.ofNat 0x1E94B

/-- The letters around a place, the nearest ones first, would join there. -/
def wouldJoin (before after : List Char) : Bool :=
  (before.dropWhile isTransparent).head?.any (isWithin joiningNextBoundaries) &&
    (after.dropWhile isTransparent).head?.any (isWithin joiningPreviousBoundaries)

end BlockFsck.Text
