/-!
# Sixteen-bit units

A character beyond the first 65536 is two units, a high one and a low one. A unit of a pair that
stands alone is no character, and the replacement character takes its place.
-/

namespace BlockFsck.Text

def isHighUnit (n : Nat) : Bool := 0xD800 ≤ n && n < 0xDC00

def isLowUnit (n : Nat) : Bool := 0xDC00 ≤ n && n < 0xE000

/-- The character that a high and a low unit stand for. -/
def pairChar (high low : Nat) : Char :=
  Char.ofNat (0x10000 + (high - 0xD800) * 0x400 + (low - 0xDC00))

/-- The character of a unit that stands alone. -/
def unitChar (n : Nat) : Char :=
  if isHighUnit n || isLowUnit n then '\uFFFD' else Char.ofNat n

/-- A character is no unit of a pair. -/
theorem not_unit_of_char (c : Char) : isHighUnit c.toNat = false ∧ isLowUnit c.toNat = false := by
  have hvalid : c.toNat < 0xD800 ∨ 0xDFFF < c.toNat ∧ c.toNat < 0x110000 := c.valid
  simp only [isHighUnit, isLowUnit, Bool.and_eq_false_iff, decide_eq_false_iff_not]
  omega

@[simp] theorem unitChar_toNat (c : Char) : unitChar c.toNat = c := by
  obtain ⟨hhigh, hlow⟩ := not_unit_of_char c
  simp [unitChar, hhigh, hlow]

/-- The characters of a run of units. -/
def joinUnits : List Nat → List Char
  | [] => []
  | [n] => [unitChar n]
  | n :: m :: rest =>
    if isHighUnit n && isLowUnit m then pairChar n m :: joinUnits rest
    else unitChar n :: joinUnits (m :: rest)

end BlockFsck.Text
