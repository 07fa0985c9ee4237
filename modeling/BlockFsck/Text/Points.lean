import BlockFsck.Text.Units

/-!
# Texts of code points

A text in a JSON value is a run of code points, not all of which are characters: half of a
surrogate pair may stand alone, and two halves side by side are two code points and not the
character that they stand for elsewhere.
-/

namespace BlockFsck

/-- A Unicode code point, the halves of surrogate pairs included. -/
abbrev CodePoint := Fin 0x110000

namespace CodePoint

def ofChar (c : Char) : CodePoint where
  val := c.toNat
  isLt := by
    have hvalid : c.toNat < 0xD800 ∨ 0xDFFF < c.toNat ∧ c.toNat < 0x110000 := c.valid
    omega

/-- The code point with a number, or the replacement character if there is none. -/
def ofNat (n : Nat) : CodePoint := if h : n < 0x110000 then ⟨n, h⟩ else 0xFFFD

/-- The code point of a high and a low unit. -/
def ofPair (high low : Nat) : CodePoint :=
  ofNat (0x10000 + (high - 0xD800) * 0x400 + (low - 0xDC00))

/-- A half of a surrogate pair: the one that comes first, and the one that comes after it. -/
def isHigh (p : CodePoint) : Bool := Text.isHighUnit p.val

def isLow (p : CodePoint) : Bool := Text.isLowUnit p.val

/-- Half of a surrogate pair is no character. -/
def char? (p : CodePoint) : Option Char :=
  if p.isHigh || p.isLow then none else some (Char.ofNat p)

@[simp] theorem ofChar_val (c : Char) : (ofChar c).val = c.toNat := rfl

end CodePoint

abbrev Points := List CodePoint

namespace Points

def ofText (text : String) : Points := text.toList.map .ofChar

instance : Coe String Points := ⟨ofText⟩

/-- The text in characters, where the replacement character takes the place of half a pair. -/
def shown (points : Points) : String := String.ofList (points.map fun p => Text.unitChar p.val)

@[simp] theorem shown_ofText (text : String) : (ofText text).shown = text := by
  simp [shown, ofText, Function.comp_def]

@[simp] theorem ofText_inj {s t : String} : ofText s = ofText t ↔ s = t :=
  ⟨fun h => by rw [← shown_ofText s, h, shown_ofText], congrArg ofText⟩

end Points

end BlockFsck
