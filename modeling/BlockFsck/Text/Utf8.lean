/-!
# Text out of bytes

`ofBytes` reads bytes as UTF-8. A byte that belongs to no character becomes the replacement
character, and so do the first bytes of a character that breaks off, all of them together.
-/

namespace BlockFsck.Text

/-- What a first byte says of the rest of its character: how many bytes follow, between which bounds
the next one is, and what the first byte adds to the code point. -/
structure Lead where
  follow : Nat
  least : Nat := 0x80
  greatest : Nat := 0xBF
  bits : Nat

def Lead.ofByte? (b : Nat) : Option Lead :=
  if b < 0xC2 then none
  else if b < 0xE0 then some { follow := 1, bits := b - 0xC0 }
  else if b = 0xE0 then some { follow := 2, least := 0xA0, bits := 0 }
  else if b = 0xED then some { follow := 2, greatest := 0x9F, bits := 0xD }
  else if b < 0xF0 then some { follow := 2, bits := b - 0xE0 }
  else if b = 0xF0 then some { follow := 3, least := 0x90, bits := 0 }
  else if b < 0xF4 then some { follow := 3, bits := b - 0xF0 }
  else if b = 0xF4 then some { follow := 3, greatest := 0x8F, bits := 4 }
  else none

/-- Reads bytes as UTF-8, inside the character that `pending` has begun. -/
def ofBytesFrom (pending : Option Lead) : List Nat → List Char
  | [] => if pending.isSome then ['\uFFFD'] else []
  | b :: rest =>
    let start := fun (broken : List Char) =>
      broken ++
        if b < 0x80 then Char.ofNat b :: ofBytesFrom none rest
        else match Lead.ofByte? b with
          | some lead => ofBytesFrom (some lead) rest
          | none => '\uFFFD' :: ofBytesFrom none rest
    match pending with
    | none => start []
    | some lead =>
      if lead.least ≤ b && b ≤ lead.greatest then
        let bits := 64 * lead.bits + (b - 0x80)
        if lead.follow = 1 then Char.ofNat bits :: ofBytesFrom none rest
        else ofBytesFrom (some { follow := lead.follow - 1, bits }) rest
      else start ['\uFFFD']

def ofBytes (bytes : List Nat) : List Char := ofBytesFrom none bytes

end BlockFsck.Text
