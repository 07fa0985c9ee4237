import BlockFsck.Text.Units

/-!
# Encodings of JSON text

JSON text comes in units of one, two or four bytes. It starts with an ASCII character, so that the
zeros among its first four bytes tell the width of the units and the order of their bytes.
-/

namespace BlockFsck.Text

inductive Encoding
  | utf8
  | utf16 (bigEndian : Bool)
  | utf32 (bigEndian : Bool)
  deriving Repr, DecidableEq

namespace Encoding

def name : Encoding → String
  | .utf8 => "utf-8"
  | .utf16 bigEndian => if bigEndian then "utf-16-be" else "utf-16-le"
  | .utf32 bigEndian => if bigEndian then "utf-32-be" else "utf-32-le"

/-- The encoding of a JSON text by its first four bytes, or by both bytes of a text of two. -/
def detect : List UInt8 → Encoding
  | [a, b] => if a = 0 then .utf16 true else if b = 0 then .utf16 false else .utf8
  | a :: b :: c :: d :: _ =>
    if a = 0 then (if b = 0 then .utf32 true else .utf16 true)
    else if b = 0 then (if c = 0 && d = 0 then .utf32 false else .utf16 false)
    else .utf8
  | _ => .utf8

end Encoding

/-- Bytes that stand for nothing, and how many bytes come before them. -/
structure DecodeError where
  encoding : Encoding
  position : Nat
  bytes : List UInt8
  reason : String
  deriving Repr, DecidableEq

/-- Two hexadecimal digits, lower case. -/
def hexByte (b : UInt8) : String :=
  String.ofList [Nat.digitChar (b.toNat / 16), Nat.digitChar (b.toNat % 16)]

def DecodeError.message (e : DecodeError) : String :=
  let place := match e.bytes with
    | [b] => s!"byte 0x{hexByte b} in position {e.position}"
    | bytes => s!"bytes in position {e.position}-{e.position + bytes.length - 1}"
  s!"'{e.encoding.name}' codec can't decode {place}: {e.reason}"

/-- The number that bytes write, the most significant one first. -/
def bytesValue (bytes : List UInt8) : Nat := bytes.foldl (fun n b => 256 * n + b.toNat) 0

def unitValue (bigEndian : Bool) (bytes : List UInt8) : Nat :=
  bytesValue (if bigEndian then bytes else bytes.reverse)

/-- The units of two bytes each. -/
def units16 (bigEndian : Bool) (position : Nat) : List UInt8 → Except DecodeError (List Nat)
  | [] => .ok []
  | [a] => .error ⟨.utf16 bigEndian, position, [a], "truncated data"⟩
  | a :: b :: rest =>
    (units16 bigEndian (position + 2) rest).map (unitValue bigEndian [a, b] :: ·)

/-- The code points of four bytes each. -/
def units32 (bigEndian : Bool) (position : Nat) : List UInt8 → Except DecodeError (List Nat)
  | [] => .ok []
  | a :: b :: c :: d :: rest =>
    let n := unitValue bigEndian [a, b, c, d]
    if n < 0x110000 then (units32 bigEndian (position + 4) rest).map (n :: ·)
    else
      .error ⟨.utf32 bigEndian, position, [a, b, c, d], "code point not in range(0x110000)"⟩
  | bytes => .error ⟨.utf32 bigEndian, position, bytes, "truncated data"⟩

/-- The characters of a text that is given as UTF-8 but whose bytes are those of a JSON text in an
encoding of its own. -/
def reinterpret (text : String) : Except DecodeError (List Char) :=
  let bytes := text.toUTF8.toList
  match Encoding.detect bytes with
  | .utf8 => .ok text.toList
  | .utf16 bigEndian => (units16 bigEndian 0 bytes).map joinUnits
  | .utf32 bigEndian => (units32 bigEndian 0 bytes).map (·.map unitChar)

end BlockFsck.Text
