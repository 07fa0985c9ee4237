import BlockFsck.Decimal
import BlockFsck.Json.Value

/-!
# Writing JSON text

The text is ASCII: every other code point is written as one or two 16-bit units. Of the two
layouts, the indented one gives each item a line of its own, two spaces deeper than its container.
It is written in chunks, and a chunk that is refused leaves a text without its end.
-/

namespace BlockFsck.Json

def hexChar (n : Nat) : Char := Char.ofNat (if n < 10 then 48 + n else 87 + n)

/-- Four hexadecimal digits, lower case. -/
def hexQuad (n : Nat) : List Char :=
  [hexChar (n / 4096 % 16), hexChar (n / 256 % 16), hexChar (n / 16 % 16), hexChar (n % 16)]

def unitEscape (n : Nat) : List Char := '\\' :: 'u' :: hexQuad n

/-- A character inside a string: as itself, by a letter, or by its 16-bit units. -/
def escaped (c : Char) : List Char :=
  match c with
  | '"' => ['\\', '"']
  | '\\' => ['\\', '\\']
  | '\n' => ['\\', 'n']
  | '\r' => ['\\', 'r']
  | '\t' => ['\\', 't']
  | '\x08' => ['\\', 'b']
  | '\x0c' => ['\\', 'f']
  | c =>
    let n := c.toNat
    if 32 ≤ n ∧ n < 127 then [c]
    else if n < 0x10000 then unitEscape n
    else
      let m := n - 0x10000
      unitEscape (0xD800 + m / 0x400) ++ unitEscape (0xDC00 + m % 0x400)

/-- Half of a surrogate pair is written as the unit that it is. -/
def escapedPoint (p : CodePoint) : List Char :=
  match p.char? with
  | some c => escaped c
  | none => unitEscape p

def stringChars (s : Points) : List Char := '"' :: s.flatMap escapedPoint ++ ['"']

def intChars (n : Int) : List Char :=
  if n < 0 then '-' :: digits n.natAbs else digits n.natAbs

def floatChars : Double → List Char
  | .nan _ => "NaN".toList
  | .infinite negative => (if negative then "-Infinity" else "Infinity").toList
  | x => x.shortest.toList

def lineBreak (depth : Nat) : List Char := '\n' :: List.replicate (2 * depth) ' '

/-! ## The indented layout -/

/-- A step of writing. -/
inductive Chunk
  | chars (cs : List Char)
  /-- An integer and the characters around it, which are written with it or not at all. -/
  | int (before : List Char) (n : Int) (after : List Char)
  /-- The way into a container, or to what takes as much room, which writes nothing. -/
  | level (depth : Nat)

def Chunk.text : Chunk → List Char
  | .chars cs => cs
  | .int before n after => before ++ intChars n ++ after
  | .level _ => []

inductive WriteFault
  | tooManyDigits
  | tooDeep
  deriving Repr, DecidableEq

def WriteFault.message : WriteFault → String
  | .tooManyDigits =>
    s!"Exceeds the limit ({maxDigits} digits) for integer string conversion; " ++
      "use sys.set_int_max_str_digits() to increase the limit"
  | .tooDeep => "maximum recursion depth exceeded while calling a Python object"

/-- Why a chunk is refused where there is room for so many levels. -/
def Chunk.fault? (room : Nat) : Chunk → Option WriteFault
  | .chars _ => none
  | .int _ n _ => if maxDigits < (digits n.natAbs).length then some .tooManyDigits else none
  | .level depth => if room < depth then some .tooDeep else none

/-- What is written up to the first chunk that is refused, and why it is. -/
def written (room : Nat) : List Chunk → List Char × Option WriteFault
  | [] => ([], none)
  | chunk :: rest =>
    match chunk.fault? room with
    | some fault => ([], some fault)
    | none =>
      let (cs, fault) := written room rest
      (chunk.text ++ cs, fault)

/-- What is written if no chunk is refused. -/
def textOf (chunks : List Chunk) : List Char := chunks.flatMap Chunk.text

mutual

/-- A value at the given depth and what stands before it. An empty container takes less room. -/
def chunks (depth : Nat) (before : List Char) : Json → List Chunk
  | .null => [.chars (before ++ "null".toList)]
  | .bool b => [.chars (before ++ (if b then "true" else "false").toList)]
  | .int n => [.int before n []]
  | .float x => [.level (depth + 1), .chars (before ++ floatChars x)]
  | .str s => [.chars (before ++ stringChars s)]
  | .arr [] => [.chars before, .level depth, .chars ['[', ']']]
  | .arr (x :: xs) =>
    .chars before :: .level (depth + 1) ::
      chunks (depth + 1) ('[' :: lineBreak (depth + 1)) x ++ itemChunks (depth + 1) xs ++
        [.chars (lineBreak depth ++ [']'])]
  | .obj [] => [.chars before, .level depth, .chars ['\x7b', '\x7d']]
  | .obj ((name, x) :: xs) =>
    .chars before :: .level (depth + 1) :: .chars ('\x7b' :: lineBreak (depth + 1)) ::
      .chars (stringChars name ++ [':', ' ']) :: chunks (depth + 1) [] x ++
        memberChunks (depth + 1) xs ++ [.chars (lineBreak depth ++ ['\x7d'])]

/-- The items after the first. -/
def itemChunks (depth : Nat) : List Json → List Chunk
  | [] => []
  | x :: xs => chunks depth (',' :: lineBreak depth) x ++ itemChunks depth xs

/-- The members after the first. -/
def memberChunks (depth : Nat) : List (Points × Json) → List Chunk
  | [] => []
  | (name, x) :: xs =>
    .chars (',' :: lineBreak depth ++ stringChars name ++ [':', ' ']) :: chunks depth [] x ++
      memberChunks depth xs

end

/-! ## The layout on one line -/

mutual

/-- There are no blanks. -/
def compactChars : Json → List Char
  | .null => "null".toList
  | .bool b => (if b then "true" else "false").toList
  | .int n => intChars n
  | .float x => floatChars x
  | .str s => stringChars s
  | .arr [] => ['[', ']']
  | .arr (x :: xs) => '[' :: compactChars x ++ compactItems xs ++ [']']
  | .obj [] => ['\x7b', '\x7d']
  | .obj ((name, x) :: xs) =>
    '\x7b' :: stringChars name ++ ':' :: compactChars x ++ compactMembers xs ++ ['\x7d']

def compactItems : List Json → List Char
  | [] => []
  | x :: xs => ',' :: compactChars x ++ compactItems xs

def compactMembers : List (Points × Json) → List Char
  | [] => []
  | (name, x) :: xs =>
    ',' :: stringChars name ++ ':' :: compactChars x ++ compactMembers xs

end

def compact (x : Json) : String := String.ofList (compactChars x)

end BlockFsck.Json
