import BlockFsck.Json.Value
import BlockFsck.Text.Encoding

/-!
# Reading JSON text

A recursive-descent reader over characters. A failure says what was expected and how much of the
text was left, from which its line and column follow. Beyond the standard it reads `NaN`,
`Infinity` and `-Infinity`. Integers have a limit, and the nesting of lists and objects has one that
depends on how much room for recursion is left.
-/

namespace BlockFsck.Json

inductive Cause
  | byteOrderMark
  | value
  | propertyName
  | colon
  | comma
  | extra
  | unterminated
  | controlCharacter
  | escape
  | unicodeEscape
  | tooManyDigits (count : Nat)
  | tooDeep (container : String)
  deriving Repr, DecidableEq

def Cause.message : Cause → String
  | .byteOrderMark => "Unexpected UTF-8 BOM (decode using utf-8-sig)"
  | .value => "Expecting value"
  | .propertyName => "Expecting property name enclosed in double quotes"
  | .colon => "Expecting ':' delimiter"
  | .comma => "Expecting ',' delimiter"
  | .extra => "Extra data"
  | .unterminated => "Unterminated string starting at"
  | .controlCharacter => "Invalid control character at"
  | .escape => "Invalid \\escape"
  | .unicodeEscape => "Invalid \\uXXXX escape"
  | .tooManyDigits count =>
    s!"Exceeds the limit ({maxDigits} digits) for integer string conversion: " ++
      s!"value has {count} digits; use sys.set_int_max_str_digits() to increase the limit"
  | .tooDeep container =>
    s!"maximum recursion depth exceeded while decoding a JSON {container} from a unicode string"

/-- What went wrong, and how many characters were left there. -/
structure Flaw where
  cause : Cause
  left : Nat
  deriving Repr, DecidableEq

/-- The cause with the line, column and offset of the place, the first two counted from one. -/
def Flaw.message (text : List Char) (flaw : Flaw) : String :=
  let offset := text.length - flaw.left
  let before := text.take offset
  let line := before.count '\n' + 1
  let column := (before.reverse.takeWhile (· ≠ '\n')).length + 1
  s!"{flaw.cause.message}: line {line} column {column} (char {offset})"

def isBlank (c : Char) : Bool := c = ' ' || c = '\t' || c = '\n' || c = '\r'

def skipBlanks (cs : List Char) : List Char := cs.dropWhile isBlank

def hexDigit? (c : Char) : Option Nat :=
  if '0' ≤ c ∧ c ≤ '9' then some (c.toNat - 48)
  else if 'a' ≤ c ∧ c ≤ 'f' then some (c.toNat - 87)
  else if 'A' ≤ c ∧ c ≤ 'F' then some (c.toNat - 55)
  else none

/-! ## Strings -/

/-- A character as written, or one 16-bit unit given by its number. -/
inductive Part
  | char (c : Char)
  | unit (n : Nat)
  deriving Repr, DecidableEq

/-- Units that form a pair become one code point; any other unit is a code point by itself. -/
def joinParts : List Part → Points
  | [] => []
  | .char c :: rest => .ofChar c :: joinParts rest
  | .unit n :: .unit m :: rest =>
    if Text.isHighUnit n && Text.isLowUnit m then .ofPair n m :: joinParts rest
    else .ofNat n :: joinParts (.unit m :: rest)
  | .unit n :: rest => .ofNat n :: joinParts rest

def escapeOf? : Char → Option Char
  | '"' => some '"'
  | '\\' => some '\\'
  | '/' => some '/'
  | 'b' => some '\x08'
  | 'f' => some '\x0c'
  | 'n' => some '\n'
  | 'r' => some '\r'
  | 't' => some '\t'
  | _ => none

def readUnit? (a b c d : Char) : Option Nat := do
  return (((← hexDigit? a) * 16 + (← hexDigit? b)) * 16 + (← hexDigit? c)) * 16 + (← hexDigit? d)

/-- Reads up to the closing quote. Where there is none, no place is told yet. -/
def readParts : List Char → Except Flaw (List Part × List Char)
  | [] => .error ⟨.unterminated, 0⟩
  | '"' :: rest => .ok ([], rest)
  | ['\\'] => .error ⟨.unterminated, 0⟩
  | '\\' :: 'u' :: a :: b :: c :: d :: e :: rest =>
    match readUnit? a b c d with
    | none => .error ⟨.unicodeEscape, rest.length + 6⟩
    | some n => (readParts (e :: rest)).map fun (parts, rest) => (.unit n :: parts, rest)
  | '\\' :: 'u' :: rest => .error ⟨.unicodeEscape, rest.length + 1⟩
  | '\\' :: c :: rest =>
    match escapeOf? c with
    | none => .error ⟨.escape, rest.length + 2⟩
    | some x => (readParts rest).map fun (parts, rest) => (.char x :: parts, rest)
  | c :: rest =>
    if c.toNat < 32 then .error ⟨.controlCharacter, rest.length + 1⟩
    else (readParts rest).map fun (parts, rest) => (.char c :: parts, rest)

/-- Reads the text of a string after its opening quote, which is the place of a string that does
not end. -/
def readString (cs : List Char) : Except Flaw (Points × List Char) :=
  match readParts cs with
  | .ok (parts, rest) => .ok (joinParts parts, rest)
  | .error ⟨.unterminated, _⟩ => .error ⟨.unterminated, cs.length + 1⟩
  | .error flaw => .error flaw

/-! ## Numbers -/

/-- The number that a run of decimal digits writes. -/
def digitsValue (ds : List Char) : Nat := ds.foldl (fun n c => 10 * n + (c.toNat - 48)) 0

/-- The double nearest to `n · 10 ^ e`. Far out of range the power is not computed. -/
def decimalDouble (negative : Bool) (n : Nat) (e : Int) : Double :=
  let size : Int := (Nat.log2 n : Int) / 4 + e
  if n = 0 then Double.signed negative 0
  else if 400 < size then .infinite negative
  else if (Nat.log2 n : Int) + e < -400 then Double.signed negative 0
  else if 0 ≤ e then Double.roundSigned negative (n * Nat.pow 10 e.toNat) 1
  else Double.roundSigned negative n (Nat.pow 10 (-e).toNat)

/-- The digits after a point, if a point with digits comes next. -/
def readFraction (cs : List Char) : Option (List Char × List Char) :=
  match cs with
  | '.' :: rest =>
    match rest.takeWhile Char.isDigit with
    | [] => none
    | ds => some (ds, rest.dropWhile Char.isDigit)
  | _ => none

/-- The exponent, if one comes next. -/
def readExponent (cs : List Char) : Option (Int × List Char) :=
  match cs with
  | e :: rest =>
    if e = 'e' ∨ e = 'E' then
      let negative := rest.head? = some '-'
      let body := if rest.head? = some '-' ∨ rest.head? = some '+' then rest.tail else rest
      match body.takeWhile Char.isDigit with
      | [] => none
      | ds =>
        let n : Int := digitsValue ds
        some (if negative then -n else n, body.dropWhile Char.isDigit)
    else none
  | [] => none

/-- The number with the given sign and digits before the point, and what follows it. -/
def readTail (negative : Bool) (whole rest : List Char) : Json × List Char :=
  let fraction := readFraction rest
  let rest := match fraction with
    | some (_, rest) => rest
    | none => rest
  let exponent := readExponent rest
  let rest := match exponent with
    | some (_, rest) => rest
    | none => rest
  match fraction, exponent with
  | none, none =>
    let n : Int := digitsValue whole
    (.int (if negative then -n else n), rest)
  | fraction, exponent =>
    let ds := (fraction.map Prod.fst).getD []
    let e := (exponent.map Prod.fst).getD 0
    (.float (decimalDouble negative (digitsValue (whole ++ ds)) (e - ds.length)), rest)

/-- Reads an unsigned number: a zero or digits that do not start with one, then the rest. -/
def readMagnitude (negative : Bool) (cs : List Char) : Option (Json × List Char) :=
  match cs with
  | '0' :: rest => some (readTail negative ['0'] rest)
  | c :: _ =>
    if c.isDigit then
      some (readTail negative (cs.takeWhile Char.isDigit) (cs.dropWhile Char.isDigit))
    else none
  | [] => none

def readNumber (cs : List Char) : Option (Json × List Char) :=
  match cs with
  | '-' :: rest => readMagnitude true rest
  | cs => readMagnitude false cs

/-! ## Values -/

/-- What follows the word, if the text starts with it. -/
def afterWord (word : List Char) (cs : List Char) : Option (List Char) :=
  if word.isPrefixOf cs then some (cs.drop word.length) else none

/-- The words that stand for a value. -/
def words : List (List Char × Json) :=
  [("null".toList, .null), ("true".toList, .bool true), ("false".toList, .bool false),
    ("NaN".toList, .float (.nan false)), ("Infinity".toList, .float (.infinite false)),
    ("-Infinity".toList, .float (.infinite true))]

def readWord (cs : List Char) : Option (Json × List Char) :=
  words.findSome? fun (word, value) => (afterWord word cs).map fun rest => (value, rest)

/-- An integer that is not too long, or a number that is no integer; it stands at the start of what
was left. -/
def limited (left : List Char) (x : Json) : Except Flaw Json :=
  match x with
  | .int n =>
    let count := (Nat.toDigits 10 n.natAbs).length
    if maxDigits < count then .error ⟨.tooManyDigits count, left.length⟩ else .ok x
  | x => .ok x

def readScalar (cs : List Char) : Except Flaw (Json × List Char) :=
  match readWord cs with
  | some result => .ok result
  | none =>
    match readNumber cs with
    | some (x, rest) => (limited cs x).map (·, rest)
    | none => .error ⟨.value, cs.length⟩

mutual

/-- Reads one value that starts at once and has room for `room` containers within each other; two
steps for each character are enough. -/
def readValue : (fuel room : Nat) → List Char → Except Flaw (Json × List Char)
  | 0, _, cs => .error ⟨.value, cs.length⟩
  | fuel + 1, room, cs =>
    match cs, room with
    | '"' :: rest, _ => (readString rest).map fun (s, rest) => (.str s, rest)
    | '[' :: rest, 0 => .error ⟨.tooDeep "array", rest.length + 1⟩
    | '[' :: rest, room + 1 =>
      match skipBlanks rest with
      | ']' :: rest => .ok (.arr [], rest)
      | rest => (readItems fuel room rest).map fun (items, rest) => (.arr items, rest)
    | '\x7b' :: rest, 0 => .error ⟨.tooDeep "object", rest.length + 1⟩
    | '\x7b' :: rest, room + 1 =>
      match skipBlanks rest with
      | '\x7d' :: rest => .ok (.obj [], rest)
      | rest => (readMembers fuel room rest).map fun (members, rest) => (.object members, rest)
    | cs, _ => readScalar cs

/-- Reads one or more items up to the closing bracket. -/
def readItems : (fuel room : Nat) → List Char → Except Flaw (List Json × List Char)
  | 0, _, cs => .error ⟨.value, cs.length⟩
  | fuel + 1, room, cs => do
    let (x, rest) ← readValue fuel room cs
    match skipBlanks rest with
    | ']' :: rest => .ok ([x], rest)
    | ',' :: rest =>
      let (xs, rest) ← readItems fuel room (skipBlanks rest)
      .ok (x :: xs, rest)
    | rest => .error ⟨.comma, rest.length⟩

/-- Reads one or more members up to the closing brace. -/
def readMembers : (fuel room : Nat) → List Char → Except Flaw (List (Points × Json) × List Char)
  | 0, _, cs => .error ⟨.value, cs.length⟩
  | fuel + 1, room, cs =>
    match cs with
    | '"' :: rest => do
      let (name, rest) ← readString rest
      match skipBlanks rest with
      | ':' :: rest =>
        let (x, rest) ← readValue fuel room (skipBlanks rest)
        match skipBlanks rest with
        | '\x7d' :: rest => .ok ([(name, x)], rest)
        | ',' :: rest =>
          let (xs, rest) ← readMembers fuel room (skipBlanks rest)
          .ok ((name, x) :: xs, rest)
        | rest => .error ⟨.comma, rest.length⟩
      | rest => .error ⟨.colon, rest.length⟩
    | cs => .error ⟨.propertyName, cs.length⟩

end

/-- Reads a whole text, blanks around the value allowed. -/
def readChars (room : Nat) (cs : List Char) : Except Flaw Json := do
  let (value, rest) ← readValue (2 * cs.length + 2) room (skipBlanks cs)
  match skipBlanks rest with
  | [] => .ok value
  | rest => .error ⟨.extra, rest.length⟩

/-- Why something is no JSON value. -/
inductive Unreadable
  /-- The text does not follow the grammar. -/
  | malformed (message : String)
  | tooManyDigits (message : String)
  | tooDeep (message : String)
  /-- The bytes are no text. -/
  | undecodable (cause : Text.DecodeError)
  deriving Repr, DecidableEq

def Unreadable.message : Unreadable → String
  | .malformed message => message
  | .tooManyDigits message => message
  | .tooDeep message => message
  | .undecodable cause => cause.message

/-- What a flaw makes of a text. -/
def Flaw.unreadable (text : List Char) (flaw : Flaw) : Unreadable :=
  match flaw.cause with
  | .tooManyDigits _ => .tooManyDigits flaw.cause.message
  | .tooDeep _ => .tooDeep flaw.cause.message
  | _ => .malformed (flaw.message text)

/-- Reads a text, where a byte order mark is refused. The error is that of the first flaw. -/
def read (room : Nat) (text : String) : Except Unreadable Json :=
  let cs := text.toList
  if cs.head? = some '\uFEFF' then
    .error (Flaw.unreadable cs ⟨.byteOrderMark, cs.length⟩)
  else (readChars room cs).mapError (·.unreadable cs)

/-- Reads the text of a message body, whose bytes may be those of another encoding, and where one
byte order mark in front is dropped. -/
def readBody (room : Nat) (text : String) : Except Unreadable Json := do
  let cs ← (Text.reinterpret text).mapError .undecodable
  let cs := if cs.head? = some '\uFEFF' then cs.tail else cs
  (readChars room cs).mapError (·.unreadable cs)

end BlockFsck.Json
