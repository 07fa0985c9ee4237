import BlockFsck.Json.Issue
import BlockFsck.Json.Reader

/-!
# Forgiving fields

How a typed field reads a value of another kind: a number may be written in a string, and a truth
value as a number or a word. Texts, lists and objects are read only from their own kind.
-/

namespace BlockFsck.Json

abbrev Reading (α : Type) := Json → Checked α

/-- The issue with a value that is received by itself. -/
def refuse {α : Type} (complaint : Complaint) (input : Json) : Checked α :=
  .invalid [⟨[], complaint, input⟩]

/-- What could be read of a value, or the complaint about it. -/
def orRefuse {α : Type} (complaint : Complaint) (input : Json) : Option α → Checked α
  | some a => .valid a
  | none => refuse complaint input

/-! ## Numbers in strings -/

/-- Blanks at the ends of a number in a string. -/
def isSpace (c : Char) : Bool :=
  (9 ≤ c.toNat && c.toNat ≤ 13) || c.toNat = 32 || c.toNat = 0x85 || c.toNat = 0xA0 ||
    c.toNat = 0x1680 || (0x2000 ≤ c.toNat && c.toNat ≤ 0x200A) || c.toNat = 0x2028 ||
    c.toNat = 0x2029 || c.toNat = 0x202F || c.toNat = 0x205F || c.toNat = 0x3000

def trimmed (cs : List Char) : List Char :=
  ((cs.dropWhile isSpace).reverse.dropWhile isSpace).reverse

/-- Splits a sign off the front. -/
def splitSign : List Char → Bool × List Char
  | '-' :: rest => (true, rest)
  | '+' :: rest => (false, rest)
  | cs => (false, cs)

/-- Two underscores stand side by side. -/
def hasDoubledUnderscore : List Char → Bool
  | '_' :: '_' :: _ => true
  | _ :: rest => hasDoubledUnderscore rest
  | [] => false

/-- The text without its underscores, which stand neither at an end nor side by side; `none` if
there are others or none. -/
def withoutUnderscores? (cs : List Char) : Option (List Char) :=
  if !cs.contains '_' || cs.head? = some '_' || cs.getLast? = some '_' ||
      hasDoubledUnderscore cs then none
  else some (cs.filter (· ≠ '_'))

/-- What follows the zeros, and the underscores between them, at the front of a number, where a
single zero is kept if no other digit follows. A minus sign may come after zeros. -/
def afterZeros (last : Char) : List Char → Option (List Char)
  | [] => some [last]
  | c :: rest =>
    if c = '0' ∨ c = '_' then afterZeros c rest
    else if c = '.' then some (last :: c :: rest)
    else if c = '-' ∨ c.isDigit then some (c :: rest)
    else none

/-- A number that does not start with a minus sign, without the zeros at its front. -/
def unsignedWithoutZeros? : List Char → Option (List Char)
  | [] => none
  | c :: rest =>
    if c = '0' then afterZeros c rest
    else if c = '-' ∨ c.isDigit then some (c :: rest)
    else none

/-- A number without the zeros at its front, which may follow a minus sign. -/
def withoutZeros? : List Char → Option (List Char)
  | '-' :: rest => (unsignedWithoutZeros? rest).map ('-' :: ·)
  | cs => unsignedWithoutZeros? cs

/-- A number without a fraction of zeros; `none` if it has another fraction. -/
def withoutFraction? (cs : List Char) : Option (List Char) :=
  match cs.dropWhile (· ≠ '.') with
  | [] => some cs
  | _ :: fraction =>
    if fraction ≠ [] ∧ fraction.all (· = '0') then some (cs.takeWhile (· ≠ '.')) else none

/-- A number in a string as JSON would write it: without a plus sign, zeros at the front, a
fraction of zeros, and underscores between digits. -/
def plainWhole? (cs : List Char) : Option (List Char) := do
  let cs ← match cs with
    | '+' :: '-' :: _ => none
    | '+' :: rest => some rest
    | cs => some cs
  let cs ← withoutFraction? (← withoutZeros? cs)
  return (withoutUnderscores? cs).getD cs

/-- A text starts with an integer that has too many digits, whatever follows. -/
def isOversized (cs : List Char) : Bool :=
  let digits := (splitSign cs).2.takeWhile Char.isDigit
  cs.head? ≠ some '+' && digits.head? ≠ some '0' && maxDigits < digits.length

/-- An integer as JSON writes it, if nothing else is in the text. -/
def exactWhole? (cs : List Char) : Option Int :=
  match readNumber cs with
  | some (.int n, []) => if isOversized cs then none else some n
  | _ => none

/-- A whole number in a string. -/
def wholeOfText (s : Points) : Checked Int :=
  let cs := s.shown.toList
  if isOversized cs then refuse .oversizedWhole (.str s)
  else orRefuse .unreadableWhole (.str s) <|
    exactWhole? cs <|> (plainWhole? (trimmed cs)).bind exactWhole?

/-- A decimal number, or one of the words for what is not finite. -/
def doubleOfChars? (cs : List Char) : Option Double := do
  let (negative, body) := splitSign cs
  let word := (String.ofList body).toLower
  if word = "inf" ∨ word = "infinity" then return .infinite negative
  if word = "nan" then return .nan negative
  let ds := body.takeWhile Char.isDigit
  let rest := body.dropWhile Char.isDigit
  let (fraction, rest) := match rest with
    | '.' :: rest => (rest.takeWhile Char.isDigit, rest.dropWhile Char.isDigit)
    | rest => ([], rest)
  if ds.isEmpty && fraction.isEmpty then none
  let (exponent, rest) := (readExponent rest).getD (0, rest)
  if rest.isEmpty then
    return decimalDouble negative (digitsValue (ds ++ fraction)) (exponent - fraction.length)
  else none

/-- A decimal number in a string, with blanks around it or with underscores, which do not count. -/
def doubleOfText? (s : String) : Option Double :=
  doubleOfChars? (trimmed s.toList) <|> (withoutUnderscores? s.toList).bind doubleOfChars?

/-! ## Fields -/

def trueWords : List String := ["1", "true", "t", "yes", "y", "on"]

def falseWords : List String := ["0", "false", "f", "no", "n", "off"]

/-- A truth value by its word, in any letter case. -/
def truthOfWord? (s : String) : Option Bool :=
  let word := s.toLower
  if trueWords.contains word then some true
  else if falseWords.contains word then some false
  else none

/-- The integer that a double is, if it fits 64 bits. -/
def wholeOfDouble (x : Double) : Checked Int :=
  match x.toRat? with
  | none => refuse .notFinite (.float x)
  | some q =>
    if q.den ≠ 1 then refuse .fractional (.float x)
    else if -Int.pow 2 63 < q.num ∧ q.num < Int.pow 2 63 then .valid q.num
    else refuse .oversizedWhole (.float x)

/-- The truth value that one of the integers zero and one stands for. -/
def truthOfWhole (input : Json) (n : Int) : Checked Bool :=
  if n = 0 then .valid false
  else if n = 1 then .valid true
  else refuse .unreadableTruth input

def truth : Reading Bool
  | .bool b => .valid b
  | .str s => orRefuse .unreadableTruth (.str s) (truthOfWord? s.shown)
  | .int n =>
    if -Int.pow 2 63 ≤ n ∧ n < Int.pow 2 63 then truthOfWhole (.int n) n
    else refuse .notTruth (.int n)
  | .float x =>
    match wholeOfDouble x with
    | .valid n => truthOfWhole (.float x) n
    | .invalid _ => refuse .notTruth (.float x)
  | x => refuse .notTruth x

/-- A whole number, also from an integral double that fits 64 bits. -/
def whole : Reading Int
  | .int n => .valid n
  | .bool b => .valid (if b then 1 else 0)
  | .float x => wholeOfDouble x
  | .str s => wholeOfText s
  | x => refuse .notWhole x

def double : Reading Double
  | .float x => .valid x
  | .int n => orRefuse .notNumber (.int n) (Double.ofInt? n)
  | .bool b => .valid (.finite (if b then 1 else 0))
  | .str s => orRefuse .unreadableNumber (.str s) (doubleOfText? s.shown)
  | x => refuse .notNumber x

def text : Reading String
  | .str s => .valid s.shown
  | x => refuse .notText x

/-- The items of a list; `none` for anything else. -/
def items? : Json → Option (List Json)
  | .arr items => some items
  | _ => none

/-- Reads the items of a list, the first of which has the given index. -/
def itemsFrom {α : Type} (item : Reading α) (index : Nat) : List Json → Checked (List α)
  | [] => .valid []
  | x :: rest => List.cons <$> (item x).within (toString index) <*> itemsFrom item (index + 1) rest

def listOf {α : Type} (item : Reading α) : Reading (List α)
  | .arr items => itemsFrom item 0 items
  | x => refuse .notList x

/-- A list is read back when each of its items is. -/
theorem listOf_map {α : Type} {item : Reading α} {toJson : α → Json}
    (h : ∀ a, item (toJson a) = .valid a) (xs : List α) :
    listOf item (.arr (xs.map toJson)) = .valid xs := by
  show itemsFrom item 0 (xs.map toJson) = .valid xs
  generalize 0 = index
  induction xs generalizing index with
  | nil => rfl
  | cons a xs ih => simp [itemsFrom, h, ih]

/-- An object, whose members are read by `fields`. -/
def objectOf {α : Type} (schema : String) (fields : Reading α) : Reading α
  | .obj members => fields (.obj members)
  | x => refuse (.notObject schema) x

/-- A member that must be there. -/
def need {α : Type} (name : String) (field : Reading α) (x : Json) : Checked α :=
  match x.member? name with
  | none => .invalid [⟨[name], .missing, x⟩]
  | some value => (field value).within name

/-- A member that has a default value. -/
def optional {α : Type} (name : String) (field : Reading α) (missing : α) (x : Json) : Checked α :=
  match x.member? name with
  | none => .valid missing
  | some value => (field value).within name

end BlockFsck.Json
