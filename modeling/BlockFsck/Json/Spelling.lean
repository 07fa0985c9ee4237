import BlockFsck.Decimal
import BlockFsck.Json.Value
import BlockFsck.Text.Printable

/-!
# Values inside sentences

How a message spells a value: a text by itself stands as it is, and inside a list or an object it
is quoted, with escapes for the characters that do not print.
-/

namespace BlockFsck.Json

def hexText (width n : Nat) : List Char :=
  let ds := Nat.toDigits 16 n
  List.replicate (width - ds.length) '0' ++ ds

def quotedChar (quote c : Char) : List Char :=
  if c = quote ∨ c = '\\' then ['\\', c]
  else if c = '\n' then ['\\', 'n']
  else if c = '\r' then ['\\', 'r']
  else if c = '\t' then ['\\', 't']
  else if Text.isPrintable c then [c]
  else if c.toNat < 0x100 then '\\' :: 'x' :: hexText 2 c.toNat
  else if c.toNat < 0x10000 then '\\' :: 'u' :: hexText 4 c.toNat
  else '\\' :: 'U' :: hexText 8 c.toNat

def quotedPoint (quote : Char) (p : CodePoint) : List Char :=
  match p.char? with
  | some c => quotedChar quote c
  | none => '\\' :: 'u' :: hexText 4 p

/-- A text between single quotes, or between double quotes when only single ones occur in it. -/
def quoted (s : Points) : String :=
  let quote := if s.contains (.ofChar '\'') && !s.contains (.ofChar '"') then '"' else '\''
  String.ofList (quote :: s.flatMap (quotedPoint quote) ++ [quote])

mutual

/-- A value inside a list or an object. -/
def spelledInside : Json → String
  | .null => "None"
  | .bool b => if b then "True" else "False"
  | .int n => toString n
  | .float x => x.shortest
  | .str s => quoted s
  | .arr items => "[" ++ String.intercalate ", " (spelledItems items) ++ "]"
  | .obj members => "\x7b" ++ String.intercalate ", " (spelledMembers members) ++ "\x7d"

def spelledItems : List Json → List String
  | [] => []
  | x :: xs => spelledInside x :: spelledItems xs

def spelledMembers : List (Points × Json) → List String
  | [] => []
  | (name, x) :: xs => (quoted name ++ ": " ++ spelledInside x) :: spelledMembers xs

end

/-- A value by itself, where a text needs no quotes. -/
def formatted : Json → Points
  | .str s => s
  | x => spelledInside x

def spelled (x : Json) : String := x.formatted.shown

/-- The name of a value's type, as a message tells it. -/
def typeName : Json → String
  | .null => "NoneType"
  | .bool _ => "bool"
  | .int _ => "int"
  | .float _ => "float"
  | .str _ => "str"
  | .arr _ => "list"
  | .obj _ => "dict"

end BlockFsck.Json
