import BlockFsck.Json.Field
import BlockFsck.Text.AsciiName
import BlockFsck.Text.Percent

/-!
# Hosts

A host is four numbers, hexadecimal groups between brackets, or a name. `Host.ofChars` brings a host
into its usual form: lower case, in ASCII, percent signs for what must not stand by itself.
-/

namespace BlockFsck.Http

/-- What a text that is no host looks like. -/
inductive HostError
  | fourPart (host : String)
  | colons (host : String)
  | name (host : String)
  deriving Repr, DecidableEq

def HostError.message : HostError → String
  | .fourPart host => s!"Invalid IPv4 address: {Json.quoted host}"
  | .colons host => s!"Invalid IPv6 address: {Json.quoted host}"
  | .name host => s!"Invalid IDNA hostname: {Json.quoted host}"

namespace Host

open Json (digitsValue)

/-- Four numbers with dots between them. -/
def looksFourPart (cs : List Char) : Bool :=
  let parts := Path.pieces '.' cs
  parts.length = 4 && parts.all fun part => part ≠ [] && part.all Char.isDigit

/-- A number up to 255 without needless zeros. -/
def isOctet (digits : List Char) : Bool :=
  digits.length ≤ 3 && (digits.length = 1 || digits.head? ≠ some '0') && digitsValue digits ≤ 255

def isFourPart (cs : List Char) : Bool :=
  looksFourPart cs && (Path.pieces '.' cs).all isOctet

def isHexGroup (cs : List Char) : Bool :=
  cs ≠ [] && cs.length ≤ 4 && cs.all Text.isHexDigit

/-- The groups between colons, where four numbers at the end count as two groups. -/
def colonGroups? (cs : List Char) : Option (List (List Char)) :=
  let parts := Path.pieces ':' cs
  match parts.getLast? with
  | some last =>
    if parts.length < 3 then none
    else if last.contains '.' then
      if isFourPart last then some (parts.dropLast ++ [['0'], ['0']]) else none
    else some parts
  | none => none

/-- What stands on one side of a gap: groups, or nothing at all, which is a single empty group. -/
def isSide (groups : List (List Char)) : Bool := groups = [[]] || groups.all isHexGroup

def sideSize (groups : List (List Char)) : Nat := if groups = [[]] then 0 else groups.length

/-- Eight groups, or fewer around one gap of two colons. -/
def areGroups (groups : List (List Char)) : Bool :=
  let inner := groups.tail.dropLast
  match (inner.filter (· = [])).length with
  | 0 => groups.length = 8 && groups.all isHexGroup
  | 1 =>
    let gap := (inner.takeWhile (· ≠ [])).length + 1
    let before := groups.take gap
    let after := groups.drop (gap + 1)
    isSide before && isSide after && sideSize before + sideSize after < 8
  | _ => false

/-- Hexadecimal groups with colons, and a zone after a percent sign. -/
def isColonHost (cs : List Char) : Bool :=
  let zone := cs.dropWhile (· ≠ '%')
  (zone = [] || (zone.length ≠ 1 && !zone.tail.contains '%')) &&
    ((colonGroups? (cs.takeWhile (· ≠ '%'))).map areGroups).getD false

/-- The characters besides letters, digits and `-._~` that a name may have. -/
def isSafe (c : Char) : Bool := "!$&'()*+,;=\"`\x7b\x7d%|\\".toList.contains c

/-- The host in its usual form. -/
def ofChars (cs : List Char) : Except HostError String :=
  let host := String.ofList cs
  if looksFourPart cs then
    if isFourPart cs then .ok host else .error (.fourPart host)
  else if cs.head? = some '[' && cs.getLast? = some ']' && 1 < cs.length then
    let inner := cs.tail.dropLast
    if isColonHost inner then .ok (String.ofList inner) else .error (.colons host)
  else if cs.all (·.toNat < 128) then
    .ok (String.ofList (Text.percentEncode isSafe (cs.map Char.toLower)))
  else
    match Text.asciiName? (Text.lowerCase cs) with
    | some name => .ok (String.ofList name)
    | none => .error (.name host)

end Host

end BlockFsck.Http
