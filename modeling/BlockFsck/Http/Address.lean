import BlockFsck.Http.Host
import BlockFsck.Http.Parameters
import BlockFsck.Text.Digit

/-!
# Addresses of services

An address names a host and, where it is not the usual one, a port, and may have a path below which
the service lies, a query, and a fragment. It is read as `http://host:port/path?query#fragment` and
brought into its usual form: letter case, percent signs for what must not stand by itself, names in
ASCII. `Address.read` reads references too, which leave out parts at the front. `Address.below` is
the address of a request.
-/

namespace BlockFsck.Http

structure Address where
  /-- Who asks, if that is told. -/
  user : String := ""
  host : String
  port : Option Int := none
  path : String := ""
  query : Option String := none
  fragment : Option String := none
  deriving Repr, DecidableEq

inductive AddressError
  | tooLong
  | unprintable (c : Char) (position : Nat)
  | port (text : String)
  | host (error : HostError)
  | partTooLong (part : String)
  | relative (start : String)
  deriving Repr, DecidableEq

def AddressError.message : AddressError → String
  | .tooLong => "URL too long"
  | .unprintable c position =>
    s!"Invalid non-printable ASCII character in URL, {Json.quoted (String.singleton c)} " ++
      s!"at position {position}."
  | .port text => s!"Invalid port: {Json.quoted text}"
  | .host error => error.message
  | .partTooLong part => s!"URL component '{part}' too long"
  | .relative start => s!"Relative URLs cannot have a path starting with '{start}'"

namespace Address

/-- No address, and no part of one, is longer. -/
def maxLength : Nat := 65536

def isSafeInUser : Char → Bool := Text.isPlainExcept "\"#<>?`\x7b\x7d/;=@[\\]^|"

def isSafeInPath : Char → Bool := Text.isPlainExcept "\"#<>?`\x7b\x7d"

def isSafeInQuery : Char → Bool := Text.isPlainExcept "\"#<>"

def isSafeInFragment : Char → Bool := Text.isPlainExcept "\"<>`"

/-! ## Reading -/

/-- Digits with single underscores between them, without the underscores. -/
def groupedDigits? : List Char → Option (List Char)
  | [] => none
  | [c] => if c.isDigit then some [c] else none
  | c :: '_' :: rest => if c.isDigit then (groupedDigits? rest).map (c :: ·) else none
  | c :: rest => if c.isDigit then (groupedDigits? rest).map (c :: ·) else none

/-- The usual port of a scheme. -/
def usualPort? : String → Option Int
  | "ftp" => some 21
  | "http" | "ws" => some 80
  | "https" | "wss" => some 443
  | _ => none

/-- The port, in digits of any script; none for the usual one and where none is given. -/
def readPort (scheme : String) (cs : List Char) : Except AddressError (Option Int) :=
  if cs = [] then .ok none
  else
    let (negative, body) := Json.splitSign (Json.trimmed (cs.map Text.plainDigit))
    match groupedDigits? body with
    | some ds =>
      let n : Int := Json.digitsValue ds
      let port := if negative then -n else n
      if Json.maxDigits < ds.length then .error (.port (String.ofList cs))
      else .ok (if usualPort? scheme = some port then none else some port)
    | none => .error (.port (String.ofList cs))

/-- The parts of a text before and after the last of the given characters, if there is one. -/
def splitLast? (c : Char) (cs : List Char) : Option (List Char × List Char) :=
  if cs.contains c then
    let after := (cs.reverse.takeWhile (· ≠ c)).reverse
    some (cs.take (cs.length - after.length - 1), after)
  else none

/-- The host at the front of a text, and what follows it. Brackets hold what they enclose together.
-/
def splitHost (cs : List Char) : List Char × List Char :=
  match cs.head?, splitLast? ']' cs with
  | some '[', some (inner, after) => (inner ++ [']'], after)
  | _, _ => (cs.takeWhile fun c => c ≠ ':' && c ≠ '@', cs.dropWhile fun c => c ≠ ':' && c ≠ '@')

/-- The segments of a path without those that are one dot; two dots take a segment back. Those that
are done are given with the last one first. -/
def withoutDots (done : List (List Char)) : List (List Char) → List (List Char)
  | [] => done.reverse
  | segment :: rest =>
    if segment = ['.'] then withoutDots done rest
    else if segment = ['.', '.'] then
      withoutDots (if done = [[]] then done else done.tail) rest
    else withoutDots (segment :: done) rest

def encodePath (cs : List Char) : String :=
  let segments := withoutDots [] (Path.pieces '/' cs)
  String.ofList (Text.percentEncode isSafeInPath (List.intercalate ['/'] segments))

def encodeQuery (cs : List Char) : String := String.ofList (Text.percentEncode isSafeInQuery cs)

def encodeFragment (cs : List Char) : String :=
  String.ofList (Text.percentEncode isSafeInFragment cs)

/-- A text up to a character, and what follows that character if it is there. -/
def splitFirst (c : Char) (cs : List Char) : List Char × Option (List Char) :=
  (cs.takeWhile (· ≠ c), if cs.contains c then some (cs.dropWhile (· ≠ c)).tail else none)

/-- A scheme with a colon at the front of a text, and what follows; an empty one is none. -/
def splitScheme (cs : List Char) : List Char × List Char :=
  let scheme := cs.takeWhile fun c => c.isAlphanum || c = '+' || c = '.' || c = '-'
  match cs.drop scheme.length with
  | ':' :: rest =>
    if (scheme.head?.map Char.isAlpha).getD true then (scheme, rest) else ([], cs)
  | _ => ([], cs)

/-- Who asks, the host and the port at the front of a text, if there are any, and what follows. -/
def splitAuthority (cs : List Char) : List Char × List Char :=
  let isEnd := fun (c : Char) => c = '/' || c = '?' || c = '#'
  match cs with
  | '/' :: '/' :: rest => (rest.takeWhile (!isEnd ·), rest.dropWhile (!isEnd ·))
  | cs => ([], cs)

/-- A path without a scheme and a host before it must not look as if it had them. -/
def checkRelative (path : List Char) : Except AddressError Unit :=
  match path with
  | '/' :: '/' :: _ => .error (.relative "//")
  | ':' :: _ => .error (.relative ":")
  | _ => .ok ()

/-- Reads an address or a reference, and says which scheme it has. -/
def read (text : String) : Except AddressError (String × Address) := do
  let cs := text.toList
  if maxLength < cs.length then throw .tooLong
  match cs.find? (fun c => c.toNat < 32 || c.toNat = 127) with
  | some c => throw (.unprintable c (cs.takeWhile (· ≠ c)).length)
  | none => pure ()
  let (scheme, rest) := splitScheme cs
  let (authority, rest) := splitAuthority rest
  let (location, fragment) := splitFirst '#' rest
  let (path, query) := splitFirst '?' location
  let (user, rest) := (splitLast? '@' authority).getD ([], authority)
  let (host, rest) := splitHost rest
  let user := String.ofList (Text.percentEncode isSafeInUser user)
  let host ← (Host.ofChars host).mapError .host
  let port ← readPort (String.ofList scheme) (if rest.head? = some ':' then rest.tail else rest)
  let isRelative := scheme = [] && user = "" && host = "" && port.isNone
  if isRelative then checkRelative path
  return (String.ofList scheme, {
    user, host, port
    path := if isRelative then String.ofList (Text.percentEncode isSafeInPath path)
      else encodePath path
    query := query.map encodeQuery
    fragment := fragment.map encodeFragment })

/-- Reads an address after its scheme. -/
def ofText (text : String) : Except AddressError Address :=
  (read ("http://" ++ text)).map Prod.snd

/-! ## Writing -/

/-- The host with the port and who asks. -/
def authority (a : Address) : String :=
  let user := if a.user = "" then "" else a.user ++ "@"
  let host := if a.host.toList.contains ':' then "[" ++ a.host ++ "]" else a.host
  let port := match a.port with
    | some n => s!":{n}"
    | none => ""
  user ++ host ++ port

/-- The address without its query and what follows that. -/
def base (a : Address) : String :=
  "http:" ++ (if a.authority = "" then "" else "//" ++ a.authority) ++ a.path

/-- The whole address, or all of it before the first question mark. -/
def unasked (a : Address) : String :=
  match a.query, a.fragment with
  | none, some fragment =>
    String.ofList ((a.base ++ "#" ++ fragment).toList.takeWhile (· ≠ '?'))
  | _, _ => a.base

/-- What is asked for at the host: the path and the query. -/
def location (a : Address) : String :=
  (if a.path = "" then "/" else a.path) ++ (a.query.map ("?" ++ ·)).getD ""

/-- The path that the service sees: percent signs are read by the sender and by the receiver. -/
def plainPath (a : Address) : String :=
  let path := if a.path = "" then ['/'] else a.path.toList
  String.ofList (Text.percentDecode (Text.percentDecode path))

/-- The parameters that the service sees. -/
def parameters (a : Address) : List (String × String) := Parameters.ofText (a.query.getD "")

/-! ## Going on from an address -/

/-- The address, if none of its parts is too long. -/
def checked (a : Address) : Except AddressError Address :=
  let parts := [("authority", a.authority), ("path", a.path), ("query", a.query.getD ""),
    ("fragment", a.fragment.getD "")]
  match parts.find? fun (_, text) => maxLength < text.length with
  | some (part, _) => .error (.partTooLong part)
  | none => .ok a

/-- Another path and query at the same host. -/
def withLocation (a : Address) (location : String) : Except AddressError Address :=
  let (path, query) := splitFirst '?' location.toList
  let target := { a with path := String.ofList path, query := query.map String.ofList }
  target.checked.map fun a => { a with path := encodePath path }

/-- An address that ends in a slash, so that paths can be added. -/
def rooted (a : Address) : Except AddressError Address :=
  if a.location.endsWith "/" then .ok a else a.withLocation (a.location ++ "/")

/-- What a path names at a rooted address. -/
def below (a : Address) (path : String) : Except AddressError Address :=
  a.withLocation (a.location ++ (path.dropWhile '/').copy)

/-- What a reference names at a rooted address. One that is an address already names that, and of
others only the path and the query matter. -/
def referred (a : Address) (reference : String) : Except AddressError Address := do
  let (scheme, target) ← read reference
  if scheme ≠ "" && target.host ≠ "" then return target
  else a.below target.location

/-- The address with other parameters; without any it stays. -/
def asking (a : Address) (pairs : List (String × String)) : Except AddressError Address :=
  if pairs = [] then .ok a else ({ a with query := some (Parameters.text pairs) }).checked

end Address

end BlockFsck.Http
