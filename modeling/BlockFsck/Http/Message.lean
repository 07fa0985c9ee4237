import BlockFsck.Http.Address
import BlockFsck.Json.Issue
import BlockFsck.Json.Reader
import BlockFsck.Json.Spelling

/-!
# HTTP messages

Requests and responses as far as the metadata service uses them: parameters already decoded, and
a body that is a JSON value or a text.
-/

namespace BlockFsck.Http

/-- What a body holds. -/
inductive Body
  | json (value : Json)
  | text (content : String)
  deriving Inhabited

/-- The JSON value of a body, or why there is none. There is room for so many lists and objects
within each other. -/
def Body.read (room : Nat) : Body → Except Json.Unreadable Json
  | .json value => .ok value
  | .text content => Json.readBody room content

structure Request where
  method : String
  path : String
  query : List (String × String) := []
  body : Option Body := none
  requestId : Option String := none
  deriving Inhabited

/-- A character by its code point. -/
def escapedChar (c : Char) : String :=
  let escape := fun (mark : Char) (width : Nat) =>
    String.ofList ('\\' :: mark :: Json.hexText width c.toNat)
  if c.toNat < 0x100 then escape 'x' 2
  else if c.toNat < 0x10000 then escape 'u' 4
  else escape 'U' 8

/-- Why a text cannot be the value of a header, which is ASCII: the first stretch that is not. -/
def headerFault? (value : String) : Option String :=
  let isForeign := fun (c : Char) => 0x80 ≤ c.toNat
  let start := (value.toList.takeWhile (!isForeign ·)).length
  match (value.toList.drop start).takeWhile isForeign with
  | [] => none
  | [c] =>
    some <| s!"'ascii' codec can't encode character '{escapedChar c}' in position {start}: " ++
      "ordinal not in range(128)"
  | stretch =>
    some <| s!"'ascii' codec can't encode characters in position {start}-" ++
      s!"{start + stretch.length - 1}: ordinal not in range(128)"

/-- The request as the service at an address sees it. -/
def Request.at (r : Request) (address : Address) : Request :=
  { r with path := address.plainPath, query := address.parameters }

/-- The value of a parameter, of which the last one counts. -/
def Request.parameter? (r : Request) (name : String) : Option String :=
  (r.query.reverse.find? (·.1 = name)).map Prod.snd

inductive Content
  | body (body : Body)
  | issues (issues : List Json.Issue)
  deriving Inhabited

structure Response where
  status : Int
  content : Content
  exitCode : Option Int := none
  requestId : Option String := none
  deriving Inhabited

namespace Response

def json (status : Int) (members : List (Points × Json)) : Response :=
  { status, content := .body (.json (.obj members)) }

def text (status : Int) (content : String) : Response :=
  { status, content := .body (.text content) }

/-- The answer to a request with parts that are missing or unreadable. -/
def unprocessable (issues : List Json.Issue) : Response :=
  { status := 422, content := .issues issues }

/-- What is sent of the content. -/
def sent (r : Response) : Body :=
  match r.content with
  | .body body => body
  | .issues issues =>
    .json <| .obj [("detail", .arr (issues.map fun i =>
      .obj [("type", .str i.complaint.code),
        ("loc", .arr (i.location.map fun (name : String) => .str name))]))]

end Response

end BlockFsck.Http
