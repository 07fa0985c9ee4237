import BlockFsck.Checker
import BlockFsck.Http.Codec
import BlockFsck.Http.Message

/-!
# The HTTP interface of a namespace

Each route is a program that asks the metadata service, so that the same interface serves any
namespace. Failures become status codes by their kind, and whatever has no code of its own is an
internal error.
-/

namespace BlockFsck.Http

/-- What an endpoint does: it asks the metadata service and may fail. -/
abbrev Endpoint := ExceptT Failure (Program Metadata) Response

def ask (q : Query) : ExceptT Failure (Program Metadata) q.Reply :=
  ExceptT.mk (Program.question (I := Metadata) (.query q))

/-! ## Parameters and bodies -/

/-- The issue with a parameter. -/
def parameterIssue (name : String) (complaint : Json.Complaint) (input : Json) : Json.Issue :=
  ⟨["query", name], complaint, input⟩

/-- A required text parameter. -/
def textParameter (r : Request) (name : String) : Json.Checked String :=
  match r.parameter? name with
  | some value => .valid value
  | none => .invalid [parameterIssue name .missing .null]

/-- A truth value that is false by default. -/
def truthParameter (r : Request) (name : String) : Json.Checked Bool :=
  match r.parameter? name with
  | none => .valid false
  | some word =>
    match Json.truthOfWord? word with
    | some value => .valid value
    | none => .invalid [parameterIssue name .unreadableTruth (.str word)]

def truthParameters (r : Request) (names : List String) : Json.Checked (List Bool) :=
  names.foldr (fun name rest => List.cons <$> truthParameter r name <*> rest) (.valid [])

/-- What goes on with what was read. The answer to a request with issues shows the values that they
are about, and fails if one of them is not finite. -/
def reading {α : Type} (x : Json.Checked α) (go : α → Endpoint) : Endpoint :=
  match x with
  | .valid a => go a
  | .invalid issues =>
    if issues.all (·.input.isFinite) then return .unprocessable issues
    else throw (.told .invalidValue "Out of range float values are not JSON compliant")

/-- What the body of a request holds by the grammar of JSON. -/
def bodyOf (room : Nat) (r : Request) : Except Json.Unreadable (Json.Checked Json) :=
  match r.body with
  | none | some (.text "") => .ok (Json.refuse .missing .null)
  | some body =>
    match body.read room with
    | .ok (.obj members) => .ok (.valid (.obj members))
    | .ok x => .ok (Json.refuse .notFields x)
    | .error (.malformed _) => .ok (Json.refuse .notJson (.obj []))
    | .error unreadable => .error unreadable

/-- Reads the object in the body of a request. -/
def readingBody {α : Type} (room : Nat) (r : Request) (fields : Json.Reading α)
    (go : α → Endpoint) : Endpoint :=
  match bodyOf room r with
  | .error _ => return .json 400 [("detail", .str "There was an error parsing the body")]
  | .ok (.invalid issues) => reading (Json.Checked.within "body" (.invalid issues)) go
  | .ok (.valid object) => reading ((fields object).within "body") go

/-! ## Endpoints -/

def success (value : Bool) : Response := .json 200 [("success", .bool value)]

def getEntry (r : Request) : Endpoint :=
  reading (textParameter r "path") fun path => do
    match ← ask (.resolve path) with
    | some entry => return { status := 200, content := .body (.json entry.toJson) }
    | none => throw (.namespaceRefused (.notFound path))

def getChildren (r : Request) : Endpoint :=
  reading (textParameter r "path") fun path => do
    let children ← ask (.listChildren path)
    return .json 200 [("path", .str path), ("children", .arr (children.map Entry.toJson))]

def getBlocks (r : Request) : Endpoint :=
  reading (textParameter r "path") fun path => do
    let record ← ask (.blockLocations path)
    return { status := 200, content := .body (.json record.toSentJson) }

def postRename (room : Nat) (r : Request) : Endpoint :=
  readingBody room r (fun x => Prod.mk <$> x.need "src" Json.text <*> x.need "dst" Json.text)
    fun (source, target) => do return success (← ask (.rename source target))

def postMkdirs (room : Nat) (r : Request) : Endpoint :=
  readingBody room r (fun x => x.need "path" Json.text) fun path => do
    return success (← ask (.mkdirs path))

def deleteEntry (r : Request) : Endpoint :=
  reading (Prod.mk <$> textParameter r "path" <*> truthParameter r "recursive")
    fun (path, recursive) => do return success (← ask (.delete path recursive))

def getCorruptFiles : Endpoint := do
  let files ← ask .corruptFiles
  return .json 200 [("files", .arr (files.map fun (file : String) => .str file))]

/-- The switches of a check, in the order in which they are read. -/
def switches : List String :=
  ["move", "delete", "openforwrite", "corruptfiles", "files", "blocks", "locations"]

def checkOptions (path : String) : List Bool → Options
  | [move, delete, openForWrite, listCorrupt, files, blocks, locations] =>
    { path, move, delete, openForWrite, listCorrupt, files, blocks, locations }
  | _ => { path }

/-- Runs a check next to the namespace; the report is the text of the answer. -/
def getCheck (depth : Nat) (r : Request) : Endpoint :=
  reading (truthParameters r switches) fun values => do
    match (checkOptions ((r.parameter? "path").getD "/") values).validate with
    | .error e => throw (.argument e)
    | .ok options =>
      let result ← ExceptT.mk (Checker.run options depth)
      return { Response.text 200 result.output with exitCode := some result.status.exitCode }

def getStatus : Endpoint :=
  return .json 200 [("status", .str "running"), ("service", .str "namespace")]

/-- Pages that describe the interface; what they say is no part of it. -/
def getPage : Endpoint := return .text 200 ""

def pages : List String := ["/docs", "/docs/oauth2-redirect", "/redoc", "/openapi.json"]

/-- The endpoints of each known path by method. -/
def routes (depth room : Nat) : List (String × List (String × (Request → Endpoint))) :=
  pages.map (·, [("GET", fun _ => getPage), ("HEAD", fun _ => getPage)]) ++
  [("/", [("GET", fun _ => getStatus)]),
    ("/namespace/entry", [("GET", getEntry), ("DELETE", deleteEntry)]),
    ("/namespace/children", [("GET", getChildren)]),
    ("/namespace/blocks", [("GET", getBlocks)]),
    ("/namespace/rename", [("POST", postRename room)]),
    ("/namespace/mkdirs", [("POST", postMkdirs room)]),
    ("/namespace/corrupt-files", [("GET", fun _ => getCorruptFiles)]),
    ("/fsck", [("GET", getCheck depth)])]

def methodsOf? (depth room : Nat) (path : String) :
    Option (List (String × (Request → Endpoint))) :=
  ((routes depth room).find? (·.1 = path)).map Prod.snd

/-! ## Failures -/

/-- The status and code that a kind of failure is answered with. -/
def errorCode? : FailureKind → Option (Int × String)
  | .invalidPath => some (400, "INVALID_PATH")
  | .entryNotFound => some (404, "ENTRY_NOT_FOUND")
  | .entryExists => some (409, "ENTRY_EXISTS")
  | .notDirectory => some (400, "NOT_A_DIRECTORY")
  | .isDirectory => some (400, "IS_A_DIRECTORY")
  | .unknownBlock => some (404, "UNKNOWN_BLOCK")
  | .unknownNode => some (404, "UNKNOWN_NODE")
  | .invalidArgument => some (400, "INVALID_ARGUMENT")
  | .namespaceOther => some (500, "INTERNAL_ERROR")
  | _ => none

/-- The answer to a request that failed with a code. -/
def errorResponse? (failure : Failure) : Option Response :=
  (errorCode? failure.kind).map fun (status, code) =>
    .json status [("detail", .str failure.message), ("code", .str code)]

/-- The answer to a request that failed in a way nobody foresaw. -/
def internalError : Response := .text 500 "Internal Server Error"

/-- A known path with slashes too many at its end. -/
def hasExtraSlash (depth room : Nat) (path : String) : Bool :=
  path ≠ "/" && path.endsWith "/" && (methodsOf? depth room (path.dropEndWhile '/').copy).isSome

/-- A foreseen answer, with which the request id comes back. Only the head of it is sent to one who
asks for no more. -/
def tagged (r : Request) (response : Response) : Response :=
  { response with
    content := if r.method = "HEAD" then .body (.text "") else response.content
    requestId := r.requestId }

/-- Answers one request. Walks go `depth` directories deep, and in a body there is room for `room`
lists and objects within each other. -/
def serve (depth room : Nat) (r : Request) : Program Metadata Response := do
  match methodsOf? depth room r.path with
  | none =>
    if hasExtraSlash depth room r.path then return tagged r (.text 307 "")
    else return tagged r (.json 404 [("detail", .str "Not Found")])
  | some methods =>
    match methods.find? (·.1 = r.method) with
    | none => return tagged r (.json 405 [("detail", .str "Method Not Allowed")])
    | some (_, endpoint) =>
      match ← (endpoint r).run with
      | .ok response => return tagged r response
      | .error failure =>
        match errorResponse? failure with
        | some response => return tagged r response
        | none => return internalError

end BlockFsck.Http
