import BlockFsck.Http.Codec
import BlockFsck.Json.Spelling
import BlockFsck.Metadata
import BlockFsck.Number
import BlockFsck.Remote.Wire

/-!
# The remote metadata service

Each query becomes one HTTP request, which is sent again after a server error, a connection error
or a timeout, each time after a longer delay. What comes back in the end is read as the query's
answer or as its failure.
-/

namespace BlockFsck.Remote

/-- How often and with what growth of the delay a request is repeated, as configured. -/
structure RetrySettings where
  maxRetries : Json
  backoff : Json
  deriving Inhabited

namespace RetrySettings

/-- Why a value cannot be added to a number. -/
def notAddable (value : Json) : String :=
  match value with
  | .str _ | .arr _ =>
    let name := value.typeName
    s!"can only concatenate {name} (not \"int\") to {name}"
  | .float _ => "'float' object cannot be interpreted as an integer"
  | _ => s!"unsupported operand type(s) for +: '{value.typeName}' and 'int'"

/-- The number of repetitions, if it is a whole one. -/
def retries (s : RetrySettings) : Except Failure Int :=
  match s.maxRetries with
  | .int n => .ok n
  | .bool b => .ok (if b then 1 else 0)
  | value => .error (.told .wrongType (notAddable value))

/-- The delay after the given attempt, counted from zero. -/
def delay (s : RetrySettings) (attempt : Nat) : Except Failure Number :=
  match Number.ofJson? s.backoff with
  | none =>
    .error <| .told .wrongType
      s!"unsupported operand type(s) for ** or pow(): '{s.backoff.typeName}' and 'int'"
  | some backoff =>
    match backoff.pow? attempt with
    | some delay => .ok delay
    | none => .error (.told .overflow "(34, 'Numerical result out of range')")

end RetrySettings

/-! ## What a response says -/

/-- The text of a body that is not JSON. -/
def bodyText : Http.Body → String
  | .text content => content
  | .json _ => ""

/-- What the response of a failed request says of the failure. -/
def describe (room : Nat) (r : Http.Response) : Except Failure String :=
  match r.sent.read room with
  | .ok (.obj members) =>
    let detail := ((Json.obj members).member? "detail").getD (.str "Unknown error")
    let code := ((Json.obj members).member? "code").getD (.str "UNKNOWN")
    .ok s!"HTTP {r.status} {code.spelled}: {detail.spelled}"
  | .ok value =>
    .error (.told .notObject s!"'{value.typeName}' object has no attribute 'get'")
  | .error (.tooDeep message) => .error (.unreadable (.tooDeep message))
  | .error _ =>
    let text := bodyText r.sent
    let detail := if text = "" then "Unknown error" else text
    .ok s!"HTTP {r.status} UNKNOWN: {detail}"

/-- Reads the answer out of the body of a response. -/
def answerIn {α : Type} (room : Nat) (form : Json.AnswerForm α) (r : Http.Response) :
    Except Failure α :=
  match r.sent.read room with
  | .error cause => .error (.unreadable cause)
  | .ok (.obj members) =>
    match form.fields (.obj members) with
    | .valid a => .ok a
    | .invalid issues => .error (.told .invalidAnswer (Json.Issue.report form.schema issues))
  | .ok value =>
    .error <| .told .wrongType <|
      s!"controller.schemas.namespace.{form.schema}() argument after ** must be a mapping, " ++
        s!"not {value.typeName}"

/-! ## Sending -/

/-- What the last attempt left behind. -/
inductive LastAttempt
  | none
  | response (r : Http.Response)
  | timeout
  | connection

/-- The failure of a request after its last attempt. -/
def givenUp (room : Nat) (label : String) (attempts : Int) : LastAttempt → Failure
  | .response r =>
    match describe room r with
    | .ok text => .unavailable s!"{label} failed after {attempts} attempts: {text}"
    | .error failure => failure
  | .timeout => .unavailable "Request timed out. Namespace service may be overloaded."
  | _ => .unavailable "Cannot connect to namespace service. Is it running?"

/-- Waits before the attempt after the given one, with a warning that says why. A pause of any
length that a double can hold is granted: the clock's own limit, at some three hundred years, and
its refusal of a negative one lie outside. -/
def waitAfter (settings : RetrySettings) (attempt : Nat) (total : Int) (id kind what : String) :
    Exchange Unit := do
  let delay ← ExceptT.mk (pure (settings.delay attempt))
  Exchange.log Log.warning
    (s!"{kind} error (attempt {attempt + 1}/{total}): {what}, " ++
      s!"retrying in {delay.text}s [request_id={id}]")
  match delay.toDouble? with
  | some seconds => Exchange.pause seconds
  | none => throw .overflow

/-- Sends a request, `left` more times at most after `attempt` times before; one whose address is
none fails as soon as it would be sent. -/
def attempts (room : Nat) (settings : RetrySettings) (label : String)
    (request : Except Failure Addressed) (id : String) (total : Int) (attempt : Nat)
    (last : LastAttempt) : (left : Nat) → Exchange Http.Response
  | 0 => throw (givenUp room label total last)
  | left + 1 => do
    match ← Exchange.send (← ExceptT.mk (pure request)) with
    | .ok r =>
      if r.status < 500 then return r
      if left ≠ 0 then
        waitAfter settings attempt total id "Server" s!"{label} status={r.status}"
      attempts room settings label request id total (attempt + 1) (.response r) left
    | .error (.broken failure) => throw failure
    | .error (.connection text) =>
      if left ≠ 0 then
        waitAfter settings attempt total id "Network" s!"{label} error=ConnectError"
      else
        Exchange.log Log.error
          s!"Network error (max retries exceeded): {label} error={text} [request_id={id}]"
      attempts room settings label request id total (attempt + 1) .connection left
    | .error (.timeout name text) =>
      if left ≠ 0 then
        waitAfter settings attempt total id "Network" s!"{label} error={name}"
      else
        Exchange.log Log.error
          s!"Network error (max retries exceeded): {label} error={text} [request_id={id}]"
      attempts room settings label request id total (attempt + 1) .timeout left

/-- How requests are sent: where the service is, and how often and when they are repeated. In an
answer there is room for `room` lists and objects within each other. -/
structure Client where
  address : Http.Address
  settings : RetrySettings
  room : Nat

namespace Client

/-- A request with its address. Parameters of its own come in the place of those of the service. -/
def addressed (c : Client) (request : Http.Request) (id : String) : Except Failure Addressed :=
  let target := do (← c.address.below request.path).asking request.query
  match target with
  | .ok address => .ok ⟨address, { request with requestId := some id }⟩
  | .error cause => .error (.badAddress cause)

/-- Sends a request under an id of its own until it is answered or given up. -/
def exchange (c : Client) (request : Http.Request) : Exchange Http.Response := do
  let id ← Exchange.freshId
  let total := (← ExceptT.mk (pure c.settings.retries)) + 1
  let label := s!"{request.method} {request.path}"
  attempts c.room c.settings label (c.addressed request id) id total 0 .none total.toNat

end Client

/-! ## Queries -/

/-- The request that carries a query. -/
def requestOf : Query → Http.Request
  | .resolve path => { method := "GET", path := "/namespace/entry", query := [("path", path)] }
  | .listChildren path =>
    { method := "GET", path := "/namespace/children", query := [("path", path)] }
  | .blockLocations path =>
    { method := "GET", path := "/namespace/blocks", query := [("path", path)] }
  | .rename source target =>
    { method := "POST", path := "/namespace/rename"
      body := some (.json (.obj [("src", .str source), ("dst", .str target)])) }
  | .mkdirs path =>
    { method := "POST", path := "/namespace/mkdirs"
      body := some (.json (.obj [("path", .str path)])) }
  | .delete path recursive =>
    { method := "DELETE", path := "/namespace/entry"
      query := ("path", path) :: if recursive then [("recursive", "true")] else [] }
  | .corruptFiles => { method := "GET", path := "/namespace/corrupt-files" }

/-- The response to a read, if it is a success. -/
def fetched (room : Nat) (path : Option String) (r : Http.Response) :
    Except Failure Http.Response :=
  match path with
  | some path =>
    if r.status = 404 then .error (.pathNotFound path)
    else if r.status = 200 then .ok r
    else (describe room r).bind (.error <| .unavailable ·)
  | none => if r.status = 200 then .ok r else (describe room r).bind (.error <| .unavailable ·)

namespace Client

/-- Reads the answer to a read. -/
def fetch {α : Type} (c : Client) (q : Query) (path : Option String) (form : Json.AnswerForm α) :
    Exchange α := do
  let r ← c.exchange (requestOf q)
  ExceptT.mk (pure (do answerIn c.room form (← fetched c.room path r)))

/-- Asks for a change; whatever is not a success is a refusal. -/
def change (c : Client) (q : Query) : Exchange Bool := do
  let request := requestOf q
  let r ← c.exchange request
  if r.status = 200 then ExceptT.mk (pure (answerIn c.room Json.successForm r))
  else
    let reason ← ExceptT.mk (pure (describe c.room r))
    Exchange.log Log.warning s!"{request.method} {request.path} refused: {reason}"
    return false

/-- The remote answer to a query. -/
def query (c : Client) : (q : Query) → Exchange q.Reply
  | .resolve path =>
    tryCatch (some <$> c.fetch (.resolve path) path Json.entryForm) fun failure =>
      if failure.isMissing then return none else throw failure
  | .listChildren path => c.fetch (.listChildren path) path Json.childrenForm
  | .blockLocations path => c.fetch (.blockLocations path) path Json.recordForm
  | .rename source target => c.change (.rename source target)
  | .mkdirs path => c.change (.mkdirs path)
  | .delete path recursive => c.change (.delete path recursive)
  | .corruptFiles => c.fetch .corruptFiles none Json.filesForm

/-- The metadata service at the other end of the wire. -/
def service (c : Client) : Metadata.Service (Program Wire) where
  query q := (c.query q).run
  log record := Program.question (I := Wire) (.log record)

end Client

end BlockFsck.Remote
