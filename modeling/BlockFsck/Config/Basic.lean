import BlockFsck.Http.Address
import BlockFsck.Json.Reader
import BlockFsck.Json.Spelling
import BlockFsck.Json.Writer
import BlockFsck.Number
import BlockFsck.Table

/-!
# Configuration

A configuration is a table of JSON values, the defaults overridden by what a file holds. A file
holds an object, or a list of pairs in place of one.
-/

namespace BlockFsck

/-- The key of a setting. A list of pairs can have keys that are not texts. -/
inductive SettingKey
  | text (name : Points)
  | null
  | truth (value : Bool)
  | number (value : Number)
  deriving DecidableEq

namespace SettingKey

def ofJson? : Json → Option SettingKey
  | .str s => some (.text s)
  | .null => some .null
  | .bool b => some (.truth b)
  | .int n => some (.number (.int n))
  | .float x => some (.number (.double x))
  | _ => none

def toJson : SettingKey → Json
  | .text s => .str s
  | .null => .null
  | .truth b => .bool b
  | .number (.int n) => .int n
  | .number (.double x) => .float x

/-- Keys that are one number, or one text, are one key. -/
def same (k l : SettingKey) : Bool := k = l || k.toJson.sameScalar l.toJson

/-- The key as the name of a member in a file. -/
def written : SettingKey → Points
  | .text s => s
  | key => Json.compact key.toJson

open Json in
/-- The key in a file and what stands before it. -/
def chunks (before : List Char) (key : SettingKey) : List Chunk :=
  match key with
  | .number (.int n) => [.int (before ++ ['"']) n ['"', ':', ' ']]
  | .number (.double _) => [.level 2, .chars (before ++ stringChars key.written ++ [':', ' '])]
  | key => [.chars (before ++ stringChars key.written ++ [':', ' '])]

end SettingKey

structure Config where
  settings : Table SettingKey Json

/-- Why the content of a file is not a configuration. -/
inductive ConfigError
  | notText
  | notTable
  | badElement (index length : Nat)
  | badKey
  /-- A number is too long or lists lie too deep within each other. -/
  | overLimit (cause : Json.Unreadable)
  deriving Repr, DecidableEq

def ConfigError.message : ConfigError → String
  | .notText => "the file is not UTF-8"
  | .notTable => "the file holds no table of settings"
  | .badElement index length =>
    s!"dictionary update sequence element #{index} has length {length}; 2 is required"
  | .badKey => "a list or an object cannot be a key"
  | .overLimit cause => cause.message

namespace Config

def defaultSettings : List (String × Json) :=
  [("namenode_host", .str "localhost"), ("namenode_port", .int 8000), ("timeout", .int 30),
    ("max_retries", .int 3), ("retry_backoff_multiplier", .int 2), ("log_level", .str "WARNING"),
    ("quarantine_dir", .str "/lost+found")]

def default : Config := ⟨⟨defaultSettings.map fun (name, value) => (.text name, value)⟩⟩

def get? (c : Config) (name : Points) : Option Json := c.settings.get? (.text name)

/-- The value of a setting, or the one that stands for a missing one. -/
def getOr (c : Config) (name : Points) (missing : Json) : Json := (c.get? name).getD missing

def set (c : Config) (name : Points) (value : Json) : Config :=
  ⟨c.settings.set (.text name) value⟩

/-- The key as it was first written. -/
def keyOf (c : Config) (key : SettingKey) : SettingKey :=
  (c.settings.keys.find? key.same).getD key

/-- Sets the value of a key. -/
def put (c : Config) (key : SettingKey) (value : Json) : Config :=
  ⟨c.settings.set (c.keyOf key) value⟩

/-- The value of a key, if it has one, and the configuration without it. -/
def take (c : Config) (key : SettingKey) : Option Json × Config :=
  (c.settings.get? (c.keyOf key), ⟨c.settings.erase (c.keyOf key)⟩)

def setAll (c : Config) (pairs : List (SettingKey × Json)) : Config :=
  pairs.foldl (fun c (key, value) => c.put key value) c

/-! ## Settings -/

/-- The host and the port of the service, as they are configured. -/
def authority (c : Config) : Points :=
  let host := c.getOr "namenode_host" (.str "localhost")
  let port := c.getOr "namenode_port" (.int 8000)
  host.formatted ++ Points.ofText ":" ++ port.formatted

def baseUrl (c : Config) : Points := Points.ofText "http://" ++ c.authority

/-- Where the service is, if the configured address is one. -/
def address (c : Config) : Except Http.AddressError Http.Address := do
  (← Http.Address.ofText c.authority.shown).rooted

def timeout (c : Config) : Json := c.getOr "timeout" (.int 30)

def maxRetries (c : Config) : Json := c.getOr "max_retries" (.int 3)

def backoff (c : Config) : Json := c.getOr "retry_backoff_multiplier" (.int 2)

def logLevel (c : Config) : Json := c.getOr "log_level" (.str "WARNING")

def quarantine (c : Config) : Json := c.getOr "quarantine_dir" (.str "/lost+found")

/-- Points to another service; no port leaves the port as it is. -/
def setService (c : Config) (host : Json) (port : Json) : Config :=
  let c := c.set "namenode_host" host
  match port with
  | .null => c
  | port => c.set "namenode_port" port

/-! ## Text -/

def toJson (c : Config) : Json :=
  .obj (c.settings.entries.map fun (key, value) => (key.written, value))

open Json in
/-- The steps in which the settings are written. -/
def chunks (c : Config) : List Chunk :=
  let member := fun (before : List Char) (e : SettingKey × Json) =>
    e.1.chunks before ++ e.2.chunks 1 []
  match c.settings.entries with
  | [] => [.chars [], .level 0, .chars ['\x7b', '\x7d']]
  | e :: rest =>
    .chars [] :: .level 1 :: .chars ('\x7b' :: lineBreak 1) :: member [] e ++
      rest.flatMap (member (',' :: lineBreak 1)) ++ [.chars (lineBreak 0 ++ ['\x7d'])]

def text (c : Config) : String := String.ofList (Json.textOf c.chunks)

/-- The two parts of an element of a list of pairs. -/
def pair (index : Nat) : Json → Except ConfigError (SettingKey × Json)
  | .arr [key, value] =>
    match SettingKey.ofJson? key with
    | some key => .ok (key, value)
    | none => .error .badKey
  | .arr items => .error (.badElement index items.length)
  | .str s =>
    match s with
    | [a, b] => .ok (.text [a], .str [b])
    | points => .error (.badElement index points.length)
  | .obj [(a, _), (b, _)] => .ok (.text a, .str b)
  | .obj members => .error (.badElement index members.length)
  | _ => .error .notTable

def pairsFrom (index : Nat) : List Json → Except ConfigError (List (SettingKey × Json))
  | [] => .ok []
  | item :: rest => do
    let first ← pair index item
    return first :: (← pairsFrom (index + 1) rest)

/-- The settings that a JSON value holds. -/
def pairs : Json → Except ConfigError (List (SettingKey × Json))
  | .obj members => .ok (members.map fun (name, value) => (.text name, value))
  | .arr items => pairsFrom 0 items
  | .str [] => .ok []
  | .str _ => .error (.badElement 0 1)
  | _ => .error .notTable

/-- What the content of a file amounts to. -/
inductive Content
  | config (c : Config)
  /-- No JSON, to be put aside. -/
  | broken (reason : String)
  | refused (error : ConfigError)

/-- Reads the content of a file, where there is room for so many lists and objects within each
other. -/
def ofBytes (room : Nat) (bytes : ByteArray) : Content :=
  match String.fromUTF8? bytes with
  | none => .refused .notText
  | some text =>
    match Json.read room text with
    | .error (.malformed reason) => .broken reason
    | .error cause => .refused (.overLimit cause)
    | .ok value =>
      match pairs value with
      | .ok pairs => .config (default.setAll pairs)
      | .error e => .refused e

end Config

end BlockFsck
