import BlockFsck.Entry
import BlockFsck.Json.Field
import BlockFsck.Record

/-!
# Entries and records as JSON

The JSON form of what the metadata service sends, written one way and read with the forgiving
rules for fields. Members that nobody asked for are ignored. Every entry and record is read back
from its own form (`ofJson_toJson`).
-/

namespace BlockFsck

namespace Entry

def toJson (e : Entry) : Json :=
  .obj [("path", .str e.path), ("kind", .str e.kind.text)]

/-- The kinds by their exact names. -/
def kindField : Json.Reading EntryKind := fun x =>
  Json.orRefuse (.notChoice ["file", "directory"]) x <|
    match x with
    | .str s => EntryKind.ofText? s.shown
    | _ => none

/-- The name of the schema that reports on entries give. -/
def schema : String := "EntryResponse"

def ofJson : Json.Reading Entry := Json.objectOf schema fun x =>
  Entry.mk <$> x.need "path" Json.text <*> x.need "kind" kindField

theorem ofJson_toJson (e : Entry) : ofJson e.toJson = .valid e := by
  simp [ofJson, toJson, Json.objectOf, Json.need, Json.text, kindField, Json.orRefuse,
    EntryKind.ofText?_text]

end Entry

namespace Replica

def toJson (r : Replica) : Json :=
  .obj [("node_id", .str r.node), ("length", .int r.length), ("live", .bool r.live),
    ("corrupt", .bool r.corrupt)]

def ofJson : Json.Reading Replica := Json.objectOf "ReplicaSchema" fun x =>
  Replica.mk <$> x.need "node_id" Json.text <*> x.need "length" Json.whole <*>
    x.optional "live" Json.truth true <*> x.optional "corrupt" Json.truth false

theorem ofJson_toJson (r : Replica) : ofJson r.toJson = .valid r := by
  simp [ofJson, toJson, Json.objectOf, Json.need, Json.optional, Json.text, Json.whole, Json.truth]

end Replica

namespace BlockRecord

def toJson (b : BlockRecord) : Json :=
  .obj [("block_id", .str b.id), ("length", .int b.length),
    ("replicas", .arr (b.replicas.map Replica.toJson)), ("corrupt", .bool b.corrupt)]

def ofJson : Json.Reading BlockRecord := Json.objectOf "BlockSchema" fun x =>
  BlockRecord.mk <$> x.need "block_id" Json.text <*> x.need "length" Json.whole <*>
    x.optional "replicas" (Json.listOf Replica.ofJson) [] <*>
    x.optional "corrupt" Json.truth false

theorem ofJson_toJson (b : BlockRecord) : ofJson b.toJson = .valid b := by
  simp [ofJson, toJson, Json.objectOf, Json.need, Json.optional, Json.text, Json.whole, Json.truth,
    Json.listOf_map Replica.ofJson_toJson]

end BlockRecord

namespace FileRecord

/-- The JSON form of a record with its time written in the given way. -/
def toJsonWith (modified : Json) (r : FileRecord) : Json :=
  .obj [("path", .str r.path), ("length", .int r.length), ("replication", .int r.replication),
    ("blocks", .arr (r.blocks.map BlockRecord.toJson)),
    ("open_for_write", .bool r.openForWrite), ("modification_time", modified)]

def toJson (r : FileRecord) : Json := r.toJsonWith (.float r.modified)

/-- The form that is sent, where a time that is not finite becomes null. -/
def toSentJson (r : FileRecord) : Json :=
  r.toJsonWith (if r.modified.toRat?.isSome then .float r.modified else .null)

/-- The name of the schema that reports on records give. -/
def schema : String := "FileRecordResponse"

def ofJson : Json.Reading FileRecord := Json.objectOf schema fun x =>
  FileRecord.mk <$> x.need "path" Json.text <*> x.need "length" Json.whole <*>
    x.need "replication" Json.whole <*>
    x.optional "blocks" (Json.listOf BlockRecord.ofJson) [] <*>
    x.optional "open_for_write" Json.truth false <*>
    x.optional "modification_time" Json.double (.finite 0)

theorem ofJson_toJson (r : FileRecord) : ofJson r.toJson = .valid r := by
  simp [ofJson, toJson, toJsonWith, Json.objectOf, Json.need, Json.optional, Json.text, Json.whole,
    Json.truth, Json.double, Json.listOf_map BlockRecord.ofJson_toJson]

end FileRecord

namespace Json

/-- How an answer is read, and the name that reports on it give its schema. -/
structure AnswerForm (α : Type) where
  schema : String
  fields : Reading α

/-- The answer of a request for a change. -/
def successForm : AnswerForm Bool := ⟨"OperationResponse", fun x => x.need "success" truth⟩

/-- The children of a directory, beside the directory's own path. -/
def childrenForm : AnswerForm (List Entry) :=
  ⟨"ChildrenResponse", fun x =>
    (fun _ children => children) <$> x.need "path" text <*>
      x.need "children" (listOf Entry.ofJson)⟩

/-- The paths of files. -/
def filesForm : AnswerForm (List String) :=
  ⟨"CorruptFilesResponse", fun x => x.need "files" (listOf text)⟩

def entryForm : AnswerForm Entry := ⟨Entry.schema, Entry.ofJson⟩

def recordForm : AnswerForm FileRecord := ⟨FileRecord.schema, FileRecord.ofJson⟩

end Json

end BlockFsck
