import BlockFsck.Http.Codec
import BlockFsck.Proofs.Namespace.Reachable
import BlockFsck.Scenario.Record
import BlockFsck.Scenario.Step

/-!
# What scenarios can tell

Every operation has a step that is read as it, that fits and does not give up, so that scenarios
lead to every namespace that operations lead to. Entries and records are read from their JSON form.
-/

namespace BlockFsck.Scenario

private def name (text : String) : Json := .str text

private def names (texts : List String) : Json := .arr (texts.map name)

private def orNull (x : Option Json) : Json := x.getD .null

/-- The fields of the step that names the operation. -/
def fields : Operation → List (Points × Json)
  | .resolve path => [("do", .str "resolve"), ("path", .str path)]
  | .listChildren path => [("do", .str "list_children"), ("path", .str path)]
  | .blockLocations path => [("do", .str "get_block_locations"), ("path", .str path)]
  | .rename source target => [("do", .str "rename"), ("src", .str source), ("dst", .str target)]
  | .mkdirs path => [("do", .str "mkdirs"), ("path", .str path)]
  | .delete path recursive =>
    [("do", .str "delete"), ("path", .str path), ("recursive", .bool recursive)]
  | .corruptFiles => [("do", .str "list_corrupt_files")]
  | .registerNode node live =>
    [("do", .str "register_node"), ("node_id", .str node), ("live", .bool live)]
  | .setNodeLive node live =>
    [("do", .str "set_node_live"), ("node_id", .str node), ("live", .bool live)]
  | .liveNodes => [("do", .str "live_nodes")]
  | .createFile path length replication nodes lease =>
    [("do", .str "create_file"), ("path", .str path), ("length", .int length),
      ("replication", orNull (replication.map .int)), ("nodes", orNull (nodes.map names)),
      ("lease_holder", orNull (lease.map name))]
  | .append path length nodes =>
    [("do", .str "append"), ("path", .str path), ("length", .int length),
      ("nodes", orNull (nodes.map names))]
  | .openForWrite path holder =>
    [("do", .str "open_for_write"), ("path", .str path),
      ("holder", orNull (holder.map name))]
  | .closeFile path => [("do", .str "close_file"), ("path", .str path)]
  | .blockIds path => [("do", .str "block_ids"), ("path", .str path)]
  | .removeReplica block node =>
    [("do", .str "remove_replica"), ("block_id", .str block), ("node_id", .str node)]
  | .addReplica block node =>
    [("do", .str "add_replica"), ("block_id", .str block), ("node_id", .str node)]
  | .reportBadReplica block node =>
    [("do", .str "report_bad_replica"), ("block_id", .str block), ("node_id", .str node)]
  | .setBlockLength block length =>
    [("do", .str "set_block_length"), ("block_id", .str block), ("length", .int length)]
  | .setClock time => [("do", .str "clock"), ("value", .float time)]

@[simp] private theorem spelled_str (s : String) : (Json.str s).spelled = s := Points.shown_ofText s

@[simp] private theorem listed?_names (nodes : Option (List String)) :
    listed? (orNull (nodes.map names)) = nodes := by
  cases nodes with
  | none => rfl
  | some nodes => simp [orNull, names, name, listed?, Function.comp_def]

@[simp] private theorem word?_name (holder : Option String) :
    word? (orNull (holder.map name)) = holder := by
  cases holder with
  | none => rfl
  | some holder => simp [orNull, name, word?]

@[simp] private theorem wholeOf?_int (n : Int) : wholeOf? (.int n) = some n := rfl

@[simp] private theorem wholeOf?_orNull (n : Option Int) : wholeOf? (orNull (n.map .int)) = n := by
  cases n <;> rfl

private theorem operation?_fields (op : Operation) : operation? (.obj (fields op)) = some op := by
  cases op <;>
    simp [operation?, fields, text, member, flag, flagOr, whole, whole?, Json.isVoid,
      Json.double, Json.Checked.toOption]

private theorem isMisfit_fields (op : Operation) : isMisfit (.obj (fields op)) = false := by
  cases op <;> simp [isMisfit, fields, text, member, parameters, hasFields]

@[simp] private theorem isNoList_names (nodes : Option (List String)) :
    isNoList (orNull (nodes.map names)) = false := by
  cases nodes <;> rfl

private theorem givesUp?_fields (op : Operation) : givesUp? (.obj (fields op)) = none := by
  have hnull : isNoList .null = false := rfl
  cases op <;>
    simp [givesUp?, fields, text, member, isNoPath, isNumber, Number.ofJson?, Json.isVoid, hnull]

/-- Every namespace that operations lead to is one that the steps of a scenario lead to. -/
theorem exists_steps {ns : Namespace} (h : ns.Reachable) :
    ∃ (blockSize defaultReplication : Int) (nodes : List String) (steps : List Json),
      (∀ x ∈ steps, isMisfit x = false ∧ givesUp? x = none) ∧
      ns = (Namespace.empty blockSize defaultReplication nodes).after
        (steps.filterMap operation?) := by
  obtain ⟨blockSize, defaultReplication, nodes, history, rfl⟩ := h
  refine ⟨blockSize, defaultReplication, nodes, history.map fun op => .obj (fields op), ?_, ?_⟩
  · intro x hmem
    obtain ⟨op, -, rfl⟩ := List.mem_map.mp hmem
    exact ⟨isMisfit_fields op, givesUp?_fields op⟩
  · simp [List.filterMap_map, operation?_fields]

private theorem items_arr {α : Type} (f : α → Json) (xs : List α) :
    (Json.arr (xs.map f)).items?.getD [] = xs.map f := rfl

private theorem replica_toJson (r : Replica) : replica r.toJson = r := by
  simp [replica, Replica.toJson, text, member, whole, whole?, flag, flagOr, Json.isVoid]

private theorem block_toJson (b : BlockRecord) : block b.toJson = b := by
  simp [block, BlockRecord.toJson, text, member, whole, whole?, flag, flagOr, Json.isVoid, items,
    items_arr, replica_toJson, Function.comp_def]

theorem record_toJson (r : FileRecord) : record r.toJson = r := by
  simp [record, FileRecord.toJson, FileRecord.toJsonWith, text, member, whole, whole?, flag, flagOr,
    Json.isVoid, items, items_arr, block_toJson, doubleOf, Json.double, Json.Checked.toOption,
    Function.comp_def]

theorem isRecord_toJson (r : FileRecord) : isRecord r.toJson = true := by
  simp [isRecord, isBlock, isReplica, FileRecord.toJson, FileRecord.toJsonWith, BlockRecord.toJson,
    Replica.toJson, hasFields, hasItems]

theorem entry?_toJson (e : Entry) : entry? e.toJson = some e := by
  simp [ entry?, Entry.toJson, text, member, EntryKind.ofText?_text]

end BlockFsck.Scenario
