import BlockFsck.Proofs.Order
import BlockFsck.Proofs.Namespace.Reachable

/-!
# Reading a namespace

The answers of the reads to written paths, in terms of what stands at the path.
-/

namespace BlockFsck.Namespace

variable {ns : Namespace}

section Text

variable {text : String} {path : Path}

theorem resolve_of_read (ns : Namespace) (h : readPath text = .ok path) :
    ns.resolve text = .ok ((ns.node? path).map fun node => ⟨path.text, node.kind⟩) := by
  rw [resolve, h]
  rfl

private theorem find_of_read (ns : Namespace) (h : readPath text = .ok path) :
    ns.find text = match ns.lookup path with
      | some entry => .ok (path, entry)
      | none => .error (.notFound text) := by
  rw [find, h]
  rfl

theorem blockLocations_of_read (ns : Namespace) (h : readPath text = .ok path) :
    ns.blockLocations text = match ns.node? path with
      | some (.file content) => .ok (ns.recordOf path content)
      | some .directory => .error (.notFile text)
      | none => .error (.notFound text) := by
  rw [blockLocations, findFile, find_of_read ns h, node?]
  rcases ns.lookup path with _ | _ | _ <;> rfl

/-- What stands in the listing of a directory. -/
def childrenOf (ns : Namespace) (path : Path) : List Entry :=
  entriesOf path (((ns.lookup path).map Inode.children).getD .empty)

theorem listChildren_of_read (ns : Namespace) (h : readPath text = .ok path) :
    ns.listChildren text = match ns.node? path with
      | some .directory => .ok (ns.childrenOf path)
      | some (.file _) => .error (.notDirectory text)
      | none => .error (.notFound text) := by
  rw [listChildren, find_of_read ns h, node?, childrenOf]
  rcases ns.lookup path with _ | _ | _ <;> rfl

private theorem resolve_eq_some {entry : Entry} : ns.resolve text = .ok (some entry) ↔
    ∃ path node, readPath text = .ok path ∧ ns.node? path = some node ∧
      ⟨path.text, node.kind⟩ = entry := by
  cases h : readPath text with
  | error cause => simp [resolve, h, bind, Except.bind]
  | ok path => simp [resolve_of_read ns h]

end Text

theorem resolve_text (ns : Namespace) {path : Path} (hv : path.Valid) :
    ns.resolve path.text = .ok ((ns.node? path).map fun node => ⟨path.text, node.kind⟩) :=
  resolve_of_read ns (readPath_text hv)

theorem blockLocations_text (ns : Namespace) {path : Path} (hv : path.Valid) :
    ns.blockLocations path.text = match ns.node? path with
      | some (.file content) => .ok (ns.recordOf path content)
      | some .directory => .error (.notFile path.text)
      | none => .error (.notFound path.text) :=
  blockLocations_of_read ns (readPath_text hv)

theorem listChildren_text (ns : Namespace) {path : Path} (hv : path.Valid) :
    ns.listChildren path.text = match ns.node? path with
      | some .directory => .ok (ns.childrenOf path)
      | some (.file _) => .error (.notDirectory path.text)
      | none => .error (.notFound path.text) :=
  listChildren_of_read ns (readPath_text hv)

/-- A record depends on the blocks of its file and on the storage nodes only. -/
theorem recordOf_congr {ns other : Namespace} (path : Path) {content : FileNode}
    (hb : ∀ id ∈ content.blocks, other.blocks.get? id = ns.blocks.get? id)
    (hn : other.nodes = ns.nodes) : other.recordOf path content = ns.recordOf path content := by
  have hblock : other.blockRecord = ns.blockRecord := by
    funext id block
    simp only [blockRecord, BlockRecord.mk.injEq, true_and, and_true]
    apply List.map_congr_left
    intro copy _
    rw [replicaOf, replicaOf, isLive, isLive, hn]
  have hblocks : (content.blocks.filterMap fun id =>
      (other.blocks.get? id).map (other.blockRecord id)) =
      content.blocks.filterMap fun id => (ns.blocks.get? id).map (ns.blockRecord id) := by
    apply List.filterMap_congr
    intro id hid
    rw [hb id hid, hblock]
  rw [recordOf, recordOf, hblocks]

theorem map_length_recordOf (ns : Namespace) (path : Path) (content : FileNode) :
    (ns.recordOf path content).blocks.map BlockRecord.length =
      content.blocks.filterMap fun id => (ns.blocks.get? id).map Block.length := by
  rw [recordOf, List.map_filterMap]
  simp only [Option.map_map]
  rfl

/-- The names and nodes of what is in a directory, in the order in which they came. -/
def childNodes (ns : Namespace) (path : Path) : List (String × Node) :=
  (((ns.lookup path).map Inode.children).getD .empty).entries.map (Prod.map id Inode.node)

/-- What a listing says of a child. -/
def childEntry (path : Path) (child : String × Node) : Entry :=
  ⟨Path.text (path ++ [child.1]), child.2.kind⟩

private theorem IsTree.children_nodup (ht : ns.IsTree) (path : Path) :
    (((ns.lookup path).map Inode.children).getD .empty).keys.Nodup := by
  rcases hn : ns.lookup path with _ | children | content
  · exact List.nodup_nil
  · exact ht.names_nodup path children hn
  · exact List.nodup_nil

theorem IsTree.mem_childNodes (ht : ns.IsTree) {path : Path} {name : String} {node : Node} :
    (name, node) ∈ ns.childNodes path ↔ ns.node? (path ++ [name]) = some node := by
  have hchild : ns.lookup (path ++ [name]) =
      (((ns.lookup path).map Inode.children).getD .empty).get? name := by
    rw [lookup, Inode.lookup_concat, ← lookup]
    rcases ns.lookup path with _ | _ | _ <;> rfl
  rw [childNodes, node?, hchild, Option.map_eq_some_iff, List.mem_map]
  simp only [Table.get?_eq_some_iff (ht.children_nodup path), Prod.exists, Prod.map_apply, id_eq,
    Prod.mk.injEq]
  constructor
  · rintro ⟨_, child, hmem, rfl, rfl⟩
    exact ⟨child, hmem, rfl⟩
  · rintro ⟨child, hmem, rfl⟩
    exact ⟨name, child, hmem, rfl, rfl⟩

private theorem IsTree.childNodes_nodup (ht : ns.IsTree) (path : Path) :
    ((ns.childNodes path).map Prod.fst).Nodup := by
  rw [childNodes, List.map_map]
  exact ht.children_nodup path

theorem IsTree.name_childEntry (ht : ns.IsTree) {path : Path} {child : String × Node}
    (h : child ∈ ns.childNodes path) : (childEntry path child).name = child.1 :=
  Path.baseName_text (ht.path_valid (ht.mem_childNodes.mp h))

/-- A listing has one entry for each child, in the order of the names. -/
theorem IsTree.childrenOf_eq (ht : ns.IsTree) (path : Path) :
    ns.childrenOf path = (sortedBy Prod.fst (ns.childNodes path)).map (childEntry path) := by
  have hsorted : sortedBy Prod.fst (ns.childNodes path) =
      (sortedBy Prod.fst (((ns.lookup path).map Inode.children).getD .empty).entries).map
        (Prod.map id Inode.node) := by
    rw [childNodes, sortedBy, sortedBy]
    refine (List.map_mergeSort fun child _ other _ => ?_).symm
    rfl
  rw [hsorted, childrenOf, entriesOf, List.map_map]
  refine List.map_congr_left fun e hmem => ?_
  have hchild : (e.1, e.2.node) ∈ ns.childNodes path :=
    List.mem_map.mpr ⟨e, mem_sortedBy.mp hmem, rfl⟩
  have hv := ht.path_valid (ht.mem_childNodes.mp hchild)
  simp only [Function.comp_apply, childEntry, Prod.map_fst, Prod.map_snd, id_eq,
    Path.childText_text hv]

theorem IsTree.childrenOf_names_nodup (ht : ns.IsTree) (path : Path) :
    ((ns.childrenOf path).map Entry.name).Nodup := by
  have hnames : (ns.childrenOf path).map Entry.name =
      (sortedBy Prod.fst (ns.childNodes path)).map Prod.fst := by
    rw [ht.childrenOf_eq, List.map_map]
    exact List.map_congr_left fun child hmem => ht.name_childEntry (mem_sortedBy.mp hmem)
  rw [hnames, ((sortedBy_perm _).map Prod.fst).nodup_iff]
  exact ht.childNodes_nodup path

/-- What a directory lists is what a lookup finds with that parent. -/
theorem IsTree.mem_childrenOf (ht : ns.IsTree) {path : Path} (hv : path.Valid) {entry : Entry} :
    entry ∈ ns.childrenOf path ↔ entry.path ≠ "/" ∧
      Path.parentText entry.path = .ok path.text ∧ ns.resolve entry.path = .ok (some entry) := by
  rw [ht.childrenOf_eq, List.mem_map]
  constructor
  · rintro ⟨⟨name, node⟩, hmem, rfl⟩
    have hn := ht.mem_childNodes.mp (mem_sortedBy.mp hmem)
    have hchild := ht.path_valid hn
    rw [childEntry]
    refine ⟨fun hroot => ?_, ?_, ?_⟩
    · have hnil := (Path.text_inj hchild Path.valid_nil).mp hroot
      simp at hnil
    · rw [Path.parentText_text hchild, Path.parent_append_singleton]
    · rw [resolve_text ns hchild, hn]
      rfl
  · rintro ⟨hne, hparent, hresolve⟩
    obtain ⟨child, node, -, hn, rfl⟩ := resolve_eq_some.mp hresolve
    dsimp only at hne hparent
    have hchild := ht.path_valid hn
    have hroot : child ≠ [] := by
      rintro rfl
      exact hne rfl
    rw [Path.parentText_text hchild, Except.ok.injEq, Path.text_inj hchild.parent hv] at hparent
    subst hparent
    obtain ⟨name, hname⟩ := Path.eq_parent_append hroot
    rw [hname] at hn
    refine ⟨(name, node), mem_sortedBy.mpr (ht.mem_childNodes.mpr hn), ?_⟩
    rw [childEntry, ← hname]

theorem IsTree.sorted_childNodes (ht : ns.IsTree) (path : Path) :
    (sortedBy Prod.fst (ns.childNodes path)).Pairwise (·.1 < ·.1) :=
  sortedBy_strict (ht.childNodes_nodup path)

theorem IsTree.childrenOf_sorted (ht : ns.IsTree) (path : Path) :
    (ns.childrenOf path).Pairwise (·.name < ·.name) := by
  rw [ht.childrenOf_eq, List.pairwise_map]
  refine (ht.sorted_childNodes path).imp_of_mem fun {child other} hmem hmem' hlt => ?_
  rwa [ht.name_childEntry (mem_sortedBy.mp hmem), ht.name_childEntry (mem_sortedBy.mp hmem')]

end BlockFsck.Namespace
