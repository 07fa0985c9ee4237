import Mathlib.Algebra.Ring.Int.Defs
import BlockFsck.Proofs.Listing
import BlockFsck.Proofs.Namespace.Ownership

/-!
# The reads describe one tree

Entries are looked up by their paths, listed with the directory that they are in, read as files and
scanned for corrupt blocks. In a namespace that can be reached these answers fit together: a listing
has exactly the entries that a lookup finds with that parent, a file is what can be read as one, and
the list of corrupt files has exactly the files that a read shows with a corrupt block.
-/

namespace BlockFsck.Namespace

variable {ns : Namespace}

/-- The reads tell of one entry, or that there is none, at the path that a text names and of which
`normal` is the normal text. -/
structure ReadsAgree (ns : Namespace) (text normal : String) : Prop where
  /-- The text matters to the wording of a refusal only. -/
  resolve_eq : ns.resolve text = ns.resolve normal
  listChildren_eq : (ns.listChildren text).mapError NamespaceError.kind =
    (ns.listChildren normal).mapError NamespaceError.kind
  blockLocations_eq : (ns.blockLocations text).mapError NamespaceError.kind =
    (ns.blockLocations normal).mapError NamespaceError.kind
  resolved : ∃ entry?, ns.resolve text = .ok entry? ∧ ∀ entry ∈ entry?, entry.path = normal
  listed_iff : (∃ entries, ns.listChildren text = .ok entries) ↔
    ∃ entry, ns.resolve text = .ok (some entry) ∧ entry.kind = .directory
  listed : ∀ entries, ns.listChildren text = .ok entries →
    entries.Pairwise (·.name < ·.name) ∧
      (∀ entry, entry ∈ entries ↔ entry.path ≠ "/" ∧ Path.parentText entry.path = .ok normal ∧
        ns.resolve entry.path = .ok (some entry)) ∧
      ∀ entry ∈ entries, Path.normalize entry.path = .ok entry.path ∧
        Path.childText normal entry.name = entry.path
  located_iff : (∃ record, ns.blockLocations text = .ok record) ↔
    ∃ entry, ns.resolve text = .ok (some entry) ∧ entry.kind = .file
  located : ∀ record, ns.blockLocations text = .ok record →
    record.path = normal ∧ ns.blockIds text = .ok (record.blocks.map BlockRecord.id) ∧
      record.length = (record.blocks.map BlockRecord.length).sum ∧
      ∀ block ∈ record.blocks, block.replicas.Pairwise (·.node < ·.node)
  unlisted_iff : (∃ cause, ns.listChildren text = .error cause ∧ cause.kind = .entryNotFound) ↔
    ns.resolve text = .ok none
  unlocated_iff :
    (∃ cause, ns.blockLocations text = .error cause ∧ cause.kind = .entryNotFound) ↔
      ns.resolve text = .ok none

/-- What the reads tell of a namespace fits together. -/
structure DescribesOneTree (ns : Namespace) : Prop where
  agree : ∀ text normal, Path.normalize text = .ok normal → ns.ReadsAgree text normal
  corruptFiles_sorted : ns.corruptFiles.Pairwise (· < ·)
  mem_corruptFiles : ∀ text, text ∈ ns.corruptFiles ↔ ∃ record,
    ns.blockLocations text = .ok record ∧ record.path = text ∧
      ∃ block ∈ record.blocks, block.corrupt = true

private theorem Valid.map_id_recordOf (h : ns.Valid) {path : Path} {content : FileNode}
    (hn : ns.node? path = some (.file content)) :
    (ns.recordOf path content).blocks.map BlockRecord.id = content.blocks := by
  rw [recordOf, List.map_filterMap]
  have hknown : ∀ id ∈ content.blocks,
      ((ns.blocks.get? id).map (ns.blockRecord id)).map BlockRecord.id = some id := by
    intro id hid
    obtain ⟨block, hb⟩ := Option.isSome_iff_exists.mp (h.known h.toIsTree hn hid)
    rw [hb]
    rfl
  rw [List.filterMap_congr hknown, List.filterMap_some]

private theorem IsRegistry.replicas_sorted (h : ns.IsRegistry) {path : Path} {content : FileNode}
    {block : BlockRecord} (hmem : block ∈ (ns.recordOf path content).blocks) :
    block.replicas.Pairwise (·.node < ·.node) := by
  rw [recordOf, List.mem_filterMap] at hmem
  obtain ⟨id, -, hrecord⟩ := hmem
  obtain ⟨found, hb, rfl⟩ := Option.map_eq_some_iff.mp hrecord
  rw [blockRecord, List.pairwise_map]
  exact sortedBy_strict (h.copies_nodup hb)

private theorem hasCorruptBlock_iff_recordOf {content : FileNode} (path : Path) :
    ns.hasCorruptBlock (.file content) = true ↔
      ∃ block ∈ (ns.recordOf path content).blocks, block.corrupt = true := by
  rw [hasCorruptBlock, List.any_eq_true, recordOf]
  simp only [Node.blocks, List.mem_filterMap, Option.map_eq_some_iff, Option.any_eq_true]
  constructor
  · rintro ⟨id, hid, block, hb, hc⟩
    exact ⟨_, ⟨id, hid, block, hb, rfl⟩, hc⟩
  · rintro ⟨_, ⟨id, hid, block, hb, rfl⟩, hc⟩
    exact ⟨id, hid, block, hb, hc⟩

private theorem Valid.corruptFiles_sorted (h : ns.Valid) : ns.corruptFiles.Pairwise (· < ·) := by
  have htexts : (ns.corruptFiles).Nodup := by
    rw [Listing.corruptFiles_eq h]
    refine Path.nodup_texts (Listing.indexed_nodup h) fun path hmem => ?_
    obtain ⟨content, hn, -⟩ := (Listing.mem_indexed h).mp hmem
    exact h.path_valid hn
  rw [corruptFiles, sortedTexts] at htexts ⊢
  refine sortedBy_strict ?_
  rw [List.map_id']
  exact (sortedBy_perm _).nodup_iff.mp htexts

private theorem Valid.mem_corruptFiles (h : ns.Valid) {text : String} :
    text ∈ ns.corruptFiles ↔ ∃ record, ns.blockLocations text = .ok record ∧
      record.path = text ∧ ∃ block ∈ record.blocks, block.corrupt = true := by
  rw [Listing.corruptFiles_eq h, List.mem_map]
  constructor
  · rintro ⟨path, hmem, rfl⟩
    obtain ⟨content, hn, hc⟩ := (Listing.mem_indexed h).mp hmem
    exact ⟨_, blockLocations_of_file (readPath_text (h.path_valid hn)) hn, rfl,
      (hasCorruptBlock_iff_recordOf path).mp hc⟩
  · rintro ⟨record, hrecord, htext, hc⟩
    obtain ⟨path, content, -, hn, rfl⟩ := blockLocations_eq_ok.mp hrecord
    exact ⟨path, (Listing.mem_indexed h).mpr
      ⟨content, hn, (hasCorruptBlock_iff_recordOf path).mpr hc⟩, htext⟩

private theorem Valid.readsAgree (h : ns.Valid) {text : String} {path : Path}
    (hread : readPath text = .ok path) : ns.ReadsAgree text path.text := by
  have ht := h.toIsTree
  have hv := valid_of_readPath hread
  have hresolve := resolve_of_read ns hread
  have hlist := listChildren_of_read ns hread
  have hlocate := blockLocations_of_read ns hread
  constructor
  case resolve_eq => rw [hresolve, resolve_text ns hv]
  case listChildren_eq =>
    rw [hlist, listChildren_text ns hv]
    rcases ns.node? path with _ | _ | _ <;> rfl
  case blockLocations_eq =>
    rw [hlocate, blockLocations_text ns hv]
    rcases ns.node? path with _ | _ | _ <;> rfl
  case resolved =>
    refine ⟨_, hresolve, fun entry hentry => ?_⟩
    obtain ⟨node, -, rfl⟩ := Option.map_eq_some_iff.mp hentry
    rfl
  case listed_iff =>
    rw [hlist, hresolve]
    rcases ns.node? path with _ | _ | _ <;> simp [Node.kind]
  case listed =>
    intro entries hentries
    rw [hlist] at hentries
    rcases hn : ns.node? path with _ | _ | _ <;> rw [hn] at hentries <;> cases hentries
    refine ⟨ht.childrenOf_sorted path, fun entry => ht.mem_childrenOf hv, fun entry hmem => ?_⟩
    rw [ht.childrenOf_eq] at hmem
    obtain ⟨child, hchild, rfl⟩ := List.mem_map.mp hmem
    rw [mem_sortedBy] at hchild
    have hvalid := ht.path_valid (ht.mem_childNodes.mp hchild)
    rw [ht.name_childEntry hchild]
    exact ⟨Path.normalize_text hvalid, Path.childText_text hvalid⟩
  case located_iff =>
    rw [hlocate, hresolve]
    rcases ns.node? path with _ | _ | _ <;> simp [Node.kind]
  case located =>
    intro record hrecord
    rw [hlocate] at hrecord
    rcases hn : ns.node? path with _ | _ | content <;> rw [hn] at hrecord <;> cases hrecord
    refine ⟨rfl, blockIds_eq_ok.mpr ⟨path, content, hread, hn, (h.map_id_recordOf hn).symm⟩, rfl,
      fun block => h.replicas_sorted⟩
  case unlisted_iff =>
    rw [hlist, hresolve]
    rcases ns.node? path with _ | _ | _ <;> simp [NamespaceError.kind]
  case unlocated_iff =>
    rw [hlocate, hresolve]
    rcases ns.node? path with _ | _ | _ <;> simp [NamespaceError.kind]

/-- In a namespace that can be reached all reads tell of the same entries. -/
theorem describesOneTree (h : ns.Reachable) : ns.DescribesOneTree where
  agree text normal hnormal := by
    obtain ⟨path, hp, rfl⟩ := Path.normalize_eq_ok.mp hnormal
    exact h.valid.readsAgree (readPath_of_ofText hp)
  corruptFiles_sorted := h.valid.corruptFiles_sorted
  mem_corruptFiles text := h.valid.mem_corruptFiles

/-- What the root lists can be looked up, and the list of corrupt files names what reads so. -/
theorem describesOneTree_of_oneCorruptFile :
    (oneCorruptFile none 4).Reachable ∧
    (oneCorruptFile none 4).listChildren "//" = .ok [⟨"/a", .file⟩] ∧
    (oneCorruptFile none 4).resolve "/a" = .ok (some ⟨"/a", .file⟩) ∧
    Path.childText "/" "a" = "/a" ∧ ∃ record,
      (oneCorruptFile none 4).blockLocations "/a" = .ok record ∧
        ∃ block ∈ record.blocks, block.corrupt = true := by
  have hr := oneCorruptFile_reachable none 4
  have htree := describesOneTree hr
  have hnormal : Path.normalize "//" = .ok "/" := by decide +kernel
  have hname : Entry.name ⟨"/a", .file⟩ = "a" := by decide +kernel
  have hlist : (oneCorruptFile none 4).listChildren "//" = .ok [⟨"/a", .file⟩] := by decide +kernel
  have hcorrupt : "/a" ∈ (oneCorruptFile none 4).corruptFiles := by decide +kernel
  obtain ⟨-, hmem, hchild⟩ := (htree.agree "//" "/" hnormal).listed _ hlist
  obtain ⟨-, -, hresolve⟩ := (hmem ⟨"/a", .file⟩).mp (List.mem_singleton_self _)
  obtain ⟨-, htext⟩ := hchild ⟨"/a", .file⟩ (List.mem_singleton_self _)
  obtain ⟨record, hrecord, -, hblock⟩ := (htree.mem_corruptFiles "/a").mp hcorrupt
  exact ⟨hr, hlist, hresolve, hname ▸ htext, record, hrecord, hblock⟩

end BlockFsck.Namespace
