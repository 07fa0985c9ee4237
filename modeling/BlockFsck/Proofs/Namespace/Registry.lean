import Mathlib.Data.List.Nodup
import Mathlib.Data.List.Pairwise
import BlockFsck.Proofs.Namespace.Subtree

/-!
# The block registry

Every id that is known belongs to one file, and every change that gives files new blocks or takes
files away keeps it so.
-/

namespace BlockFsck.Namespace

theorem blockId_inj {number other : Nat} : blockId number = blockId other ↔ number = other := by
  refine ⟨fun h => ?_, fun h => h ▸ rfl⟩
  have toList := congrArg String.toList h
  simp only [blockId, String.toList_append] at toList
  have digits := String.toList_inj.mp (List.append_cancel_left toList)
  have read := Nat.toNat?_repr number
  rwa [show Nat.repr number = Nat.repr other from digits, Nat.toNat?_repr, Option.some.injEq,
    eq_comm] at read

theorem newBlocks_ids (candidates : List String) (replication : Int) (next index : Nat)
    (lengths : List Int) :
    (newBlocks candidates replication next index lengths).map Prod.fst =
      (List.range' next lengths.length).map blockId := by
  apply List.ext_getElem
  · simp [newBlocks]
  · intro i hi hi'
    simp [newBlocks]

theorem listedBlocks_congr {ns other : Namespace} (h : other.root = ns.root) :
    other.listedBlocks = ns.listedBlocks := by
  rw [listedBlocks, listedBlocks, files, files, tree, tree, h]

/-- The ids of the blocks of all files at or below the path. -/
def blocksUnder (ns : Namespace) (path : Path) : List String :=
  ((ns.lookup path).map Inode.blockIds).getD []

theorem blocksUnder_of_file {ns : Namespace} {path : Path} {content : FileNode}
    (h : ns.node? path = some (.file content)) : ns.blocksUnder path = content.blocks := by
  rw [blocksUnder, node?_eq_file.mp h]
  rfl

theorem blocksUnder_of_none {ns : Namespace} {path : Path} (h : ns.node? path = none) :
    ns.blocksUnder path = [] := by
  rw [blocksUnder, node?_eq_none.mp h]
  rfl

namespace IsTree

variable {ns after : Namespace} {path : Path}

/-- What differs at and below a path only has the files there, and those that are left when the
entry at the path is taken away. -/
private theorem listedBlocks_perm (h : ns.IsTree) (hafter : after.IsTree) (hne : path ≠ [])
    (hparent : ns.node? path.parent = some .directory) {entry : Inode} (hentry : entry.NamesNodup)
    (hbelow : ∀ rest content, after.node? (path ++ rest) = some (.file content) ↔
      entry.lookup rest = some (.file content))
    (hsame : ∀ other, ¬ path <+: other → after.node? other = ns.node? other) :
    after.listedBlocks.Perm (entry.blockIds ++ (ns.take path).listedBlocks) := by
  have hrest := h.take hne hparent
  rw [listedBlocks, listedBlocks, entry.blockIds_eq path, ← List.flatMap_append]
  refine List.Perm.flatMap_right _ (hafter.files_perm (List.nodup_append.mpr
    ⟨.of_map _ (hentry.filesAt_nodup path), .of_map _ hrest.files_nodup, ?_⟩) ?_)
  · rintro ⟨other, content⟩ hhere _ hthere rfl
    obtain ⟨rest, rfl, -⟩ := hentry.mem_filesAt.mp hhere
    rw [hrest.mem_files, node?_take hne hparent, if_pos (List.prefix_append ..)] at hthere
    cases hthere
  · intro other content
    rw [List.mem_append, hentry.mem_filesAt, hrest.mem_files, node?_take hne hparent]
    by_cases hp : path <+: other
    · obtain ⟨rest, rfl⟩ := hp
      simp only [hbelow, List.append_cancel_left_eq, exists_eq_left', List.prefix_append, if_true,
        reduceCtorEq, or_false]
    · rw [if_neg hp, hsame other hp]
      refine or_iff_right ?_
      rintro ⟨rest, rfl, -⟩
      exact hp (List.prefix_append ..)

private theorem listedBlocks_take (h : ns.IsTree) (hne : path ≠ [])
    (hparent : ns.node? path.parent = some .directory) :
    ns.listedBlocks.Perm (ns.blocksUnder path ++ (ns.take path).listedBlocks) := by
  cases hentry : ns.lookup path with
  | none =>
    have hnone := node?_eq_none.mpr hentry
    rw [blocksUnder_of_none hnone]
    have hleaf : (Inode.directory .empty).NamesNodup := Inode.namesNodup_of_leaf rfl
    refine h.listedBlocks_perm h hne hparent hleaf (fun rest content => ?_) fun _ _ => rfl
    rw [none_under_none hnone (List.prefix_append ..)]
    cases rest <;> simp
  | some entry =>
    rw [blocksUnder, hentry, Option.map_some, Option.getD_some]
    refine h.listedBlocks_perm h hne hparent (h.names_nodup.lookup hentry)
      (fun rest content => ?_) fun _ _ => rfl
    rw [node?_eq_file, lookup_append, hentry, Option.bind_some]

private theorem listedBlocks_place (h : ns.IsTree) (hne : path ≠ [])
    (hparent : ns.node? path.parent = some .directory) {entry : Inode}
    (hafter : (ns.place path entry).IsTree) (hentry : entry.NamesNodup) :
    (ns.place path entry).listedBlocks.Perm
      (entry.blockIds ++ (ns.take path).listedBlocks) := by
  refine h.listedBlocks_perm hafter hne hparent hentry (fun rest content => ?_) fun other hp => ?_
  · rw [node?_place hne hparent, if_pos (List.prefix_append ..), List.drop_left]
    rcases entry.lookup rest with _ | _ | _ <;> simp [Inode.node]
  · rw [node?_place hne hparent, if_neg hp]

/-- Writing an entry with nothing below it, over one whose blocks it keeps. -/
theorem listedBlocks_put (h : ns.IsTree) (hne : path ≠ []) (hv : path.Valid)
    (hparent : ns.node? path.parent = some .directory) {entry : Inode}
    (hleaf : entry.children = .empty) {more : List String}
    (hblocks : entry.blockIds = ns.blocksUnder path ++ more) :
    (ns.place path entry).listedBlocks.Perm (ns.listedBlocks ++ more) := by
  have hplace := h.listedBlocks_place hne hparent (h.put hne hv hparent hleaf)
    (Inode.namesNodup_of_leaf hleaf)
  have htake := (h.listedBlocks_take hne hparent).append_right more
  rw [hblocks, List.append_assoc] at hplace
  rw [List.append_assoc] at htake
  exact hplace.trans ((List.perm_append_comm.append_left _).trans htake.symm)

theorem listedBlocks_moved (h : ns.IsTree) {source target : Path}
    (hcan : ns.CanRename source target) (hv : target.Valid) :
    (ns.moved source target).listedBlocks.Perm ns.listedBlocks := by
  have hafter := h.moved hcan hv
  obtain ⟨hs, ht, hst, hpresent, hparent, hfree⟩ := hcan
  obtain ⟨node, hnode⟩ := Option.ne_none_iff_exists'.mp hpresent
  obtain ⟨entry, hentry, -⟩ := Option.map_eq_some_iff.mp hnode
  have habove := parent_directory hnode
  have hgone := node?_take hs habove
  have hstays : (ns.take source).node? target.parent = some .directory := by
    rw [hgone, if_neg fun hp => hst (hp.trans (List.dropLast_prefix target)), hparent]
  have hleft : (ns.take source).node? target = none := by
    rw [hgone, if_neg hst, hfree]
  have htaken := h.take hs habove
  rw [moved_of_lookup hentry] at hafter ⊢
  -- the entry is what the source loses and the target gains
  have hplace := htaken.listedBlocks_place ht hstays hafter (h.names_nodup.lookup hentry)
  have htarget := htaken.listedBlocks_take ht hstays
  have hsource := h.listedBlocks_take hs habove
  rw [blocksUnder_of_none hleft, List.nil_append] at htarget
  rw [blocksUnder, hentry, Option.map_some, Option.getD_some] at hsource
  exact hplace.trans ((htarget.symm.append_left _).trans hsource.symm)

theorem mem_blocksUnder (h : ns.IsTree) {id : String} : id ∈ ns.blocksUnder path ↔
    ∃ other content, path <+: other ∧ ns.node? other = some (.file content) ∧
      id ∈ content.blocks := by
  rw [blocksUnder]
  cases hentry : ns.lookup path with
  | none =>
    simp only [Option.map_none, Option.getD_none, List.not_mem_nil, false_iff]
    rintro ⟨other, content, hp, hn, -⟩
    rw [none_under_none (node?_eq_none.mpr hentry) hp] at hn
    cases hn
  | some entry =>
    rw [Option.map_some, Option.getD_some, entry.blockIds_eq path, List.mem_flatMap]
    have hfile : ∀ {other content}, (other, content) ∈ entry.filesAt path ↔
        path <+: other ∧ ns.node? other = some (.file content) := by
      intro other content
      rw [(h.names_nodup.lookup hentry).mem_filesAt]
      constructor
      · rintro ⟨rest, rfl, hrest⟩
        refine ⟨List.prefix_append .., node?_eq_file.mpr ?_⟩
        rw [lookup_append, hentry, Option.bind_some, hrest]
      · rintro ⟨⟨rest, rfl⟩, hn⟩
        rw [node?_eq_file, lookup_append, hentry, Option.bind_some] at hn
        exact ⟨rest, rfl, hn⟩
    simp only [Prod.exists, hfile, and_assoc]

end IsTree

theorem removed_blocks (ns : Namespace) (path : Path) :
    (ns.removed path).blocks = ns.blocks.restrict (!(ns.blocksUnder path).contains ·) := by
  rw [removed, blocksUnder]
  cases ns.lookup path with
  | none => simp [Table.restrict]
  | some entry => exact Table.foldl_erase ns.blocks entry.blockIds

namespace IsRegistry

variable {ns : Namespace}

theorem of_listed {other : Namespace} (h : ns.IsRegistry)
    (hl : other.listedBlocks.Perm ns.listedBlocks) (hb : other.blocks = ns.blocks)
    (hn : other.nextBlock = ns.nextBlock) : other.IsRegistry where
  listed := hb ▸ hl.trans h.listed
  ids_nodup := hb ▸ h.ids_nodup
  numbered hid := hn ▸ h.numbered (hb ▸ hid)
  copies_nodup hg := h.copies_nodup (hb ▸ hg)

theorem listed_nodup (h : ns.IsRegistry) : ns.listedBlocks.Nodup :=
  h.listed.nodup_iff.mpr h.ids_nodup

theorem known_iff (h : ns.IsRegistry) (ht : ns.IsTree) {id : String} :
    id ∈ ns.blocks.keys ↔
      ∃ path content, ns.node? path = some (.file content) ∧ id ∈ content.blocks := by
  rw [← h.listed.mem_iff, listedBlocks, List.mem_flatMap]
  simp only [Prod.exists, ht.mem_files]

/-- A block has one owner: files that list the same block are the same file. -/
theorem owner_unique (h : ns.IsRegistry) (ht : ns.IsTree) {path other : Path}
    {content others : FileNode} (hn : ns.node? path = some (.file content))
    (ho : ns.node? other = some (.file others)) {id : String} (hid : id ∈ content.blocks)
    (hid' : id ∈ others.blocks) : path = other := by
  have disjoint := (List.nodup_flatMap.mp h.listed_nodup).2
  have : Std.Symm (Function.onFun List.Disjoint fun e : Path × FileNode => e.2.blocks) :=
    ⟨fun _ _ hd id hid hid' => hd hid' hid⟩
  by_contra hne
  exact disjoint.forall (ht.mem_files.mpr hn) (ht.mem_files.mpr ho)
    (fun he => hne (congrArg Prod.fst he)) hid hid'

theorem setBlock (h : ns.IsRegistry) {id : String} {block : Block} (hid : id ∈ ns.blocks.keys)
    (hc : block.copies.keys.Nodup) :
    ({ ns with blocks := ns.blocks.set id block } : Namespace).IsRegistry where
  listed := by
    rw [Table.keys_set, if_pos hid]
    exact h.listed
  ids_nodup := Table.keys_set_nodup h.ids_nodup id block
  numbered hid' := h.numbered (by rwa [Table.keys_set, if_pos hid] at hid')
  copies_nodup {other _} hg := by
    rw [Table.get?_set] at hg
    by_cases ho : id = other
    · rw [if_pos ho, Option.some.injEq] at hg
      exact hg ▸ hc
    · exact h.copies_nodup (by simpa [ho] using hg)

theorem moved (h : ns.IsRegistry) (ht : ns.IsTree) {source target : Path}
    (hcan : ns.CanRename source target) (hv : target.Valid) :
    (ns.moved source target).IsRegistry :=
  h.of_listed (ht.listedBlocks_moved hcan hv) rfl rfl

/-- The blocks that go with a subtree are those of no other file. -/
theorem listedBlocks_removed (h : ns.IsRegistry) (ht : ns.IsTree) {path : Path} (hne : path ≠ []) :
    (ns.removed path).listedBlocks.Perm
      (ns.listedBlocks.filter fun id => !(ns.blocksUnder path).contains id) := by
  cases hentry : ns.lookup path with
  | none =>
    rw [listedBlocks_congr (by rw [Namespace.removed, hentry]), blocksUnder, hentry]
    simp
  | some entry =>
    have hnode : ns.node? path = some entry.node := by rw [node?, hentry, Option.map_some]
    have htake := ht.listedBlocks_take hne (parent_directory hnode)
    have hdisjoint := (List.nodup_append.mp (htake.nodup_iff.mp h.listed_nodup)).2.2
    have hroot : (ns.removed path).root = (ns.take path).root := by rw [Namespace.removed, hentry]
    rw [listedBlocks_congr hroot]
    refine .trans (.of_eq ?_) (htake.symm.filter _)
    have hkept : ∀ id ∈ (ns.take path).listedBlocks, id ∉ ns.blocksUnder path :=
      fun id hid hu => hdisjoint id hu id hid rfl
    rw [List.filter_append, List.filter_eq_nil_iff.mpr (by simp), List.nil_append,
      List.filter_eq_self.mpr (by simpa using hkept)]

theorem removed (h : ns.IsRegistry) (ht : ns.IsTree) {path : Path} (hne : path ≠ []) :
    (ns.removed path).IsRegistry where
  listed := by
    rw [removed_blocks, Table.keys_restrict]
    exact (h.listedBlocks_removed ht hne).trans (h.listed.filter _)
  ids_nodup := removed_blocks ns path ▸ Table.keys_restrict_nodup h.ids_nodup _
  numbered hid := by
    rw [removed_blocks, Table.keys_restrict] at hid
    exact h.numbered (List.mem_filter.mp hid).1
  copies_nodup hg := by
    rw [removed_blocks, Table.get?_restrict] at hg
    split_ifs at hg
    exact h.copies_nodup hg

/-- A file gets new blocks, whose ids are the next ones. -/
theorem addBlocks (h : ns.IsRegistry) {other : Namespace} (candidates : List String)
    (replication : Int) (index : Nat) (lengths : List Int) :
    let added := newBlocks candidates replication ns.nextBlock index lengths
    other.listedBlocks.Perm (ns.listedBlocks ++ added.map Prod.fst) →
      other.blocks = ns.blocks.extend added →
      other.nextBlock = ns.nextBlock + added.length → other.IsRegistry := by
  intro added hl hb hn
  have ids : added.map Prod.fst = (List.range' ns.nextBlock lengths.length).map blockId :=
    newBlocks_ids candidates replication ns.nextBlock index lengths
  have hlength : added.length = lengths.length := by simp [added, newBlocks]
  have keys : other.blocks.keys = ns.blocks.keys ++ added.map Prod.fst := by
    rw [hb, Table.keys_extend]
  refine ⟨?_, ?_, ?_, ?_⟩
  · rw [keys]
    exact hl.trans (h.listed.append_right _)
  · rw [keys, List.nodup_append]
    refine ⟨h.ids_nodup, ?_, ?_⟩
    · rw [ids]
      exact List.Nodup.map (fun _ _ => blockId_inj.mp) List.nodup_range'
    · rintro id hid other hother rfl
      obtain ⟨number, hlt, rfl⟩ := h.numbered hid
      rw [ids] at hother
      obtain ⟨number', hmem, he⟩ := List.mem_map.mp hother
      have := blockId_inj.mp he
      have := (List.mem_range'_1.mp hmem).1
      omega
  · intro id hid
    rw [keys, List.mem_append] at hid
    rcases hid with hid | hid
    · obtain ⟨number, hlt, rfl⟩ := h.numbered hid
      exact ⟨number, by omega, rfl⟩
    · rw [ids] at hid
      obtain ⟨number, hmem, rfl⟩ := List.mem_map.mp hid
      have := (List.mem_range'_1.mp hmem).2
      exact ⟨number, by omega, rfl⟩
  · intro id block hg
    rw [hb, Table.get?_extend, Option.or_eq_some_iff] at hg
    rcases hg with hg | ⟨-, hg⟩
    · exact h.copies_nodup hg
    · have hmem : (id, block) ∈ added := Table.mem_of_get? hg
      obtain ⟨i, hi, he⟩ := List.mem_mapIdx.mp hmem
      cases he
      exact Table.keys_ofList_nodup _

end IsRegistry

end BlockFsck.Namespace
