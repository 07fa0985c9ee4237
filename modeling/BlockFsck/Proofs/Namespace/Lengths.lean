import BlockFsck.Proofs.Namespace.Cutting
import BlockFsck.Proofs.Namespace.Decay
import BlockFsck.Proofs.Namespace.PathMap

/-!
# Lengths of blocks

The blocks of a file are as if its length had been cut at once, and the copies of a block have its
length. Every operation keeps this but two: the length of a block can be set to anything, and an
append of a negative length takes bytes away from a last block that is not full.
-/

namespace BlockFsck

/-- Every copy is as long as the block. -/
def Block.Matches (block : Block) : Prop :=
  ∀ copy ∈ block.copies.entries, copy.2.length = block.length

/-- The operation takes bytes from a file: a negative length is appended while the file is open for
write and its last block is not full. -/
def Operation.shrinks (op : Operation) (ns : Namespace) : Bool :=
  match op with
  | .append text more _ =>
    match ns.blockLocations text with
    | .ok record => decide (more < 0) && record.openForWrite &&
        record.blocks.getLast?.any (·.length < ns.blockSize)
    | .error _ => false
  | _ => false

/-- Every block is as if the length of the file had been cut at once, and its replicas are as long
as it is. -/
structure FileRecord.IsWellCut (blockSize : Int) (record : FileRecord) : Prop where
  bounded : ∀ block ∈ record.blocks, 1 ≤ block.length ∧ block.length ≤ blockSize
  full : ∀ block ∈ record.blocks.dropLast, block.length = blockSize
  copied : ∀ block ∈ record.blocks, ∀ replica ∈ block.replicas, replica.length = block.length

namespace Namespace

variable {ns after : Namespace} {path : Path} {content : FileNode} {text : String}
  {more blockSize : Int}

/-- The lengths of the blocks with the ids. -/
def lengthsOf (ns : Namespace) (ids : List String) : List Int :=
  ids.filterMap fun id => (ns.blocks.get? id).map Block.length

/-- The copies of each block match it. -/
def CopiesMatch (ns : Namespace) : Prop :=
  ∀ id block, ns.blocks.get? id = some block → block.Matches

/-- Every file is cut into blocks, and their copies match them. -/
structure HasCutLengths (ns : Namespace) (blockSize : Int) : Prop where
  size_pos : 1 ≤ blockSize
  size_eq : ns.blockSize = blockSize
  files : ∀ {path content}, ns.node? path = some (.file content) →
    ∃ total, 0 ≤ total ∧ ns.lengthsOf content.blocks = cut blockSize total
  copies : ns.CopiesMatch

private theorem matches_blockOn (nodes : List String) (length : Int) :
    (blockOn nodes length).Matches := by
  intro copy hmem
  obtain ⟨node, -, rfl⟩ := List.mem_map.mp (Table.mem_ofList hmem)
  rfl

private theorem matches_resized (block : Block) (length : Int) :
    (Block.resized block length).Matches := by
  intro copy hmem
  obtain ⟨old, -, rfl⟩ := List.mem_map.mp hmem
  rfl

private theorem matches_revised (ns : Namespace) {op : Operation}
    (hset : ∀ id length, op ≠ .setBlockLength id length) {block : Block} (h : block.Matches) :
    (op.revised ns block).Matches ∧ (op.revised ns block).length = block.length := by
  cases op
  case setBlockLength id length => exact absurd rfl (hset id length)
  case removeReplica id node => exact ⟨fun copy hmem => h copy (Table.mem_erase hmem), rfl⟩
  case addReplica id node =>
    rw [Operation.revised]
    split_ifs
    · refine ⟨fun copy hmem => ?_, rfl⟩
      rcases Table.mem_set hmem with rfl | hold
      · rfl
      · exact h copy hold
    · exact ⟨h, rfl⟩
  case reportBadReplica id node =>
    rw [Operation.revised]
    cases hc : block.copies.get? node with
    | none => exact ⟨h, rfl⟩
    | some copy =>
      refine ⟨fun other hmem => ?_, rfl⟩
      rcases Table.mem_set hmem with rfl | hold
      · exact h (node, copy) (Table.mem_of_get? hc)
      · exact h other hold
  all_goals exact ⟨h, rfl⟩

private theorem CopiesMatch.set (h : ns.CopiesMatch) (id : String) {block : Block}
    (hnew : block.Matches) :
    ({ ns with blocks := ns.blocks.set id block } : Namespace).CopiesMatch := by
  intro other found hg
  rw [Table.get?_set] at hg
  split_ifs at hg
  · cases hg
    exact hnew
  · exact h other found hg

private theorem lengthsOf_append (ns : Namespace) (ids more : List String) :
    ns.lengthsOf (ids ++ more) = ns.lengthsOf ids ++ ns.lengthsOf more := List.filterMap_append

private theorem lengthsOf_congr {ids : List String}
    (h : ∀ id ∈ ids, (after.blocks.get? id).map Block.length =
      (ns.blocks.get? id).map Block.length) : after.lengthsOf ids = ns.lengthsOf ids :=
  List.filterMap_congr h

private theorem lengthsOf_set_last {front : List String} {id : String} (hfront : id ∉ front)
    (block : Block) :
    lengthsOf { ns with blocks := ns.blocks.set id block } (front ++ [id]) =
      ns.lengthsOf front ++ [block.length] := by
  have hkept : lengthsOf { ns with blocks := ns.blocks.set id block } front = ns.lengthsOf front :=
    lengthsOf_congr fun other ho => by
      have hne : id ≠ other := fun he => hfront (he ▸ ho)
      rw [Table.get?_set, if_neg hne]
  rw [lengthsOf_append, hkept]
  simp [lengthsOf, Table.get?_set]

private theorem lengthsOf_eq (ns : Namespace) (path : Path) (content : FileNode) :
    ns.lengthsOf content.blocks = (ns.recordOf path content).blocks.map BlockRecord.length :=
  (map_length_recordOf ns path content).symm

private theorem length_recordOf (ns : Namespace) (path : Path) (content : FileNode) :
    (ns.recordOf path content).length = (ns.lengthsOf content.blocks).sum := by
  rw [lengthsOf_eq ns path]
  rfl

namespace HasCutLengths

private theorem of_files (h : ns.HasCutLengths blockSize) (hsize : after.blockSize = ns.blockSize)
    (hfiles : ∀ {path content}, after.node? path = some (.file content) → ∃ other others,
      ns.node? other = some (.file others) ∧
        after.lengthsOf content.blocks = ns.lengthsOf others.blocks)
    (hcopies : after.CopiesMatch) : after.HasCutLengths blockSize where
  size_pos := h.size_pos
  size_eq := hsize.trans h.size_eq
  files hn := by
    obtain ⟨other, others, ho, hlengths⟩ := hfiles hn
    rw [hlengths]
    exact h.files ho
  copies := hcopies

private theorem of_blocks (h : ns.HasCutLengths blockSize) (hsize : after.blockSize = ns.blockSize)
    (hblocks : after.blocks = ns.blocks)
    (hfiles : ∀ {path content}, after.node? path = some (.file content) → ∃ other others,
      ns.node? other = some (.file others) ∧ content.blocks = others.blocks) :
    after.HasCutLengths blockSize := by
  refine h.of_files hsize (fun hn => ?_) fun id block hb => h.copies id block (hblocks ▸ hb)
  obtain ⟨other, others, ho, hids⟩ := hfiles hn
  refine ⟨other, others, ho, ?_⟩
  rw [hids, lengthsOf, lengthsOf, hblocks]

private theorem setFile (h : ns.HasCutLengths blockSize) {old new : FileNode}
    (hold : ns.node? path = some (.file old)) (hids : new.blocks = old.blocks) :
    (ns.place path (.file new)).HasCutLengths blockSize := by
  refine h.of_blocks rfl rfl fun {other others} hn => ?_
  rw [node?_file hold] at hn
  split_ifs at hn with he
  · cases hn
    exact ⟨path, old, hold, hids⟩
  · exact ⟨other, others, hn, rfl⟩

private theorem report (h : ns.HasCutLengths blockSize) {op : Operation} {id : String}
    (hop : op.reportsOn = some id) (hset : ∀ id length, op ≠ .setBlockLength id length) :
    (op.perform ns).2.HasCutLengths blockSize := by
  cases hb : ns.blocks.get? id with
  | none =>
    rw [perform_report_unknown hop hb]
    exact h
  | some block =>
    obtain ⟨hmatches, hlength⟩ := matches_revised ns hset (h.copies id block hb)
    rw [perform_report hop hb]
    refine h.of_files rfl (fun {path content} hn => ⟨path, content, hn, ?_⟩)
      (h.copies.set id hmatches)
    exact lengthsOf_congr fun other _ => length_setBlock hb hlength other

private theorem makeDirectories (h : ns.HasCutLengths blockSize) (ht : ns.IsTree)
    (hv : path.Valid) :
    ((Namespace.makeDirectories [] path).run ns).2.HasCutLengths blockSize := by
  rcases run_makeDirectories ns path with ⟨hc, hrun⟩ | ⟨-, hrun⟩ <;> rw [hrun]
  · refine h.of_blocks (by rw [withDirectories_eq]) (by rw [withDirectories_eq])
      fun {other others} hn => ?_
    rw [ht.node?_withDirectories hv hc] at hn
    split_ifs at hn
    · cases hn
    · exact ⟨other, others, hn, rfl⟩
  · exact h

private theorem moved (h : ns.HasCutLengths blockSize) {source target : Path}
    (hcan : ns.CanRename source target) : (ns.moved source target).HasCutLengths blockSize := by
  refine h.of_blocks rfl rfl fun {other others} hn => ?_
  rw [node?_moved hcan] at hn
  split_ifs at hn
  · exact ⟨_, others, hn, rfl⟩
  · exact ⟨other, others, hn, rfl⟩

private theorem removed (h : ns.HasCutLengths blockSize) (hv : ns.Valid) (hne : path ≠ []) :
    (ns.removed path).HasCutLengths blockSize := by
  refine h.of_files rfl (fun {other others} hn => ?_) fun id block hb => ?_
  · rw [node?_removed hne] at hn
    split_ifs at hn with hp
    refine ⟨other, others, hn, ?_⟩
    rw [lengthsOf_eq _ other, hv.recordOf_removed hp hn, ← lengthsOf_eq]
  · rw [removed_blocks, Table.get?_restrict] at hb
    split_ifs at hb
    exact h.copies id block hb

end HasCutLengths

/-- A file has blocks of these lengths, and elsewhere nothing that matters to lengths has
changed. -/
structure WritesLengths (ns after : Namespace) (path : Path) (lengths : List Int) : Prop where
  size_eq : after.blockSize = ns.blockSize
  written : ∃ new, after.node? path = some (.file new) ∧ after.lengthsOf new.blocks = lengths
  others : ∀ other, other ≠ path → after.node? other = ns.node? other ∧
    ∀ content, ns.node? other = some (.file content) →
      after.lengthsOf content.blocks = ns.lengthsOf content.blocks
  copies : ns.CopiesMatch → after.CopiesMatch

private theorem HasCutLengths.write (h : ns.HasCutLengths blockSize) {total : Int}
    (htotal : 0 ≤ total)
    (hwrites : ns.WritesLengths after path (cut blockSize total)) :
    after.HasCutLengths blockSize where
  size_pos := h.size_pos
  size_eq := hwrites.size_eq.trans h.size_eq
  files {other content} hn := by
    by_cases he : other = path
    · obtain ⟨new, hnew, hlengths⟩ := hwrites.written
      rw [he, hnew] at hn
      cases hn
      exact ⟨total, htotal, hlengths⟩
    · obtain ⟨hsame, hkept⟩ := hwrites.others other he
      rw [hsame] at hn
      rw [hkept content hn]
      exact h.files hn
  copies := hwrites.copies h.copies

private theorem writesLengths_of_added (h : ns.Valid) (hafter : after.Valid)
    {candidates : List String} {replication : Int} {index : Nat} {lengths : List Int}
    {new : FileNode} (had : List String) (hhad : ∀ id ∈ had, id ∈ ns.blocks.keys)
    (hnode : ∀ other, after.node? other = if other = path then some (.file new) else ns.node? other)
    (hblocks : after.blocks = ns.blocks.extend
      (newBlocks candidates replication ns.nextBlock index lengths))
    (hsize : after.blockSize = ns.blockSize)
    (hids : new.blocks = had ++
      (newBlocks candidates replication ns.nextBlock index lengths).map Prod.fst) :
    ns.WritesLengths after path (ns.lengthsOf had ++ lengths) := by
  have hknown : ∀ id ∈ ns.blocks.keys, after.blocks.get? id = ns.blocks.get? id := by
    intro id hid
    obtain ⟨block, hb⟩ := Option.isSome_iff_exists.mp (Table.isSome_get?.mpr hid)
    rw [hblocks, Table.get?_extend, hb]
    rfl
  have hkept : ∀ {ids}, (∀ id ∈ ids, id ∈ ns.blocks.keys) →
      after.lengthsOf ids = ns.lengthsOf ids := fun hsub =>
    lengthsOf_congr fun id hid => congrArg (Option.map Block.length) (hknown id (hsub id hid))
  refine ⟨hsize, ⟨new, (hnode path).trans (if_pos rfl), ?_⟩, fun other he => ?_, fun hmatches => ?_⟩
  · have hnodup := hafter.ids_nodup
    rw [hblocks] at hnodup
    have hadded : after.lengthsOf ((newBlocks candidates replication ns.nextBlock index
        lengths).map Prod.fst) = lengths := by
      rw [lengthsOf, hblocks, filterMap_added (fun _ => Block.length) hnodup, map_length_newBlocks]
    rw [hids, lengthsOf_append, hkept hhad, hadded]
  · refine ⟨(hnode other).trans (if_neg he), fun content hn => hkept fun id hid => ?_⟩
    exact (h.known_iff h.toIsTree).mpr ⟨other, content, hn, hid⟩
  · intro id block hb
    rw [hblocks, Table.get?_extend, Option.or_eq_some_iff] at hb
    rcases hb with hold | ⟨-, hnew⟩
    · exact hmatches id block hold
    · obtain ⟨number, hnumber, he⟩ := List.mem_mapIdx.mp (Table.mem_of_get? hnew)
      cases he
      exact matches_blockOn _ _

/-- A new file is cut to the length that was asked for; where there is none, only directories have
been made. -/
theorem HasCutLengths.createFile (h : ns.HasCutLengths blockSize) (hv : ns.Valid) (text : String)
    (length : Int) (replication : Option Int) (nodes : Option (List String))
    (lease : Option String) :
    ((Namespace.createFile text length replication nodes lease).run ns).2.HasCutLengths
      blockSize := by
  have hafter := hv.createFile text length replication nodes lease
  rcases run_createFile ns text length replication nodes lease with
    ⟨cause, hended⟩ | ⟨path, middle, made, hp, hne, hmade, hended⟩
  · rw [hended]
    exact h
  have hparent := (valid_of_readPath hp).parent
  have hmiddle : middle.HasCutLengths blockSize := by
    have hrun := h.makeDirectories hv.toIsTree hparent
    rwa [hmade] at hrun
  rcases hended with ⟨-, cause, hended⟩ | ⟨rfl, hfree, -⟩
  · rw [hended]
    exact hmiddle
  obtain ⟨hvalid, hdirectory⟩ := hv.mkdirs_path hparent
  rw [hmade] at hvalid hdirectory
  rw [run_createFile_of_free hp hne hmade hfree] at hafter ⊢
  dsimp only at hafter ⊢
  have hwrites := writesLengths_of_added hvalid hafter [] (by simp)
    (node?_put hne (hdirectory rfl) (by simp [hfree]) rfl) rfl rfl rfl
  have hcut : middle.lengthsOf [] ++ cut middle.blockSize length =
      cut blockSize (max length 0) := by
    rw [hmiddle.size_eq]
    rcases le_total length 0 with hle | hle
    · rw [max_eq_right hle, cut_of_nonpos hle, cut_of_nonpos le_rfl]
      rfl
    · rw [max_eq_left hle]
      rfl
  rw [hcut] at hwrites
  exact hmiddle.write (le_max_right ..) hwrites

/-! ### Appending -/

private theorem Valid.fillLast_lengths (h : ns.Valid) (hn : ns.node? path = some (.file content))
    (more : Int) :
    ∃ left middle, (fillLast content more).run ns = (.ok left, middle) ∧
      toppedUp ns.blockSize (ns.lengthsOf content.blocks) more =
        middle.lengthsOf content.blocks ++ cut ns.blockSize left ∧
      middle = { ns with blocks := middle.blocks } ∧ middle.Valid ∧
      (∀ id, id ∉ content.blocks → middle.blocks.get? id = ns.blocks.get? id) ∧
      (ns.CopiesMatch → middle.CopiesMatch) := by
  rcases List.eq_nil_or_concat' content.blocks with hnil | ⟨front, last, hids⟩
  · refine ⟨more, ns, run_fillLast_nil hnil more, ?_, rfl, h, fun _ _ => rfl, id⟩
    rw [hnil]
    rfl
  have hmem : last ∈ content.blocks := by simp [hids]
  obtain ⟨block, hb⟩ := Option.isSome_iff_exists.mp (h.known h.toIsTree hn hmem)
  have hlast : content.blocks.getLast? = some last := by rw [hids, List.getLast?_concat]
  have hlengths : ns.lengthsOf content.blocks = ns.lengthsOf front ++ [block.length] := by
    rw [hids, lengthsOf_append]
    simp [lengthsOf, hb]
  let grow := min more (ns.blockSize - block.length)
  let filled := Block.resized block (block.length + grow)
  have hrun : (fillLast content more).run ns = if block.length < ns.blockSize then
      (.ok (more - grow), { ns with blocks := ns.blocks.set last filled }) else (.ok more, ns) :=
    run_fillLast_of_last hlast hb more
  rw [hlengths, toppedUp_concat]
  split_ifs at hrun ⊢ with hroom
  · have hfront : last ∉ front := by
      have hnodup := h.blocks_nodup hn
      rw [hids, List.nodup_append] at hnodup
      exact fun hin => hnodup.2.2 last hin last (List.mem_singleton_self last) rfl
    have hkeys : filled.copies.keys.Nodup := by
      rw [Valid.keys_resized]
      exact h.copies_nodup hb
    refine ⟨more - grow, _, hrun, ?_, rfl, h.setBlock hb filled hkeys, fun other ho => ?_,
      fun hmatches => hmatches.set last (matches_resized block _)⟩
    · rw [hids, lengthsOf_set_last hfront, List.append_assoc]
      rfl
    · have hne : last ≠ other := fun he => ho (he ▸ hmem)
      rw [Table.get?_set, if_neg hne]
  · exact ⟨more, ns, hrun, by rw [hlengths], rfl, h, fun _ _ => rfl, id⟩

private theorem Valid.append_lengths (h : ns.Valid) (text : String) (more : Int)
    (nodes : Option (List String)) :
    ((Namespace.append text more nodes).run ns).2 = ns ∧
        (∀ path content, ns.findFile text = .ok (path, content) → content.lease = none) ∨
      ∃ path content, ns.findFile text = .ok (path, content) ∧ content.lease.isSome = true ∧
        ns.WritesLengths ((Namespace.append text more nodes).run ns).2 path
          (toppedUp ns.blockSize (ns.lengthsOf content.blocks) more) := by
  cases hf : ns.findFile text with
  | error cause =>
    refine .inl ⟨?_, fun _ _ hfound => by cases hfound⟩
    rw [Namespace.append, run_bind, run_look, hf]
  | ok found =>
  obtain ⟨path, content⟩ := found
  cases hl : content.lease with
  | none =>
    refine .inl ⟨?_, fun _ _ hfound => by cases hfound; exact hl⟩
    rw [Namespace.append, run_bind, run_look, hf]
    dsimp only
    rw [if_pos (by rw [hl]; rfl)]
    rfl
  | some holder =>
  have hopen : content.lease.isSome = true := by rw [hl]; rfl
  obtain ⟨-, hn⟩ := findFile_eq_ok.mp hf
  obtain ⟨left, middle, hfilled, htopped, hrest, hmiddle, hkept, hcopies⟩ :=
    h.fillLast_lengths hn more
  have hafter := h.append text more nodes
  rw [run_append_of_filled hf hopen hfilled nodes] at hafter ⊢
  dsimp only at hafter ⊢
  have hnode : ∀ other, middle.node? other = ns.node? other := node?_congr (by rw [hrest])
  have hknown : ∀ id ∈ content.blocks, id ∈ middle.blocks.keys := fun id hid =>
    Table.isSome_get?.mp (hmiddle.known hmiddle.toIsTree ((hnode path).trans hn) hid)
  have hwrites := writesLengths_of_added hmiddle hafter content.blocks hknown
    (node?_file ((hnode path).trans hn) _) rfl rfl rfl
  have hsize : middle.blockSize = ns.blockSize := by rw [hrest]
  refine .inr ⟨path, content, rfl, hopen, hsize, ?_, fun other he => ?_, fun hmatches =>
    hwrites.copies (hcopies hmatches)⟩
  · rw [htopped, ← hsize]
    exact hwrites.written
  · obtain ⟨hsame, hlengths⟩ := hwrites.others other he
    refine ⟨hsame.trans (hnode other), fun others ho => ?_⟩
    rw [hlengths others ((hnode other).trans ho)]
    refine lengthsOf_congr fun id hid => congrArg _ (hkept id fun hmine => ?_)
    exact he (h.owner_unique h.toIsTree ho hn hid hmine)

private theorem shrinks_append_iff {nodes : Option (List String)} :
    (Operation.append text more nodes).shrinks ns = true ↔ more < 0 ∧ ∃ path content,
      ns.findFile text = .ok (path, content) ∧ content.lease.isSome = true ∧
        ∃ last ∈ (ns.lengthsOf content.blocks).getLast?, last < ns.blockSize := by
  rw [Operation.shrinks, blockLocations]
  cases ns.findFile text with
  | error cause => simp [bind, Except.bind]
  | ok found =>
    obtain ⟨path, content⟩ := found
    have hlast : ((ns.recordOf path content).blocks.getLast?.any (·.length < ns.blockSize)) =
        (ns.lengthsOf content.blocks).getLast?.any (· < ns.blockSize) := by
      rw [lengthsOf_eq ns path, List.getLast?_map, Option.any_map]
    simp only [bind, Except.bind, pure, Except.pure, hlast, Bool.and_eq_true, decide_eq_true_eq,
      Option.any_eq_true, Except.ok.injEq, Prod.mk.injEq, and_assoc]
    constructor
    · rintro ⟨hmore, hopen, last, hmem, hlt⟩
      exact ⟨hmore, path, content, rfl, rfl, hopen, last, hmem, hlt⟩
    · rintro ⟨hmore, _, _, rfl, rfl, hopen, last, hmem, hlt⟩
      exact ⟨hmore, hopen, last, hmem, hlt⟩

/-- Every file that is there stays, and does not get shorter. -/
def KeepsLengths (ns after : Namespace) : Prop :=
  ∀ text record, ns.blockLocations text = .ok record →
    ∃ longer, after.blockLocations text = .ok longer ∧ record.length ≤ longer.length

private theorem WritesLengths.keeps {lengths : List Int}
    (hwrites : ns.WritesLengths after path lengths)
    (hn : ns.node? path = some (.file content))
    (hle : (ns.lengthsOf content.blocks).sum ≤ lengths.sum) : ns.KeepsLengths after := by
  intro text record hrecord
  obtain ⟨place, others, hp, ho, rfl⟩ := blockLocations_eq_ok.mp hrecord
  by_cases he : place = path
  · obtain ⟨new, hnew, hlengths⟩ := hwrites.written
    subst he
    rw [file_inj hn ho]
    refine ⟨_, blockLocations_of_file hp hnew, ?_⟩
    rw [length_recordOf, length_recordOf, hlengths]
    exact hle
  · obtain ⟨hsame, hlengths⟩ := hwrites.others place he
    refine ⟨_, blockLocations_of_file hp (hsame.trans ho), ?_⟩
    rw [length_recordOf, length_recordOf, hlengths others ho]

/-- Unless it takes bytes away an append keeps the files cut, and makes none of them shorter. -/
theorem HasCutLengths.append (h : ns.HasCutLengths blockSize) (hv : ns.Valid)
    {nodes : Option (List String)}
    (hkeeps : (Operation.append text more nodes).shrinks ns = false) :
    ((Namespace.append text more nodes).run ns).2.HasCutLengths blockSize ∧
      ns.KeepsLengths ((Namespace.append text more nodes).run ns).2 := by
  rcases hv.append_lengths text more nodes with ⟨hsame, -⟩ | ⟨path, content, hf, hopen, hwrites⟩
  · rw [hsame]
    exact ⟨h, fun _ record hrecord => ⟨record, hrecord, le_rfl⟩⟩
  obtain ⟨-, hn⟩ := findFile_eq_ok.mp hf
  obtain ⟨total, htotal, hlengths⟩ := h.files hn
  have hfull : more < 0 → ∀ last ∈ (cut blockSize total).getLast?, blockSize ≤ last := by
    intro hneg last hlast
    by_contra hshort
    rw [← hlengths] at hlast
    rw [← Bool.not_eq_true, shrinks_append_iff, h.size_eq] at hkeeps
    exact hkeeps ⟨hneg, path, content, hf, hopen, last, hlast, by omega⟩
  obtain ⟨grown, hle, htopped⟩ := exists_toppedUp_cut h.size_pos htotal hfull
  rw [hlengths, h.size_eq, htopped] at hwrites
  refine ⟨h.write (htotal.trans hle) hwrites, hwrites.keeps hn ?_⟩
  rw [hlengths, sum_cut h.size_pos htotal, sum_cut h.size_pos (htotal.trans hle)]
  exact hle

/-- One that takes bytes away makes its file shorter. -/
theorem Valid.not_keeps_of_shrinks (h : ns.Valid) {nodes : Option (List String)}
    (hshrinks : (Operation.append text more nodes).shrinks ns = true) :
    ¬ ns.KeepsLengths ((Namespace.append text more nodes).run ns).2 := by
  intro hkeeps
  obtain ⟨hneg, path, content, hf, hopen, last, hlast, hshort⟩ := shrinks_append_iff.mp hshrinks
  obtain ⟨hp, hn⟩ := findFile_eq_ok.mp hf
  rcases h.append_lengths text more nodes with ⟨-, hclosed⟩ | ⟨place, others, ho, -, hwrites⟩
  · rw [hclosed path content hf] at hopen
    cases hopen
  rw [hf] at ho
  cases ho
  obtain ⟨new, hnew, hlengths⟩ := hwrites.written
  obtain ⟨longer, hlonger, hle⟩ := hkeeps text _ (blockLocations_of_file hp hn)
  rw [blockLocations_of_file hp hnew, Except.ok.injEq] at hlonger
  obtain ⟨front, hfront⟩ := List.getLast?_eq_some_iff.mp hlast
  rw [← hlonger, length_recordOf, length_recordOf, hlengths, hfront,
    sum_toppedUp_of_short hneg hshort] at hle
  omega

/-- Only setting a length and an append that takes bytes away could spoil the lengths. -/
theorem HasCutLengths.perform (h : ns.HasCutLengths blockSize) (hv : ns.Valid) (op : Operation)
    (hset : ∀ id length, op ≠ .setBlockLength id length) (hkeeps : op.shrinks ns = false) :
    (op.perform ns).2.HasCutLengths blockSize := by
  cases op
  case setBlockLength id length => exact absurd rfl (hset id length)
  case removeReplica | addReplica | reportBadReplica => exact h.report rfl hset
  case append text more nodes =>
    rw [Operation.perform, Operation.action, run_answer]
    exact (h.append hv hkeeps).1
  case createFile text length replication nodes lease =>
    rw [Operation.perform, Operation.action, run_answer]
    exact h.createFile hv text length replication nodes lease
  case openForWrite text holder =>
    rcases perform_openForWrite ns text holder with hsame | ⟨path, content, hf, hafter⟩
    · rw [hsame]
      exact h
    · rw [hafter]
      exact h.setFile (findFile_eq_ok.mp hf).2 rfl
  case closeFile text =>
    rcases perform_closeFile ns text with hsame | ⟨path, content, hf, hafter⟩
    · rw [hsame]
      exact h
    · rw [hafter]
      exact h.setFile (findFile_eq_ok.mp hf).2 rfl
  case setNodeLive node live =>
    rw [perform_setNodeLive]
    split_ifs
    · exact h.of_blocks rfl rfl fun hn => ⟨_, _, hn, rfl⟩
    · exact h
  case registerNode | setClock => exact h.of_blocks rfl rfl fun hn => ⟨_, _, hn, rfl⟩
  case mkdirs text =>
    rw [Operation.perform, Operation.action, run_answer, Namespace.mkdirs, run_bind, run_look]
    cases hp : readPath text with
    | error cause => exact h
    | ok path => exact h.makeDirectories hv.toIsTree (valid_of_readPath hp)
  case rename source target =>
    rw [Operation.perform, Operation.action, run_answer, run_rename]
    cases readPath source with
    | error cause => exact h
    | ok source =>
      cases readPath target with
      | error cause => exact h
      | ok target =>
        dsimp only
        split_ifs with hcan
        · exact h.moved hcan
        · exact h
  case delete text recursive =>
    rw [Operation.perform, Operation.action, run_answer, run_delete]
    cases readPath text with
    | error cause => exact h
    | ok path =>
      dsimp only
      split_ifs with hcan
      · exact h.removed hv hcan.1
      · exact h
  all_goals
    simp only [Operation.perform, Operation.action, run_answer, run_look]
    exact h

theorem HasCutLengths.query (h : ns.HasCutLengths blockSize) (hv : ns.Valid) (q : Query) :
    ((Metadata.onNamespace.query q).run ns).2.HasCutLengths blockSize := by
  rw [← perform_query]
  exact h.perform hv q.operation (by cases q <;> simp [Query.operation]) (by cases q <;> rfl)

theorem HasCutLengths.empty (hB : 1 ≤ blockSize) (defaultReplication : Int)
    (nodes : List String) :
    (Namespace.empty blockSize defaultReplication nodes).HasCutLengths blockSize where
  size_pos := hB
  size_eq := rfl
  files {path content} hn := by
    rw [node?_empty] at hn
    split_ifs at hn
    cases hn
  copies _ _ hb := by cases hb

theorem HasCutLengths.isWellCut (h : ns.HasCutLengths blockSize)
    (hn : ns.node? path = some (.file content)) :
    (ns.recordOf path content).IsWellCut blockSize := by
  obtain ⟨total, -, hlengths⟩ := h.files hn
  rw [lengthsOf_eq ns path] at hlengths
  constructor
  case bounded =>
    intro block hmem
    exact bounded_of_mem_cut h.size_pos (hlengths ▸ List.mem_map_of_mem hmem)
  case full =>
    intro block hmem
    have hcut : block.length ∈ (cut blockSize total).dropLast := by
      rw [← hlengths, ← List.map_dropLast]
      exact List.mem_map_of_mem hmem
    exact full_of_mem_dropLast_cut hcut
  case copied =>
    intro block hmem replica hreplica
    obtain ⟨id, -, hfound⟩ := List.mem_filterMap.mp hmem
    obtain ⟨found, hb, rfl⟩ := Option.map_eq_some_iff.mp hfound
    obtain ⟨copy, hcopy, rfl⟩ := List.mem_map.mp hreplica
    exact h.copies id found hb copy (mem_sortedBy.mp hcopy)

end Namespace

/-- A record that is cut well can be judged. -/
theorem FileRecord.IsWellCut.judged {blockSize : Int} {record : FileRecord}
    (h : record.IsWellCut blockSize) (openVisible : Bool) :
    ∃ health, FileHealth.ofRecord record openVisible = .ok health := by
  cases he : FileHealth.ofRecord record openVisible with
  | ok health => exact ⟨health, rfl⟩
  | error malformed =>
    obtain ⟨block, hmem, hneg⟩ := (FileHealth.ofRecord_error record openVisible).mp ⟨malformed, he⟩
    have hblock : block ∈ record.blocks := by
      rw [FileRecord.judged] at hmem
      split_ifs at hmem
      · exact List.dropLast_subset _ hmem
      · cases hmem
      · exact hmem
    have hbounded := h.bounded block hblock
    omega

end BlockFsck
