import Mathlib.Algebra.Order.BigOperators.Group.List
import BlockFsck.Proofs.Namespace.Cutting
import BlockFsck.Proofs.Namespace.Ownership

/-!
# Appending is creating at full length

A file that was made and then grew by any number of appends is the file that would have been made
with its whole length at once: the same blocks with the same ids on the same nodes, and all else as
well but for the time at which the file was written last (`appended_eq_created`).
-/

namespace BlockFsck.Namespace

variable {ns : Namespace} {path : Path} {text : String} {nodes : Option (List String)}
  {replication : Int}

/-- Appends to a file, each at its time. -/
def appends (text : String) (nodes : Option (List String)) (parts : List (Double × Int)) :
    List Operation :=
  parts.flatMap fun part => [.setClock part.1, .append text part.2 nodes]

/-- The namespace as it is when its file at the path was written last at the present time. -/
def writtenAt (ns : Namespace) (path : Path) (time : Double) : Namespace :=
  match ns.node? path with
  | some (.file content) =>
    { ns.place path (.file { content with modified := time }) with clock := time }
  | _ => { ns with clock := time }

/-- The namespace with a file that has blocks of these lengths, all of them new, and was written
last at the present time. -/
def withFile (ns : Namespace) (path : Path) (nodes : Option (List String)) (replication : Int)
    (lease : Option String) (time : Double) (lengths : List Int) : Namespace :=
  let added := newBlocks (nodes.getD ns.liveNodes) replication ns.nextBlock 0 lengths
  { ns.place path (.file ⟨replication, added.map Prod.fst, lease, time⟩) with
    clock := time
    nextBlock := ns.nextBlock + added.length
    blocks := ns.blocks.extend added }

/-- What the path holds there. -/
theorem node?_withFile (hne : path ≠ []) (hparent : ns.node? path.parent = some .directory)
    (lease : Option String) (time : Double)
    (lengths : List Int) :
    (ns.withFile path nodes replication lease time lengths).node? path = some (.file
      ⟨replication,
        (newBlocks (nodes.getD ns.liveNodes) replication ns.nextBlock 0 lengths).map Prod.fst,
        lease, time⟩) := by
  have hplace := node?_place hne hparent (.file ⟨replication,
    (newBlocks (nodes.getD ns.liveNodes) replication ns.nextBlock 0 lengths).map Prod.fst,
    lease, time⟩) path
  rw [if_pos (List.prefix_refl path), List.drop_length, Inode.lookup_nil, Option.map_some] at hplace
  exact hplace

private theorem writtenAt_withFile (hne : path ≠ [])
    (hparent : ns.node? path.parent = some .directory)
    (lease : Option String) (time later : Double) (lengths : List Int) :
    (ns.withFile path nodes replication lease time lengths).writtenAt path later =
      ns.withFile path nodes replication lease later lengths := by
  rw [writtenAt, node?_withFile hne hparent]
  simp only [withFile, ← place_place ns path
    (.file ⟨replication,
      (newBlocks (nodes.getD ns.liveNodes) replication ns.nextBlock 0 lengths).map Prod.fst,
      lease, time⟩)
    (.file ⟨replication,
      (newBlocks (nodes.getD ns.liveNodes) replication ns.nextBlock 0 lengths).map Prod.fst,
      lease, later⟩)]
  rfl

private theorem Valid.run_fillLast_of_new (h : ns.Valid) {candidates : List String}
    {lengths : List Int}
    (content : FileNode) (grown : Namespace) (hsize : grown.blockSize = ns.blockSize)
    (hlisted : content.blocks =
      (newBlocks candidates replication ns.nextBlock 0 lengths).map Prod.fst)
    (hblocks : grown.blocks =
      ns.blocks.extend (newBlocks candidates replication ns.nextBlock 0 lengths))
    (more : Int) :
    ∃ filled left, filled.length = lengths.length ∧
      toppedUp ns.blockSize lengths more = filled ++ cut ns.blockSize left ∧
      (fillLast content more).run grown = (.ok left, { grown with
        blocks := ns.blocks.extend (newBlocks candidates replication ns.nextBlock 0 filled) }) := by
  rcases List.eq_nil_or_concat' lengths with rfl | ⟨front, last, rfl⟩
  · refine ⟨[], more, rfl, by rw [toppedUp_nil, List.nil_append], ?_⟩
    rw [run_fillLast_nil hlisted, ← hblocks]
  let id := blockId (ns.nextBlock + front.length)
  let holders := placement candidates replication front.length
  let grow := min more (ns.blockSize - last)
  have hconcat : ∀ size, newBlocks candidates replication ns.nextBlock 0 (front ++ [size]) =
      newBlocks candidates replication ns.nextBlock 0 front ++ [(id, blockOn holders size)] := by
    intro size
    rw [newBlocks_append, newBlocks_cons, Nat.zero_add]
    rfl
  have hnew : id ∉ ns.blocks.keys := by
    intro hmem
    obtain ⟨number, hlt, he⟩ := h.numbered hmem
    have hsame := blockId_inj.mp he
    omega
  have hfront := blockId_not_mem_newBlocks candidates replication ns.nextBlock 0 front
  rw [hconcat] at hlisted hblocks
  have hlast : content.blocks.getLast? = some id := by
    rw [hlisted, List.map_append, List.map_singleton, List.getLast?_concat]
  have hknown : grown.blocks.get? id = some (blockOn holders last) := by
    rw [hblocks]
    exact Table.get?_extend_concat hnew hfront _
  have hrun : (fillLast content more).run grown = if last < ns.blockSize then
      (.ok (more - grow),
        { grown with blocks := grown.blocks.set id (blockOn holders (last + grow)) })
      else (.ok more, grown) := by
    rw [← resized_blockOn holders last, ← hsize]
    simp only [grow, ← hsize]
    exact run_fillLast_of_last hlast hknown more
  rw [hrun, toppedUp_concat]
  split_ifs with hroom
  · refine ⟨front ++ [last + grow], more - grow, by simp, by simp [grow], ?_⟩
    rw [hconcat, hblocks, Table.set_extend_concat hnew hfront]
  · refine ⟨front ++ [last], more, rfl, rfl, ?_⟩
    rw [hconcat, ← hblocks]

private theorem Valid.run_append_withFile (h : ns.Valid) (hp : readPath text = .ok path)
    (hne : path ≠ [])
    (hparent : ns.node? path.parent = some .directory) (nodes : Option (List String))
    (replication : Int) (holder : String) (time later : Double) (lengths : List Int) (more : Int) :
    let grown := ns.withFile path nodes replication (some holder) later
      (toppedUp ns.blockSize lengths more)
    (Namespace.append text more nodes).run
        { ns.withFile path nodes replication (some holder) time lengths with clock := later } =
      (grown.blockLocations text, grown) := by
  intro grown
  let candidates := nodes.getD ns.liveNodes
  let content : FileNode := ⟨replication,
    (newBlocks candidates replication ns.nextBlock 0 lengths).map Prod.fst, some holder, time⟩
  let start : Namespace :=
    { ns.withFile path nodes replication (some holder) time lengths with clock := later }
  have hnode : start.node? path = some (.file content) :=
    (node?_congr rfl path).trans (node?_withFile hne hparent _ time lengths)
  have hf : start.findFile text = .ok (path, content) := findFile_eq_ok.mpr ⟨hp, hnode⟩
  obtain ⟨filled, left, hlength, htopped, hfilled⟩ :=
    h.run_fillLast_of_new content start rfl rfl rfl more
  have hids : (newBlocks candidates replication ns.nextBlock 0 lengths).map Prod.fst =
      (newBlocks candidates replication ns.nextBlock 0 filled).map Prod.fst := by
    rw [newBlocks_ids, newBlocks_ids, hlength]
  let added := newBlocks candidates replication start.nextBlock content.blocks.length
    (cut ns.blockSize left)
  have hadded : newBlocks candidates replication ns.nextBlock 0
      (toppedUp ns.blockSize lengths more) =
      newBlocks candidates replication ns.nextBlock 0 filled ++ added := by
    rw [htopped, newBlocks_append, hlength]
    simp only [added, start, content, withFile, candidates, List.length_map, length_newBlocks,
      Nat.zero_add]
  have hgrown : grown = { start.place path (.file { content with
        blocks := content.blocks ++ added.map Prod.fst, modified := later }) with
      nextBlock := start.nextBlock + added.length
      blocks := (ns.blocks.extend (newBlocks candidates replication ns.nextBlock 0 filled)).extend
        added } := by
    have hroot : ∀ entry, (start.place path entry).root = (ns.place path entry).root :=
      fun entry => (congrArg root (place_place ns path (.file content) entry) :)
    simp only [grown, withFile, candidates] at hadded ⊢
    rw [hadded]
    simp only [Namespace.mk.injEq]
    rw [hroot]
    simp only [start, content, withFile, candidates, Table.extend_append, hids,
      List.map_append, List.length_append, length_newBlocks, hlength, Nat.add_assoc]
    trivial
  rw [hgrown]
  exact run_append_of_filled hf rfl hfilled nodes

private theorem Valid.perform_append_withFile (h : ns.Valid) (hB : 1 ≤ ns.blockSize)
    (hp : readPath text = .ok path) (hne : path ≠ [])
    (hparent : ns.node? path.parent = some .directory) (nodes : Option (List String))
    (replication : Int) (holder : String) (time later : Double) {length more : Int}
    (hlength : 0 ≤ length) (hmore : 0 ≤ more) :
    ∃ record, (Operation.append text more nodes).perform
        { ns.withFile path nodes replication (some holder) time (cut ns.blockSize length) with
          clock := later } =
      (.ok (.record record), ns.withFile path nodes replication (some holder) later
        (cut ns.blockSize (length + more))) := by
  have hrun := h.run_append_withFile hp hne hparent nodes replication holder time later
    (cut ns.blockSize length) more
  rw [toppedUp_cut hB hlength hmore] at hrun
  dsimp only at hrun
  rw [blockLocations_of_file hp (node?_withFile hne hparent (some holder) later _)] at hrun
  rw [Operation.perform, Operation.action, run_bind, hrun]
  exact ⟨_, rfl⟩

private theorem Valid.upToRefusal_appends (h : ns.Valid) (hB : 1 ≤ ns.blockSize)
    (hp : readPath text = .ok path) (hne : path ≠ [])
    (hparent : ns.node? path.parent = some .directory) (nodes : Option (List String))
    (replication : Int) (holder : String) (time : Double) {length : Int} (hlength : 0 ≤ length)
    {parts : List (Double × Int)} (hparts : ∀ part ∈ parts, 0 ≤ part.2) :
    (ns.withFile path nodes replication (some holder) time (cut ns.blockSize length)).upToRefusal
        (appends text nodes parts) =
      (none, ns.withFile path nodes replication (some holder)
        ((parts.map Prod.fst).getLast?.getD time)
        (cut ns.blockSize (length + (parts.map Prod.snd).sum))) := by
  induction parts generalizing time length with
  | nil => simp [appends, upToRefusal]
  | cons part parts ih =>
    obtain ⟨later, more⟩ := part
    have hmore : 0 ≤ more := hparts (later, more) List.mem_cons_self
    have hrest := ih later (by omega : 0 ≤ length + more)
      fun part hmem => hparts part (List.mem_cons_of_mem _ hmem)
    obtain ⟨record, hperform⟩ :=
      h.perform_append_withFile hB hp hne hparent nodes replication holder time later hlength hmore
    have hclock : ∀ start : Namespace, (Operation.setClock later).perform start =
        (.ok .nothing, { start with clock := later }) := fun _ => rfl
    rw [appends, List.flatMap_cons, List.cons_append, upToRefusal, hclock]
    dsimp only
    rw [List.cons_append, upToRefusal, hperform, List.nil_append]
    dsimp only
    rw [← appends, hrest, List.map_cons, List.map_cons, List.sum_cons, ← add_assoc,
      List.getLast?_cons]
    rfl

private theorem lengths_withFile {lease : Option String} {time : Double} {lengths : List Int}
    (h : (ns.withFile path nodes replication lease time lengths).Valid) (place : Path)
    {content : FileNode} (hlisted : content.blocks =
      (newBlocks (nodes.getD ns.liveNodes) replication ns.nextBlock 0 lengths).map Prod.fst) :
    ((ns.withFile path nodes replication lease time lengths).recordOf place content).blocks.map
      BlockRecord.length = lengths := by
  rw [map_length_recordOf, hlisted]
  exact (filterMap_added (fun _ => Block.length) h.ids_nodup).trans (map_length_newBlocks ..)

/-- Where a file can be made with one length, it can be made with any. -/
theorem Valid.createFile_any_length (h : ns.Valid) {length : Int} {asked : Option Int}
    {lease : Option String} {record : FileRecord} {made : Namespace}
    (hcreate : (Namespace.createFile text length asked nodes lease).run ns = (.ok record, made)) :
    ∃ path, ∃ middle : Namespace, readPath text = .ok path ∧ path ≠ [] ∧
      middle.node? path.parent = some .directory ∧ middle.Valid ∧
      middle = { ns with root := middle.root } ∧
      ∀ other : Int, (Namespace.createFile text other asked nodes lease).run ns =
        let full := middle.withFile path nodes (ns.effectiveReplication asked) lease ns.clock
          (cut ns.blockSize other)
        (full.blockLocations text, full) := by
  rcases run_createFile ns text length asked nodes lease with
    ⟨cause, hended⟩ | ⟨path, middle, answer, hp, hne, hmade, hended⟩
  · rw [hcreate] at hended
    cases hended
  rw [hcreate] at hended
  rcases hended with ⟨-, cause, hended⟩ | ⟨rfl, hfree, -⟩
  · cases hended
  have hparent : path.parent.Valid := (valid_of_readPath hp).parent
  obtain ⟨hc, hmiddle⟩ : ns.Clear path.parent ∧ ns.withDirectories [] path.parent = middle := by
    rcases run_makeDirectories ns path.parent with ⟨hc, hrun⟩ | ⟨-, hrun⟩ <;>
      rw [hrun] at hmade <;> cases hmade
    exact ⟨hc, rfl⟩
  have hrest : middle = { ns with root := middle.root } := by
    rw [← hmiddle]
    exact withDirectories_eq ns [] path.parent
  have hdirectory : middle.node? path.parent = some .directory := by
    rw [← hmiddle, h.node?_withDirectories hparent hc, if_pos (List.prefix_refl _)]
  refine ⟨path, middle, hp, hne, hdirectory, hmiddle ▸ h.withDirectories hparent hc, hrest,
    fun other => ?_⟩
  have hrun := run_createFile_of_free hp hne hmade hfree other asked nodes lease
  have hsize : middle.blockSize = ns.blockSize := by rw [hrest]
  have hclock : middle.clock = ns.clock := by rw [hrest]
  have hreplication : middle.effectiveReplication asked = ns.effectiveReplication asked := by
    rw [hrest]
    rfl
  rw [← hsize, ← hreplication, ← hclock]
  exact hrun

/-- A file that was made with some length and has grown since is the file that is made with the
whole length, written at the time of the last append. -/
theorem appended_eq_created (h : ns.Reachable) (hB : 1 ≤ ns.blockSize) {length : Int}
    {asked : Option Int} {holder : String} {record : FileRecord} {made : Namespace}
    (hcreate : (createFile text length asked nodes (some holder)).run ns = (.ok record, made))
    (hlength : 0 ≤ length) {parts : List (Double × Int)} (hparts : ∀ part ∈ parts, 0 ≤ part.2) :
    let total := length + (parts.map Prod.snd).sum
    let time := (parts.map Prod.fst).getLast?.getD ns.clock
    ∃ path whole full, readPath text = .ok path ∧
      (createFile text total asked nodes (some holder)).run ns = (.ok whole, full) ∧
      made.upToRefusal (appends text nodes parts) = (none, full.writtenAt path time) ∧
      (full.writtenAt path time).blockLocations text = .ok { whole with modified := time } ∧
      whole.blocks.map BlockRecord.length =
        List.replicate (total / ns.blockSize).toNat ns.blockSize ++
          if total % ns.blockSize = 0 then [] else [total % ns.blockSize] := by
  intro total time
  obtain ⟨path, middle, hp, hne, hparent, hmiddle, hrest, hany⟩ :=
    h.valid.createFile_any_length hcreate
  have hsize : middle.blockSize = ns.blockSize := by rw [hrest]
  let full := middle.withFile path nodes (ns.effectiveReplication asked) (some holder) ns.clock
    (cut ns.blockSize total)
  have hfull : full.Valid := by
    have hvalid := h.valid.createFile text total asked nodes (some holder)
    rwa [hany] at hvalid
  have hmade : made = middle.withFile path nodes (ns.effectiveReplication asked) (some holder)
      ns.clock (cut ns.blockSize length) := by
    have hended := hany length
    rw [hcreate] at hended
    exact congrArg Prod.snd hended
  have hnode : full.node? path = some (.file _) :=
    node?_withFile hne hparent (some holder) ns.clock (cut ns.blockSize total)
  have hlocate := blockLocations_of_file hp hnode
  refine ⟨path, _, full, hp, (hany total).trans (congrArg (·, full) hlocate), ?_, ?_, ?_⟩
  · have happends := hmiddle.upToRefusal_appends (hsize ▸ hB) hp hne hparent nodes
      (ns.effectiveReplication asked) holder ns.clock hlength hparts
    rw [hsize] at happends
    rw [hmade, happends, writtenAt_withFile hne hparent]
  · rw [writtenAt_withFile hne hparent]
    exact blockLocations_of_file hp
      (node?_withFile hne hparent (some holder) time (cut ns.blockSize total))
  · have hmore : 0 ≤ (parts.map Prod.snd).sum :=
      List.sum_nonneg (List.forall_mem_map.mpr hparts)
    rw [lengths_withFile hfull path rfl, cut_eq hB (by omega)]

/-- Three storage nodes, and two copies of a block of four bytes at most. -/
def threeNodes : Namespace := Namespace.empty 4 2 ["n1", "n2", "n3"]

/-- Five bytes, then two, then six: three full blocks of four bytes and one byte, as if all thirteen
had been there from the start. -/
theorem appended_eq_created_of_threeNodes :
    threeNodes.Reachable ∧ ∃ record made,
      (createFile "/d/a" 5 none none (some "w")).run threeNodes = (.ok record, made) ∧
      ∃ whole full, (createFile "/d/a" 13 none none (some "w")).run threeNodes = (.ok whole, full) ∧
        made.upToRefusal (appends "/d/a" none [(.finite 1, 2), (.finite 2, 6)]) =
          (none, full.writtenAt ["d", "a"] (.finite 2)) ∧
        whole.blocks.map BlockRecord.length = [4, 4, 4, 1] := by
  have hr : threeNodes.Reachable := ⟨4, 2, ["n1", "n2", "n3"], [], rfl⟩
  have hB : 1 ≤ threeNodes.blockSize := by decide
  have hpath : readPath "/d/a" = .ok ["d", "a"] := by decide +kernel
  obtain ⟨record, made, hcreate⟩ : ∃ record made,
      (createFile "/d/a" 5 none none (some "w")).run threeNodes = (.ok record, made) := by
    have hok : ((createFile "/d/a" 5 none none (some "w")).run threeNodes).1.isOk = true := by
      decide +kernel
    generalize (createFile "/d/a" 5 none none (some "w")).run threeNodes = ended at hok
    rcases ended with ⟨_ | record, made⟩
    · cases hok
    · exact ⟨record, made, rfl⟩
  have hparts : ∀ part ∈ [((.finite 1 : Double), (2 : Int)), (.finite 2, 6)], 0 ≤ part.2 := by
    decide
  obtain ⟨path, whole, full, hp, hwhole, happends, -, hlengths⟩ :=
    appended_eq_created hr hB hcreate (by decide) hparts
  obtain rfl : ["d", "a"] = path := Except.ok.inj (hpath.symm.trans hp)
  exact ⟨hr, record, made, hcreate, whole, full, hwhole, happends,
    hlengths.trans (by decide +kernel)⟩

end BlockFsck.Namespace
