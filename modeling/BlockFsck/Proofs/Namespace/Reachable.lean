import BlockFsck.Metadata
import BlockFsck.Proofs.Namespace.Action

/-!
# Reachable namespaces

Every operation, refused or not, leaves a well-formed namespace well-formed, and so every
namespace that can be reached from an empty one is.
-/

namespace BlockFsck

/-- The operation that a query asks for. -/
def Query.operation : Query → Operation
  | .resolve path => .resolve path
  | .listChildren path => .listChildren path
  | .blockLocations path => .blockLocations path
  | .rename source target => .rename source target
  | .mkdirs path => .mkdirs path
  | .delete path recursive => .delete path recursive
  | .corruptFiles => .corruptFiles

namespace Namespace

variable {α : Type} {ns : Namespace}

private theorem find_eq_ok {text : String} {path : Path} {entry : Inode} :
    ns.find text = .ok (path, entry) ↔ readPath text = .ok path ∧ ns.lookup path = some entry := by
  unfold find
  cases readPath text with
  | error e => simp [bind, Except.bind]
  | ok read =>
    cases hn : ns.lookup read with
    | none =>
      simp only [bind, Except.bind, hn, throw, throwThe, MonadExceptOf.throw, reduceCtorEq,
        false_iff, not_and, Except.ok.injEq]
      rintro rfl
      simp [hn]
    | some found =>
      simp only [bind, Except.bind, hn, pure, Except.pure, Except.ok.injEq, Prod.mk.injEq]
      constructor
      · rintro ⟨rfl, rfl⟩
        exact ⟨rfl, hn⟩
      · rintro ⟨rfl, h⟩
        exact ⟨rfl, Option.some.inj (hn.symm.trans h)⟩

theorem findFile_eq_ok {text : String} {path : Path} {content : FileNode} :
    ns.findFile text = .ok (path, content) ↔
      readPath text = .ok path ∧ ns.node? path = some (.file content) := by
  rw [node?_eq_file, ← find_eq_ok, findFile]
  rcases ns.find text with e | ⟨read, _ | found⟩
  · simp [bind, Except.bind]
  · simp [bind, Except.bind, throw, throwThe, MonadExceptOf.throw]
  · simp [bind, Except.bind, pure, Except.pure]

theorem findBlock_eq_ok {id : String} {block : Block} :
    ns.findBlock id = .ok block ↔ ns.blocks.get? id = some block := by
  unfold findBlock
  cases ns.blocks.get? id <;> simp

/-- A new file comes after the directories above it, with blocks that were just allocated, and is
read back. -/
theorem run_createFile (ns : Namespace) (text : String) (length : Int) (replication : Option Int)
    (nodes : Option (List String)) (lease : Option String) :
    let ended := (createFile text length replication nodes lease).run ns
    (∃ cause, ended = (.error cause, ns)) ∨ ∃ path middle made, readPath text = .ok path ∧
      path ≠ [] ∧ (makeDirectories [] path.parent).run ns = (made, middle) ∧
      ((made = .ok true → middle.node? path ≠ none) ∧ (∃ cause, ended = (.error cause, middle)) ∨
        made = .ok true ∧ middle.node? path = none ∧ ∃ candidates replication lengths,
          let added := newBlocks candidates replication middle.nextBlock 0 lengths
          ended.2 = { middle.place path
              (.file ⟨replication, added.map Prod.fst, lease, middle.clock⟩) with
            nextBlock := middle.nextBlock + added.length
            blocks := middle.blocks.extend added } ∧
            ended.1 = ended.2.blockLocations text) := by
  intro ended
  simp only [ended, createFile, run_bind, run_look]
  cases hp : readPath text with
  | error e => exact .inl ⟨e, rfl⟩
  | ok path =>
    dsimp only
    by_cases hne : path = []
    · rw [if_pos hne]
      exact .inl ⟨_, rfl⟩
    refine .inr ⟨path, ((makeDirectories [] path.parent).run ns).2,
      ((makeDirectories [] path.parent).run ns).1, rfl, hne, rfl, ?_⟩
    rw [if_neg hne, run_bind]
    rcases (makeDirectories [] path.parent).run ns with ⟨e | made, middle⟩
    · exact .inl ⟨by simp, _, rfl⟩
    cases made with
    | false => exact .inl ⟨by simp, _, rfl⟩
    | true =>
      dsimp only
      rw [if_neg (by decide : ¬ (!true) = true), run_bind, run_get]
      dsimp only
      rw [ne_eq, node?_eq_none]
      cases middle.lookup path with
      | some entry => exact .inl ⟨by simp, _, rfl⟩
      | none => exact .inr ⟨rfl, rfl, _, _, _, rfl, rfl⟩

private theorem run_fillLast (ns : Namespace) (content : FileNode) (length : Int) :
    ∃ left after, (fillLast content length).run ns = (.ok left, after) ∧
      (after = ns ∨ ∃ id block size, id ∈ content.blocks ∧ ns.blocks.get? id = some block ∧
        after = { ns with blocks := ns.blocks.set id (Block.resized block size) }) := by
  rw [fillLast, run_bind, run_get]
  dsimp only
  cases hl : content.blocks.getLast? with
  | none => exact ⟨length, ns, rfl, .inl rfl⟩
  | some id =>
    have hid := List.mem_of_getLast? hl
    dsimp only
    cases hb : ns.blocks.get? id with
    | none => exact ⟨length, ns, rfl, .inl rfl⟩
    | some block =>
      dsimp only
      split_ifs
      · exact ⟨_, _, rfl, .inr ⟨id, block, _, hid, hb, rfl⟩⟩
      · exact ⟨length, ns, rfl, .inl rfl⟩

/-- Appended blocks were just allocated; before that the last block may have been filled, and in the
end the file is read back. -/
theorem run_append (ns : Namespace) (text : String) (length : Int)
    (nodes : Option (List String)) :
    let ended := (append text length nodes).run ns
    (∃ cause, ended = (.error cause, ns)) ∨ ∃ path content middle,
      ns.findFile text = .ok (path, content) ∧
      (middle = ns ∨ ∃ id block size, id ∈ content.blocks ∧ ns.blocks.get? id = some block ∧
        middle = { ns with blocks := ns.blocks.set id (Block.resized block size) }) ∧
        ∃ candidates lengths,
          let added := newBlocks candidates content.replication middle.nextBlock
            content.blocks.length lengths
          ended.2 = { middle.place path (.file { content with
              blocks := content.blocks ++ added.map Prod.fst
              modified := middle.clock }) with
            nextBlock := middle.nextBlock + added.length
            blocks := middle.blocks.extend added } ∧
            ended.1 = ended.2.blockLocations text := by
  intro ended
  simp only [ended, append, run_bind, run_look]
  cases hf : ns.findFile text with
  | error e => exact .inl ⟨e, rfl⟩
  | ok found =>
    obtain ⟨path, content⟩ := found
    dsimp only
    by_cases hl : content.lease.isNone = true
    · rw [if_pos hl]
      exact .inl ⟨_, rfl⟩
    obtain ⟨left, middle, hrun, hmiddle⟩ := run_fillLast ns content length
    have hcandidates : (candidatesFrom nodes).run ns = (.ok (nodes.getD ns.liveNodes), ns) := rfl
    refine .inr ⟨path, content, middle, rfl, hmiddle, nodes.getD ns.liveNodes,
      cut middle.blockSize left, ?_⟩
    rw [if_neg hl, run_bind, hcandidates]
    dsimp only
    rw [run_bind, hrun]
    exact ⟨rfl, rfl⟩

theorem node?_empty (blockSize defaultReplication : Int) (nodes : List String) (path : Path) :
    (Namespace.empty blockSize defaultReplication nodes).node? path =
      if path = [] then some .directory else none := by
  cases path <;> rfl

namespace Valid

private theorem congr {other : Namespace} (h : ns.Valid) (he : other.root = ns.root)
    (hb : other.blocks = ns.blocks) (hn : other.nextBlock = ns.nextBlock)
    (hnodes : other.nodes.keys.Nodup) : other.Valid where
  toIsTree := h.toIsTree.congr he
  toIsRegistry := h.of_listed (.of_eq (listedBlocks_congr he)) hb hn
  nodes_nodup := hnodes

private theorem setFile (h : ns.Valid) {path : Path} {old : FileNode}
    (hold : ns.node? path = some (.file old)) (new : FileNode) (hblocks : new.blocks = old.blocks) :
    (ns.place path (.file new)).Valid where
  toIsTree := h.put (ne_root_of_file hold) (h.path_valid hold) (parent_directory hold) rfl
  toIsRegistry := by
    have hmore : (Inode.file new).blockIds = ns.blocksUnder path ++ [] := by
      rw [blocksUnder_of_file hold, List.append_nil, Inode.blockIds, hblocks]
    have hlisted := h.listedBlocks_put (ne_root_of_file hold) (h.path_valid hold)
      (parent_directory hold) rfl hmore
    exact h.of_listed (by simpa using hlisted) rfl rfl
  nodes_nodup := h.nodes_nodup

theorem setBlock (h : ns.Valid) {id : String} {old : Block}
    (hold : ns.blocks.get? id = some old) (new : Block) (hc : new.copies.keys.Nodup) :
    ({ ns with blocks := ns.blocks.set id new } : Namespace).Valid where
  toIsTree := h.toIsTree.congr rfl
  toIsRegistry := h.toIsRegistry.setBlock (Table.isSome_get?.mp (by simp [hold])) hc
  nodes_nodup := h.nodes_nodup

private theorem writeBlocks (h : ns.Valid) {path : Path} {had : List String}
    (candidates : List String) (replication : Int) (index : Nat) (lengths : List Int)
    (hne : path ≠ []) (hv : path.Valid) (hparent : ns.node? path.parent = some .directory)
    (hold : ns.node? path = none ∧ had = [] ∨
      ∃ old, ns.node? path = some (.file old) ∧ had = old.blocks) (new : FileNode) :
    let added := newBlocks candidates replication ns.nextBlock index lengths
    new.blocks = had ++ added.map Prod.fst →
      ({ ns.place path (.file new) with
        nextBlock := ns.nextBlock + added.length
        blocks := ns.blocks.extend added } : Namespace).Valid := by
  intro added hblocks
  have hmore : (Inode.file new).blockIds = ns.blocksUnder path ++ added.map Prod.fst := by
    rw [Inode.blockIds, hblocks]
    rcases hold with ⟨hn, rfl⟩ | ⟨old, hn, rfl⟩
    · rw [blocksUnder_of_none hn]
    · rw [blocksUnder_of_file hn]
  have listed := h.listedBlocks_put hne hv hparent rfl hmore
  exact
    { toIsTree := (h.put hne hv hparent rfl).congr rfl
      toIsRegistry := h.addBlocks candidates replication index lengths listed rfl rfl
      nodes_nodup := h.nodes_nodup }

/-! ## Operations -/

theorem mkdirs_path (h : ns.Valid) {path : Path} (hv : path.Valid) :
    ((makeDirectories [] path).run ns).2.Valid ∧
      (((makeDirectories [] path).run ns).1 = .ok true →
        ((makeDirectories [] path).run ns).2.node? path = some .directory) := by
  rcases run_makeDirectories _ path with ⟨hc, hrun⟩ | ⟨-, hrun⟩
  · rw [hrun]
    refine ⟨h.withDirectories hv hc, fun _ => ?_⟩
    rw [h.node?_withDirectories hv hc, if_pos (List.prefix_refl path)]
  · rw [hrun]
    exact ⟨h, by simp⟩

private theorem mkdirs (h : ns.Valid) (text : String) : ((mkdirs text).run ns).2.Valid := by
  rw [Namespace.mkdirs, run_bind, run_look]
  cases hp : readPath text with
  | error e => exact h
  | ok path => exact (h.mkdirs_path (valid_of_readPath hp)).1

theorem moved (h : ns.Valid) {source target : Path} (hcan : ns.CanRename source target)
    (hv : target.Valid) : (ns.moved source target).Valid where
  toIsTree := h.toIsTree.moved hcan hv
  toIsRegistry := h.toIsRegistry.moved h.toIsTree hcan hv
  nodes_nodup := h.nodes_nodup

private theorem rename (h : ns.Valid) (source target : String) :
    ((rename source target).run ns).2.Valid := by
  rw [run_rename]
  cases readPath source with
  | error e => exact h
  | ok source =>
    cases ht : readPath target with
    | error e => exact h
    | ok target =>
      dsimp only
      split_ifs with hcan
      · exact h.moved hcan (valid_of_readPath ht)
      · exact h

theorem removed (h : ns.Valid) {path : Path} (hne : path ≠ []) : (ns.removed path).Valid where
  toIsTree := h.toIsTree.removed hne
  toIsRegistry := h.toIsRegistry.removed h.toIsTree hne
  nodes_nodup := h.nodes_nodup

private theorem delete (h : ns.Valid) (text : String) (recursive : Bool) :
    ((delete text recursive).run ns).2.Valid := by
  rw [run_delete]
  cases readPath text with
  | error e => exact h
  | ok path =>
    dsimp only
    split_ifs with hc
    · exact h.removed hc.1
    · exact h

private theorem registerNode (h : ns.Valid) (node : String) (live : Bool) :
    ((registerNode node live).run ns).2.Valid :=
  h.congr rfl rfl rfl (Table.keys_set_nodup h.nodes_nodup node live)

private theorem setNodeLive (h : ns.Valid) (node : String) (live : Bool) :
    ((setNodeLive node live).run ns).2.Valid := by
  rw [Namespace.setNodeLive, run_bind, run_get]
  dsimp only
  split_ifs
  · exact h.registerNode node live
  · exact h

theorem createFile (h : ns.Valid) (text : String) (length : Int) (replication : Option Int)
    (nodes : Option (List String)) (lease : Option String) :
    ((createFile text length replication nodes lease).run ns).2.Valid := by
  rcases run_createFile ns text length replication nodes lease with
    ⟨cause, hended⟩ | ⟨path, middle, made, hp, hne, hrun, hended⟩
  · rw [hended]
    exact h
  have hv := valid_of_readPath hp
  obtain ⟨hmade, hdirectory⟩ := h.mkdirs_path hv.parent
  rw [hrun] at hmade hdirectory
  rcases hended with ⟨-, cause, hended⟩ | ⟨rfl, hn, candidates, replication, lengths, hafter, -⟩
  · rw [hended]
    exact hmade
  · rw [hafter]
    exact hmade.writeBlocks candidates replication 0 lengths hne hv (hdirectory rfl)
      (.inl ⟨hn, rfl⟩) _ rfl

theorem keys_resized (block : Block) (length : Int) :
    (Block.resized block length).copies.keys = block.copies.keys := by
  simp [Block.resized, Table.keys, Function.comp_def]

theorem append (h : ns.Valid) (text : String) (length : Int) (nodes : Option (List String)) :
    ((append text length nodes).run ns).2.Valid := by
  rcases run_append ns text length nodes with
    ⟨cause, hended⟩ | ⟨path, content, middle, hf, hmiddle, candidates, lengths, hafter, -⟩
  · rw [hended]
    exact h
  obtain ⟨hp, hn⟩ := findFile_eq_ok.mp hf
  have hfilled : middle.Valid ∧ middle.node? path = some (.file content) := by
    rcases hmiddle with rfl | ⟨id, block, size, -, hb, rfl⟩
    · exact ⟨h, hn⟩
    · have hcopies : (Block.resized block size).copies.keys.Nodup := by
        rw [keys_resized]
        exact h.copies_nodup hb
      exact ⟨h.setBlock hb _ hcopies, hn⟩
  obtain ⟨hvalid, hn⟩ := hfilled
  rw [hafter]
  exact hvalid.writeBlocks candidates content.replication content.blocks.length lengths
    (ne_root_of_file hn) (valid_of_readPath hp) (parent_directory hn)
    (.inr ⟨content, hn, rfl⟩) _ rfl

private theorem openForWrite (h : ns.Valid) (text : String) (holder : Option String) :
    ((openForWrite text holder).run ns).2.Valid := by
  rw [Namespace.openForWrite, run_bind, run_look]
  cases hf : ns.findFile text with
  | error e => exact h
  | ok found =>
    obtain ⟨path, content⟩ := found
    have written := h.setFile (findFile_eq_ok.mp hf).2 { content with lease := holder } rfl
    dsimp only
    cases content.lease with
    | none => exact written
    | some other =>
      dsimp only
      split_ifs
      · exact h
      · exact written

private theorem closeFile (h : ns.Valid) (text : String) : ((closeFile text).run ns).2.Valid := by
  rw [Namespace.closeFile, run_bind, run_look]
  cases hf : ns.findFile text with
  | error e => exact h
  | ok found =>
    obtain ⟨path, content⟩ := found
    exact h.setFile (findFile_eq_ok.mp hf).2
      { content with lease := none, modified := ns.clock } rfl

private theorem removeReplica (h : ns.Valid) (id node : String) :
    ((removeReplica id node).run ns).2.Valid := by
  rw [Namespace.removeReplica, run_bind, run_look]
  cases hb : ns.findBlock id with
  | error e => exact h
  | ok block =>
    have hg := findBlock_eq_ok.mp hb
    exact h.setBlock hg { block with copies := block.copies.erase node }
      (Table.keys_erase_nodup (h.copies_nodup hg) node)

private theorem addReplica (h : ns.Valid) (id node : String) :
    ((addReplica id node).run ns).2.Valid := by
  rw [Namespace.addReplica, run_bind, run_look]
  cases hb : ns.findBlock id with
  | error e => exact h
  | ok block =>
    have hg := findBlock_eq_ok.mp hb
    dsimp only
    rw [run_bind, run_get]
    dsimp only
    cases ns.nodes.contains node with
    | false => exact h
    | true =>
      exact h.setBlock hg { block with copies := block.copies.set node ⟨block.length, false⟩ }
        (Table.keys_set_nodup (h.copies_nodup hg) node _)

private theorem reportBadReplica (h : ns.Valid) (id node : String) :
    ((reportBadReplica id node).run ns).2.Valid := by
  rw [Namespace.reportBadReplica, run_bind, run_look]
  cases hb : ns.findBlock id with
  | error e => exact h
  | ok block =>
    have hg := findBlock_eq_ok.mp hb
    dsimp only
    cases block.copies.get? node with
    | none => exact h
    | some copy =>
      exact h.setBlock hg
        { block with copies := block.copies.set node { copy with corrupt := true } }
        (Table.keys_set_nodup (h.copies_nodup hg) node _)

private theorem setBlockLength (h : ns.Valid) (id : String) (length : Int) :
    ((setBlockLength id length).run ns).2.Valid := by
  rw [Namespace.setBlockLength, run_bind, run_look]
  cases hb : ns.findBlock id with
  | error e => exact h
  | ok block =>
    have hg := findBlock_eq_ok.mp hb
    have hc := h.copies_nodup hg
    exact h.setBlock hg { block with length } hc

/-- Every operation keeps a namespace well-formed, also one that is refused. -/
theorem perform (h : ns.Valid) (op : Operation) : (op.perform ns).2.Valid := by
  rw [Operation.perform]
  cases op <;> simp only [Operation.action, run_answer, run_look]
  case resolve | listChildren | blockLocations | corruptFiles | liveNodes | blockIds => exact h
  case rename source target => exact h.rename source target
  case mkdirs path => exact h.mkdirs path
  case delete path recursive => exact h.delete path recursive
  case registerNode node live => exact h.registerNode node live
  case setNodeLive node live => exact h.setNodeLive node live
  case createFile path length replication nodes lease =>
    exact h.createFile path length replication nodes lease
  case append path length nodes => exact h.append path length nodes
  case openForWrite path holder => exact h.openForWrite path holder
  case closeFile path => exact h.closeFile path
  case removeReplica block node => exact h.removeReplica block node
  case addReplica block node => exact h.addReplica block node
  case reportBadReplica block node => exact h.reportBadReplica block node
  case setBlockLength block length => exact h.setBlockLength block length
  case setClock time => exact h.congr rfl rfl rfl h.nodes_nodup

theorem empty (blockSize defaultReplication : Int) (nodes : List String) :
    (Namespace.empty blockSize defaultReplication nodes).Valid where
  names_nodup := Inode.namesNodup_of_leaf rfl
  path_valid hn := by
    rw [node?_empty] at hn
    split_ifs at hn with hp
    exact hp ▸ Path.valid_nil
  listed := .nil
  ids_nodup := List.nodup_nil
  numbered hid := absurd hid List.not_mem_nil
  copies_nodup hg := by cases hg
  nodes_nodup := Table.keys_ofList_nodup _

theorem after (h : ns.Valid) (history : List Operation) : (ns.after history).Valid := by
  induction history generalizing ns with
  | nil => exact h
  | cons op history ih => exact ih (h.perform op)

end Valid

theorem perform_query (ns : Namespace) (q : Query) :
    (q.operation.perform ns).2 = ((Metadata.onNamespace.query q).run ns).2 := by
  cases q <;>
    simp only [Query.operation, Operation.perform, Operation.action, run_answer, run_look] <;> rfl

theorem Valid.query (h : ns.Valid) (q : Query) :
    ((Metadata.onNamespace.query q).run ns).2.Valid :=
  perform_query ns q ▸ h.perform q.operation

/-- Some history of operations, whatever they answered, leads here from an empty namespace. -/
def Reachable (ns : Namespace) : Prop :=
  ∃ blockSize defaultReplication nodes history,
    ns = (Namespace.empty blockSize defaultReplication nodes).after history

theorem Reachable.valid (h : ns.Reachable) : ns.Valid := by
  obtain ⟨blockSize, defaultReplication, nodes, history, rfl⟩ := h
  exact (Valid.empty blockSize defaultReplication nodes).after history

theorem after_append (ns : Namespace) (history later : List Operation) :
    ns.after (history ++ later) = (ns.after history).after later := List.foldl_append

theorem Reachable.after (h : ns.Reachable) (history : List Operation) :
    (ns.after history).Reachable := by
  obtain ⟨blockSize, defaultReplication, nodes, past, rfl⟩ := h
  exact ⟨blockSize, defaultReplication, nodes, past ++ history, (after_append ..).symm⟩

/-- One file of two blocks on one node, of which the first has a corrupt copy only. -/
def oneCorruptFile (lease : Option String) (length : Int) : Namespace :=
  (Namespace.empty 4 1 ["n1"]).after [.createFile "/a" 8 (some 1) none lease,
    .reportBadReplica "blk_1" "n1", .setBlockLength "blk_2" length]

theorem oneCorruptFile_reachable (lease : Option String) (length : Int) :
    (oneCorruptFile lease length).Reachable :=
  ⟨4, 1, ["n1"], _, rfl⟩

end Namespace

end BlockFsck
