import BlockFsck.Proofs.Namespace.Reading

/-!
# Who owns a block

A known block is listed at one position of one file, wherever that file is by now. A report on the
block shows at that position and nowhere else, what is written to a file shows in no other file,
and no id is given out that a block had before.
-/

namespace BlockFsck

namespace Operation

/-- The block that a storage node reports on. -/
def reportsOn : Operation → Option String
  | .removeReplica block _ => some block
  | .addReplica block _ => some block
  | .reportBadReplica block _ => some block
  | .setBlockLength block _ => some block
  | _ => none

/-- The path of the file that is written to or whose lease changes hands. -/
def writesTo : Operation → Option String
  | .append path _ _ => some path
  | .openForWrite path _ => some path
  | .closeFile path => some path
  | _ => none

/-- What a report makes of a block; one that is refused leaves it as it is. -/
def revised (op : Operation) (ns : Namespace) (block : Block) : Block :=
  match op with
  | .removeReplica _ node => { block with copies := block.copies.erase node }
  | .addReplica _ node =>
    if ns.nodes.contains node then
      { block with copies := block.copies.set node ⟨block.length, false⟩ }
    else block
  | .reportBadReplica _ node =>
    match block.copies.get? node with
    | some copy => { block with copies := block.copies.set node { copy with corrupt := true } }
    | none => block
  | .setBlockLength _ length => { block with length }
  | _ => block

/-- The ids that files list after an operation besides those they listed before. -/
def handsOut (op : Operation) (ns : Namespace) : List String :=
  (op.perform ns).2.listedBlocks.diff ns.listedBlocks

end Operation

/-- The record with another block at one position. -/
def FileRecord.withBlock (record : FileRecord) (index : Nat) (block : BlockRecord) : FileRecord :=
  let blocks := record.blocks.set index block
  { record with blocks, length := (blocks.map BlockRecord.length).foldr (· + ·) 0 }

namespace Namespace

variable {ns : Namespace}

/-- The ids that are given out in the course of a history. -/
def handedOut : Namespace → List Operation → List String
  | _, [] => []
  | ns, op :: history => op.handsOut ns ++ (op.perform ns).2.handedOut history

/-- A file lists the block at a position. -/
def ListedAt (ns : Namespace) (id : String) (place : Path × Nat) : Prop :=
  place.1.Valid ∧ ∃ ids, ns.blockIds place.1.text = .ok ids ∧ ids[place.2]? = some id

/-- Afterwards one block is another one, which shows at its position in its file only. -/
structure ChangesBlock (id : String) (new : Block) (ns after : Namespace) : Prop where
  node? : ∀ path, after.node? path = ns.node? path
  block : after.blocks.get? id = some new
  others : ∀ text, (∀ ids, ns.blockIds text = .ok ids → id ∉ ids) →
    after.blockLocations text = ns.blockLocations text
  owner : ∀ text ids index, ns.blockIds text = .ok ids → ids[index]? = some id →
    after.blockLocations text = (ns.blockLocations text).map fun record =>
      record.withBlock index (after.blockRecord id new)

/-- The registry and the files agree, and what is done to one file or block stays there. -/
structure OwnsBlocks (ns : Namespace) : Prop where
  known_iff : ∀ id, id ∈ ns.blocks.keys ↔ ∃! place, ns.ListedAt id place
  one_copy : ∀ id block, ns.blocks.get? id = some block → block.copies.keys.Nodup
  report : ∀ (op : Operation) id block, op.reportsOn = some id → ns.blocks.get? id = some block →
    ns.ChangesBlock id (op.revised ns block) (op.perform ns).2
  write : ∀ (op : Operation) path, op.writesTo = some path →
    ∀ other, (∀ p, readPath path = .ok p → readPath other ≠ .ok p) →
      (op.perform ns).2.blockLocations other = ns.blockLocations other

theorem blockIds_eq_ok {text : String} {ids : List String} :
    ns.blockIds text = .ok ids ↔ ∃ path content, readPath text = .ok path ∧
      ns.node? path = some (.file content) ∧ content.blocks = ids := by
  rw [blockIds]
  constructor
  · intro h
    cases hf : ns.findFile text with
    | error e =>
      rw [hf] at h
      cases h
    | ok found =>
      obtain ⟨path, content⟩ := found
      obtain ⟨hp, hn⟩ := findFile_eq_ok.mp hf
      rw [hf] at h
      have hids : content.blocks = ids := Except.ok.inj h
      exact ⟨path, content, hp, hn, hids⟩
  · rintro ⟨path, content, hp, hn, rfl⟩
    rw [findFile_eq_ok.mpr ⟨hp, hn⟩]
    rfl

private theorem listedAt_iff {id : String} {path : Path} {index : Nat} (hv : path.Valid) :
    ns.ListedAt id (path, index) ↔
      ∃ content, ns.node? path = some (.file content) ∧ content.blocks[index]? = some id := by
  constructor
  · rintro ⟨-, ids, hids, hid⟩
    obtain ⟨read, content, hp, hn, rfl⟩ := blockIds_eq_ok.mp hids
    rw [readPath_text hv] at hp
    cases hp
    exact ⟨content, hn, hid⟩
  · rintro ⟨content, hn, hid⟩
    have hids := blockIds_eq_ok.mpr ⟨path, content, readPath_text hv, hn, rfl⟩
    exact ⟨hv, content.blocks, hids, hid⟩

theorem Valid.blocks_nodup (h : ns.Valid) {path : Path} {content : FileNode}
    (hn : ns.node? path = some (.file content)) : content.blocks.Nodup := by
  exact (List.nodup_flatMap.mp h.listed_nodup).1 _ (h.mem_files.mpr hn)

private theorem Valid.known_iff_listedAt (h : ns.Valid) (id : String) :
    id ∈ ns.blocks.keys ↔ ∃! place, ns.ListedAt id place := by
  constructor
  · intro hid
    obtain ⟨path, content, hn, hmem⟩ := (h.toIsRegistry.known_iff h.toIsTree).mp hid
    obtain ⟨index, hindex⟩ := List.mem_iff_getElem?.mp hmem
    refine ⟨(path, index), (listedAt_iff (h.path_valid hn)).mpr ⟨content, hn, hindex⟩, ?_⟩
    rintro ⟨other, index'⟩ hother
    obtain ⟨others, ho, hindex'⟩ := (listedAt_iff hother.1).mp hother
    have hsame : other = path :=
      h.owner_unique h.toIsTree ho hn (List.mem_of_getElem? hindex') hmem
    subst hsame
    have hcontent := file_inj hn ho
    subst hcontent
    have hlt : index < others.blocks.length := (List.getElem?_eq_some_iff.mp hindex).1
    have hpos : index = index' :=
      (List.getElem?_inj hlt (h.blocks_nodup hn)).mp (hindex.trans hindex'.symm)
    rw [hpos]
  · rintro ⟨⟨path, index⟩, hplace, -⟩
    obtain ⟨content, hn, hindex⟩ := (listedAt_iff hplace.1).mp hplace
    have hmem := List.mem_of_getElem? hindex
    exact (h.toIsRegistry.known_iff h.toIsTree).mpr ⟨path, content, hn, hmem⟩

/-- A report comes to one write into the registry. -/
theorem perform_report {op : Operation} {id : String} {block : Block}
    (hop : op.reportsOn = some id) (hb : ns.blocks.get? id = some block) :
    (op.perform ns).2 = { ns with blocks := ns.blocks.set id (op.revised ns block) } := by
  have hrefused : ({ ns with blocks := ns.blocks.set id block } : Namespace) = ns := by
    rw [Table.set_self hb]
  have hfound := findBlock_eq_ok.mpr hb
  cases op <;> simp only [Operation.reportsOn, Option.some.injEq, reduceCtorEq] at hop <;>
    subst hop <;> rw [Operation.perform, Operation.action, run_answer]
  case removeReplica node =>
    rw [removeReplica, run_bind, run_look, hfound]
    rfl
  case addReplica node =>
    rw [addReplica, run_bind, run_look, hfound]
    dsimp only
    rw [run_bind, run_get]
    cases hc : ns.nodes.contains node with
    | false =>
      simp only [Operation.revised, hc, Bool.false_eq_true, if_false, hrefused]
      rfl
    | true =>
      simp only [Operation.revised, hc, if_true]
      rfl
  case reportBadReplica node =>
    rw [reportBadReplica, run_bind, run_look, hfound]
    dsimp only
    cases hc : block.copies.get? node with
    | none =>
      simp only [Operation.revised, hc, hrefused]
      rfl
    | some copy =>
      simp only [Operation.revised, hc]
      rfl
  case setBlockLength length =>
    rw [setBlockLength, run_bind, run_look, hfound]
    rfl

theorem perform_report_unknown {op : Operation} {id : String} (hop : op.reportsOn = some id)
    (hb : ns.blocks.get? id = none) : (op.perform ns).2 = ns := by
  have hmissing : ns.findBlock id = .error (.unknownBlock id) := by
    rw [findBlock, hb]
  cases op <;> simp only [Operation.reportsOn, Option.some.injEq, reduceCtorEq] at hop <;>
    subst hop <;> rw [Operation.perform, Operation.action, run_answer]
  case removeReplica node => rw [removeReplica, run_bind, run_look, hmissing]
  case addReplica node => rw [addReplica, run_bind, run_look, hmissing]
  case reportBadReplica node => rw [reportBadReplica, run_bind, run_look, hmissing]
  case setBlockLength length => rw [setBlockLength, run_bind, run_look, hmissing]

private theorem filterMap_set {α β : Type} {f g : α → Option β} {xs : List α} (hxs : xs.Nodup)
    (hsome : ∀ x ∈ xs, (f x).isSome) {index : Nat} {x : α} {y : β} (hx : xs[index]? = some x)
    (hy : g x = some y) (hsame : ∀ z ∈ xs, z ≠ x → g z = f z) :
    xs.filterMap g = (xs.filterMap f).set index y := by
  induction xs generalizing index with
  | nil => simp at hx
  | cons z xs ih =>
    obtain ⟨hz, hxs⟩ := List.nodup_cons.mp hxs
    obtain ⟨w, hw⟩ := Option.isSome_iff_exists.mp (hsome z List.mem_cons_self)
    cases index with
    | zero =>
      have hzx : z = x := by simpa using hx
      subst hzx
      have hrest : xs.filterMap g = xs.filterMap f := by
        apply List.filterMap_congr
        intro other hother
        apply hsame other (List.mem_cons_of_mem _ hother)
        intro he
        exact hz (he ▸ hother)
      simp [hw, hy, hrest]
    | succ index =>
      have hx : xs[index]? = some x := by simpa using hx
      have hne : z ≠ x := by
        intro he
        exact hz (he ▸ List.mem_of_getElem? hx)
      have hgz : g z = some w := by rw [hsame z List.mem_cons_self hne, hw]
      have hrest := ih hxs (fun other ho => hsome other (List.mem_cons_of_mem _ ho)) hx
        (fun other ho => hsame other (List.mem_cons_of_mem _ ho))
      simp [hw, hgz, hrest]

private theorem blockLocations_congr {after : Namespace} {text : String}
    (h : ∀ path, readPath text = .ok path → after.node? path = ns.node? path ∧
      ∀ content, ns.node? path = some (.file content) →
        after.recordOf path content = ns.recordOf path content) :
    after.blockLocations text = ns.blockLocations text := by
  cases hp : readPath text with
  | error e => rw [blockLocations, blockLocations, findFile, findFile, find, find, hp]; rfl
  | ok path =>
    obtain ⟨hnode, hrecord⟩ := h path hp
    rw [blockLocations_of_read after hp, blockLocations_of_read ns hp, hnode]
    rcases hn : ns.node? path with _ | _ | content
    · rfl
    · rfl
    · exact congrArg Except.ok (hrecord content hn)

theorem blockLocations_of_file {text : String} {path : Path} {content : FileNode}
    (hp : readPath text = .ok path) (hn : ns.node? path = some (.file content)) :
    ns.blockLocations text = .ok (ns.recordOf path content) := by
  rw [blockLocations, findFile_eq_ok.mpr ⟨hp, hn⟩]
  rfl

theorem blockLocations_eq_ok {text : String} {record : FileRecord} :
    ns.blockLocations text = .ok record ↔ ∃ path content, readPath text = .ok path ∧
      ns.node? path = some (.file content) ∧ ns.recordOf path content = record := by
  constructor
  · intro h
    rw [blockLocations] at h
    cases hf : ns.findFile text with
    | error e =>
      rw [hf] at h
      cases h
    | ok found =>
      obtain ⟨path, content⟩ := found
      obtain ⟨hp, hn⟩ := findFile_eq_ok.mp hf
      rw [hf] at h
      exact ⟨path, content, hp, hn, Except.ok.inj h⟩
  · rintro ⟨path, content, hp, hn, rfl⟩
    exact blockLocations_of_file hp hn

private theorem Valid.changesBlock (h : ns.Valid) (id : String) (new : Block) :
    ns.ChangesBlock id new { ns with blocks := ns.blocks.set id new } where
  node? path := node?_congr rfl path
  block := by rw [Table.get?_set, if_pos rfl]
  others text hothers := by
    apply blockLocations_congr
    intro path hp
    refine ⟨node?_congr rfl path, ?_⟩
    intro content hn
    refine recordOf_congr path ?_ rfl
    intro other hother
    have hne : id ≠ other := by
      intro he
      exact hothers content.blocks (blockIds_eq_ok.mpr ⟨path, content, hp, hn, rfl⟩) (he ▸ hother)
    rw [Table.get?_set, if_neg hne]
  owner text ids index hids hindex := by
    obtain ⟨path, content, hp, hn, rfl⟩ := blockIds_eq_ok.mp hids
    have hn' : ({ ns with blocks := ns.blocks.set id new } : Namespace).node? path =
        some (.file content) := hn
    rw [blockLocations_of_file hp hn, blockLocations_of_file hp hn']
    have hblocks := filterMap_set (f := fun id => (ns.blocks.get? id).map (ns.blockRecord id))
      (g := fun other => ((ns.blocks.set id new).get? other).map (ns.blockRecord other))
      (y := ns.blockRecord id new) (h.blocks_nodup hn) ?known hindex ?new ?same
    case known =>
      intro other hother
      have hknown := (h.toIsRegistry.known_iff h.toIsTree).mpr ⟨path, content, hn, hother⟩
      rw [Option.isSome_map]
      exact Table.isSome_get?.mpr hknown
    case new => simp [Table.get?_set]
    case same =>
      intro other _ hne
      rw [Table.get?_set, if_neg (Ne.symm hne)]
    show Except.ok _ = Except.ok _
    congr 1
    simp only [recordOf, FileRecord.withBlock, FileRecord.mk.injEq, true_and, and_true]
    exact ⟨congrArg _ (congrArg _ hblocks), hblocks⟩

/-- A file is another one, which lists new blocks besides the old ones, and of the blocks that were
known only those of the file may differ. -/
structure WritesFile (path : Path) (content new : FileNode) (added : List (String × Block))
    (ns after : Namespace) : Prop where
  root : after.root = (ns.place path (.file new)).root
  nodes : after.nodes = ns.nodes
  clock : after.clock = ns.clock
  modified : new.modified = content.modified ∨ new.modified = ns.clock
  listed : new.blocks = content.blocks ++ added.map Prod.fst
  next : after.nextBlock = ns.nextBlock + added.length
  known : ∀ id ∈ ns.blocks.keys, id ∉ content.blocks →
    after.blocks.get? id = ns.blocks.get? id

private theorem writesFile_same {path : Path} {content new : FileNode}
    (hblocks : new.blocks = content.blocks)
    (hmodified : new.modified = content.modified ∨ new.modified = ns.clock) :
    WritesFile path content new [] ns (ns.place path (.file new)) where
  root := rfl
  nodes := rfl
  clock := rfl
  modified := hmodified
  listed := by simp [hblocks]
  next := rfl
  known _ _ _ := rfl

/-- Where the lease is refused nothing changes, and else nothing but the lease. -/
theorem perform_openForWrite (ns : Namespace) (text : String) (holder : Option String) :
    ((Operation.openForWrite text holder).perform ns).2 = ns ∨ ∃ path content,
      ns.findFile text = .ok (path, content) ∧
        ((Operation.openForWrite text holder).perform ns).2 =
          ns.place path (.file { content with lease := holder }) := by
  rw [Operation.perform, Operation.action, run_answer, openForWrite, run_bind, run_look]
  cases hf : ns.findFile text with
  | error e => exact .inl rfl
  | ok found =>
    obtain ⟨path, content⟩ := found
    dsimp only
    cases hl : content.lease with
    | none => exact .inr ⟨path, content, rfl, rfl⟩
    | some other =>
      dsimp only
      split_ifs
      · exact .inl rfl
      · exact .inr ⟨path, content, rfl, rfl⟩

theorem perform_closeFile (ns : Namespace) (text : String) :
    ((Operation.closeFile text).perform ns).2 = ns ∨ ∃ path content,
      ns.findFile text = .ok (path, content) ∧
        ((Operation.closeFile text).perform ns).2 =
          ns.place path (.file { content with lease := none, modified := ns.clock }) := by
  rw [Operation.perform, Operation.action, run_answer, closeFile, run_bind, run_look]
  cases hf : ns.findFile text with
  | error e => exact .inl rfl
  | ok found => exact .inr ⟨found.1, found.2, rfl, rfl⟩

private theorem perform_write {op : Operation} {text : String} (hop : op.writesTo = some text) :
    (op.perform ns).2 = ns ∨ ∃ path content new candidates index lengths,
      ns.findFile text = .ok (path, content) ∧
        WritesFile path content new
          (newBlocks candidates content.replication ns.nextBlock index lengths) ns
          (op.perform ns).2 := by
  cases op <;> simp only [Operation.writesTo, Option.some.injEq, reduceCtorEq] at hop <;>
    subst hop
  case append path length nodes =>
    rw [Operation.perform, Operation.action, run_answer]
    rcases run_append ns path length nodes with
      ⟨cause, hended⟩ | ⟨path, content, middle, hf, hmiddle, candidates, lengths, hafter, -⟩
    · exact .inl (congrArg Prod.snd hended)
    have hfilled : middle.root = ns.root ∧ middle.nodes = ns.nodes ∧
        middle.clock = ns.clock ∧ middle.nextBlock = ns.nextBlock ∧
        ∀ id, id ∉ content.blocks → middle.blocks.get? id = ns.blocks.get? id := by
      rcases hmiddle with rfl | ⟨last, block, size, hlast, -, rfl⟩
      · exact ⟨rfl, rfl, rfl, rfl, fun _ _ => rfl⟩
      · refine ⟨rfl, rfl, rfl, rfl, ?_⟩
        intro id hid
        have hne : last ≠ id := by
          intro he
          exact hid (he ▸ hlast)
        rw [Table.get?_set, if_neg hne]
    obtain ⟨hroot, hnodes, hclock, hnext, hblocks⟩ := hfilled
    rw [hnext] at hafter
    rw [hafter]
    refine .inr ⟨path, content, _, candidates, content.blocks.length, lengths, hf,
      by rw [place, place, hroot], hnodes, hclock, .inr hclock, rfl, rfl, ?_⟩
    intro id hknown hid
    obtain ⟨block, hb⟩ := Option.isSome_iff_exists.mp (Table.isSome_get?.mpr hknown)
    rw [Table.get?_extend, hblocks id hid, hb]
    rfl
  case openForWrite path holder =>
    rcases perform_openForWrite ns path holder with hsame | ⟨place, content, hf, hafter⟩
    · exact .inl hsame
    · rw [hafter]
      exact .inr ⟨place, content, _, [], 0, [], hf, writesFile_same rfl (.inl rfl)⟩
  case closeFile path =>
    rcases perform_closeFile ns path with hsame | ⟨place, content, hf, hafter⟩
    · exact .inl hsame
    · rw [hafter]
      exact .inr ⟨place, content, _, [], 0, [], hf, writesFile_same rfl (.inr rfl)⟩

private theorem Valid.write_keeps_others (h : ns.Valid) {op : Operation} {text other : String}
    (hop : op.writesTo = some text)
    (hother : ∀ path, readPath text = .ok path → readPath other ≠ .ok path) :
    (op.perform ns).2.blockLocations other = ns.blockLocations other := by
  rcases perform_write hop with hafter | ⟨path, content, new, _, _, _, hf, hwrites⟩
  · rw [hafter]
  obtain ⟨hp, hn⟩ := findFile_eq_ok.mp hf
  apply blockLocations_congr
  intro place hplace
  have hne : place ≠ path := by
    rintro rfl
    exact hother place hp hplace
  constructor
  · rw [node?_congr hwrites.root, node?_file hn, if_neg hne]
  · intro others ho
    refine recordOf_congr place ?_ hwrites.nodes
    intro id hid
    have hknown := (h.toIsRegistry.known_iff h.toIsTree).mpr ⟨place, others, ho, hid⟩
    apply hwrites.known id hknown
    intro hmine
    exact hne (h.owner_unique h.toIsTree ho hn hid hmine)

private theorem Valid.ownsBlocks (h : ns.Valid) : ns.OwnsBlocks where
  known_iff := h.known_iff_listedAt
  one_copy _ _ hb := h.copies_nodup hb
  report op id block hop hb := by
    rw [perform_report hop hb]
    exact h.changesBlock id _
  write _ _ hop _ hother := h.write_keeps_others hop hother

/-! ## What an operation comes to -/

/-- What an operation may make of a namespace: it leaves all as it is, or makes one write. -/
inductive Becomes (ns : Namespace) (op : Operation) : Namespace → Prop
  | unchanged : Becomes ns op ns
  | clock {time : Double} (hop : op = .setClock time) : Becomes ns op { ns with clock := time }
  | node (node : String) (live : Bool) :
    Becomes ns op { ns with nodes := ns.nodes.set node live }
  | report {id : String} {block : Block} (hop : op.reportsOn = some id)
      (hb : ns.blocks.get? id = some block) :
    Becomes ns op { ns with blocks := ns.blocks.set id (op.revised ns block) }
  | write {text : String} {path : Path} {content new : FileNode} {candidates : List String}
      {index : Nat} {lengths : List Int} {after : Namespace} (hop : op.writesTo = some text)
      (hf : ns.findFile text = .ok (path, content))
      (hwrites : WritesFile path content new
        (newBlocks candidates content.replication ns.nextBlock index lengths) ns after) :
    Becomes ns op after
  | directories (path : Path) (hv : path.Valid) :
    Becomes ns op ((makeDirectories [] path).run ns).2
  | create {path : Path} {middle : Namespace} {candidates : List String} {replication : Int}
      {lengths : List Int} {added : List (String × Block)} (lease : Option String)
      (hv : path.Valid) (hne : path ≠ [])
      (hrun : (makeDirectories [] path.parent).run ns = (.ok true, middle))
      (hn : middle.node? path = none)
      (hadded : added = newBlocks candidates replication middle.nextBlock 0 lengths) :
    Becomes ns op { middle.place path
        (.file ⟨replication, added.map Prod.fst, lease, middle.clock⟩) with
      nextBlock := middle.nextBlock + added.length
      blocks := middle.blocks.extend added }
  | rename {source target : Path} (hv : target.Valid)
      (hcan : ns.CanRename source target) :
    Becomes ns op (ns.moved source target)
  | delete {path : Path} (hne : path ≠ []) : Becomes ns op (ns.removed path)

private theorem becomes_createFile (ns : Namespace) (op : Operation) (text : String) (length : Int)
    (replication : Option Int) (nodes : Option (List String)) (lease : Option String) :
    ns.Becomes op ((createFile text length replication nodes lease).run ns).2 := by
  rcases run_createFile ns text length replication nodes lease with
    ⟨cause, hended⟩ | ⟨path, middle, made, hp, hne, hrun, hended⟩
  · rw [hended]
    exact .unchanged
  have hv := valid_of_readPath hp
  rcases hended with ⟨-, cause, hended⟩ | ⟨rfl, hn, candidates, replication, lengths, hafter, -⟩
  · have hmiddle : ((makeDirectories [] path.parent).run ns).2 = middle := by rw [hrun]
    rw [hended, ← hmiddle]
    exact .directories path.parent hv.parent
  · rw [hafter]
    exact .create lease hv hne hrun hn rfl

/-- Every operation is refused or makes one write. -/
theorem perform_becomes (ns : Namespace) (op : Operation) :
    ns.Becomes op (op.perform ns).2 := by
  cases hr : op.reportsOn with
  | some id =>
    cases hb : ns.blocks.get? id with
    | none =>
      rw [perform_report_unknown hr hb]
      exact .unchanged
    | some block =>
      rw [perform_report hr hb]
      exact .report hr hb
  | none =>
  cases hw : op.writesTo with
  | some text =>
    rcases perform_write hw with hafter | ⟨_, _, _, _, _, _, hf, hwrites⟩
    · rw [hafter]
      exact .unchanged
    · exact .write hw hf hwrites
  | none =>
    rw [Operation.perform]
    cases op <;> simp only [Operation.reportsOn, Operation.writesTo, reduceCtorEq] at hr hw <;>
      simp only [Operation.action, run_answer, run_look]
    case resolve | listChildren | blockLocations | corruptFiles | liveNodes | blockIds =>
      exact .unchanged
    case setClock time => exact .clock rfl
    case registerNode node live => exact .node node live
    case setNodeLive node live =>
      rw [setNodeLive, run_bind, run_get]
      dsimp only
      split_ifs
      · exact .node node live
      · exact .unchanged
    case createFile path length replication nodes lease =>
      exact becomes_createFile ns _ path length replication nodes lease
    case mkdirs path =>
      rw [Namespace.mkdirs, run_bind, run_look]
      cases hp : readPath path with
      | error e => exact .unchanged
      | ok path => exact .directories path (valid_of_readPath hp)
    case rename source target =>
      rw [run_rename]
      cases readPath source with
      | error e => exact .unchanged
      | ok source =>
        cases ht : readPath target with
        | error e => exact .unchanged
        | ok target =>
          dsimp only
          split_ifs with hcan
          · exact .rename (valid_of_readPath ht) hcan
          · exact .unchanged
    case delete path recursive =>
      rw [run_delete]
      cases readPath path with
      | error e => exact .unchanged
      | ok path =>
        dsimp only
        split_ifs with hc
        · exact .delete hc.1
        · exact .unchanged

/-- What is listed newly has one of the numbers that were free before and are not afterwards. -/
structure Allots (ns after : Namespace) : Prop where
  later : ns.nextBlock ≤ after.nextBlock
  fresh : ∀ id ∈ after.listedBlocks, id ∉ ns.listedBlocks →
    ∃ number, ns.nextBlock ≤ number ∧ number < after.nextBlock ∧ id = blockId number

namespace Allots

variable {after : Namespace}

private theorem of_subset (hn : after.nextBlock = ns.nextBlock)
    (hl : ∀ id ∈ after.listedBlocks, id ∈ ns.listedBlocks) : ns.Allots after where
  later := hn.ge
  fresh id hid hnew := absurd (hl id hid) hnew

private theorem of_root (hn : after.nextBlock = ns.nextBlock) (he : after.root = ns.root) :
    ns.Allots after := by
  apply of_subset hn
  rw [listedBlocks_congr he]
  exact fun _ hid => hid

private theorem of_newBlocks {candidates : List String} {replication : Int} {index : Nat}
    {lengths : List Int}
    (hn : after.nextBlock = ns.nextBlock +
      (newBlocks candidates replication ns.nextBlock index lengths).length)
    (hl : after.listedBlocks.Perm (ns.listedBlocks ++
      (newBlocks candidates replication ns.nextBlock index lengths).map Prod.fst)) :
    ns.Allots after where
  later := by omega
  fresh id hid hnew := by
    have hadded := (List.mem_append.mp (hl.mem_iff.mp hid)).resolve_left hnew
    rw [newBlocks_ids, List.mem_map] at hadded
    obtain ⟨number, hnumber, rfl⟩ := hadded
    have hlength : (newBlocks candidates replication ns.nextBlock index lengths).length =
        lengths.length := by simp [newBlocks]
    have hrange := List.mem_range'_1.mp hnumber
    exact ⟨number, hrange.1, by omega, rfl⟩

end Allots

private theorem Valid.makeDirectories_keeps (h : ns.Valid) {path : Path} (hv : path.Valid) :
    ((makeDirectories [] path).run ns).2.listedBlocks.Perm ns.listedBlocks ∧
      ((makeDirectories [] path).run ns).2.nextBlock = ns.nextBlock := by
  rcases run_makeDirectories ns path with ⟨hc, hrun⟩ | ⟨-, hrun⟩
  · rw [hrun]
    exact ⟨h.toIsTree.listedBlocks_withDirectories hv hc, by rw [withDirectories_eq]⟩
  · rw [hrun]
    exact ⟨.refl _, rfl⟩

private theorem Becomes.allots (h : ns.Valid) {op : Operation} {after : Namespace}
    (hbecomes : ns.Becomes op after) : ns.Allots after := by
  cases hbecomes with
  | unchanged => exact .of_root rfl rfl
  | clock hop => exact .of_root rfl rfl
  | node node live => exact .of_root rfl rfl
  | report hop hb => exact .of_root rfl rfl
  | write hop hf hwrites =>
    obtain ⟨-, hn⟩ := findFile_eq_ok.mp hf
    have hblocks := hwrites.listed
    rw [← blocksUnder_of_file hn] at hblocks
    refine Allots.of_newBlocks hwrites.next ?_
    rw [listedBlocks_congr hwrites.root]
    exact h.listedBlocks_put (ne_root_of_file hn) (h.path_valid hn) (parent_directory hn) rfl
      hblocks
  | directories path hv =>
    obtain ⟨hlisted, hnext⟩ := h.makeDirectories_keeps hv
    exact Allots.of_subset hnext fun id hid => hlisted.mem_iff.mp hid
  | @create path middle candidates replication lengths added lease hv hne hrun hn hadded =>
    obtain ⟨hlisted, hnext⟩ := h.makeDirectories_keeps hv.parent
    obtain ⟨hmade, hdirectory⟩ := h.mkdirs_path hv.parent
    rw [hrun] at hlisted hnext hmade hdirectory
    have hblocks : (Inode.file ⟨replication, added.map Prod.fst, lease, middle.clock⟩).blockIds =
        middle.blocksUnder path ++ added.map Prod.fst := by
      rw [blocksUnder_of_none hn]
      rfl
    have hnew := hmade.listedBlocks_put hne hv (hdirectory rfl) rfl hblocks
    dsimp only at hlisted hnext
    rw [hnext] at hadded
    subst hadded
    exact Allots.of_newBlocks (by rw [hnext]) (hnew.trans (hlisted.append_right _))
  | rename hv hcan =>
    exact Allots.of_subset rfl fun id hid =>
      (h.toIsTree.listedBlocks_moved hcan hv).mem_iff.mp hid
  | delete hne =>
    refine Allots.of_subset rfl ?_
    intro id hid
    have hkept := (h.toIsRegistry.listedBlocks_removed h.toIsTree hne).mem_iff.mp hid
    exact (List.mem_filter.mp hkept).1

private theorem Valid.handsOut (h : ns.Valid) (op : Operation) :
    (op.handsOut ns).Nodup ∧ ∀ id ∈ op.handsOut ns, ∃ number, ns.nextBlock ≤ number ∧
      number < (op.perform ns).2.nextBlock ∧ id = blockId number := by
  have hnodup := (h.perform op).listed_nodup
  refine ⟨hnodup.diff, ?_⟩
  intro id hid
  obtain ⟨hlisted, hnew⟩ := hnodup.mem_sdiff_iff.mp hid
  exact ((perform_becomes ns op).allots h).fresh id hlisted hnew

private theorem Valid.handedOut (h : ns.Valid) (history : List Operation) :
    (ns.handedOut history).Nodup ∧ ∀ id ∈ ns.handedOut history, ∃ number,
      ns.nextBlock ≤ number ∧ id = blockId number := by
  induction history generalizing ns with
  | nil => exact ⟨List.nodup_nil, by simp [Namespace.handedOut]⟩
  | cons op history ih =>
    obtain ⟨hnow, hnumbers⟩ := h.handsOut op
    obtain ⟨hrest, hlater⟩ := ih (h.perform op)
    have hnext := ((perform_becomes ns op).allots h).later
    constructor
    · apply List.nodup_append.mpr ⟨hnow, hrest, ?_⟩
      rintro id hid other hother rfl
      -- a number given out now is below all that come after the operation
      obtain ⟨number, -, hlt, rfl⟩ := hnumbers id hid
      obtain ⟨number', hle, he⟩ := hlater _ hother
      have hsame := blockId_inj.mp he
      omega
    · intro id hid
      rcases List.mem_append.mp hid with hid | hid
      · obtain ⟨number, hle, -, rfl⟩ := hnumbers id hid
        exact ⟨number, hle, rfl⟩
      · obtain ⟨number, hle, rfl⟩ := hlater id hid
        exact ⟨number, by omega, rfl⟩

/-- Whatever is asked of an empty namespace, each known block has one place, no id is given out
twice, and what is done to one block or one file shows nowhere else. -/
theorem after_ownsBlocks (blockSize defaultReplication : Int) (nodes : List String)
    (history : List Operation) :
    ((Namespace.empty blockSize defaultReplication nodes).after history).OwnsBlocks ∧
      ((Namespace.empty blockSize defaultReplication nodes).handedOut history).Nodup := by
  have hempty := Valid.empty blockSize defaultReplication nodes
  constructor
  · exact (hempty.after history).ownsBlocks
  · exact (hempty.handedOut history).1

end Namespace

end BlockFsck
