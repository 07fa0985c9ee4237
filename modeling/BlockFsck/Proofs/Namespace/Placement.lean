import Mathlib.Algebra.BigOperators.Group.Finset.Piecewise
import Mathlib.Algebra.Group.Action.Defs
import Mathlib.Algebra.Order.BigOperators.Group.Finset
import Mathlib.Data.Int.CardIntervalMod
import Mathlib.Data.List.Rotate
import BlockFsck.Proofs.Health
import BlockFsck.Proofs.Namespace.Growth

/-!
# Where blocks are placed

The blocks of a file that names no nodes go round the live ones: each block starts one node further
on than the block before it. So every block has as many copies as there can be, no node has many
more of them than another, and a check finds the file as good as the number of live nodes allows
(`createFile_spreads`).
-/

namespace BlockFsck

open Finset (sum_comm sum_congr)

/-- How many replicas of the file are on the node. -/
def FileRecord.replicasOn (record : FileRecord) (node : String) : Nat :=
  (record.blocks.flatMap BlockRecord.replicas).countP (·.node = node)

/-- Every block has good replicas on as many of the nodes as it should have, if there are so many,
and these are spread evenly. -/
structure FileRecord.IsSpread (record : FileRecord) (nodes : List String) (replication : Int) :
    Prop where
  replicas : ∀ block ∈ record.blocks,
    (block.replicas.length : Int) = min replication nodes.length
  distinct : ∀ block ∈ record.blocks, (block.replicas.map Replica.node).Nodup
  good : ∀ block ∈ record.blocks, ∀ replica ∈ block.replicas,
    replica.node ∈ nodes ∧ replica.live = true ∧ replica.corrupt = false ∧
      replica.length = block.length
  balanced : ∀ node ∈ nodes, ∀ other ∈ nodes,
    (record.replicasOn node : Int) ≤ record.replicasOn other + replication

/-- The block has one good replica on each of the nodes, and no others. -/
structure BlockRecord.IsPlacedOn (block : BlockRecord) (holders : List String) : Prop where
  replicas : block.replicas.Perm (holders.map (⟨·, block.length, true, false⟩))
  sound : block.corrupt = false

/-- The blocks of the file have gone round the nodes. -/
def FileRecord.IsPlaced (record : FileRecord) (nodes : List String) (replication : Int) : Prop :=
  ∀ (index : Nat) (hindex : index < record.blocks.length),
    record.blocks[index].IsPlacedOn (Namespace.placement nodes replication index)

namespace Namespace

section Rotation

variable {candidates : List String} {replication : Int} {index : Nat}

private theorem placement_eq (h : 0 ≤ replication) :
    placement candidates replication index =
      (candidates.rotate index).take replication.toNat := by
  rw [placement, firstOf, if_pos h, List.rotate_eq_drop_append_take_mod]

private theorem length_placement (h : 0 ≤ replication) :
    (placement candidates replication index).length =
      min replication.toNat candidates.length := by
  rw [placement_eq h, List.length_take, List.length_rotate]

private theorem placement_nodup (h : 0 ≤ replication) (hn : candidates.Nodup) :
    (placement candidates replication index).Nodup := by
  rw [placement_eq h]
  exact (List.nodup_rotate.mpr hn).take

private theorem mem_of_mem_placement (h : 0 ≤ replication) {node : String}
    (hmem : node ∈ placement candidates replication index) : node ∈ candidates := by
  rw [placement_eq h] at hmem
  exact List.mem_rotate.mp (List.mem_of_mem_take hmem)

private theorem count_placement (h : 0 ≤ replication) (hn : candidates.Nodup) {place : Nat}
    (hplace : place < candidates.length) :
    (placement candidates replication index).count candidates[place] =
      ∑ turn ∈ Finset.range (min replication.toNat candidates.length),
        if (turn + index) % candidates.length = place then 1 else 0 := by
  have hpos : 0 < candidates.length := Nat.zero_lt_of_lt hplace
  have hmap : placement candidates replication index =
      (List.range (min replication.toNat candidates.length)).map fun turn =>
        candidates.getD ((turn + index) % candidates.length) "" := by
    apply List.ext_getElem
    · simp [length_placement h]
    · intro turn hturn hturn'
      have hlt := Nat.mod_lt (turn + index) hpos
      simp [placement_eq h, List.getElem_rotate, hlt]
  have hat : ∀ turn, candidates.getD ((turn + index) % candidates.length) "" =
      candidates[place] ↔ (turn + index) % candidates.length = place := by
    intro turn
    have hlt := Nat.mod_lt (turn + index) hpos
    rw [List.getD_eq_getElem?_getD, List.getElem?_eq_getElem hlt, Option.getD_some,
      hn.getElem_inj_iff]
  rw [← Finset.card_filter, ← Nat.count_eq_card_filter_range, hmap, List.count_eq_countP,
    List.countP_map, Nat.count]
  refine List.countP_congr fun turn _ => ?_
  simp only [Function.comp_apply, beq_iff_eq, decide_eq_true_eq]
  exact hat turn

/-- In each of its turns every block comes to another node, so that no node is met more than once
oftener than another. -/
theorem turns_bounds {nodes : Nat} (h : 0 < nodes) {place : Nat} (hplace : place < nodes)
    (turn blocks : Nat) :
    let times := blocks.count fun index => (turn + index) % nodes = place
    blocks / nodes ≤ times ∧ times ≤ blocks / nodes + 1 := by
  intro times
  have hback : turn ≤ nodes * turn := Nat.le_mul_of_pos_left turn h
  have hsame : ∀ index, (turn + index) % nodes = place ↔
      index ≡ place + (nodes * turn - turn) [MOD nodes] := by
    intro index
    have hshift : turn + (place + (nodes * turn - turn)) = place + nodes * turn := by omega
    rw [← Nat.ModEq.add_iff_left (Nat.ModEq.refl turn), hshift, Nat.ModEq,
      Nat.add_mul_mod_self_left, Nat.mod_eq_of_lt hplace]
  have htimes : times = blocks.count (· ≡ place + (nodes * turn - turn) [MOD nodes]) := by
    simp only [times, hsame]
  rw [htimes, Nat.count_modEq_card blocks h]
  split_ifs <;> omega

private theorem sum_count_placement (h : 0 ≤ replication) (hn : candidates.Nodup) {node : String}
    (hnode : node ∈ candidates) (blocks : Nat) :
    let turns := min replication.toNat candidates.length
    let met := ∑ index ∈ Finset.range blocks,
      (placement candidates replication index).count node
    turns * (blocks / candidates.length) ≤ met ∧
      met ≤ turns * (blocks / candidates.length + 1) := by
  intro turns met
  obtain ⟨place, hplace, rfl⟩ := List.getElem_of_mem hnode
  have hpos : 0 < candidates.length := Nat.zero_lt_of_lt hplace
  have hmet : met = ∑ turn ∈ Finset.range turns,
      blocks.count fun index => (turn + index) % candidates.length = place := by
    calc met
      _ = ∑ index ∈ Finset.range blocks, ∑ turn ∈ Finset.range turns,
          if (turn + index) % candidates.length = place then 1 else 0 :=
        sum_congr rfl fun index _ => count_placement h hn hplace
      _ = ∑ turn ∈ Finset.range turns, ∑ index ∈ Finset.range blocks,
          if (turn + index) % candidates.length = place then 1 else 0 := sum_comm
      _ = _ := by
        refine sum_congr rfl fun turn _ => ?_
        rw [Nat.count_eq_card_filter_range, Finset.card_filter]
  have hbounds := fun turn => turns_bounds hpos hplace turn blocks
  have hlow := Finset.card_nsmul_le_sum (Finset.range turns) _ _ fun turn _ => (hbounds turn).1
  have hhigh := Finset.sum_le_card_nsmul (Finset.range turns) _ _ fun turn _ => (hbounds turn).2
  rw [Finset.card_range, smul_eq_mul] at hlow hhigh
  rw [hmet]
  exact ⟨hlow, hhigh⟩

end Rotation

section NewBlocks

variable {ns : Namespace} {holders : List String}

private theorem liveNodes_nodup (h : ns.nodes.keys.Nodup) : ns.liveNodes.Nodup :=
  (sortedBy_perm _).nodup_iff.mpr (h.sublist (List.filter_sublist.map Prod.fst))

private theorem mem_liveNodes (h : ns.nodes.keys.Nodup) {node : String} :
    node ∈ ns.liveNodes ↔ ns.isLive node = true := by
  simp only [liveNodes, sortedTexts, mem_sortedBy, List.mem_map, List.mem_filter, isLive]
  constructor
  · rintro ⟨⟨node, live⟩, ⟨hmem, rfl⟩, rfl⟩
    rw [(Table.get?_eq_some_iff h).mpr hmem]
    rfl
  · intro hlive
    cases hknown : ns.nodes.get? node with
    | none =>
      rw [hknown] at hlive
      cases hlive
    | some live =>
      rw [hknown] at hlive
      exact ⟨(node, live), ⟨Table.mem_of_get? hknown, hlive⟩, rfl⟩

private theorem isCorrupt_blockOn (holders : List String) (length : Int) :
    (blockOn holders length).isCorrupt = false := by
  rw [Block.isCorrupt, Bool.and_eq_false_iff, Bool.not_eq_false']
  cases hentries : (blockOn holders length).copies.entries with
  | nil => exact .inl rfl
  | cons copy rest =>
    right
    have hcopy : copy ∈ (blockOn holders length).copies.entries := by simp [hentries]
    obtain ⟨node, -, rfl⟩ := List.mem_map.mp (Table.mem_ofList hcopy)
    rfl

private theorem isPlacedOn_blockOn (hn : holders.Nodup)
    (hlive : ∀ node ∈ holders, ns.isLive node = true)
    (id : String) (length : Int) :
    (ns.blockRecord id (blockOn holders length)).IsPlacedOn holders where
  replicas := by
    have hentries : (blockOn holders length).copies.entries =
        holders.map (·, ⟨length, false⟩) := by
      apply Table.ofList_entries
      rw [List.map_map]
      exact hn.map fun _ _ hsame => hsame
    have hreplicas : (ns.blockRecord id (blockOn holders length)).replicas.Perm
        ((blockOn holders length).copies.entries.map ns.replicaOf) := (sortedBy_perm _).map _
    rw [hentries, List.map_map] at hreplicas
    refine hreplicas.trans (.of_eq (List.map_congr_left fun node hmem => ?_))
    rw [Function.comp_apply, replicaOf, hlive node hmem]
    rfl
  sound := isCorrupt_blockOn holders length

end NewBlocks

end Namespace

section Placed

variable {block : BlockRecord} {holders : List String}

private theorem BlockRecord.IsPlacedOn.usableCount (h : block.IsPlacedOn holders) :
    block.usableCount = holders.length := by
  rw [BlockRecord.usableCount, h.replicas.countP_eq, List.countP_map, List.countP_eq_length.mpr]
  intro node _
  simp [isUsable, h.sound]

private theorem BlockRecord.IsPlacedOn.corruptCount (h : block.IsPlacedOn holders) :
    block.corruptCount = 0 := by
  rw [BlockRecord.corruptCount, h.sound, if_neg Bool.false_ne_true, h.replicas.countP_eq,
    List.countP_map, List.countP_eq_zero]
  simp

private theorem BlockRecord.IsPlacedOn.replicasOn (h : block.IsPlacedOn holders) (node : String) :
    block.replicas.countP (·.node = node) = holders.count node := by
  rw [h.replicas.countP_eq, List.countP_map, List.count_eq_countP]
  exact List.countP_congr fun other _ => by simp

variable {record : FileRecord} {nodes : List String} {replication : Int}

private theorem FileRecord.IsPlaced.replicasOn (h : record.IsPlaced nodes replication)
    (node : String) :
    record.replicasOn node = ∑ index ∈ Finset.range record.blocks.length,
      (Namespace.placement nodes replication index).count node := by
  have hcounts : record.blocks.map (fun block => block.replicas.countP (·.node = node)) =
      (List.range record.blocks.length).map fun index =>
        (Namespace.placement nodes replication index).count node := by
    apply List.ext_getElem
    · simp
    · intro index hindex hindex'
      simp [(h index (by simpa using hindex)).replicasOn node]
  rw [FileRecord.replicasOn, List.countP_flatMap]
  exact congrArg List.sum hcounts

private theorem FileRecord.IsPlaced.isSpread (h : record.IsPlaced nodes replication)
    (hr : 0 ≤ replication) (hn : nodes.Nodup) : record.IsSpread nodes replication where
  replicas block hblock := by
    obtain ⟨index, hindex, rfl⟩ := List.getElem_of_mem hblock
    rw [(h index hindex).replicas.length_eq, List.length_map, Namespace.length_placement hr]
    omega
  distinct block hblock := by
    obtain ⟨index, hindex, rfl⟩ := List.getElem_of_mem hblock
    rw [((h index hindex).replicas.map Replica.node).nodup_iff, List.map_map]
    simpa [Function.comp_def] using Namespace.placement_nodup hr hn
  good block hblock replica hreplica := by
    obtain ⟨index, hindex, rfl⟩ := List.getElem_of_mem hblock
    obtain ⟨node, hnode, rfl⟩ :=
      List.mem_map.mp ((h index hindex).replicas.mem_iff.mp hreplica)
    exact ⟨Namespace.mem_of_mem_placement hr hnode, rfl, rfl, rfl⟩
  balanced node hnode other hother := by
    have hmost := (Namespace.sum_count_placement hr hn hnode record.blocks.length).2
    have hleast := (Namespace.sum_count_placement hr hn hother record.blocks.length).1
    rw [← h.replicasOn] at hmost hleast
    rw [Nat.mul_succ] at hmost
    omega

/-- With no node to hold it a block is missing, and it lacks as many copies as there are fewer nodes
than it should have copies. -/
theorem BlockRecord.IsPlacedOn.judge (h : block.IsPlacedOn holders) (hr : 1 ≤ replication)
    (hholders : (holders.length : Int) = min replication nodes.length) :
    let judged := BlockHealth.judge replication block
    judged.overReplicated = false ∧ judged.missingReplicas = max (replication - nodes.length) 0 ∧
      judged.verdict =
        if nodes.length = 0 then .missing
        else if (nodes.length : Int) < replication then .underReplicated else .healthy := by
  intro judged
  have husable : judged.usable = holders.length := h.usableCount
  refine ⟨?_, ?_, ?_⟩
  · rw [BlockHealth.overReplicated, husable, decide_eq_false_iff_not]
    change ¬ replication < _
    omega
  · rw [BlockHealth.missingReplicas, husable]
    change max (replication - _) 0 = _
    omega
  · have hnone : holders.length = 0 ↔ nodes.length = 0 := by omega
    have hfew : (holders.length : Int) < replication ↔ (nodes.length : Int) < replication := by
      omega
    change block.verdict replication = _
    simp only [BlockRecord.verdict, h.usableCount, h.corruptCount, hnone, hfew, lt_irrefl,
      if_false]

end Placed

/-! ## New files -/

namespace Namespace

variable {ns made : Namespace} {text : String} {length replication : Int} {record : FileRecord}

private theorem Valid.blocks_of_createFile (h : ns.Valid) (hr : 1 ≤ replication)
    (hcreate : (Namespace.createFile text length (some replication) none none).run ns =
      (.ok record, made)) :
    record.blocks =
        (newBlocks ns.liveNodes replication ns.nextBlock 0 (cut ns.blockSize length)).map
          (fun new => made.blockRecord new.1 new.2) ∧
      made.nodes = ns.nodes ∧ record.replication = replication ∧ record.openForWrite = false := by
  obtain ⟨path, middle, hp, hne, hparent, hmiddle, hrest, hany⟩ := h.createFile_any_length hcreate
  have hmade := h.createFile text length (some replication) none none
  have heffective : ns.effectiveReplication (some replication) = replication :=
    if_neg (by omega)
  have hnodes : middle.nodes = ns.nodes := by rw [hrest]
  have hlive : middle.liveNodes = ns.liveNodes := by rw [liveNodes, liveNodes, hnodes]
  have hnext : middle.nextBlock = ns.nextBlock := by rw [hrest]
  have hrun := hany length
  rw [hcreate] at hmade hrun
  rw [heffective] at hrun
  let lengths := cut ns.blockSize length
  let full := middle.withFile path none replication none ns.clock lengths
  obtain ⟨hrecord, rfl⟩ : .ok record = full.blockLocations text ∧ made = full :=
    Prod.ext_iff.mp hrun
  rw [blockLocations_of_file hp (node?_withFile hne hparent none ns.clock lengths)] at hrecord
  obtain rfl := Except.ok.inj hrecord
  refine ⟨?_, hnodes, rfl, rfl⟩
  rw [← hlive, ← hnext]
  exact filterMap_added full.blockRecord hmade.ids_nodup

private theorem Valid.isPlaced_of_createFile (h : ns.Valid) (hr : 1 ≤ replication)
    (hcreate : (Namespace.createFile text length (some replication) none none).run ns =
      (.ok record, made)) :
    record.IsPlaced ns.liveNodes replication := by
  obtain ⟨hblocks, hnodes, -, -⟩ := h.blocks_of_createFile hr hcreate
  intro index hindex
  have hdistinct : (placement ns.liveNodes replication index).Nodup :=
    placement_nodup (by omega) (liveNodes_nodup h.nodes_nodup)
  have hlive : ∀ node ∈ placement ns.liveNodes replication index, made.isLive node = true := by
    intro node hmem
    rw [isLive, hnodes]
    exact (mem_liveNodes h.nodes_nodup).mp (mem_of_mem_placement (by omega) hmem)
  simp only [hblocks, newBlocks, List.getElem_map, List.getElem_mapIdx, Nat.zero_add]
  exact isPlacedOn_blockOn hdistinct hlive _ _

/-- A new file has its blocks spread evenly over the live nodes, and a check finds it healthy if
there are enough of them, missing if there are none, and else under-replicated. -/
theorem createFile_spreads (h : ns.Reachable) (hB : 1 ≤ ns.blockSize) (hlength : 1 ≤ length)
    (hr : 1 ≤ replication)
    (hcreate : (createFile text length (some replication) none none).run ns = (.ok record, made))
    (openVisible : Bool) :
    let live := ns.liveNodes
    live.Nodup ∧ (∀ node, node ∈ live ↔ ns.isLive node = true) ∧
      record.IsSpread live replication ∧
      ∃ health, FileHealth.ofRecord record openVisible = .ok health ∧
        health.blocks.map BlockHealth.block = record.blocks ∧ record.blocks ≠ [] ∧
        (∀ block ∈ health.blocks, block.overReplicated = false ∧
          block.missingReplicas = max (replication - live.length) 0) ∧
        health.verdict =
          if live.length = 0 then .missing
          else if (live.length : Int) < replication then .underReplicated else .healthy := by
  intro live
  have hnodes := h.valid.nodes_nodup
  have hplaced := h.valid.isPlaced_of_createFile hr hcreate
  obtain ⟨hblocks, -, hreplication, hclosed⟩ := h.valid.blocks_of_createFile hr hcreate
  have hlengths : ∀ block ∈ record.blocks, 0 ≤ block.length := by
    intro block hmem
    rw [hblocks] at hmem
    obtain ⟨new, hnew, rfl⟩ := List.mem_map.mp hmem
    have hcut : new.2.length ∈ cut ns.blockSize length := by
      rw [← map_length_newBlocks ns.liveNodes replication ns.nextBlock 0 (cut ns.blockSize length)]
      exact List.mem_map_of_mem hnew
    exact zero_le_one.trans (bounded_of_mem_cut hB hcut).1
  have hne : record.blocks ≠ [] := by
    rw [hblocks, cut_of_pos hB hlength, newBlocks_cons]
    exact List.cons_ne_nil _ _
  have hjudged : ∀ block ∈ record.blocks.map (BlockHealth.judge replication),
      block.overReplicated = false ∧
        block.missingReplicas = max (replication - live.length) 0 ∧
        block.verdict =
          if live.length = 0 then .missing
          else if (live.length : Int) < replication then .underReplicated else .healthy := by
    intro judged hmem
    obtain ⟨block, hblock, rfl⟩ := List.mem_map.mp hmem
    obtain ⟨index, hindex, rfl⟩ := List.getElem_of_mem hblock
    have hholders : ((placement live replication index).length : Int) =
        min replication live.length := by
      rw [length_placement (by omega)]
      omega
    exact (hplaced index hindex).judge hr hholders
  refine ⟨liveNodes_nodup hnodes, fun node => mem_liveNodes hnodes,
    hplaced.isSpread (by omega) (liveNodes_nodup hnodes), _,
    FileHealth.ofRecord_closed hclosed hlengths openVisible, ?_, hne, ?_⟩
  · rw [List.map_map]
    exact List.map_id' record.blocks
  · rw [hreplication, max_eq_left hr]
    refine ⟨fun block hmem => ⟨(hjudged block hmem).1, (hjudged block hmem).2.1⟩, ?_⟩
    exact FileHealth.worstOf_of_forall (by simpa using hne) fun block hmem =>
      (hjudged block hmem).2.2

/-- Of four copies that were asked for three nodes can have three. -/
theorem createFile_spreads_of_threeNodes :
    threeNodes.Reachable ∧ ∃ record made,
      (createFile "/d/a" 13 (some 4) none none).run threeNodes = (.ok record, made) ∧
      record.IsSpread ["n1", "n2", "n3"] 4 ∧
      ∃ health, FileHealth.ofRecord record false = .ok health ∧
        (∀ block ∈ health.blocks, block.missingReplicas = 1) ∧
        health.verdict = .underReplicated := by
  have hreachable : threeNodes.Reachable := ⟨4, 2, ["n1", "n2", "n3"], [], rfl⟩
  have hlive : threeNodes.liveNodes = ["n1", "n2", "n3"] := sortedBy_eq_self (by decide)
  obtain ⟨record, made, hcreate⟩ : ∃ record made,
      (createFile "/d/a" 13 (some 4) none none).run threeNodes = (.ok record, made) := by
    have hok : ((createFile "/d/a" 13 (some 4) none none).run threeNodes).1.isOk = true := by
      decide +kernel
    generalize (createFile "/d/a" 13 (some 4) none none).run threeNodes = ended at hok
    rcases ended with ⟨_ | record, made⟩
    · cases hok
    · exact ⟨record, made, rfl⟩
  obtain ⟨-, -, hspread, health, hhealth, -, -, hblocks, hverdict⟩ :=
    createFile_spreads hreachable (by decide) (by decide) (by decide) hcreate false
  rw [hlive] at hspread hblocks hverdict
  exact ⟨hreachable, record, made, hcreate, hspread, health, hhealth,
    fun block hmem => (hblocks block hmem).2, hverdict⟩

end Namespace

end BlockFsck
