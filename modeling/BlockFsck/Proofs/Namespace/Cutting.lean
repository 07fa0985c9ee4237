import Mathlib.Algebra.BigOperators.Group.List.Basic
import Mathlib.Algebra.Ring.Int.Defs
import BlockFsck.Proofs.Namespace.Reachable

/-!
# Cutting lengths into blocks

A length is cut block by block, into full ones and a remainder (`cut_eq`). Bytes that come later
fill the last block and are cut from there on, so that it makes no difference when they came
(`toppedUp_cut`). Then what creating a file and appending to one do to the registry of blocks, with
the lengths of the blocks named.
-/

namespace BlockFsck.Namespace

variable {blockSize length more : Int}

theorem cut_of_nonpos (h : length ≤ 0) : cut blockSize length = [] := by
  rw [cut, Int.toNat_of_nonpos h]
  split_ifs <;> rfl

private theorem cutRounds_eq (hB : 1 ≤ blockSize) {rounds others : Nat}
    (h : length.toNat ≤ rounds) (h' : length.toNat ≤ others) :
    cutRounds blockSize rounds length = cutRounds blockSize others length := by
  induction rounds generalizing others length with
  | zero =>
    cases others with
    | zero => rfl
    | succ others => rw [cutRounds, cutRounds, if_neg (by omega)]
  | succ rounds ih =>
    cases others with
    | zero => rw [cutRounds, cutRounds, if_neg (by omega)]
    | succ others =>
      rw [cutRounds, cutRounds]
      split_ifs
      · exact congrArg (min length blockSize :: ·) (ih (by omega) (by omega))
      · rfl

theorem cut_of_pos (hB : 1 ≤ blockSize) (h : 0 < length) :
    cut blockSize length =
      min length blockSize :: cut blockSize (length - min length blockSize) := by
  have hsize : ¬ blockSize < 1 := by omega
  obtain ⟨rounds, hrounds⟩ : ∃ rounds, length.toNat = rounds + 1 :=
    ⟨length.toNat - 1, by omega⟩
  rw [cut, if_neg hsize, hrounds, cutRounds, if_pos h, cut, if_neg hsize]
  exact congrArg (min length blockSize :: ·) (cutRounds_eq hB (by omega) le_rfl)

private theorem cut_of_le (h : 0 < length) (hB : length ≤ blockSize) : cut blockSize length =
    [length] := by
  rw [cut_of_pos (by omega) h, min_eq_left hB, Int.sub_self, cut_of_nonpos le_rfl]

private theorem cut_of_lt (hB : 1 ≤ blockSize) (h : blockSize < length) :
    cut blockSize length = blockSize :: cut blockSize (length - blockSize) := by
  rw [cut_of_pos hB (by omega), min_eq_right h.le]

private theorem cut_induction {motive : Int → Prop} (hB : 1 ≤ blockSize)
    (done : ∀ length ≤ 0, motive length) (last : ∀ length, 0 < length → length ≤ blockSize →
      motive length)
    (next : ∀ length, blockSize < length → motive (length - blockSize) → motive length)
    (length : Int) : motive length := by
  induction hn : length.toNat using Nat.strong_induction_on generalizing length with
  | _ n ih =>
    rcases Int.lt_or_le 0 length with hpos | hle
    · rcases Int.lt_or_le blockSize length with hlt | hle
      · exact next length hlt (ih _ (by omega) (length - blockSize) rfl)
      · exact last length hpos hle
    · exact done length hle

theorem sum_cut (hB : 1 ≤ blockSize) (h : 0 ≤ length) : (cut blockSize length).sum = length := by
  induction length using cut_induction hB with
  | done length hle => rw [cut_of_nonpos hle, List.sum_nil, le_antisymm hle h]
  | last length hpos hle => rw [cut_of_le hpos hle, List.sum_singleton]
  | next length hlt ih =>
    rw [cut_of_lt hB hlt, List.sum_cons, ih (by omega)]
    omega

/-- No block is empty or too long. -/
theorem bounded_of_mem_cut (hB : 1 ≤ blockSize) {size : Int} (h : size ∈ cut blockSize length) :
    1 ≤ size ∧ size ≤ blockSize := by
  induction length using cut_induction hB with
  | done length hle =>
    rw [cut_of_nonpos hle] at h
    cases h
  | last length hpos hle =>
    rw [cut_of_le hpos hle, List.mem_singleton] at h
    omega
  | next length hlt ih =>
    rw [cut_of_lt hB hlt, List.mem_cons] at h
    rcases h with rfl | h
    · omega
    · exact ih h

/-- As many full blocks as there are in the length, and the remainder if there is one. -/
theorem cut_eq (hB : 1 ≤ blockSize) (h : 0 ≤ length) :
    cut blockSize length = List.replicate (length / blockSize).toNat blockSize ++
      if length % blockSize = 0 then [] else [length % blockSize] := by
  induction length using cut_induction hB with
  | done length hle =>
    obtain rfl : length = 0 := le_antisymm hle h
    rw [cut_of_nonpos le_rfl, Int.zero_ediv, Int.zero_emod, if_pos rfl]
    rfl
  | last length hpos hle =>
    rw [cut_of_le hpos hle]
    rcases hle.lt_or_eq with hlt | rfl
    · rw [Int.ediv_eq_zero_of_lt h hlt, Int.emod_eq_of_lt h hlt, if_neg hpos.ne']
      rfl
    · rw [Int.ediv_self hpos.ne', Int.emod_self, if_pos rfl]
      rfl
  | next length hlt ih =>
    have hquotient : (length / blockSize).toNat = ((length - blockSize) / blockSize).toNat + 1 := by
      have hrest : 0 ≤ (length - blockSize) / blockSize := Int.ediv_nonneg (by omega) (by omega)
      have hless : (length - blockSize) / blockSize = length / blockSize - 1 := by
        rw [Int.sub_ediv_of_dvd length (Int.dvd_refl blockSize), Int.ediv_self (by omega)]
      omega
    rw [cut_of_lt hB hlt, ih (by omega), hquotient, List.replicate_succ, Int.sub_emod_right,
      List.cons_append]

/-- Only the last block may be short. -/
theorem full_of_mem_dropLast_cut {size : Int} (h : size ∈ (cut blockSize length).dropLast) :
    size = blockSize := by
  rcases Int.lt_or_le blockSize 1 with hB | hB
  · rw [cut, if_pos hB] at h
    cases h
  rcases Int.lt_or_le length 0 with hneg | hpos
  · rw [cut_of_nonpos hneg.le] at h
    cases h
  rw [cut_eq hB hpos] at h
  split_ifs at h
  · rw [List.append_nil] at h
    exact List.eq_of_mem_replicate ((List.dropLast_subset _) h)
  · rw [List.dropLast_concat] at h
    exact List.eq_of_mem_replicate h

/-- The lengths of the blocks of a file after it has grown, the last one having been filled
first. -/
def toppedUp (blockSize : Int) (lengths : List Int) (more : Int) : List Int :=
  match lengths.getLast? with
  | none => cut blockSize more
  | some last =>
    if last < blockSize then
      let grow := min more (blockSize - last)
      lengths.dropLast ++ (last + grow) :: cut blockSize (more - grow)
    else lengths ++ cut blockSize more

theorem toppedUp_nil : toppedUp blockSize [] more = cut blockSize more := rfl

theorem toppedUp_concat (front : List Int) (last : Int) :
    toppedUp blockSize (front ++ [last]) more =
      if last < blockSize then
        front ++ (last + min more (blockSize - last)) ::
          cut blockSize (more - min more (blockSize - last))
      else front ++ [last] ++ cut blockSize more := by
  rw [toppedUp, List.getLast?_concat, List.dropLast_concat]

private theorem toppedUp_cons (size : Int) {lengths : List Int} (h : lengths ≠ []) :
    toppedUp blockSize (size :: lengths) more = size :: toppedUp blockSize lengths more := by
  obtain ⟨front, last, rfl⟩ := (List.eq_nil_or_concat' lengths).resolve_left h
  rw [← List.cons_append, toppedUp_concat, toppedUp_concat]
  split_ifs <;> rfl

/-- It makes no difference whether bytes are there from the start or come later. -/
theorem toppedUp_cut (hB : 1 ≤ blockSize) (h : 0 ≤ length) (hm : 0 ≤ more) :
    toppedUp blockSize (cut blockSize length) more = cut blockSize (length + more) := by
  induction length using cut_induction hB with
  | done length hle => rw [cut_of_nonpos hle, toppedUp_nil, le_antisymm hle h, zero_add]
  | last length hpos hle =>
    rw [cut_of_le hpos hle, ← List.nil_append [length], toppedUp_concat,
      cut_of_pos hB (by omega : 0 < length + more)]
    split_ifs with hlt
    · have hfirst : length + min more (blockSize - length) = min (length + more) blockSize := by
        omega
      have hrest : more - min more (blockSize - length) =
          length + more - min (length + more) blockSize := by omega
      rw [hfirst, hrest, List.nil_append]
    · have hfull : min (length + more) blockSize = length := by omega
      rw [hfull, add_sub_cancel_left]
      rfl
  | next length hlt ih =>
    have hne : cut blockSize (length - blockSize) ≠ [] := by
      rw [cut_of_pos hB (by omega)]
      simp
    have hlonger : blockSize < length + more := by omega
    rw [cut_of_lt hB hlt, toppedUp_cons _ hne, ih (by omega), cut_of_lt hB hlonger,
      sub_add_eq_add_sub]

private theorem toppedUp_of_full {lengths : List Int} (hm : more ≤ 0)
    (hfull : ∀ last ∈ lengths.getLast?, blockSize ≤ last) :
    toppedUp blockSize lengths more = lengths := by
  rcases List.eq_nil_or_concat' lengths with rfl | ⟨front, last, rfl⟩
  · exact cut_of_nonpos hm
  · have hlast : blockSize ≤ last := hfull last (by simp)
    rw [toppedUp_concat, if_neg (by omega), cut_of_nonpos hm, List.append_nil]

theorem sum_toppedUp_of_short {front : List Int} {last : Int} (hm : more < 0)
    (hlast : last < blockSize) :
    (toppedUp blockSize (front ++ [last]) more).sum = (front ++ [last]).sum + more := by
  have hgrow : min more (blockSize - last) = more := min_eq_left (by omega)
  rw [toppedUp_concat, if_pos hlast, hgrow, sub_self, cut_of_nonpos le_rfl, List.sum_append,
    List.sum_append, List.sum_singleton, List.sum_singleton, add_assoc]

theorem exists_toppedUp_cut (hB : 1 ≤ blockSize) (h : 0 ≤ length)
    (hkeeps : more < 0 → ∀ last ∈ (cut blockSize length).getLast?, blockSize ≤ last) :
    ∃ grown, length ≤ grown ∧
      toppedUp blockSize (cut blockSize length) more = cut blockSize grown := by
  rcases Int.lt_or_le more 0 with hneg | hpos
  · exact ⟨length, le_rfl, toppedUp_of_full hneg.le (hkeeps hneg)⟩
  · exact ⟨length + more, by omega, toppedUp_cut hB h hpos⟩

theorem length_newBlocks (candidates : List String) (replication : Int) (next index : Nat)
    (lengths : List Int) :
    (newBlocks candidates replication next index lengths).length = lengths.length := by
  simp [newBlocks]

theorem newBlocks_append (candidates : List String) (replication : Int) (next index : Nat)
    (front back : List Int) :
    newBlocks candidates replication next index (front ++ back) =
      newBlocks candidates replication next index front ++
        newBlocks candidates replication (next + front.length) (index + front.length) back := by
  simp only [newBlocks, List.mapIdx_append, List.append_cancel_left_eq]
  congr 1
  funext i size
  rw [Nat.add_assoc, Nat.add_assoc, Nat.add_comm i]

theorem newBlocks_cons (candidates : List String) (replication : Int) (next index : Nat)
    (size : Int) (rest : List Int) :
    newBlocks candidates replication next index (size :: rest) =
      (blockId next, blockOn (placement candidates replication index) size) ::
        newBlocks candidates replication (next + 1) (index + 1) rest := by
  rw [← List.singleton_append, newBlocks_append]
  rfl

theorem map_length_newBlocks (candidates : List String) (replication : Int) (next index : Nat)
    (lengths : List Int) :
    (newBlocks candidates replication next index lengths).map (·.2.length) = lengths := by
  induction lengths generalizing next index with
  | nil => rfl
  | cons size rest ih => rw [newBlocks_cons, List.map_cons, ih, blockOn]

/-- In a registry blocks that were added are what they were added as. -/
theorem filterMap_added {β : Type} (f : String → Block → β) {blocks : Table String Block}
    {added : List (String × Block)} (h : (blocks.extend added).keys.Nodup) :
    ((added.map Prod.fst).filterMap fun id => ((blocks.extend added).get? id).map (f id)) =
      added.map fun new => f new.1 new.2 := by
  have hknown : ∀ new ∈ added,
      ((blocks.extend added).get? new.1).map (f new.1) = some (f new.1 new.2) := by
    intro new hmem
    rw [Table.get?_extend_of_mem h hmem, Option.map_some]
  rw [List.filterMap_map]
  exact (List.filterMap_congr hknown).trans (congrFun List.filterMap_eq_map' added)

theorem blockId_not_mem_newBlocks (candidates : List String) (replication : Int)
    (next index : Nat) (lengths : List Int) :
    blockId (next + lengths.length) ∉
      (newBlocks candidates replication next index lengths).map Prod.fst := by
  rw [newBlocks_ids, List.mem_map]
  rintro ⟨number, hnumber, he⟩
  have hrange := List.mem_range'_1.mp hnumber
  have hsame := blockId_inj.mp he
  omega

theorem resized_blockOn (nodes : List String) (length size : Int) :
    Block.resized (blockOn nodes length) size = blockOn nodes size := by
  have hcopies := Table.map_ofList (fun copy : BlockCopy => { copy with length := size })
    (nodes.map fun node => (node, (⟨length, false⟩ : BlockCopy)))
  rw [List.map_map] at hcopies
  rw [Block.resized, blockOn, blockOn, Block.mk.injEq]
  exact ⟨rfl, congrArg Table.mk hcopies⟩

variable {ns : Namespace} {text : String} {path : Path} {content : FileNode}

/-- Where there is room for a file it is made, with blocks of the length that was asked for. -/
theorem run_createFile_of_free {middle : Namespace} (hp : readPath text = .ok path)
    (hne : path ≠ []) (hmade : (makeDirectories [] path.parent).run ns = (.ok true, middle))
    (hfree : middle.node? path = none) (length : Int) (replication : Option Int)
    (nodes : Option (List String)) (lease : Option String) :
    let added := newBlocks (nodes.getD middle.liveNodes) (middle.effectiveReplication replication)
      middle.nextBlock 0 (cut middle.blockSize length)
    let after : Namespace := { middle.place path (.file
        ⟨middle.effectiveReplication replication, added.map Prod.fst, lease, middle.clock⟩) with
      nextBlock := middle.nextBlock + added.length
      blocks := middle.blocks.extend added }
    (createFile text length replication nodes lease).run ns =
      (after.blockLocations text, after) := by
  intro added after
  rw [createFile, run_bind, run_look, hp]
  dsimp only
  rw [if_neg hne, run_bind, hmade]
  dsimp only
  rw [if_neg (by decide : ¬ (!true) = true), run_bind, run_get]
  dsimp only
  rw [node?_eq_none.mp hfree]
  rfl

theorem run_fillLast_nil (h : content.blocks = []) (more : Int) :
    (fillLast content more).run ns = (.ok more, ns) := by
  rw [fillLast, run_bind, run_get]
  dsimp only
  rw [h]
  rfl

theorem run_fillLast_of_last {id : String} {block : Block}
    (hl : content.blocks.getLast? = some id) (hb : ns.blocks.get? id = some block) (more : Int) :
    let grow := min more (ns.blockSize - block.length)
    (fillLast content more).run ns =
      if block.length < ns.blockSize then
        (.ok (more - grow),
          { ns with blocks := ns.blocks.set id (Block.resized block (block.length + grow)) })
      else (.ok more, ns) := by
  intro grow
  rw [fillLast, run_bind, run_get]
  dsimp only
  rw [hl]
  dsimp only
  rw [hb]
  dsimp only
  split_ifs <;> rfl

/-- What is left when the last block is full goes into new blocks. -/
theorem run_append_of_filled {middle : Namespace} {more left : Int}
    (hf : ns.findFile text = .ok (path, content)) (hl : content.lease.isSome = true)
    (hfilled : (fillLast content more).run ns = (.ok left, middle))
    (nodes : Option (List String)) :
    let added := newBlocks (nodes.getD ns.liveNodes) content.replication middle.nextBlock
      content.blocks.length (cut middle.blockSize left)
    let after : Namespace := { middle.place path (.file { content with
        blocks := content.blocks ++ added.map Prod.fst, modified := middle.clock }) with
      nextBlock := middle.nextBlock + added.length
      blocks := middle.blocks.extend added }
    (append text more nodes).run ns = (after.blockLocations text, after) := by
  intro added after
  have hopen : ¬ content.lease.isNone = true := by
    rw [← Option.not_isSome, hl]
    decide
  have hcandidates : (candidatesFrom nodes).run ns = (.ok (nodes.getD ns.liveNodes), ns) := rfl
  rw [append, run_bind, run_look, hf]
  dsimp only
  rw [if_neg hopen, run_bind, hcandidates]
  dsimp only
  rw [run_bind, hfilled]
  rfl

end BlockFsck.Namespace
