import BlockFsck.Proofs.Namespace.Ownership
import BlockFsck.Proofs.Health

/-!
# Faults and repairs of storage

A node serves a block if it is live and has an uncorrupted copy. A fault makes nobody serve a
block who did not, a repair takes nobody away, and neither of them touches the tree or the length of
a block. Whether all copies of a block are marked corrupt may change in either direction, but that
flag is set only where nobody serves the block.
-/

namespace BlockFsck

/-- Something goes wrong with a copy or a node. -/
inductive Operation.IsFault : Operation → Prop
  | report (block node : String) : IsFault (.reportBadReplica block node)
  | remove (block node : String) : IsFault (.removeReplica block node)
  | nodeDown (node : String) : IsFault (.setNodeLive node false)

/-- A copy or a node comes back. -/
inductive Operation.IsRepair : Operation → Prop
  | add (block node : String) : IsRepair (.addReplica block node)
  | nodeUp (node : String) : IsRepair (.setNodeLive node true)
  | register (node : String) : IsRepair (.registerNode node true)

/-- There is an uncorrupted copy on the node. -/
def Block.IsGoodOn (block : Block) (node : String) : Prop :=
  ∃ copy, block.copies.get? node = some copy ∧ copy.corrupt = false

namespace Namespace

variable {ns after : Namespace}

/-- The node is live and has an uncorrupted copy of the block. -/
def Serves (ns : Namespace) (id node : String) : Prop :=
  ns.isLive node = true ∧ ∃ block, ns.blocks.get? id = some block ∧ block.IsGoodOn node

private theorem Valid.isLost_iff (h : ns.Valid) {id : String} :
    ns.IsLost id ↔ (ns.blocks.get? id).isSome ∧ ∀ node, ¬ ns.Serves id node := by
  constructor
  · rintro ⟨block, hb, hlost⟩
    refine ⟨by rw [hb]; rfl, ?_⟩
    rintro node ⟨hlive, other, ho, copy, hcopy, hgood⟩
    rw [hb, Option.some.injEq] at ho
    subst ho
    exact hlost _ (Table.mem_of_get? hcopy) ⟨hgood, hlive⟩
  · rintro ⟨hknown, hnobody⟩
    obtain ⟨block, hb⟩ := Option.isSome_iff_exists.mp hknown
    refine ⟨block, hb, ?_⟩
    rintro ⟨node, copy⟩ hmem ⟨hgood, hlive⟩
    have hcopy := (Table.get?_eq_some_iff (h.copies_nodup hb)).mpr hmem
    exact hnobody node ⟨hlive, block, hb, copy, hcopy, hgood⟩

/-- The same tree with blocks of the same lengths, and nobody serves a block who did not before. -/
structure Degrades (ns after : Namespace) : Prop where
  node?_eq : ∀ path, after.node? path = ns.node? path
  length_eq : ∀ id, (after.blocks.get? id).map Block.length = (ns.blocks.get? id).map Block.length
  serves : ∀ id node, after.Serves id node → ns.Serves id node

private theorem Degrades.refl (ns : Namespace) : ns.Degrades ns :=
  ⟨fun _ => rfl, fun _ => rfl, fun _ _ => id⟩

theorem Degrades.negative_iff (h : ns.Degrades after) {id : String} :
    after.IsNegative id ↔ ns.IsNegative id := by
  have hlength : ∀ {ns : Namespace}, ns.IsNegative id ↔
      ∃ length, (ns.blocks.get? id).map Block.length = some length ∧ length < 0 := by
    intro ns
    simp only [IsNegative, Option.map_eq_some_iff, exists_exists_and_eq_and]
  rw [hlength, hlength, h.length_eq]

theorem Degrades.lost (h : ns.Degrades after) (hns : ns.Valid) (hafter : after.Valid)
    {id : String} (hlost : ns.IsLost id) : after.IsLost id := by
  rw [hns.isLost_iff] at hlost
  rw [hafter.isLost_iff]
  obtain ⟨hknown, hnobody⟩ := hlost
  refine ⟨?_, fun node hserves => hnobody node (h.serves id node hserves)⟩
  rw [← Option.isSome_map, h.length_eq, Option.isSome_map]
  exact hknown

private theorem serves_setBlock (ns : Namespace) (id : String) (block : Block)
    {other node : String} :
    ({ ns with blocks := ns.blocks.set id block } : Namespace).Serves other node ↔
      if id = other then ns.isLive node = true ∧ block.IsGoodOn node
      else ns.Serves other node := by
  simp only [Serves, Table.get?_set]
  split_ifs <;> simp [isLive]

private theorem serves_setNode (ns : Namespace) (node : String) (live : Bool) {id other : String} :
    ({ ns with nodes := ns.nodes.set node live } : Namespace).Serves id other ↔
      (if node = other then live else ns.isLive other) = true ∧
        ∃ block, ns.blocks.get? id = some block ∧ block.IsGoodOn other := by
  simp only [Serves, isLive, Table.get?_set]
  split_ifs <;> rfl

theorem length_setBlock {id : String} {block new : Block} (hb : ns.blocks.get? id = some block)
    (hlength : new.length = block.length) (other : String) :
    ((ns.blocks.set id new).get? other).map Block.length =
      (ns.blocks.get? other).map Block.length := by
  rw [Table.get?_set]
  split_ifs with he
  · rw [← he, hb, Option.map_some, Option.map_some, hlength]
  · rfl

private theorem degrades_setBlock {id : String} {block new : Block}
    (hb : ns.blocks.get? id = some block)
    (hlength : new.length = block.length)
    (hgood : ∀ node, new.IsGoodOn node → block.IsGoodOn node) :
    ns.Degrades { ns with blocks := ns.blocks.set id new } := by
  constructor
  case node?_eq => exact node?_congr rfl
  case length_eq => exact length_setBlock hb hlength
  case serves =>
    intro other node hserves
    rw [serves_setBlock] at hserves
    split_ifs at hserves with he
    · obtain ⟨hlive, hnew⟩ := hserves
      exact ⟨hlive, block, he ▸ hb, hgood node hnew⟩
    · exact hserves

private theorem restores_setBlock {id : String} {block new : Block}
    (hb : ns.blocks.get? id = some block)
    (hlength : new.length = block.length)
    (hgood : ∀ node, block.IsGoodOn node → new.IsGoodOn node) :
    Degrades { ns with blocks := ns.blocks.set id new } ns := by
  constructor
  case node?_eq => exact fun path => (node?_congr rfl path).symm
  case length_eq => exact fun other => (length_setBlock hb hlength other).symm
  case serves =>
    intro other node hserves
    rw [serves_setBlock]
    split_ifs with he
    · obtain ⟨hlive, found, hfound, hold⟩ := hserves
      rw [← he, hb, Option.some.injEq] at hfound
      exact ⟨hlive, hgood node (hfound ▸ hold)⟩
    · exact hserves

private theorem degrades_nodeDown (ns : Namespace) (node : String) :
    ns.Degrades { ns with nodes := ns.nodes.set node false } := by
  constructor
  case node?_eq => exact node?_congr rfl
  case length_eq => exact fun _ => rfl
  case serves =>
    intro id other hserves
    rw [serves_setNode] at hserves
    split_ifs at hserves with he
    · cases hserves.1
    · exact hserves

private theorem restores_nodeUp (ns : Namespace) (node : String) :
    Degrades { ns with nodes := ns.nodes.set node true } ns := by
  constructor
  case node?_eq => exact fun path => (node?_congr rfl path).symm
  case length_eq => exact fun _ => rfl
  case serves =>
    intro id other hserves
    rw [serves_setNode]
    split_ifs
    · exact ⟨rfl, hserves.2⟩
    · exact hserves

theorem perform_setNodeLive (ns : Namespace) (node : String) (live : Bool) :
    ((Operation.setNodeLive node live).perform ns).2 =
      if ns.nodes.contains node then { ns with nodes := ns.nodes.set node live } else ns := by
  rw [Operation.perform, Operation.action, run_answer, setNodeLive, run_bind, run_get]
  dsimp only
  split_ifs <;> rfl

private theorem isGoodOn_of_reported {id node other : String} {block : Block}
    (h : ((Operation.reportBadReplica id node).revised ns block).IsGoodOn other) :
    block.IsGoodOn other := by
  obtain ⟨copy, hcopy, hgood⟩ := h
  simp only [Operation.revised] at hcopy
  split at hcopy
  · rw [Table.get?_set] at hcopy
    split_ifs at hcopy
    · -- the copy that was reported is not a good one
      cases hcopy
      cases hgood
    · exact ⟨copy, hcopy, hgood⟩
  · exact ⟨copy, hcopy, hgood⟩

private theorem isGoodOn_of_removed {id node other : String} {block : Block}
    (h : ((Operation.removeReplica id node).revised ns block).IsGoodOn other) :
    block.IsGoodOn other := by
  obtain ⟨copy, hcopy, hgood⟩ := h
  rw [Operation.revised, Table.get?_erase] at hcopy
  split_ifs at hcopy
  exact ⟨copy, hcopy, hgood⟩

private theorem isGoodOn_added {id node other : String} {block : Block} (h : block.IsGoodOn other) :
    ((Operation.addReplica id node).revised ns block).IsGoodOn other := by
  obtain ⟨copy, hcopy, hgood⟩ := h
  simp only [Operation.revised]
  split_ifs
  · rw [Block.IsGoodOn, Table.get?_set]
    split_ifs
    · exact ⟨_, rfl, rfl⟩
    · exact ⟨copy, hcopy, hgood⟩
  · exact ⟨copy, hcopy, hgood⟩

private theorem degrades_report {op : Operation} {id : String} (hop : op.reportsOn = some id)
    (hlength : ∀ block, (op.revised ns block).length = block.length)
    (hgood : ∀ block node, (op.revised ns block).IsGoodOn node → block.IsGoodOn node) :
    ns.Degrades (op.perform ns).2 := by
  cases hb : ns.blocks.get? id with
  | none =>
    rw [perform_report_unknown hop hb]
    exact .refl ns
  | some block =>
    rw [perform_report hop hb]
    exact degrades_setBlock hb (hlength block) (hgood block)

private theorem restores_report {op : Operation} {id : String} (hop : op.reportsOn = some id)
    (hlength : ∀ block, (op.revised ns block).length = block.length)
    (hgood : ∀ block node, block.IsGoodOn node → (op.revised ns block).IsGoodOn node) :
    (op.perform ns).2.Degrades ns := by
  cases hb : ns.blocks.get? id with
  | none =>
    rw [perform_report_unknown hop hb]
    exact .refl ns
  | some block =>
    rw [perform_report hop hb]
    exact restores_setBlock hb (hlength block) (hgood block)

theorem degrades_of_isFault {op : Operation} (h : op.IsFault) (ns : Namespace) :
    ns.Degrades (op.perform ns).2 := by
  cases h with
  | report id node =>
    refine degrades_report rfl (fun block => ?_) fun _ _ => isGoodOn_of_reported
    simp only [Operation.revised]
    split <;> rfl
  | remove id node => exact degrades_report rfl (fun _ => rfl) fun _ _ => isGoodOn_of_removed
  | nodeDown node =>
    rw [perform_setNodeLive]
    split_ifs
    · exact degrades_nodeDown ns node
    · exact .refl ns

theorem restores_of_isRepair {op : Operation} (h : op.IsRepair) (ns : Namespace) :
    (op.perform ns).2.Degrades ns := by
  cases h with
  | add id node =>
    refine restores_report rfl (fun block => ?_) fun _ _ => isGoodOn_added
    simp only [Operation.revised]
    split_ifs <;> rfl
  | nodeUp node =>
    rw [perform_setNodeLive]
    split_ifs
    · exact restores_nodeUp ns node
    · exact .refl ns
  | register node => exact restores_nodeUp ns node

end Namespace

end BlockFsck
