import BlockFsck.Proofs.Deed
import BlockFsck.Proofs.Report.Wording

/-!
# Namespaces that name no status

If no name on a path and no node that holds a block names a status, then neither does any record of
a file, as blocks are only numbered. Deeds keep it so.
-/

namespace BlockFsck

namespace Namespace

/-- No name on a path and no node that holds a block names a status. -/
structure IsUnmarked (ns : Namespace) : Prop where
  names : ∀ {path node}, ns.node? path = some node → ∀ name ∈ path, Unmarked name
  nodes : ∀ {id block}, ns.blocks.get? id = some block → ∀ node ∈ block.copies.keys, Unmarked node

namespace IsUnmarked

variable {ns after : Namespace}

theorem of_names (hnames : ∀ name ∈ ns.tree.names, Unmarked name)
    (hnodes : ∀ entry ∈ ns.blocks.entries, ∀ node ∈ entry.2.copies.keys, Unmarked node) :
    ns.IsUnmarked where
  names hn name hname := by
    obtain ⟨entry, hentry, -⟩ := Option.map_eq_some_iff.mp hn
    exact hnames name (Inode.mem_names_of_lookup hentry hname)
  nodes hb := hnodes _ (Table.mem_of_get? hb)

theorem text (h : ns.IsUnmarked) {path : Path} {node : Node} (hn : ns.node? path = some node) :
    Unmarked path.text := unmarked_text.mpr (h.names hn)

private theorem blockRecord (h : ns.IsUnmarked) (hr : ns.IsRegistry) {id : String} {block : Block}
    (hb : ns.blocks.get? id = some block) : (ns.blockRecord id block).IsUnmarked where
  id := by
    have hknown : id ∈ ns.blocks.keys := Table.isSome_get?.mp (Option.isSome_of_eq_some hb)
    obtain ⟨number, -, rfl⟩ := hr.numbered hknown
    exact .first (by decide) (.low (.nat number))
  nodes replica hmem := by
    obtain ⟨copy, hcopy, rfl⟩ := List.mem_map.mp hmem
    exact h.nodes hb copy.1 (List.mem_map.mpr ⟨copy, mem_sortedBy.mp hcopy, rfl⟩)

theorem recordOf (h : ns.IsUnmarked) (hr : ns.IsRegistry) {path : Path} {content : FileNode}
    (hn : ns.node? path = some (.file content)) : (ns.recordOf path content).IsUnmarked where
  path := h.text hn
  blocks record hmem := by
    obtain ⟨id, -, hrecord⟩ := List.mem_filterMap.mp hmem
    obtain ⟨block, hblock, rfl⟩ := Option.map_eq_some_iff.mp hrecord
    exact h.blockRecord hr hblock

/-- A deed that brings no status into a path keeps the namespace unmarked. -/
theorem deed (h : ns.IsUnmarked) {quarantine : Path} {deed : Deed}
    (hd : deed.Does quarantine ns after)
    (htarget : ∀ path target, deed = .moved path target → Unmarked target.text) :
    after.IsUnmarked := by
  cases deed with
  | moved path target =>
    have hnames := unmarked_text.mp (htarget path target rfl)
    refine ⟨fun {other node} hn => ?_, fun hb => ?_⟩
    · rw [hd.node_eq] at hn
      split_ifs at hn with htarget hpath habove
      · exact htarget ▸ hnames
      · exact fun name hname => hnames name (habove.subset hname)
      · exact h.names hn
    · rw [hd.rest_eq] at hb
      exact h.nodes hb
  | deleted path =>
    rw [Deed.Does] at hd
    subst hd
    refine ⟨fun {other node} hn => ?_, fun {id block} hb => ?_⟩
    · by_cases hne : path = []
      · rw [hne, node?_congr (by rfl : (ns.removed []).root = ns.root)] at hn
        exact h.names hn
      · rw [node?_removed hne] at hn
        split_ifs at hn
        exact h.names hn
    · rw [removed_blocks, Table.get?_restrict] at hb
      split_ifs at hb
      exact h.nodes hb

end IsUnmarked

end Namespace

end BlockFsck
