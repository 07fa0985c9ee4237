import BlockFsck.Proofs.Namespace.Valid

/-!
# Moving and removing subtrees

When a rename or a deletion is granted, and what is at each path afterwards. The lookups, the
removal from one directory and the insertion into another come to a change of paths, and both
requests leave a tree.
-/

namespace BlockFsck.Namespace

variable {ns : Namespace} {source target path other : Path}

/-- The source is there, and the target is free, below a directory and not inside the source. -/
def CanRename (ns : Namespace) (source target : Path) : Prop :=
  source ≠ [] ∧ target ≠ [] ∧ ¬ source <+: target ∧ ns.node? source ≠ none ∧
    ns.node? target.parent = some .directory ∧ ns.node? target = none

instance (ns : Namespace) (source target : Path) : Decidable (ns.CanRename source target) :=
  inferInstanceAs (Decidable (_ ∧ _))

/-- The namespace with the entry at the source, if there is one, at the target instead. -/
def moved (ns : Namespace) (source target : Path) : Namespace :=
  { ns with
    root := match ns.lookup source with
      | some entry => ((ns.take source).place target entry).root
      | none => ns.root }

theorem moved_of_lookup {entry : Inode} (h : ns.lookup source = some entry) (target : Path) :
    ns.moved source target = (ns.take source).place target entry := by
  rw [moved, h]
  rfl

private theorem lookup_parent (h : path ≠ []) : ns.lookup path =
    (ns.lookup path.parent).bind (·.children.get? (path.getLast h)) := by
  conv_lhs => rw [← List.dropLast_append_getLast h]
  exact ns.tree.lookup_concat path.parent (path.getLast h)

private theorem lookup_of_parent {above : Inode} (hne : path ≠ [])
    (h : ns.lookup path.parent = some above) :
    ns.lookup path = above.children.get? (path.getLast hne) := by
  rw [lookup_parent hne, h, Option.bind_some]

private theorem isUnder_eq_false (h : ¬ source <+: target) : target.isUnder source = false := by
  rw [← Bool.not_eq_true, Path.isUnder_iff]
  exact h

/-- The lookups of a rename see what is at the paths. -/
theorem renamed?_eq (ns : Namespace) (source target : Path) :
    ns.renamed? source target =
      if ns.CanRename source target then some (ns.moved source target) else none := by
  by_cases hs : source = []
  · rw [if_neg fun hcan => hcan.1 hs, renamed?, hs]
    rfl
  by_cases ht : target = []
  · rw [if_neg fun hcan => hcan.2.1 ht, renamed?, ht]
    cases source.getLast? <;> rfl
  by_cases hst : source <+: target
  · rw [if_neg fun hcan => hcan.2.2.1 hst, renamed?, List.getLast?_eq_some_getLast hs,
      List.getLast?_eq_some_getLast ht, Path.isUnder_iff.mpr hst]
    rfl
  simp only [renamed?, List.getLast?_eq_some_getLast hs, List.getLast?_eq_some_getLast ht,
    isUnder_eq_false hst, Bool.not_false, guard, if_true, Option.bind_eq_bind, Option.pure_def,
    Option.bind_some]
  rw [← Option.bind_assoc, ← lookup_parent hs]
  cases hsource : ns.lookup source with
  | none =>
    rw [if_neg fun hcan => hcan.2.2.2.1 (node?_eq_none.mpr hsource)]
    rfl
  | some entry =>
    rw [Option.bind_some]
    rcases hparent : ns.lookup target.parent with _ | children | content
    case none =>
      have hnone := node?_eq_none.mpr hparent
      rw [if_neg fun hcan => by cases hnone.symm.trans hcan.2.2.2.2.1]
      rfl
    case some.file =>
      have hfile := node?_eq_file.mpr hparent
      rw [if_neg fun hcan => by cases hfile.symm.trans hcan.2.2.2.2.1]
      rfl
    case some.directory =>
      rw [Option.bind_some]
      dsimp only
      rw [Table.contains, ← Inode.children.eq_1 children, ← lookup_of_parent ht hparent]
      cases htarget : ns.lookup target with
      | some found =>
        have hcan : ¬ ns.CanRename source target := fun hcan => by
          cases htarget.symm.trans (node?_eq_none.mp hcan.2.2.2.2.2)
        rw [if_neg hcan]
        rfl
      | none =>
        have hcan : ns.CanRename source target :=
          ⟨hs, ht, hst, by simp [node?, hsource], node?_eq_directory.mpr ⟨children, hparent⟩,
            node?_eq_none.mpr htarget⟩
        rw [if_pos hcan, moved_of_lookup hsource]
        rfl

/-- What is where after a move. -/
theorem node?_moved (hcan : ns.CanRename source target) (path : Path) :
    (ns.moved source target).node? path =
      if target <+: path then ns.node? (source ++ path.drop target.length)
      else if source <+: path then none else ns.node? path := by
  obtain ⟨hs, ht, hst, hpresent, hparent, hfree⟩ := hcan
  obtain ⟨node, hnode⟩ := Option.ne_none_iff_exists'.mp hpresent
  obtain ⟨entry, hentry, -⟩ := Option.map_eq_some_iff.mp hnode
  have habove := parent_directory hnode
  -- what is not inside the source is still there when the target is looked for
  have hstays : (ns.take source).node? target.parent = some .directory := by
    rw [node?_take hs habove, if_neg fun hp => hst (hp.trans (List.dropLast_prefix target)),
      hparent]
  rw [moved_of_lookup hentry, node?_place ht hstays]
  split_ifs with hut hus
  · rw [node?, lookup_append, hentry, Option.bind_some]
  · rw [node?_take hs habove, if_pos hus]
  · rw [node?_take hs habove, if_neg hus]

/-- A file goes alone. -/
theorem node?_moved_file {content : FileNode} (hn : ns.node? source = some (.file content))
    (hcan : ns.CanRename source target) (path : Path) :
    (ns.moved source target).node? path =
      if path = target then some (.file content)
      else if path = source then none else ns.node? path := by
  have hfree := hcan.2.2.2.2.2
  rw [node?_moved hcan]
  by_cases ht : target <+: path
  · rw [if_pos ht]
    by_cases he : path = target
    · rw [if_pos he, he, List.drop_length, List.append_nil, hn]
    · have hnone := none_under_none hfree ht
      have hsource : path ≠ source := by
        rintro rfl
        rw [hn] at hnone
        cases hnone
      obtain ⟨rest, rfl⟩ := ht
      rw [if_neg he, if_neg hsource, hnone]
      exact none_below (by simp [hn]) (List.prefix_append ..) (by simpa [eq_comm] using he)
  · have he : path ≠ target := fun he => ht (he ▸ List.prefix_refl _)
    rw [if_neg ht, if_neg he]
    by_cases hs : source <+: path
    · rw [if_pos hs]
      split_ifs with hsource
      · rfl
      · exact (none_below (by simp [hn]) hs (Ne.symm hsource)).symm
    · have hsource : path ≠ source := fun he => hs (he ▸ List.prefix_refl _)
      rw [if_neg hs, if_neg hsource]

theorem IsTree.moved (h : ns.IsTree) (hcan : ns.CanRename source target) (hv : target.Valid) :
    (ns.moved source target).IsTree where
  names_nodup := by
    obtain ⟨hs, ht, hst, hpresent, hparent, -⟩ := hcan
    obtain ⟨node, hnode⟩ := Option.ne_none_iff_exists'.mp hpresent
    obtain ⟨entry, hentry, -⟩ := Option.map_eq_some_iff.mp hnode
    have htaken := h.take hs (parent_directory hnode)
    rw [moved_of_lookup hentry, (Path.eq_parent_append ht).choose_spec, place_concat]
    exact htaken.names_nodup.changeAt
      (fun hbelow => hbelow.set (h.names_nodup.lookup hentry) _) _
  path_valid {path node} hn := by
    rw [node?_moved hcan] at hn
    split_ifs at hn with hut hus
    · obtain ⟨rest, rfl⟩ := hut
      rw [List.drop_left] at hn
      exact Path.valid_append.mpr ⟨hv, (Path.valid_append.mp (h.path_valid hn)).2⟩
    · exact h.path_valid hn

/-- The namespace without the entry at the path, if there is one. -/
def removed (ns : Namespace) (path : Path) : Namespace :=
  { ns with
    root := match ns.lookup path with
      | some _ => (ns.take path).root
      | none => ns.root
    blocks := match ns.lookup path with
      | some entry => entry.blockIds.foldl Table.erase ns.blocks
      | none => ns.blocks }

private theorem removed_of_lookup {entry : Inode} (h : ns.lookup path = some entry) :
    ns.removed path = ns.unlink path entry := by
  rw [removed, h]
  rfl

/-- Nothing lies below the path. -/
def isEmptyBelow (ns : Namespace) (path : Path) : Bool :=
  (ns.lookup path).all (·.children.entries.isEmpty)

/-- The check on a deletion that is not recursive sees that there is nothing below. -/
theorem isEmptyBelow_iff : ns.isEmptyBelow path = true ↔
    ∀ other, path <+: other → other ≠ path → ns.node? other = none := by
  rw [isEmptyBelow]
  cases hentry : ns.lookup path with
  | none =>
    simp only [Option.all_none, true_iff]
    exact fun other hp _ => none_under_none (node?_eq_none.mpr hentry) hp
  | some entry =>
    rw [Option.all_some, List.isEmpty_iff]
    constructor
    · rintro hempty _ ⟨_ | ⟨name, rest⟩, rfl⟩ hne
      · exact absurd (List.append_nil path) hne
      · have hleaf : entry.children = .empty := congrArg Table.mk hempty
        rw [node?, lookup_append, hentry, Option.bind_some, Inode.lookup_of_leaf hleaf]
        rfl
    · intro hnone
      cases hchildren : entry.children.entries with
      | nil => rfl
      | cons e rest =>
        have hfound : entry.children.get? e.1 ≠ none := by
          rw [ne_eq, Table.get?_eq_none_iff, not_not, Table.keys, hchildren]
          exact List.mem_cons_self
        have hlookup : ns.lookup (path ++ [e.1]) = entry.children.get? e.1 := by
          rw [lookup, Inode.lookup_concat, ← lookup, hentry, Option.bind_some]
        have := node?_eq_none.mp (hnone (path ++ [e.1]) (List.prefix_append ..) (by simp))
        exact absurd (hlookup ▸ this) hfound

theorem removed?_eq (ns : Namespace) (path : Path) (recursive : Bool) :
    ns.removed? path recursive =
      if path ≠ [] ∧ (ns.node? path).isSome ∧ (recursive ∨ ns.isEmptyBelow path) then
        some (ns.removed path)
      else none := by
  by_cases hne : path = []
  · rw [if_neg fun hcan => hcan.1 hne, removed?, hne]
    rfl
  simp only [removed?, List.getLast?_eq_some_getLast hne, Option.bind_eq_bind, Option.bind_some,
    Option.pure_def]
  rcases hparent : ns.lookup path.parent with _ | children | content
  case none =>
    have hnone := none_under_none (node?_eq_none.mpr hparent) (List.dropLast_prefix path)
    rw [if_neg fun hcan => by simp [hnone] at hcan]
    rfl
  case some.file =>
    have hfile := node?_eq_file.mpr hparent
    rw [if_neg fun hcan => ?_]
    · rfl
    · obtain ⟨node, hnode⟩ := Option.isSome_iff_exists.mp hcan.2.1
      cases hfile.symm.trans (parent_directory hnode)
  case some.directory =>
    rw [Option.bind_some]
    dsimp only
    rw [← Inode.children.eq_1 children, ← lookup_of_parent hne hparent]
    cases hentry : ns.lookup path with
    | none =>
      rw [if_neg fun hcan => by simp [node?, hentry] at hcan]
      rfl
    | some entry =>
      rw [Option.bind_some, removed_of_lookup hentry, isEmptyBelow, hentry, Option.all_some]
      cases recursive <;> cases entry.children.entries.isEmpty <;> simp [hne, node?, hentry, guard]

theorem node?_removed (hne : path ≠ []) (other : Path) :
    (ns.removed path).node? other = if path <+: other then none else ns.node? other := by
  cases hentry : ns.lookup path with
  | none =>
    have hnone := node?_eq_none.mpr hentry
    rw [node?_congr (by rw [removed, hentry])]
    split_ifs with hp
    · exact none_under_none hnone hp
    · rfl
  | some entry =>
    have hnode : ns.node? path = some entry.node := by rw [node?, hentry, Option.map_some]
    rw [removed_of_lookup hentry, ← node?_take hne (parent_directory hnode)]
    exact node?_congr rfl other

theorem IsTree.removed (h : ns.IsTree) (hne : path ≠ []) : (ns.removed path).IsTree := by
  cases hentry : ns.lookup path with
  | none => exact h.congr (by rw [Namespace.removed, hentry])
  | some entry =>
    have hnode : ns.node? path = some entry.node := by rw [node?, hentry, Option.map_some]
    rw [removed_of_lookup hentry]
    exact (h.take hne (parent_directory hnode)).congr rfl

end BlockFsck.Namespace
