import Mathlib.Data.List.Induction
import BlockFsck.Proofs.Namespace.Inode
import BlockFsck.Namespace.Operation

/-!
# Well-formed namespaces

The tree has one entry for each path, all of them with names that a path can have. The registry
knows the blocks of the files and no others, and each of them is listed once, by one file.
-/

namespace BlockFsck.Namespace

variable {ns : Namespace} {path other : Path} {entry : Inode}

structure IsTree (ns : Namespace) : Prop where
  names_nodup : ns.tree.NamesNodup
  path_valid : ∀ {path node}, ns.node? path = some node → path.Valid

/-- The files with their paths. -/
def files (ns : Namespace) : List (Path × FileNode) := ns.tree.filesAt []

/-- The ids that the files list, file by file. -/
def listedBlocks (ns : Namespace) : List String := ns.files.flatMap (·.2.blocks)

/-- The registry holds what the files list, once each, and ids are given out in order. -/
structure IsRegistry (ns : Namespace) : Prop where
  listed : ns.listedBlocks.Perm ns.blocks.keys
  ids_nodup : ns.blocks.keys.Nodup
  numbered : ∀ {id}, id ∈ ns.blocks.keys → ∃ number < ns.nextBlock, id = blockId number
  copies_nodup : ∀ {id block}, ns.blocks.get? id = some block → block.copies.keys.Nodup

structure Valid (ns : Namespace) : Prop extends IsTree ns, IsRegistry ns where
  nodes_nodup : ns.nodes.keys.Nodup

@[simp] theorem node?_root (ns : Namespace) : ns.node? [] = some .directory := rfl

theorem node?_eq_file {content : FileNode} :
    ns.node? path = some (.file content) ↔ ns.lookup path = some (.file content) := by
  rw [node?]
  rcases ns.lookup path with _ | _ | _ <;> simp [Inode.node]

theorem node?_eq_directory :
    ns.node? path = some .directory ↔ ∃ children, ns.lookup path = some (.directory children) := by
  rw [node?]
  rcases ns.lookup path with _ | _ | _ <;> simp [Inode.node]

theorem node?_eq_none : ns.node? path = none ↔ ns.lookup path = none := Option.map_eq_none_iff

theorem lookup_append (ns : Namespace) (path rest : Path) :
    ns.lookup (path ++ rest) = (ns.lookup path).bind (·.lookup rest) :=
  ns.tree.lookup_append path rest

theorem ne_root_of_file {content : FileNode} (h : ns.node? path = some (.file content)) :
    path ≠ [] := by
  rintro rfl
  simp at h

theorem file_inj {content others : FileNode} (h : ns.node? path = some (.file content))
    (ho : ns.node? path = some (.file others)) : others = content := by
  rw [h, Option.some.injEq, Node.file.injEq] at ho
  exact ho.symm

theorem node?_congr {ns other : Namespace} (h : other.root = ns.root) (path : Path) :
    other.node? path = ns.node? path := by
  rw [node?, node?, lookup, lookup, tree, tree, h]

theorem directory_above {node : Node} (hn : ns.node? path = some node) (hp : other <+: path)
    (hne : other ≠ path) : ns.node? other = some .directory := by
  obtain ⟨_ | ⟨name, rest⟩, rfl⟩ := hp
  · exact absurd (List.append_nil other).symm hne
  · obtain ⟨found, hfound, -⟩ := Option.map_eq_some_iff.mp hn
    exact node?_eq_directory.mpr (Inode.exists_directory_of_lookup hfound)

theorem parent_directory {node : Node} (hn : ns.node? path = some node) :
    ns.node? path.parent = some .directory := by
  by_cases hne : path.parent = path
  · obtain rfl : path = [] := by
      by_contra h
      obtain ⟨name, hname⟩ := Path.eq_parent_append h
      rw [hne] at hname
      simp at hname
    rfl
  · exact directory_above hn (List.dropLast_prefix path) hne

theorem none_below (hn : ns.node? path ≠ some .directory) (hp : path <+: other)
    (hne : path ≠ other) : ns.node? other = none := by
  cases ho : ns.node? other with
  | none => rfl
  | some node => exact absurd (directory_above ho hp hne) hn

theorem eq_of_file {content : FileNode} (hn : ns.node? path = some (.file content))
    (hp : path <+: other) (ho : ns.node? other ≠ none) : other = path := by
  by_contra hne
  exact ho (none_below (by simp [hn]) hp (Ne.symm hne))

theorem none_under_none (hn : ns.node? path = none) (hp : path <+: other) :
    ns.node? other = none := by
  by_cases hne : path = other
  · exact hne ▸ hn
  · exact none_below (by simp [hn]) hp hne

theorem length_le_height {node : Node} (hn : ns.node? path = some node) :
    path.length ≤ ns.tree.height := by
  obtain ⟨found, hfound, -⟩ := Option.map_eq_some_iff.mp hn
  exact Inode.length_le_height hfound

theorem place_concat (ns : Namespace) (path : Path) (name : String) (entry : Inode) :
    ns.place (path ++ [name]) entry =
      { ns with root := Inode.changeAt (·.set name entry) path ns.root } := by
  simp [place, Path.parent_append_singleton]

private theorem take_concat (ns : Namespace) (path : Path) (name : String) :
    ns.take (path ++ [name]) =
      { ns with root := Inode.changeAt (·.erase name) path ns.root } := by
  simp [take, Path.parent_append_singleton]

theorem place_place (ns : Namespace) (path : Path) (first entry : Inode) :
    (ns.place path first).place path entry = ns.place path entry := by
  have hset : ∀ name, (fun children : Table String Inode => children.set name entry) ∘
      (fun children : Table String Inode => children.set name first) = (·.set name entry) :=
    fun name => funext fun children => Table.set_set ..
  simp only [place]
  cases path.getLast? with
  | none => rfl
  | some name => simp only [Inode.changeAt_changeAt, hset]

private theorem node?_changeAt {change : Table String Inode → Table String Inode} {name : String}
    (hparent : ns.node? path = some .directory)
    (hchange : ∀ {below : Table String Inode} {first}, first ≠ name →
      (change below).get? first = below.get? first)
    (h : ¬ path ++ [name] <+: other) :
    ({ ns with root := Inode.changeAt change path ns.root } : Namespace).node? other =
      ns.node? other := by
  obtain ⟨below, hbelow⟩ := node?_eq_directory.mp hparent
  by_cases hp : path <+: other
  · obtain ⟨_ | ⟨first, rest⟩, rfl⟩ := hp
    · exact Inode.node_lookup_changeAt fun _ => by simp
    · have hne : first ≠ name := by
        rintro rfl
        exact h ⟨rest, by simp⟩
      have hafter := Inode.lookup_changeAt change hbelow (first :: rest)
      rw [Inode.lookup_directory_cons, hchange hne, ← Inode.lookup_directory_cons] at hafter
      rw [node?, lookup, tree, hafter, node?, lookup_append, hbelow, Option.bind_some]
  · exact Inode.node_lookup_changeAt fun habove => absurd habove hp

/-- What is where after an entry has been put at a path: it hides what was there. -/
theorem node?_place (hne : path ≠ []) (hparent : ns.node? path.parent = some .directory)
    (entry : Inode) (other : Path) :
    (ns.place path entry).node? other =
      if path <+: other then (entry.lookup (other.drop path.length)).map Inode.node
      else ns.node? other := by
  obtain ⟨name, hname⟩ := Path.eq_parent_append hne
  generalize path.parent = above at hparent hname
  subst hname
  rw [place_concat]
  split_ifs with h
  · obtain ⟨rest, rfl⟩ := h
    obtain ⟨below, hbelow⟩ := node?_eq_directory.mp hparent
    have hafter := Inode.lookup_changeAt (·.set name entry) hbelow (name :: rest)
    rw [Inode.lookup_directory_cons, Table.get?_set, if_pos rfl, Option.bind_some] at hafter
    rw [List.drop_left, ← hafter, node?, lookup, tree, List.append_assoc, List.singleton_append]
  · refine node?_changeAt hparent (fun {below first} hfirst => ?_) h
    rw [Table.get?_set, if_neg (Ne.symm hfirst)]

theorem node?_take (hne : path ≠ []) (hparent : ns.node? path.parent = some .directory)
    (other : Path) :
    (ns.take path).node? other = if path <+: other then none else ns.node? other := by
  obtain ⟨name, hname⟩ := Path.eq_parent_append hne
  generalize path.parent = above at hparent hname
  subst hname
  rw [take_concat]
  split_ifs with h
  · obtain ⟨rest, rfl⟩ := h
    obtain ⟨below, hbelow⟩ := node?_eq_directory.mp hparent
    have hafter := Inode.lookup_changeAt (·.erase name) hbelow (name :: rest)
    rw [Inode.lookup_directory_cons, Table.get?_erase, if_pos rfl, Option.bind_none] at hafter
    rw [node?, lookup, tree, List.append_assoc, List.singleton_append, hafter, Option.map_none]
  · refine node?_changeAt hparent (fun {below first} hfirst => ?_) h
    rw [Table.get?_erase, if_neg (Ne.symm hfirst)]

/-- An entry with nothing below it shows at its own path only. -/
theorem node?_put (hne : path ≠ []) (hparent : ns.node? path.parent = some .directory)
    (hold : ns.node? path ≠ some .directory) (hleaf : entry.children = .empty) (other : Path) :
    (ns.place path entry).node? other =
      if other = path then some entry.node else ns.node? other := by
  rw [node?_place hne hparent]
  by_cases he : other = path
  · subst he
    rw [if_pos (List.prefix_refl _), if_pos rfl, List.drop_length, Inode.lookup_nil,
      Option.map_some]
  · rw [if_neg he]
    split_ifs with hp
    · obtain ⟨_ | ⟨name, rest⟩, rfl⟩ := hp
      · exact absurd (List.append_nil path) he
      · rw [List.drop_left, Inode.lookup_of_leaf hleaf,
          none_below hold (List.prefix_append ..) (by simp)]
        rfl
    · rfl

theorem node?_file {old : FileNode} (hold : ns.node? path = some (.file old)) (new : FileNode)
    (other : Path) : (ns.place path (.file new)).node? other =
      if other = path then some (.file new) else ns.node? other :=
  node?_put (ne_root_of_file hold) (parent_directory hold) (by simp [hold]) rfl other

namespace IsTree

theorem congr {other : Namespace} (h : ns.IsTree) (he : other.root = ns.root) :
    other.IsTree where
  names_nodup := by
    rw [tree, he]
    exact h.names_nodup
  path_valid hn := h.path_valid (node?_congr he _ ▸ hn)

theorem mem_files (h : ns.IsTree) {content : FileNode} :
    (path, content) ∈ ns.files ↔ ns.node? path = some (.file content) := by
  rw [files, h.names_nodup.mem_filesAt, node?_eq_file, lookup]
  simp only [List.nil_append, exists_eq_left']

theorem files_nodup (h : ns.IsTree) : (ns.files.map Prod.fst).Nodup :=
  h.names_nodup.filesAt_nodup []

/-- The files of a tree are those that lookups find, once each. -/
theorem files_perm (h : ns.IsTree) {found : List (Path × FileNode)} (hn : found.Nodup)
    (hmem : ∀ path content, (path, content) ∈ found ↔ ns.node? path = some (.file content)) :
    ns.files.Perm found :=
  (List.perm_ext_iff_of_nodup (List.Nodup.of_map _ h.files_nodup) hn).mpr fun e =>
    h.mem_files.trans (hmem e.1 e.2).symm

private theorem place (h : ns.IsTree) (hne : path ≠ [])
    (hparent : ns.node? path.parent = some .directory)
    (hentry : entry.NamesNodup)
    (hv : ∀ rest, entry.lookup rest ≠ none → Path.Valid (path ++ rest)) :
    (ns.place path entry).IsTree where
  names_nodup := by
    obtain ⟨name, hname⟩ := Path.eq_parent_append hne
    rw [hname, place_concat]
    exact h.names_nodup.changeAt (fun hbelow => hbelow.set hentry name) path.parent
  path_valid {other _} hn := by
    rw [node?_place hne hparent] at hn
    split_ifs at hn with hp
    · obtain ⟨rest, rfl⟩ := hp
      obtain ⟨found, hfound, -⟩ := Option.map_eq_some_iff.mp hn
      rw [List.drop_left] at hfound
      exact hv rest (by simp [hfound])
    · exact h.path_valid hn

theorem take (h : ns.IsTree) (hne : path ≠ [])
    (hparent : ns.node? path.parent = some .directory) : (ns.take path).IsTree where
  names_nodup := by
    obtain ⟨name, hname⟩ := Path.eq_parent_append hne
    rw [hname, take_concat]
    exact h.names_nodup.changeAt (fun hbelow => hbelow.erase name) path.parent
  path_valid hn := by
    rw [node?_take hne hparent] at hn
    split_ifs at hn
    exact h.path_valid hn

theorem put (h : ns.IsTree) (hne : path ≠ []) (hv : path.Valid)
    (hparent : ns.node? path.parent = some .directory) (hleaf : entry.children = .empty) :
    (ns.place path entry).IsTree := by
  refine h.place hne hparent (Inode.namesNodup_of_leaf hleaf) fun rest hrest => ?_
  cases rest with
  | nil => rwa [List.append_nil]
  | cons name rest => exact absurd (Inode.lookup_of_leaf hleaf name rest) hrest

end IsTree

end BlockFsck.Namespace
