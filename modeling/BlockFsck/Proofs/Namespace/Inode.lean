import Mathlib.Data.List.Nodup
import BlockFsck.Proofs.Path
import BlockFsck.Proofs.Table
import BlockFsck.Namespace.Inode

/-!
# Trees

What a change to one directory does to what is found along names, and what a walk through all of a
tree comes across: each file once, at the path where a lookup finds it.
-/

namespace BlockFsck.Inode

variable {entry : Inode} {children : Table String Inode} {path other : Path}
  {change : Table String Inode → Table String Inode}

private theorem induction {motive : Inode → Prop} (file : ∀ content, motive (.file content))
    (directory : ∀ children : Table String Inode,
      (∀ e ∈ children.entries, motive e.2) → motive (.directory children))
    (entry : Inode) : motive entry :=
  Inode.rec (motive_1 := motive) (motive_2 := fun children => ∀ e ∈ children.entries, motive e.2)
    (motive_3 := fun entries => ∀ e ∈ entries, motive e.2) (motive_4 := fun e => motive e.2)
    directory file (fun _ h => h) (fun _ h => absurd h List.not_mem_nil)
    (fun _ _ hfirst hrest => List.forall_mem_cons.mpr ⟨hfirst, hrest⟩) (fun _ _ h => h) entry

@[simp] theorem lookup_nil (entry : Inode) : entry.lookup [] = some entry := by
  cases entry <;> rfl

@[simp] theorem lookup_file_cons (content : FileNode) (name : String) (rest : Path) :
    (file content).lookup (name :: rest) = none := rfl

@[simp] theorem lookup_directory_cons (children : Table String Inode) (name : String)
    (rest : Path) : (directory children).lookup (name :: rest) =
      (children.get? name).bind (·.lookup rest) := by
  rw [lookup]
  cases children.get? name <;> rfl

theorem lookup_append (entry : Inode) (path rest : Path) :
    entry.lookup (path ++ rest) = (entry.lookup path).bind (·.lookup rest) := by
  induction path generalizing entry with
  | nil => simp
  | cons name path ih =>
    cases entry with
    | file content => simp
    | directory children =>
      simp only [List.cons_append, lookup_directory_cons, Option.bind_assoc, ih]

theorem lookup_concat (entry : Inode) (path : Path) (name : String) :
    entry.lookup (path ++ [name]) = (entry.lookup path).bind (·.children.get? name) := by
  rw [lookup_append]
  congr 1
  funext found
  cases found with
  | file content => rfl
  | directory children =>
    rw [lookup_directory_cons, Inode.children]
    cases children.get? name with
    | none => rfl
    | some child => exact lookup_nil child

theorem lookup_of_leaf (h : entry.children = .empty) (name : String) (rest : Path) :
    entry.lookup (name :: rest) = none := by
  cases entry with
  | file content => rfl
  | directory children =>
    obtain rfl : children = .empty := h
    rfl

theorem exists_directory_of_lookup {name : String} {rest : Path} {found : Inode}
    (h : entry.lookup (path ++ name :: rest) = some found) :
    ∃ children, entry.lookup path = some (directory children) := by
  rw [lookup_append, Option.bind_eq_some_iff] at h
  obtain ⟨above, habove, hfound⟩ := h
  cases above with
  | directory children => exact ⟨children, habove⟩
  | file content => cases hfound

private theorem changeAt_cons {name : String} {below : Table String Inode}
    (h : children.get? name = some (.directory below)) (rest : Path) :
    changeAt change (name :: rest) children =
      children.set name (.directory (changeAt change rest below)) := by
  rw [changeAt, h]

theorem changeAt_changeAt (change first : Table String Inode → Table String Inode) (path : Path)
    (children : Table String Inode) :
    changeAt change path (changeAt first path children) =
      changeAt (change ∘ first) path children := by
  induction path generalizing children with
  | nil => rfl
  | cons name path ih =>
    rcases hchild : children.get? name with _ | below | content
    · simp [changeAt, hchild]
    · rw [changeAt_cons hchild, changeAt_cons hchild,
        changeAt_cons (by rw [Table.get?_set, if_pos rfl]), ih, Table.set_set]
    · simp [changeAt, hchild]

/-- In the directory that has changed. -/
theorem lookup_changeAt (change : Table String Inode → Table String Inode)
    {below : Table String Inode}
    (h : (directory children).lookup path = some (directory below)) (rest : Path) :
    (directory (changeAt change path children)).lookup (path ++ rest) =
      (directory (change below)).lookup rest := by
  induction path generalizing children with
  | nil =>
    obtain rfl : children = below := by simpa using h
    rfl
  | cons name path ih =>
    rw [lookup_directory_cons, Option.bind_eq_some_iff] at h
    obtain ⟨child, hchild, h⟩ := h
    cases child with
    | file content => cases path <;> simp at h
    | directory inner =>
      rw [changeAt_cons hchild, List.cons_append, lookup_directory_cons, Table.get?_set, if_pos rfl,
        Option.bind_some, ih h]

/-- Elsewhere the change does not show, also at the directory itself and above it. -/
theorem node_lookup_changeAt (h : path <+: other → other = path) :
    ((directory (changeAt change path children)).lookup other).map node =
      ((directory children).lookup other).map node := by
  induction path generalizing children other with
  | nil =>
    rw [h List.nil_prefix]
    rfl
  | cons name path ih =>
    rw [changeAt]
    split
    · rename_i below hbelow
      cases other with
      | nil => rfl
      | cons first others =>
        rw [lookup_directory_cons, lookup_directory_cons, Table.get?_set]
        by_cases he : name = first
        · subst he
          rw [if_pos rfl, hbelow, Option.bind_some, Option.bind_some]
          exact ih fun hp =>
            (List.cons_inj_right name).mp (h ((List.cons_prefix_cons).mpr ⟨rfl, hp⟩))
        · rw [if_neg he]
    · rfl

/-- No directory in the tree has two children of one name. -/
def NamesNodup (entry : Inode) : Prop :=
  ∀ path children, entry.lookup path = some (directory children) → children.keys.Nodup

private theorem namesNodup_directory : (directory children).NamesNodup ↔
    children.keys.Nodup ∧ ∀ {name child}, children.get? name = some child → child.NamesNodup := by
  constructor
  · intro h
    refine ⟨h [] children (lookup_nil _), fun {name child} hchild path below hbelow => ?_⟩
    exact h (name :: path) below (by rw [lookup_directory_cons, hchild, Option.bind_some, hbelow])
  · rintro ⟨hkeys, hchildren⟩ path below hbelow
    cases path with
    | nil =>
      obtain rfl : children = below := by simpa using hbelow
      exact hkeys
    | cons name path =>
      rw [lookup_directory_cons, Option.bind_eq_some_iff] at hbelow
      obtain ⟨child, hchild, hbelow⟩ := hbelow
      exact hchildren hchild path below hbelow

theorem namesNodup_of_leaf (h : entry.children = .empty) : entry.NamesNodup := by
  intro path children hfound
  cases path with
  | nil =>
    rw [lookup_nil, Option.some.injEq] at hfound
    subst hfound
    obtain rfl : children = .empty := h
    exact List.nodup_nil
  | cons name rest =>
    rw [lookup_of_leaf h] at hfound
    cases hfound

theorem NamesNodup.lookup {found : Inode} (h : entry.NamesNodup)
    (hfound : entry.lookup path = some found) : found.NamesNodup :=
  fun rest below hbelow => h (path ++ rest) below (by rw [lookup_append, hfound]; exact hbelow)

theorem NamesNodup.set (h : (directory children).NamesNodup) (hentry : entry.NamesNodup)
    (name : String) : (directory (children.set name entry)).NamesNodup := by
  obtain ⟨hkeys, hchildren⟩ := namesNodup_directory.mp h
  have hnames := Table.keys_set_nodup hkeys name entry
  refine namesNodup_directory.mpr ⟨hnames, fun {other child} hg => ?_⟩
  rw [Table.get?_set] at hg
  split_ifs at hg
  · exact Option.some.inj hg ▸ hentry
  · exact hchildren hg

theorem NamesNodup.erase (h : (directory children).NamesNodup) (name : String) :
    (directory (children.erase name)).NamesNodup := by
  obtain ⟨hkeys, hchildren⟩ := namesNodup_directory.mp h
  refine namesNodup_directory.mpr ⟨Table.keys_erase_nodup hkeys name, fun {other child} hg => ?_⟩
  rw [Table.get?_erase] at hg
  split_ifs at hg
  exact hchildren hg

theorem NamesNodup.changeAt (h : (directory children).NamesNodup)
    (hchange : ∀ {below}, (directory below).NamesNodup → (directory (change below)).NamesNodup)
    (path : Path) : (directory (changeAt change path children)).NamesNodup := by
  induction path generalizing children with
  | nil => exact hchange h
  | cons name path ih =>
    rw [Inode.changeAt]
    split
    · rename_i below hbelow
      exact h.set (ih ((namesNodup_directory.mp h).2 hbelow)) name
    · exact h

private theorem NamesNodup.get?_of_mem (h : (directory children).NamesNodup) {e : String × Inode}
    (hmem : e ∈ children.entries) : children.get? e.1 = some e.2 :=
  (Table.get?_eq_some_iff (namesNodup_directory.mp h).1).mpr hmem

private theorem NamesNodup.of_mem (h : (directory children).NamesNodup) {e : String × Inode}
    (hmem : e ∈ children.entries) : e.2.NamesNodup :=
  (namesNodup_directory.mp h).2 (h.get?_of_mem hmem)

private theorem files_directory (text : String) (children : Table String Inode) :
    (directory children).files text =
      children.entries.flatMap fun e => e.2.files (Path.childText text e.1) := by
  obtain ⟨entries⟩ := children
  rw [files]
  induction entries with
  | nil => rfl
  | cons e entries ih => rw [filesIn, ih, List.flatMap_cons]

private theorem blockIds_directory (children : Table String Inode) :
    (directory children).blockIds = children.entries.flatMap (·.2.blockIds) := by
  obtain ⟨entries⟩ := children
  rw [blockIds]
  induction entries with
  | nil => rfl
  | cons e entries ih => rw [blockIdsIn, ih, List.flatMap_cons]

mutual

/-- The files at or below an entry with their paths. -/
def filesAt (path : Path) : Inode → List (Path × FileNode)
  | .directory ⟨children⟩ => filesAtIn path children
  | .file content => [(path, content)]

def filesAtIn (path : Path) : List (String × Inode) → List (Path × FileNode)
  | [] => []
  | (name, child) :: rest => child.filesAt (path ++ [name]) ++ filesAtIn path rest

end

private theorem filesAt_directory (path : Path) (children : Table String Inode) :
    (directory children).filesAt path =
      children.entries.flatMap fun e => e.2.filesAt (path ++ [e.1]) := by
  obtain ⟨entries⟩ := children
  rw [filesAt]
  induction entries with
  | nil => rfl
  | cons e entries ih => rw [filesAtIn, ih, List.flatMap_cons]

theorem blockIds_eq (entry : Inode) (path : Path) :
    entry.blockIds = (entry.filesAt path).flatMap (·.2.blocks) := by
  induction entry using induction generalizing path with
  | file content => simp [blockIds, filesAt]
  | directory children ih =>
    rw [blockIds_directory, filesAt_directory, List.flatMap_assoc]
    exact List.flatMap_congr fun e hmem => ih e hmem (path ++ [e.1])

/-- A walk comes across what a lookup finds. -/
theorem NamesNodup.mem_filesAt (h : entry.NamesNodup) {content : FileNode} :
    (other, content) ∈ entry.filesAt path ↔
      ∃ rest, other = path ++ rest ∧ entry.lookup rest = some (.file content) := by
  induction entry using induction generalizing path with
  | file found =>
    simp only [filesAt, List.mem_singleton, Prod.mk.injEq]
    constructor
    · rintro ⟨rfl, rfl⟩
      exact ⟨[], by simp, rfl⟩
    · rintro ⟨rest, rfl, hfound⟩
      cases rest with
      | nil => simpa [eq_comm] using hfound
      | cons name rest => cases hfound
  | directory children ih =>
    rw [filesAt_directory, List.mem_flatMap]
    constructor
    · rintro ⟨e, hmem, hfile⟩
      obtain ⟨rest, rfl, hfound⟩ := (ih e hmem (h.of_mem hmem)).mp hfile
      refine ⟨e.1 :: rest, by simp, ?_⟩
      rw [lookup_directory_cons, h.get?_of_mem hmem, Option.bind_some, hfound]
    · rintro ⟨rest, rfl, hfound⟩
      cases rest with
      | nil => simp at hfound
      | cons name rest =>
        rw [lookup_directory_cons, Option.bind_eq_some_iff] at hfound
        obtain ⟨child, hchild, hfound⟩ := hfound
        have hmem := Table.mem_of_get? hchild
        exact ⟨_, hmem, (ih _ hmem (h.of_mem hmem)).mpr ⟨rest, by simp, hfound⟩⟩

theorem NamesNodup.filesAt_nodup (h : entry.NamesNodup) (path : Path) :
    ((entry.filesAt path).map Prod.fst).Nodup := by
  induction entry using induction generalizing path with
  | file content => simp [filesAt]
  | directory children ih =>
    rw [filesAt_directory, List.map_flatMap, List.nodup_flatMap]
    refine ⟨fun e hmem => ih e hmem (h.of_mem hmem) _, ?_⟩
    have hkeys := List.pairwise_map.mp (namesNodup_directory.mp h).1
    refine hkeys.imp_of_mem fun {e e'} hmem hmem' hne => ?_
    -- what is found below two children differs in the name after the path
    intro below hbelow hbelow'
    obtain ⟨⟨_, content⟩, hfile, rfl⟩ := List.mem_map.mp hbelow
    obtain ⟨⟨_, content'⟩, hfile', he⟩ := List.mem_map.mp hbelow'
    obtain ⟨rest, rfl, -⟩ := (h.of_mem hmem).mem_filesAt.mp hfile
    obtain ⟨rest', rfl, -⟩ := (h.of_mem hmem').mem_filesAt.mp hfile'
    rw [List.append_assoc, List.append_assoc] at he
    exact hne (List.cons_eq_cons.mp (List.append_cancel_left he)).1.symm

theorem NamesNodup.files_text (h : entry.NamesNodup)
    (hv : ∀ rest, entry.lookup rest ≠ none → Path.Valid (path ++ rest)) :
    entry.files path.text = (entry.filesAt path).map fun e => (e.1.text, e.2) := by
  induction entry using induction generalizing path with
  | file content => rfl
  | directory children ih =>
    rw [files_directory, filesAt_directory, List.map_flatMap]
    refine List.flatMap_congr fun e hmem => ?_
    have hbelow : ∀ rest, e.2.lookup rest ≠ none → Path.Valid (path ++ [e.1] ++ rest) := by
      intro rest hrest
      have hfound : (directory children).lookup (e.1 :: rest) ≠ none := by
        rw [lookup_directory_cons, h.get?_of_mem hmem, Option.bind_some]
        exact hrest
      simpa using hv _ hfound
    have hname : Path.Valid (path ++ [e.1]) := by simpa using hbelow [] (by simp)
    rw [Path.childText_text hname, ih e hmem (h.of_mem hmem) hbelow]

mutual

/-- How many names lead to the deepest place. -/
def height : Inode → Nat
  | .directory ⟨children⟩ => heightIn children
  | .file _ => 0

def heightIn : List (String × Inode) → Nat
  | [] => 0
  | (_, child) :: rest => max (child.height + 1) (heightIn rest)

end

private theorem height_lt_of_mem {e : String × Inode} (hmem : e ∈ children.entries) :
    e.2.height < (directory children).height := by
  obtain ⟨entries⟩ := children
  rw [height]
  induction entries with
  | nil => cases hmem
  | cons first entries ih =>
    rw [heightIn, lt_max_iff]
    rcases List.mem_cons.mp hmem with rfl | hmem
    · exact .inl (Nat.lt_succ_self _)
    · exact .inr (ih hmem)

theorem length_le_height {found : Inode} (h : entry.lookup path = some found) :
    path.length ≤ entry.height := by
  induction path generalizing entry with
  | nil => exact Nat.zero_le _
  | cons name path ih =>
    cases entry with
    | file content => cases h
    | directory children =>
      rw [lookup_directory_cons, Option.bind_eq_some_iff] at h
      obtain ⟨child, hchild, h⟩ := h
      exact Nat.lt_of_le_of_lt (ih h) (height_lt_of_mem (Table.mem_of_get? hchild))

mutual

/-- The names that stand anywhere in the tree. -/
def names : Inode → List String
  | .directory ⟨children⟩ => namesIn children
  | .file _ => []

def namesIn : List (String × Inode) → List String
  | [] => []
  | (name, child) :: rest => name :: child.names ++ namesIn rest

end

private theorem names_directory (children : Table String Inode) :
    (directory children).names = children.entries.flatMap fun e => e.1 :: e.2.names := by
  obtain ⟨entries⟩ := children
  rw [names]
  induction entries with
  | nil => rfl
  | cons e entries ih => rw [namesIn, ih, List.flatMap_cons]

theorem mem_names_of_lookup {found : Inode} (h : entry.lookup path = some found) {name : String}
    (hname : name ∈ path) : name ∈ entry.names := by
  induction path generalizing entry with
  | nil => cases hname
  | cons first path ih =>
    cases entry with
    | file content => cases h
    | directory children =>
      rw [lookup_directory_cons, Option.bind_eq_some_iff] at h
      obtain ⟨child, hchild, h⟩ := h
      rw [names_directory, List.mem_flatMap]
      refine ⟨(first, child), Table.mem_of_get? hchild, ?_⟩
      rcases List.mem_cons.mp hname with rfl | hname
      · exact List.mem_cons_self
      · exact List.mem_cons_of_mem _ (ih h hname)

end BlockFsck.Inode
