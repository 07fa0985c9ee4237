import BlockFsck.Proofs.Namespace.Registry

/-!
# Running actions on a namespace

What the requests that change the tree come to: directories are made along a path unless a file is
in the way, an entry is moved or removed with all below it, or nothing changes.
-/

namespace BlockFsck.Namespace

variable {α β : Type} {ns : Namespace}

theorem run_bind (a : Action α) (f : α → Action β) (ns : Namespace) :
    (a >>= f).run ns = match a.run ns with
      | (.ok x, after) => (f x).run after
      | (.error e, after) => (.error e, after) := by
  change (ExceptT.bindCont f (a.run ns).1).run (a.run ns).2 = _
  rcases a.run ns with ⟨e | x, after⟩ <;> rfl

theorem run_get (ns : Namespace) : (get : Action Namespace).run ns = (.ok ns, ns) := rfl

theorem run_look (read : Namespace → Except NamespaceError α) (ns : Namespace) :
    (look read).run ns = (read ns, ns) := by
  rw [look, run_bind, run_get]
  cases h : read ns <;> simp only [h] <;> rfl

theorem run_answer (a : Action α) (f : α → Outcome) (ns : Namespace) :
    ((do let x ← a; return f x : Action Outcome).run ns).2 = (a.run ns).2 := by
  rw [run_bind]
  rcases a.run ns with ⟨e | x, after⟩ <;> rfl

theorem readPath_of_ofText {text : String} {path : Path} (h : Path.ofText text = .ok path) :
    readPath text = .ok path := by
  rw [readPath, h]
  rfl

theorem readPath_text {path : Path} (h : path.Valid) : readPath path.text = .ok path :=
  readPath_of_ofText (Path.ofText_text h)

theorem valid_of_readPath {text : String} {path : Path} (h : readPath text = .ok path) :
    path.Valid := by
  unfold readPath at h
  cases ht : Path.ofText text with
  | error e => simp [ht, Except.mapError] at h
  | ok read =>
    simp only [ht, Except.mapError, Except.ok.injEq] at h
    exact h ▸ Path.valid_of_ofText ht

/-- No file stands on the way down the path. -/
def Clear (ns : Namespace) (path : Path) : Prop :=
  ∀ {above content}, above <+: path → ns.node? above ≠ some (.file content)

/-- The namespace with the missing directories that lead from a base along names. -/
def withDirectories : Namespace → Path → List String → Namespace
  | ns, _, [] => ns
  | ns, base, name :: rest =>
    match ns.node? (base ++ [name]) with
    | none => withDirectories (ns.place (base ++ [name]) (.directory .empty)) (base ++ [name]) rest
    | some _ => withDirectories ns (base ++ [name]) rest

/-- Directories are the only difference. -/
theorem withDirectories_eq (ns : Namespace) (base : Path) (names : List String) :
    ns.withDirectories base names =
      { ns with root := (ns.withDirectories base names).root } := by
  fun_induction withDirectories ns base names with
  | case1 => rfl
  | case2 ns base name rest hn ih => exact ih
  | case3 ns base name rest node hn ih => exact ih

private theorem node?_make {base : Path} {name : String} (hbase : ns.node? base = some .directory)
    (hn : ns.node? (base ++ [name]) = none) (other : Path) :
    (ns.place (base ++ [name]) (.directory .empty)).node? other =
      if other = base ++ [name] then some .directory else ns.node? other :=
  node?_put (by simp) (by rw [Path.parent_append_singleton, hbase]) (by simp [hn]) rfl other

private theorem Clear.make {path base : Path} {name : String} (hc : ns.Clear path)
    (hbase : ns.node? base = some .directory) (hn : ns.node? (base ++ [name]) = none) :
    (ns.place (base ++ [name]) (.directory .empty)).Clear path := by
  intro above content ha
  rw [node?_make hbase hn]
  split_ifs with he
  · simp
  · exact hc ha

theorem run_makeDirectories_cons (base : Path) (name : String) (rest : List String) :
    (makeDirectories base (name :: rest)).run ns = match ns.node? (base ++ [name]) with
      | none => (makeDirectories (base ++ [name]) rest).run
          (ns.place (base ++ [name]) (.directory .empty))
      | some .directory => (makeDirectories (base ++ [name]) rest).run ns
      | some (.file _) => (.ok false, ns) := by
  rw [makeDirectories, run_bind, run_get]
  dsimp only
  rw [node?]
  rcases ns.lookup (base ++ [name]) with _ | _ | _ <;> rfl

private theorem run_makeDirectories_of_clear {base : Path} {names : List String}
    (hbase : ns.node? base = some .directory) (hc : ns.Clear (base ++ names)) :
    (makeDirectories base names).run ns = (.ok true, ns.withDirectories base names) := by
  fun_induction withDirectories ns base names with
  | case1 => rfl
  | case2 ns base name rest hn ih =>
    rw [run_makeDirectories_cons, hn]
    rw [List.append_cons base name rest] at hc
    exact ih (by rw [node?_make hbase hn, if_pos rfl]) (hc.make hbase hn)
  | case3 ns base name rest node hn ih =>
    rw [List.append_cons base name rest] at hc
    rw [run_makeDirectories_cons, hn]
    cases node with
    | directory => exact ih hn hc
    | file content => exact absurd hn (hc (List.prefix_append ..))

private theorem run_makeDirectories_of_file {base : Path} {names : List String}
    (hbase : ns.node? base = some .directory) {path : Path} {content : FileNode}
    (hp : path <+: base ++ names) (hf : ns.node? path = some (.file content)) :
    (makeDirectories base names).run ns = (.ok false, ns) := by
  have not_above : ∀ {base : Path}, ns.node? base = some .directory → ¬ path <+: base := by
    intro base hbase hup
    rw [eq_of_file hf hup (by simp [hbase]), hf] at hbase
    cases hbase
  induction names generalizing base with
  | nil => exact absurd (by simpa using hp) (not_above hbase)
  | cons name rest ih =>
    rw [List.append_cons base name rest] at hp
    rw [run_makeDirectories_cons]
    cases hn : ns.node? (base ++ [name]) with
    | none =>
      -- the file would be the missing entry, or above the base, or below the missing entry
      rcases List.prefix_or_prefix_of_prefix hp (List.prefix_append (base ++ [name]) rest)
        with hup | hup
      · rcases List.prefix_concat_iff.mp hup with he | hup
        · rw [he, hn] at hf
          cases hf
        · exact absurd hup (not_above hbase)
      · rw [none_under_none hn hup] at hf
        cases hf
    | some node =>
      cases node with
      | directory => exact ih hn hp
      | file other => rfl

private theorem withDirectories_spec (ht : ns.IsTree) {base : Path} {names : List String}
    (hbase : ns.node? base = some .directory) (hv : Path.Valid (base ++ names))
    (hc : ns.Clear (base ++ names)) :
    (ns.withDirectories base names).IsTree ∧
      (ns.withDirectories base names).listedBlocks.Perm ns.listedBlocks ∧ ∀ path,
        (ns.withDirectories base names).node? path =
          if path <+: base ++ names then some .directory else ns.node? path := by
  fun_induction withDirectories ns base names with
  | case1 ns base =>
    refine ⟨ht, .refl _, fun path => ?_⟩
    rw [List.append_nil]
    split_ifs with hp
    · by_cases he : path = base
      · rw [he, hbase]
      · exact directory_above hbase hp he
    · rfl
  | case2 ns base name rest hn ih =>
    rw [List.append_cons base name rest] at hc hv ⊢
    have hne : base ++ [name] ≠ [] := by simp
    have hparent : ns.node? (base ++ [name]).parent = some .directory := by
      rw [Path.parent_append_singleton, hbase]
    have hname := (Path.valid_append.mp hv).1
    have hlisted : (ns.place (base ++ [name]) (.directory .empty)).listedBlocks.Perm
        (ns.listedBlocks ++ []) :=
      ht.listedBlocks_put hne hname hparent rfl (by rw [blocksUnder_of_none hn]; rfl)
    rw [List.append_nil] at hlisted
    obtain ⟨hmade, hsame, hall⟩ := ih (ht.put hne hname hparent rfl)
      (by rw [node?_make hbase hn, if_pos rfl]) hv (hc.make hbase hn)
    refine ⟨hmade, hsame.trans hlisted, fun path => ?_⟩
    rw [hall, node?_make hbase hn]
    by_cases hp : path <+: base ++ [name] ++ rest
    · rw [if_pos hp, if_pos hp]
    · rw [if_neg hp, if_neg hp, if_neg]
      rintro rfl
      exact hp (List.prefix_append ..)
  | case3 ns base name rest node hn ih =>
    rw [List.append_cons base name rest] at hc hv ⊢
    cases node with
    | directory => exact ih ht hn hv hc
    | file content => exact absurd hn (hc (List.prefix_append ..))

namespace IsTree

variable {path : Path}

theorem withDirectories (ht : ns.IsTree) (hv : path.Valid) (hc : ns.Clear path) :
    (ns.withDirectories [] path).IsTree :=
  (withDirectories_spec ht (node?_root ns) hv hc).1

theorem listedBlocks_withDirectories (ht : ns.IsTree) (hv : path.Valid) (hc : ns.Clear path) :
    (ns.withDirectories [] path).listedBlocks.Perm ns.listedBlocks :=
  (withDirectories_spec ht (node?_root ns) hv hc).2.1

theorem node?_withDirectories (ht : ns.IsTree) (hv : path.Valid) (hc : ns.Clear path)
    (other : Path) : (ns.withDirectories [] path).node? other =
      if other <+: path then some .directory else ns.node? other :=
  (withDirectories_spec ht (node?_root ns) hv hc).2.2 other

end IsTree

theorem Valid.withDirectories (h : ns.Valid) {path : Path} (hv : path.Valid)
    (hc : ns.Clear path) : (ns.withDirectories [] path).Valid where
  toIsTree := h.toIsTree.withDirectories hv hc
  toIsRegistry := h.of_listed (h.toIsTree.listedBlocks_withDirectories hv hc)
    (by rw [withDirectories_eq]) (by rw [withDirectories_eq])
  nodes_nodup := by
    rw [withDirectories_eq]
    exact h.nodes_nodup

theorem run_makeDirectories (ns : Namespace) (path : Path) :
    ns.Clear path ∧ (makeDirectories [] path).run ns = (.ok true, ns.withDirectories [] path) ∨
      ¬ ns.Clear path ∧ (makeDirectories [] path).run ns = (.ok false, ns) := by
  by_cases hc : ns.Clear path
  · exact .inl ⟨hc, run_makeDirectories_of_clear (node?_root ns) hc⟩
  · have hfile := hc
    simp only [Clear, not_forall, not_not] at hfile
    obtain ⟨above, content, ha, hf⟩ := hfile
    exact .inr ⟨hc, run_makeDirectories_of_file (node?_root ns) ha hf⟩

theorem run_mkdirs_text (ns : Namespace) {path : Path} (hv : path.Valid) :
    (mkdirs path.text).run ns = (makeDirectories [] path).run ns := by
  rw [mkdirs, run_bind, run_look, readPath_text hv]

theorem run_rename (ns : Namespace) (source target : String) :
    (rename source target).run ns = match readPath source, readPath target with
      | .error e, _ => (.error e, ns)
      | .ok _, .error e => (.error e, ns)
      | .ok source, .ok target =>
        if ns.CanRename source target then (.ok true, ns.moved source target)
        else (.ok false, ns) := by
  simp only [rename, run_bind, run_look]
  cases readPath source with
  | error e => rfl
  | ok source =>
    cases readPath target with
    | error e => rfl
    | ok target =>
      dsimp only
      rw [run_get]
      dsimp only
      rw [renamed?_eq]
      split_ifs <;> rfl

theorem run_rename_text (ns : Namespace) {source target : Path} (hs : source.Valid)
    (ht : target.Valid) : (rename source.text target.text).run ns =
      if ns.CanRename source target then (.ok true, ns.moved source target)
      else (.ok false, ns) := by
  rw [run_rename, readPath_text hs, readPath_text ht]

theorem run_delete (ns : Namespace) (text : String) (recursive : Bool) :
    (delete text recursive).run ns = match readPath text with
      | .error e => (.error e, ns)
      | .ok path =>
        if path ≠ [] ∧ (ns.node? path).isSome ∧ (recursive ∨ ns.isEmptyBelow path) then
          (.ok true, ns.removed path)
        else (.ok false, ns) := by
  simp only [delete, run_bind, run_look]
  cases readPath text with
  | error e => rfl
  | ok path =>
    dsimp only
    rw [run_get]
    dsimp only
    rw [removed?_eq]
    split_ifs <;> rfl

theorem run_delete_text (ns : Namespace) {path : Path} (hv : path.Valid) (recursive : Bool) :
    (delete path.text recursive).run ns =
      if path ≠ [] ∧ (ns.node? path).isSome ∧ (recursive ∨ ns.isEmptyBelow path) then
        (.ok true, ns.removed path)
      else (.ok false, ns) := by
  rw [run_delete, readPath_text hv]

end BlockFsck.Namespace
