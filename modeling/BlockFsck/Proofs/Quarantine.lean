import BlockFsck.Proofs.Check
import BlockFsck.Proofs.Deed
import BlockFsck.Proofs.Destination

/-!
# Moving and deleting files

On a namespace that nobody else changes, a move of a file either is refused and changes nothing, or
puts it at a free place below the quarantine directory and makes the directories on the way there
(`move_spec`). Deleting a file always succeeds (`deleteFile_spec`).
-/

namespace BlockFsck

open Metadata (onNamespace)

variable {σ : Type} {ns : Namespace}

namespace Quarantine

private theorem creatable_entryIn {base : Path} {names : List String}
    (hv : Path.Valid (base ++ names)) :
    Creatable (entryIn ns) base names ↔ ns.FreeBelow base names := by
  have hknown : ∀ {above}, above <+: names →
      entryIn ns (Path.text (base ++ above)) = (ns.node? (base ++ above)).map fun node =>
        ⟨Path.text (base ++ above), node.kind⟩ := by
    intro above hup
    exact entryIn_text (hv.of_prefix ((List.prefix_append_right_inj base).mpr hup))
  constructor
  · intro h
    have habsent := h.absent
    rw [entryIn_text hv, Option.map_eq_none_iff] at habsent
    refine ⟨habsent, fun {path content} hb hne hp hfile => ?_⟩
    obtain ⟨above, rfl⟩ := hb
    have hup := (List.prefix_append_right_inj base).mp hp
    have hproper : above ≠ names := by
      rintro rfl
      simp [habsent] at hfile
    have hentry := hknown hup
    rw [hfile, Option.map_some] at hentry
    simpa [Entry.isDirectory, Node.kind] using
      h.no_file_above hup (by simpa using hne) hproper _ hentry
  · intro h
    refine ⟨by rw [entryIn_text hv, h.1, Option.map_none], fun {above} hup hne _ entry hentry => ?_⟩
    rw [hknown hup] at hentry
    obtain ⟨node, hn, rfl⟩ := Option.map_eq_some_iff.mp hentry
    cases node with
    | directory => simp [Entry.isDirectory, Node.kind]
    | file content =>
      exact absurd hn (h.2 (List.prefix_append base above) (by simpa using hne)
        ((List.prefix_append_right_inj base).mpr hup))

/-- A destination is a free place strictly below the quarantine directory, for a path outside. -/
theorem destination_spec (ns : Namespace) (quarantine : Quarantine) {directory path : Path}
    {text : String} (hq : Path.ofText quarantine.directory = .ok directory)
    (hp : Path.ofText text = .ok path) (hne : path ≠ []) (s : σ) :
    (∃ cause, (quarantine.destination text).runOn onNamespace s ns =
        ((.error (.quarantine cause), s), ns) ∧
        (cause = .inside text directory.text ∨ cause = .noFreeName text quarantine.maxSuffix) ∧
        (ns.FreeBelow directory path → directory <+: path)) ∨
      ∃ names, (quarantine.destination text).runOn onNamespace s ns =
          ((.ok (Path.text (directory ++ names)), s), ns) ∧
        ¬ directory <+: path ∧ (ns.FreeBelow directory path → names = path) ∧
        Path.Valid names ∧ names ≠ [] ∧ ns.FreeBelow directory names := by
  have hd := Path.valid_of_ofText hq
  have hv := Path.valid_of_ofText hp
  have hfree : ns.FreeBelow directory path ↔ Creatable (entryIn ns) directory path :=
    (creatable_entryIn (Path.valid_append.mpr ⟨hd, hv⟩)).symm
  have hself : Candidate (entryIn ns) directory path 0 path := .inl ⟨rfl, rfl⟩
  obtain ⟨ended, after, hrun, rfl, hcases⟩ := destination_cases (ofTree_entryIn ns)
    (looksUp_entryIn ns) quarantine hq hp hne s rfl
  rcases hcases with ⟨hin, rfl⟩ | ⟨-, rfl, hall⟩ | ⟨hout, number, names, rfl, hfirst⟩
  · exact .inl ⟨_, hrun, .inl rfl, fun _ => hin⟩
  · exact .inl ⟨_, hrun, .inr rfl,
      fun h => absurd (hfree.mp h) (hall 0 (Nat.zero_le _) path hself)⟩
  · have hnames := hfirst.candidate.valid hv
    refine .inr ⟨names, hrun, hout, fun h => ?_, hnames, ?_,
      (creatable_entryIn (Path.valid_append.mpr ⟨hd, hnames⟩)).mp hfirst.creatable⟩
    · -- a candidate with an ending comes only after the path itself
      rcases hfirst.candidate with ⟨-, rfl⟩ | ⟨hpos, -⟩
      · rfl
      · exact absurd (hfree.mp h) (hfirst.least 0 hpos path hself)
    · rw [← List.length_pos_iff, hfirst.candidate.near.1]
      exact List.length_pos_iff.mpr hne

private theorem clear_of_parent {target : Path} (hne : target ≠ []) (hfree : ns.node? target = none)
    (hc : ns.Clear target.parent) : ns.Clear target := by
  intro above content ha
  by_cases he : above = target
  · rw [he, hfree]
    simp
  · exact hc ((Path.prefix_parent_iff hne he).mpr ha)

/-- The rename at the end of a move, which is never refused. -/
theorem rename_spec (h : ns.Valid) {directory path target : Path} {content : FileNode}
    {text : String} (hp : Path.ofText text = .ok path)
    (hn : ns.node? path = some (.file content)) (hout : ¬ directory <+: path)
    (hv : target.Valid) (hbelow : directory <+: target ∧ target ≠ directory)
    (hfree : ns.node? target = none)
    (hdirect : ns.FreeBelow directory path → target = directory ++ path)
    (hc : ns.Clear target.parent) :
    ∃ after, (Namespace.rename text target.text).run (ns.withDirectories [] target.parent) =
        (.ok true, after) ∧ ns.MovesTo directory path target after := by
  have ht := h.toIsTree
  have hne : target ≠ [] := by
    rintro rfl
    simp at hfree
  have hmade := h.withDirectories hv.parent hc
  have hnode := ht.node?_withDirectories hv.parent hc
  have hclear : ns.Clear target := clear_of_parent hne hfree hc
  have hnot : ¬ path <+: target := fun hp => hclear hp hn
  -- neither the file nor the place it goes to is among the directories
  have hsource : (ns.withDirectories [] target.parent).node? path = some (.file content) := by
    rw [hnode, if_neg fun hp => hc hp hn, hn]
  have hparent : ¬ target <+: target.parent := by
    intro hp
    have hlength := hp.length_le
    have hpos := List.length_pos_iff.mpr hne
    rw [Path.parent, List.length_dropLast] at hlength
    omega
  have hcan : (ns.withDirectories [] target.parent).CanRename path target := by
    refine ⟨Namespace.ne_root_of_file hn, hne, hnot, by simp [hsource], ?_, ?_⟩
    · rw [hnode, if_pos (List.prefix_refl _)]
    · rw [hnode, if_neg hparent, hfree]
  have hafter := Namespace.node?_moved_file hsource hcan
  rw [Namespace.run_rename, Namespace.readPath_of_ofText hp, Namespace.readPath_text hv]
  dsimp only
  rw [if_pos hcan]
  refine ⟨_, rfl, hout, hbelow, hfree, hdirect, hclear, hmade.moved hcan hv, fun other => ?_, ?_⟩
  · rw [hafter, hn, hnode]
    by_cases he : other = target
    · rw [if_pos he, if_pos he]
    · rw [if_neg he, if_neg he]
      simp only [Path.prefix_parent_iff hne he]
  · rw [Namespace.moved, Namespace.withDirectories_eq]

/-- The directories above a free place can be made if no file is at or above the quarantine
directory. -/
theorem clear_parent_iff {directory : Path} {names : List String} (hne : names ≠ [])
    (hfree : ns.FreeBelow directory names) :
    ns.Clear (Path.parent (directory ++ names)) ↔ ns.Clear directory := by
  have hproper : directory ≠ directory ++ names := by simpa using Ne.symm hne
  have hparent : directory <+: Path.parent (directory ++ names) :=
    (Path.prefix_parent_iff (by simp [hne]) hproper).mpr (List.prefix_append directory names)
  constructor
  · intro hc above content ha
    exact hc (ha.trans hparent)
  · intro hc above content ha hfile
    -- a file in the way is above the quarantine directory or below it
    have hup := ha.trans (List.dropLast_prefix (directory ++ names))
    rcases List.prefix_or_prefix_of_prefix hup (List.prefix_append directory names) with
      habove | hdown
    · exact hc habove hfile
    · by_cases he : above = directory
      · exact hc (he ▸ List.prefix_refl _) hfile
      · exact hfree.2 hdown he hup hfile

/-- A move with a destination comes to its end if the directories can be made; else nothing has
changed. -/
theorem move_of_found (h : ns.Valid) (quarantine : Quarantine) {directory path : Path}
    {names : List String} {content : FileNode} {text : String}
    (hp : Path.ofText text = .ok path) (hn : ns.node? path = some (.file content))
    (hout : ¬ directory <+: path) (hdirect : ns.FreeBelow directory path → names = path)
    (hv : Path.Valid (directory ++ names)) (hne : names ≠ []) (hfree : ns.FreeBelow directory names)
    {s : σ} (hrun : (quarantine.destination text).runOn onNamespace s ns =
      ((.ok (Path.text (directory ++ names)), s), ns)) :
    (¬ ns.Clear directory ∧ (quarantine.move text).runOn onNamespace s ns =
        ((.error (.quarantine (.noDirectory (Path.parent (directory ++ names)).text)), s), ns)) ∨
      ns.Clear directory ∧ ∃ after, (quarantine.move text).runOn onNamespace s ns =
          ((.ok (Path.text (directory ++ names)), s), after) ∧
        ns.MovesTo directory path (directory ++ names) after := by
  rw [move, Check.runOn_bind, hrun]
  dsimp only
  rw [Path.parentText_text hv, Check.runOn_bind, Check.runOn_ofPath_ok]
  dsimp only
  rw [Check.runOn_bind, Check.runOn_namespace, Query.onNamespace, ← clear_parent_iff hne hfree,
    Namespace.run_mkdirs_text ns hv.parent]
  rcases Namespace.run_makeDirectories _ (Path.parent (directory ++ names)) with
    ⟨hc, hmade⟩ | ⟨hc, hmade⟩
  · obtain ⟨after, hrename, hmoves⟩ := rename_spec h hp hn hout hv
      ⟨List.prefix_append .., by simp [hne]⟩ hfree.1 (fun hbelow => by rw [hdirect hbelow]) hc
    refine .inr ⟨hc, after, ?_, hmoves⟩
    rw [hmade]
    dsimp only [Except.mapError]
    simp only [Bool.not_true, Bool.false_eq_true, if_false]
    rw [Check.runOn_bind, Check.runOn_namespace, Query.onNamespace, hrename]
    rfl
  · rw [hmade]
    exact .inl ⟨hc, rfl⟩

/-- A move of a file is refused and changes nothing, or puts it below the quarantine directory. -/
theorem move_spec (h : ns.Valid) (quarantine : Quarantine) {directory path : Path}
    {content : FileNode} (hq : quarantine.directory = directory.text) (hd : directory.Valid)
    (hn : ns.node? path = some (.file content)) (s : σ) :
    (∃ cause, (quarantine.move path.text).runOn onNamespace s ns =
        ((.error (.quarantine cause), s), ns) ∧
        (ns.FreeBelow directory path → ns.Clear directory → directory <+: path)) ∨
      ∃ target after, (quarantine.move path.text).runOn onNamespace s ns =
          ((.ok target.text, s), after) ∧ ns.MovesTo directory path target after := by
  have hp := Path.ofText_text (h.path_valid hn)
  have hread : Path.ofText quarantine.directory = .ok directory := by
    rw [hq]
    exact Path.ofText_text hd
  rcases destination_spec ns quarantine hread hp (Namespace.ne_root_of_file hn) s with
    ⟨cause, hrefused, -, hinside⟩ | ⟨names, hrun, hout, hdirect, hnames, hne, hfree⟩
  · rw [move, Check.runOn_bind, hrefused]
    exact .inl ⟨cause, rfl, fun hbelow _ => hinside hbelow⟩
  · have hv : Path.Valid (directory ++ names) := Path.valid_append.mpr ⟨hd, hnames⟩
    rcases move_of_found h quarantine hp hn hout hdirect hv hne hfree hrun with
      ⟨hc, hended⟩ | ⟨-, after, hended, hmoves⟩
    · exact .inl ⟨_, hended, fun _ hclear => hc @hclear |>.elim⟩
    · exact .inr ⟨_, after, hended, hmoves⟩

end Quarantine

/-- A file can always be deleted. -/
theorem Check.deleteFile_spec (h : ns.Valid) {path : Path} {content : FileNode}
    (hn : ns.node? path = some (.file content)) (s : σ) :
    (Check.deleteFile path.text).runOn onNamespace s ns = ((.ok (), s), ns.removed path) := by
  have ht := h.toIsTree
  have hempty : ns.isEmptyBelow path = true :=
    Namespace.isEmptyBelow_iff.mpr fun _ hup hne =>
      Namespace.none_below (by simp [hn]) hup hne.symm
  rw [deleteFile, Check.runOn_bind, Check.runOn_namespace, Query.onNamespace,
    Namespace.run_delete_text ns (ht.path_valid hn),
    if_pos ⟨Namespace.ne_root_of_file hn, by simp [hn], .inr hempty⟩]
  rfl

end BlockFsck
