import BlockFsck.Proofs.Deed

/-!
# What moves leave, in whatever order

Files move below one quarantine directory, each straight from where it was at the start. Between the
moves directories may be made there, also ones that no file goes to. What is where then depends on
which moves there were, and not on their order.
-/

namespace BlockFsck

/-- The file that was at the path at the start is at the target, below the quarantine directory. -/
structure Carried (quarantine : Path) (start ns : Namespace) (path target : Path) : Prop where
  file : ∃ content, start.node? path = some (.file content) ∧
    ns.node? target = some (.file content)
  gone : ns.node? path = none
  outside : ¬ quarantine <+: path
  not_above : ¬ path <+: quarantine
  below : quarantine <+: target ∧ target ≠ quarantine
  free : start.node? target = none

/-- What is where after moves below the quarantine directory. -/
structure Shifted (quarantine : Path) (start : Namespace) (deeds : List Deed)
    (ns : Namespace) : Prop where
  valid : ns.Valid
  rest_eq : ns = { start with root := ns.root }
  once : (deeds.map Deed.path).Nodup
  carried : ∀ deed ∈ deeds, ∃ path target, deed = .moved path target ∧
    Carried quarantine start ns path target
  apart : ∀ {path other target}, .moved path target ∈ deeds → .moved other target ∈ deeds →
    path = other
  kept : ∀ {path}, path ∉ deeds.map Deed.path → start.node? path ≠ none →
    ns.node? path = start.node? path
  new : ∀ {path}, start.node? path = none → ns.node? path = none ∨
    (∃ source, .moved source path ∈ deeds) ∨
    ns.node? path = some .directory ∧ (quarantine <+: path ∨ path <+: quarantine)

namespace Shifted

variable {quarantine : Path} {start ns : Namespace} {deeds : List Deed}

theorem nil (h : start.Valid) : Shifted quarantine start [] start where
  valid := h
  rest_eq := rfl
  once := List.nodup_nil
  carried := by simp
  apart := by simp
  kept _ _ := rfl
  new hn := .inl hn

theorem perm (h : Shifted quarantine start deeds ns) {others : List Deed}
    (hp : deeds.Perm others) : Shifted quarantine start others ns where
  valid := h.valid
  rest_eq := h.rest_eq
  once := (hp.map Deed.path).nodup_iff.mp h.once
  carried deed hmem := h.carried deed (hp.mem_iff.mpr hmem)
  apart hmem hmem' := h.apart (hp.mem_iff.mpr hmem) (hp.mem_iff.mpr hmem')
  kept hnot := h.kept fun hmem => hnot ((hp.map Deed.path).mem_iff.mp hmem)
  new hn := (h.new hn).imp_right (Or.imp_left (Exists.imp fun _ => hp.mem_iff.mp))

theorem carried_of_mem (h : Shifted quarantine start deeds ns) {path target : Path}
    (hmem : .moved path target ∈ deeds) : Carried quarantine start ns path target := by
  obtain ⟨path, target, hdeed, hcarried⟩ := h.carried _ hmem
  cases hdeed
  exact hcarried

theorem exists_of_path {path : Path} (h : Shifted quarantine start deeds ns)
    (hmem : path ∈ deeds.map Deed.path) : ∃ target, .moved path target ∈ deeds := by
  obtain ⟨deed, hdeed, rfl⟩ := List.mem_map.mp hmem
  obtain ⟨path, target, rfl, -⟩ := h.carried deed hdeed
  exact ⟨target, hdeed⟩

/-- A file outside of the quarantine directory was there from the start and has not moved. -/
theorem of_file (h : Shifted quarantine start deeds ns) {path : Path} {content : FileNode}
    (hn : ns.node? path = some (.file content)) (hout : ¬ quarantine <+: path) :
    start.node? path = some (.file content) ∧ path ∉ deeds.map Deed.path := by
  have hnot : path ∉ deeds.map Deed.path := by
    intro hmem
    obtain ⟨target, hmoved⟩ := h.exists_of_path hmem
    rw [(h.carried_of_mem hmoved).gone] at hn
    cases hn
  refine ⟨?_, hnot⟩
  by_cases hs : start.node? path = none
  · rcases h.new hs with hnone | ⟨source, hmoved⟩ | ⟨hd, -⟩
    · rw [hnone] at hn
      cases hn
    · exact absurd (h.carried_of_mem hmoved).below.1 hout
    · rw [hd] at hn
      cases hn
  · rw [← h.kept hnot hs, hn]

private theorem free_from_start (h : Shifted quarantine start deeds ns) {target : Path}
    (hq : quarantine <+: target) (hfree : ns.node? target = none) : start.node? target = none := by
  by_contra hne
  have hnot : target ∉ deeds.map Deed.path := by
    intro hmem
    obtain ⟨place, hmoved⟩ := h.exists_of_path hmem
    exact (h.carried_of_mem hmoved).outside hq
  rw [← h.kept hnot hne, hfree] at hne
  exact hne rfl

/-- Making directories there moves nothing. -/
theorem withDirectories (h : Shifted quarantine start deeds ns) {path : Path} (hv : path.Valid)
    (hq : quarantine <+: path) (hc : ns.Clear path) :
    Shifted quarantine start deeds (ns.withDirectories [] path) := by
  have hnode := h.valid.toIsTree.node?_withDirectories hv hc
  have hold : ∀ {other}, ns.node? other ≠ none →
      (ns.withDirectories [] path).node? other = ns.node? other := by
    intro other hn
    rw [hnode]
    split_ifs with hup
    · rcases ho : ns.node? other with _ | _ | content
      · exact absurd ho hn
      · rfl
      · exact absurd ho (hc hup)
    · rfl
  constructor
  case valid => exact h.valid.withDirectories hv hc
  case rest_eq =>
    rw [Namespace.withDirectories_eq, h.rest_eq]
  case once => exact h.once
  case carried =>
    intro deed hmem
    obtain ⟨source, target, rfl, hcarried⟩ := h.carried deed hmem
    obtain ⟨content, hstart, hn⟩ := hcarried.file
    -- no directory above the new ones is where the file was
    have hnot : ¬ source <+: path := by
      intro hup
      rcases List.prefix_or_prefix_of_prefix hup hq with hsq | hqs
      · exact hcarried.not_above hsq
      · exact hcarried.outside hqs
    refine ⟨source, target, rfl, { hcarried with file := ⟨content, hstart, ?_⟩, gone := ?_ }⟩
    · rw [hold (by simp [hn]), hn]
    · rw [hnode, if_neg hnot, hcarried.gone]
  case apart => exact h.apart
  case kept =>
    intro other hnot hs
    rw [hold (by rwa [h.kept hnot hs]), h.kept hnot hs]
  case new =>
    intro other hs
    rw [hnode]
    split_ifs with hup
    · exact .inr (.inr ⟨rfl, List.prefix_or_prefix_of_prefix hq hup⟩)
    · exact h.new hs

/-- A move carries a file that was there from the start. -/
theorem relocate (h : Shifted quarantine start deeds ns) {path target : Path} {content : FileNode}
    (hv : target.Valid) (hfile : start.node? path = some (.file content))
    (hcan : ns.CanRename path target) (hout : ¬ quarantine <+: path)
    (hbelow : quarantine <+: target ∧ target ≠ quarantine) :
    Shifted quarantine start (deeds ++ [.moved path target]) (ns.moved path target) := by
  have hparts := hcan
  obtain ⟨-, -, hnot, hthere, -, hfree⟩ := hparts
  have hfresh : path ∉ deeds.map Deed.path := by
    intro hmem
    obtain ⟨place, hmoved⟩ := h.exists_of_path hmem
    exact hthere (h.carried_of_mem hmoved).gone
  have hn : ns.node? path = some (.file content) := by rw [h.kept hfresh (by simp [hfile]), hfile]
  have hnode := Namespace.node?_moved_file hn hcan
  have hold : ∀ {other}, ns.node? other ≠ none → other ≠ path →
      (ns.moved path target).node? other = ns.node? other := by
    intro other ho hp
    have ht : other ≠ target := by
      rintro rfl
      exact ho hfree
    rw [hnode, if_neg ht, if_neg hp]
  have hne : path ≠ target := fun he => hnot (he ▸ List.prefix_refl _)
  constructor
  case valid => exact h.valid.moved hcan hv
  case rest_eq => rw [Namespace.moved, h.rest_eq]
  case once =>
    rw [List.map_append, List.map_singleton, ← List.concat_eq_append]
    exact h.once.concat hfresh
  case carried =>
    intro deed hmem
    rcases List.mem_append.mp hmem with hmem | hmem
    · obtain ⟨source, place, rfl, hcarried⟩ := h.carried deed hmem
      obtain ⟨others, hstart, hplace⟩ := hcarried.file
      have hother : place ≠ path := fun he => hout (he ▸ hcarried.below.1)
      have hsource : source ≠ target := fun he => hcarried.outside (he ▸ hbelow.1)
      refine ⟨source, place, rfl, { hcarried with file := ⟨others, hstart, ?_⟩, gone := ?_ }⟩
      · rw [hold (by simp [hplace]) hother, hplace]
      · rw [hnode, if_neg hsource, hcarried.gone, ite_self]
    · refine ⟨path, target, List.mem_singleton.mp hmem, ?_⟩
      constructor
      case file => exact ⟨content, hfile, by rw [hnode, if_pos rfl]⟩
      case gone => rw [hnode, if_neg hne, if_pos rfl]
      case outside => exact hout
      case not_above => exact fun hup => hnot (hup.trans hbelow.1)
      case below => exact hbelow
      case free => exact h.free_from_start hbelow.1 hfree
  case apart =>
    have htaken : ∀ {source}, .moved source target ∉ deeds := by
      intro source hmem
      obtain ⟨others, -, hplace⟩ := (h.carried_of_mem hmem).file
      rw [hfree] at hplace
      cases hplace
    intro source other place hmem hmem'
    rcases List.mem_append.mp hmem with hdone | hlast <;>
      rcases List.mem_append.mp hmem' with hdone' | hlast'
    · exact h.apart hdone hdone'
    · rw [(Deed.moved.inj (List.mem_singleton.mp hlast')).2] at hdone
      exact absurd hdone htaken
    · rw [(Deed.moved.inj (List.mem_singleton.mp hlast)).2] at hdone'
      exact absurd hdone' htaken
    · rw [(Deed.moved.inj (List.mem_singleton.mp hlast)).1,
        (Deed.moved.inj (List.mem_singleton.mp hlast')).1]
  case kept =>
    intro other ho hs
    rw [List.map_append, List.mem_append, not_or, List.map_singleton, List.mem_singleton] at ho
    rw [hold (by rwa [h.kept ho.1 hs]) ho.2, h.kept ho.1 hs]
  case new =>
    intro other hs
    rw [hnode]
    split_ifs with hplace hp
    · exact .inr (.inl ⟨path, hplace ▸ List.mem_append_right _ (List.mem_singleton_self _)⟩)
    · exact .inl rfl
    · exact (h.new hs).imp_right (Or.imp_left (Exists.imp fun _ => List.mem_append_left _))

theorem recordOf_eq (h : Shifted quarantine start deeds ns) (path : Path) (content : FileNode) :
    ns.recordOf path content = start.recordOf path content := by
  refine Namespace.recordOf_congr path (fun id _ => ?_) ?_ <;> rw [h.rest_eq]

end Shifted

end BlockFsck
