import BlockFsck.Proofs.Namespace.Reading

/-!
# What a run does to the namespace

A run acts on one file after the other: it moves the file below the quarantine directory or deletes
it. A history of such deeds says of every path what is there afterwards (`Deeds.acted`).
-/

namespace BlockFsck

/-- A file has gone elsewhere, or is no more. -/
inductive Deed
  | moved (path target : Path)
  | deleted (path : Path)
  deriving DecidableEq

namespace Deed

/-- Where the file was. -/
def path : Deed → Path
  | moved path _ => path
  | deleted path => path

def isMove : Deed → Bool
  | moved _ _ => true
  | deleted _ => false

end Deed

namespace Namespace

/-- Nothing stands at the end of the names below the base, and no file on the way there. -/
def FreeBelow (ns : Namespace) (base : Path) (names : List String) : Prop :=
  ns.node? (base ++ names) = none ∧
    ∀ {path content}, base <+: path → path ≠ base → path <+: base ++ names →
      ns.node? path ≠ some (.file content)

/-- A file has moved to a free place below the quarantine directory, with the directories on the way
there, and nothing else has changed. -/
structure MovesTo (quarantine : Path) (ns : Namespace) (path target : Path)
    (after : Namespace) : Prop where
  outside : ¬ quarantine <+: path
  below : quarantine <+: target ∧ target ≠ quarantine
  free : ns.node? target = none
  /-- Where its own path below the quarantine directory is free, the file is there. -/
  direct : ns.FreeBelow quarantine path → target = quarantine ++ path
  clear : ∀ {above content}, above <+: target → ns.node? above ≠ some (.file content)
  valid : after.Valid
  node_eq : ∀ other, after.node? other =
    if other = target then ns.node? path
    else if other = path then none
    else if other <+: target then some .directory else ns.node? other
  rest_eq : after = { ns with root := after.root }

end Namespace

/-- The deed leads from one namespace to the next. -/
def Deed.Does (quarantine : Path) : Deed → Namespace → Namespace → Prop
  | .moved path target, ns, after => ns.MovesTo quarantine path target after
  | .deleted path, ns, after => after = ns.removed path

/-- Deeds one after the other, all moves or all deletions, each on a file that is there and of which
the property holds. -/
inductive Deeds (quarantine : Path) (moves : Bool) (P : Path → FileRecord → Prop)
    (start : Namespace) : List Deed → Namespace → Prop
  | nil : Deeds quarantine moves P start [] start
  | snoc {deeds : List Deed} {ns : Namespace} {deed : Deed} {content : FileNode}
      {after : Namespace} : Deeds quarantine moves P start deeds ns →
      deed.isMove = moves → ns.node? deed.path = some (.file content) →
      P deed.path (ns.recordOf deed.path content) → deed.Does quarantine ns after →
      Deeds quarantine moves P start (deeds ++ [deed]) after

namespace Namespace

private theorem get?_removed {ns : Namespace} {path : Path} {content : FileNode}
    (hn : ns.node? path = some (.file content)) (id : String) :
    (ns.removed path).blocks.get? id =
      if id ∈ content.blocks then none else ns.blocks.get? id := by
  rw [removed_blocks, Table.get?_restrict, blocksUnder_of_file hn]
  by_cases hid : id ∈ content.blocks <;> simp [hid]

end Namespace

theorem Deed.not_deleted {deeds : List Deed} {path : Path} (h : path ∉ deeds.map Deed.path) :
    .deleted path ∉ deeds := fun hmem => h (List.mem_map.mpr ⟨_, hmem, rfl⟩)

/-- What is where after deeds. -/
structure Acted (quarantine : Path) (moves : Bool) (P : Path → FileRecord → Prop)
    (start : Namespace) (deeds : List Deed) (ns : Namespace) : Prop where
  valid : ns.Valid
  rest_eq : ns = { start with root := ns.root, blocks := ns.blocks }
  kind : ∀ deed ∈ deeds, deed.isMove = moves
  once : (deeds.map Deed.path).Nodup
  source : ∀ deed ∈ deeds, ∃ content, start.node? deed.path = some (.file content) ∧
    P deed.path (start.recordOf deed.path content)
  gone : ∀ deed ∈ deeds, ns.node? deed.path = none
  moved : ∀ {path target}, .moved path target ∈ deeds → ns.node? target = start.node? path
  outside : ∀ {path target}, .moved path target ∈ deeds →
    ¬ quarantine <+: path ∧ ¬ path <+: quarantine
  below : ∀ {path target}, .moved path target ∈ deeds →
    quarantine <+: target ∧ target ≠ quarantine ∧ start.node? target = none
  apart : ∀ {path other target}, .moved path target ∈ deeds → .moved other target ∈ deeds →
    path = other
  kept : ∀ {path}, path ∉ deeds.map Deed.path → start.node? path ≠ none →
    ns.node? path = start.node? path
  new : ∀ {path}, start.node? path = none → ns.node? path = none ∨
    (∃ source, .moved source path ∈ deeds) ∨
    ns.node? path = some .directory ∧ ∃ source target, .moved source target ∈ deeds ∧
      path <+: target
  deleted : ∀ {path content id}, .deleted path ∈ deeds →
    start.node? path = some (.file content) → id ∈ content.blocks → ns.blocks.get? id = none
  known : ∀ {id}, (∀ path content, .deleted path ∈ deeds →
    start.node? path = some (.file content) → id ∉ content.blocks) →
    ns.blocks.get? id = start.blocks.get? id

namespace Acted

variable {quarantine : Path} {moves : Bool} {P : Path → FileRecord → Prop}
  {start ns after : Namespace} {deeds : List Deed}

private theorem nil (h : start.Valid) : Acted quarantine moves P start [] start where
  valid := h
  rest_eq := rfl
  kind := by simp
  once := by simp
  source := by simp
  gone := by simp
  moved := by simp
  outside := by simp
  below := by simp
  apart := by simp
  kept _ _ := rfl
  new hn := .inl hn
  deleted := by simp
  known _ := rfl

theorem recordOf_eq (h : Acted quarantine moves P start deeds ns) (hs : start.Valid)
    {path : Path} {content : FileNode} (hn : start.node? path = some (.file content))
    (hp : .deleted path ∉ deeds) (other : Path) :
    ns.recordOf other content = start.recordOf other content := by
  refine Namespace.recordOf_congr other (fun id hid => h.known ?_) (by rw [h.rest_eq])
  intro owner others howner hothers hid'
  have he := hs.toIsRegistry.owner_unique hs.toIsTree hn hothers hid hid'
  exact hp (he ▸ howner)

/-- A file to which no other has moved was there from the start, and was not acted on. -/
theorem of_not_target (h : Acted quarantine moves P start deeds ns) {path : Path}
    {content : FileNode} (hn : ns.node? path = some (.file content))
    (ho : ∀ source, .moved source path ∉ deeds) :
    start.node? path = some (.file content) ∧ path ∉ deeds.map Deed.path := by
  have hp : path ∉ deeds.map Deed.path := by
    intro hmem
    obtain ⟨deed, hdeed, rfl⟩ := List.mem_map.mp hmem
    rw [h.gone deed hdeed] at hn
    cases hn
  refine ⟨?_, hp⟩
  by_cases hs : start.node? path = none
  · rcases h.new hs with hnone | ⟨source, hsource⟩ | ⟨hd, -⟩
    · rw [hnone] at hn
      cases hn
    · exact absurd hsource (ho source)
    · rw [hd] at hn
      cases hn
  · rw [← h.kept hp hs, hn]

private theorem of_file (h : Acted quarantine moves P start deeds ns) {path : Path}
    {content : FileNode}
    (hn : ns.node? path = some (.file content)) (ho : moves = true → ¬ quarantine <+: path) :
    start.node? path = some (.file content) ∧ path ∉ deeds.map Deed.path := by
  apply h.of_not_target hn
  intro source hsource
  exact ho (h.kind _ hsource).symm (h.below hsource).1

/-- Exactly the files that were acted on are not where they were. -/
theorem mem_iff (h : Acted quarantine moves P start deeds ns) {path : Path} {content : FileNode}
    (hn : start.node? path = some (.file content)) :
    path ∈ deeds.map Deed.path ↔ ns.node? path ≠ some (.file content) := by
  constructor
  · intro hmem
    obtain ⟨deed, hdeed, rfl⟩ := List.mem_map.mp hmem
    simp [h.gone deed hdeed]
  · intro hne
    by_contra hnot
    rw [h.kept hnot (by simp [hn]), hn] at hne
    exact hne rfl

private theorem deleted_not_mem (h : Acted quarantine true P start deeds ns) (path : Path) :
    .deleted path ∉ deeds := fun hmem => by simpa [Deed.isMove] using h.kind _ hmem

private theorem moved_not_mem (h : Acted quarantine false P start deeds ns) (path target : Path) :
    .moved path target ∉ deeds := fun hmem => by simpa [Deed.isMove] using h.kind _ hmem

private theorem taken (h : Acted quarantine moves P start deeds ns) {path target : Path}
    (hmem : .moved path target ∈ deeds) : ns.node? target ≠ none := by
  obtain ⟨content, hn, -⟩ := h.source _ hmem
  rw [Deed.path] at hn
  simp [h.moved hmem, hn]

private theorem not_above (h : Acted quarantine moves P start deeds ns) {path target other : Path}
    (hmem : .moved path target ∈ deeds) (ho : quarantine <+: other) : ¬ path <+: other := by
  intro hup
  rcases List.prefix_or_prefix_of_prefix hup ho with hpq | hqp
  · exact (h.outside hmem).2 hpq
  · exact (h.outside hmem).1 hqp

private theorem free_from_start (h : Acted quarantine true P start deeds ns) {target : Path}
    (hq : quarantine <+: target) (hfree : ns.node? target = none) : start.node? target = none := by
  by_contra hne
  have hnot : target ∉ deeds.map Deed.path := by
    intro hmem
    obtain ⟨deed, hdeed, he⟩ := List.mem_map.mp hmem
    cases deed with
    | deleted path => exact h.deleted_not_mem path hdeed
    | moved path place =>
      rw [Deed.path] at he
      exact h.not_above hdeed hq (he ▸ List.prefix_refl _)
  rw [← h.kept hnot hne, hfree] at hne
  exact hne rfl

private theorem once_concat (h : Acted quarantine moves P start deeds ns) {deed : Deed}
    (hfresh : deed.path ∉ deeds.map Deed.path) : ((deeds ++ [deed]).map Deed.path).Nodup := by
  rw [List.map_append, List.nodup_append]
  refine ⟨h.once, List.nodup_singleton _, fun other ho last hl he => ?_⟩
  rw [List.map_singleton, List.mem_singleton] at hl
  rw [hl] at he
  exact hfresh (he ▸ ho)

private theorem source_concat (h : Acted quarantine moves P start deeds ns) (hs : start.Valid)
    (deed : Deed) {content : FileNode} (hfile : start.node? deed.path = some (.file content))
    (hfresh : deed.path ∉ deeds.map Deed.path)
    (hP : P deed.path (ns.recordOf deed.path content)) :
    ∀ done ∈ deeds ++ [deed], ∃ content, start.node? done.path = some (.file content) ∧
      P done.path (start.recordOf done.path content) := by
  refine List.forall_mem_append.mpr ⟨h.source, List.forall_mem_singleton.mpr ⟨content, hfile, ?_⟩⟩
  exact h.recordOf_eq hs hfile (Deed.not_deleted hfresh) deed.path ▸ hP

/-- Where a move leaves what it does not move. -/
theorem node_after_move {path target other : Path}
    (h : Namespace.MovesTo quarantine ns path target after) (hp : other ≠ path)
    (hn : ns.node? other ≠ none) : after.node? other = ns.node? other := by
  rw [h.node_eq]
  have ht : other ≠ target := by
    rintro rfl
    exact hn h.free
  rw [if_neg ht, if_neg hp]
  split_ifs with hup
  · cases ho : ns.node? other with
    | none => exact absurd ho hn
    | some node =>
      cases node with
      | directory => rfl
      | file content => exact absurd ho (h.clear hup)
  · rfl

private theorem move (h : Acted quarantine true P start deeds ns) (hs : start.Valid)
    {path target : Path}
    {content : FileNode} (hn : ns.node? path = some (.file content))
    (hP : P path (ns.recordOf path content)) (hd : ns.MovesTo quarantine path target after) :
    Acted quarantine true P start (deeds ++ [.moved path target]) after := by
  obtain ⟨hfile, hfresh⟩ := h.of_file hn fun _ => hd.outside
  have hup : ¬ path <+: target := fun hp => hd.clear hp hn
  have hblocks : after.blocks = ns.blocks := by rw [hd.rest_eq]
  constructor
  case valid => exact hd.valid
  case rest_eq =>
    rw [hd.rest_eq, h.rest_eq]
  case kind => exact List.forall_mem_append.mpr ⟨h.kind, List.forall_mem_singleton.mpr rfl⟩
  case once => exact h.once_concat hfresh
  case source => exact h.source_concat hs (.moved path target) hfile hfresh hP
  case gone =>
    intro deed hmem
    rcases List.mem_append.mp hmem with hmem | hmem
    · cases deed with
      | deleted source => exact absurd hmem (h.deleted_not_mem source)
      | moved source place =>
        have hnone := h.gone _ hmem
        have hnot := h.not_above hmem hd.below.1
        have hne : source ≠ target := fun he => hnot (he ▸ List.prefix_refl _)
        rw [Deed.path] at hnone ⊢
        rw [hd.node_eq, if_neg hne, if_neg hnot, hnone, ite_self]
    · rw [List.mem_singleton.mp hmem, Deed.path, hd.node_eq, if_neg, if_pos rfl]
      rintro rfl
      exact hup (List.prefix_refl _)
  case moved =>
    intro source place hmem
    rcases List.mem_append.mp hmem with hmem | hmem
    · have hne : place ≠ path := fun he => hd.outside (he ▸ (h.below hmem).1)
      rw [node_after_move hd hne (h.taken hmem), h.moved hmem]
    · obtain ⟨rfl, rfl⟩ := Deed.moved.inj (List.mem_singleton.mp hmem)
      rw [hd.node_eq, if_pos rfl, hn, hfile]
  case outside =>
    intro source place hmem
    rcases List.mem_append.mp hmem with hmem | hmem
    · exact h.outside hmem
    · obtain ⟨rfl, rfl⟩ := Deed.moved.inj (List.mem_singleton.mp hmem)
      exact ⟨hd.outside, fun hq => hup (hq.trans hd.below.1)⟩
  case below =>
    intro source place hmem
    rcases List.mem_append.mp hmem with hmem | hmem
    · exact h.below hmem
    · obtain ⟨rfl, rfl⟩ := Deed.moved.inj (List.mem_singleton.mp hmem)
      exact ⟨hd.below.1, hd.below.2, h.free_from_start hd.below.1 hd.free⟩
  case apart =>
    intro source other place hmem hmem'
    rcases List.mem_append.mp hmem with hmem | hmem <;>
      rcases List.mem_append.mp hmem' with hmem' | hmem'
    · exact h.apart hmem hmem'
    · have he := (Deed.moved.inj (List.mem_singleton.mp hmem')).2
      exact absurd (he ▸ hd.free) (h.taken hmem)
    · have he := (Deed.moved.inj (List.mem_singleton.mp hmem)).2
      exact absurd (he ▸ hd.free) (h.taken hmem')
    · rw [(Deed.moved.inj (List.mem_singleton.mp hmem)).1,
        (Deed.moved.inj (List.mem_singleton.mp hmem')).1]
  case kept =>
    intro other ho hne
    rw [List.map_append, List.mem_append, not_or, List.map_singleton, List.mem_singleton] at ho
    have hsame := h.kept ho.1 hne
    rw [node_after_move hd ho.2 (hsame ▸ hne), hsame]
  case new =>
    intro other hnone
    by_cases ht : other = target
    · exact .inr (.inl ⟨path, by simp [ht]⟩)
    by_cases hp : other = path
    · rw [hp, hfile] at hnone
      cases hnone
    rw [hd.node_eq, if_neg ht, if_neg hp]
    split_ifs with hother
    · exact .inr (.inr ⟨rfl, path, target, by simp, hother⟩)
    · rcases h.new hnone with hn | ⟨source, hsource⟩ | ⟨hn, source, place, hmem, hplace⟩
      · exact .inl hn
      · exact .inr (.inl ⟨source, List.mem_append_left _ hsource⟩)
      · exact .inr (.inr ⟨hn, source, place, List.mem_append_left _ hmem, hplace⟩)
  case deleted =>
    intro source others id hmem
    rcases List.mem_append.mp hmem with hmem | hmem
    · rw [hblocks]
      exact h.deleted hmem
    · cases List.mem_singleton.mp hmem
  case known =>
    intro id hid
    rw [hblocks]
    exact h.known fun source others hmem => hid source others (List.mem_append_left _ hmem)

private theorem delete (h : Acted quarantine false P start deeds ns) (hs : start.Valid)
    {path : Path}
    {content : FileNode} (hn : ns.node? path = some (.file content))
    (hP : P path (ns.recordOf path content)) :
    Acted quarantine false P start (deeds ++ [.deleted path]) (ns.removed path) := by
  obtain ⟨hfile, hfresh⟩ := h.of_file hn (by simp)
  have hne := Namespace.ne_root_of_file hn
  have hmove : ∀ {source target}, .moved source target ∉ deeds ++ [.deleted path] := by
    intro source target hmem
    rcases List.mem_append.mp hmem with hmem | hmem
    · exact h.moved_not_mem source target hmem
    · cases List.mem_singleton.mp hmem
  have hnode : ∀ other, (ns.removed path).node? other =
      if path <+: other then none else ns.node? other := Namespace.node?_removed hne
  constructor
  case valid => exact h.valid.removed hne
  case rest_eq =>
    rw [Namespace.removed, h.rest_eq]
  case kind => exact List.forall_mem_append.mpr ⟨h.kind, List.forall_mem_singleton.mpr rfl⟩
  case once => exact h.once_concat hfresh
  case source => exact h.source_concat hs (.deleted path) hfile hfresh hP
  case gone =>
    intro deed hmem
    rw [hnode]
    rcases List.mem_append.mp hmem with hmem | hmem
    · rw [h.gone deed hmem, ite_self]
    · rw [List.mem_singleton.mp hmem]
      exact if_pos (List.prefix_refl _)
  case moved => exact fun hmem => absurd hmem hmove
  case outside => exact fun hmem => absurd hmem hmove
  case below => exact fun hmem => absurd hmem hmove
  case apart => exact fun hmem => absurd hmem hmove
  case kept =>
    intro other ho hsome
    rw [List.map_append, List.mem_append, not_or, List.map_singleton, List.mem_singleton] at ho
    have hup : ¬ path <+: other := fun hup => ho.2 (Namespace.eq_of_file hfile hup hsome)
    rw [hnode, if_neg hup, h.kept ho.1 hsome]
  case new =>
    intro other hnone
    rw [hnode]
    split_ifs with hup
    · exact .inl rfl
    · rcases h.new hnone with hn | ⟨source, hsource⟩ | ⟨-, source, target, hmem, -⟩
      · exact .inl hn
      · exact absurd (List.mem_append_left _ hsource) hmove
      · exact absurd (List.mem_append_left _ hmem) hmove
  case deleted =>
    intro source others id hmem hothers hid
    rw [Namespace.get?_removed hn]
    rcases List.mem_append.mp hmem with hmem | hmem
    · rw [h.deleted hmem hothers hid, ite_self]
    · obtain rfl := Deed.deleted.inj (List.mem_singleton.mp hmem)
      rw [Namespace.file_inj hfile hothers] at hid
      rw [if_pos hid]
  case known =>
    intro id hid
    rw [Namespace.get?_removed hn, if_neg]
    · exact h.known fun source others hmem => hid source others (List.mem_append_left _ hmem)
    · exact hid path content (by simp) hfile

end Acted

/-- What deeds have left behind, from what single ones do. -/
theorem Deeds.acted {quarantine : Path} {moves : Bool} {P : Path → FileRecord → Prop}
    {start ns : Namespace} {deeds : List Deed} (h : Deeds quarantine moves P start deeds ns)
    (hs : start.Valid) : Acted quarantine moves P start deeds ns := by
  induction h with
  | nil => exact .nil hs
  | @snoc deeds ns deed content after _ hkind hn hP hd ih =>
    cases deed with
    | moved path target =>
      subst hkind
      exact ih.move hs hn hP hd
    | deleted path =>
      subst hkind
      rw [Deed.Does] at hd
      rw [hd]
      exact ih.delete hs hn hP

/-! ## A fresh quarantine directory -/

namespace Namespace

/-- The quarantine directory can be made, and there is nothing below it yet. -/
def IsFresh (ns : Namespace) (quarantine : Path) : Prop :=
  ns.Clear quarantine ∧ ∀ path, quarantine <+: path → path ≠ quarantine → ns.node? path = none

end Namespace

namespace Deeds

variable {quarantine : Path} {moves : Bool} {P : Path → FileRecord → Prop}
  {start ns : Namespace} {deeds : List Deed}

theorem keeps_clear (h : Deeds quarantine moves P start deeds ns) (hs : start.Valid)
    (hc : start.Clear quarantine) : ns.Clear quarantine := by
  intro above content ha hn
  have hacted := h.acted hs
  by_cases hsame : above = quarantine
  · subst hsame
    cases hstart : start.node? above with
    | none =>
      rcases hacted.new hstart with hnone | ⟨source, hmem⟩ | ⟨hd, -⟩
      · simp [hnone] at hn
      · exact (hacted.below hmem).2.1 rfl
      · simp [hd] at hn
    | some node =>
      have hp : above ∉ deeds.map Deed.path := by
        intro hmem
        obtain ⟨deed, hdeed, he⟩ := List.mem_map.mp hmem
        have hgone := hacted.gone deed hdeed
        simp [he, hn] at hgone
      rw [hacted.kept hp (by simp [hstart])] at hn
      exact hc ha hn
  · have hout : ¬ quarantine <+: above := fun hq => hsame (ha.eq_of_length_le hq.length_le)
    exact hc ha (hacted.of_file hn fun _ => hout).1

/-- With nothing below the quarantine directory at first, each file that was not moved finds its
place there free. -/
theorem free_of_fresh (h : Deeds quarantine moves P start deeds ns) (hs : start.Valid)
    (hfresh : start.IsFresh quarantine)
    (hdirect : ∀ {source target}, .moved source target ∈ deeds → target = quarantine ++ source)
    {path : Path} {content : FileNode} (hn : start.node? path = some (.file content))
    (hp : path ∉ deeds.map Deed.path) : ns.FreeBelow quarantine path := by
  have hacted := h.acted hs
  have hsource : ∀ {source target}, .moved source target ∈ deeds →
      ¬ source <+: path ∧ ¬ path <+: source := by
    intro source target hmem
    obtain ⟨others, hothers, -⟩ := hacted.source _ hmem
    rw [Deed.path] at hothers
    have hne : source ≠ path := fun he => hp (he ▸ List.mem_map_of_mem hmem)
    exact ⟨fun hup => hne (Namespace.eq_of_file hothers hup (by simp [hn])).symm,
      fun hup => hne (Namespace.eq_of_file hn hup (by simp [hothers]))⟩
  have hne : quarantine ++ path ≠ quarantine := by
    simp [Namespace.ne_root_of_file hn]
  refine ⟨?_, fun {other others} hb hother hup hfile => ?_⟩
  · rcases hacted.new (hfresh.2 _ (List.prefix_append ..) hne) with
      hnone | ⟨source, hmem⟩ | ⟨-, source, target, hmem, hup⟩
    · exact hnone
    · have he := List.append_cancel_left (hdirect hmem)
      exact absurd (he ▸ List.prefix_refl _) (hsource hmem).1
    · rw [hdirect hmem, List.prefix_append_right_inj] at hup
      exact absurd hup (hsource hmem).2
  · rcases hacted.new (hfresh.2 _ hb hother) with hnone | ⟨source, hmem⟩ | ⟨hd, -⟩
    · simp [hnone] at hfile
    · rw [hdirect hmem, List.prefix_append_right_inj] at hup
      exact (hsource hmem).1 hup
    · simp [hd] at hfile

/-- Into a fresh quarantine directory every file moves under its own path. -/
theorem direct_of_fresh (h : Deeds quarantine moves P start deeds ns) (hs : start.Valid)
    (hfresh : start.IsFresh quarantine) {path target : Path} (hmem : .moved path target ∈ deeds) :
    target = quarantine ++ path := by
  induction h generalizing path target with
  | nil => cases hmem
  | @snoc deeds ns deed content after hdeeds hkind hn hP hd ih =>
    rcases List.mem_append.mp hmem with hmem | hmem
    · exact ih hmem
    · obtain rfl := List.mem_singleton.mp hmem
      rw [Deed.isMove] at hkind
      obtain ⟨hfile, hnew⟩ := (hdeeds.acted hs).of_file hn fun _ => hd.outside
      exact hd.direct (hdeeds.free_of_fresh hs hfresh ih hfile hnew)

end Deeds

end BlockFsck
