import BlockFsck.Proofs.Checker.Listed

/-!
# Which files a run acts on

A full check acts on files that it has judged damaged. A listing also acts on files that it has from
the list of the service alone, which it does not judge: a malformed file with a block of which all
copies are corrupt is moved or deleted like a damaged one.
-/

namespace BlockFsck

open Metadata (onNamespace)
open Namespace (oneCorruptFile oneCorruptFile_reachable)

theorem FileNode.judged_closed {content : FileNode} (h : content.lease = none)
    (openVisible : Bool) : content.judged openVisible = content.blocks := by
  rw [judged, h, if_neg (by simp)]

namespace Namespace

variable {ns : Namespace} {root quarantine path : Path}

/-- A malformed file that a listing of the root has from the list of the service, while nobody
writes to it. -/
def IsExposed (ns : Namespace) (root quarantine path : Path) : Prop :=
  ∃ content, ns.node? path = some (.file content) ∧ content.lease = none ∧
    (∃ id ∈ content.blocks, ns.IsNegative id) ∧ ns.hasCorruptBlock (.file content) = true ∧
    root <+: path ∧ (quarantine <+: root ∨ ¬ quarantine <+: path)

theorem isLost_of_isCorrupt {id : String} {block : Block} (hb : ns.blocks.get? id = some block)
    (hc : block.isCorrupt = true) : ns.IsLost id := by
  rw [Block.isCorrupt, Bool.and_eq_true, List.all_eq_true] at hc
  exact ⟨block, hb, fun copy hmem hgood => by simp [hc.2 copy hmem] at hgood⟩

/-- A file on the list that nobody writes to is damaged unless it is malformed. -/
theorem isDamaged_of_hasCorruptBlock (h : ns.Valid) {content : FileNode}
    (hn : ns.node? path = some (.file content)) (hclosed : content.lease = none)
    (hc : ns.hasCorruptBlock (.file content) = true) (openVisible : Bool)
    (hgood : ¬ ∃ id ∈ content.blocks, ns.IsNegative id) :
    (ns.recordOf path content).isDamaged openVisible = true := by
  rw [hasCorruptBlock, Node.blocks, List.any_eq_true] at hc
  obtain ⟨id, hid, hblock⟩ := hc
  obtain ⟨block, hb, hcorrupt⟩ := (Option.any_eq_true _ _).mp hblock
  rw [h.isDamaged_iff hn, HasNegative, HasLost, FileNode.judged_closed hclosed]
  exact ⟨hgood, id, hid, isLost_of_isCorrupt hb hcorrupt⟩

private theorem IsExposed.not_damaged (h : ns.Valid) (hexposed : ns.IsExposed root quarantine path)
    {content : FileNode} (hn : ns.node? path = some (.file content)) (openVisible : Bool) :
    ¬ (ns.recordOf path content).isDamaged openVisible = true := by
  obtain ⟨others, hothers, hclosed, hneg, -⟩ := hexposed
  obtain rfl := file_inj hothers hn
  rw [h.isDamaged_iff hn, HasNegative, FileNode.judged_closed hclosed]
  exact fun hdamaged => hdamaged.1 hneg

end Namespace

namespace Checker

variable {o : Options} {ns after : Namespace} {root quarantine : Path}

private theorem damaged_or_exposed {files malformed : List Path} (h : ns.Valid)
    (hfinds : (listing o).Finds root (some quarantine) ns files malformed) {path : Path}
    {content : FileNode} (hn : ns.node? path = some (.file content)) (hmem : path ∈ files)
    (hclosed : content.lease = none) :
    (ns.recordOf path content).isDamaged o.openForWrite = true ∨
      ns.IsExposed root quarantine path := by
  obtain ⟨others, hothers, hfound⟩ := (hfinds.mem_iff path).mp hmem
  obtain rfl := Namespace.file_inj hothers hn
  rcases hfound with ⟨-, hdamaged⟩ | ⟨hc, htaken⟩
  · rw [Namespace.isDamagedAt, hn] at hdamaged
    exact .inl hdamaged
  · by_cases hneg : ∃ id ∈ content.blocks, ns.IsNegative id
    · obtain ⟨hup, hscope, -⟩ := Listing.isTaken_iff.mp htaken
      exact .inr ⟨content, hn, hclosed, hneg, hc, hup, hscope⟩
    · exact .inl (Namespace.isDamaged_of_hasCorruptBlock h hn hclosed hc _ hneg)

private theorem mem_files_of_exposed {files malformed : List Path}
    (hfinds : (listing o).Finds root (some quarantine) ns files malformed) {path : Path}
    (hexposed : ns.IsExposed root quarantine path) :
    path ∈ files ∧ ns.isOpenAt path = false := by
  obtain ⟨content, hn, hclosed, -, hc, hup, hscope⟩ := hexposed
  have hopen : ns.isOpenAt path = false := by
    rw [Namespace.isOpenAt, hn]
    simp [hclosed]
  have htaken : (listing o).isTaken root (some quarantine) ns path = true :=
    Listing.isTaken_iff.mpr ⟨hup, hscope, .inl hopen⟩
  exact ⟨(hfinds.mem_iff path).mpr ⟨content, hn, .inr ⟨hc, htaken⟩⟩, hopen⟩

/-- A run acts on files that are damaged, and in listing mode on exposed ones, which it leaves alone
only where something is in the way. -/
theorem run_acts_on {depth : Nat} {ended : Except Failure Result}
    (hnames : o.Names root quarantine) (h : ns.Valid)
    (hrun : (run o depth).run onNamespace.answer ns = (ended, after)) :
    ∃ (P : Path → FileRecord → Prop) (deeds : List Deed),
      Deeds quarantine o.move P ns deeds after ∧
      (∀ path content, ns.node? path = some (.file content) →
        P path (ns.recordOf path content) →
        (ns.recordOf path content).isDamaged o.openForWrite = true ∨
          o.listCorrupt = true ∧ ns.IsExposed root quarantine path) ∧
      (o.listCorrupt = true → ∀ result, ended = .ok result →
        ∀ path, ns.IsExposed root quarantine path →
          path ∈ deeds.map Deed.path ∨ LeftAlone o quarantine P ns path) := by
  cases hl : o.listCorrupt with
  | false =>
    obtain ⟨deeds, hdeeds, -⟩ := full_deeds hnames hl h hrun
    exact ⟨_, deeds, hdeeds, fun _ _ _ hacts => .inl hacts.1, by simp⟩
  | true =>
    rcases list_ended hnames hl h hrun with
      ⟨hnone, rfl, -⟩ | ⟨_, _, failure, -, -, rfl, hfailure⟩ |
      ⟨files, malformed, treated, deeds, made, -, hfinds, hdeeds, htreats, -, -⟩
    · refine ⟨fun _ _ => False, [], .nil, by simp, fun _ result hresult path hexposed => ?_⟩
      obtain ⟨content, hn, -, -, -, hup, -⟩ := hexposed
      rw [Namespace.none_under_none hnone hup] at hn
      cases hn
    · refine ⟨fun _ _ => False, [], .nil, by simp, fun _ result hresult => ?_⟩
      rw [hfailure] at hresult
      cases hresult
    · refine ⟨_, deeds, hdeeds, fun path content hn hlisted => ?_, fun _ _ _ path hexposed => ?_⟩
      · have hclosed : content.lease = none := by
          have hopen : content.lease.isSome = false := hlisted.2
          simpa using hopen
        exact (damaged_or_exposed h hfinds hn hlisted.1 hclosed).imp_right fun he => ⟨rfl, he⟩
      · obtain ⟨hmem, hopen⟩ := mem_files_of_exposed hfinds hexposed
        exact htreats.each path
          (List.mem_filter.mpr ⟨mem_sortedBy.mpr hmem, by simp [hopen]⟩)

private theorem not_leftAlone_of_fresh {P : Path → FileRecord → Prop} (h : ns.Valid)
    (hfresh : ns.IsFresh quarantine) (hm : o.move = true) {path : Path} {content : FileNode}
    (hn : ns.node? path = some (.file content)) : ¬ LeftAlone o quarantine P ns path := by
  intro hleft
  obtain ⟨deeds, between, hdeeds, hnot, hinside⟩ := hleft.2 hm
  have hq := hinside (hdeeds.free_of_fresh h hfresh (hdeeds.direct_of_fresh h hfresh) hn hnot)
    (hdeeds.keeps_clear h hfresh.1)
  by_cases hsame : path = quarantine
  · exact hfresh.1 (hsame ▸ List.prefix_refl _) hn
  · simp [hfresh.2 path hq hsame] at hn

/-- A listing that gives a result has deleted every exposed file, or has moved it if the quarantine
directory was fresh. -/
theorem exposed_gone {depth : Nat} {result : Result} (hnames : o.Names root quarantine)
    (h : ns.Valid) (hl : o.listCorrupt = true)
    (hrun : (run o depth).run onNamespace.answer ns = (.ok result, after)) {path : Path}
    (hexposed : ns.IsExposed root quarantine path) :
    (o.delete = true → after.node? path = none) ∧
      (o.move = true → ns.IsFresh quarantine → after.node? path = none ∧
        after.node? (quarantine ++ path) = ns.node? path) := by
  obtain ⟨P, deeds, hdeeds, -, htreated⟩ := run_acts_on hnames h hrun
  have hacted := hdeeds.acted h
  have htreated := htreated hl result rfl path hexposed
  constructor
  · intro hdelete
    rcases htreated with hmem | ⟨hnot, -⟩
    · obtain ⟨deed, hdeed, rfl⟩ := List.mem_map.mp hmem
      exact hacted.gone deed hdeed
    · simp [hnot] at hdelete
  · intro hm hfresh
    obtain ⟨content, hn, -⟩ := hexposed
    have hmem := htreated.resolve_right (not_leftAlone_of_fresh h hfresh hm hn)
    obtain ⟨deed, hdeed, rfl⟩ := List.mem_map.mp hmem
    refine ⟨hacted.gone deed hdeed, ?_⟩
    cases deed with
    | moved path target =>
      rw [Deed.path, ← hdeeds.direct_of_fresh h hfresh hdeed]
      exact hacted.moved hdeed
    | deleted path => simpa [Deed.isMove, hm] using hacted.kind _ hdeed

/-- All that a run acts on is damaged exactly if no exposed file is acted on in listing mode. A
listing that gives a result acts on each of them if it deletes files, or moves them into a fresh
quarantine directory. -/
theorem acts_on_damaged_iff (hns : ns.Reachable) {raw o : Options} (hvalid : raw.validate = .ok o)
    (hroot : Path.ofText o.path = .ok root) (hq : Path.ofText o.quarantine = .ok quarantine)
    {depth : Nat} {ended : Except Failure Result}
    (hrun : (run o depth).run onNamespace.answer ns = (ended, after)) :
    ((∀ path content, ns.node? path = some (.file content) →
        after.node? path ≠ some (.file content) →
        (ns.recordOf path content).isDamaged o.openForWrite = true) ↔
      (o.listCorrupt = true → ∀ path, ns.IsExposed root quarantine path →
        after.node? path = ns.node? path)) ∧
    (o.listCorrupt = true → ∀ result, ended = .ok result →
      ∀ path, ns.IsExposed root quarantine path →
        (o.delete = true → after.node? path = none) ∧
        (o.move = true → ns.IsFresh quarantine → after.node? path = none ∧
          after.node? (quarantine ++ path) = ns.node? path)) := by
  have h := hns.valid
  have hnames := Options.names_of_validate hvalid hroot hq
  obtain ⟨P, deeds, hdeeds, hacts, -⟩ := run_acts_on hnames h hrun
  have hacted := hdeeds.acted h
  refine ⟨⟨fun hdamaged _ path hexposed => ?_, fun hkept path content hn hne => ?_⟩,
    fun hl result hresult path hexposed => ?_⟩
  · have ⟨content, hn, _⟩ := hexposed
    rw [hn]
    by_contra hne
    exact hexposed.not_damaged h hn _ (hdamaged path content hn hne)
  · obtain ⟨deed, hdeed, rfl⟩ := List.mem_map.mp ((hacted.mem_iff hn).mpr hne)
    obtain ⟨others, hothers, hP⟩ := hacted.source deed hdeed
    rcases hacts _ _ hothers hP with hdamaged | ⟨hl, hexposed⟩
    · rw [Namespace.file_inj hn hothers] at hdamaged
      exact hdamaged
    · exact absurd ((hkept hl _ hexposed).trans hn) hne
  · rw [hresult] at hrun
    exact exposed_gone hnames h hl hrun hexposed

/-- Such a listing that deletes the only file, which is exposed. -/
theorem acts_on_damaged_iff_of_delete : ∃ result after,
    (run { path := "/", delete := true, listCorrupt := true } 10).run onNamespace.answer
        (oneCorruptFile none (-1)) = (.ok result, after) ∧
      (oneCorruptFile none (-1)).IsExposed [] ["lost+found"] ["a"] ∧
      after.node? ["a"] = none := by
  have hvalid : Options.validate { path := "/", delete := true, listCorrupt := true } =
    .ok { path := "/", delete := true, listCorrupt := true } := by decide +kernel
  have hroot : Path.ofText "/" = .ok [] := by decide +kernel
  have hq : Path.ofText "/lost+found" = .ok ["lost+found"] := by decide +kernel
  have hok : ((run { path := "/", delete := true, listCorrupt := true } 10).run
    onNamespace.answer (oneCorruptFile none (-1))).1.isOk = true := by decide +kernel
  have hfile : (oneCorruptFile none (-1)).node? ["a"] = some (.file
    { replication := 1, blocks := ["blk_1", "blk_2"] }) := by decide +kernel
  have hblock : (oneCorruptFile none (-1)).blocks.get? "blk_2" = some
    { length := -1, copies := .ofList [("n1", { length := 4 })] } := by decide +kernel
  have hexposed : (oneCorruptFile none (-1)).IsExposed [] ["lost+found"] ["a"] := by
    refine ⟨_, hfile, rfl, ⟨"blk_2", by simp, _, hblock, by decide⟩, by decide +kernel, ?_⟩
    simp
  obtain ⟨result, hrun⟩ := run_eq_of_isOk hok
  have hiff := acts_on_damaged_iff (oneCorruptFile_reachable none (-1)) hvalid hroot hq hrun
  exact ⟨result, _, hrun, hexposed, (hiff.2 rfl result rfl ["a"] hexposed).1 rfl⟩

/-- A listing deletes a file that has not been judged damaged. -/
theorem listing_deletes_malformed_file : ∃ result after content,
    (run { path := "/", delete := true, listCorrupt := true } 10).run onNamespace.answer
        (oneCorruptFile none (-1)) = (.ok result, after) ∧
      (oneCorruptFile none (-1)).node? ["a"] = some (.file content) ∧
      ((oneCorruptFile none (-1)).recordOf ["a"] content).isDamaged false = false ∧
      after.node? ["a"] = none := by
  have hok : ((run { path := "/", delete := true, listCorrupt := true } 10).run
    onNamespace.answer (oneCorruptFile none (-1))).1.isOk = true := by decide +kernel
  obtain ⟨result, hrun⟩ := run_eq_of_isOk hok
  refine ⟨result, _, { replication := 1, blocks := ["blk_1", "blk_2"] }, hrun, ?_, ?_, ?_⟩
  · decide +kernel
  · decide +kernel
  · decide +kernel

end Checker

end BlockFsck
