import BlockFsck.Proofs.Enumeration
import BlockFsck.Proofs.Listing

/-!
# Exactly the files with a corrupt or missing block

What a listing of a namespace that nobody else changes gives is known from the namespace alone: the
files that are judged corrupt or missing, those of which a block has corrupt copies only, which of
them are open and which files could not be judged (`run_exact`).
-/

namespace BlockFsck

open Metadata (onNamespace)

variable {ns : Namespace} {root : Path} {quarantine : Option Path} {path : Path}
  {content : FileNode} {openVisible : Bool}

namespace Namespace

/-- The file is judged, and corrupt or missing. -/
def IsJudgedLost (ns : Namespace) (openVisible : Bool) (path : Path) (content : FileNode) : Prop :=
  ∃ health, FileHealth.ofRecord (ns.recordOf path content) openVisible = .ok health ∧
    (health.verdict = .corrupt ∨ health.verdict = .missing)

/-- Some block of the file has copies, and all of them are corrupt. -/
def HasOnlyCorruptCopies (ns : Namespace) (content : FileNode) : Prop :=
  ∃ id ∈ content.blocks, ∃ block, ns.blocks.get? id = some block ∧ block.copies.entries ≠ [] ∧
    ∀ copy ∈ block.copies.entries, copy.2.corrupt = true

/-- There is a file that cannot be judged. -/
def IsRefusedAt (ns : Namespace) (openVisible : Bool) (path : Path) : Prop :=
  ∃ content malformed, ns.node? path = some (.file content) ∧
    FileHealth.ofRecord (ns.recordOf path content) openVisible = .error malformed

private theorem isDamagedAt_iff_isJudgedLost (hn : ns.node? path = some (.file content)) :
    ns.isDamagedAt openVisible path = true ↔ ns.IsJudgedLost openVisible path content := by
  rw [isDamagedAt, hn]
  dsimp only
  rw [FileRecord.isDamaged, IsJudgedLost]
  cases FileHealth.ofRecord (ns.recordOf path content) openVisible with
  | error malformed => simp
  | ok health => simp [FileHealth.isCorrupt, Verdict.isLoss]

private theorem hasCorruptBlock_iff :
    ns.hasCorruptBlock (.file content) = true ↔ ns.HasOnlyCorruptCopies content := by
  simp only [hasCorruptBlock, Node.blocks, List.any_eq_true, Option.any_eq_true, Block.isCorrupt,
    Bool.and_eq_true, List.all_eq_true, HasOnlyCorruptCopies]
  refine exists_congr fun id => and_congr_right fun _ => exists_congr fun block =>
    and_congr_right fun _ => and_congr_left fun _ => ?_
  simp

private theorem isMalformedAt_iff_isRefusedAt :
    ns.isMalformedAt openVisible path = true ↔ ns.IsRefusedAt openVisible path := by
  rw [isMalformedAt, IsRefusedAt]
  cases hn : ns.node? path with
  | none => simp
  | some node =>
    cases node with
    | directory => simp
    | file content =>
      simp only [List.any_eq_true, decide_eq_true_eq, Option.some.injEq, Node.file.injEq,
        exists_and_left, exists_eq_left', FileHealth.ofRecord_error]

end Namespace

namespace Listing

variable {listing : Listing}

/-- The file is to be listed: it is judged corrupt or missing, and not strictly below the quarantine
directory, or it has a block with corrupt copies only and is not at or below that directory, in
either case unless the listing starts in there. -/
def Belongs (listing : Listing) (ns : Namespace) (root : Path) (quarantine : Option Path)
    (path : Path) : Prop :=
  ∃ content, ns.node? path = some (.file content) ∧ root <+: path ∧
    (content.lease = none ∨ listing.openVisible = true) ∧
    (ns.IsJudgedLost listing.openVisible path content ∧
        (∀ q ∈ quarantine, q <+: root ∨ ¬ (q <+: path ∧ path ≠ q)) ∨
      ns.HasOnlyCorruptCopies content ∧ ∀ q ∈ quarantine, q <+: root ∨ ¬ q <+: path)

/-- The files and the notes of a listing are what they should be, after a walk through these
paths. -/
structure IsExact (listing : Listing) (ns : Namespace) (root : Path) (quarantine : Option Path)
    (walked : List Path) (files : List String) (notes : ListingNotes) : Prop where
  ascending : files.Pairwise (· < ·)
  mem_iff : ∀ text, text ∈ files ↔
    ∃ path : Path, path.text = text ∧ listing.Belongs ns root quarantine path
  open_iff : ∀ text, text ∈ notes.openFiles ↔ text ∈ files ∧ ∃ (path : Path) (content : FileNode),
    path.text = text ∧ ns.node? path = some (.file content) ∧ content.lease.isSome = true
  malformed_eq : ∃ malformed : List Path, notes.malformed = malformed.map Path.text ∧
    malformed.Sublist walked ∧ ∀ path, path ∈ malformed ↔
      path ∈ walked ∧ ns.IsRefusedAt listing.openVisible path

private theorem Finds.mem_iff_belongs (h : ns.Valid) {files malformed : List Path}
    (hfinds : listing.Finds root quarantine ns files malformed) (path : Path) :
    path ∈ files ↔ listing.Belongs ns root quarantine path := by
  rw [hfinds.mem_iff, Belongs]
  refine exists_congr fun content => and_congr_right fun hn => ?_
  have hopen : ns.isOpenAt path = false ↔ content.lease = none := by
    rw [Namespace.isOpenAt, hn]
    simp
  have hseen : ns.isDamagedAt listing.openVisible path = true →
      content.lease = none ∨ listing.openVisible = true :=
    h.seen_of_isDamagedAt hn
  have hscope : Walk.Scope root quarantine path ↔
      root <+: path ∧ ∀ q ∈ quarantine, q <+: root ∨ ¬ (q <+: path ∧ path ≠ q) := by
    simp only [Walk.Scope, not_and, not_not, ne_eq]
  rw [isTaken_iff_forall, Namespace.hasCorruptBlock_iff, hopen, hscope,
    ← Namespace.isDamagedAt_iff_isJudgedLost hn]
  constructor
  · rintro (⟨⟨hroot, hq⟩, hd⟩ | ⟨hc, hroot, hq, hl⟩)
    · exact ⟨hroot, hseen hd, .inl ⟨hd, hq⟩⟩
    · exact ⟨hroot, hl, .inr ⟨hc, hq⟩⟩
  · rintro ⟨hroot, hl, ⟨hd, hq⟩ | ⟨hc, hq⟩⟩
    · exact .inl ⟨⟨hroot, hq⟩, hd⟩
    · exact .inr ⟨hc, hroot, hq, hl⟩

private theorem Visits.of_enumerates {visited : List (Path × EntryKind)}
    (henumerates : Walk.Enumerates ns root quarantine visited) :
    Visits ns root quarantine (visited.map Prod.fst) where
  ordered := List.pairwise_map.mpr henumerates.ascending
  mem_iff := by
    intro path
    rw [List.mem_map]
    constructor
    · intro hmem
      obtain ⟨⟨_, kind⟩, hvisited, rfl⟩ := hmem
      obtain ⟨node, hn, -, hin⟩ := (henumerates.mem_iff _ _).mp hvisited
      exact ⟨node, hn, (Walk.visible_iff hn).mpr hin⟩
    · intro hin
      obtain ⟨node, hn, hv⟩ := hin
      exact ⟨(path, node.kind),
        (henumerates.mem_iff _ _).mpr ⟨node, hn, rfl, (Walk.visible_iff hn).mp hv⟩, rfl⟩

private theorem Finds.isExact (h : ns.Valid) {files malformed walked : List Path} {found : Found}
    (hfinds : listing.Finds root quarantine ns files malformed)
    (hholds : Holds ns (files.map Path.text) malformed found)
    (hvisits : Visits ns root quarantine walked) :
    listing.IsExact ns root quarantine walked ((sortedBy Path.text files).map Path.text)
      found.notes where
  ascending := by
    refine List.pairwise_map.mpr (sortedBy_strict (Path.nodup_texts hfinds.nodup ?_))
    intro path hmem
    obtain ⟨_, hn⟩ := hfinds.file hmem
    exact h.toIsTree.path_valid hn
  mem_iff := by
    intro text
    simp only [List.mem_map, mem_sortedBy, hfinds.mem_iff_belongs h, and_comm]
  open_iff := by
    intro text
    rw [hholds.open_iff, List.mem_map, List.mem_map]
    simp only [mem_sortedBy]
    refine and_congr_right fun hlisted => ?_
    obtain ⟨path, hmem, rfl⟩ := hlisted
    obtain ⟨content, hn⟩ := hfinds.file hmem
    have hv := h.toIsTree.path_valid hn
    rw [Path.ofText_text hv]
    simp only [Except.ok.injEq, exists_eq_left', Namespace.isOpenAt, hn]
    constructor
    · intro hopen
      exact ⟨path, content, rfl, hn, hopen⟩
    · intro hopen
      obtain ⟨other, found, he, hother, hopen⟩ := hopen
      obtain rfl := (Path.text_inj (h.toIsTree.path_valid hother) hv).mp he
      obtain rfl : found = content := by simpa [hn, eq_comm] using hother
      exact hopen
  malformed_eq := by
    have hiff : ∀ path, path ∈ malformed ↔
        path ∈ walked ∧ ns.IsRefusedAt listing.openVisible path := by
      intro path
      rw [hfinds.malformed_iff, Namespace.isMalformedAt_iff_isRefusedAt]
      refine and_congr_left fun hrefused => ?_
      obtain ⟨content, -, hn, -⟩ := hrefused
      exact (hvisits.mem_file hn).symm
    have hfiltered : malformed = walked.filter (ns.isMalformedAt listing.openVisible) := by
      refine Path.eq_of_before hfinds.malformed_ordered
        (hvisits.ordered.sublist List.filter_sublist) ?_
      intro path
      rw [hiff, List.mem_filter, Namespace.isMalformedAt_iff_isRefusedAt]
    exact ⟨malformed, hholds.malformed_eq, hfiltered ▸ List.filter_sublist, hiff⟩

private theorem run_forgets {τ : Type} {service : Metadata.Service (StateM τ)} (listing : Listing)
    {text : String} (hroot : Path.ofText text = .ok root)
    (hq : listing.quarantine.mapM Path.ofText = .ok quarantine) (depth : Nat) (before : Found)
    (t : τ) :
    (listing.run depth text).runOn service before t =
      (listing.run depth text).runOn service {} t := by
  have hnormal : Path.normalize text = .ok root.text := Path.normalize_eq_ok.mpr ⟨root, hroot, rfl⟩
  rw [run, Walk.make_of_ofText text hq, hnormal]
  simp only [Check.runOn_bind, Check.runOn_ofPath_ok, Check.runOn_modify]

/-- A listing of what is there gives, whatever the same listing has found before, the files that
belong on the list in the order of their texts, and notes which of them are open and which files on
its walk could not be judged. -/
theorem run_exact (listing : Listing) (hns : ns.Reachable) {text : String}
    (hroot : Path.ofText text = .ok root) (hthere : ns.node? root ≠ none)
    (hq : listing.quarantine.mapM Path.ofText = .ok quarantine) {depth : Nat}
    (hdepth : ns.tree.height < depth) :
    ∃ (walk : Walk) (visited : List (Path × EntryKind)) (files : List String) (found : Found),
      Walk.make text listing.quarantine = .ok walk ∧
      (walk.collect depth).runOn onNamespace [] ns =
        ((.ok (), visited.map Walk.entryAt), ns) ∧
      (∀ before, (listing.run depth text).runOn onNamespace before ns = ((.ok files, found), ns)) ∧
      listing.IsExact ns root quarantine (visited.map Prod.fst) files found.notes := by
  have h := hns.valid
  obtain ⟨visited, henumerates, hwalk⟩ :=
    Walk.collect_spec h hroot (Path.valid_of_mapM_ofText hq) hdepth
  rw [if_neg hthere] at hwalk
  rcases run_spec listing h hroot hq depth {} with
    ⟨hnone, -⟩ | ⟨below, node, _, hbelow, hdeep, -⟩ |
    ⟨files, malformed, found, -, hrun, hholds, hfinds⟩
  · exact absurd hnone hthere
  · have hshort := Namespace.length_le_height hbelow
    omega
  refine ⟨_, visited, (sortedBy Path.text files).map Path.text, found, Walk.make_of_ofText text hq,
    hwalk, fun before => (run_forgets listing hroot hq depth before ns).trans hrun, ?_⟩
  exact hfinds.isExact h hholds (.of_enumerates henumerates)

/-- An open file with a corrupt block and one of negative length, neither of which is the last. -/
def unjudged : Namespace :=
  (Namespace.empty 4 1 ["n1"]).after [.createFile "/a" 12 (some 1) none (some "w"),
    .reportBadReplica "blk_1" "n1", .setBlockLength "blk_2" (-1)]

private theorem unjudged_reachable : unjudged.Reachable := ⟨4, 1, ["n1"], _, rfl⟩

/-- The file cannot be judged, but it is on the list of the service and open files are asked for. What
an earlier listing found is gone. -/
theorem run_exact_of_unjudged :
    (Path.ofText "/" = .ok [] ∧ unjudged.node? [] ≠ none ∧
      (some "//lost+found/").mapM Path.ofText = .ok (some ["lost+found"]) ∧
      unjudged.tree.height < 10) ∧
    (run { openVisible := true, quarantine := some "//lost+found/" } 10 "/").runOn onNamespace
      ⟨["/old"], ["/older"], ["/old"]⟩ unjudged =
        ((.ok ["/a"], ⟨["/a"], ["/a"], ["/a"]⟩), unjudged) ∧
    ∃ walked, IsExact { openVisible := true, quarantine := some "//lost+found/" } unjudged []
      (some ["lost+found"]) walked ["/a"] ⟨["/a"], ["/a"]⟩ := by
  have hroot : Path.ofText "/" = .ok [] := by decide +kernel
  have hthere : unjudged.node? [] ≠ none := by decide +kernel
  have hq : (some "//lost+found/").mapM Path.ofText = .ok (some ["lost+found"]) := by
    decide +kernel
  have hdepth : unjudged.tree.height < 10 := by decide +kernel
  have hlisted : ((run { openVisible := true, quarantine := some "//lost+found/" } 10 "/").runOn
      onNamespace {} unjudged).1 = (.ok ["/a"], ⟨["/a"], ["/a"], ["/a"]⟩) := by
    decide +kernel
  obtain ⟨_, visited, files, found, -, -, hrun, hexact⟩ :=
    run_exact { openVisible := true, quarantine := some "//lost+found/" } unjudged_reachable hroot
      hthere hq hdepth
  rw [hrun] at hlisted
  obtain ⟨rfl, rfl⟩ : files = ["/a"] ∧ found = ⟨["/a"], ["/a"], ["/a"]⟩ := by
    simpa using hlisted
  exact ⟨⟨hroot, hthere, hq, hdepth⟩, hrun _, visited.map Prod.fst, hexact⟩

end Listing

end BlockFsck
