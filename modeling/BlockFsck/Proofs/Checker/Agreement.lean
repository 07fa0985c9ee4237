import BlockFsck.Proofs.Checker.Malformed
import BlockFsck.Proofs.Checker.Verdict

/-!
# Listings and full checks

Where no block has a negative length, a listing finds every file that a full check calls corrupt. It
finds more only when it is to see files being written to: the list of the service goes by all blocks
of a file, the verdict leaves out the last one of such a file.
-/

namespace BlockFsck

open Metadata (onNamespace)
namespace Namespace

variable {ns : Namespace} {root quarantine path : Path}

/-- A file being written to that is on the list of the service for its last block alone. -/
def IsMisjudged (ns : Namespace) (root quarantine path : Path) : Prop :=
  ∃ content last block, ns.node? path = some (.file content) ∧ content.lease ≠ none ∧
    content.blocks.getLast? = some last ∧ ns.blocks.get? last = some block ∧
    block.isCorrupt = true ∧ ¬ ns.HasLost content true ∧
    root <+: path ∧ (quarantine <+: root ∨ ¬ quarantine <+: path)

private theorem lost_or_last {content : FileNode} (hc : ns.hasCorruptBlock (.file content) = true) :
    ns.HasLost content true ∨ content.lease ≠ none ∧ ∃ last block,
      content.blocks.getLast? = some last ∧ ns.blocks.get? last = some block ∧
        block.isCorrupt = true := by
  rw [hasCorruptBlock, Node.blocks, List.any_eq_true] at hc
  obtain ⟨id, hid, hblock⟩ := hc
  obtain ⟨block, hb, hcorrupt⟩ := (Option.any_eq_true _ _).mp hblock
  have hlost := isLost_of_isCorrupt hb hcorrupt
  by_cases hclosed : content.lease = none
  · left
    rw [HasLost, FileNode.judged_closed hclosed]
    exact ⟨id, hid, hlost⟩
  · have hopen : content.lease.isSome = true := Option.isSome_iff_ne_none.mpr hclosed
    have hjudged : content.judged true = content.blocks.dropLast := by
      simp [FileNode.judged, hopen]
    rcases List.eq_nil_or_concat content.blocks with he | ⟨front, last, he⟩
    · simp [he] at hid
    · rw [List.concat_eq_append] at he
      rw [he, List.mem_append, List.mem_singleton] at hid
      rcases hid with hfront | rfl
      · left
        rw [HasLost, hjudged, he, List.dropLast_concat]
        exact ⟨id, hfront, hlost⟩
      · exact .inr ⟨hclosed, id, block, by simp [he], hb, hcorrupt⟩

private theorem IsMisjudged.hasCorruptBlock {content : FileNode}
    (h : ns.IsMisjudged root quarantine path) (hn : ns.node? path = some (.file content)) :
    ns.hasCorruptBlock (.file content) = true := by
  obtain ⟨others, last, block, hothers, -, hlast, hb, hcorrupt, -⟩ := h
  obtain rfl := file_inj hothers hn
  rw [Namespace.hasCorruptBlock, Node.blocks, List.any_eq_true]
  refine ⟨last, List.mem_of_getLast? hlast, ?_⟩
  simp [hb, hcorrupt]

private theorem not_isNegative_of_entries (h : ∀ entry ∈ ns.blocks.entries, 0 ≤ entry.2.length)
    (id : String) : ¬ ns.IsNegative id := by
  rintro ⟨block, hb, hneg⟩
  have hlength := h _ (Table.mem_of_get? hb)
  dsimp only at hlength
  omega

/-- One file of two blocks that is being written to, of which the last has a corrupt copy only. -/
def lastBlockCorrupt : Namespace :=
  (Namespace.empty 4 1 ["n1"]).after [.createFile "/a" 8 (some 1) none (some "w"),
    .reportBadReplica "blk_2" "n1"]

private theorem lastBlockCorrupt_reachable : lastBlockCorrupt.Reachable := ⟨4, 1, ["n1"], _, rfl⟩

end Namespace

namespace Checker

open Namespace (lastBlockCorrupt lastBlockCorrupt_reachable)

variable {o o' : Options} {ns after : Namespace} {root quarantine : Path}

theorem scope_iff {path : Path} : Walk.Scope root (some quarantine) path ↔
    root <+: path ∧ (quarantine <+: root ∨ ¬ (quarantine <+: path ∧ path ≠ quarantine)) := by
  simp [Walk.Scope]

/-- No file in scope has a negative block among those that count. -/
def NoNegative (ns : Namespace) (openVisible : Bool) (root quarantine : Path) : Prop :=
  ∀ path content, ns.FileIn root quarantine path content → ¬ ns.HasNegative content openVisible

theorem NoNegative.malformed_eq_nil {files malformed : List Path} (h : ns.Valid)
    (hgood : NoNegative ns o.openForWrite root quarantine)
    (hfinds : (listing o).Finds root (some quarantine) ns files malformed) : malformed = [] := by
  apply List.eq_nil_iff_forall_not_mem.mpr
  intro path hmem
  obtain ⟨hscope, hbad⟩ := (hfinds.malformed_iff path).mp hmem
  rw [Namespace.isMalformedAt] at hbad
  cases hn : ns.node? path with
  | none => simp [hn] at hbad
  | some node =>
    cases node with
    | directory => simp [hn] at hbad
    | file content =>
      have hneg : ns.HasNegative content o.openForWrite := by
        rw [Namespace.HasNegative, ← h.negative_iff hn]
        simpa [hn, listing] using hbad
      exact hgood path content ⟨hn, scope_iff.mp hscope⟩ hneg

/-- The files of a listing are those with lost blocks and, if files being written to are to be seen,
those misjudged. -/
theorem NoNegative.mem_files_iff {files malformed : List Path} (h : ns.Valid)
    (hgood : NoNegative ns o.openForWrite root quarantine)
    (hfinds : (listing o).Finds root (some quarantine) ns files malformed) (path : Path) :
    path ∈ files ↔
      (∃ content, ns.FileIn root quarantine path content ∧ ns.HasLost content o.openForWrite) ∨
        o.openForWrite = true ∧ ns.IsMisjudged root quarantine path := by
  rw [hfinds.mem_iff]
  constructor
  · rintro ⟨content, hn, hfound⟩
    rcases hfound with ⟨hscope, hdamaged⟩ | ⟨hc, htaken⟩
    · obtain ⟨others, hothers, -, hlost⟩ := h.isDamagedAt_iff.mp hdamaged
      exact .inl ⟨others, ⟨hothers, scope_iff.mp hscope⟩, hlost⟩
    · obtain ⟨hup, hscope, hvisible⟩ := Listing.isTaken_iff.mp htaken
      have hfile : ns.FileIn root quarantine path content :=
        ⟨hn, hup, hscope.imp_right fun hout hq => hout hq.1⟩
      by_cases hclosed : content.lease = none
      · have hneg : ¬ ∃ id ∈ content.blocks, ns.IsNegative id := by
          have hnot := hgood path content hfile
          rwa [Namespace.HasNegative, FileNode.judged_closed hclosed] at hnot
        have hdamaged :=
          Namespace.isDamaged_of_hasCorruptBlock h hn hclosed hc o.openForWrite hneg
        exact .inl ⟨content, hfile, ((h.isDamaged_iff hn _).mp hdamaged).2⟩
      · have hopen : ns.isOpenAt path = true := by
          rw [Namespace.isOpenAt, hn]
          exact Option.isSome_iff_ne_none.mpr hclosed
        have hv : o.openForWrite = true := hvisible.resolve_left (by simp [hopen])
        rw [hv]
        by_cases hlost : ns.HasLost content true
        · exact .inl ⟨content, hfile, hlost⟩
        · obtain ⟨-, last, block, hlast, hb, hcorrupt⟩ :=
            (Namespace.lost_or_last hc).resolve_left hlost
          exact .inr ⟨rfl, content, last, block, hn, hclosed, hlast, hb, hcorrupt, hlost, hup,
            hscope⟩
  · rintro (⟨content, hfile, hlost⟩ | ⟨hv, hmisjudged⟩)
    · have hdamaged : ns.isDamagedAt o.openForWrite path = true :=
        h.isDamagedAt_iff.mpr ⟨content, hfile.1, hgood path content hfile, hlost⟩
      exact ⟨content, hfile.1, .inl ⟨scope_iff.mpr hfile.2, hdamaged⟩⟩
    · obtain ⟨content, -, -, hn, -, -, -, -, -, hup, hscope⟩ := id hmisjudged
      have htaken : (listing o).isTaken root (some quarantine) ns path = true :=
        Listing.isTaken_iff.mpr ⟨hup, hscope, .inr hv⟩
      exact ⟨content, hn, .inr ⟨hmisjudged.hasCorruptBlock hn, htaken⟩⟩

/-- The corrupt files of a verdict are those with lost blocks where nothing is negative. -/
theorem IsVerdict.mem_corruptFiles_iff {openVisible : Bool} {result : Result}
    (hverdict : IsVerdict ns openVisible root quarantine result)
    (hgood : NoNegative ns openVisible root quarantine) (file : String) :
    file ∈ result.corruptFiles ↔ ∃ path content, ns.FileIn root quarantine path content ∧
      ns.HasLost content openVisible ∧ path.text = file := by
  obtain ⟨corrupt, hfiles, -, hcorrupt⟩ := hverdict.corruptFiles_eq
  rw [hfiles, List.mem_map]
  constructor
  · rintro ⟨path, hmem, rfl⟩
    obtain ⟨content, hfile, -, hlost⟩ := (hcorrupt path).mp hmem
    exact ⟨path, content, hfile, hlost, rfl⟩
  · rintro ⟨path, content, hfile, hlost, rfl⟩
    exact ⟨path, (hcorrupt path).mpr ⟨content, hfile, hgood path content hfile, hlost⟩, rfl⟩

theorem IsVerdict.status_eq {openVisible : Bool} {result : Result}
    (hverdict : IsVerdict ns openVisible root quarantine result) (hsome : ns.node? root ≠ none)
    (hgood : NoNegative ns openVisible root quarantine) :
    result.status = if result.corruptFiles = [] then .healthy else .corrupt := by
  have hnofailure : result.status ≠ .failure := by
    rw [ne_eq, hverdict.failure_iff]
    rintro (hnone | ⟨path, content, hfile, hneg⟩)
    · exact hsome hnone
    · exact hgood path content hfile hneg
  have hmem := hverdict.mem_corruptFiles_iff hgood
  split_ifs with hnil
  · rw [hverdict.healthy_iff hnofailure]
    rintro ⟨path, content, hfile, hlost⟩
    have hlisted := (hmem path.text).mpr ⟨path, content, hfile, hlost, rfl⟩
    simp [hnil] at hlisted
  · rw [hverdict.corrupt_iff hnofailure]
    obtain ⟨file, hlisted⟩ := List.exists_mem_of_ne_nil _ hnil
    obtain ⟨path, content, hfile, hlost, -⟩ := (hmem file).mp hlisted
    exact ⟨path, content, hfile, hlost⟩

private theorem list_agrees {depth : Nat} (hnames : o.Names root quarantine)
    (hl : o.listCorrupt = true)
    (hm : o.move = false) (h : ns.Valid) (hsome : ns.node? root ≠ none)
    (hgood : NoNegative ns o.openForWrite root quarantine)
    (hdeep : ∀ path node, ns.node? path = some node → path.length < root.length + depth) :
    ∃ listed after, (run o depth).run onNamespace.answer ns = (.ok listed, after) ∧
      listed.status = (if listed.corruptFiles = [] then .healthy else .corrupt) ∧
      ∀ file, file ∈ listed.corruptFiles ↔
        (∃ path content, ns.FileIn root quarantine path content ∧
          ns.HasLost content o.openForWrite ∧ path.text = file) ∨
        o.openForWrite = true ∧ ∃ path, ns.IsMisjudged root quarantine path ∧ path.text = file := by
  obtain ⟨listed, after, hrun⟩ : ∃ listed after,
      (run o depth).run onNamespace.answer ns = (.ok listed, after) := by
    rcases hended : (run o depth).run onNamespace.answer ns with ⟨ended, after⟩
    rcases list_ended hnames hl h hended with
      ⟨hnone, -, -⟩ | ⟨below, node, _, hbelow, htoo, -, -⟩ |
      ⟨files, malformed, treated, deeds, made, -, -, -, -, hmade, -⟩
    · exact absurd hnone hsome
    · have hshort := hdeep below node hbelow
      omega
    · exact ⟨made, after, by rw [hmade]⟩
  obtain ⟨files, malformed, hfinds, hfiles, hstatus⟩ := list_readOnly hnames hl hm h hsome hrun
  refine ⟨listed, after, hrun, ?_, ?_⟩
  · have hempty : listed.corruptFiles = [] ↔ files = [] := by
      rw [hfiles, List.map_eq_nil_iff, ← List.length_eq_zero_iff,
        (sortedBy_perm files).length_eq, List.length_eq_zero_iff]
    rw [hstatus, if_pos (hgood.malformed_eq_nil h hfinds)]
    simp only [hempty]
  · intro file
    simp only [hfiles, List.mem_map, mem_sortedBy, hgood.mem_files_iff h hfinds]
    constructor
    · rintro ⟨path, ⟨content, hfile, hlost⟩ | ⟨hv, hmisjudged⟩, rfl⟩
      · exact .inl ⟨path, content, hfile, hlost, rfl⟩
      · exact .inr ⟨hv, path, hmisjudged, rfl⟩
    · rintro (⟨path, content, hfile, hlost, rfl⟩ | ⟨hv, path, hmisjudged, rfl⟩)
      · exact ⟨path, .inl ⟨content, hfile, hlost⟩, rfl⟩
      · exact ⟨path, .inr ⟨hv, hmisjudged⟩, rfl⟩

/-- Where no block has a negative length, a listing gives the status and the corrupt files of a full
check exactly if it is not to see files being written to or none of them is on the list of the
service for its last block alone. Otherwise it lists those as well. -/
theorem modes_agree_iff (hns : ns.Reachable) {raw raw' : Options} (hvalid : raw.validate = .ok o)
    (hvalid' : raw'.validate = .ok o') (hpath : o'.path = o.path)
    (hquarantine : o'.quarantine = o.quarantine) (hopen : o'.openForWrite = o.openForWrite)
    (hl : o.listCorrupt = true) (hm : o.move = false) (hl' : o'.listCorrupt = false)
    (hm' : o'.move = false) (hd' : o'.delete = false) (hroot : Path.ofText o.path = .ok root)
    (hq : Path.ofText o.quarantine = .ok quarantine) (hsome : ns.node? root ≠ none)
    (hgood : ∀ id, ¬ ns.IsNegative id) {depth : Nat}
    (hdeep : ∀ path node, ns.node? path = some node → path.length < root.length + depth) :
    ∃ listed after, (run o depth).run onNamespace.answer ns = (.ok listed, after) ∧
      ∀ depth' full after', (run o' depth').run onNamespace.answer ns = (.ok full, after') →
        ((listed.status = full.status ∧
            ∀ file, file ∈ listed.corruptFiles ↔ file ∈ full.corruptFiles) ↔
          (o.openForWrite = true → ∀ path, ¬ ns.IsMisjudged root quarantine path)) ∧
        ∀ file, file ∈ listed.corruptFiles ↔ file ∈ full.corruptFiles ∨
          o.openForWrite = true ∧
            ∃ path, ns.IsMisjudged root quarantine path ∧ path.text = file := by
  have h := hns.valid
  have hnames := Options.names_of_validate hvalid hroot hq
  have hnames' := Options.names_of_validate hvalid' (hpath ▸ hroot) (hquarantine ▸ hq)
  have hnoneg : ∀ openVisible, NoNegative ns openVisible root quarantine := by
    intro openVisible path content _ hneg
    obtain ⟨id, -, hid⟩ := hneg
    exact hgood id hid
  obtain ⟨listed, after, hrun, hstatus, hlisted⟩ :=
    list_agrees hnames hl hm h hsome (hnoneg _) hdeep
  refine ⟨listed, after, hrun, ?_⟩
  intro depth' full after' hfull
  have hverdict : IsVerdict ns o.openForWrite root quarantine full := by
    rcases readOnly_result hnames' hl' hm' hd' h hfull with
      ⟨hnone, -, -⟩ | ⟨paths, -, -, hordered, hpaths, -, hfullstatus, hfiles⟩
    · exact absurd hnone hsome
    · rw [← hopen]
      exact isVerdict_of_noted h hsome hordered hpaths hfullstatus hfiles
  have hmem := hverdict.mem_corruptFiles_iff (hnoneg _)
  have hunion : ∀ file, file ∈ listed.corruptFiles ↔ file ∈ full.corruptFiles ∨
      o.openForWrite = true ∧ ∃ path, ns.IsMisjudged root quarantine path ∧ path.text = file := by
    intro file
    rw [hlisted, hmem]
  refine ⟨⟨?_, ?_⟩, hunion⟩
  · -- a misjudged file would have to be on the list of the full check, which goes by its blocks
    intro hsame hv path hmisjudged
    have hin : path.text ∈ full.corruptFiles :=
      (hsame.2 _).mp ((hunion _).mpr (.inr ⟨hv, path, hmisjudged, rfl⟩))
    obtain ⟨other, content, hfile, hlost, htext⟩ := (hmem _).mp hin
    obtain ⟨others, _, _, hn, -, -, -, -, hnotlost, -⟩ := hmisjudged
    have heq : other = path := (Path.text_inj (h.toIsTree.path_valid hfile.1)
      (h.toIsTree.path_valid hn)).mp htext
    subst heq
    obtain rfl := Namespace.file_inj hn hfile.1
    rw [hv] at hlost
    exact hnotlost hlost
  · intro hnone
    have hsame : ∀ file, file ∈ listed.corruptFiles ↔ file ∈ full.corruptFiles := by
      intro file
      rw [hunion]
      constructor
      · rintro (hin | ⟨hv, path, hmisjudged, -⟩)
        · exact hin
        · exact absurd hmisjudged (hnone hv path)
      · exact .inl
    have hempty : listed.corruptFiles = [] ↔ full.corruptFiles = [] := by
      rw [List.eq_nil_iff_forall_not_mem, List.eq_nil_iff_forall_not_mem]
      simp only [hsame]
    refine ⟨?_, hsame⟩
    rw [hstatus, hverdict.status_eq hsome (hnoneg _)]
    simp only [hempty]

/-- Both modes on a namespace with one file of which only the last block is corrupt. -/
theorem modes_agree_iff_of_last_block : ∃ listed after full after',
    (run { path := "/", openForWrite := true, listCorrupt := true } 10).run onNamespace.answer
        lastBlockCorrupt = (.ok listed, after) ∧
      (run { path := "/", openForWrite := true } 10).run onNamespace.answer lastBlockCorrupt =
        (.ok full, after') ∧
      ((listed.status = full.status ∧
          ∀ file, file ∈ listed.corruptFiles ↔ file ∈ full.corruptFiles) ↔
        ∀ path, ¬ lastBlockCorrupt.IsMisjudged [] ["lost+found"] path) := by
  have hvalid : Options.validate { path := "/", openForWrite := true, listCorrupt := true } =
    .ok { path := "/", openForWrite := true, listCorrupt := true } := by decide +kernel
  have hvalid' : Options.validate { path := "/", openForWrite := true } =
    .ok { path := "/", openForWrite := true } := by decide +kernel
  have hroot : Path.ofText "/" = .ok [] := by decide +kernel
  have hq : Path.ofText "/lost+found" = .ok ["lost+found"] := by decide +kernel
  have hblocks : ∀ entry ∈ lastBlockCorrupt.blocks.entries, 0 ≤ entry.2.length := by
    decide +kernel
  have hheight : lastBlockCorrupt.tree.height < 10 := by decide +kernel
  have hdeep : ∀ path node, lastBlockCorrupt.node? path = some node →
      path.length < ([] : Path).length + 10 := by
    intro path node hn
    have hshort := Namespace.length_le_height hn
    rw [List.length_nil]
    omega
  have hok : ((run { path := "/", openForWrite := true } 10).run onNamespace.answer
    lastBlockCorrupt).1.isOk = true := by decide +kernel
  obtain ⟨full, hfull⟩ := run_eq_of_isOk hok
  obtain ⟨listed, after, hrun, hagree⟩ := modes_agree_iff lastBlockCorrupt_reachable hvalid
    hvalid' rfl rfl rfl rfl rfl rfl rfl rfl hroot hq (by simp)
    (Namespace.not_isNegative_of_entries hblocks) hdeep
  have hiff := (hagree 10 full _ hfull).1
  exact ⟨listed, after, full, _, hrun, hfull, by simpa using hiff⟩

/-- A listing calls a file corrupt that a full check does not judge by that block, as somebody is
writing to it. -/
theorem listing_judges_last_block : ∃ listed after full after',
    (run { path := "/", openForWrite := true, listCorrupt := true } 10).run onNamespace.answer
        lastBlockCorrupt = (.ok listed, after) ∧
      (run { path := "/", openForWrite := true } 10).run onNamespace.answer lastBlockCorrupt =
        (.ok full, after') ∧
      (∀ id, ¬ lastBlockCorrupt.IsNegative id) ∧
      listed.status = .corrupt ∧ listed.corruptFiles = ["/a"] ∧
      full.status = .healthy ∧ full.corruptFiles = [] := by
  have hblocks : ∀ entry ∈ lastBlockCorrupt.blocks.entries, 0 ≤ entry.2.length := by
    decide +kernel
  have hlisted : ((run { path := "/", openForWrite := true, listCorrupt := true } 10).run
    onNamespace.answer lastBlockCorrupt).1.toOption.map
      (fun result => (result.status, result.corruptFiles)) = some (.corrupt, ["/a"]) := by
    decide +kernel
  have hfull : ((run { path := "/", openForWrite := true } 10).run onNamespace.answer
    lastBlockCorrupt).1.toOption.map
      (fun result => (result.status, result.corruptFiles)) = some (.healthy, []) := by
    decide +kernel
  obtain ⟨listed, hrun, hcorrupt⟩ := run_eq_of_map _ hlisted
  obtain ⟨full, hrun', hhealthy⟩ := run_eq_of_map _ hfull
  obtain ⟨hstatus, hfiles⟩ := Prod.mk.inj hcorrupt
  obtain ⟨hstatus', hfiles'⟩ := Prod.mk.inj hhealthy
  exact ⟨listed, _, full, _, hrun, hrun', Namespace.not_isNegative_of_entries hblocks, hstatus,
    hfiles, hstatus', hfiles'⟩

end Checker

end BlockFsck
