import BlockFsck.Proofs.Checker.Verdict
import BlockFsck.Proofs.Checker.Deeds

/-!
# Deeds do not disturb the scan

A file that the walk of a full check has yet to visit is as it was when the check began, whatever
has been moved or deleted by then, and what appears on the way is none of the files to be visited.
So the judgements of a check are those of the files it started from, in the order of the walk, and
two checks of one namespace that differ in what they do with corrupt files have the same ones.
-/

namespace BlockFsck

open Metadata (onNamespace)
open Namespace (oneCorruptFile oneCorruptFile_reachable)

namespace Summary

/-- The counters without those of directories, failures and deeds. -/
def scanned (s : Summary) : Summary :=
  { s with totalDirs := 0, failedFiles := 0, movedFiles := 0, deletedFiles := 0 }

private theorem scanned_countBlock (s : Summary) (h : BlockHealth) :
    (s.countBlock h).scanned = s.scanned.countBlock h := by
  rw [countBlock, countBlock, countVerdict, countVerdict]
  cases h.verdict <;> rfl

private theorem scanned_countBlocks (s : Summary) (blocks : List BlockHealth) :
    (blocks.foldl countBlock s).scanned = blocks.foldl countBlock s.scanned := by
  induction blocks generalizing s with
  | nil => rfl
  | cons block blocks ih => rw [List.foldl_cons, List.foldl_cons, ih, scanned_countBlock]

private theorem scanned_countFile (s : Summary) (h : FileHealth) :
    (s.countFile h).scanned = s.scanned.countFile h := by
  rw [countFile, countFile]
  by_cases hskip : h.skipped = true
  · rw [if_pos hskip, if_pos hskip]
    rfl
  · rw [if_neg hskip, if_neg hskip, scanned_countBlocks]
    rfl

private theorem scanned_countAll (s : Summary) (findings : List Finding) :
    (findings.foldl count s).scanned =
      (findings.filter Finding.isFile).foldl count s.scanned := by
  induction findings generalizing s with
  | nil => rfl
  | cons finding findings ih =>
    rw [List.foldl_cons, ih]
    cases finding with
    | file health =>
      rw [List.filter_cons_of_pos rfl, List.foldl_cons, count, scanned_countFile]
      rfl
    | directory | failed | moved | deleted =>
      rw [List.filter_cons_of_neg (by simp [Finding.isFile])]
      rfl

end Summary

namespace Namespace

/-- There is a file. -/
def isFileAt (ns : Namespace) (path : Path) : Bool :=
  match ns.node? path with
  | some (.file _) => true
  | _ => false

private theorem isFileAt_iff {ns : Namespace} {path : Path} :
    ns.isFileAt path = true ↔ ∃ content, ns.node? path = some (.file content) := by
  rw [isFileAt]
  rcases ns.node? path with _ | _ | content <;> simp

private theorem isDamagedAt_of_no_file {ns : Namespace} {path : Path} (h : ns.isFileAt path = false)
    (openVisible : Bool) : ns.isDamagedAt openVisible path = false := by
  rw [isFileAt] at h
  rw [isDamagedAt]
  rcases hn : ns.node? path with _ | _ | content
  · rfl
  · rfl
  · rw [hn] at h
    cases h

end Namespace

namespace Checker

variable {o o' : Options} {start ns after after' : Namespace} {root quarantine : Path}

private theorem noted_of_no_file {path : Path} (h : start.isFileAt path = false) :
    noted o start path = .directory path.text := by
  rw [Namespace.isFileAt] at h
  rw [noted]
  rcases hn : start.node? path with _ | _ | content
  · rfl
  · rfl
  · rw [hn] at h
    cases h

private theorem noted_congr (h : o'.openForWrite = o.openForWrite) : noted o' ns = noted o ns := by
  funext path
  rw [noted, noted]
  simp only [judgement, h]

private theorem visit_scans (hnames : o.Names root quarantine) (hs : start.Valid) {path : Path}
    {kind : EntryKind} (hkind : kind = .file ↔ start.isFileAt path = true) {deeds : List Deed}
    (hdeeds : Deeds quarantine o.move (ActsOn o) start deeds ns)
    (hfresh : path ∉ deeds.map Deed.path) {scan : Scan} (ho : scan.report.closed = false) :
    ∃ others more between, (visit o ⟨path.text, kind⟩).runOn onNamespace scan ns =
        ((.ok (), scan.note (noted o start path :: others)
          (if start.isDamagedAt o.openForWrite path then [path.text] else [])), between) ∧
      (∀ finding ∈ others, finding.isFile = false) ∧
      Deeds quarantine o.move (ActsOn o) start (deeds ++ more) between ∧
      ∀ deed ∈ more, deed.path = path := by
  cases kind with
  | directory =>
    have hnot : start.isFileAt path = false := by
      simpa using mt hkind.mpr (by simp)
    refine ⟨[], [], ns, ?_, by simp, by simpa using hdeeds, by simp⟩
    rw [noted_of_no_file hnot, start.isDamagedAt_of_no_file hnot]
    exact runOn_report onNamespace ho _ ns
  | file =>
    obtain ⟨content, hstart⟩ := Namespace.isFileAt_iff.mp (hkind.mp rfl)
    have hacted := hdeeds.acted hs
    have hn : ns.node? path = some (.file content) := by
      rw [hacted.kept hfresh (by simp [hstart]), hstart]
    have hrecord := hacted.recordOf_eq hs hstart (Deed.not_deleted hfresh) path
    have hnoted : noted o start path = judgement o (start.recordOf path content) := by
      rw [noted, hstart]
    have hdamaged : start.isDamagedAt o.openForWrite path =
        (start.recordOf path content).isDamaged o.openForWrite := by
      rw [Namespace.isDamagedAt, hstart]
    obtain ⟨others, between, hrun, hothers, hcome⟩ := visitFile_spec hnames hacted.valid ho hn
    rw [hrecord] at hrun hcome
    rw [hnoted, hdamaged]
    rcases hcome with ⟨rfl, -, -⟩ | ⟨deed, rfl, -, hmoves, hP, hd⟩
    · exact ⟨others, [], between, hrun, hothers, by simpa using hdeeds, by simp⟩
    · exact ⟨others, [deed], between, hrun, hothers, hdeeds.snoc hmoves hn (hrecord ▸ hP) hd,
        by simp⟩

private theorem visits_scan (hnames : o.Names root quarantine) (hs : start.Valid)
    {visited : List (Path × EntryKind)} (hnodup : (visited.map Prod.fst).Nodup)
    (hkinds : ∀ e ∈ visited, e.2 = .file ↔ start.isFileAt e.1 = true) {deeds : List Deed}
    (hdeeds : Deeds quarantine o.move (ActsOn o) start deeds ns)
    (hfresh : ∀ e ∈ visited, e.1 ∉ deeds.map Deed.path) {scan scan' : Scan}
    (ho : scan.report.closed = false)
    (hrun : Check.runOn onNamespace (visited.forM fun e => visit o ⟨e.1.text, e.2⟩) scan ns =
      ((.ok (), scan'), after)) :
    ∃ told, scan' = scan.note told
        (((visited.map Prod.fst).filter (start.isDamagedAt o.openForWrite)).map Path.text) ∧
      told.filter Finding.isFile =
        ((visited.map Prod.fst).map (noted o start)).filter Finding.isFile := by
  induction visited generalizing ns deeds scan with
  | nil =>
    cases hrun
    exact ⟨[], by simp [Scan.note, Report.addAll], rfl⟩
  | cons e visited ih =>
    obtain ⟨hnew, hrestnodup⟩ := List.nodup_cons.mp hnodup
    obtain ⟨others, more, between, hvisit, hothers, hbetween, hpath⟩ :=
      visit_scans hnames hs (hkinds e (List.mem_cons_self ..)) hdeeds
        (hfresh e (List.mem_cons_self ..)) ho
    rw [Check.runOn_forM_cons, hvisit] at hrun
    have hrestfresh : ∀ e' ∈ visited, e'.1 ∉ (deeds ++ more).map Deed.path := by
      intro e' he' hmem
      rw [List.map_append, List.mem_append] at hmem
      rcases hmem with hmem | hmem
      · exact hfresh e' (List.mem_cons_of_mem _ he') hmem
      · obtain ⟨deed, hdeed, he⟩ := List.mem_map.mp hmem
        rw [hpath deed hdeed] at he
        exact hnew (List.mem_map.mpr ⟨e', he', he.symm⟩)
    obtain ⟨told, hscan, htold⟩ :=
      ih hrestnodup (fun e' he' => hkinds e' (List.mem_cons_of_mem _ he')) hbetween hrestfresh
        (by rw [Scan.closed_note, ho]) hrun
    have hnone : others.filter Finding.isFile = [] := by
      rw [List.filter_eq_nil_iff]
      intro finding hmem
      simp [hothers finding hmem]
    refine ⟨(noted o start e.1 :: others) ++ told, ?_, ?_⟩
    · rw [hscan, Scan.note_note, List.map_cons, List.filter_cons]
      split_ifs <;> rfl
    · rw [List.filter_append, List.filter_cons, hnone, htold, List.map_cons, List.map_cons,
        List.filter_cons]
      split_ifs <;> rfl

section Tours

variable {I : Scan → Namespace → Prop} {visited : List (Path × EntryKind)} {scan scan' : Scan}

private theorem kind_eq_file_iff
    (h : Walk.Tour (visit o) root (some quarantine) I (root <+: ·) scan start visited scan' after)
    {e : Path × EntryKind} (he : e ∈ visited) : e.2 = .file ↔ start.isFileAt e.1 = true := by
  rw [Namespace.isFileAt]
  cases hn : start.node? e.1 with
  | none => simp [h.unknown e he hn]
  | some node =>
    rw [← h.known e he node hn]
    cases node <;> simp [Node.kind]

private theorem mem_visited_files_iff
    (h : Walk.Tour (visit o) root (some quarantine) I (root <+: ·) scan start visited scan' after)
    {path : Path} : path ∈ (visited.map Prod.fst).filter start.isFileAt ↔
      ∃ content, start.FileIn root quarantine path content := by
  rw [List.mem_filter, Namespace.isFileAt_iff, List.mem_map]
  constructor
  · rintro ⟨⟨e, he, rfl⟩, content, hn⟩
    have hvisible := (h.visible e he).2
    rw [← h.known e he _ hn] at hvisible
    exact ⟨content, hn, visible_file_iff.mp hvisible⟩
  · rintro ⟨content, hn, hscope⟩
    have hvisible : Walk.Visible root (some quarantine) path (Node.file content).kind :=
      visible_file_iff.mpr hscope
    exact ⟨⟨_, h.complete hscope.1 hvisible hn, rfl⟩, content, hn⟩

end Tours

private theorem filter_noted (paths : List Path) :
    (paths.map (noted o start)).filter Finding.isFile =
      ((paths.filter start.isFileAt).map (noted o start)).filter Finding.isFile := by
  induction paths with
  | nil => rfl
  | cons path paths ih =>
    rw [List.map_cons, List.filter_cons, List.filter_cons, ih]
    by_cases hfile : start.isFileAt path = true
    · rw [if_pos hfile, List.map_cons, List.filter_cons]
    · rw [if_neg hfile, noted_of_no_file (by simpa using hfile)]
      rfl

private theorem filter_damaged (paths : List Path) (openVisible : Bool) :
    paths.filter (start.isDamagedAt openVisible) =
      (paths.filter start.isFileAt).filter (start.isDamagedAt openVisible) := by
  rw [List.filter_filter]
  apply List.filter_congr
  intro path _
  cases hfile : start.isFileAt path with
  | true => rw [Bool.and_true]
  | false => rw [start.isDamagedAt_of_no_file hfile, Bool.false_and]

/-- A result that comes from the files in scope, judged in the order of the walk as they are. -/
structure ScansFiles (o : Options) (start : Namespace) (files : List Path)
    (result : Result) : Prop where
  summary_eq : result.summary.map Summary.scanned =
    some (((files.map (noted o start)).filter Finding.isFile).foldl Summary.count {})
  corruptFiles_eq : result.corruptFiles =
    (files.filter (start.isDamagedAt o.openForWrite)).map Path.text

private theorem full_scans {depth : Nat} {result : Result} (hnames : o.Names root quarantine)
    (hl : o.listCorrupt = false) (hs : start.Valid)
    (hrun : (run o depth).run onNamespace.answer start = (.ok result, after)) :
    (start.node? root = none ∧ result = failed o (Failure.pathNotFound root.text).message) ∨
    ∃ files : List Path, start.node? root ≠ none ∧ files.Pairwise Path.Before ∧
      (∀ path, path ∈ files ↔ ∃ content, start.FileIn root quarantine path content) ∧
      ScansFiles o start files result := by
  rcases full_ended hnames hl (gentle_full hnames hs) ⟨[], [], rfl, rfl, .nil⟩ hrun with
    ⟨hnone, -, hfailed⟩ | ⟨failure, scan, hfailure, -⟩ |
    ⟨visited, scan, made, hsome, hmade, htour, hsums⟩
  · exact .inl ⟨hnone, Except.ok.inj hfailed⟩
  · cases hfailure
  right
  obtain rfl := Except.ok.inj hmade
  have hordered : (visited.map Prod.fst).Pairwise Path.Before :=
    List.pairwise_map.mpr htour.ordered
  obtain ⟨told, rfl, htold⟩ := visits_scan hnames hs (Path.nodup_of_before hordered)
    (fun _ he => kind_eq_file_iff htour he) .nil (by simp) rfl htour.runs
  refine ⟨(visited.map Prod.fst).filter start.isFileAt, hsome,
    hordered.sublist List.filter_sublist, fun _ => mem_visited_files_iff htour, ?_, ?_⟩
  · rw [hsums.summary_eq, Option.map_some]
    change some (Summary.scanned ((blank o).report.addAll told).summary) = _
    rw [Report.summary_addAll, Summary.scanned_countAll, htold, filter_noted]
    rfl
  · rw [hsums.corruptFiles_eq, ← filter_damaged]
    rfl

/-- Full checks of one namespace scan the same, whether they only read, move or delete. -/
theorem scan_unperturbed (hns : start.Reachable) {raw raw' : Options}
    (hvalid : raw.validate = .ok o) (hvalid' : raw'.validate = .ok o') (hpath : o'.path = o.path)
    (hquarantine : o'.quarantine = o.quarantine) (hopen : o'.openForWrite = o.openForWrite)
    (hl : o.listCorrupt = false) (hl' : o'.listCorrupt = false) {depth depth' : Nat}
    {result result' : Result}
    (hrun : (run o depth).run onNamespace.answer start = (.ok result, after))
    (hrun' : (run o' depth').run onNamespace.answer start = (.ok result', after')) :
    result'.corruptFiles = result.corruptFiles ∧
      result'.summary.map Summary.scanned = result.summary.map Summary.scanned := by
  have hs := hns.valid
  obtain ⟨root, quarantine, hnames⟩ := Options.exists_names hvalid
  have hnames' : o'.Names root quarantine := by
    obtain ⟨root', quarantine', hnames'⟩ := Options.exists_names hvalid'
    exact ⟨hpath.trans hnames.path_eq, hquarantine.trans hnames.quarantine_eq,
      hnames.root_valid, hnames.quarantine_valid, hnames'.exclusive⟩
  rcases full_scans hnames hl hs hrun with ⟨hnone, rfl⟩ | ⟨files, hsome, hordered, hmem, hscans⟩
  · rcases full_scans hnames' hl' hs hrun' with ⟨-, rfl⟩ | ⟨_, hsome, -⟩
    · exact ⟨rfl, rfl⟩
    · exact absurd hnone hsome
  · rcases full_scans hnames' hl' hs hrun' with
      ⟨hnone, -⟩ | ⟨files', -, hordered', hmem', hscans'⟩
    · exact absurd hnone hsome
    have hfiles : files' = files :=
      Path.eq_of_before hordered' hordered fun path => (hmem' path).trans (hmem path).symm
    constructor
    · rw [hscans'.corruptFiles_eq, hscans.corruptFiles_eq, hfiles, hopen]
    · rw [hscans'.summary_eq, hscans.summary_eq, hfiles, noted_congr hopen]

/-- A check that moves a corrupt file and one that only reads. -/
theorem scan_unperturbed_of_move : ∃ moving reading,
    ((run { path := "/", move := true } 10).run onNamespace.answer (oneCorruptFile none 4)).1 =
        .ok moving ∧
      ((run { path := "/" } 10).run onNamespace.answer (oneCorruptFile none 4)).1 = .ok reading ∧
      moving.corruptFiles = reading.corruptFiles ∧
      moving.summary.map Summary.scanned = reading.summary.map Summary.scanned := by
  have hvalid : Options.validate { path := "/" } = .ok { path := "/" } := by decide +kernel
  have hvalid' : Options.validate { path := "/", move := true } =
    .ok { path := "/", move := true } := by decide +kernel
  have hreads : ((run { path := "/" } 10).run onNamespace.answer
      (oneCorruptFile none 4)).1.isOk = true := by decide +kernel
  have hmoves : ((run { path := "/", move := true } 10).run onNamespace.answer
      (oneCorruptFile none 4)).1.isOk = true := by decide +kernel
  obtain ⟨reading, hreading⟩ := run_eq_of_isOk hreads
  obtain ⟨moving, hmoving⟩ := run_eq_of_isOk hmoves
  refine ⟨moving, reading, by rw [hmoving], by rw [hreading], ?_⟩
  exact scan_unperturbed (oneCorruptFile_reachable none 4) hvalid hvalid' rfl rfl rfl rfl rfl
    hreading hmoving

end Checker

end BlockFsck
