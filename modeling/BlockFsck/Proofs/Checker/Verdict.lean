import BlockFsck.Proofs.Checker.Run

/-!
# The verdict of a check that changes nothing

A full check that neither moves nor deletes judges every file in scope once, in the order of the
walk, and its status and its list of corrupt files follow from the blocks of those files alone.
-/

namespace BlockFsck

open Metadata (onNamespace)
open Namespace (oneCorruptFile oneCorruptFile_reachable)

namespace Namespace

/-- A file that a check of the root judges: one below the root that is not strictly below the
quarantine directory, unless the root is in there. -/
def FileIn (ns : Namespace) (root quarantine path : Path) (content : FileNode) : Prop :=
  ns.node? path = some (.file content) ∧ root <+: path ∧
    (quarantine <+: root ∨ ¬ (quarantine <+: path ∧ path ≠ quarantine))

end Namespace

namespace Checker

variable {o : Options} {ns after : Namespace} {root quarantine : Path}

theorem visible_file_iff {path : Path} {content : FileNode} :
    Walk.Visible root (some quarantine) path (Node.file content).kind ↔
      root <+: path ∧ (quarantine <+: root ∨ ¬ (quarantine <+: path ∧ path ≠ quarantine)) := by
  simp [Walk.Visible, Walk.Scope, Node.kind]

theorem isFailure_judgement {record : FileRecord} :
    (judgement o record).isFailure = true ↔
      ∃ block ∈ record.judged o.openForWrite, block.length < 0 := by
  rw [← FileHealth.ofRecord_error, judgement]
  cases FileHealth.ofRecord record o.openForWrite <;> simp [Finding.isFailure]

private theorem isLoss_judgement {record : FileRecord} :
    (judgement o record).isLoss = record.isDamaged o.openForWrite := by
  rw [judgement, FileRecord.isDamaged]
  cases h : FileHealth.ofRecord record o.openForWrite with
  | error malformed => rfl
  | ok health =>
    have hj := FileHealth.judges_of_ok h
    have hany : health.blocks.any (·.verdict.isLoss) = health.isCorrupt := by
      rw [Bool.eq_iff_iff, List.any_eq_true]
      exact hj.some_loss
    dsimp only [Finding.isLoss]
    rw [hany, Bool.or_self]
    by_cases hc : health.isCorrupt = true
    · rw [hc, hj.looked_at hc]
      rfl
    · simp [hc]

/-- What a check notes of an entry. -/
def noted (o : Options) (ns : Namespace) (path : Path) : Finding :=
  match ns.node? path with
  | some (.file content) => judgement o (ns.recordOf path content)
  | _ => .directory path.text

private theorem isLoss_noted (path : Path) :
    (noted o ns path).isLoss = ns.isDamagedAt o.openForWrite path := by
  rw [noted, Namespace.isDamagedAt]
  cases ns.node? path with
  | none => rfl
  | some node =>
    cases node with
    | directory => rfl
    | file content => exact isLoss_judgement

private theorem visit_readOnly (hm : o.move = false) (hd : o.delete = false) (h : ns.Valid)
    {scan : Scan}
    (ho : scan.report.closed = false) {path : Path} {node : Node}
    (hn : ns.node? path = some node) :
    (visit o ⟨path.text, node.kind⟩).runOn onNamespace scan ns =
      ((.ok (), scan.note [noted o ns path]
        (if ns.isDamagedAt o.openForWrite path then [path.text] else [])), ns) := by
  rw [visit, noted, Namespace.isDamagedAt, hn]
  cases node with
  | directory => exact runOn_report onNamespace ho _ ns
  | file content =>
    change (visitFile o path.text).runOn onNamespace scan ns = _
    rw [runOn_visitFile o h ho hn]
    dsimp only
    rw [treat_nothing hm hd]
    dsimp only
    split_ifs with hc hopen
    · rw [Scan.note_note, List.append_nil, List.nil_append]
    · rw [Scan.note_note, List.append_nil, List.nil_append]
    · rfl

private theorem visits_readOnly (hm : o.move = false) (hd : o.delete = false) (h : ns.Valid)
    {visited : List (Path × EntryKind)}
    (hn : ∀ e ∈ visited, ∃ node, ns.node? e.1 = some node ∧ node.kind = e.2) {scan : Scan}
    (ho : scan.report.closed = false) :
    Check.runOn onNamespace (visited.forM fun e => visit o ⟨e.1.text, e.2⟩) scan ns =
      ((.ok (), scan.note (visited.map fun e => noted o ns e.1)
        (((visited.map Prod.fst).filter (ns.isDamagedAt o.openForWrite)).map Path.text)), ns) := by
  induction visited generalizing scan with
  | nil => simp [List.forM_nil, Scan.note, Report.addAll, Check.runOn_pure]
  | cons e visited ih =>
    obtain ⟨node, hnode, hkind⟩ := hn e (List.mem_cons_self ..)
    have hvisit := visit_readOnly hm hd h ho hnode
    rw [hkind] at hvisit
    rw [Check.runOn_forM_cons, hvisit]
    dsimp only
    rw [ih (fun e he => hn e (List.mem_cons_of_mem _ he)) (by rw [Scan.closed_note, ho]),
      Scan.note_note, List.map_cons, List.map_cons, List.filter_cons]
    split_ifs <;> rfl

private theorem gentle_readOnly (hm : o.move = false) (hd : o.delete = false) (h : ns.Valid) :
    Walk.Gentle (visit o) root (some quarantine)
      fun scan ns' => ns' = ns ∧ scan.report.closed = false where
  valid := by
    rintro _ _ ⟨rfl, -⟩
    exact h
  visits := by
    rintro scan _ path node ⟨rfl, ho⟩ hn -
    refine ⟨_, _, visit_readOnly hm hd h ho hn, ⟨rfl, ?_⟩, fun _ _ _ => .refl _ _⟩
    rw [Scan.closed_note, ho]

/-- A check without deeds notes what is visible, in the order of the walk. -/
theorem readOnly_result {depth : Nat} {result : Result} (hnames : o.Names root quarantine)
    (hl : o.listCorrupt = false) (hm : o.move = false) (hd : o.delete = false) (h : ns.Valid)
    (hrun : (run o depth).run onNamespace.answer ns = (.ok result, after)) :
    (ns.node? root = none ∧ after = ns ∧
      result = failed o (Failure.pathNotFound root.text).message) ∨
    ∃ paths : List Path, ns.node? root ≠ none ∧ after = ns ∧ paths.Pairwise Path.Before ∧
      (∀ path, path ∈ paths ↔ ∃ node, ns.node? path = some node ∧
        Walk.Visible root (some quarantine) path node.kind) ∧
      result.summary = some ((blank o).report.addAll (paths.map (noted o ns))).summary ∧
      result.status = ((blank o).report.addAll (paths.map (noted o ns))).summary.status ∧
      result.corruptFiles = (paths.filter (ns.isDamagedAt o.openForWrite)).map Path.text := by
  rcases full_ended hnames hl (gentle_readOnly hm hd h) ⟨rfl, rfl⟩ hrun with
    ⟨hnone, hsame, hfailed⟩ | ⟨failure, scan, hfailure, -⟩ |
    ⟨visited, scan, made, hsome, hmade, htour, hsums⟩
  · exact .inl ⟨hnone, hsame, Except.ok.inj hfailed⟩
  · cases hfailure
  right
  obtain rfl := Except.ok.inj hmade
  have hsteady : ∀ {scan : Scan} {after}, (after = ns ∧ scan.report.closed = false) → after = ns :=
    And.left
  have hscan := htour.runs
  rw [visits_readOnly hm hd h (htour.present hsteady) rfl, Prod.mk.injEq, Prod.mk.injEq] at hscan
  obtain ⟨⟨-, rfl⟩, rfl⟩ := hscan
  refine ⟨visited.map Prod.fst, hsome, rfl, List.pairwise_map.mpr htour.ordered,
    htour.mem_paths_iff hsteady, ?_, ?_, hsums.corruptFiles_eq⟩
  · rw [hsums.summary_eq, List.map_map]
    rfl
  · rw [hsums.status_eq, List.map_map]
    rfl

private theorem isFailure_noted (h : ns.Valid) {path : Path} :
    (noted o ns path).isFailure = true ↔ ∃ content, ns.node? path = some (.file content) ∧
      ns.HasNegative content o.openForWrite := by
  rw [noted]
  cases hn : ns.node? path with
  | none => simp [Finding.isFailure]
  | some node =>
    cases node with
    | directory => simp [Finding.isFailure]
    | file content =>
      dsimp only
      rw [isFailure_judgement, h.negative_iff hn]
      simp only [Option.some.injEq, Node.file.injEq, exists_eq_left']
      rfl

private theorem fileIn_iff {paths : List Path}
    (hpaths : ∀ path, path ∈ paths ↔ ∃ node, ns.node? path = some node ∧
      Walk.Visible root (some quarantine) path node.kind) {path : Path} {content : FileNode} :
    ns.FileIn root quarantine path content ↔
      path ∈ paths ∧ ns.node? path = some (.file content) := by
  rw [Namespace.FileIn, hpaths]
  constructor
  · rintro ⟨hn, hscope⟩
    exact ⟨⟨_, hn, visible_file_iff.mpr hscope⟩, hn⟩
  · rintro ⟨⟨node, hnode, hv⟩, hn⟩
    rw [hn, Option.some.injEq] at hnode
    rw [← hnode] at hv
    exact ⟨hn, visible_file_iff.mp hv⟩

/-- The status of a result says which blocks are lost or negative in the files in scope, and its
corrupt files are those with lost blocks and no negative ones, each once and in the order of the
walk. -/
structure IsVerdict (ns : Namespace) (openVisible : Bool) (root quarantine : Path)
    (result : Result) : Prop where
  failure_iff : result.status = .failure ↔ ns.node? root = none ∨ ∃ path content,
    ns.FileIn root quarantine path content ∧ ns.HasNegative content openVisible
  corrupt_iff : result.status ≠ .failure → (result.status = .corrupt ↔ ∃ path content,
    ns.FileIn root quarantine path content ∧ ns.HasLost content openVisible)
  healthy_iff : result.status ≠ .failure → (result.status = .healthy ↔ ¬ ∃ path content,
    ns.FileIn root quarantine path content ∧ ns.HasLost content openVisible)
  corruptFiles_eq : ∃ corrupt : List Path, result.corruptFiles = corrupt.map Path.text ∧
    corrupt.Pairwise Path.Before ∧ ∀ path, path ∈ corrupt ↔ ∃ content,
      ns.FileIn root quarantine path content ∧ ¬ ns.HasNegative content openVisible ∧
        ns.HasLost content openVisible
  none_of_missing : ns.node? root = none → result.corruptFiles = []

private theorem any_isFailure_iff (h : ns.Valid) {paths : List Path}
    (hpaths : ∀ path, path ∈ paths ↔ ∃ node, ns.node? path = some node ∧
      Walk.Visible root (some quarantine) path node.kind) :
    (paths.map (noted o ns)).any Finding.isFailure = true ↔ ∃ path content,
      ns.FileIn root quarantine path content ∧ ns.HasNegative content o.openForWrite := by
  simp only [List.any_map, List.any_eq_true, Function.comp_apply, isFailure_noted h,
    fileIn_iff hpaths, and_assoc, exists_and_left]

private theorem any_isLoss_iff (h : ns.Valid) {paths : List Path}
    (hpaths : ∀ path, path ∈ paths ↔ ∃ node, ns.node? path = some node ∧
      Walk.Visible root (some quarantine) path node.kind) :
    (paths.map (noted o ns)).any Finding.isLoss = true ↔ ∃ path content,
      ns.FileIn root quarantine path content ∧ ¬ ns.HasNegative content o.openForWrite ∧
        ns.HasLost content o.openForWrite := by
  simp only [List.any_map, List.any_eq_true, Function.comp_apply, isLoss_noted,
    h.isDamagedAt_iff, fileIn_iff hpaths, and_assoc, exists_and_left]

theorem isVerdict_of_missing (hnone : ns.node? root = none) (openVisible : Bool)
    (message : String) : IsVerdict ns openVisible root quarantine (failed o message) := by
  have hno : ∀ path content, ¬ ns.FileIn root quarantine path content := by
    intro path content hfile
    obtain ⟨hn, hp, -⟩ := hfile
    rw [Namespace.none_under_none hnone hp] at hn
    cases hn
  constructor
  case failure_iff => simp [failed, hnone]
  case corrupt_iff => simp [failed]
  case healthy_iff => simp [failed]
  case corruptFiles_eq => exact ⟨[], rfl, .nil, by simp [hno]⟩
  case none_of_missing => exact fun _ => rfl

/-- A verdict from what was noted of the visible entries. -/
theorem isVerdict_of_noted (h : ns.Valid) (hsome : ns.node? root ≠ none) {paths : List Path}
    (hordered : paths.Pairwise Path.Before)
    (hpaths : ∀ path, path ∈ paths ↔ ∃ node, ns.node? path = some node ∧
      Walk.Visible root (some quarantine) path node.kind) {result : Result}
    (hstatus : result.status = ((blank o).report.addAll (paths.map (noted o ns))).summary.status)
    (hfiles : result.corruptFiles =
      (paths.filter (ns.isDamagedAt o.openForWrite)).map Path.text) :
    IsVerdict ns o.openForWrite root quarantine result := by
  have hfailure : (paths.map (noted o ns)).any Finding.isFailure = true ↔ ∃ path content,
      ns.FileIn root quarantine path content ∧ ns.HasNegative content o.openForWrite :=
    any_isFailure_iff h hpaths
  rw [Report.status_addAll rfl] at hstatus
  have hfailed : result.status = .failure ↔
      (paths.map (noted o ns)).any Finding.isFailure = true := by
    rw [hstatus]
    split_ifs with hf <;> simp [hf]
  -- where nothing has failed no block is negative, and so every loss counts
  have hlost : result.status ≠ .failure →
      ((paths.map (noted o ns)).any Finding.isLoss = true ↔ ∃ path content,
        ns.FileIn root quarantine path content ∧ ns.HasLost content o.openForWrite) := by
    intro hne
    rw [ne_eq, hfailed, hfailure] at hne
    rw [any_isLoss_iff h hpaths]
    constructor
    · rintro ⟨path, content, hfile, -, hlost⟩
      exact ⟨path, content, hfile, hlost⟩
    · rintro ⟨path, content, hfile, hlost⟩
      exact ⟨path, content, hfile, fun hneg => hne ⟨path, content, hfile, hneg⟩, hlost⟩
  constructor
  case failure_iff =>
    rw [hfailed, hfailure]
    simp [hsome]
  case corrupt_iff =>
    intro hne
    rw [← hlost hne, hstatus, if_neg (mt hfailed.mpr hne)]
    split_ifs with hl <;> simp [hl]
  case healthy_iff =>
    intro hne
    rw [← hlost hne, hstatus, if_neg (mt hfailed.mpr hne)]
    split_ifs with hl <;> simp [hl]
  case corruptFiles_eq =>
    refine ⟨paths.filter (ns.isDamagedAt o.openForWrite), hfiles,
      hordered.sublist List.filter_sublist, fun path => ?_⟩
    simp only [List.mem_filter, h.isDamagedAt_iff, fileIn_iff hpaths, and_assoc, exists_and_left]
  case none_of_missing =>
    intro hnone
    exact absurd hnone hsome

/-- The status and the corrupt files of a check that neither moves nor deletes are exact. -/
theorem readOnly_verdict (hns : ns.Reachable) {raw o : Options} (hvalid : raw.validate = .ok o)
    (hm : o.move = false) (hd : o.delete = false) (hl : o.listCorrupt = false)
    (hroot : Path.ofText o.path = .ok root) (hq : Path.ofText o.quarantine = .ok quarantine)
    {depth : Nat} {result : Result}
    (hrun : (run o depth).run onNamespace.answer ns = (.ok result, after)) :
    IsVerdict ns o.openForWrite root quarantine result := by
  have h := hns.valid
  have hnames := Options.names_of_validate hvalid hroot hq
  rcases readOnly_result hnames hl hm hd h hrun with
    ⟨hnone, -, rfl⟩ | ⟨paths, hsome, -, hordered, hpaths, -, hstatus, hfiles⟩
  · exact isVerdict_of_missing hnone o.openForWrite _
  · exact isVerdict_of_noted h hsome hordered hpaths hstatus hfiles

/-- Such a check of a namespace with one corrupt file. -/
theorem readOnly_verdict_of_corrupt_file : ∃ result after,
    (run { path := "/" } 10).run onNamespace.answer (oneCorruptFile none 4) = (.ok result, after) ∧
      IsVerdict (oneCorruptFile none 4) false [] ["lost+found"] result := by
  have hvalid : Options.validate { path := "/" } = .ok { path := "/" } := by decide +kernel
  have hroot : Path.ofText "/" = .ok [] := by decide +kernel
  have hq : Path.ofText "/lost+found" = .ok ["lost+found"] := by decide +kernel
  have hok : ((run { path := "/" } 10).run onNamespace.answer (oneCorruptFile none 4)).1.isOk =
    true := by decide +kernel
  obtain ⟨result, hrun⟩ := run_eq_of_isOk hok
  exact ⟨result, _, hrun, readOnly_verdict (oneCorruptFile_reachable none 4) hvalid rfl rfl rfl
    hroot hq hrun⟩

end Checker

end BlockFsck
