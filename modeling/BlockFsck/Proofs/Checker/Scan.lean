import BlockFsck.Checker
import BlockFsck.Proofs.Quarantine
import BlockFsck.Proofs.Report
import BlockFsck.Proofs.Walk

/-!
# The visits of a full check

A visit of a file adds its judgement to the report, notes it if it is corrupt, and then may do one
deed, of which the report tells. It leaves all else in the scope of the walk where it is.
-/

namespace BlockFsck

open Metadata (onNamespace)

/-- The line in the report that tells of the deed. -/
def Deed.finding : Deed → Finding
  | moved path target => .moved path.text target.text
  | deleted path => .deleted path.text

/-- The finding tells of a deed. -/
def Finding.isDeed : Finding → Bool
  | .moved _ _ => true
  | .deleted _ => true
  | _ => false

/-- The finding is the judgement of a file. -/
def Finding.isFile : Finding → Bool
  | .file _ => true
  | _ => false

theorem Finding.isDeed_of_isFailure {finding : Finding} (h : finding.isFailure = true) :
    finding.isDeed = false := by
  cases finding <;> first | rfl | cases h

theorem Finding.isFile_of_isFailure {finding : Finding} (h : finding.isFailure = true) :
    finding.isFile = false := by
  cases finding <;> first | rfl | cases h

/-- The options of a run, and the paths that they name. -/
structure Options.Names (o : Options) (root quarantine : Path) : Prop where
  path_eq : o.path = root.text
  quarantine_eq : o.quarantine = quarantine.text
  root_valid : root.Valid
  quarantine_valid : quarantine.Valid
  exclusive : ¬ (o.move = true ∧ o.delete = true)

/-- Options that can be combined name paths in normal form. -/
theorem Options.exists_names {raw o : Options} (h : raw.validate = .ok o) :
    ∃ root quarantine, o.Names root quarantine := by
  rw [validate] at h
  cases hp : Path.normalize raw.path with
  | error e => simp [hp, Except.mapError, bind, Except.bind] at h
  | ok normal =>
    cases hl : Path.normalize raw.quarantine with
    | error e => simp [hp, hl, Except.mapError, bind, Except.bind] at h
    | ok lost =>
      simp only [hp, hl, Except.mapError, bind, Except.bind] at h
      by_cases hc : (raw.move && raw.delete) = true
      · simp [hc, throw, throwThe, MonadExceptOf.throw] at h
      · simp only [hc, if_false, Bool.false_eq_true, pure, Except.pure, Except.ok.injEq] at h
        subst h
        obtain ⟨root, hroot, rfl⟩ := Path.normalize_eq_ok.mp hp
        obtain ⟨quarantine, hquarantine, rfl⟩ := Path.normalize_eq_ok.mp hl
        exact ⟨root, quarantine, rfl, rfl, Path.valid_of_ofText hroot,
          Path.valid_of_ofText hquarantine, by simpa using hc⟩

theorem Options.names_of_validate {raw o : Options} (h : raw.validate = .ok o)
    {root quarantine : Path} (hr : Path.ofText o.path = .ok root)
    (hq : Path.ofText o.quarantine = .ok quarantine) : o.Names root quarantine := by
  obtain ⟨root', quarantine', hnames⟩ := exists_names h
  rw [hnames.path_eq, Path.ofText_text hnames.root_valid, Except.ok.injEq] at hr
  rw [hnames.quarantine_eq, Path.ofText_text hnames.quarantine_valid, Except.ok.injEq] at hq
  rw [← hr, ← hq]
  exact hnames

namespace Checker

variable {τ : Type} {scan : Scan} {ns : Namespace}

/-- The scan with more findings and more corrupt files. -/
def Scan.note (scan : Scan) (findings : List Finding) (corrupt : List String) : Scan :=
  ⟨scan.report.addAll findings, scan.corrupt ++ corrupt⟩

theorem Scan.note_note (scan : Scan) (findings others : List Finding)
    (corrupt more : List String) :
    (scan.note findings corrupt).note others more =
      scan.note (findings ++ others) (corrupt ++ more) := by
  simp [note, Report.addAll_append]

theorem Scan.closed_note (scan : Scan) (findings : List Finding) (corrupt : List String) :
    (scan.note findings corrupt).report.closed = scan.report.closed :=
  Report.closed_addAll _ _

theorem runOn_report (service : Metadata.Service (StateM τ)) (ho : scan.report.closed = false)
    (finding : Finding) (t : τ) :
    (report finding).runOn service scan t = ((.ok (), scan.note [finding] []), t) := by
  rw [report, Check.runOn_bind, Check.runOn_get]
  dsimp only
  rw [Report.add_of_open ho]
  dsimp only
  rw [Check.runOn_modify, Scan.note, List.append_nil]

theorem runOn_reportFailure (ho : scan.report.closed = false) (path reason : String) :
    (reportFailure path reason).runOn onNamespace scan ns =
      ((.ok (), scan.note [.failed path reason] []), ns) := by
  rw [reportFailure, Check.runOn_bind, runOn_report onNamespace ho]
  rfl

theorem runOn_onRefusal {σ α : Type} (service : Metadata.Service (StateM τ)) (step : Check σ α)
    (handle : Failure → Check σ α) (s : σ) (t : τ) :
    (onRefusal step handle).runOn service s t = match step.runOn service s t with
      | ((.ok a, s'), t') => ((.ok a, s'), t')
      | ((.error failure, s'), t') =>
        if failure.kind = .quarantine then (handle failure).runOn service s' t'
        else ((.error failure, s'), t') := by
  rw [onRefusal, Check.runOn_tryCatch]
  rcases step.runOn service s t with ⟨⟨failure | a, s'⟩, t'⟩
  · dsimp only
    split_ifs <;> rfl
  · rfl

/-- A corrupt file is left alone, or cannot be moved, or one deed is done and reported. -/
theorem treat_spec {o : Options} {root quarantine path : Path} {content : FileNode}
    (hnames : o.Names root quarantine) (h : ns.Valid) (ho : scan.report.closed = false)
    (hn : ns.node? path = some (.file content)) :
    (∃ findings, (treat o path.text).runOn onNamespace scan ns =
        ((.ok (), scan.note findings []), ns) ∧ (∀ finding ∈ findings, finding.isFailure = true) ∧
        (o.move = true ∨ o.delete = true → findings.any Finding.isFailure = true)) ∨
      ∃ (deed : Deed) (after : Namespace), (treat o path.text).runOn onNamespace scan ns =
          ((.ok (), scan.note [deed.finding] []), after) ∧
        deed.path = path ∧ deed.isMove = o.move ∧ deed.Does quarantine ns after := by
  rw [treat, runOn_onRefusal]
  by_cases hm : o.move = true
  · rw [if_pos hm, Check.runOn_bind]
    rcases Quarantine.move_spec h o.mover hnames.quarantine_eq hnames.quarantine_valid hn scan with
      ⟨cause, hrefused, -⟩ | ⟨target, after, hrun, hmoves⟩
    · left
      have hkind : (Failure.quarantine cause).kind = .quarantine := rfl
      rw [hrefused]
      dsimp only
      rw [if_pos hkind, runOn_reportFailure ho]
      exact ⟨_, rfl, by simp [Finding.isFailure], fun _ => rfl⟩
    · right
      rw [hrun]
      dsimp only
      rw [runOn_report onNamespace ho]
      exact ⟨.moved path target, after, rfl, rfl, by simp [Deed.isMove, hm], hmoves⟩
  · rw [if_neg hm]
    by_cases hd : o.delete = true
    · right
      rw [if_pos hd, Check.runOn_bind, Check.deleteFile_spec h hn]
      dsimp only
      rw [runOn_report onNamespace ho]
      exact ⟨.deleted path, _, rfl, rfl, by simp [Deed.isMove, hm], rfl⟩
    · left
      rw [if_neg hd]
      refine ⟨[], by simp [Check.runOn_pure, Scan.note, Report.addAll], by simp, ?_⟩
      intro hacts
      exact absurd hacts (by simp [hm, hd])

theorem treat_nothing {o : Options} (hm : o.move = false) (hd : o.delete = false) (path : String) :
    (treat o path).runOn onNamespace scan ns = ((.ok (), scan), ns) := by
  rw [treat, runOn_onRefusal, hm, hd]
  rfl

/-- What the report says of a file. -/
def judgement (o : Options) (record : FileRecord) : Finding :=
  match FileHealth.ofRecord record o.openForWrite with
  | .error malformed => .failed record.path malformed.message
  | .ok health => .file health

theorem runOn_visitFile {path : Path} {content : FileNode} (o : Options) (h : ns.Valid)
    (ho : scan.report.closed = false) (hn : ns.node? path = some (.file content)) :
    (visitFile o path.text).runOn onNamespace scan ns =
      let record := ns.recordOf path content
      let judged := scan.note [judgement o record] []
      if record.isDamaged o.openForWrite then
        if record.openForWrite then ((.ok (), judged.note [] [path.text]), ns)
        else match (treat o path.text).runOn onNamespace judged ns with
          | ((.ok _, scan'), ns') => ((.ok (), scan'.note [] [path.text]), ns')
          | ((.error failure, scan'), ns') => ((.error failure, scan'), ns')
      else ((.ok (), judged), ns) := by
  have hpath := h.toIsTree.path_valid hn
  rw [visitFile, Check.runOn_bind, Check.runOn_orIfMissing, Check.runOn_map,
    Check.runOn_blockLocations hpath hn]
  dsimp only [Except.map]
  rw [FileRecord.isDamaged, judgement]
  cases hj : FileHealth.ofRecord (ns.recordOf path content) o.openForWrite with
  | error malformed =>
    dsimp only
    rw [runOn_reportFailure ho, if_neg (by simp)]
    rfl
  | ok health =>
    dsimp only
    rw [Check.runOn_bind, runOn_report onNamespace ho]
    dsimp only
    by_cases hc : health.isCorrupt = true
    · have hopen := (FileHealth.judges_of_ok hj).open_eq hc
      rw [if_pos hc, if_pos hc, hopen]
      cases (ns.recordOf path content).openForWrite with
      | true => simp [Check.runOn_modify, Scan.note, Report.addAll]
      | false =>
        simp only [Bool.not_false, if_true, Bool.false_eq_true, if_false]
        rw [Check.runOn_bind]
        rcases (treat o path.text).runOn onNamespace (scan.note [.file health] []) ns with
          ⟨⟨failure | _, scan'⟩, ns'⟩
        · rfl
        · simp [Check.runOn_modify, Scan.note, Report.addAll]
    · rw [if_neg hc, if_neg hc]
      rfl

end Checker

end BlockFsck
