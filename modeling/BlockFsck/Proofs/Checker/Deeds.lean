import BlockFsck.Proofs.Checker.Run
import BlockFsck.Proofs.Report.Lines

/-!
# The deeds of a full check

A full check acts on damaged files that nobody writes to, one after the other, and its report tells
of each deed and of no others. While it does so it loses nothing of what it still has to visit.
-/

namespace BlockFsck

open Metadata (onNamespace)
open Text

private theorem Deed.Does.survives {deed : Deed} {root quarantine : Path} {ns after : Namespace}
    {content : FileNode} (hd : deed.Does quarantine ns after)
    (hn : ns.node? deed.path = some (.file content)) (hroot : root <+: deed.path) {other : Path}
    (ho : Walk.Scope root (some quarantine) other) (hne : other ≠ deed.path) :
    Walk.Survives ns after other := by
  cases deed with
  | moved path target =>
    have hother : other ≠ target := by
      rintro rfl
      rcases ho.2 quarantine rfl with hq | hq
      · exact hd.outside (hq.trans hroot)
      · exact hd.below.2 (hq hd.below.1)
    rw [Deed.path] at hne
    cases hnode : ns.node? other with
    | some node =>
      exact .inl (Acted.node_after_move hd hne (by simp [hnode]))
    | none =>
      have hafter := hd.node_eq other
      rw [if_neg hother, if_neg hne] at hafter
      split_ifs at hafter
      · exact .inr ⟨hnode, hafter⟩
      · exact .inl hafter
  | deleted path =>
    rw [Deed.Does] at hd
    rw [Deed.path] at hn hne
    left
    rw [hd, Namespace.node?_removed (Namespace.ne_root_of_file hn)]
    split_ifs with hup
    · exact (Namespace.none_below (by simp [hn]) hup (Ne.symm hne)).symm
    · rfl

/-- The line in a listing that tells of the deed. -/
def Deed.line : Deed → String
  | moved path target => s!"Moved {path.text} to {target.text}"
  | deleted path => s!"Deleted {path.text}"

namespace Checker

variable {o : Options} {start ns after : Namespace} {root quarantine : Path}

/-- A result tells of these deeds and of no others: by the findings of its report, by the lines of
its listing, or as one of a run that could not start. Each deed then has its line in the output
(`Reported.hasLine`). -/
inductive Reported (o : Options) (result : Result) : List Deed → Prop
  | report {findings : List Finding} {deeds : List Deed} :
    findings.filter Finding.isDeed = deeds.map Deed.finding →
    ((blank o).report.addAll findings).text = .ok result.output →
    result.summary = some ((blank o).report.addAll findings).summary → Reported o result deeds
  | listing {files : List String} {treated : Treated} {deeds : List Deed} :
    listingResult o.path files treated = .ok result →
    treated.actions = deeds.map Deed.line → Reported o result deeds
  | failed {message : String} : result = failed o message → Reported o result []

private theorem exists_lines_of_listingResult {files : List String} {treated : Treated}
    {result : Result} (h : listingResult o.path files treated = .ok result) :
    ∃ lines, (∀ line ∈ treated.actions, line ∈ lines) ∧
      result.output = String.intercalate "\n" lines ++ "\n" := by
  rw [listingResult] at h
  cases hfailures : treated.failures.isEmpty with
  | true =>
    rw [if_pos hfailures] at h
    cases hclosing : Listing.sentence files.length o.path with
    | error e =>
      rw [hclosing] at h
      cases h
    | ok closing =>
      rw [hclosing] at h
      obtain rfl := Except.ok.inj h
      exact ⟨_, fun line hline => List.mem_append_right _ hline, rfl⟩
  | false =>
    rw [if_neg (by simp [hfailures])] at h
    obtain rfl := Except.ok.inj h
    exact ⟨_, fun line hline => by simp [hline], rfl⟩

/-- Each deed that a result tells of has its line in the output, unless the path at its end ends in a
line break. -/
theorem Reported.hasLine {result : Result} {deeds : List Deed} (h : Reported o result deeds)
    {deed : Deed} (hmem : deed ∈ deeds) (hends : EndsWithout (· = '\n') deed.line) :
    HasLine deed.line result.output := by
  cases h with
  | @report findings _ hfindings htext _ =>
    have hfinding : deed.finding ∈ findings := by
      have htold : deed.finding ∈ findings.filter Finding.isDeed :=
        hfindings ▸ List.mem_map_of_mem hmem
      exact List.mem_of_mem_filter htold
    refine Report.hasLine_text htext (Report.writesOutside_addAll ..) ?_ hends
    have hline : deed.line ∈ findings.flatMap (Report.findingLines o.detail) :=
      List.mem_flatMap.mpr ⟨_, hfinding, by cases deed <;> exact List.mem_singleton_self _⟩
    have hwritten := Report.toList_written_addAll (blank o).report findings
    exact hasLine_of_broken hline (hwritten.trans (List.append_nil _).symm)
  | @listing files treated _ hresult hactions =>
    have hline : deed.line ∈ treated.actions := hactions ▸ List.mem_map_of_mem hmem
    obtain ⟨lines, hlines, houtput⟩ := exists_lines_of_listingResult hresult
    exact houtput ▸ hasLine_intercalate (hlines _ hline)
  | failed _ => simp at hmem

/-- What a full check acts on: damaged files that nobody writes to. -/
def ActsOn (o : Options) (_ : Path) (record : FileRecord) : Prop :=
  record.isDamaged o.openForWrite = true ∧ record.openForWrite = false

/-- A scan on the way: its report is open, and tells of the deeds done so far. -/
def Tells (o : Options) (quarantine : Path) (start : Namespace) (scan : Scan)
    (ns : Namespace) : Prop :=
  ∃ findings deeds, scan.report = (blank o).report.addAll findings ∧
    findings.filter Finding.isDeed = deeds.map Deed.finding ∧
    Deeds quarantine o.move (ActsOn o) start deeds ns

theorem Tells.closed {scan : Scan} (h : Tells o quarantine start scan ns) :
    scan.report.closed = false := by
  obtain ⟨findings, -, hreport, -⟩ := h
  rw [hreport, Report.closed_addAll]
  rfl

theorem Tells.valid {scan : Scan} (h : Tells o quarantine start scan ns) (hs : start.Valid) :
    ns.Valid := by
  obtain ⟨_, _, -, -, hdeeds⟩ := h
  exact (hdeeds.acted hs).valid

private theorem Tells.note {scan : Scan} (h : Tells o quarantine start scan ns)
    {findings : List Finding}
    (hf : findings.filter Finding.isDeed = []) (corrupt : List String) :
    Tells o quarantine start (scan.note findings corrupt) ns := by
  obtain ⟨told, deeds, hreport, htold, hdeeds⟩ := h
  refine ⟨told ++ findings, deeds, ?_, ?_, hdeeds⟩
  · rw [Scan.note, hreport, Report.addAll_append]
  · rw [List.filter_append, htold, hf, List.append_nil]

private theorem Tells.act {scan : Scan} (h : Tells o quarantine start scan ns) {deed : Deed}
    {content : FileNode} {findings : List Finding}
    (hf : findings.filter Finding.isDeed = [deed.finding]) (corrupt : List String)
    (hkind : deed.isMove = o.move) (hn : ns.node? deed.path = some (.file content))
    (hacts : ActsOn o deed.path (ns.recordOf deed.path content))
    (hd : deed.Does quarantine ns after) :
    Tells o quarantine start (scan.note findings corrupt) after := by
  obtain ⟨told, deeds, hreport, htold, hdeeds⟩ := h
  refine ⟨told ++ findings, deeds ++ [deed], ?_, ?_, hdeeds.snoc hkind hn hacts hd⟩
  · rw [Scan.note, hreport, Report.addAll_append]
  · rw [List.filter_append, htold, List.map_append, hf]
    rfl

theorem isDeed_judgement (record : FileRecord) : (judgement o record).isDeed = false := by
  rw [judgement]
  cases FileHealth.ofRecord record o.openForWrite <;> rfl

theorem isDeed_finding (deed : Deed) : deed.finding.isDeed = true := by
  cases deed <;> rfl

private theorem isFile_finding (deed : Deed) : deed.finding.isFile = false := by
  cases deed <;> rfl

/-- The visit of a file reports on it and lists it if it is damaged. Besides it does nothing, which
is a failure if it should have acted, or does one deed and tells of it. -/
theorem visitFile_spec {scan : Scan} {path : Path} {content : FileNode}
    (hnames : o.Names root quarantine) (h : ns.Valid) (ho : scan.report.closed = false)
    (hn : ns.node? path = some (.file content)) :
    ∃ others after, (visitFile o path.text).runOn onNamespace scan ns =
        ((.ok (), scan.note (judgement o (ns.recordOf path content) :: others)
          (if (ns.recordOf path content).isDamaged o.openForWrite then [path.text] else [])),
          after) ∧
      (∀ finding ∈ others, finding.isFile = false) ∧
      ((after = ns ∧ others.filter Finding.isDeed = [] ∧
        (ActsOn o path (ns.recordOf path content) → o.move = true ∨ o.delete = true →
          others.any Finding.isFailure = true)) ∨
      ∃ deed : Deed, deed.path = path ∧ others.filter Finding.isDeed = [deed.finding] ∧
        deed.isMove = o.move ∧ ActsOn o path (ns.recordOf path content) ∧
        deed.Does quarantine ns after) := by
  rw [runOn_visitFile o h ho hn]
  dsimp only
  split_ifs with hc hopen
  · refine ⟨[], ns, ?_, by simp, .inl ⟨rfl, rfl, ?_⟩⟩
    · rw [Scan.note_note, List.append_nil, List.nil_append]
    · intro hacts
      simp [hacts.2] at hopen
  · have hclosed : (scan.note [judgement o (ns.recordOf path content)] []).report.closed = false := by
      rw [Scan.closed_note, ho]
    rcases treat_spec hnames h hclosed hn with
      ⟨findings, hrun, hfailures, hfails⟩ | ⟨deed, after, hrun, hpath, hkind, hd⟩
    · rw [hrun]
      refine ⟨findings, ns, ?_, ?_, .inl ⟨rfl, ?_, fun _ => hfails⟩⟩
      · simp [Scan.note_note]
      · exact fun finding hmem => Finding.isFile_of_isFailure (hfailures finding hmem)
      · rw [List.filter_eq_nil_iff]
        intro finding hmem
        simp [Finding.isDeed_of_isFailure (hfailures finding hmem)]
    · rw [hrun]
      refine ⟨[deed.finding], after, ?_, ?_, .inr ⟨deed, hpath, ?_, hkind, ?_, hd⟩⟩
      · simp [Scan.note_note]
      · simp [isFile_finding]
      · simp [isDeed_finding]
      · exact ⟨hc, by simpa using hopen⟩
  · refine ⟨[], ns, rfl, by simp, .inl ⟨rfl, rfl, ?_⟩⟩
    intro hacts
    exact absurd hacts.1 hc

theorem gentle_full (hnames : o.Names root quarantine) (hs : start.Valid) :
    Walk.Gentle (visit o) root (some quarantine) (Tells o quarantine start) where
  valid h := h.valid hs
  visits := by
    intro scan ns path node htells hn hv
    have h := htells.valid hs
    have ho := htells.closed
    cases node with
    | directory =>
      refine ⟨_, _, runOn_report onNamespace ho (.directory path.text) ns,
        htells.note (by simp [Finding.isDeed]) [], fun _ _ _ => .refl _ _⟩
    | file content =>
      obtain ⟨others, after, hrun, -, hcome⟩ := visitFile_spec hnames h ho hn
      refine ⟨_, after, hrun, ?_⟩
      have hfilter : (judgement o (ns.recordOf path content) :: others).filter Finding.isDeed =
          others.filter Finding.isDeed :=
        List.filter_cons_of_neg (by simp [isDeed_judgement])
      rcases hcome with ⟨rfl, hnone, -⟩ | ⟨deed, rfl, hone, hkind, hacts, hd⟩
      · exact ⟨htells.note (hfilter.trans hnone) _, fun _ _ _ => .refl _ _⟩
      · refine ⟨htells.act (hfilter.trans hone) _ hkind hn hacts hd, ?_⟩
        intro other hscope hne
        exact hd.survives hn hv.1.1 hscope (hne.resolve_right (by simp))

/-- What a full check has done, and told if it gives a result. -/
theorem full_deeds {depth : Nat} {ended : Except Failure Result}
    (hnames : o.Names root quarantine) (hl : o.listCorrupt = false) (hs : start.Valid)
    (hrun : (run o depth).run onNamespace.answer start = (ended, after)) :
    ∃ deeds, Deeds quarantine o.move (ActsOn o) start deeds after ∧
      ∀ result, ended = .ok result → Reported o result deeds := by
  rcases full_ended hnames hl (gentle_full hnames hs) ⟨[], [], rfl, rfl, .nil⟩ hrun with
    ⟨-, rfl, hfailed⟩ | ⟨failure, scan, hfailure, htells⟩ |
    ⟨visited, scan, made, -, hmade, htour, hsums⟩
  · refine ⟨[], .nil, fun result hresult => ?_⟩
    rw [hfailed] at hresult
    exact .failed (Except.ok.inj hresult).symm
  · obtain ⟨-, deeds, -, -, hdeeds⟩ := htells
    refine ⟨deeds, hdeeds, fun result hresult => ?_⟩
    rw [hfailure] at hresult
    cases hresult
  · obtain ⟨findings, deeds, hreport, htold, hdeeds⟩ := htour.keeps
    have htext := hsums.output_eq
    have hsummary := hsums.summary_eq
    rw [hreport] at htext hsummary
    refine ⟨deeds, hdeeds, fun result hresult => ?_⟩
    rw [hmade] at hresult
    obtain rfl := Except.ok.inj hresult
    exact .report htold htext hsummary

end Checker

end BlockFsck
