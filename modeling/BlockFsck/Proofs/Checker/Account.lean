import BlockFsck.Proofs.Checker.Conduct

/-!
# What a result says of the calls

A full check recounts every record that it read and every deed that was granted, and nothing else,
and so does a listing (`conducts_run`). Both hold whatever the calls of the run met.
-/

namespace BlockFsck

variable {σ : Type} {o : Options} {root quarantine : Path} {calls after : List Call}

/-- The paths of some of the records, in order. -/
def pathsOf (which : FileRecord → Bool) (records : List FileRecord) : List String :=
  (records.filter which).map FileRecord.path

theorem pathsOf_append (which : FileRecord → Bool) (records others : List FileRecord) :
    pathsOf which (records ++ others) = pathsOf which records ++ pathsOf which others := by
  rw [pathsOf, List.filter_append, List.map_append]
  rfl

theorem pathsOf_singleton (which : FileRecord → Bool) (record : FileRecord) :
    pathsOf which [record] = if which record then [record.path] else [] := by
  by_cases h : which record = true <;> simp [pathsOf, h]

theorem mem_pathsOf {which : FileRecord → Bool} {records : List FileRecord} {text : String}
    (h : text ∈ pathsOf which records) : ∃ record ∈ records, record.path = text := by
  obtain ⟨record, hmem, hpath⟩ := List.mem_map.mp h
  exact ⟨record, List.mem_of_mem_filter hmem, hpath⟩

/-- The file cannot be judged. -/
def FileRecord.isMalformed (record : FileRecord) (openVisible : Bool) : Bool :=
  match FileHealth.ofRecord record openVisible with
  | .ok _ => false
  | .error _ => true

/-- The file is closed, or open files are to be seen. -/
def FileRecord.isVisible (record : FileRecord) (openVisible : Bool) : Bool :=
  !record.openForWrite || openVisible

namespace Checker

variable {scan : Scan} {result : Result} {depth : Nat}

/-- Findings that tell of directories that were seen, of each record as it is judged, of each deed,
and of failures to act on what was read. -/
inductive Recounts (o : Options) (seen : Path → Prop) :
    List Finding → List FileRecord → List Deed → Prop
  | nothing : Recounts o seen [] [] []
  | directory {findings records deeds} {path : Path} (hseen : seen path)
      (h : Recounts o seen findings records deeds) :
      Recounts o seen (findings ++ [.directory path.text]) records deeds
  | judged {findings records deeds} (record : FileRecord)
      (h : Recounts o seen findings records deeds) :
      Recounts o seen (findings ++ [judgement o record]) (records ++ [record]) deeds
  | acted {findings records deeds} (deed : Deed) (h : Recounts o seen findings records deeds) :
      Recounts o seen (findings ++ [deed.finding]) records (deeds ++ [deed])
  | refused {findings records deeds} {record : FileRecord} (reason : String)
      (hmem : record ∈ records) (h : Recounts o seen findings records deeds) :
      Recounts o seen (findings ++ [.failed record.path reason]) records deeds

private theorem Recounts.mono {seen others : Path → Prop} {findings : List Finding}
    {records : List FileRecord} {deeds : List Deed} (hseen : ∀ {path}, seen path → others path)
    (h : Recounts o seen findings records deeds) : Recounts o others findings records deeds := by
  induction h with
  | nothing => exact .nothing
  | directory hpath _ ih => exact ih.directory (hseen hpath)
  | judged record _ ih => exact ih.judged record
  | acted deed _ ih => exact ih.acted deed
  | refused reason hmem _ ih => exact ih.refused reason hmem

private theorem Recounts.deeds_eq {seen : Path → Prop} {findings : List Finding}
    {records : List FileRecord} {deeds : List Deed} (h : Recounts o seen findings records deeds) :
    findings.filter Finding.isDeed = deeds.map Deed.finding := by
  induction h with
  | nothing => rfl
  | directory _ _ ih => rw [List.filter_append, ih]; exact List.append_nil _
  | judged record _ ih =>
    rw [List.filter_append, ih, List.filter_cons_of_neg (by simp [isDeed_judgement])]
    exact List.append_nil _
  | acted deed _ ih =>
    rw [List.filter_append, ih, List.filter_cons_of_pos (isDeed_finding deed), List.map_append]
    rfl
  | refused reason _ _ ih => rw [List.filter_append, ih]; exact List.append_nil _

/-- A result accounts for the calls of its run: by a report that recounts them, by a listing of what
the walk found damaged and what the files on the list of the service were like then, or by telling
that the root is not there. -/
inductive Accounts (o : Options) (root : Path) (result : Result) (calls : List Call) : Prop
  | report {findings : List Finding}
      (htold : Recounts o (Seen calls) findings (recordsOf calls) (deedsOf calls))
      (houtput : ((blank o).report.addAll findings).text = .ok result.output)
      (hsummary : result.summary = some ((blank o).report.addAll findings).summary)
      (hstatus : result.status = ((blank o).report.addAll findings).summary.status)
      (hcorrupt : result.corruptFiles =
        pathsOf (·.isDamaged o.openForWrite) (recordsOf calls))
  | listing {before rest : List Call} {met : Namespace} {treated : Treated}
      {refused : List String} (hcalls : calls = before ++ ⟨.corruptFiles, met⟩ :: rest)
      (hlisted : result.corruptFiles =
        sortedTexts (pathsOf (·.isDamaged o.openForWrite) (recordsOf before) ++
          pathsOf (·.isVisible o.openForWrite) (recordsOf rest)))
      (hactions : treated.actions = (deedsOf calls).map Deed.line)
      (hfailures : treated.failures =
        (pathsOf (·.isMalformed o.openForWrite) (recordsOf before)).map
          (failureLine · "malformed block metadata") ++ refused)
      (hrefused : ∀ line ∈ refused, ∃ record ∈ recordsOf calls, ∃ reason,
        line = failureLine record.path reason)
      (hresult : listingResult o.path result.corruptFiles treated = .ok result)
  | missing {met : Namespace} (hcalls : calls = [⟨.resolve root.text, met⟩])
      (hnone : met.node? root = none)
      (hresult : result = failed o (Failure.pathNotFound root.text).message)

theorem Accounts.reported (h : Accounts o root result calls) :
    Reported o result (deedsOf calls) := by
  cases h with
  | report htold houtput hsummary _ _ => exact .report htold.deeds_eq houtput hsummary
  | listing _ _ hactions _ _ hresult => exact .listing hresult hactions
  | missing hcalls _ hresult =>
    rw [hcalls]
    exact .failed hresult

/-- How a run ends after its calls. -/
inductive Concludes (o : Options) (root : Path) (depth : Nat) (calls : List Call) :
    Except Failure Result → Prop
  | verdict {result : Result} (hs : Smooth calls) (h : Accounts o root result calls) :
      Concludes o root depth calls (.ok result)
  | breaksOff {failure : Failure} (h : BreaksOff root depth calls failure) :
      Concludes o root depth calls (.error failure)
  | overflow {findings : List Finding} (hl : o.listCorrupt = false) (hs : Smooth calls)
      (htold : Recounts o (Seen calls) findings (recordsOf calls) (deedsOf calls))
      (htext : ((blank o).report.addAll findings).text = .error .overflow) :
      Concludes o root depth calls (.error .overflow)

/-- A failure of the check, as the run reports it. -/
def Gives (o : Options) (root : Path) (depth : Nat) (failure : Failure) (_ : σ)
    (calls : List Call) : Prop :=
  Concludes o root depth calls (conclusion o (.error failure))

theorem gives_of_breaksOff {failure : Failure} (h : BreaksOff root depth calls failure) (s : σ) :
    Gives o root depth failure s calls := by
  cases h with
  | misread hs hm hcalls =>
    have hgiven : BreaksOff root depth calls _ := .misread hs hm hcalls
    cases hm <;> exact .breaksOff hgiven
  | tooDeep hs hseen hroot hlength => exact .breaksOff (.tooDeep hs hseen hroot hlength)

theorem gives_of_missing {met : Namespace} (hnone : met.node? root = none) (s : σ) :
    Gives o root depth (.pathNotFound root.text) s ([] ++ [⟨.resolve root.text, met⟩]) := by
  refine .verdict ?_ (.missing rfl hnone rfl)
  intro call hmem cause hmisread
  rw [List.nil_append, List.mem_singleton] at hmem
  subst hmem
  cases hmisread

/-- A scan on the way has recounted what was read and done, and nothing else. -/
structure Knows (o : Options) (scan : Scan) (calls : List Call) : Prop where
  smooth : Smooth calls
  told : ∃ findings, scan.report = (blank o).report.addAll findings ∧
    Recounts o (Seen calls) findings (recordsOf calls) (deedsOf calls)
  corrupt_eq : scan.corrupt = pathsOf (·.isDamaged o.openForWrite) (recordsOf calls)

namespace Knows

private theorem closed (h : Knows o scan calls) : scan.report.closed = false := by
  obtain ⟨findings, hreport, -⟩ := h.told
  rw [hreport, Report.closed_addAll]
  rfl

private theorem blank (o : Options) : Knows o (blank o) [] where
  smooth := by simp [Smooth]
  told := ⟨[], rfl, .nothing⟩
  corrupt_eq := rfl

private theorem idle (h : Knows o scan calls) (ha : Adds calls after [] []) :
    Knows o scan after where
  smooth := ha.smooth h.smooth
  told := by
    obtain ⟨findings, hreport, hrecounts⟩ := h.told
    refine ⟨findings, hreport, ?_⟩
    rw [ha.records_eq, ha.deeds_eq, List.append_nil, List.append_nil]
    exact hrecounts.mono fun hseen => hseen.mono ha.extends_calls
  corrupt_eq := by simpa [ha.records_eq] using h.corrupt_eq

private theorem note (h : Knows o scan calls) {records : List FileRecord} {deeds : List Deed}
    {finding : Finding} (ha : Adds calls after records deeds)
    (htells : ∀ {findings}, Recounts o (Seen after) findings (recordsOf calls) (deedsOf calls) →
      Recounts o (Seen after) (findings ++ [finding]) (recordsOf after) (deedsOf after)) :
    Knows o (scan.note [finding] (pathsOf (·.isDamaged o.openForWrite) records)) after where
  smooth := ha.smooth h.smooth
  told := by
    obtain ⟨findings, hreport, hrecounts⟩ := h.told
    refine ⟨findings ++ [finding], ?_, htells ?_⟩
    · rw [Scan.note, hreport, Report.addAll_append]
    · exact hrecounts.mono fun hseen => hseen.mono ha.extends_calls
  corrupt_eq := by rw [Scan.note, h.corrupt_eq, ha.records_eq, pathsOf_append]

private theorem directory (h : Knows o scan calls) {path : Path} (hseen : Seen calls path) :
    Knows o (scan.note [.directory path.text] []) calls :=
  h.note (.refl calls) (.directory hseen)

private theorem judged (h : Knows o scan calls) {record : FileRecord}
    (ha : Adds calls after [record] []) :
    Knows o (scan.note [judgement o record]
      (if record.isDamaged o.openForWrite then [record.path] else [])) after := by
  rw [← pathsOf_singleton (·.isDamaged o.openForWrite)]
  refine h.note ha fun hrecounts => ?_
  rw [ha.records_eq, ha.deeds_eq, List.append_nil]
  exact hrecounts.judged record

private theorem acted (h : Knows o scan calls) {deed : Deed} (ha : Adds calls after [] [deed]) :
    Knows o (scan.note [deed.finding] []) after := by
  refine h.note ha fun hrecounts => ?_
  rw [ha.records_eq, ha.deeds_eq, List.append_nil]
  exact hrecounts.acted deed

private theorem refused (h : Knows o scan calls) (ha : Adds calls after [] []) {path : Path}
    (hread : HasRead calls path) (reason : String) :
    Knows o (scan.note [.failed path.text reason] []) after := by
  obtain ⟨-, -, record, hmem, hpath⟩ := hread
  rw [← hpath]
  refine h.note ha fun hrecounts => ?_
  rw [ha.records_eq, ha.deeds_eq, List.append_nil, List.append_nil]
  exact hrecounts.refused reason hmem

end Knows

private theorem conducts_report {Fails : Failure → Scan → List Call → Prop}
    (ho : scan.report.closed = false) (finding : Finding) {Ends : Unit → Scan → List Call → Prop}
    (h : Ends () (scan.note [finding] []) calls) :
    (report finding).Conducts (o.Permits quarantine) scan calls Ends Fails := by
  apply Check.Conducts.bind
  apply Check.Conducts.get
  rw [Report.add_of_open ho]
  apply Check.Conducts.modify
  rwa [Scan.note, List.append_nil] at h

private theorem conducts_reportFailure {Fails : Failure → Scan → List Call → Prop}
    (ho : scan.report.closed = false) (path reason : String)
    {Ends : Unit → Scan → List Call → Prop}
    (h : Ends () (scan.note [.failed path reason] []) calls) :
    (reportFailure path reason).Conducts (o.Permits quarantine) scan calls Ends Fails := by
  apply Check.Conducts.bind
  apply conducts_report ho
  exact .log _ h

theorem conducts_onRefusal {α : Type} {step : Check σ α} {handle : Failure → Check σ α} {s : σ}
    {Ends : α → σ → List Call → Prop} {Fails : Failure → σ → List Call → Prop}
    (h : step.Conducts (o.Permits quarantine) s calls Ends fun failure s' after =>
      failure.kind = .quarantine ∧
        (handle failure).Conducts (o.Permits quarantine) s' after Ends Fails) :
    (onRefusal step handle).Conducts (o.Permits quarantine) s calls Ends Fails := by
  refine Check.Conducts.tryCatch (h.mono (fun hended => hended) fun ⟨hkind, hhandle⟩ => ?_)
  rw [if_pos hkind]
  exact hhandle

private theorem conducts_treat {Fails : Failure → Scan → List Call → Prop}
    (hnames : o.Names root quarantine)
    (ho : scan.report.closed = false) {path : Path} (hread : HasRead calls path)
    {corrupt : List String} (h : Knows o (scan.note [] corrupt) calls) :
    (treat o path.text).Conducts (o.Permits quarantine) scan calls
      (fun _ scan' after => Knows o (scan'.note [] corrupt) after) Fails := by
  have hlater : ∀ {finding after},
      Knows o ((scan.note [] corrupt).note [finding] []) after →
        Knows o ((scan.note [finding] []).note [] corrupt) after := by
    intro finding after hknows
    rw [Scan.note_note, List.append_nil, List.nil_append] at hknows
    rwa [Scan.note_note, List.append_nil, List.nil_append]
  have hrefused : ∀ (cause : QuarantineError) {after}, Adds calls after [] [] →
      (Failure.quarantine cause).kind = .quarantine ∧
        (reportFailure path.text (Failure.quarantine cause).message).Conducts
          (o.Permits quarantine) scan after
            (fun _ scan' after => Knows o (scan'.note [] corrupt) after) Fails :=
    fun cause _ ha => ⟨rfl, conducts_reportFailure ho _ _ (hlater (h.refused ha hread _))⟩
  apply conducts_onRefusal
  split_ifs with hm hd
  · apply Check.Conducts.bind
    refine Quarantine.conducts_move o.mover hnames.quarantine_eq hnames.quarantine_valid hm hread
      (fun {target after} ha => ?_) hrefused
    exact conducts_report ho _ (hlater (h.acted ha))
  · apply Check.Conducts.bind
    refine Check.conducts_deleteFile hd hread (fun {after} ha => ?_) hrefused
    exact conducts_report ho _ (hlater (h.acted ha))
  · exact .pure h

private theorem conducts_visitFile (hnames : o.Names root quarantine) {path : Path}
    (hv : path.Valid)
    (h : Knows o scan calls) :
    (visitFile o path.text).Conducts (o.Permits quarantine) scan calls (fun _ => Knows o)
      fun failure _ after => BreaksOff root depth after failure := by
  apply Check.Conducts.bind
  apply Check.Conducts.record hv trivial
  · intro met content after hn ha
    have hread : HasRead after path := by
      refine ⟨hv, Namespace.ne_root_of_file hn, met.recordOf path content, ?_, rfl⟩
      rw [ha.records_eq]
      exact List.mem_append_right _ (List.mem_singleton_self _)
    have hpath : (met.recordOf path content).path = path.text := rfl
    have hjudged := h.judged ha
    rw [judgement, FileRecord.isDamaged, hpath] at hjudged
    dsimp only
    cases hj : FileHealth.ofRecord (met.recordOf path content) o.openForWrite with
    | error malformed =>
      rw [hj] at hjudged
      exact conducts_reportFailure h.closed _ _ hjudged
    | ok health =>
      rw [hj] at hjudged
      have hclosed : (scan.note [.file health] []).report.closed = false := by
        rw [Scan.closed_note, h.closed]
      apply Check.Conducts.bind
      apply conducts_report h.closed
      split_ifs with hc hopen
      · have hnoted : Knows o ((scan.note [.file health] []).note [] [path.text]) after := by
          rw [Scan.note_note]
          simpa [hc] using hjudged
        apply Check.Conducts.bind
        refine (conducts_treat hnames hclosed hread hnoted).mono (fun hknows => ?_)
          fun hfailed => hfailed
        exact .modify hknows
      · apply Check.Conducts.modify
        simpa [hc, Scan.note] using hjudged
      · exact .pure (by simpa [hc] using hjudged)
  · intro after ha
    exact .pure (h.idle ha)
  · intro call cause hmisread
    exact .misread h.smooth hmisread rfl

private theorem orderly_visit (hnames : o.Names root quarantine) :
    Walk.Orderly o quarantine root depth (visit o) (Knows o) where
  smooth h := h.smooth
  idle h ha := h.idle ha
  visits := by
    intro path kind scan calls hseen h
    cases kind with
    | directory => exact conducts_report h.closed _ (h.directory hseen)
    | file => exact conducts_visitFile hnames hseen.1 h

theorem conducts_fullCheck (hnames : o.Names root quarantine) (hl : o.listCorrupt = false) :
    (fullCheck o depth).Conducts (o.Permits quarantine) (blank o) []
      (fun result _ after => Concludes o root depth after (.ok result)) (Gives o root depth) := by
  have hq : ∀ q ∈ some quarantine, q.Valid := by simpa using hnames.quarantine_valid
  rw [fullCheck, hnames.path_eq, hnames.quarantine_eq]
  apply Check.Conducts.bind
  refine (Walk.conducts_run (orderly_visit hnames) hnames.root_valid hq (.blank o)
    (fun hbroken => gives_of_breaksOff hbroken _)
    fun met hnone => gives_of_missing hnone _).mono (fun {_ scan after} h => ?_) fun hgives => hgives
  apply Check.Conducts.bind
  apply Check.Conducts.get
  obtain ⟨findings, hreport, hrecounts⟩ := h.told
  dsimp only [Report.render]
  cases ht : scan.report.text with
  | error failure =>
    obtain rfl := error_of_text ht
    rw [hreport] at ht
    exact .throw (.overflow hl h.smooth hrecounts ht)
  | ok output =>
    rw [hreport] at ht ⊢
    exact .pure (.verdict h.smooth (.report hrecounts ht rfl rfl h.corrupt_eq))

end Checker

end BlockFsck
