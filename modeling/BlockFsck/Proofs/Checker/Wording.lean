import BlockFsck.Proofs.Checker.Listed
import BlockFsck.Proofs.Namespace.Reachable
import BlockFsck.Proofs.Namespace.Wording

/-!
# The text of a result tells its status

What a run writes it has from its options and from the namespace: paths, and ids of blocks and of
nodes. If none of these names a status, neither does a path that a file is moved to nor the message
of a refusal, and the text of the result has one marker, that of its status
(`Checker.marker_tells_status`).
-/

namespace BlockFsck

open Metadata (onNamespace)
open Text

variable {σ α β : Type}

namespace Check

/-- What the step gives is as said, and where it refuses to move or delete a file it says so without
naming a status. -/
def Yields (step : Check σ α) (Gives : α → Prop) : Prop :=
  ∀ s ns, match (step.runOn onNamespace s ns).1.1 with
    | .ok a => Gives a
    | .error failure => failure.kind = .quarantine → Unmarked failure.message

namespace Yields

variable {step : Check σ α} {Gives : α → Prop} {Gives' : β → Prop}

theorem pure {a : α} (h : Gives a) : (pure a : Check σ α).Yields Gives := fun _ _ => h

theorem throw {failure : Failure} (h : Unmarked failure.message) :
    (throw failure : Check σ α).Yields Gives := fun _ _ _ => h

theorem ofPath {x : Except PathError α} (h : ∀ a, x = .ok a → Gives a) :
    (ofPath x : Check σ α).Yields Gives := by
  cases x with
  | error e =>
    intro s ns hkind
    cases hkind
  | ok a => exact pure (h a rfl)

theorem query (q : Query) : (query q : Check σ q.Reply).Yields fun _ => True := by
  intro s ns
  rw [runOn_namespace]
  cases (q.onNamespace.run ns).1 with
  | ok reply => trivial
  | error cause =>
    intro hkind
    cases cause <;> cases hkind

theorem log (r : LogRecord) :
    (log r : Check σ Unit).Yields fun _ => True := fun _ _ => trivial

theorem bind {next : α → Check σ β} (hstep : step.Yields Gives)
    (hnext : ∀ a, Gives a → (next a).Yields Gives') : (step >>= next).Yields Gives' := by
  intro s ns
  have hfirst := hstep s ns
  rw [runOn_bind]
  generalize step.runOn onNamespace s ns = ended at hfirst
  obtain ⟨⟨failure | a, s'⟩, ns'⟩ := ended
  · exact hfirst
  · exact hnext a hfirst s' ns'

theorem onRefusal {handle : Failure → Check σ α} (hstep : step.Yields Gives)
    (hhandle : ∀ failure, Unmarked failure.message → (handle failure).Yields Gives) :
    (Checker.onRefusal step handle).Yields Gives := by
  intro s ns
  have hfirst := hstep s ns
  rw [Checker.runOn_onRefusal]
  generalize step.runOn onNamespace s ns = ended at hfirst
  obtain ⟨⟨failure | a, s'⟩, ns'⟩ := ended
  · dsimp only at hfirst ⊢
    split_ifs with hkind
    · exact hhandle failure (hfirst hkind) s' ns'
    · exact fun hquarantine => absurd hquarantine hkind
  · exact hfirst

end Yields

end Check

open Check (Yields)

private theorem unmarked_of_ofText {text : String} {path : Path} (h : Unmarked text)
    (hp : Path.ofText text = .ok path) : ∀ name ∈ path, Unmarked name := by
  rw [Path.ofText] at hp
  split_ifs at hp
  dsimp only at hp
  cases hfound : (Path.names text).find? Path.isRelative with
  | some segment =>
    rw [hfound] at hp
    cases hp
  | none =>
    rw [hfound] at hp
    obtain rfl := Except.ok.inj hp
    exact fun name => unmarked_of_mem_names h

namespace Quarantine

private theorem yields_firstConflict (base : Path) (names : List String) :
    (firstConflict base names : Check σ _).Yields fun _ => True := by
  induction names generalizing base with
  | nil => exact .pure trivial
  | cons name rest ih =>
    apply (Yields.query _).bind
    intro found _
    cases found with
    | none => exact .pure trivial
    | some entry =>
      dsimp only
      split_ifs
      · exact .pure trivial
      · exact (ih (base ++ [name])).bind fun _ _ => .pure trivial

private theorem unmarked_withSuffix {names : List String} (h : ∀ name ∈ names, Unmarked name)
    (position suffix : Nat) : ∀ name ∈ withSuffix names position suffix, Unmarked name := by
  intro name hmem
  obtain ⟨i, hi, rfl⟩ := List.mem_iff_getElem.mp hmem
  simp only [withSuffix, List.getElem_modify]
  rw [withSuffix, List.length_modify] at hi
  have hname := h names[i] (List.getElem_mem hi)
  split_ifs
  · exact hname.value (by decide) (.low (.nat suffix))
  · exact hname

private theorem yields_freeName {base : Path} (hbase : ∀ name ∈ base, Unmarked name)
    {names : List String}
    (hnames : ∀ name ∈ names, Unmarked name) (position suffix left : Nat) :
    (freeName base names position suffix left : Check σ _).Yields fun free =>
      ∀ path ∈ free, Unmarked path.text := by
  induction left generalizing suffix with
  | zero => exact .pure (by simp)
  | succ left ih =>
    apply (yields_firstConflict _ _).bind
    intro conflict _
    cases conflict with
    | none =>
      refine .pure ?_
      rintro path ⟨⟩
      exact unmarked_text.mpr
        (List.forall_mem_append.mpr ⟨hbase, unmarked_withSuffix hnames position suffix⟩)
    | some _ => exact ih (suffix + 1)

private theorem yields_destination {q : Quarantine} (hq : Unmarked q.directory) {text : String}
    (htext : Unmarked text) : (q.destination text : Check σ _).Yields Unmarked := by
  apply (Yields.ofPath fun _ => unmarked_of_ofText hq).bind
  intro directory hdirectory
  apply (Yields.ofPath fun _ => unmarked_of_ofText htext).bind
  intro path hpath
  split_ifs
  · have hinside : Unmarked s!"'{text}' is already inside {directory.text}" :=
      (Unmarked.first (by decide) htext).value (by decide) (unmarked_text.mpr hdirectory)
    exact .throw hinside
  apply (yields_firstConflict directory path).bind
  intro conflict _
  cases conflict with
  | none => exact .pure (unmarked_text.mpr (List.forall_mem_append.mpr ⟨hdirectory, hpath⟩))
  | some position =>
    apply (yields_freeName hdirectory hpath position 1 _).bind
    intro free hfree
    cases free with
    | none =>
      have hnone : Unmarked
          s!"No free quarantine name for '{text}' after {q.maxSuffix} attempts" :=
        ((Unmarked.first (by decide) htext).value (by decide) (.low (.int _))).ended (by decide)
      exact .throw hnone
    | some free => exact .pure (hfree free rfl)

private theorem yields_move {q : Quarantine} (hq : Unmarked q.directory) {text : String}
    (htext : Unmarked text) : (q.move text : Check σ _).Yields Unmarked := by
  apply (yields_destination hq htext).bind
  intro destination hdestination
  have hparent : ∀ directory, Path.parentText destination = .ok directory → Unmarked directory := by
    intro directory hdirectory
    rw [Path.parentText] at hdirectory
    cases hpath : Path.ofText destination with
    | error e =>
      rw [hpath] at hdirectory
      cases hdirectory
    | ok path =>
      rw [hpath] at hdirectory
      obtain rfl := Except.ok.inj hdirectory
      have hnames := unmarked_of_ofText hdestination hpath
      exact unmarked_text.mpr fun name hmem => hnames name (List.mem_of_mem_dropLast hmem)
  apply (Yields.ofPath hparent).bind
  intro directory hdirectory
  apply (Yields.query _).bind
  intro made _
  split_ifs
  · have hnone : Unmarked s!"Cannot create quarantine directory {directory}" :=
      .first (by decide) hdirectory
    exact .throw hnone
  apply (Yields.query _).bind
  intro renamed _
  split_ifs
  · have hnot : Unmarked s!"Failed to move '{text}' to '{destination}'" :=
      ((Unmarked.first (by decide) htext).value (by decide) hdestination).ended (by decide)
    exact .throw hnot
  · exact .pure hdestination

end Quarantine

private theorem Check.yields_deleteFile {text : String} (htext : Unmarked text) :
    (deleteFile text : Check σ Unit).Yields fun _ => True := by
  apply (Yields.query _).bind
  intro deleted _
  split_ifs
  · have hnot : Unmarked s!"Failed to delete '{text}'" :=
      (Unmarked.first (by decide) htext).ended (by decide)
    exact .throw hnot
  · exact .pure trivial

namespace Checker

variable {o : Options} {root quarantine : Path} {start ns after : Namespace} {scan : Scan}

private theorem unmarked_malformed {path block : String} (hpath : Unmarked path)
    (hblock : Unmarked block)
    (length : Int) : Unmarked (Malformed.mk path block length).message :=
  (((Unmarked.first (by decide) hblock).value (by decide) hpath).value (by decide)
    (.low (.int length))).ended (by decide)

private theorem isUnmarked_judgement {record : FileRecord} (h : record.IsUnmarked) :
    (judgement o record).IsUnmarked := by
  have hjudged : ∀ block ∈ record.judged o.openForWrite, block.IsUnmarked := by
    intro block hmem
    rw [FileRecord.judged] at hmem
    split_ifs at hmem
    · exact h.blocks block (List.mem_of_mem_dropLast hmem)
    · cases hmem
    · exact h.blocks block hmem
  rw [judgement, FileHealth.ofRecord_eq]
  split_ifs
  · exact ⟨h.path, by simp⟩
  · cases hfound : (record.judged o.openForWrite).find? (·.length < 0) with
    | some block =>
      have hblock := hjudged block (List.mem_of_find?_eq_some hfound)
      exact ⟨h.path, unmarked_malformed h.path hblock.id block.length⟩
    | none =>
      refine ⟨h.path, fun judged hmem => ?_⟩
      obtain ⟨block, hblock, rfl⟩ := List.mem_map.mp hmem
      exact hjudged block hblock

/-- What has been found on the way is unmarked, and the namespace still is. -/
def Clean (o : Options) (scan : Scan) (ns : Namespace) : Prop :=
  ns.IsUnmarked ∧ ∃ findings, scan.report = (blank o).report.addAll findings ∧
    ∀ finding ∈ findings, finding.IsUnmarked

private theorem Clean.note (h : Clean o scan ns) (hafter : after.IsUnmarked)
    {findings : List Finding}
    (hfindings : ∀ finding ∈ findings, finding.IsUnmarked) (corrupt : List String) :
    Clean o (scan.note findings corrupt) after := by
  obtain ⟨-, told, hreport, htold⟩ := h
  refine ⟨hafter, told ++ findings, ?_, List.forall_mem_append.mpr ⟨htold, hfindings⟩⟩
  rw [Scan.note, hreport, Report.addAll_append]

private theorem Clean.one (h : Clean o scan ns) (hafter : after.IsUnmarked) {finding : Finding}
    (hfinding : finding.IsUnmarked) : Clean o (scan.note [finding] []) after :=
  h.note hafter (List.forall_mem_singleton.mpr hfinding) []

private theorem clean_treat (hnames : o.Names root quarantine) (hq : Unmarked o.quarantine)
    (h : ns.Valid)
    (ho : scan.report.closed = false) {path : Path} {content : FileNode}
    (hn : ns.node? path = some (.file content)) (hclean : Clean o scan ns) {scan' : Scan}
    (hrun : (treat o path.text).runOn onNamespace scan ns = ((.ok (), scan'), after)) :
    Clean o scan' after := by
  have hpath := hclean.1.text hn
  by_cases hm : o.move = true
  · have hyields := Quarantine.yields_move (q := o.mover) hq hpath scan ns
    rw [treat, runOn_onRefusal, if_pos hm, Check.runOn_bind] at hrun
    rcases Quarantine.move_spec h o.mover hnames.quarantine_eq hnames.quarantine_valid hn scan with
      ⟨cause, hrefused, -⟩ | ⟨target, moved, hmoved, hmoves⟩
    · have hkind : (Failure.quarantine cause).kind = .quarantine := rfl
      rw [hrefused] at hyields hrun
      dsimp only at hyields hrun
      rw [if_pos hkind, runOn_reportFailure ho] at hrun
      cases hrun
      exact hclean.one hclean.1 ⟨hpath, hyields hkind⟩
    · rw [hmoved] at hyields hrun
      dsimp only at hyields hrun
      rw [runOn_report onNamespace ho] at hrun
      cases hrun
      have hdone : (Deed.moved path target).Does quarantine ns after := hmoves
      have hafter : after.IsUnmarked := hclean.1.deed hdone fun _ _ hdeed => by
        cases hdeed
        exact hyields
      exact hclean.one hafter ⟨hpath, hyields⟩
  · by_cases hd : o.delete = true
    · rw [treat, runOn_onRefusal, if_neg hm, if_pos hd, Check.runOn_bind,
        Check.deleteFile_spec h hn] at hrun
      dsimp only at hrun
      rw [runOn_report onNamespace ho] at hrun
      cases hrun
      have hdone : (Deed.deleted path).Does quarantine ns (ns.removed path) := rfl
      have hafter : (ns.removed path).IsUnmarked := hclean.1.deed hdone (by simp)
      exact hclean.one hafter hpath
    · rw [treat_nothing (by simpa using hm) (by simpa using hd)] at hrun
      cases hrun
      exact hclean

private theorem clean_visitFile (hnames : o.Names root quarantine) (hq : Unmarked o.quarantine)
    (h : ns.Valid) (ho : scan.report.closed = false) {path : Path} {content : FileNode}
    (hn : ns.node? path = some (.file content)) (hclean : Clean o scan ns) {scan' : Scan}
    (hrun : (visitFile o path.text).runOn onNamespace scan ns = ((.ok (), scan'), after)) :
    Clean o scan' after := by
  have hrecord := hclean.1.recordOf h.toIsRegistry hn
  have hjudged : Clean o (scan.note [judgement o (ns.recordOf path content)] []) ns :=
    hclean.one hclean.1 (isUnmarked_judgement hrecord)
  have hclosed : (scan.note [judgement o (ns.recordOf path content)] []).report.closed = false := by
    rw [Scan.closed_note, ho]
  have hlisted : ∀ {scan : Scan} {ns : Namespace}, Clean o scan ns →
      Clean o (scan.note [] [path.text]) ns := fun hclean => hclean.note hclean.1 (by simp) _
  rw [runOn_visitFile o h ho hn] at hrun
  dsimp only at hrun
  split_ifs at hrun
  · cases hrun
    exact hlisted hjudged
  · cases htreat : (treat o path.text).runOn onNamespace
        (scan.note [judgement o (ns.recordOf path content)] []) ns with
    | mk ended after' =>
      obtain ⟨failure | _, treated⟩ := ended
      · rw [htreat] at hrun
        cases hrun
      · rw [htreat] at hrun
        cases hrun
        exact hlisted (clean_treat hnames hq h hclosed hn hjudged htreat)
  · cases hrun
    exact hjudged

private theorem gentle_clean (hnames : o.Names root quarantine) (hq : Unmarked o.quarantine)
    (hs : start.Valid) : Walk.Gentle (visit o) root (some quarantine)
      (fun scan ns => Tells o quarantine start scan ns ∧ Clean o scan ns) where
  valid h := h.1.valid hs
  visits := by
    intro scan ns path node ⟨htells, hclean⟩ hn hv
    obtain ⟨scan', after, hrun, htells', hsurvives⟩ := (gentle_full hnames hs).visits htells hn hv
    refine ⟨scan', after, hrun, ⟨htells', ?_⟩, hsurvives⟩
    cases node with
    | directory =>
      have hreport := runOn_report onNamespace htells.closed (.directory path.text) ns
      cases hreport.symm.trans hrun
      exact hclean.one hclean.1 (hclean.1.text hn)
    | file content =>
      exact clean_visitFile hnames hq (htells.valid hs) htells.closed hn hclean hrun

/-! ## Listings -/

private theorem yields_treatListed (hq : Unmarked o.quarantine) {text : String}
    (htext : Unmarked text) :
    (treatListed o text : Check σ _).Yields Treated.IsPlain := by
  apply Yields.onRefusal
  · split_ifs
    · apply (Quarantine.yields_move (q := o.mover) hq htext).bind
      intro destination hdestination
      have hmoved : Unmarked s!"Moved {text} to {destination}" :=
        (Unmarked.first (by decide) htext).value (by decide) hdestination
      exact .pure ⟨List.forall_mem_singleton.mpr hmoved, by simp⟩
    · apply (Check.yields_deleteFile htext).bind
      intro _ _
      have hdeleted : Unmarked s!"Deleted {text}" := .first (by decide) htext
      exact .pure ⟨List.forall_mem_singleton.mpr hdeleted, by simp⟩
    · exact .pure ⟨by simp, by simp⟩
  · intro failure hmessage
    apply (Yields.log _).bind
    intro _ _
    exact .pure ⟨by simp, List.forall_mem_singleton.mpr (fits_failureLine htext hmessage)⟩

private theorem yields_treatAll (hq : Unmarked o.quarantine) {texts : List String}
    (htexts : ∀ text ∈ texts, Unmarked text) :
    (treatAll o texts : Check σ _).Yields Treated.IsPlain := by
  induction texts with
  | nil => exact .pure ⟨by simp, by simp⟩
  | cons text texts ih =>
    apply (yields_treatListed hq (htexts text (by simp))).bind
    intro first hfirst
    apply (ih fun other hother => htexts other (by simp [hother])).bind
    intro others hothers
    exact .pure ⟨List.forall_mem_append.mpr ⟨hfirst.actions, hothers.actions⟩,
      List.forall_mem_append.mpr ⟨hfirst.failures, hothers.failures⟩⟩

private theorem normalize_of_validate {raw : Options} (h : raw.validate = .ok o) :
    Path.normalize raw.path = .ok o.path ∧ Path.normalize raw.quarantine = .ok o.quarantine := by
  rw [Options.validate] at h
  cases hp : Path.normalize raw.path with
  | error e =>
    rw [hp] at h
    cases h
  | ok path =>
    cases hq : Path.normalize raw.quarantine with
    | error e =>
      rw [hp, hq] at h
      cases h
    | ok lost =>
      rw [hp, hq] at h
      simp only [Except.mapError, bind, Except.bind] at h
      split_ifs at h
      cases h
      exact ⟨rfl, rfl⟩

private theorem unmarked_of_normalize {text normal : String} (h : Unmarked text)
    (hn : Path.normalize text = .ok normal) : Unmarked normal := by
  obtain ⟨path, hpath, rfl⟩ := Path.normalize_eq_ok.mp hn
  exact unmarked_text.mpr (unmarked_of_ofText h hpath)

private theorem shows_missing (hpath : Unmarked o.path) (hnames : o.Names root quarantine) :
    Shows .failure (failed o (Failure.pathNotFound root.text).message).output := by
  have hmessage : Unmarked s!"Path '{root.text}' does not exist" :=
    (Unmarked.first (by decide) (hnames.path_eq ▸ hpath)).ended (by decide)
  exact shows_failed hpath hmessage

private theorem shows_full (hnames : o.Names root quarantine) (hpath : Unmarked o.path)
    (hq : Unmarked o.quarantine) (hs : start.Valid) (hunmarked : start.IsUnmarked)
    (hl : o.listCorrupt = false) {depth : Nat} {result : Result}
    (hrun : (run o depth).run onNamespace.answer start = (.ok result, after)) :
    Shows result.status result.output := by
  have hclean : Tells o quarantine start (blank o) start ∧ Clean o (blank o) start :=
    ⟨⟨[], [], rfl, rfl, .nil⟩, hunmarked, [], rfl, by simp⟩
  rcases full_ended hnames hl (gentle_clean hnames hq hs) hclean hrun with
    ⟨-, -, hfailed⟩ | ⟨_, _, hfailure, -⟩ | ⟨visited, scan, made, -, hmade, htour, hsums⟩
  · obtain rfl := Except.ok.inj hfailed
    exact shows_missing hpath hnames
  · cases hfailure
  · obtain rfl := Except.ok.inj hmade
    obtain ⟨-, -, findings, hreport, hfindings⟩ := htour.keeps
    have htext := hsums.output_eq
    rw [hreport] at htext
    rw [hsums.status_eq, hreport]
    exact Report.shows_addAll rfl rfl hpath hfindings htext

private theorem shows_list (hnames : o.Names root quarantine) (hpath : Unmarked o.path)
    (hq : Unmarked o.quarantine) (hs : start.Valid) (hunmarked : start.IsUnmarked)
    (hl : o.listCorrupt = true) {depth : Nat} {result : Result}
    (hrun : (run o depth).run onNamespace.answer start = (.ok result, after)) :
    Shows result.status result.output := by
  rw [run_list hl] at hrun
  rcases listCheck_spec hnames hs depth with
    ⟨-, found, hlist⟩ | ⟨below, node, found, -, -, hlist⟩ |
    ⟨files, malformed, found, -, hfinds, hlist⟩
  · rw [hlist] at hrun
    cases hrun
    exact shows_missing hpath hnames
  · rw [hlist] at hrun
    cases hrun
  have hfiles : ∀ text ∈ (sortedBy Path.text files).map Path.text, Unmarked text := by
    intro text hmem
    obtain ⟨path, hpath, rfl⟩ := List.mem_map.mp hmem
    obtain ⟨content, hn⟩ := hfinds.file (mem_sortedBy.mp hpath)
    exact hunmarked.text hn
  have hmalformed : ∀ line ∈ malformed.map fun path =>
      failureLine path.text "malformed block metadata", Fits .failure line := by
    intro line hmem
    obtain ⟨path, hpath, rfl⟩ := List.mem_map.mp hmem
    have hbad := ((hfinds.malformed_iff path).mp hpath).2
    rw [Namespace.isMalformedAt] at hbad
    cases hn : start.node? path with
    | none =>
      rw [hn] at hbad
      cases hbad
    | some node => exact fits_failureLine (hunmarked.text hn) (by decide)
  obtain ⟨treated, deeds, after', htreat, -, -⟩ := treatAll_spec hnames hs
    (((sortedBy_perm files).nodup_iff.mpr hfinds.nodup).filter _) (listedClosed_of_mem hfinds) .nil
    (by simp) found
  have hchosen : ∀ text ∈ ((sortedBy Path.text files).filter (!start.isOpenAt ·)).map Path.text,
      Unmarked text := by
    intro text hmem
    obtain ⟨path, hpath, rfl⟩ := List.mem_map.mp hmem
    exact hfiles _ (List.mem_map_of_mem (List.mem_of_mem_filter hpath))
  have hyields := yields_treatAll hq hchosen found start
  rw [htreat] at hyields
  rw [hlist, Check.runOn_bind, htreat] at hrun
  obtain ⟨made, hmade⟩ := exists_listingResult o.path ((sortedBy Path.text files).map Path.text)
    { treated with failures := malformed.map (fun path =>
        failureLine path.text "malformed block metadata") ++ treated.failures }
  dsimp only at hyields hrun
  rw [hmade] at hrun
  cases hrun
  refine shows_listingResult hpath hfiles ?_ hmade
  exact ⟨hyields.actions, List.forall_mem_append.mpr ⟨hmalformed, hyields.failures⟩⟩

private theorem run_shows (hns : start.Reachable) (hunmarked : start.IsUnmarked) {raw : Options}
    (hvalid : raw.validate = .ok o) (hpath : Unmarked raw.path)
    (hquarantine : Unmarked raw.quarantine) {depth : Nat} {result : Result}
    (hrun : (run o depth).run onNamespace.answer start = (.ok result, after)) :
    Shows result.status result.output := by
  obtain ⟨root, quarantine, hnames⟩ := Options.exists_names hvalid
  obtain ⟨hroot, hlost⟩ := normalize_of_validate hvalid
  have hpath := unmarked_of_normalize hpath hroot
  have hquarantine := unmarked_of_normalize hquarantine hlost
  cases hl : o.listCorrupt with
  | false => exact shows_full hnames hpath hquarantine hns.valid hunmarked hl hrun
  | true => exact shows_list hnames hpath hquarantine hns.valid hunmarked hl hrun

/-- On a namespace in which no name on a path and no node that holds a block names a status, the
text of a result has the marker of its status and of no other, if the options name none in their
paths. With the marker goes its exit code. -/
theorem marker_tells_status (hns : start.Reachable) (hunmarked : start.IsUnmarked)
    {raw o : Options} (hvalid : raw.validate = .ok o) (hpath : Unmarked raw.path)
    (hquarantine : Unmarked raw.quarantine) {depth : Nat} {result : Result} {after : Namespace}
    (hrun : (run o depth).run onNamespace.answer start = (.ok result, after)) :
    (Occurs "is HEALTHY" result.output ↔ result.status = .healthy) ∧
    (Occurs "is CORRUPT" result.output ↔ result.status = .corrupt) ∧
    (Occurs "FAILURE" result.output ↔ result.status = .failure) ∧
    result.status.exitCode = if Occurs "FAILURE" result.output then -1
      else if Occurs "is CORRUPT" result.output then 1 else 0 := by
  have hshows := run_shows hns hunmarked hvalid hpath hquarantine hrun
  have hhealthy : Occurs "is HEALTHY" result.output ↔ result.status = .healthy :=
    (hshows .healthy).trans eq_comm
  have hcorrupt : Occurs "is CORRUPT" result.output ↔ result.status = .corrupt :=
    (hshows .corrupt).trans eq_comm
  have hfailure : Occurs "FAILURE" result.output ↔ result.status = .failure :=
    (hshows .failure).trans eq_comm
  refine ⟨hhealthy, hcorrupt, hfailure, ?_⟩
  simp only [hfailure, hcorrupt]
  cases result.status <;> rfl

/-- A file with a corrupt block, told with all details. -/
theorem marker_tells_status_of_corrupt_file : ∃ result after,
    (run { path := "/", files := true, blocks := true, locations := true } 10).run
        onNamespace.answer (.oneCorruptFile none 4) = (.ok result, after) ∧
      Occurs "is CORRUPT" result.output ∧ ¬ Occurs "is HEALTHY" result.output ∧
      ¬ Occurs "FAILURE" result.output ∧ result.status.exitCode = 1 := by
  have hvalid : Options.validate { path := "/", files := true, blocks := true, locations := true } =
    .ok { path := "/", files := true, blocks := true, locations := true } := by decide +kernel
  have hreachable := Namespace.oneCorruptFile_reachable none 4
  have hunmarked : (Namespace.oneCorruptFile none 4).IsUnmarked :=
    .of_names (by decide +kernel) (by decide +kernel)
  have hcorrupt : ((run { path := "/", files := true, blocks := true, locations := true } 10).run
    onNamespace.answer (.oneCorruptFile none 4)).1.toOption.map Result.status = some .corrupt := by
    decide +kernel
  obtain ⟨result, hrun, hstatus⟩ := run_eq_of_map _ hcorrupt
  obtain ⟨hhealthy, hmarked, hfailure, -⟩ := marker_tells_status hreachable hunmarked hvalid
    (by decide) (by decide) hrun
  refine ⟨result, _, hrun, hmarked.mpr hstatus, ?_, ?_, by rw [hstatus]; rfl⟩
  · rw [hhealthy, hstatus]
    decide
  · rw [hfailure, hstatus]
    decide

end Checker

end BlockFsck
