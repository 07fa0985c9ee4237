import BlockFsck.Proofs.Checker.Agreement

/-!
# A run that acts leaves nothing to find

A run that moves or deletes and does not end in failure has acted on every damaged file that nobody
writes to. Those that are still in its scope are sound, in both modes, and so a check after it that
leaves out files being written to finds the subtree healthy.
-/

namespace BlockFsck

open Metadata (onNamespace)
open Namespace (oneCorruptFile oneCorruptFile_reachable)

namespace Namespace

/-- Files in scope that nobody writes to have neither negative nor lost blocks. -/
def Clean (ns : Namespace) (root quarantine : Path) : Prop :=
  ∀ path content, ns.FileIn root quarantine path content → content.lease = none →
    ¬ ns.HasNegative content false ∧ ¬ ns.HasLost content false

private theorem Clean.sound {ns : Namespace} {root quarantine path : Path} {content : FileNode}
    (h : ns.Clean root quarantine) (hfile : ns.FileIn root quarantine path content) :
    ¬ ns.HasNegative content false ∧ ¬ ns.HasLost content false := by
  by_cases hclosed : content.lease = none
  · exact h path content hfile hclosed
  · have hopen : content.lease.isSome = true := Option.isSome_iff_ne_none.mpr hclosed
    simp [HasNegative, HasLost, FileNode.judged, hopen]

end Namespace

namespace Checker

variable {o : Options} {start ns after : Namespace} {root quarantine : Path}

/-- A file that nobody writes to is not malformed, and if it is damaged then it was acted on. -/
def Settled (o : Options) (start : Namespace) (deeds : List Deed) (path : Path) : Prop :=
  ∀ content, start.node? path = some (.file content) → content.lease = none →
    ¬ start.HasNegative content o.openForWrite ∧
      (start.HasLost content o.openForWrite → path ∈ deeds.map Deed.path)

private theorem Settled.mono {deeds others : List Deed} {path : Path}
    (h : Settled o start deeds path)
    (hsub : ∀ deed ∈ deeds, deed ∈ others) : Settled o start others path := by
  intro content hn hclosed
  obtain ⟨hnot, hacted⟩ := h content hn hclosed
  refine ⟨hnot, ?_⟩
  intro hlost
  obtain ⟨deed, hdeed, he⟩ := List.mem_map.mp (hacted hlost)
  exact List.mem_map.mpr ⟨deed, hsub deed hdeed, he⟩

private theorem visit_settles (hnames : o.Names root quarantine) (hs : start.Valid)
    (hacts : o.move = true ∨ o.delete = true) {path : Path} {kind : EntryKind}
    (hfile : kind = .file → ∃ content, start.node? path = some (.file content))
    {deeds : List Deed} (hdeeds : Deeds quarantine o.move (ActsOn o) start deeds ns)
    (hfresh : path ∉ deeds.map Deed.path) {scan : Scan} (ho : scan.report.closed = false) :
    ∃ told corrupt more between, (visit o ⟨path.text, kind⟩).runOn onNamespace scan ns =
        ((.ok (), scan.note told corrupt), between) ∧
      Deeds quarantine o.move (ActsOn o) start (deeds ++ more) between ∧
      (∀ deed ∈ more, deed.path = path) ∧
      (told.any Finding.isFailure = false → kind = .file → Settled o start more path) := by
  cases kind with
  | directory =>
    refine ⟨[.directory path.text], [], [], ns, runOn_report onNamespace ho _ ns, ?_, ?_, ?_⟩
    · simpa using hdeeds
    · simp
    · intro _ hkind
      cases hkind
  | file =>
    obtain ⟨content, hstart⟩ := hfile rfl
    have hacted := hdeeds.acted hs
    have hn : ns.node? path = some (.file content) := by
      rw [hacted.kept hfresh (by simp [hstart]), hstart]
    have hrecord := hacted.recordOf_eq hs hstart (Deed.not_deleted hfresh) path
    obtain ⟨others, between, hrun, -, hcome⟩ := visitFile_spec hnames hacted.valid ho hn
    rw [hrecord] at hrun hcome
    -- nothing reported means no negative block, and so a lost one makes the file damaged
    have hsound : (judgement o (start.recordOf path content) :: others).any Finding.isFailure =
        false → ¬ start.HasNegative content o.openForWrite ∧
          others.any Finding.isFailure = false := by
      intro hnone
      obtain ⟨hjudged, hothers⟩ := Bool.or_eq_false_iff.mp hnone
      refine ⟨?_, hothers⟩
      intro hneg
      rw [isFailure_judgement.mpr ((hs.negative_iff hstart _).mpr hneg)] at hjudged
      cases hjudged
    have hdamaged : ¬ start.HasNegative content o.openForWrite → content.lease = none →
        start.HasLost content o.openForWrite → ActsOn o path (start.recordOf path content) := by
      intro hnot hclosed hlost
      refine ⟨(hs.isDamaged_iff hstart _).mpr ⟨hnot, hlost⟩, ?_⟩
      show content.lease.isSome = false
      rw [hclosed]
      rfl
    rcases hcome with ⟨rfl, -, hfails⟩ | ⟨deed, rfl, -, hkind, hP, hd⟩
    · refine ⟨_, _, [], between, hrun, by simpa using hdeeds, by simp, ?_⟩
      intro hnone _ others' hothers hclosed
      obtain rfl := Namespace.file_inj hstart hothers
      obtain ⟨hnot, hquiet⟩ := hsound hnone
      refine ⟨hnot, ?_⟩
      intro hlost
      rw [hfails (hdamaged hnot hclosed hlost) hacts] at hquiet
      cases hquiet
    · refine ⟨_, _, [deed], between, hrun, hdeeds.snoc hkind hn (hrecord ▸ hP) hd, by simp, ?_⟩
      intro hnone _ others' hothers _
      obtain rfl := Namespace.file_inj hstart hothers
      exact ⟨(hsound hnone).1, fun _ => List.mem_cons_self ..⟩

private theorem visits_settle (hnames : o.Names root quarantine) (hs : start.Valid)
    (hacts : o.move = true ∨ o.delete = true) {visited : List (Path × EntryKind)}
    (hnodup : (visited.map Prod.fst).Nodup)
    (hfiles : ∀ e ∈ visited, e.2 = .file → ∃ content, start.node? e.1 = some (.file content))
    {deeds : List Deed} (hdeeds : Deeds quarantine o.move (ActsOn o) start deeds ns)
    (hfresh : ∀ e ∈ visited, e.1 ∉ deeds.map Deed.path) {scan scan' : Scan}
    (ho : scan.report.closed = false)
    (hrun : Check.runOn onNamespace (visited.forM fun e => visit o ⟨e.1.text, e.2⟩) scan ns =
      ((.ok (), scan'), after)) :
    ∃ told more, scan'.report = scan.report.addAll told ∧
      Deeds quarantine o.move (ActsOn o) start (deeds ++ more) after ∧
      (∀ deed ∈ more, deed.path ∈ visited.map Prod.fst) ∧
      (told.any Finding.isFailure = false → ∀ e ∈ visited, e.2 = .file →
        Settled o start more e.1) := by
  induction visited generalizing ns deeds scan with
  | nil =>
    cases hrun
    exact ⟨[], [], rfl, by simpa using hdeeds, by simp, by simp⟩
  | cons e visited ih =>
    obtain ⟨hnew, hrestnodup⟩ := List.nodup_cons.mp hnodup
    obtain ⟨told, corrupt, more, between, hvisit, hbetween, hpath, hsettled⟩ :=
      visit_settles hnames hs hacts (hfiles e (List.mem_cons_self ..)) hdeeds
        (hfresh e (List.mem_cons_self ..)) ho
    rw [Check.runOn_forM_cons, hvisit] at hrun
    have hrestfresh : ∀ e' ∈ visited, e'.1 ∉ (deeds ++ more).map Deed.path := by
      intro e' he' hmem
      rw [List.map_append, List.mem_append] at hmem
      rcases hmem with hmem | hmem
      · exact hfresh e' (List.mem_cons_of_mem _ he') hmem
      · obtain ⟨deed, hdeed, he⟩ := List.mem_map.mp hmem
        rw [hpath deed hdeed] at he
        exact hnew (List.mem_map.mpr ⟨e', he', he.symm⟩)
    obtain ⟨others, later, hreport, hlater, hpaths, hrest⟩ :=
      ih hrestnodup (fun e' he' => hfiles e' (List.mem_cons_of_mem _ he')) hbetween hrestfresh
        (by rw [Scan.closed_note, ho]) hrun
    refine ⟨told ++ others, more ++ later, ?_, ?_, ?_, ?_⟩
    · rw [hreport, Report.addAll_append]
      rfl
    · rw [← List.append_assoc]
      exact hlater
    · intro deed hdeed
      rcases List.mem_append.mp hdeed with hdeed | hdeed
      · rw [hpath deed hdeed]
        exact List.mem_cons_self ..
      · exact List.mem_cons_of_mem _ (hpaths deed hdeed)
    · intro hnone
      rw [List.any_append, Bool.or_eq_false_iff] at hnone
      intro e' he' hkind
      rcases List.mem_cons.mp he' with rfl | he'
      · exact (hsettled hnone.1 hkind).mono fun deed hdeed => List.mem_append_left _ hdeed
      · exact (hrest hnone.2 e' he' hkind).mono fun deed hdeed => List.mem_append_right _ hdeed

private theorem full_settles {depth : Nat} {result : Result} (hnames : o.Names root quarantine)
    (hl : o.listCorrupt = false) (hs : start.Valid) (hacts : o.move = true ∨ o.delete = true)
    (hrun : (run o depth).run onNamespace.answer start = (.ok result, after))
    (hstatus : result.status ≠ .failure) :
    ∃ deeds, Deeds quarantine o.move (ActsOn o) start deeds after ∧
      (∀ deed ∈ deeds, root <+: deed.path) ∧
      ∀ path content, start.FileIn root quarantine path content → Settled o start deeds path := by
  rcases full_ended hnames hl (gentle_full hnames hs) ⟨[], [], rfl, rfl, .nil⟩ hrun with
    ⟨-, -, hfailed⟩ | ⟨failure, scan, hfailure, -⟩ |
    ⟨visited, scan, made, -, hmade, htour, hsums⟩
  · cases hfailed
    exact absurd rfl hstatus
  · cases hfailure
  obtain rfl := Except.ok.inj hmade
  have hnodup : (visited.map Prod.fst).Nodup :=
    Path.nodup_of_before (List.pairwise_map.mpr htour.ordered)
  have hfiles : ∀ e ∈ visited, e.2 = .file →
      ∃ content, start.node? e.1 = some (.file content) := by
    intro e he hkind
    cases hn : start.node? e.1 with
    | none =>
      rw [htour.unknown e he hn] at hkind
      cases hkind
    | some node =>
      have hnode := htour.known e he node hn
      rw [hkind] at hnode
      cases node with
      | directory => cases hnode
      | file content => exact ⟨content, rfl⟩
  obtain ⟨told, deeds, hreport, hdeeds, hpaths, hsettled⟩ :=
    visits_settle hnames hs hacts hnodup hfiles .nil (by simp) rfl htour.runs
  rw [List.nil_append] at hdeeds
  refine ⟨deeds, hdeeds, ?_, ?_⟩
  · intro deed hdeed
    obtain ⟨e, he, hpath⟩ := List.mem_map.mp (hpaths deed hdeed)
    rw [← hpath]
    exact (htour.visible e he).1
  · intro path content hfile
    have hquiet : told.any Finding.isFailure = false := by
      rw [hsums.status_eq, hreport, Report.status_addAll rfl] at hstatus
      by_contra hany
      rw [if_pos (by simpa using hany)] at hstatus
      exact hstatus rfl
    have hvisible : Walk.Visible root (some quarantine) path (Node.file content).kind :=
      visible_file_iff.mpr hfile.2
    have hmem := htour.complete hfile.2.1 hvisible hfile.1
    exact hsettled hquiet _ hmem rfl

private theorem list_settles {depth : Nat} {result : Result} (hnames : o.Names root quarantine)
    (hl : o.listCorrupt = true) (hs : start.Valid) (hacts : o.move = true ∨ o.delete = true)
    (hrun : (run o depth).run onNamespace.answer start = (.ok result, after))
    (hstatus : result.status ≠ .failure) :
    ∃ files deeds, Deeds quarantine o.move (ListedClosed files) start deeds after ∧
      (∀ deed ∈ deeds, root <+: deed.path) ∧
      ∀ path content, start.FileIn root quarantine path content → Settled o start deeds path := by
  rcases list_ended hnames hl hs hrun with
    ⟨-, -, hfailed⟩ | ⟨_, _, _, -, -, -, hfailure⟩ |
    ⟨files, malformed, treated, deeds, made, -, hfinds, hdeeds, htreats, hended, hmade⟩
  · cases hfailed
    exact absurd rfl hstatus
  · cases hfailure
  obtain rfl := Except.ok.inj hended
  have hquiet : malformed = [] ∧ treated.failures = [] := by
    by_contra hany
    rw [(listingResult_spec hmade).2, if_neg (by simpa using hany)] at hstatus
    exact hstatus rfl
  obtain ⟨hnone, htreated⟩ := hquiet
  refine ⟨files, deeds, hdeeds, ?_, ?_⟩
  · intro deed hdeed
    obtain ⟨content, -, hlisted⟩ := (hdeeds.acted hs).source deed hdeed
    obtain ⟨others, _, hfound⟩ := (hfinds.mem_iff deed.path).mp hlisted.1
    rcases hfound with ⟨hscope, -⟩ | ⟨-, htaken⟩
    · exact hscope.1
    · exact (Listing.isTaken_iff.mp htaken).1
  · intro path content hfile others hothers hclosed
    have hscope := scope_iff.mpr hfile.2
    have hnot : ¬ start.HasNegative others o.openForWrite := by
      intro hneg
      have hmalformed : path ∈ malformed := by
        rw [hfinds.malformed_iff, Namespace.isMalformedAt, hothers]
        have hblock := (hs.negative_iff hothers o.openForWrite).mpr hneg
        exact ⟨hscope, by simpa [listing] using hblock⟩
      simp [hnone] at hmalformed
    refine ⟨hnot, ?_⟩
    intro hlost
    have hdamaged : start.isDamagedAt o.openForWrite path = true :=
      hs.isDamagedAt_iff.mpr ⟨others, hothers, hnot, hlost⟩
    have hmem : path ∈ files := (hfinds.mem_iff path).mpr ⟨others, hothers, .inl ⟨hscope, hdamaged⟩⟩
    have hopen : start.isOpenAt path = false := by
      simp [Namespace.isOpenAt, hothers, hclosed]
    have hhere : path ∈ (sortedBy Path.text files).filter (!start.isOpenAt ·) :=
      List.mem_filter.mpr ⟨mem_sortedBy.mpr hmem, by simp [hopen]⟩
    rcases htreats.told htreated path hhere with hdone | ⟨hm, hd⟩
    · exact hdone
    · simp [hm, hd] at hacts

private theorem clean_after {moves : Bool} {P : Path → FileRecord → Prop} {deeds : List Deed}
    (hs : start.Valid) (hdeeds : Deeds quarantine moves P start deeds after)
    (hunder : ∀ deed ∈ deeds, root <+: deed.path)
    (hsettled : ∀ path content, start.FileIn root quarantine path content →
      Settled o start deeds path) : after.Clean root quarantine := by
  intro path content hfile hclosed
  obtain ⟨hn, hroot, hscope⟩ := hfile
  have hacted := hdeeds.acted hs
  have hnotarget : ∀ source, .moved source path ∉ deeds := by
    intro source hmem
    obtain ⟨hq, hne, -⟩ := hacted.below hmem
    rcases hscope with hinside | hout
    · exact (hacted.outside hmem).1 (hinside.trans (hunder _ hmem))
    · exact hout ⟨hq, hne⟩
  obtain ⟨hstart, hnot⟩ := hacted.of_not_target hn hnotarget
  obtain ⟨hnoneg, hlost⟩ := hsettled path content ⟨hstart, hroot, hscope⟩ content hstart hclosed
  have hrecord := hacted.recordOf_eq hs hstart (Deed.not_deleted hnot) path
  have hjudged := content.judged_closed hclosed
  constructor
  · rw [Namespace.HasNegative, ← hacted.valid.negative_iff hn, hrecord, hs.negative_iff hstart,
      FileNode.judged_closed hclosed]
    rwa [Namespace.HasNegative, FileNode.judged_closed hclosed] at hnoneg
  · intro hafter
    apply hnot
    apply hlost
    rw [Namespace.HasLost, ← hacted.valid.lost_iff hn, hrecord, hs.lost_iff hstart,
      FileNode.judged_closed hclosed] at hafter
    rwa [Namespace.HasLost, FileNode.judged_closed hclosed]

private theorem healthy_of_clean {depth : Nat} {result : Result} (hnames : o.Names root quarantine)
    (hm : o.move = false) (hd : o.delete = false) (hv : o.openForWrite = false) (h : ns.Valid)
    (hsome : ns.node? root ≠ none) (hclean : ns.Clean root quarantine)
    (hrun : (run o depth).run onNamespace.answer ns = (.ok result, after)) :
    result.status = .healthy := by
  have hgood : NoNegative ns o.openForWrite root quarantine := by
    intro path content hfile
    rw [hv]
    exact (hclean.sound hfile).1
  cases hl : o.listCorrupt with
  | false =>
    rcases readOnly_result hnames hl hm hd h hrun with
      ⟨hnone, -, -⟩ | ⟨paths, -, -, hordered, hpaths, -, hstatus, hfiles⟩
    · exact absurd hnone hsome
    · have hverdict := isVerdict_of_noted h hsome hordered hpaths hstatus hfiles
      have hnofiles : result.corruptFiles = [] := by
        apply List.eq_nil_iff_forall_not_mem.mpr
        intro file hmem
        obtain ⟨path, content, hfile, hlost, -⟩ :=
          (hverdict.mem_corruptFiles_iff hgood file).mp hmem
        rw [hv] at hlost
        exact (hclean.sound hfile).2 hlost
      rw [hverdict.status_eq hsome hgood, if_pos hnofiles]
  | true =>
    obtain ⟨files, malformed, hfinds, -, hstatus⟩ := list_readOnly hnames hl hm h hsome hrun
    have hnofiles : files = [] := by
      apply List.eq_nil_iff_forall_not_mem.mpr
      intro path hmem
      rcases (hgood.mem_files_iff h hfinds path).mp hmem with ⟨content, hfile, hlost⟩ | ⟨hopen, -⟩
      · rw [hv] at hlost
        exact (hclean.sound hfile).2 hlost
      · simp [hv] at hopen
    rw [hstatus, if_pos (hgood.malformed_eq_nil h hfinds), if_pos hnofiles]

/-- After a run that moves or deletes and does not end in failure, a check of the same directory
that only reads and leaves out open files finds it healthy, whichever modes the two have. -/
theorem remediation_converges (hns : ns.Reachable) {raw raw' o o' : Options}
    (hvalid : raw.validate = .ok o) (hvalid' : raw'.validate = .ok o')
    (hpath : o'.path = o.path) (hquarantine : o'.quarantine = o.quarantine)
    (hacts : o.move = true ∨ o.delete = true) (hm : o'.move = false) (hd : o'.delete = false)
    (hv : o'.openForWrite = false) (hroot : Path.ofText o.path = .ok root)
    (hdirectory : ns.node? root = some .directory) {depth depth' : Nat} {result result' : Result}
    {after' : Namespace} (hrun : (run o depth).run onNamespace.answer ns = (.ok result, after))
    (hstatus : result.status ≠ .failure)
    (hrun' : (run o' depth').run onNamespace.answer after = (.ok result', after')) :
    result'.status = .healthy := by
  have hs := hns.valid
  obtain ⟨quarantine, hq⟩ : ∃ quarantine, Path.ofText o.quarantine = .ok quarantine := by
    obtain ⟨root', quarantine, hnames⟩ := Options.exists_names hvalid
    exact ⟨quarantine, by rw [hnames.quarantine_eq, Path.ofText_text hnames.quarantine_valid]⟩
  have hnames := Options.names_of_validate hvalid hroot hq
  have hnames' := Options.names_of_validate hvalid' (hpath ▸ hroot) (hquarantine ▸ hq)
  have hafter : ∃ P deeds, Deeds quarantine o.move P ns deeds after ∧
      (∀ deed ∈ deeds, root <+: deed.path) ∧
      ∀ path content, ns.FileIn root quarantine path content → Settled o ns deeds path := by
    cases hl : o.listCorrupt with
    | false =>
      obtain ⟨deeds, hdeeds⟩ := full_settles hnames hl hs hacts hrun hstatus
      exact ⟨_, deeds, hdeeds⟩
    | true =>
      obtain ⟨files, deeds, hdeeds⟩ := list_settles hnames hl hs hacts hrun hstatus
      exact ⟨_, deeds, hdeeds⟩
  obtain ⟨P, deeds, hdeeds, hunder, hsettled⟩ := hafter
  have hacted := hdeeds.acted hs
  have hsome : after.node? root ≠ none := by
    have hnot : root ∉ deeds.map Deed.path := by
      intro hmem
      obtain ⟨deed, hdeed, rfl⟩ := List.mem_map.mp hmem
      obtain ⟨content, hn, -⟩ := hacted.source deed hdeed
      rw [hdirectory] at hn
      cases hn
    rw [hacted.kept hnot (by simp [hdirectory]), hdirectory]
    simp
  exact healthy_of_clean hnames' hm hd hv hacted.valid hsome
    (clean_after hs hdeeds hunder hsettled) hrun'

/-- A full check that moves the corrupt file away, and a listing after it. -/
theorem remediation_converges_of_move : ∃ result after result' after',
    (run { path := "/", move := true } 10).run onNamespace.answer (oneCorruptFile none 4) =
        (.ok result, after) ∧ result.status ≠ .failure ∧
      (run { path := "/", listCorrupt := true } 10).run onNamespace.answer after =
        (.ok result', after') ∧ result'.status = .healthy := by
  have hvalid : Options.validate { path := "/", move := true } =
    .ok { path := "/", move := true } := by decide +kernel
  have hvalid' : Options.validate { path := "/", listCorrupt := true } =
    .ok { path := "/", listCorrupt := true } := by decide +kernel
  have hroot : Path.ofText "/" = .ok [] := by decide +kernel
  have hcorrupt : ((run { path := "/", move := true } 10).run onNamespace.answer
    (oneCorruptFile none 4)).1.toOption.map Result.status = some .corrupt := by decide +kernel
  obtain ⟨result, hrun, hstatus⟩ := run_eq_of_map _ hcorrupt
  have hok' : ((run { path := "/", listCorrupt := true } 10).run onNamespace.answer
    ((run { path := "/", move := true } 10).run onNamespace.answer
      (oneCorruptFile none 4)).2).1.isOk = true := by decide +kernel
  obtain ⟨result', hrun'⟩ := run_eq_of_isOk hok'
  have hnofailure : result.status ≠ .failure := by simp [hstatus]
  refine ⟨result, _, result', _, hrun, hnofailure, hrun', ?_⟩
  exact remediation_converges (oneCorruptFile_reachable none 4) hvalid hvalid' rfl rfl (.inl rfl)
    rfl rfl rfl hroot rfl hrun hnofailure hrun'

end Checker

end BlockFsck
