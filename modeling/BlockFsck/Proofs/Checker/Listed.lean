import BlockFsck.Proofs.Checker.Deeds
import BlockFsck.Proofs.Listing

/-!
# The deeds of a listing

In listing mode the files are found first, while nothing changes, and then treated one after the
other, each as it was found. Those open for write are listed but not treated.
-/

namespace BlockFsck.Checker

open Metadata (onNamespace)

variable {σ : Type} {o : Options} {start ns after : Namespace} {root quarantine : Path}

/-- A listed file that nobody writes to stays: it was not to be deleted, and if it was to be moved
then, after some deeds, its place below the quarantine directory was taken, or it is in there. -/
def LeftAlone (o : Options) (quarantine : Path) (P : Path → FileRecord → Prop) (start : Namespace)
    (path : Path) : Prop :=
  o.delete = false ∧ (o.move = true → ∃ deeds ns, Deeds quarantine o.move P start deeds ns ∧
    path ∉ deeds.map Deed.path ∧
    (ns.FreeBelow quarantine path → ns.Clear quarantine → quarantine <+: path))

private theorem treatListed_spec (hnames : o.Names root quarantine) (h : ns.Valid) {path : Path}
    {content : FileNode} (hn : ns.node? path = some (.file content)) (s : σ) :
    (∃ treated, (treatListed o path.text).runOn onNamespace s ns = ((.ok treated, s), ns) ∧
        treated.actions = [] ∧ (treated.failures = [] ↔ o.move = false) ∧ o.delete = false ∧
        (o.move = true → ns.FreeBelow quarantine path → ns.Clear quarantine →
          quarantine <+: path)) ∨
      ∃ (deed : Deed) (after : Namespace), (treatListed o path.text).runOn onNamespace s ns =
          ((.ok { actions := [deed.line] }, s), after) ∧
        deed.path = path ∧ deed.isMove = o.move ∧ deed.Does quarantine ns after := by
  rw [treatListed, runOn_onRefusal]
  by_cases hm : o.move = true
  · rw [if_pos hm, Check.runOn_bind]
    have hdelete : o.delete = false := by
      have hnot := hnames.exclusive
      simpa [hm] using hnot
    rcases Quarantine.move_spec h o.mover hnames.quarantine_eq hnames.quarantine_valid hn s with
      ⟨cause, hrefused, hobstacle⟩ | ⟨target, after, hrun, hmoves⟩
    · left
      have hkind : (Failure.quarantine cause).kind = .quarantine := rfl
      rw [hrefused]
      dsimp only
      rw [if_pos hkind, Check.runOn_bind, Check.runOn_log]
      exact ⟨_, rfl, rfl, by simp [hm], hdelete, fun _ => hobstacle⟩
    · right
      rw [hrun]
      exact ⟨.moved path target, after, rfl, rfl, by simp [Deed.isMove, hm], hmoves⟩
  · rw [if_neg hm]
    by_cases hd : o.delete = true
    · right
      rw [if_pos hd, Check.runOn_bind, Check.deleteFile_spec h hn]
      exact ⟨.deleted path, _, rfl, rfl, by simp [Deed.isMove, hm], rfl⟩
    · left
      rw [if_neg hd]
      exact ⟨{}, rfl, rfl, by simp [hm], by simpa using hd, fun hmove => absurd hmove hm⟩

/-- What came of files that were to be treated: deeds, which the lines tell, and failures for those
that should have gone and did not. -/
structure Treats (o : Options) (quarantine : Path) (P : Path → FileRecord → Prop)
    (start : Namespace) (paths : List Path) (treated : Treated) (done : List Deed) : Prop where
  actions : treated.actions = done.map Deed.line
  each : ∀ path ∈ paths, path ∈ done.map Deed.path ∨ LeftAlone o quarantine P start path
  told : treated.failures = [] → ∀ path ∈ paths, path ∈ done.map Deed.path ∨
    o.move = false ∧ o.delete = false
  silent : o.move = false → treated.failures = []

/-- Files that are still as they were at the start are treated one after the other. -/
theorem treatAll_spec (hnames : o.Names root quarantine) (hs : start.Valid)
    {P : Path → FileRecord → Prop} {paths : List Path} (hnodup : paths.Nodup)
    (hfiles : ∀ path ∈ paths, ∃ content, start.node? path = some (.file content) ∧
      P path (start.recordOf path content)) {deeds : List Deed}
    (hdeeds : Deeds quarantine o.move P start deeds ns)
    (hfresh : ∀ path ∈ paths, path ∉ deeds.map Deed.path) (s : σ) :
    ∃ treated more after, (treatAll o (paths.map Path.text)).runOn onNamespace s ns =
        ((.ok treated, s), after) ∧ Deeds quarantine o.move P start (deeds ++ more) after ∧
      Treats o quarantine P start paths treated more := by
  induction paths generalizing ns deeds with
  | nil =>
    refine ⟨{}, [], ns, rfl, by simpa using hdeeds, rfl, ?_, ?_, fun _ => rfl⟩
    · simp
    · simp
  | cons path paths ih =>
    obtain ⟨hnew, hrestnodup⟩ := List.nodup_cons.mp hnodup
    obtain ⟨content, hstart, hP⟩ := hfiles path (List.mem_cons_self ..)
    have hacted := hdeeds.acted hs
    have hnot := hfresh path (List.mem_cons_self ..)
    have hn : ns.node? path = some (.file content) := by
      rw [hacted.kept hnot (by simp [hstart]), hstart]
    have hrecord := hacted.recordOf_eq hs hstart (Deed.not_deleted hnot) path
    have hrestfiles := fun other hmem => hfiles other (List.mem_cons_of_mem path hmem)
    rw [List.map_cons, treatAll, Check.runOn_bind]
    rcases treatListed_spec hnames hacted.valid hn s with
      ⟨first, hrun, hnone, hfails, hdelete, hobstacle⟩ | ⟨deed, between, hrun, rfl, hkind, hd⟩
    · have hrestfresh := fun other hmem => hfresh other (List.mem_cons_of_mem path hmem)
      obtain ⟨others, more, after, hrest, hmore, htreats⟩ :=
        ih hrestnodup hrestfiles hdeeds hrestfresh
      have hleft : LeftAlone o quarantine P start path :=
        ⟨hdelete, fun hmove => ⟨deeds, ns, hdeeds, hnot, hobstacle hmove⟩⟩
      rw [hrun]
      dsimp only
      rw [Check.runOn_bind, hrest]
      refine ⟨_, more, after, rfl, hmore, ?_, ?_, ?_, ?_⟩
      · rw [hnone, htreats.actions, List.nil_append]
      · exact List.forall_mem_cons.mpr ⟨.inr hleft, htreats.each⟩
      · intro hfailures
        obtain ⟨hfirst, hothers⟩ := List.append_eq_nil_iff.mp hfailures
        exact List.forall_mem_cons.mpr ⟨.inr ⟨hfails.mp hfirst, hdelete⟩, htreats.told hothers⟩
      · intro hmove
        exact List.append_eq_nil_iff.mpr ⟨hfails.mpr hmove, htreats.silent hmove⟩
    · have hnext := hdeeds.snoc hkind hn (hrecord ▸ hP) hd
      have hrestfresh : ∀ other ∈ paths, other ∉ (deeds ++ [deed]).map Deed.path := by
        intro other hmem hdone
        rw [List.map_append, List.mem_append, List.map_singleton, List.mem_singleton] at hdone
        rcases hdone with hdone | rfl
        · exact hfresh other (List.mem_cons_of_mem _ hmem) hdone
        · exact hnew hmem
      obtain ⟨others, more, after, hrest, hmore, htreats⟩ :=
        ih hrestnodup hrestfiles hnext hrestfresh
      rw [hrun]
      dsimp only
      rw [Check.runOn_bind, hrest]
      have hhere : deed.path ∈ (deed :: more).map Deed.path := List.mem_cons_self ..
      refine ⟨_, deed :: more, after, rfl, ?_, ?_, ?_, ?_, ?_⟩
      · rw [List.append_cons]
        exact hmore
      · rw [htreats.actions, List.map_cons, List.singleton_append]
      · refine List.forall_mem_cons.mpr ⟨.inl hhere, ?_⟩
        intro other hmem
        exact (htreats.each other hmem).imp_left (List.mem_cons_of_mem _)
      · intro hfailures
        refine List.forall_mem_cons.mpr ⟨.inl hhere, ?_⟩
        intro other hmem
        exact (htreats.told hfailures other hmem).imp_left (List.mem_cons_of_mem _)
      · exact htreats.silent

/-- The listing that a run in listing mode makes. -/
def listing (o : Options) : Listing :=
  { openVisible := o.openForWrite, quarantine := some o.quarantine }

/-- Listed files that nobody writes to. -/
def ListedClosed (files : List Path) (path : Path) (record : FileRecord) : Prop :=
  path ∈ files ∧ record.openForWrite = false

theorem listedClosed_of_mem {files malformed : List Path}
    (hfinds : (listing o).Finds root (some quarantine) start files malformed) :
    ∀ path ∈ (sortedBy Path.text files).filter (!start.isOpenAt ·),
      ∃ content, start.node? path = some (.file content) ∧
        ListedClosed files path (start.recordOf path content) := by
  intro path hmem
  obtain ⟨hmem, hopen⟩ := List.mem_filter.mp hmem
  rw [mem_sortedBy] at hmem
  obtain ⟨content, hn⟩ := hfinds.file hmem
  rw [Namespace.isOpenAt, hn, Bool.not_eq_true'] at hopen
  exact ⟨content, hn, hmem, hopen⟩

/-- A listing always has its closing sentence, as there are no fewer than zero files on it. -/
theorem exists_listingResult (path : String) (files : List String) (treated : Treated) :
    ∃ result, listingResult path files treated = .ok result := by
  rw [listingResult]
  split
  · have hsentence : ∃ closing, Listing.sentence files.length path = .ok closing := by
      rw [Listing.sentence, if_neg (by omega)]
      split_ifs <;> exact ⟨_, rfl⟩
    obtain ⟨closing, hclosing⟩ := hsentence
    rw [hclosing]
    exact ⟨_, rfl⟩
  · exact ⟨_, rfl⟩

theorem listingResult_spec {path : String} {files : List String} {treated : Treated}
    {result : Result} (hmade : listingResult path files treated = .ok result) :
    result.corruptFiles = files ∧ result.status = if treated.failures = [] then
      if files = [] then .healthy else .corrupt else .failure := by
  rw [listingResult] at hmade
  by_cases hf : treated.failures = []
  · rw [if_pos (by simp [hf])] at hmade
    cases hsentence : Listing.sentence files.length path with
    | error e => simp [hsentence, bind, Except.bind] at hmade
    | ok closing =>
      rw [hsentence] at hmade
      cases hmade
      rw [if_pos hf]
      exact ⟨rfl, by simp only [List.isEmpty_iff]⟩
  · rw [if_neg (by simpa using hf)] at hmade
    cases hmade
    rw [if_neg hf]
    exact ⟨rfl, rfl⟩

/-- A listing misses its root or breaks off, and nothing has changed, or it goes on to treat the
files it found that nobody writes to, and sums up. The malformed files that it found are failures
too. -/
theorem listCheck_spec (hnames : o.Names root quarantine) (hs : start.Valid) (depth : Nat) :
    (start.node? root = none ∧ ∃ found, (listCheck o depth).runOn onNamespace {} start =
      ((.error (.pathNotFound root.text), found), start)) ∨
    (∃ below node found, start.node? below = some node ∧ root.length + depth ≤ below.length ∧
      (listCheck o depth).runOn onNamespace {} start =
        ((.error (.tooDeep below.text), found), start)) ∨
    ∃ files malformed found, start.node? root ≠ none ∧
      (listing o).Finds root (some quarantine) start files malformed ∧
      (listCheck o depth).runOn onNamespace {} start = Check.runOn onNamespace (do
        let treated ← treatAll o
          (((sortedBy Path.text files).filter (!start.isOpenAt ·)).map Path.text)
        match listingResult o.path ((sortedBy Path.text files).map Path.text)
          { treated with failures := malformed.map (fun path =>
            failureLine path.text "malformed block metadata") ++ treated.failures } with
        | .ok result => return result
        | .error e => throw (.argument e)) found start := by
  have hquarantine : (listing o).quarantine.mapM Path.ofText = .ok (some quarantine) := by
    have hqs : ∀ q ∈ some quarantine, q.Valid := by simpa using hnames.quarantine_valid
    rw [listing, hnames.quarantine_eq]
    exact Path.mapM_ofText_text hqs
  have hroot := Path.ofText_text hnames.root_valid
  rw [listCheck, Check.runOn_bind, hnames.path_eq]
  rcases Listing.run_spec (listing o) hs hroot hquarantine depth {} with
    ⟨hnone, s, hlist⟩ | ⟨below, node, s, hbelow, hdeep, hlist⟩ |
    ⟨files, malformed, found, hsome, hlist, hholds, hfinds⟩
  · rw [listing] at hlist
    rw [hlist]
    exact .inl ⟨hnone, _, rfl⟩
  · rw [listing] at hlist
    rw [hlist]
    exact .inr (.inl ⟨below, node, _, hbelow, hdeep, rfl⟩)
  · have hsorted : ∀ path ∈ sortedBy Path.text files, path ∈ files := fun path => mem_sortedBy.mp
    have hclosed := hfinds.closed hs hholds hsorted
    rw [listing] at hlist
    rw [hlist]
    dsimp only
    rw [Check.runOn_bind, Check.runOn_get]
    dsimp only
    rw [hclosed, hholds.malformed_eq, List.map_map]
    exact .inr (.inr ⟨files, malformed, found, hsome, hfinds, rfl⟩)

/-- A listing misses its root or breaks off, and nothing has changed, or it has treated the files
it found that nobody writes to. The malformed files that it found are failures too. -/
theorem list_ended {depth : Nat} {ended : Except Failure Result} (hnames : o.Names root quarantine)
    (hl : o.listCorrupt = true) (hs : start.Valid)
    (hrun : (run o depth).run onNamespace.answer start = (ended, after)) :
    (start.node? root = none ∧ after = start ∧
      ended = .ok (failed o (Failure.pathNotFound root.text).message)) ∨
    (∃ below node failure, start.node? below = some node ∧ root.length + depth ≤ below.length ∧
      after = start ∧ ended = .error failure) ∨
    ∃ files malformed treated deeds result, start.node? root ≠ none ∧
      (listing o).Finds root (some quarantine) start files malformed ∧
      Deeds quarantine o.move (ListedClosed files) start deeds after ∧
      Treats o quarantine (ListedClosed files) start
        ((sortedBy Path.text files).filter (!start.isOpenAt ·)) treated deeds ∧
      ended = .ok result ∧
      listingResult o.path ((sortedBy Path.text files).map Path.text)
        { treated with failures := malformed.map (fun path =>
            failureLine path.text "malformed block metadata") ++ treated.failures } =
          .ok result := by
  rw [run_list hl] at hrun
  rcases listCheck_spec hnames hs depth with
    ⟨hnone, found, hlist⟩ | ⟨below, node, found, hbelow, hdeep, hlist⟩ |
    ⟨files, malformed, found, hsome, hfinds, hlist⟩
  · rw [hlist] at hrun
    cases hrun
    exact .inl ⟨hnone, rfl, rfl⟩
  · rw [hlist] at hrun
    cases hrun
    exact .inr (.inl ⟨below, node, _, hbelow, hdeep, rfl, rfl⟩)
  obtain ⟨treated, deeds, after', htreat, hdeeds, htreats⟩ := treatAll_spec hnames hs
    (((sortedBy_perm files).nodup_iff.mpr hfinds.nodup).filter _) (listedClosed_of_mem hfinds) .nil
    (by simp) found
  obtain ⟨result, hmade⟩ := exists_listingResult o.path ((sortedBy Path.text files).map Path.text)
    { treated with failures := malformed.map (fun path =>
        failureLine path.text "malformed block metadata") ++ treated.failures }
  rw [hlist, Check.runOn_bind, htreat] at hrun
  dsimp only at hrun
  rw [hmade] at hrun
  cases hrun
  exact .inr (.inr ⟨files, malformed, treated, deeds, result, hsome, hfinds, hdeeds, htreats, rfl,
    hmade⟩)

/-- Without deeds the files of a listing are its result. -/
theorem list_readOnly {depth : Nat} {result : Result} (hnames : o.Names root quarantine)
    (hl : o.listCorrupt = true) (hm : o.move = false) (hs : start.Valid)
    (hsome : start.node? root ≠ none)
    (hrun : (run o depth).run onNamespace.answer start = (.ok result, after)) :
    ∃ files malformed, (listing o).Finds root (some quarantine) start files malformed ∧
      result.corruptFiles = (sortedBy Path.text files).map Path.text ∧
      result.status = if malformed = [] then if files = [] then .healthy else .corrupt
        else .failure := by
  rcases list_ended hnames hl hs hrun with
    ⟨hnone, -, -⟩ | ⟨_, _, _, -, -, -, hfailure⟩ |
    ⟨files, malformed, treated, deeds, made, -, hfinds, -, htreats, hended, hmade⟩
  · exact absurd hnone hsome
  · cases hfailure
  obtain rfl := Except.ok.inj hended
  obtain ⟨hfiles, hstatus⟩ := listingResult_spec hmade
  refine ⟨files, malformed, hfinds, hfiles, ?_⟩
  have hempty : sortedBy Path.text files = [] ↔ files = [] := by
    rw [← List.length_eq_zero_iff, (sortedBy_perm files).length_eq, List.length_eq_zero_iff]
  rw [hstatus, htreats.silent hm]
  simp only [List.append_nil, List.map_eq_nil_iff, hempty]

end BlockFsck.Checker
