import BlockFsck.Proofs.Checker.Account
import BlockFsck.Proofs.Checker.Listed

/-!
# What a listing says of the calls

A listing has the damaged files of its walk, and of the list of the service those that were files
in scope when it looked. With it every run accounts for its calls (`Checker.conducts_run`).
-/

namespace BlockFsck

variable {σ : Type} {o : Options} {root quarantine : Path} {calls after : List Call} {depth : Nat}

namespace Listing

variable {listing : Listing} {found : Found}

/-- What the walk of a listing has found. -/
structure Walked (openVisible : Bool) (found : Found) (calls : List Call) : Prop where
  smooth : Smooth calls
  no_deed : deedsOf calls = []
  files_eq : found.files = pathsOf (·.isDamaged openVisible) (recordsOf calls)
  malformed_eq : found.notes.malformed = pathsOf (·.isMalformed openVisible) (recordsOf calls)

/-- What more has been found when a part of the list of the service has been considered. -/
structure Considered (openVisible : Bool) (origin : List Call) (walked found : Found)
    (calls : List Call) : Prop where
  adds : ∃ records, Adds origin calls records [] ∧
    found.files = walked.files ++ pathsOf (·.isVisible openVisible) records
  malformed_eq : found.notes.malformed = walked.notes.malformed

/-- What a listing has listed. -/
structure Listed (openVisible : Bool) (files : List String) (found : Found)
    (calls : List Call) : Prop where
  smooth : Smooth calls
  no_deed : deedsOf calls = []
  sources : ∃ before met rest, calls = before ++ ⟨.corruptFiles, met⟩ :: rest ∧
    files = sortedTexts (pathsOf (·.isDamaged openVisible) (recordsOf before) ++
      pathsOf (·.isVisible openVisible) (recordsOf rest)) ∧
    found.notes.malformed = pathsOf (·.isMalformed openVisible) (recordsOf before)

private theorem Walked.idle {openVisible : Bool} (h : Walked openVisible found calls)
    (ha : Adds calls after [] []) : Walked openVisible found after where
  smooth := ha.smooth h.smooth
  no_deed := by rw [ha.deeds_eq, h.no_deed, List.nil_append]
  files_eq := by rw [ha.records_eq, List.append_nil, h.files_eq]
  malformed_eq := by rw [ha.records_eq, List.append_nil, h.malformed_eq]

private theorem orderly_visit (listing : Listing) :
    Walk.Orderly o quarantine root depth listing.visit (Walked listing.openVisible) where
  smooth h := h.smooth
  idle h ha := h.idle ha
  visits := by
    intro path kind found calls hseen h
    cases kind with
    | directory => exact .pure h
    | file =>
      apply Check.Conducts.bind
      apply Check.Conducts.record hseen.1 trivial
      · intro met content after hn ha
        have hpath : (met.recordOf path content).path = path.text := rfl
        have hafter : ∀ {next : Found},
            next.files = found.files ++ pathsOf (·.isDamaged listing.openVisible)
              [met.recordOf path content] →
            next.notes.malformed = found.notes.malformed ++
              pathsOf (·.isMalformed listing.openVisible) [met.recordOf path content] →
            Walked listing.openVisible next after := by
          intro next hfiles hmalformed
          refine ⟨ha.smooth h.smooth, ?_, ?_, ?_⟩
          · rw [ha.deeds_eq, h.no_deed, List.nil_append]
          · rw [hfiles, h.files_eq, ha.records_eq, pathsOf_append]
          · rw [hmalformed, h.malformed_eq, ha.records_eq, pathsOf_append]
        rw [pathsOf_singleton, pathsOf_singleton, FileRecord.isDamaged, FileRecord.isMalformed,
          hpath] at hafter
        dsimp only
        cases hj : FileHealth.ofRecord (met.recordOf path content) listing.openVisible with
        | error malformed =>
          rw [hj] at hafter
          apply Check.Conducts.bind
          apply Check.Conducts.log
          exact .modify (hafter (by simp) (by simp))
        | ok health =>
          rw [hj] at hafter
          dsimp only
          split_ifs with hc
          · exact .modify (hafter (by simp [Found.add, hc]) (by simp [Found.add]))
          · exact .pure (hafter (by simp [hc]) (by simp))
      · intro after ha
        exact .pure (h.idle ha)
      · intro call cause hmisread
        exact .misread h.smooth hmisread rfl

private theorem conducts_currentRecord {path : Path} (hv : path.Valid)
    {Ends : Option FileRecord → Found → List Call → Prop}
    {Fails : Failure → Found → List Call → Prop}
    (hfile : ∀ (met : Namespace) (content : FileNode) {after},
      Adds calls after [met.recordOf path content] [] →
        Ends (some (met.recordOf path content)) found after)
    (hnone : ∀ {after}, Adds calls after [] [] → Ends none found after)
    (hdirectory : ∀ {between call cause}, Adds calls between [] [] → call.Misread cause →
      Fails (.namespaceRefused cause) found (between ++ [call])) :
    (currentRecord path.text).Conducts (o.Permits quarantine) found calls Ends Fails := by
  apply Check.Conducts.bind
  apply Check.Conducts.resolve hv trivial
  intro met between _ hbetween
  rcases met.node? path with _ | _ | _
  · exact .pure (hnone hbetween)
  · exact .pure (hnone hbetween)
  · apply Check.Conducts.record hv trivial
    · intro met content after _ ha
      exact hfile met content (hbetween.after_idle ha)
    · intro after ha
      exact hnone (hbetween.after_idle ha)
    · intro call cause hmisread
      exact hdirectory hbetween hmisread

private theorem conducts_isLeftOut (hq : listing.quarantine = some quarantine.text)
    (hqv : quarantine.Valid) (inside : Bool) {path : Path} (hv : path.Valid)
    {Ends : Bool → Found → List Call → Prop} {Fails : Failure → Found → List Call → Prop}
    (h : ∀ left, Ends left found calls) :
    (listing.isLeftOut inside path.text).Conducts (o.Permits quarantine) found calls Ends Fails := by
  rw [isLeftOut, hq]
  dsimp only
  split_ifs
  · exact .pure (h _)
  · rw [Path.textIsUnder_text hv hqv]
    exact .pure (h _)

private theorem conducts_visitListed (hr : root.Valid)
    (hq : listing.quarantine = some quarantine.text)
    (hqv : quarantine.Valid) (inside : Bool) {origin : List Call} (hs : Smooth origin)
    {walked : Found} {path : Path} (hv : path.Valid)
    (h : Considered listing.openVisible origin walked found calls) :
    (listing.visitListed root.text inside walked.files path.text).Conducts (o.Permits quarantine)
      found calls (fun _ => Considered listing.openVisible origin walked)
      fun failure _ after => BreaksOff root depth after failure := by
  obtain ⟨⟨records, hadds, hfiles⟩, hmalformed⟩ := h
  have hkept : ∀ {after}, Adds calls after [] [] →
      Considered listing.openVisible origin walked found after :=
    fun ha => ⟨⟨records, hadds.idle ha, hfiles⟩, hmalformed⟩
  rw [visitListed]
  split_ifs
  · exact .pure (hkept (.refl calls))
  apply Check.Conducts.bind
  rw [Path.textIsUnder_text hv hr]
  apply Check.Conducts.pure
  split_ifs
  · exact .pure (hkept (.refl calls))
  apply Check.Conducts.bind
  apply conducts_isLeftOut hq hqv inside hv
  intro left
  split_ifs
  · exact .pure (hkept (.refl calls))
  apply Check.Conducts.bind
  apply conducts_currentRecord hv
  · intro met content after ha
    have hpath : (met.recordOf path content).path = path.text := rfl
    have hafter : ∀ {next : Found},
        next.files = found.files ++
          pathsOf (·.isVisible listing.openVisible) [met.recordOf path content] →
        next.notes.malformed = found.notes.malformed →
          Considered listing.openVisible origin walked next after := by
      intro next hnext hsame
      refine ⟨⟨_, hadds.trans ha, ?_⟩, hsame.trans hmalformed⟩
      rw [hnext, hfiles, pathsOf_append, List.append_assoc]
    rw [pathsOf_singleton, FileRecord.isVisible, hpath] at hafter
    dsimp only
    split_ifs with ho
    · exact .modify (hafter (by simp [Found.add, ho]) rfl)
    · exact .pure (hafter (by simp [ho]) rfl)
  · intro after ha
    exact .pure (hkept ha)
  · intro between call cause ha hmisread
    exact .misread (ha.smooth (hadds.smooth hs)) hmisread rfl

private theorem Considered.listed {openVisible : Bool} {before origin : List Call} {met : Namespace}
    {walked : Found} (h : Considered openVisible origin walked found calls)
    (hwalked : Walked openVisible walked before) (horigin : origin = before ++ [⟨.corruptFiles, met⟩])
    (hadds : Adds before origin [] []) :
    Listed openVisible (sortedTexts found.files) found calls := by
  obtain ⟨⟨records, hrest, hfiles⟩, hmalformed⟩ := h
  obtain ⟨rest, rfl⟩ := hrest.extends_calls
  refine ⟨hrest.smooth (hadds.smooth hwalked.smooth), ?_, before, met, rest, ?_, ?_, ?_⟩
  · rw [hrest.deeds_eq, hadds.deeds_eq, hwalked.no_deed]
    rfl
  · rw [horigin, List.append_assoc, List.singleton_append]
  · rw [hfiles, hwalked.files_eq, hrest.records_more]
  · rw [hmalformed, hwalked.malformed_eq]

theorem conducts_run (hr : root.Valid) (hq : listing.quarantine = some quarantine.text)
    (hqv : quarantine.Valid) {Fails : Failure → Found → List Call → Prop}
    (hbreaks : ∀ {failure s' after}, BreaksOff root depth after failure → Fails failure s' after)
    (hfails : ∀ met : Namespace, met.node? root = none →
      Fails (.pathNotFound root.text) {} ([] ++ [⟨.resolve root.text, met⟩])) :
    (listing.run depth root.text).Conducts (o.Permits quarantine) {} []
      (Listed listing.openVisible) Fails := by
  have hqs : ∀ q ∈ some quarantine, q.Valid := by simpa using hqv
  have hmake := Walk.make_of_ofText root.text (Path.mapM_ofText_text hqs)
  rw [Option.map_some] at hmake
  have hempty : Walked listing.openVisible {} [] := ⟨by simp [Smooth], rfl, rfl, rfl⟩
  rw [run, hq, hmake, Path.normalize_text hr]
  apply Check.Conducts.bind
  apply Check.Conducts.pure
  apply Check.Conducts.bind
  apply Check.Conducts.pure
  apply Check.Conducts.bind
  apply Check.Conducts.modify
  have hwalk : (Walk.run ⟨root.text, some quarantine.text⟩ depth listing.visit).Conducts
      (o.Permits quarantine) {} [] (fun _ => Walked listing.openVisible) Fails :=
    Walk.conducts_run (orderly_visit listing) hr hqs hempty hbreaks hfails
  apply Check.Conducts.bind
  refine hwalk.mono (fun {_ walked before} hwalked => ?_) fun hfailed => hfailed
  apply Check.Conducts.bind
  apply Check.Conducts.get
  dsimp only
  rw [Path.textIsUnder_text hr hqv]
  apply Check.Conducts.bind
  apply Check.Conducts.pure
  apply Check.Conducts.bind
  apply Check.Conducts.corruptFiles trivial
  intro met origin hmet horigin hadds
  rw [corruptFiles_eq hmet]
  apply Check.Conducts.bind
  refine (Check.Conducts.forM (Considered listing.openVisible origin walked)
    (fun text hmem found later hconsidered => ?_)
      ⟨⟨[], .refl origin, (List.append_nil _).symm⟩, rfl⟩).mono (fun {_ found after} h => ?_) hbreaks
  · obtain ⟨path, hpath, rfl⟩ := List.mem_map.mp hmem
    obtain ⟨content, hn, -⟩ := (mem_indexed hmet).mp hpath
    exact conducts_visitListed hr hq hqv _ (hadds.smooth hwalked.smooth)
      (hmet.toIsTree.path_valid hn) hconsidered
  · apply Check.Conducts.bind
    apply Check.Conducts.get
    exact .pure (h.listed hwalked horigin hadds)

private theorem Listed.hasRead {openVisible : Bool} {files : List String}
    (h : Listed openVisible files found calls) {text : String} (hmem : text ∈ files) :
    ∃ path : Path, text = path.text ∧ HasRead calls path := by
  obtain ⟨before, met, rest, rfl, rfl, -⟩ := h.sources
  have hread : ∃ record ∈ recordsOf (before ++ ⟨.corruptFiles, met⟩ :: rest),
      record.path = text := by
    rw [recordsOf_append]
    rcases List.mem_append.mp (mem_sortedBy.mp hmem) with hmem | hmem
    · obtain ⟨record, hrecord, hpath⟩ := mem_pathsOf hmem
      exact ⟨record, List.mem_append_left _ hrecord, hpath⟩
    · obtain ⟨record, hrecord, hpath⟩ := mem_pathsOf hmem
      exact ⟨record, List.mem_append_right _ hrecord, hpath⟩
  obtain ⟨record, hrecord, rfl⟩ := hread
  exact hasRead_of_mem hrecord

end Listing

namespace Checker

/-- The lines of what was done to listed files, and of what failed. -/
structure Recites (treated : Treated) (calls : List Call) (deeds : List Deed) : Prop where
  actions_eq : treated.actions = deeds.map Deed.line
  of_failures : ∀ line ∈ treated.failures, ∃ record ∈ recordsOf calls, ∃ reason,
    line = failureLine record.path reason

private theorem conducts_treatListed (hnames : o.Names root quarantine) {path : Path}
    (hread : HasRead calls path) {s : σ} {Ends : Treated → σ → List Call → Prop}
    {Fails : Failure → σ → List Call → Prop}
    (h : ∀ {treated deeds after}, Adds calls after [] deeds → Recites treated calls deeds →
      Ends treated s after) :
    (treatListed o path.text : Check σ Treated).Conducts (o.Permits quarantine) s calls Ends
      Fails := by
  have hrefused : ∀ (cause : QuarantineError) {after}, Adds calls after [] [] →
      (Failure.quarantine cause).kind = .quarantine ∧
        Check.Conducts (o.Permits quarantine) (do
          Check.log ⟨logger, Log.warning, (Failure.quarantine cause).message⟩
          return { failures := [failureLine path.text (Failure.quarantine cause).message] })
          s after Ends Fails := by
    intro cause after ha
    obtain ⟨-, -, record, hmem, hpath⟩ := hread
    refine ⟨rfl, .bind (.log _ (.pure (h ha ⟨rfl, ?_⟩)))⟩
    rw [List.forall_mem_singleton, ← hpath]
    exact ⟨record, hmem, _, rfl⟩
  apply conducts_onRefusal
  split_ifs with hm hd
  · apply Check.Conducts.bind
    refine Quarantine.conducts_move o.mover hnames.quarantine_eq hnames.quarantine_valid hm hread
      (fun {target after} ha => ?_) hrefused
    exact .pure (h ha ⟨rfl, by simp⟩)
  · apply Check.Conducts.bind
    refine Check.conducts_deleteFile hd hread (fun {after} ha => ?_) hrefused
    exact .pure (h ha ⟨rfl, by simp⟩)
  · exact .pure (h (.refl calls) ⟨rfl, by simp⟩)

private theorem conducts_treatAll (hnames : o.Names root quarantine) {texts : List String}
    (hread : ∀ text ∈ texts, ∃ path : Path, text = path.text ∧ HasRead calls path) {s : σ}
    {Ends : Treated → σ → List Call → Prop} {Fails : Failure → σ → List Call → Prop}
    (h : ∀ {treated deeds after}, Adds calls after [] deeds → Recites treated calls deeds →
      Ends treated s after) :
    (treatAll o texts : Check σ Treated).Conducts (o.Permits quarantine) s calls Ends Fails := by
  induction texts generalizing calls Ends with
  | nil => exact .pure (h (.refl calls) ⟨rfl, by simp⟩)
  | cons text texts ih =>
    obtain ⟨path, rfl, hpath⟩ := hread text (List.mem_cons_self ..)
    apply Check.Conducts.bind
    apply conducts_treatListed hnames hpath
    intro first deeds between hfirst htold
    have hrecords : recordsOf between = recordsOf calls := by
      rw [hfirst.records_eq, List.append_nil]
    apply Check.Conducts.bind
    apply ih
    · intro text hmem
      obtain ⟨path, rfl, hpath⟩ := hread text (List.mem_cons_of_mem _ hmem)
      exact ⟨path, rfl, hpath.later hfirst⟩
    · intro others more after hothers hmore
      refine .pure (h (hfirst.trans hothers) ⟨?_, List.forall_mem_append.mpr ⟨?_, ?_⟩⟩)
      · rw [htold.actions_eq, hmore.actions_eq, List.map_append]
      · exact htold.of_failures
      · rw [← hrecords]
        exact hmore.of_failures

private theorem accounts_of_listed {files : List String} {found : Listing.Found} {treated : Treated}
    {deeds : List Deed} {result : Result} (h : Listing.Listed o.openForWrite files found calls)
    (ha : Adds calls after [] deeds) (hrecites : Recites treated calls deeds)
    (hresult : listingResult o.path files
      { treated with failures :=
          found.notes.malformed.map (failureLine · "malformed block metadata") ++
            treated.failures } = .ok result) :
    Accounts o root result after := by
  obtain ⟨before, met, rest, rfl, hfiles, hmalformed⟩ := h.sources
  obtain ⟨more, rfl⟩ := ha.extends_calls
  have hlisted := (listingResult_spec hresult).1
  have hcalls : before ++ ⟨.corruptFiles, met⟩ :: rest ++ more =
      before ++ ⟨.corruptFiles, met⟩ :: (rest ++ more) := by simp
  have hrefused : ∀ line ∈ treated.failures, ∃ record ∈ recordsOf (before ++
      ⟨.corruptFiles, met⟩ :: rest ++ more), ∃ reason, line = failureLine record.path reason := by
    intro line hmem
    obtain ⟨record, hrecord, hreason⟩ := hrecites.of_failures line hmem
    refine ⟨record, ?_, hreason⟩
    rw [recordsOf_append]
    exact List.mem_append_left _ hrecord
  rw [← hlisted] at hresult
  refine .listing hcalls ?_ ?_ ?_ hrefused hresult
  · rw [hlisted, hfiles, recordsOf_append, ha.records_more, List.append_nil]
  · rw [ha.deeds_eq, h.no_deed]
    exact hrecites.actions_eq
  · rw [hmalformed]

private theorem conducts_listCheck (hnames : o.Names root quarantine) :
    (listCheck o depth).Conducts (o.Permits quarantine) {} []
      (fun result _ after => Concludes o root depth after (.ok result)) (Gives o root depth) := by
  have hquarantine : (listing o).quarantine = some quarantine.text := by
    rw [listing, hnames.quarantine_eq]
  rw [listCheck, hnames.path_eq]
  apply Check.Conducts.bind
  refine (Listing.conducts_run hnames.root_valid hquarantine hnames.quarantine_valid
    (fun hbroken => gives_of_breaksOff hbroken _) fun met hnone => gives_of_missing hnone _).mono
      (fun {files found calls} h => ?_) fun hgives => hgives
  apply Check.Conducts.bind
  apply Check.Conducts.get
  apply Check.Conducts.bind
  apply conducts_treatAll hnames fun text hmem => h.hasRead (List.mem_of_mem_filter hmem)
  intro treated deeds after ha hrecites
  obtain ⟨result, hresult⟩ := exists_listingResult o.path files
    { treated with failures :=
        found.notes.malformed.map (failureLine · "malformed block metadata") ++ treated.failures }
  have haccounts : Accounts o root result after := accounts_of_listed h ha hrecites hresult
  rw [hnames.path_eq] at hresult
  dsimp only
  rw [hresult]
  exact .pure (.verdict (ha.smooth h.smooth) haccounts)

private theorem conducts_concluded {ended : Except Failure Result}
    (h : Concludes o root depth calls (conclusion o ended)) :
    (concluded o ended).Conducts (o.Permits quarantine)
      (fun ended after => Concludes o root depth after ended) calls := by
  cases ended with
  | ok result => exact .done h
  | error failure =>
    rw [concluded]
    rw [conclusion] at h
    split_ifs at h ⊢
    · exact .log (.done h)
    · exact .log (.done h)
    · exact .done h

private theorem conducts_check {step : Check σ Result} {s : σ}
    (h : step.Conducts (o.Permits quarantine) s []
      (fun result _ after => Concludes o root depth after (.ok result)) (Gives o root depth)) :
    (Prod.fst <$> step.start s >>= concluded o).Conducts (o.Permits quarantine)
      (fun ended after => Concludes o root depth after ended) [] := by
  rw [bind_map_left]
  apply Program.Conducts.bind h
  rintro ⟨failure | result, s'⟩ after hended
  · exact conducts_concluded hended
  · exact conducts_concluded hended

/-- A run asks for nothing that is not permitted, and ends in a verdict that accounts for its calls
or breaks off, whatever the calls meet. -/
theorem conducts_run (hnames : o.Names root quarantine) (depth : Nat) :
    (run o depth).Conducts (o.Permits quarantine)
      (fun ended after => Concludes o root depth after ended) [] := by
  rw [run]
  split_ifs with hl
  · exact conducts_check (conducts_listCheck hnames)
  · exact conducts_check (conducts_fullCheck hnames (by simpa using hl))

end Checker

end BlockFsck
