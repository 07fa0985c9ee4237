import BlockFsck.Checker
import BlockFsck.Proofs.Discipline

/-!
# Checks stop at a failure

Of all that a check asks, only what it reads of directories and files can be missing, and wherever
it reads them it goes on without. It deals with refusals to move or delete a file, and with no other
failure: whatever its options are, all that comes before the conclusion of a run is disciplined, and
the run is a tolerant program.
-/

namespace BlockFsck

open Check (Disciplined)

variable {σ : Type}

namespace Walk

private theorem disciplined_childrenInOrder (directory : Entry) :
    (childrenInOrder directory : Check σ _).Disciplined := by
  have hlookup : (Check.orIfMissing (Check.query (.listChildren directory.path)) [] :
      Check σ _).Disciplined := by
    rw [← id_map (Check.query (.listChildren directory.path))]
    exact .lookup (.listChildren directory.path) id []
  exact hlookup.bind fun children => .pure _

private theorem disciplined_descend {visit : Entry → Check σ Unit}
    (hvisit : ∀ e, (visit e).Disciplined)
    (root : Entry) (quarantine : Option String) (depth : Nat) (entry : Entry) :
    (descend visit root quarantine depth entry).Disciplined := by
  induction depth generalizing entry with
  | zero => exact .throw _
  | succ depth ih =>
    apply (hvisit entry).bind
    intro _
    split_ifs
    · apply (disciplined_childrenInOrder entry).bind
      intro children
      refine .forM ?_ children
      intro child
      apply (Disciplined.ofPath _).bind
      intro leftOut
      split_ifs
      · exact ih child
      · exact .pure ()
    · exact .pure ()

private theorem disciplined_run (walk : Walk) (depth : Nat) {visit : Entry → Check σ Unit}
    (hvisit : ∀ e, (visit e).Disciplined) : (walk.run depth visit).Disciplined := by
  have hroot : (resolveRoot walk.root : Check σ _).Disciplined := by
    apply (Disciplined.ofPath _).bind
    intro normal
    apply (Disciplined.query rfl).bind
    intro found
    cases found with
    | none => exact .throw _
    | some root => exact .pure root
  exact hroot.bind fun root => disciplined_descend hvisit root walk.quarantine depth root

end Walk

namespace Quarantine

private theorem disciplined_firstConflict (base : Path) (names : List String) :
    (firstConflict base names : Check σ _).Disciplined := by
  induction names generalizing base with
  | nil => exact .pure none
  | cons name rest ih =>
    apply (Disciplined.query rfl).bind
    intro found
    cases found with
    | none => exact .pure none
    | some entry =>
      dsimp only
      split_ifs
      · exact .pure _
      · exact (ih (base ++ [name])).bind fun _ => .pure _

private theorem disciplined_freeName (base : Path) (names : List String)
    (position suffix left : Nat) :
    (freeName base names position suffix left : Check σ _).Disciplined := by
  induction left generalizing suffix with
  | zero => exact .pure none
  | succ left ih =>
    apply (disciplined_firstConflict _ _).bind
    intro conflict
    cases conflict with
    | none => exact .pure _
    | some _ => exact ih (suffix + 1)

private theorem disciplined_destination (q : Quarantine) (text : String) :
    (q.destination text : Check σ _).Disciplined := by
  apply (Disciplined.ofPath _).bind
  intro directory
  apply (Disciplined.ofPath _).bind
  intro path
  split_ifs
  · exact .throw _
  apply (disciplined_firstConflict directory path).bind
  intro conflict
  cases conflict with
  | none => exact .pure _
  | some position =>
    apply (disciplined_freeName directory path position 1 _).bind
    intro free
    cases free with
    | none => exact .throw _
    | some free => exact .pure _

private theorem disciplined_move (q : Quarantine) (text : String) :
    (q.move text : Check σ _).Disciplined := by
  apply (disciplined_destination q text).bind
  intro destination
  apply (Disciplined.ofPath _).bind
  intro directory
  apply (Disciplined.query rfl).bind
  intro made
  split_ifs
  · exact .throw _
  apply (Disciplined.query rfl).bind
  intro renamed
  split_ifs
  · exact .throw _
  · exact .pure _

end Quarantine

private theorem Check.disciplined_deleteFile (text : String) :
    (deleteFile text : Check σ Unit).Disciplined := by
  apply (Disciplined.query rfl).bind
  intro deleted
  split_ifs
  · exact .throw _
  · exact .pure ()

namespace Listing

private theorem disciplined_visit (listing : Listing) (entry : Entry) :
    (listing.visit entry).Disciplined := by
  rw [visit]
  split_ifs
  · exact .pure ()
  apply (Disciplined.lookup (.blockLocations entry.path) some none).bind
  intro found
  cases found with
  | none => exact .pure ()
  | some record =>
    dsimp only
    cases FileHealth.ofRecord record listing.openVisible with
    | error malformed =>
      apply (Disciplined.log _).bind
      intro _
      exact .modify _
    | ok health =>
      dsimp only
      split_ifs
      · exact .modify _
      · exact .pure ()

private theorem disciplined_currentRecord (path : String) : (currentRecord path).Disciplined := by
  apply (Disciplined.query rfl).bind
  intro found
  cases found with
  | none => exact .pure none
  | some entry =>
    dsimp only
    split_ifs
    · exact .pure none
    · exact .lookup (.blockLocations path) some none

private theorem disciplined_isLeftOut (listing : Listing) (startsInside : Bool) (path : String) :
    (listing.isLeftOut startsInside path).Disciplined := by
  rw [isLeftOut]
  cases listing.quarantine with
  | none => exact .pure false
  | some q =>
    dsimp only
    split_ifs
    · exact .pure false
    · exact .ofPath _

private theorem disciplined_visitListed (listing : Listing) (root : String) (startsInside : Bool)
    (walked : List String) (path : String) :
    (listing.visitListed root startsInside walked path).Disciplined := by
  rw [visitListed]
  split_ifs
  · exact .pure ()
  apply (Disciplined.ofPath _).bind
  intro isBelow
  split_ifs
  · exact .pure ()
  apply (disciplined_isLeftOut listing startsInside path).bind
  intro leftOut
  split_ifs
  · exact .pure ()
  apply (disciplined_currentRecord path).bind
  intro found
  cases found with
  | none => exact .pure ()
  | some record =>
    dsimp only
    split_ifs
    · exact .modify _
    · exact .pure ()

private theorem disciplined_run (listing : Listing) (depth : Nat) (path : String) :
    (listing.run depth path).Disciplined := by
  apply (Disciplined.ofPath _).bind
  intro walk
  apply (Disciplined.ofPath _).bind
  intro root
  apply (Disciplined.modify _).bind
  intro _
  apply (Walk.disciplined_run _ depth (disciplined_visit listing)).bind
  intro _
  apply Disciplined.get.bind
  intro found
  have hlisted : ∀ startsInside : Bool, (do
      (← Check.query .corruptFiles).forM
        (listing.visitListed root startsInside found.files)
      return sortedTexts (← MonadState.get).files : Check Found _).Disciplined := by
    intro startsInside
    apply (Disciplined.query rfl).bind
    intro listed
    have hvisit := disciplined_visitListed listing root startsInside found.files
    apply (Disciplined.forM hvisit listed).bind
    intro _
    apply Disciplined.get.bind
    intro found
    exact .pure _
  dsimp only
  cases listing.quarantine with
  | none => exact (Disciplined.pure false).bind hlisted
  | some q => exact (Disciplined.ofPath _).bind hlisted

end Listing

/-! ## The run -/

namespace Checker

private theorem disciplined_report (finding : Finding) : (report finding).Disciplined := by
  apply Disciplined.get.bind
  intro scan
  cases scan.report.add finding with
  | ok report => exact .modify _
  | error failure => exact .throw failure

private theorem disciplined_reportFailure (path reason : String) :
    (reportFailure path reason).Disciplined := by
  apply (disciplined_report _).bind
  intro _
  exact .log _

private theorem disciplined_onRefusal {α : Type} {step : Check σ α} {handle : Failure → Check σ α}
    (hstep : step.Disciplined) (hhandle : ∀ failure, (handle failure).Disciplined) :
    (onRefusal step handle).Disciplined := by
  intro s
  rw [onRefusal, Check.start_tryCatch]
  apply (hstep s).bind
  · rintro ⟨failure | a, s'⟩
    · dsimp only
      split_ifs
      · exact hhandle failure s'
      · exact .done _
    · exact .done _
  · intro failure ⟨ended, s'⟩ hfailure hended
    obtain rfl : ended = .error failure := hended
    dsimp only
    rw [if_neg (Failure.isFatal_iff.mp hfailure).2]
    exact ⟨_, rfl, rfl⟩

private theorem disciplined_treat (o : Options) (path : String) : (treat o path).Disciplined := by
  apply disciplined_onRefusal
  · split_ifs
    · apply (Quarantine.disciplined_move o.mover path).bind
      intro destination
      exact disciplined_report _
    · apply (Check.disciplined_deleteFile path).bind
      intro _
      exact disciplined_report _
    · exact .pure ()
  · intro failure
    exact disciplined_reportFailure path failure.message

private theorem disciplined_visitFile (o : Options) (path : String) :
    (visitFile o path).Disciplined := by
  apply (Disciplined.lookup (.blockLocations path) some none).bind
  intro found
  cases found with
  | none => exact .pure ()
  | some record =>
    dsimp only
    cases FileHealth.ofRecord record o.openForWrite with
    | error malformed => exact disciplined_reportFailure path _
    | ok health =>
      apply (disciplined_report _).bind
      intro _
      split_ifs
      · apply (disciplined_treat o path).bind
        intro _
        exact .modify _
      · exact .modify _
      · exact .pure ()

private theorem disciplined_fullCheck (o : Options) (depth : Nat) :
    (fullCheck o depth).Disciplined := by
  have hvisit : ∀ entry, (visit o entry).Disciplined := by
    intro entry
    rw [visit]
    split_ifs
    · exact disciplined_report _
    · exact disciplined_visitFile o entry.path
  apply (Walk.disciplined_run _ depth hvisit).bind
  intro _
  apply Disciplined.get.bind
  intro scan
  cases scan.report.render.1 with
  | ok output => exact .pure _
  | error failure => exact .throw failure

private theorem disciplined_treatListed (o : Options) (path : String) :
    (treatListed o path : Check σ _).Disciplined := by
  apply disciplined_onRefusal
  · split_ifs
    · apply (Quarantine.disciplined_move o.mover path).bind
      intro destination
      exact .pure _
    · apply (Check.disciplined_deleteFile path).bind
      intro _
      exact .pure _
    · exact .pure _
  · intro failure
    apply (Disciplined.log _).bind
    intro _
    exact .pure _

private theorem disciplined_treatAll (o : Options) (paths : List String) :
    (treatAll o paths : Check σ _).Disciplined := by
  induction paths with
  | nil => exact .pure _
  | cons path rest ih =>
    apply (disciplined_treatListed o path).bind
    intro first
    apply ih.bind
    intro others
    exact .pure _

private theorem disciplined_listCheck (o : Options) (depth : Nat) :
    (listCheck o depth).Disciplined := by
  apply (Listing.disciplined_run _ depth o.path).bind
  intro files
  apply Disciplined.get.bind
  intro found
  apply (disciplined_treatAll o _).bind
  intro treated
  dsimp only
  cases listingResult o.path files _ with
  | ok result => exact .pure result
  | error e => exact .throw _

/-- What a run comes to before its conclusion. -/
def outcome (o : Options) (depth : Nat) : Program Metadata (Except Failure Result) :=
  if o.listCorrupt then Prod.fst <$> (listCheck o depth).start {}
  else Prod.fst <$> (fullCheck o depth).start { report := { path := o.path, detail := o.detail } }

theorem run_eq_outcome (o : Options) (depth : Nat) :
    run o depth = (outcome o depth).bind (concluded o) := by
  rw [run, outcome]
  split_ifs <;> rfl

theorem disciplined_outcome (o : Options) (depth : Nat) :
    (outcome o depth).Disciplined fun failure ended => ended = .error failure := by
  have hfirst : ∀ {σ : Type} {step : Check σ Result} (s : σ), step.Disciplined →
      (Prod.fst <$> step.start s : Program Metadata _).Disciplined
        fun failure ended => ended = .error failure := by
    intro σ step s hstep
    apply (hstep s).bind
    · intro ended
      exact .done _
    · intro failure ended _ hended
      exact ⟨ended.1, hended, rfl⟩
  rw [outcome]
  split_ifs
  · exact hfirst _ (disciplined_listCheck o depth)
  · exact hfirst _ (disciplined_fullCheck o depth)

/-- The run has ended with a refusal. -/
def WasRefused (ended : Except Failure Result) : Prop :=
  ∃ failure, failure.isRefusal = true ∧ ended = .error failure

private theorem tolerant_concluded (o : Options) (ended : Except Failure Result) :
    (concluded o ended).Tolerant WasRefused := by
  cases ended with
  | ok result => exact .done _
  | error failure =>
    rw [concluded]
    split_ifs
    · exact .log (.done _)
    · exact .log (.done _)
    · exact .done _

/-- A run tolerates another service, with all options. -/
theorem tolerant_run (o : Options) (depth : Nat) : (run o depth).Tolerant WasRefused := by
  have hover : ∀ ended, WasRefused ended →
      ∃ final, WasRefused final ∧ concluded o ended = .done final := by
    rintro _ ⟨failure, hfailure, rfl⟩
    obtain ⟨hmissing, -, hkind⟩ := Failure.isRefusal_kind hfailure
    refine ⟨_, ⟨failure, hfailure, rfl⟩, ?_⟩
    rw [concluded, if_neg (by simp [hmissing]), if_neg hkind]
    rfl
  have hrefused : (outcome o depth).Tolerant WasRefused :=
    (disciplined_outcome o depth).tolerant fun failure _ hfailure hended =>
      ⟨failure, hfailure, hended⟩
  rw [run_eq_outcome]
  exact hrefused.bind (tolerant_concluded o) hover

end Checker

end BlockFsck
