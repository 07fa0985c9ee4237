import BlockFsck.Checker
import BlockFsck.Proofs.Report
import BlockFsck.Proofs.Report.Marker

/-!
# The wording of a report

The lines of findings and counters bring no marker of a status into a report but that of the status
that it has, as long as no path, block or node names a status. The closing line brings that one.
-/

namespace BlockFsck

open Text

/-- Neither the block nor a node that holds it names a status. -/
structure BlockRecord.IsUnmarked (block : BlockRecord) : Prop where
  id : Unmarked block.id
  nodes : ∀ replica ∈ block.replicas, Unmarked replica.node

structure FileRecord.IsUnmarked (record : FileRecord) : Prop where
  path : Unmarked record.path
  blocks : ∀ block ∈ record.blocks, block.IsUnmarked

/-- No path, block or node of the finding names a status. -/
def Finding.IsUnmarked : Finding → Prop
  | .directory path => Unmarked path
  | .file health => Unmarked health.path ∧ ∀ h ∈ health.blocks, h.block.IsUnmarked
  | .failed path reason => Unmarked path ∧ Unmarked reason
  | .moved path destination => Unmarked path ∧ Unmarked destination
  | .deleted path => Unmarked path

private theorem fits_after_colon {status : Status} {path rest : String} (hpath : Unmarked path)
    (hrest : Fits status (": " ++ rest)) : Fits status (path ++ ": " ++ rest) := by
  have hcolon : StartsWithout Status.isMarkerLetter ": " := by decide
  rw [String.append_assoc]
  exact (hpath.fits status).append hrest (.inr (hcolon.append rest))

theorem fits_failureLine {path reason : String} (hpath : Unmarked path)
    (hreason : Unmarked reason) : Fits .failure (Checker.failureLine path reason) := by
  have hmarked : Fits .failure (": " ++ Status.failure.marker) := by decide
  have hspace : IsLabel " " := by decide
  have hstart := (fits_after_colon hpath hmarked).append_unmarked hspace.1 (.inr hspace.2.1)
  exact hstart.append_unmarked hreason (.inl (hspace.2.2.append _))

namespace Report

variable {detail : Detail} {status : Status}

private theorem unmarked_locations {block : BlockRecord} (h : block.IsUnmarked) :
    Unmarked (locations block) := by
  apply unmarked_intercalate (by decide)
  intro text hmem
  obtain ⟨replica, hreplica, rfl⟩ := List.mem_map.mp hmem
  have hnode := h.nodes replica (mem_sortedBy.mp (List.mem_of_mem_filter hreplica))
  split_ifs
  · exact hnode.ended (by decide)
  · exact hnode

private theorem unmarked_blockLine (index : Nat) {h : BlockHealth} (hblock : h.block.IsUnmarked) :
    Unmarked (blockLine detail index h) := by
  have hline : Unmarked s!"{index}. {h.block.id} len={h.block.length} repl={h.usable}" :=
    (((Unmarked.low (.nat index)).value (by decide) hblock.id).value (by decide)
      (.low (.int _))).value (by decide) (.low (.nat _))
  rw [blockLine]
  split_ifs
  · exact (hline.value (by decide) (unmarked_locations hblock)).ended (by decide)
  · exact hline

private theorem fits_problemLine {path line : String} {h : BlockHealth} (hpath : Unmarked path)
    (hblock : h.block.IsUnmarked) (hline : problemLine? path h = some line) : Fits status line := by
  rw [problemLine?] at hline
  cases hverdict : h.verdict with
  | healthy =>
    rw [hverdict] at hline
    cases hline
  | underReplicated =>
    rw [hverdict] at hline
    obtain rfl := Option.some.inj hline
    refine Unmarked.fits ?_ status
    have hfound : Unmarked s!"but found {h.usable} replica(s)." :=
      (Unmarked.first (by decide) (.low (.nat _))).ended (by decide)
    have htarget : Unmarked
        s!"{path}: Under replicated {h.block.id}. Target Replicas is {h.target} " :=
      ((hpath.value (by decide) hblock.id).value (by decide) (.low (.int _))).ended (by decide)
    have hspace : EndsWithout Char.isUpper " " := by decide
    exact htarget.append hfound (.inl (hspace.append _))
  | corrupt =>
    rw [hverdict] at hline
    obtain rfl := Option.some.inj hline
    have hcorrupt : Fits status ": CORRUPT block " := by cases status <;> decide
    have hends : EndsWithout Char.isUpper ": CORRUPT block " := by decide
    have hstart := (hpath.fits status).append hcorrupt (.inr (by decide))
    exact hstart.append_unmarked hblock.id (.inl (hends.append path))
  | missing =>
    rw [hverdict] at hline
    obtain rfl := Option.some.inj hline
    refine Unmarked.fits ?_ status
    exact ((hpath.value (by decide) hblock.id).value (by decide) (.low (.int _))).ended (by decide)

private theorem fits_fileLine {h : FileHealth} (hpath : Unmarked h.path) :
    Fits status (fileLine detail h) := by
  have hheader : Unmarked s!"{h.path} {h.record.length} bytes, {h.record.blocks.length} block(s)" :=
    ((hpath.value (by decide) (.low (.int _))).value (by decide) (.low (.nat _))).ended (by decide)
  have hstate : Fits status (": " ++ if h.verdict = .healthy then "OK" else h.verdict.text) := by
    split_ifs with hhealthy
    · cases status <;> decide
    · cases hverdict : h.verdict with
      | healthy => exact absurd hverdict hhealthy
      | underReplicated => cases status <;> decide
      | corrupt => cases status <;> decide
      | missing => cases status <;> decide
  refine fits_after_colon ?_ hstate
  split_ifs
  · exact hheader.ended (by decide)
  · exact hheader

private theorem fits_fileLines {h : FileHealth} (hpath : Unmarked h.path)
    (hblocks : ∀ b ∈ h.blocks, b.block.IsUnmarked) :
    ∀ line ∈ fileLines detail h, Fits status line := by
  intro line hline
  rw [fileLines] at hline
  split at hline
  · cases hline
  rw [List.cons_append, List.mem_cons, List.mem_append, List.mem_filterMap] at hline
  rcases hline with rfl | ⟨b, hb, hproblem⟩ | hblock
  · exact fits_fileLine hpath
  · exact fits_problemLine hpath (hblocks b hb) hproblem
  · split_ifs at hblock
    · obtain ⟨index, hindex, rfl⟩ := List.mem_mapIdx.mp hblock
      exact (unmarked_blockLine index (hblocks _ (List.getElem_mem hindex))).fits status
    · cases hblock

/-- A line that tells of a failure has the marker of a failure, and no other line of a finding has
one. -/
theorem fits_findingLines {finding : Finding} (h : finding.IsUnmarked)
    (hfailure : finding.isFailure = true → status = .failure) :
    ∀ line ∈ findingLines detail finding, Fits status line := by
  intro line hline
  cases finding with
  | directory path =>
    have hpath : Unmarked path := h
    rw [findingLines] at hline
    split_ifs at hline
    · obtain rfl := List.mem_singleton.mp hline
      exact (hpath.ended (by decide)).fits status
    · cases hline
  | file health =>
    obtain ⟨hpath, hblocks⟩ := h
    exact fits_fileLines hpath hblocks line hline
  | failed path reason =>
    obtain rfl := hfailure rfl
    obtain ⟨hpath, hreason⟩ := h
    obtain rfl := List.mem_singleton.mp hline
    exact fits_failureLine hpath hreason
  | moved path destination =>
    obtain ⟨hpath, hdestination⟩ := h
    obtain rfl := List.mem_singleton.mp hline
    exact ((Unmarked.first (by decide) hpath).value (by decide) hdestination).fits status
  | deleted path =>
    have hpath : Unmarked path := h
    obtain rfl := List.mem_singleton.mp hline
    exact (Unmarked.first (by decide) hpath).fits status

private theorem unmarked_sizeText {bytes : Int} {text : String}
    (h : Amount.sizeText? bytes = some text) :
    Unmarked text := by
  have hunits : ∀ (units : List String), (∀ unit ∈ units, Unmarked unit) →
      ∀ x, Unmarked (Amount.inUnits x units).2 := by
    intro units hunits
    induction units with
    | nil => exact fun x => (show Unmarked "PiB" by decide)
    | cons unit units ih =>
      intro x
      rw [Amount.inUnits]
      split_ifs
      · exact hunits unit (by simp)
      · exact ih (fun other hother => hunits other (by simp [hother])) _
  rw [Amount.sizeText?] at h
  split_ifs at h
  · obtain rfl := Option.some.inj h
    exact (Unmarked.low (.int bytes)).ended (by decide)
  · obtain ⟨x, -, htext⟩ := Option.bind_eq_some_iff.mp h
    obtain rfl := Option.some.inj htext
    have hunit := hunits Amount.units (by decide) (x.divPos 1024)
    exact (Unmarked.low (.fixed 2 _)).value (by decide) hunit

private theorem isLow_percentText {part whole : Int} {text : String}
    (h : Amount.percentText? part whole = some text) : IsLow text := by
  rw [Amount.percentText?] at h
  split_ifs at h
  · obtain rfl := Option.some.inj h
    decide
  · obtain ⟨x, -, h⟩ := Option.bind_eq_some_iff.mp h
    obtain ⟨y, -, h⟩ := Option.bind_eq_some_iff.mp h
    obtain rfl := Option.some.inj h
    exact .fixed 1 _

private theorem forall_mem_ite {P : String → Prop} {shown : Prop} [Decidable shown]
    {lines : List String}
    (h : ∀ line ∈ lines, P line) : ∀ line ∈ if shown then lines else [], P line := by
  split_ifs
  · exact h
  · exact fun line hline => absurd hline List.not_mem_nil

private theorem fits_shownCount {label : String} {shown : Prop} [Decidable shown]
    (hl : (∀ status, Fits status label) ∧ EndsWithout Char.isUpper label) (n : Int) :
    ∀ line ∈ if shown then [label ++ toString n] else [], Fits status line :=
  forall_mem_ite (List.forall_mem_singleton.mpr (.count hl n))

private theorem fits_sizeLines {s : Summary} {lines : List String}
    (h : sizeLines? detail s = some lines) :
    ∀ line ∈ lines, Fits status line := by
  obtain ⟨size, hsize, h⟩ := Option.bind_eq_some_iff.mp h
  obtain rfl := Option.some.inj h
  have htotal : Unmarked s!" Total size:\t{s.totalSize} B ({size})" :=
    ((Unmarked.first (by decide) (.low (.int _))).value (by decide) (unmarked_sizeText hsize)).ended
      (by decide)
  have hopen : Unmarked (s!" Total open files size:\t{s.openFilesSize} B" ++
      s!" (Files currently being written: {s.openFiles})") := by
    have hsize : Unmarked s!" Total open files size:\t{s.openFilesSize} B" :=
      (Unmarked.first (by decide) (.low (.int _))).ended (by decide)
    have hcount : Unmarked s!" (Files currently being written: {s.openFiles})" :=
      (Unmarked.first (by decide) (.low (.int _))).ended (by decide)
    have hstarts : StartsWithout Char.isUpper " (Files currently being written: " := by decide
    exact hsize.append hcount (.inr ((hstarts.append _).append _))
  exact List.forall_mem_cons.mpr
    ⟨htotal.fits status, forall_mem_ite (List.forall_mem_singleton.mpr (hopen.fits status))⟩

private theorem fits_countLines (s : Summary) : ∀ line ∈ countLines detail s, Fits status line := by
  have haverage : Unmarked (if 0 < s.totalBlocks then
      s!" (avg. block size {s.totalSize / s.totalBlocks} B)" else "") := by
    split_ifs
    · exact (Unmarked.first (by decide) (.low (.int _))).ended (by decide)
    · decide
  have hblocks : Unmarked s!" Total blocks (validated):\t{s.totalBlocks}" :=
    .first (by decide) (.low (.int _))
  have hends : EndsWithout Char.isUpper s!" Total blocks (validated):\t{s.totalBlocks}" :=
    IsLow.ends_append (by decide) (.int _)
  rw [countLines]
  simp only [List.forall_mem_append, List.forall_mem_cons]
  exact ⟨⟨⟨.count (by decide) _, .count (by decide) _, by simp⟩, fits_shownCount (by decide) _⟩,
    (hblocks.append haverage (.inl hends)).fits status, by simp⟩

private theorem fits_lossLines (s : Summary) : ∀ line ∈ lossLines s, Fits status line := by
  have hruler : Fits status ruler := (show Unmarked ruler by decide).fits status
  have hsize : Unmarked s!"  MISSING SIZE:\t\t{s.missingSize} B" :=
    (Unmarked.first (by decide) (.low (.int _))).ended (by decide)
  rw [lossLines]
  apply forall_mem_ite
  simp only [List.forall_mem_append, List.forall_mem_cons]
  refine ⟨⟨⟨⟨hruler, .count (by decide) _, by simp⟩, forall_mem_ite ?_⟩,
    fits_shownCount (by decide) _⟩, hruler, by simp⟩
  exact List.forall_mem_cons.mpr
    ⟨.count (by decide) _, List.forall_mem_singleton.mpr (hsize.fits status)⟩

private theorem fits_shareLine {label line : String}
    (hl : Unmarked label ∧ EndsWithout Char.isUpper label) {part whole : Int}
    (h : shareLine? label part whole = some line) : Fits status line := by
  obtain ⟨share, hshare, h⟩ := Option.bind_eq_some_iff.mp h
  obtain rfl := Option.some.inj h
  have hlabel : Unmarked s!" {label}" := .first (by decide) hl.1
  have hpart : Unmarked s!" {label}{part}" := hlabel.append (.low (.int _)) (.inl (hl.2.append _))
  have hline : Unmarked s!" {label}{part} ({share} %)" :=
    (hpart.value (by decide) (.low (isLow_percentText hshare))).ended (by decide)
  exact hline.fits status

private theorem fits_replicationLines {s : Summary} {lines : List String}
    (h : replicationLines? s = some lines) : ∀ line ∈ lines, Fits status line := by
  rw [replicationLines?] at h
  simp only [Option.bind_eq_bind, Option.bind_eq_some_iff, Option.pure_def, Option.some.injEq] at h
  obtain ⟨minimal, hminimal, surplus, hsurplus, under, hunder, missing, hmissing, average, -, rfl⟩ :=
    h
  have haverage : Unmarked s!" Average block replication:\t{average.fixed 2}" :=
    .first (by decide) (.low (.fixed 2 _))
  simp only [List.forall_mem_cons]
  exact ⟨fits_shareLine (by decide) hminimal, fits_shareLine (by decide) hsurplus,
    fits_shareLine (by decide) hunder, .count (by decide) _, .count (by decide) _,
    fits_shareLine (by decide) hmissing, haverage.fits status, .count (by decide) _, by simp⟩

private theorem fits_actionLines (s : Summary) :
    ∀ line ∈ actionLines detail s, Fits status line := by
  rw [actionLines]
  simp only [List.forall_mem_append]
  exact ⟨⟨⟨fits_shownCount (by decide) _, fits_shownCount (by decide) _⟩,
    fits_shownCount (by decide) _⟩, fits_shownCount (by decide) _⟩

private theorem fits_summaryLines {s : Summary} {lines : List String}
    (h : summaryLines? detail s = some lines) : ∀ line ∈ lines, Fits s.status line := by
  rw [summaryLines?] at h
  simp only [Option.bind_eq_bind, Option.bind_eq_some_iff, Option.pure_def, Option.some.injEq] at h
  obtain ⟨sizes, hsizes, shares, hshares, rfl⟩ := h
  have hstatus : Fits s.status s!"Status: {s.status.text}" := by cases s.status <;> decide
  simp only [List.cons_append, List.forall_mem_cons, List.forall_mem_append]
  exact ⟨hstatus, ⟨⟨⟨fits_sizeLines hsizes, fits_countLines s⟩, fits_lossLines s⟩,
    fits_replicationLines hshares⟩, fits_actionLines s⟩

/-! ## The text -/

/-- A text of whole lines, which may be none. -/
def IsWhole (text : String) : Prop := text = "" ∨ EndsWithout Status.isMarkerLetter text

private theorem IsWhole.fits_append {a b : String} (h : IsWhole a) (ha : Fits status a)
    (hb : Fits status b) : Fits status (a ++ b) := by
  rcases h with rfl | hends
  · rwa [String.empty_append]
  · exact ha.append hb (.inl hends)

private theorem fits_writeLines {lines : List String} (hlines : ∀ line ∈ lines, Fits status line)
    {text : String} (hwhole : IsWhole text) (h : Fits status text) :
    IsWhole (lines.foldl (fun text line => text ++ line ++ "\n") text) ∧
      Fits status (lines.foldl (fun text line => text ++ line ++ "\n") text) := by
  have hends : EndsWithout Status.isMarkerLetter "\n" := by decide
  have hbreak : Fits status "\n" := (show Unmarked "\n" by decide).fits status
  induction lines generalizing text with
  | nil => exact ⟨hwhole, h⟩
  | cons line lines ih =>
    have hline := hwhole.fits_append h (hlines line (by simp))
    exact ih (fun other hother => hlines other (by simp [hother])) (.inr (hends.append _))
      (hline.append hbreak (.inr (by decide)))

private theorem fits_addAll {report : Report} {findings : List Finding}
    (hfindings : ∀ finding ∈ findings, finding.IsUnmarked ∧
      (finding.isFailure = true → status = .failure))
    (hwhole : IsWhole report.written) (h : Fits status report.written) :
    Fits status (report.addAll findings).written := by
  induction findings generalizing report with
  | nil => exact h
  | cons finding findings ih =>
    obtain ⟨hunmarked, hfailure⟩ := hfindings finding (by simp)
    have hlines : ∀ line ∈ findingLines report.detail finding, Fits status line :=
      fits_findingLines hunmarked hfailure
    obtain ⟨hwhole', h'⟩ := fits_writeLines hlines hwhole h
    exact ih (fun other hother => hfindings other (by simp [hother])) hwhole' h'

end Report

private theorem fits_closing {status : Status} {lead path rest : String}
    (hlead : Unmarked lead ∧ EndsWithout Char.isUpper lead) (hpath : Unmarked path)
    (hrest : Fits status (rest ++ status.marker))
    (hstarts : StartsWithout Status.isMarkerLetter rest) :
    Fits status (lead ++ path ++ rest ++ status.marker) := by
  rw [String.append_assoc]
  exact ((Unmarked.first hlead hpath).fits status).append hrest (.inr (hstarts.append _))

namespace Status

private theorem fits_line (status : Status) {path : String} (hpath : Unmarked path) :
    Fits status (status.line path) := by
  cases status <;> exact fits_closing (by decide) hpath (by decide) (by decide)

private theorem occurs_line (status : Status) (path : String) :
    Occurs status.marker (status.line path) := by
  cases status <;> exact occurs_append_right ..

end Status

private theorem shows_lines {status : Status} {lines : List String}
    (hlines : ∀ line ∈ lines, Fits status line) {line : String} (hline : line ∈ lines)
    (hmarker : Occurs status.marker line) :
    Shows status (String.intercalate "\n" lines ++ "\n") := by
  have hbreak : Fits status "\n" := (show Unmarked "\n" by decide).fits status
  have hfits := (Fits.intercalate hlines).append hbreak (.inr (by decide))
  exact hfits.shows ((hmarker.trans (occurs_intercalate _ hline)).trans (occurs_append_left ..))

namespace Report

private theorem occurs_withoutFinalBreaks (text : String) : Occurs
    (withoutFinalBreaks text) text := by
  rw [Occurs, withoutFinalBreaks, String.toList_ofList, ← List.reverse_infix, List.reverse_reverse]
  exact (List.dropWhile_suffix _).isInfix

private theorem shows_text {report : Report} (hpath : Unmarked report.path)
    (hwritten : Fits report.summary.status report.written) {output : String}
    (h : report.text = .ok output) : Shows report.summary.status output := by
  have hnothing : Fits report.summary.status "" := (show Unmarked "" by decide).fits _
  rw [text, summaryLines] at h
  cases hcounters : summaryLines? report.detail report.summary with
  | none =>
    rw [hcounters] at h
    cases h
  | some counters =>
    rw [hcounters] at h
    obtain rfl := Except.ok.inj h
    refine shows_lines ?_ (List.mem_append_right _ (by simp))
      (report.summary.status.occurs_line report.path)
    simp only [List.forall_mem_append, List.forall_mem_cons]
    refine ⟨⟨?_, fits_summaryLines hcounters⟩, hnothing, hnothing,
      report.summary.status.fits_line hpath, by simp⟩
    split_ifs
    · simp
    · exact List.forall_mem_singleton.mpr (hwritten.of_occurs (occurs_withoutFinalBreaks _))

private theorem path_addAll (report : Report) (findings : List Finding) :
    (report.addAll findings).path = report.path := by
  induction findings generalizing report with
  | nil => rfl
  | cons finding findings ih => exact ih _

theorem shows_addAll {report : Report} (hempty : report.summary = {}) (hfresh : report.written = "")
    (hpath : Unmarked report.path) {findings : List Finding}
    (hfindings : ∀ finding ∈ findings, finding.IsUnmarked) {output : String}
    (h : (report.addAll findings).text = .ok output) :
    Shows (report.addAll findings).summary.status output := by
  have hstatus : ∀ finding ∈ findings, finding.isFailure = true →
      (report.addAll findings).summary.status = .failure := by
    intro finding hmem hfailure
    rw [status_addAll hempty, if_pos (List.any_eq_true.mpr ⟨finding, hmem, hfailure⟩)]
  have hnothing : Fits (report.addAll findings).summary.status report.written :=
    hfresh ▸ (show Unmarked "" by decide).fits _
  refine shows_text ?_ ?_ h
  · rwa [path_addAll]
  · exact fits_addAll (fun finding hmem => ⟨hfindings finding hmem, hstatus finding hmem⟩)
      (.inl hfresh) hnothing

end Report

/-- The status of a listing without failures. -/
def Listing.verdict (count : Nat) : Status := if count = 0 then .healthy else .corrupt

private theorem Listing.fits_sentence {count : Nat} {path closing : String} (hpath : Unmarked path)
    (h : sentence count path = .ok closing) :
    Fits (verdict count) closing ∧ Occurs (verdict count).marker closing := by
  rw [sentence, if_neg (by omega)] at h
  split_ifs at h with hzero hone
  · obtain rfl := Except.ok.inj h
    have hlead : Unmarked s!"Unable to locate any corrupt files under '{path}'.\n\n" :=
      (Unmarked.first (by decide) hpath).ended (by decide)
    have hends : EndsWithout Status.isMarkerLetter "'.\n\n" := by decide
    have hask : Fits .healthy
        s!"Please run a complete fsck to confirm if '{path}' {Status.healthy.marker}" :=
      fits_closing (by decide) hpath (by decide) (by decide)
    rw [verdict, if_pos (by omega)]
    exact ⟨(hlead.fits _).append hask (.inl (hends.append _)),
      (occurs_append_right ..).trans (occurs_append_right ..)⟩
  · obtain rfl := Except.ok.inj h
    rw [verdict, if_neg (by omega)]
    exact ⟨fits_closing (by decide) hpath (by decide) (by decide), occurs_append_right ..⟩
  · obtain rfl := Except.ok.inj h
    have hcount : Unmarked s!"There are at least {(count : Int)} corrupt files under '" :=
      (Unmarked.first (by decide) (.low (.int _))).ended (by decide)
    have hends : EndsWithout Char.isUpper " corrupt files under '" := by decide
    rw [verdict, if_neg (by omega)]
    exact ⟨fits_closing ⟨hcount, hends.append _⟩ hpath (by decide) (by decide),
      occurs_append_right ..⟩

namespace Checker

/-- What was done is told without naming a status, and what failed with no marker but that of a
failure. -/
structure Treated.IsPlain (treated : Treated) : Prop where
  actions : ∀ line ∈ treated.actions, Unmarked line
  failures : ∀ line ∈ treated.failures, Fits .failure line

/-- The text of a listing tells its status: that of the sentence on corrupt files, or a failure that
one of its lines tells of. -/
theorem shows_listingResult {path : String} {files : List String} {treated : Treated}
    {result : Result} (hpath : Unmarked path) (hfiles : ∀ file ∈ files, Unmarked file)
    (hplain : treated.IsPlain) (h : listingResult path files treated = .ok result) :
    Shows result.status result.output := by
  have hnothing : Unmarked "" := by decide
  have hlisted : ∀ status, ∀ line ∈ files, Fits status line :=
    fun status file hmem => (hfiles file hmem).fits status
  have hacted : ∀ status, ∀ line ∈ treated.actions, Fits status line :=
    fun status line hmem => (hplain.actions line hmem).fits status
  rw [listingResult] at h
  by_cases hnone : treated.failures.isEmpty = true
  · rw [if_pos hnone] at h
    cases hsentence : Listing.sentence files.length path with
    | error e =>
      rw [hsentence] at h
      cases h
    | ok closing =>
      rw [hsentence] at h
      obtain rfl := Except.ok.inj h
      obtain ⟨hfits, hmarker⟩ := Listing.fits_sentence hpath hsentence
      have hverdict : (if files.isEmpty then Status.healthy else .corrupt) =
          Listing.verdict files.length := by
        simp [Listing.verdict]
      dsimp only
      rw [hverdict]
      refine shows_lines ?_ (List.mem_append_left _ (List.mem_append_right _ (by simp))) hmarker
      simp only [List.forall_mem_append, List.forall_mem_singleton]
      refine ⟨⟨?_, hfits⟩, hacted _⟩
      split_ifs
      · simp
      · exact List.forall_mem_append.mpr
          ⟨hlisted _, List.forall_mem_singleton.mpr (hnothing.fits _)⟩
  · rw [if_neg hnone] at h
    obtain rfl := Except.ok.inj h
    refine shows_lines ?_ (List.mem_append_right _ (by simp)) (Status.failure.occurs_line path)
    simp only [List.forall_mem_append, List.forall_mem_cons]
    exact ⟨⟨⟨hlisted _, hacted _⟩, hplain.failures⟩, hnothing.fits _, Status.failure.fits_line hpath,
      by simp⟩

theorem shows_failed {o : Options} {message : String} (hpath : Unmarked o.path)
    (hmessage : Unmarked message) : Shows .failure (failed o message).output := by
  have hnothing : Unmarked "" := by decide
  have hlines : (failed o message).output =
      String.intercalate "\n" [message, "", "", Status.failure.line o.path] ++ "\n" := by
    simp only [failed, String.intercalate_cons_cons, String.intercalate_singleton,
      String.append_assoc]
    rfl
  rw [hlines]
  refine shows_lines ?_ (by simp) (Status.failure.occurs_line o.path)
  simp only [List.forall_mem_cons]
  exact ⟨hmessage.fits _, hnothing.fits _, hnothing.fits _, Status.failure.fits_line hpath, by simp⟩

end Checker

end BlockFsck
