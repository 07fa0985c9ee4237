import Mathlib.Algebra.Order.BigOperators.Group.List
import Mathlib.Tactic.Ring
import BlockFsck.Proofs.Report.Merge

/-!
# The average block size of a report

The average is taken over the blocks that were validated, but of the whole length of their files. It
is no more than the largest of those blocks as long as the last blocks of files open for write,
which are not validated, fit into the room that the validated ones leave below the largest
(`Report.average_le_iff_fits`).
-/

namespace BlockFsck

def BlockRecord.totalLength (blocks : List BlockRecord) : Int :=
  (blocks.map BlockRecord.length).sum

namespace FileRecord

/-- The length of the file is that of its blocks, of which none is negative. -/
structure IsSummed (record : FileRecord) : Prop where
  length_eq : record.length = BlockRecord.totalLength record.blocks
  nonneg : ∀ block ∈ record.blocks, 0 ≤ block.length

/-- The block of a visible file that does not count: the last one if the file is open for write. -/
def leftOut (record : FileRecord) (openVisible : Bool) : List BlockRecord :=
  if record.openForWrite && openVisible then record.blocks.getLast?.toList else []

private theorem judged_append_leftOut {record : FileRecord} {openVisible : Bool}
    (h : (record.openForWrite && !openVisible) = false) :
    record.judged openVisible ++ record.leftOut openVisible = record.blocks := by
  rw [judged, leftOut]
  cases ho : record.openForWrite with
  | false => simp
  | true =>
    obtain rfl : openVisible = true := by simpa [ho] using h
    cases record.blocks using List.reverseRecOn with
    | nil => rfl
    | append_singleton blocks block => simp

private theorem leftOut_of_skipped {record : FileRecord} {openVisible : Bool}
    (h : record.openForWrite = true → openVisible = false) : record.leftOut openVisible = [] := by
  rw [leftOut, if_neg]
  cases hopen : record.openForWrite <;> simp_all

private theorem judged_subset (record : FileRecord) (openVisible : Bool) :
    record.judged openVisible ⊆ record.blocks := by
  rw [judged]
  split_ifs
  · exact List.dropLast_subset _
  · exact List.nil_subset _
  · exact List.Subset.refl _

end FileRecord

private theorem sum_room (bound : Int) (values : List Int) :
    (values.map fun value => bound + 1 - value).sum =
      (bound + 1) * values.length - values.sum := by
  induction values with
  | nil => simp
  | cons value values ih =>
    rw [List.map_cons, List.sum_cons, List.sum_cons, ih, List.length_cons, Nat.cast_succ]
    ring

/-- An average rounded down is no more than a bound if and only if what is not one of the values
fits into the room that the values leave below the next number. -/
theorem average_le_iff {values : List Int} (hne : values ≠ []) (more bound : Int) :
    (values.sum + more) / values.length ≤ bound ↔
      more < (values.map fun value => bound + 1 - value).sum := by
  have hpos : (0 : Int) < values.length := by
    exact_mod_cast List.length_pos_iff.mpr hne
  rw [← Int.lt_add_one_iff, Int.ediv_lt_iff_lt_mul hpos, sum_room]
  omega

namespace Summary

private theorem countBlocks_totalSize (blocks : List BlockHealth) (s : Summary) :
    (blocks.foldl countBlock s).totalSize = s.totalSize := by
  induction blocks generalizing s with
  | nil => rfl
  | cons block blocks ih =>
    rw [List.foldl_cons, ih, countBlock, countVerdict]
    cases block.verdict <;> rfl

private theorem countFile_size {record : FileRecord} {openVisible : Bool} {health : FileHealth}
    (h : FileHealth.ofRecord record openVisible = .ok health) (s : Summary) :
    (s.countFile health).totalBlocks = s.totalBlocks + (record.judged openVisible).length ∧
      (s.countFile health).totalSize =
        s.totalSize + (if record.openForWrite && !openVisible then 0 else record.length) := by
  rw [FileHealth.ofRecord_eq] at h
  split_ifs at h with hskip
  · cases h
    have hnone : record.judged openVisible = [] := by
      simp_all [FileRecord.judged]
    simp [countFile, hskip, hnone]
  · split at h
    · cases h
    · cases h
      rw [countFile, if_neg (by simp), if_neg hskip, countBlocks_totalSize, (countBlocks_files _ _).1]
      simp

private theorem countFile_size_of_summed {record : FileRecord} (hsum : record.IsSummed)
    {openVisible : Bool} {health : FileHealth}
    (h : FileHealth.ofRecord record openVisible = .ok health) (s : Summary) :
    (s.countFile health).totalBlocks = s.totalBlocks + (record.judged openVisible).length ∧
      (s.countFile health).totalSize = s.totalSize +
        BlockRecord.totalLength (record.judged openVisible) +
        BlockRecord.totalLength (record.leftOut openVisible) := by
  obtain ⟨hblocks, hsize⟩ := countFile_size h s
  refine ⟨hblocks, ?_⟩
  rw [hsize]
  cases hskip : record.openForWrite && !openVisible with
  | false =>
    have hparts := FileRecord.judged_append_leftOut hskip
    rw [if_neg (by simp), hsum.length_eq, ← hparts, BlockRecord.totalLength,
      BlockRecord.totalLength, BlockRecord.totalLength, List.map_append, List.sum_append, add_assoc]
  | true =>
    have hnone : record.judged openVisible = [] ∧ record.leftOut openVisible = [] := by
      simp_all [FileRecord.judged, FileRecord.leftOut]
    simp [hnone, BlockRecord.totalLength]

/-- The average block size that is printed. -/
def averageBlockSize (s : Summary) : Int := s.totalSize / s.totalBlocks

end Summary

namespace Report

section Files

variable (files : List (FileRecord × Bool))

/-- Judges files, each with whether it is visible while it is open for write. -/
def judgeAll : Except Malformed (List FileHealth) :=
  files.mapM fun file => FileHealth.ofRecord file.1 file.2

def validatedBlocks : List BlockRecord := files.flatMap fun file => file.1.judged file.2

def leftOutBlocks : List BlockRecord := files.flatMap fun file => file.1.leftOut file.2

private theorem exists_judgeAll {files : List (FileRecord × Bool)}
    (h : ∀ file ∈ files, file.1.IsSummed) :
    ∃ healths, judgeAll files = .ok healths ∧ ∀ s : Summary,
      (healths.foldl Summary.countFile s).totalBlocks =
        s.totalBlocks + (validatedBlocks files).length ∧
      (healths.foldl Summary.countFile s).totalSize = s.totalSize +
        BlockRecord.totalLength (validatedBlocks files) +
        BlockRecord.totalLength (leftOutBlocks files) := by
  induction files with
  | nil =>
    exact ⟨[], rfl, fun s => by simp [validatedBlocks, leftOutBlocks, BlockRecord.totalLength]⟩
  | cons file files ih =>
    have hsum := h file List.mem_cons_self
    obtain ⟨healths, hok, hrest⟩ := ih fun other hmem => h other (List.mem_cons_of_mem file hmem)
    cases hjudged : FileHealth.ofRecord file.1 file.2 with
    | error malformed =>
      obtain ⟨block, hmem, hnegative⟩ :=
        (FileHealth.ofRecord_error file.1 file.2).mp ⟨malformed, hjudged⟩
      have hnonneg := hsum.nonneg block (file.1.judged_subset file.2 hmem)
      exact absurd hnegative hnonneg.not_gt
    | ok health =>
      refine ⟨health :: healths, ?_, fun s => ?_⟩
      · rw [judgeAll, List.mapM_cons, hjudged]
        change (do let rest ← judgeAll files; pure (health :: rest)) = _
        rw [hok]
        rfl
      · obtain ⟨hblocks, hsize⟩ := Summary.countFile_size_of_summed hsum hjudged s
        obtain ⟨hblocks', hsize'⟩ := hrest (s.countFile health)
        rw [List.foldl_cons, hblocks', hsize', hblocks, hsize]
        simp only [validatedBlocks, leftOutBlocks, BlockRecord.totalLength, List.flatMap_cons,
          List.length_append, List.map_append, List.sum_append, Nat.cast_add]
        constructor <;> ring

end Files

def validatedLine (blocks average : Int) : String :=
  s!" Total blocks (validated):\t{blocks} (avg. block size {average} B)"

private theorem validatedLine_eq (blocks average : Int) :
    validatedLine blocks average =
      s!" Total blocks (validated):\t{blocks}" ++ s!" (avg. block size {average} B)" := by
  unfold validatedLine
  simp only [String.append_assoc]

private theorem validatedLine_mem {report : Report} (h : 0 < report.summary.totalBlocks)
    {lines : List String} (hlines : report.summaryLines = .ok lines) :
    validatedLine report.summary.totalBlocks report.summary.averageBlockSize ∈ lines := by
  have hcount : validatedLine report.summary.totalBlocks report.summary.averageBlockSize ∈
      countLines report.detail report.summary := by
    rw [countLines]
    refine List.mem_append_right _ (List.mem_singleton.mpr ?_)
    rw [if_pos h]
    exact validatedLine_eq _ _
  rw [summaryLines] at hlines
  cases hsome : summaryLines? report.detail report.summary with
  | none =>
    rw [hsome] at hlines
    cases hlines
  | some found =>
    rw [hsome] at hlines
    cases hlines
    rw [summaryLines?] at hsome
    simp only [Option.bind_eq_bind, Option.bind_eq_some_iff, Option.pure_def,
      Option.some.injEq] at hsome
    obtain ⟨sizes, -, shares, -, rfl⟩ := hsome
    simp only [List.cons_append, List.mem_cons, List.mem_append]
    exact .inr (.inl (.inl (.inl (.inr hcount))))

/-- The average that is printed beside the number of validated blocks is no more than the largest of
them if and only if the blocks that are left out fit into the room below it. That is so where no
file that is open for write is visible. -/
theorem average_le_iff_fits (path : String) (detail : Detail) (writesOutside : Bool)
    {files : List (FileRecord × Bool)} (hfiles : ∀ file ∈ files, file.1.IsSummed) {largest : Int}
    (hlargest : ((validatedBlocks files).map BlockRecord.length).max? = some largest) :
    ∃ healths report, judgeAll files = .ok healths ∧
      (opening path detail writesOutside).tell (healths.map .file) = .ok report ∧
      report.summary.totalBlocks = (validatedBlocks files).length ∧
      (∀ lines, report.summaryLines = .ok lines →
        validatedLine report.summary.totalBlocks report.summary.averageBlockSize ∈ lines) ∧
      (report.summary.averageBlockSize ≤ largest ↔
        BlockRecord.totalLength (leftOutBlocks files) <
          ((validatedBlocks files).map fun block => largest + 1 - block.length).sum) ∧
      ((∀ file ∈ files, file.1.openForWrite = true → file.2 = false) →
        report.summary.averageBlockSize ≤ largest) := by
  obtain ⟨healths, hok, hcounts⟩ := exists_judgeAll hfiles
  have hsummary : ((opening path detail writesOutside).addAll (healths.map .file)).summary =
      healths.foldl Summary.countFile {} := by
    rw [summary_addAll, List.foldl_map]
    rfl
  obtain ⟨hblocks, hsize⟩ := hcounts {}
  rw [← hsummary] at hblocks hsize
  have hzero : ({} : Summary).totalBlocks = 0 ∧ ({} : Summary).totalSize = 0 := ⟨rfl, rfl⟩
  rw [hzero.1, zero_add] at hblocks
  rw [hzero.2, zero_add] at hsize
  have hne : (validatedBlocks files).map BlockRecord.length ≠ [] := by
    intro hnone
    rw [hnone] at hlargest
    cases hlargest
  have hfits :
      ((opening path detail writesOutside).addAll
        (healths.map .file)).summary.averageBlockSize ≤ largest ↔
      BlockRecord.totalLength (leftOutBlocks files) <
        ((validatedBlocks files).map fun block => largest + 1 - block.length).sum := by
    have hiff := average_le_iff hne (BlockRecord.totalLength (leftOutBlocks files)) largest
    rw [List.length_map, List.map_map] at hiff
    rw [Summary.averageBlockSize, hblocks, hsize]
    exact hiff
  refine ⟨healths, _, hok, tell_of_open rfl _, hblocks, fun lines hlines => ?_, hfits, ?_⟩
  · refine validatedLine_mem ?_ hlines
    rw [hblocks]
    exact_mod_cast List.length_pos_iff.mpr (mt (congrArg _) hne)
  · intro hskipped
    rw [hfits]
    have hnone : leftOutBlocks files = [] :=
      List.flatMap_eq_nil_iff.mpr fun file hmem =>
        FileRecord.leftOut_of_skipped (hskipped file hmem)
    have hmost := (List.max?_eq_some_iff.mp hlargest).2
    rw [hnone]
    refine List.sum_pos _ (fun room hmem => ?_) (mt List.map_eq_nil_iff.mp (mt (congrArg _) hne))
    obtain ⟨block, hblock, rfl⟩ := List.mem_map.mp hmem
    have hle := hmost block.length (List.mem_map_of_mem hblock)
    omega

/-- A file open for write with a whole block and the beginning of another one. -/
def growingFile : FileRecord :=
  let copy : Replica := { node := "n1", length := 4 }
  { path := "/a", length := 7, replication := 1, openForWrite := true,
    blocks := [{ id := "blk_1", length := 4, replicas := [copy] },
      { id := "blk_2", length := 3, replicas := [{ copy with length := 3 }] }] }

private theorem growingFile_isSummed : growingFile.IsSummed := by
  constructor <;> decide

/-- A larger block of another file leaves room for the block that is left out. -/
theorem average_le_iff_fits_of_larger :
    let whole : FileRecord :=
      { path := "/b", length := 8, replication := 1, blocks := [{ id := "blk_3", length := 8 }] }
    let files := [(growingFile, true), (whole, false)]
    (∀ file ∈ files, file.1.IsSummed) ∧
      ((validatedBlocks files).map BlockRecord.length).max? = some 8 ∧
      ∃ healths report, judgeAll files = .ok healths ∧
        (opening "/" {} false).tell (healths.map .file) = .ok report ∧
        report.summary.totalBlocks = 2 ∧ report.summary.averageBlockSize ≤ 8 := by
  intro whole files
  have hsummed : ∀ file ∈ files, file.1.IsSummed := by
    simp only [files, List.forall_mem_cons]
    exact ⟨growingFile_isSummed, ⟨by decide, by decide⟩, by simp⟩
  have hlargest : ((validatedBlocks files).map BlockRecord.length).max? = some 8 := by decide
  obtain ⟨healths, report, hok, htold, hblocks, -, hfits, -⟩ :=
    average_le_iff_fits "/" {} false hsummed hlargest
  exact ⟨hsummed, hlargest, healths, report, hok, htold, hblocks, hfits.mpr (by decide)⟩

/-- The only validated block has four bytes, and the average that is printed is seven. -/
theorem printed_average_above_largest :
    growingFile.IsSummed ∧
      ∃ healths report lines, judgeAll [(growingFile, true)] = .ok healths ∧
        (opening "/" {} false).tell (healths.map .file) = .ok report ∧
        report.summaryLines = .ok lines ∧ validatedLine 1 7 ∈ lines ∧
        ∀ block ∈ validatedBlocks [(growingFile, true)], block.length < 7 := by
  let health : FileHealth :=
    { record := growingFile
      blocks := (growingFile.judged true).map (BlockHealth.judge 1)
      excluded := growingFile.leftOut true
      openForWrite := true }
  let report := (opening "/" {} false).addAll [.file health]
  have hprinted : report.summaryLines.isOk = true := by decide +kernel
  have hblocks : report.summary.totalBlocks = 1 := by decide +kernel
  have haverage : report.summary.averageBlockSize = 7 := by decide +kernel
  cases hlines : report.summaryLines with
  | error failure =>
    rw [hlines] at hprinted
    cases hprinted
  | ok lines =>
    have hmem := validatedLine_mem (hblocks ▸ Int.one_pos) hlines
    rw [hblocks, haverage] at hmem
    exact ⟨growingFile_isSummed, [health], report, lines, rfl, rfl, hlines, hmem, by decide⟩

end Report

end BlockFsck
