import BlockFsck.Proofs.Health
import BlockFsck.Report.Basic

/-!
# Counting findings

A report is open until it is rendered, and so it takes every finding of a run. Its status follows
from which findings there are.
-/

namespace BlockFsck

namespace Summary

private theorem countBlock_counters (s : Summary) (h : BlockHealth) :
    (s.countBlock h).corruptBlocks = s.corruptBlocks + (if h.verdict = .corrupt then 1 else 0) ∧
    (s.countBlock h).missingBlocks = s.missingBlocks + (if h.verdict = .missing then 1 else 0) ∧
    (s.countBlock h).corruptFiles = s.corruptFiles ∧
    (s.countBlock h).failedFiles = s.failedFiles := by
  rw [countBlock, countVerdict]
  cases h.verdict <;> simp

private theorem countBlocks_counters (s : Summary) (blocks : List BlockHealth) :
    (blocks.foldl countBlock s).corruptBlocks =
      s.corruptBlocks + blocks.countP (·.verdict = .corrupt) ∧
    (blocks.foldl countBlock s).missingBlocks =
      s.missingBlocks + blocks.countP (·.verdict = .missing) ∧
    (blocks.foldl countBlock s).corruptFiles = s.corruptFiles ∧
    (blocks.foldl countBlock s).failedFiles = s.failedFiles := by
  induction blocks generalizing s with
  | nil => simp
  | cons block blocks ih =>
    obtain ⟨hc, hm, hf, he⟩ := countBlock_counters s block
    obtain ⟨ihc, ihm, ihf, ihe⟩ := ih (s.countBlock block)
    rw [List.foldl_cons, ihc, ihm, ihf, ihe, hc, hm, hf, he, List.countP_cons, List.countP_cons]
    refine ⟨?_, ?_, rfl, rfl⟩
    · by_cases hv : block.verdict = .corrupt <;> simp [hv]; omega
    · by_cases hv : block.verdict = .missing <;> simp [hv]; omega

theorem countFile_counters (s : Summary) (h : FileHealth) :
    (s.countFile h).corruptBlocks = s.corruptBlocks +
      (if h.skipped then 0 else h.blocks.countP (·.verdict = .corrupt)) ∧
    (s.countFile h).missingBlocks = s.missingBlocks +
      (if h.skipped then 0 else h.blocks.countP (·.verdict = .missing)) ∧
    (s.countFile h).corruptFiles = s.corruptFiles +
      (if h.skipped then 0 else if h.isCorrupt then 1 else 0) ∧
    (s.countFile h).failedFiles = s.failedFiles := by
  rw [countFile]
  by_cases hs : h.skipped = true
  · simp [hs]
  · simp only [hs, if_false, Bool.false_eq_true]
    obtain ⟨hc, hm, hf, he⟩ := countBlocks_counters _ h.blocks
    exact ⟨hc, hm, hf, he⟩

end Summary

namespace Finding

/-- Something could not be dealt with. -/
def isFailure : Finding → Bool
  | .failed _ _ => true
  | _ => false

/-- A judged file with data lost or damaged. -/
def isLoss : Finding → Bool
  | .file h => !h.skipped && (h.isCorrupt || h.blocks.any (·.verdict.isLoss))
  | _ => false

end Finding

namespace Summary

/-- Some block or file has been counted as lost. -/
def HasLoss (s : Summary) : Prop := 0 < s.corruptBlocks ∨ 0 < s.missingBlocks ∨ 0 < s.corruptFiles

/-- The counters that make the status are no less than zero. -/
structure Counts (s : Summary) : Prop where
  corruptBlocks_nonneg : 0 ≤ s.corruptBlocks
  missingBlocks_nonneg : 0 ≤ s.missingBlocks
  corruptFiles_nonneg : 0 ≤ s.corruptFiles
  failedFiles_nonneg : 0 ≤ s.failedFiles

private theorem counts_empty : Counts {} := by constructor <;> decide

private theorem Counts.count {s : Summary} (hs : s.Counts) (finding : Finding) :
    (s.count finding).Counts ∧
      ((s.count finding).HasLoss ↔ s.HasLoss ∨ finding.isLoss = true) ∧
      (0 < (s.count finding).failedFiles ↔ 0 < s.failedFiles ∨ finding.isFailure = true) := by
  obtain ⟨hc, hm, hf, he⟩ := hs
  cases finding with
  | file h =>
    obtain ⟨hcount, hmissing, hfiles, hfailed⟩ := countFile_counters s h
    rw [Summary.count]
    by_cases hs : h.skipped = true
    · simp only [hs, if_true] at hcount hmissing hfiles
      refine ⟨⟨by omega, by omega, by omega, by omega⟩, ?_, ?_⟩
      · simp [HasLoss, hcount, hmissing, hfiles, Finding.isLoss, hs]
      · simp [hfailed, Finding.isFailure]
    · simp only [hs, if_false, Bool.false_eq_true] at hcount hmissing hfiles
      have hloss : (∃ block ∈ h.blocks, block.verdict.isLoss = true) ↔
          0 < h.blocks.countP (·.verdict = .corrupt) ∨
            0 < h.blocks.countP (·.verdict = .missing) := by
        rw [List.countP_pos_iff, List.countP_pos_iff, ← exists_or]
        simp only [Verdict.isLoss, Bool.or_eq_true, decide_eq_true_eq, ← and_or_left]
      refine ⟨⟨by omega, by omega, by split_ifs at hfiles <;> omega, by omega⟩, ?_, ?_⟩
      · rw [HasLoss, hcount, hmissing, hfiles, Finding.isLoss]
        simp only [hs, Bool.not_false, Bool.true_and, Bool.or_eq_true, List.any_eq_true, hloss,
          HasLoss]
        split_ifs with hcor
        · simp only [hcor, true_or, or_true, iff_true]
          omega
        · simp only [hcor, false_or, Bool.false_eq_true]
          omega
      · simp [hfailed, Finding.isFailure]
  | failed path reason =>
    refine ⟨⟨hc, hm, hf, Int.add_nonneg he (by decide)⟩, ?_, ?_⟩
    · simp [Summary.count, HasLoss, Finding.isLoss]
    · simp only [Summary.count, Finding.isFailure, or_true, iff_true]
      omega
  | directory path => exact ⟨⟨hc, hm, hf, he⟩, by simp [Summary.count, HasLoss, Finding.isLoss],
      by simp [Summary.count, Finding.isFailure]⟩
  | moved path destination => exact ⟨⟨hc, hm, hf, he⟩,
      by simp [Summary.count, HasLoss, Finding.isLoss], by simp [Summary.count, Finding.isFailure]⟩
  | deleted path => exact ⟨⟨hc, hm, hf, he⟩,
      by simp [Summary.count, HasLoss, Finding.isLoss], by simp [Summary.count, Finding.isFailure]⟩

private theorem Counts.countAll {s : Summary} (hs : s.Counts) (findings : List Finding) :
    ((findings.foldl Summary.count s).HasLoss ↔
      s.HasLoss ∨ ∃ finding ∈ findings, finding.isLoss = true) ∧
    (0 < (findings.foldl Summary.count s).failedFiles ↔
      0 < s.failedFiles ∨ ∃ finding ∈ findings, finding.isFailure = true) := by
  induction findings generalizing s with
  | nil => simp
  | cons finding findings ih =>
    obtain ⟨hcounts, hloss, hfailed⟩ := hs.count finding
    obtain ⟨ihloss, ihfailed⟩ := ih hcounts
    rw [List.foldl_cons, ihloss, ihfailed, hloss, hfailed]
    simp only [List.mem_cons, exists_eq_or_imp, or_assoc, and_self]

end Summary

namespace Report

/-- The report after findings, one after the other. -/
def addAll (report : Report) (findings : List Finding) : Report :=
  findings.foldl (fun report finding =>
    { report with summary := report.summary.count finding }.writeLines
      (findingLines report.detail finding)) report

variable {report : Report}

theorem add_of_open (h : report.closed = false) (finding : Finding) :
    report.add finding = .ok (report.addAll [finding]) := by
  rw [add, if_neg (by simp [h])]
  rfl

theorem addAll_append (report : Report) (findings others : List Finding) :
    report.addAll (findings ++ others) = (report.addAll findings).addAll others :=
  List.foldl_append

theorem closed_addAll (report : Report) (findings : List Finding) :
    (report.addAll findings).closed = report.closed := by
  induction findings generalizing report with
  | nil => rfl
  | cons finding findings ih => exact ih _

theorem writesOutside_addAll (report : Report) (findings : List Finding) :
    (report.addAll findings).writesOutside = report.writesOutside := by
  induction findings generalizing report with
  | nil => rfl
  | cons finding findings ih => exact ih _

theorem summary_addAll (report : Report) (findings : List Finding) :
    (report.addAll findings).summary = findings.foldl Summary.count report.summary := by
  induction findings generalizing report with
  | nil => rfl
  | cons finding findings ih => exact ih _

/-- The status of a report from its findings. -/
theorem status_addAll (hs : report.summary = {}) (findings : List Finding) :
    (report.addAll findings).summary.status =
      if findings.any Finding.isFailure then .failure
      else if findings.any Finding.isLoss then .corrupt else .healthy := by
  obtain ⟨hloss, hfailed⟩ := Summary.counts_empty.countAll findings
  rw [summary_addAll, hs, Summary.status]
  have hempty : ¬ Summary.HasLoss {} := by simp [Summary.HasLoss]
  simp only [hempty, false_or, lt_irrefl, ← List.any_eq_true] at hloss hfailed
  rw [Summary.HasLoss] at hloss
  simp only [hloss, hfailed]

end Report

end BlockFsck
