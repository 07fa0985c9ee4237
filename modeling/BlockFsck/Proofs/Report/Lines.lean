import BlockFsck.Proofs.Report
import BlockFsck.Proofs.Text.Occurs

/-!
# The lines of a report

What is written of a finding stands in the final text of a report line by line. A line break at the
very end of the last line is lost, since the report is cut there.
-/

namespace BlockFsck

namespace Text

/-- The line stands in the text, from the start of a line of the text to the end of one. -/
def HasLine (line text : String) : Prop :=
  ∃ before after, text.toList = before ++ (line.toList ++ '\n' :: after) ∧
    ∀ c ∈ before.getLast?, c = '\n'

variable {line text : String} {lines : List String}

/-- The characters of lines, each with a break behind it. -/
def broken (lines : List String) : List Char := lines.flatMap fun line => line.toList ++ ['\n']

private theorem toList_intercalate (hlines : lines ≠ []) :
    (String.intercalate "\n" lines ++ "\n").toList = broken lines := by
  induction lines with
  | nil => exact absurd rfl hlines
  | cons line lines ih =>
    cases lines with
    | nil => simp [broken]
    | cons other lines =>
      rw [String.intercalate_cons_cons, broken, List.flatMap_cons, ← broken, ← ih (by simp)]
      simp

private theorem eq_break_of_getLast?_broken (lines : List String) :
    ∀ c ∈ (broken lines).getLast?, c = '\n' := by
  rcases List.eq_nil_or_concat' lines with rfl | ⟨lines, line, rfl⟩
  · simp [broken]
  · simp [broken, ← List.append_assoc]

theorem hasLine_of_broken (hmem : line ∈ lines) {written : List Char}
    (htext : text.toList = broken lines ++ written) : HasLine line text := by
  obtain ⟨before, after, rfl⟩ := List.append_of_mem hmem
  refine ⟨broken before, broken after ++ written, ?_, eq_break_of_getLast?_broken before⟩
  simp [htext, broken]

theorem hasLine_intercalate (hmem : line ∈ lines) :
    HasLine line (String.intercalate "\n" lines ++ "\n") := by
  have htext := toList_intercalate (List.ne_nil_of_mem hmem)
  exact hasLine_of_broken hmem (htext.trans (List.append_nil _).symm)

end Text

open Text

namespace Report

variable {report : Report} {line : String}

private theorem toList_writeLines (report : Report) (lines : List String) :
    (report.writeLines lines).written.toList = report.written.toList ++ broken lines := by
  rw [writeLines]
  generalize report.written = text
  induction lines generalizing text with
  | nil => simp [broken]
  | cons line lines ih =>
    rw [List.foldl_cons, ih]
    simp [broken]

theorem toList_written_addAll (report : Report) (findings : List Finding) :
    (report.addAll findings).written.toList =
      report.written.toList ++ broken (findings.flatMap (findingLines report.detail)) := by
  induction findings generalizing report with
  | nil => simp [addAll, broken]
  | cons finding findings ih =>
    have hrest := ih ({ report with summary := report.summary.count finding }.writeLines
      (findingLines report.detail finding))
    rw [toList_writeLines] at hrest
    rw [addAll, List.foldl_cons, ← addAll, hrest]
    simp [broken, writeLines]

private theorem toList_withoutFinalBreaks {text : String} {before after : List Char}
    (htext : text.toList = before ++ (line.toList ++ '\n' :: after))
    (hends : EndsWithout (· = '\n') line) : ∃ kept, kept <+: '\n' :: after ∧
      (withoutFinalBreaks text).toList = before ++ (line.toList ++ kept) := by
  obtain ⟨last, hlast, hbreak⟩ := (Option.any_eq_true _ _).mp hends
  obtain ⟨front, hfront⟩ := List.getLast?_eq_some_iff.mp hlast
  have hstays : ((before ++ line.toList).reverse).dropWhile (· = '\n') =
      (before ++ line.toList).reverse := by
    rw [hfront, ← List.append_assoc, List.reverse_append]
    exact List.dropWhile_cons_of_neg (by simpa using hbreak)
  refine ⟨(('\n' :: after).reverse.dropWhile (· = '\n')).reverse, ?_, ?_⟩
  · rw [← List.reverse_suffix, List.reverse_reverse]
    exact List.dropWhile_suffix _
  · rw [withoutFinalBreaks, String.toList_ofList, htext, ← List.append_assoc,
      List.reverse_append, List.dropWhile_append, hstays]
    split_ifs with hnone
    · rw [List.isEmpty_iff.mp hnone]
      simp
    · simp

/-- The final text has the lines that were written. -/
theorem hasLine_text {output : String} (h : report.text = .ok output)
    (hinside : report.writesOutside = false) (hline : HasLine line report.written)
    (hends : EndsWithout (· = '\n') line) : HasLine line output := by
  rw [text] at h
  cases hcounters : report.summaryLines with
  | error failure =>
    rw [hcounters] at h
    cases h
  | ok counters =>
    rw [hcounters] at h
    obtain rfl := Except.ok.inj h
    obtain ⟨before, after, htext, hbefore⟩ := hline
    have hwritten : report.written ≠ "" := by
      intro hempty
      rw [hempty] at htext
      simp at htext
    obtain ⟨kept, hkept, hcut⟩ := toList_withoutFinalBreaks htext hends
    rw [HasLine, toList_intercalate (by simp), if_neg (by simp [hinside, hwritten]), broken,
      List.append_assoc, List.singleton_append, List.flatMap_cons, ← broken, hcut]
    generalize broken (counters ++ _) = others
    rcases List.prefix_cons_iff.mp hkept with rfl | ⟨kept, rfl, -⟩
    · exact ⟨before, others, by simp, hbefore⟩
    · exact ⟨before, kept ++ '\n' :: others, by simp, hbefore⟩

end Report

end BlockFsck
