import BlockFsck.Proofs.Report.Balance

/-!
# Reports in parts

A finding adds the same to the counters whatever was found before it. The counters of a report are
therefore those of its parts put together, in any order, and no finding takes back what the findings
before it say of the status (`Report.summary_merges`).
-/

namespace BlockFsck

/-- How much a status outweighs. -/
def Status.severity : Status → Nat
  | .healthy => 0
  | .corrupt => 1
  | .failure => 2

namespace Summary

/-- What two parts have counted. Of two least numbers the smaller one counts, and one alone if there
is no other. -/
def merge (s t : Summary) : Summary where
  totalFiles := s.totalFiles + t.totalFiles
  totalDirs := s.totalDirs + t.totalDirs
  totalBlocks := s.totalBlocks + t.totalBlocks
  totalSize := s.totalSize + t.totalSize
  totalReplicas := s.totalReplicas + t.totalReplicas
  minReplication := s.minReplication.merge min t.minReplication
  corruptBlocks := s.corruptBlocks + t.corruptBlocks
  missingBlocks := s.missingBlocks + t.missingBlocks
  missingSize := s.missingSize + t.missingSize
  underReplicatedBlocks := s.underReplicatedBlocks + t.underReplicatedBlocks
  overReplicatedBlocks := s.overReplicatedBlocks + t.overReplicatedBlocks
  minimallyReplicatedBlocks := s.minimallyReplicatedBlocks + t.minimallyReplicatedBlocks
  missingReplicas := s.missingReplicas + t.missingReplicas
  openFiles := s.openFiles + t.openFiles
  openFilesBlocks := s.openFilesBlocks + t.openFilesBlocks
  openFilesSize := s.openFilesSize + t.openFilesSize
  corruptFiles := s.corruptFiles + t.corruptFiles
  failedFiles := s.failedFiles + t.failedFiles
  movedFiles := s.movedFiles + t.movedFiles
  deletedFiles := s.deletedFiles + t.deletedFiles

private theorem merge_comm (s t : Summary) : s.merge t = t.merge s := by
  have hleast : s.minReplication.merge min t.minReplication =
      t.minReplication.merge min s.minReplication := Std.Commutative.comm _ _
  rw [merge, merge, hleast]
  simp only [Int.add_comm]

private theorem merge_assoc (s t u : Summary) : (s.merge t).merge u = s.merge (t.merge u) := by
  have hleast : (s.minReplication.merge min t.minReplication).merge min u.minReplication =
      s.minReplication.merge min (t.minReplication.merge min u.minReplication) :=
    Std.Associative.assoc _ _ _
  simp only [merge, hleast, Int.add_assoc]

private theorem merge_empty (s : Summary) : s.merge {} = s := by
  simp [merge]

variable (s t : Summary)

private theorem countBlock_merge (h : BlockHealth) :
    (s.merge t).countBlock h = s.merge (t.countBlock h) := by
  have hleast : some (least (s.merge t).minReplication h.usable) =
      s.minReplication.merge min (some (least t.minReplication h.usable)) := by
    cases hs : s.minReplication <;> cases ht : t.minReplication <;>
      simp [merge, least, hs, ht, Int.min_assoc]
  rw [countBlock, hleast, countBlock, countVerdict, countVerdict]
  cases h.verdict <;> simp only [merge, Int.add_assoc]

private theorem countBlocks_merge (blocks : List BlockHealth) :
    blocks.foldl countBlock (s.merge t) = s.merge (blocks.foldl countBlock t) := by
  induction blocks generalizing t with
  | nil => rfl
  | cons h blocks ih => rw [List.foldl_cons, countBlock_merge, ih, List.foldl_cons]

private theorem countFile_merge (h : FileHealth) :
    (s.merge t).countFile h = s.merge (t.countFile h) := by
  rw [countFile, countFile]
  by_cases hskip : h.skipped = true
  · rw [if_pos hskip, if_pos hskip]
    simp only [merge, Int.add_assoc]
  · rw [if_neg hskip, if_neg hskip, ← countBlocks_merge]
    simp only [merge, Int.add_assoc]

private theorem count_merge (finding : Finding) :
    (s.merge t).count finding = s.merge (t.count finding) := by
  cases finding with
  | file h => exact countFile_merge s t h
  | directory | failed | moved | deleted => simp only [count, merge, Int.add_assoc]

private theorem countAll_merge (findings : List Finding) :
    findings.foldl count (s.merge t) = s.merge (findings.foldl count t) := by
  induction findings generalizing t with
  | nil => rfl
  | cons finding findings ih => rw [List.foldl_cons, count_merge, ih, List.foldl_cons]

private theorem countAll_append (xs ys : List Finding) :
    (xs ++ ys).foldl count {} = (xs.foldl count {}).merge (ys.foldl count {}) := by
  rw [List.foldl_append, ← countAll_merge, merge_empty]

private theorem count_eq_merge (finding : Finding) : s.count finding = s.merge
    (count {} finding) := by
  rw [← count_merge, merge_empty]

private theorem count_right_comm (one other : Finding) :
    (s.count one).count other = (s.count other).count one :=
  calc (s.count one).count other
    _ = (s.merge (count {} one)).merge (count {} other) := by
      rw [← count_eq_merge, ← count_eq_merge]
    _ = (s.merge (count {} other)).merge (count {} one) := by
      rw [merge_assoc, merge_comm (count {} one), ← merge_assoc]
    _ = (s.count other).count one := by rw [← count_eq_merge, ← count_eq_merge]

private theorem countAll_perm {xs ys : List Finding} (h : xs.Perm ys) :
    xs.foldl count s = ys.foldl count s :=
  h.foldl_eq' (fun one _ other _ s => count_right_comm s one other) s

end Summary

namespace Report

/-- The report after the findings, one after the other, if it takes them all. -/
def tell (report : Report) (findings : List Finding) : Except Failure Report :=
  findings.foldlM add report

theorem tell_of_open {report : Report} (h : report.closed = false) (findings : List Finding) :
    report.tell findings = .ok (report.addAll findings) := by
  induction findings generalizing report with
  | nil => rfl
  | cons finding findings ih =>
    rw [tell, List.foldlM_cons, add_of_open h]
    exact ih ((closed_addAll report [finding]).trans h)

private theorem severity_addAll_append {report : Report} (h : report.summary = {})
    (xs ys : List Finding) :
    (report.addAll (xs ++ ys)).summary.status.severity =
      max (report.addAll xs).summary.status.severity
        (report.addAll ys).summary.status.severity := by
  rw [status_addAll h, status_addAll h, status_addAll h, List.any_append, List.any_append]
  cases xs.any Finding.isFailure <;> cases ys.any Finding.isFailure <;>
    cases xs.any Finding.isLoss <;> cases ys.any Finding.isLoss <;> rfl

/-- Two reports put together have the counters of the report that is told both parts, and the
weightier status of the two; the order in which it is told them does not matter. -/
theorem summary_merges (path : String) (detail : Detail) (writesOutside : Bool)
    (xs ys : List Finding) :
    ∃ first second whole : Report,
      (opening path detail writesOutside).tell xs = .ok first ∧
      (opening path detail writesOutside).tell ys = .ok second ∧
      (opening path detail writesOutside).tell (xs ++ ys) = .ok whole ∧
      whole.summary = first.summary.merge second.summary ∧
      whole.summary.status.severity =
        max first.summary.status.severity second.summary.status.severity ∧
      ∀ others, others.Perm (xs ++ ys) →
        ∃ shuffled : Report, (opening path detail writesOutside).tell others = .ok shuffled ∧
          shuffled.close.summary = whole.close.summary ∧
          shuffled.close.summary.status.exitCode = whole.close.summary.status.exitCode := by
  have hopen : (opening path detail writesOutside).closed = false := rfl
  refine ⟨_, _, _, tell_of_open hopen xs, tell_of_open hopen ys, tell_of_open hopen (xs ++ ys),
    ?_, severity_addAll_append rfl xs ys, fun others hperm => ?_⟩
  · rw [summary_addAll, summary_addAll, summary_addAll]
    exact Summary.countAll_append xs ys
  · have hsame : ((opening path detail writesOutside).addAll others).close.summary =
        ((opening path detail writesOutside).addAll (xs ++ ys)).close.summary := by
      change ((opening path detail writesOutside).addAll others).summary =
        ((opening path detail writesOutside).addAll (xs ++ ys)).summary
      rw [summary_addAll, summary_addAll, Summary.countAll_perm _ hperm]
    exact ⟨_, tell_of_open hopen others, hsame, by rw [hsame]⟩

/-- A file whose only block has one good copy. -/
def storedFile : FileHealth :=
  let block : BlockRecord :=
    { id := "blk_2", length := 4, replicas := [{ node := "n1", length := 4 }] }
  { record := { path := "/b", length := 4, replication := 1, blocks := [block] }
    verdict := .healthy
    blocks := [BlockHealth.judge 1 block] }

/-- The loss of one part stays visible beside the stored block of the other, wherever it is told. -/
theorem summary_merges_of_lostFile :
    ∃ first second whole shuffled : Report,
      (opening "/" {} false).tell [.file lostFile, .deleted "/a"] = .ok first ∧
      (opening "/" {} false).tell [.file storedFile] = .ok second ∧
      (opening "/" {} false).tell [.file lostFile, .deleted "/a", .file storedFile] = .ok whole ∧
      (opening "/" {} false).tell [.file storedFile, .deleted "/a", .file lostFile] =
        .ok shuffled ∧
      whole.summary = first.summary.merge second.summary ∧
      whole.summary.status.severity =
        max first.summary.status.severity second.summary.status.severity ∧
      shuffled.close.summary = whole.close.summary ∧
      first.summary.minReplication = some 0 ∧ second.summary.minReplication = some 1 ∧
      whole.summary.minReplication = some 0 := by
  obtain ⟨first, second, whole, hfirst, hsecond, hwhole, hmerge, hstatus, hothers⟩ :=
    summary_merges "/" {} false [.file lostFile, .deleted "/a"] [.file storedFile]
  have hreverse := List.reverse_perm ([.file lostFile, .deleted "/a", .file storedFile] :
    List Finding)
  obtain ⟨shuffled, hshuffled, hsame, -⟩ := hothers _ hreverse
  refine ⟨first, second, whole, shuffled, hfirst, hsecond, hwhole, hshuffled, hmerge, hstatus,
    hsame, ?_⟩
  cases hfirst
  cases hsecond
  cases hwhole
  exact ⟨rfl, rfl, rfl⟩

end Report

end BlockFsck
