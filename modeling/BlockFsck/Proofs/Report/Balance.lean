import BlockFsck.Proofs.Report

/-!
# The books of a report

Every judged block is counted once by its verdict, once among the replicas and once against the
least number of usable ones. The counters of a report are therefore tied together at every point,
whatever it was told and in whatever order. A report that is closed stays as it is, and has one
text.
-/

namespace BlockFsck

/-- The verdict of a block goes with its usable replicas. -/
structure BlockHealth.Graded (h : BlockHealth) : Prop where
  lost_iff : h.verdict.isLoss = true ↔ h.usable = 0
  below : h.verdict = .underReplicated → (h.usable : Int) < h.target
  target_pos : 1 ≤ h.target

private theorem BlockHealth.graded_judge {target : Int} (ht : 1 ≤ target) (block : BlockRecord) :
    (judge target block).Graded := by
  constructor
  case lost_iff => exact BlockRecord.isLoss_verdict
  case below =>
    intro hv
    change block.verdict target = .underReplicated at hv
    rw [BlockRecord.verdict] at hv
    split_ifs at hv with h₀ hc hb
    exact hb
  case target_pos => exact ht

namespace Summary

/-- What a block adds to the counters: a stored block may be off its target, a lost one is not. -/
structure Counted (s : Summary) (h : BlockHealth) (t : Summary) : Prop where
  replicas : t.totalReplicas = s.totalReplicas + h.usable
  least_eq : t.minReplication = some (least s.minReplication h.usable)
  stored : t.minimallyReplicatedBlocks =
    s.minimallyReplicatedBlocks + (if 0 < h.usable then 1 else 0)
  lost : t.corruptBlocks + t.missingBlocks =
    s.corruptBlocks + s.missingBlocks + (if 0 < h.usable then 0 else 1)
  off_target : t.underReplicatedBlocks + t.overReplicatedBlocks ≤
    s.underReplicatedBlocks + s.overReplicatedBlocks + (if 0 < h.usable then 1 else 0)
  absent : t.missingReplicas = s.missingReplicas + h.missingReplicas

private theorem countBlock_counted (s : Summary) {h : BlockHealth} (hg : h.Graded) :
    s.Counted h (s.countBlock h) := by
  have hover : h.overReplicated = true ↔ h.target < h.usable := by simp [BlockHealth.overReplicated]
  have hpos := hg.target_pos
  rw [countBlock, countVerdict]
  cases hv : h.verdict with
  | healthy =>
    have hstored : ¬ h.usable = 0 := by simp [← hg.lost_iff, hv, Verdict.isLoss]
    constructor <;> simp only [hover] <;> split_ifs <;> omega
  | underReplicated =>
    have hbelow := hg.below hv
    have hstored : ¬ h.usable = 0 := by simp [← hg.lost_iff, hv, Verdict.isLoss]
    constructor <;> simp only [hover] <;> split_ifs <;> omega
  | corrupt =>
    have hlost : h.usable = 0 := by simp [← hg.lost_iff, hv, Verdict.isLoss]
    constructor <;> simp only [hover] <;> split_ifs <;> omega
  | missing =>
    have hlost : h.usable = 0 := by simp [← hg.lost_iff, hv, Verdict.isLoss]
    constructor <;> simp only [hover] <;> split_ifs <;> omega

/-- The counters after `blocks` judged blocks. -/
structure Tallied (s : Summary) (blocks : Int) : Prop where
  verdicts : s.minimallyReplicatedBlocks + s.corruptBlocks + s.missingBlocks = blocks
  off_target : s.underReplicatedBlocks + s.overReplicatedBlocks ≤ s.minimallyReplicatedBlocks
  stored_nonneg : 0 ≤ s.minimallyReplicatedBlocks
  lost_nonneg : 0 ≤ s.corruptBlocks + s.missingBlocks
  replicas_nonneg : 0 ≤ s.totalReplicas
  least_none : s.minReplication = none ↔ blocks = 0
  least_zero : s.minReplication = some 0 ↔ 0 < s.corruptBlocks + s.missingBlocks
  least_le : ∀ n, s.minReplication = some n → 0 ≤ n ∧ n * blocks ≤ s.totalReplicas
  replicas : blocks ≤ s.totalReplicas + s.missingReplicas

private theorem tallied_empty : Tallied {} 0 := by
  constructor <;> simp

variable {s t : Summary} {blocks : Int}

private theorem Tallied.blocks_nonneg (hs : s.Tallied blocks) : 0 ≤ blocks := by
  have hv := hs.verdicts
  have hm := hs.stored_nonneg
  have hl := hs.lost_nonneg
  omega

private theorem Tallied.least_mul_le (hs : s.Tallied blocks) (usable : Nat) :
    least s.minReplication usable * (blocks + 1) ≤ s.totalReplicas + usable := by
  have hb := hs.blocks_nonneg
  cases hmin : s.minReplication with
  | none =>
    have hz : blocks = 0 := hs.least_none.mp hmin
    have hr := hs.replicas_nonneg
    rw [least, hz]
    omega
  | some m =>
    obtain ⟨-, hle⟩ := hs.least_le m hmin
    calc min m (usable : Int) * (blocks + 1)
        = min m (usable : Int) * blocks + min m (usable : Int) := by rw [Int.mul_add, Int.mul_one]
      _ ≤ m * blocks + usable :=
        Int.add_le_add (Int.mul_le_mul_of_nonneg_right (Int.min_le_left _ _) hb)
          (Int.min_le_right _ _)
      _ ≤ s.totalReplicas + usable := Int.add_le_add_right hle _

private theorem Tallied.least_nonneg (hs : s.Tallied blocks) (usable : Nat) :
    0 ≤ least s.minReplication usable := by
  cases hmin : s.minReplication with
  | none => exact Int.natCast_nonneg _
  | some m => exact le_min (hs.least_le m hmin).1 (Int.natCast_nonneg _)

private theorem Tallied.least_eq_zero_iff (hs : s.Tallied blocks) (usable : Nat) :
    least s.minReplication usable = 0 ↔ s.minReplication = some 0 ∨ usable = 0 := by
  cases hmin : s.minReplication with
  | none => simp [least]
  | some m =>
    have hm := (hs.least_le m hmin).1
    simp only [least, Option.some.injEq]
    omega

private theorem Tallied.counted (hs : s.Tallied blocks) {h : BlockHealth} (hg : h.Graded)
    (hc : s.Counted h t) : t.Tallied (blocks + 1) := by
  have hb := hs.blocks_nonneg
  have hleast := hs.least_mul_le h.usable
  obtain ⟨hreplicas, hleast_eq, hstored, hlost, hoff, habsent⟩ := hc
  have hnonneg := hs.least_nonneg h.usable
  have hzero := hs.least_eq_zero_iff h.usable
  obtain ⟨hv, hot, hsn, hln, hrn, -, hlz, -, hr⟩ := hs
  have hpos := hg.target_pos
  constructor
  case verdicts => split_ifs at hstored hlost <;> omega
  case off_target => split_ifs at hstored hoff <;> omega
  case stored_nonneg => split_ifs at hstored <;> omega
  case lost_nonneg => split_ifs at hlost <;> omega
  case replicas_nonneg => omega
  case least_none =>
    rw [hleast_eq]
    simp only [reduceCtorEq, false_iff]
    omega
  case least_zero =>
    rw [hleast_eq, Option.some.injEq, hzero, hlz, hlost]
    split_ifs <;> omega
  case least_le =>
    rintro n hn
    obtain rfl : least s.minReplication h.usable = n := by
      rw [hleast_eq] at hn
      exact Option.some.inj hn
    exact ⟨hnonneg, by rw [hreplicas]; exact hleast⟩
  case replicas =>
    rw [hreplicas, habsent, BlockHealth.missingReplicas]
    omega

private theorem Tallied.countBlocks (hs : s.Tallied blocks) {judged : List BlockHealth}
    (hg : ∀ h ∈ judged, h.Graded) :
    (judged.foldl countBlock s).Tallied (blocks + judged.length) := by
  induction judged generalizing s blocks with
  | nil => simpa using hs
  | cons h judged ih =>
    have hstep := hs.counted (hg h List.mem_cons_self)
      (countBlock_counted s (hg h List.mem_cons_self))
    have hrest := ih hstep fun other hmem => hg other (List.mem_cons_of_mem h hmem)
    rw [List.foldl_cons, List.length_cons]
    convert hrest using 1
    omega

/-- The identities between the counters of a report. -/
structure Balanced (s : Summary) : Prop extends s.Tallied s.totalBlocks where
  corruptFiles_iff : 0 < s.corruptFiles ↔ 0 < s.corruptBlocks + s.missingBlocks
  corruptFiles_le_totalFiles : s.corruptFiles ≤ s.totalFiles
  corruptFiles_le_losses : s.corruptFiles ≤ s.corruptBlocks + s.missingBlocks
  corruptFiles_nonneg : 0 ≤ s.corruptFiles

private theorem balanced_empty : Balanced {} := by
  constructor
  case toTallied => exact tallied_empty
  all_goals simp

theorem countBlocks_files (s : Summary) (judged : List BlockHealth) :
    (judged.foldl countBlock s).totalBlocks = s.totalBlocks ∧
      (judged.foldl countBlock s).totalFiles = s.totalFiles := by
  induction judged generalizing s with
  | nil => exact ⟨rfl, rfl⟩
  | cons h judged ih =>
    have hstep : (s.countBlock h).totalBlocks = s.totalBlocks ∧
        (s.countBlock h).totalFiles = s.totalFiles := by
      rw [countBlock, countVerdict]
      cases h.verdict <;> exact ⟨rfl, rfl⟩
    obtain ⟨hblocks, hfiles⟩ := ih (s.countBlock h)
    rw [List.foldl_cons, hblocks, hfiles]
    exact hstep

end Summary

private theorem FileHealth.graded_of_ok {record : FileRecord} {openVisible : Bool}
    {health : FileHealth}
    (h : ofRecord record openVisible = .ok health) : ∀ block ∈ health.blocks, block.Graded := by
  rw [ofRecord_eq] at h
  split at h
  · cases h
    simp
  · split at h
    · cases h
    · cases h
      simp only [List.mem_map, forall_exists_index, and_imp, forall_apply_eq_imp_iff₂]
      exact fun block _ => BlockHealth.graded_judge (by omega) block

namespace Summary

variable {s : Summary}

private theorem countFile_totalFiles (s : Summary) (health : FileHealth) :
    (s.countFile health).totalFiles = s.totalFiles + (if health.skipped then 0 else 1) := by
  rw [Summary.countFile]
  by_cases hskip : health.skipped = true
  · rw [if_pos hskip, if_pos hskip, Int.add_zero]
  · rw [if_neg hskip, if_neg hskip, (countBlocks_files _ health.blocks).2]

private theorem Tallied.countFile (hs : s.Tallied s.totalBlocks) {health : FileHealth}
    (hg : ∀ block ∈ health.blocks, block.Graded) :
    (s.countFile health).Tallied (s.countFile health).totalBlocks := by
  obtain ⟨hv, hot, hsn, hln, hrn, hnone, hzero, hle, hr⟩ := hs
  rw [Summary.countFile]
  by_cases hskip : health.skipped = true
  · rw [if_pos hskip]
    exact ⟨hv, hot, hsn, hln, hrn, hnone, hzero, hle, hr⟩
  · rw [if_neg hskip, (countBlocks_files _ health.blocks).1]
    refine Tallied.countBlocks ?_ hg
    exact ⟨hv, hot, hsn, hln, hrn, hnone, hzero, hle, hr⟩

private theorem Balanced.countFile (hs : s.Balanced) {record : FileRecord} {openVisible : Bool}
    {health : FileHealth} (h : FileHealth.ofRecord record openVisible = .ok health) :
    (s.countFile health).Balanced := by
  obtain ⟨hcorrupt, hmissing, hfiles, -⟩ := countFile_counters s health
  have htotal := countFile_totalFiles s health
  have hlost : 0 < health.blocks.countP (·.verdict = .corrupt) +
      health.blocks.countP (·.verdict = .missing) ↔ health.isCorrupt = true := by
    rw [← (FileHealth.judges_of_ok h).some_loss, Nat.add_pos_iff_pos_or_pos, List.countP_pos_iff,
      List.countP_pos_iff, ← exists_or]
    simp only [Verdict.isLoss, Bool.or_eq_true, decide_eq_true_eq, ← and_or_left]
  have hiff := hs.corruptFiles_iff
  have hle := hs.corruptFiles_le_totalFiles
  have hloss := hs.corruptFiles_le_losses
  have hnonneg := hs.corruptFiles_nonneg
  have htally := hs.toTallied.countFile (FileHealth.graded_of_ok h)
  by_cases hskip : health.skipped = true
  · simp only [hskip, if_true] at hcorrupt hmissing hfiles htotal
    exact ⟨htally, by omega, by omega, by omega, by omega⟩
  · simp only [hskip, if_false, Bool.false_eq_true] at hcorrupt hmissing hfiles htotal
    by_cases hcor : health.isCorrupt = true
    · have hpos := hlost.mpr hcor
      rw [if_pos hcor] at hfiles
      exact ⟨htally, by omega, by omega, by omega, by omega⟩
    · have hzero := mt hlost.mp hcor
      rw [if_neg hcor] at hfiles
      exact ⟨htally, by omega, by omega, by omega, by omega⟩

end Summary

/-! ## Reports -/

/-- The judgement of a file comes from its record. -/
def Finding.IsJudged : Finding → Prop
  | .file health => ∃ record openVisible, FileHealth.ofRecord record openVisible = .ok health
  | _ => True

private theorem Summary.Balanced.count {s : Summary} (hs : s.Balanced) {finding : Finding}
    (hj : finding.IsJudged) : (s.count finding).Balanced := by
  cases finding with
  | file health =>
    obtain ⟨record, openVisible, hok⟩ := hj
    exact hs.countFile hok
  | directory | failed | moved | deleted =>
    obtain ⟨⟨hv, hot, hsn, hln, hrn, hnone, hzero, hle, hr⟩, hiff, htotal, hloss, hnonneg⟩ := hs
    exact ⟨⟨hv, hot, hsn, hln, hrn, hnone, hzero, hle, hr⟩, hiff, htotal, hloss, hnonneg⟩

namespace Report

/-- What can be done with a report. -/
inductive Step
  | add (finding : Finding) (judged : finding.IsJudged)
  | finalize
  | render

/-- The step closes the report. -/
def Step.Closes : Step → Prop
  | .add _ _ => False
  | _ => True

/-- What a step gives, a text or nothing, or why it is refused, and the report afterwards. -/
def perform (report : Report) : Step → Except Failure (Option String) × Report
  | .add finding _ =>
    match report.add finding with
    | .ok added => (.ok none, added)
    | .error failure => (.error failure, report)
  | .finalize => (.ok none, report.close)
  | .render => (report.render.1.map some, report.render.2)

def after (report : Report) (steps : List Step) : Report :=
  steps.foldl (fun report step => (report.perform step).2) report

/-- A report that nothing has been told yet. -/
def opening (path : String) (detail : Detail) (writesOutside : Bool) : Report :=
  { path, detail, writesOutside }

variable {report : Report}

private theorem perform_add_of_open (h : report.closed = false) (finding : Finding)
    (judged : finding.IsJudged) :
    report.perform (.add finding judged) = (.ok none, report.addAll [finding]) := by
  rw [perform, add_of_open h]

private theorem perform_add_of_closed (h : report.closed = true) (finding : Finding)
    (judged : finding.IsJudged) :
    report.perform (.add finding judged) = (.error .reportClosed, report) := by
  rw [perform, add, if_pos h]

private theorem closed_of_closes {closing : Step} (h : closing.Closes) :
    (report.perform closing).2 = report.close := by
  cases closing with
  | add => exact h.elim
  | finalize | render => rfl

private theorem close_of_closed (h : report.closed = true) : report.close = report := by
  rw [close, ← h]

private theorem perform_of_closed (h : report.closed = true) (step : Step) :
    (report.perform step).2 = report := by
  cases step with
  | add finding judged => rw [perform_add_of_closed h]
  | finalize | render => exact close_of_closed h

private theorem after_of_closed (h : report.closed = true) (steps : List Step) :
    report.after steps = report := by
  induction steps with
  | nil => rfl
  | cons step steps ih =>
    rw [after, List.foldl_cons, perform_of_closed h]
    exact ih

private theorem after_append (report : Report) (steps others : List Step) :
    report.after (steps ++ others) = (report.after steps).after others :=
  List.foldl_append

private theorem after_closing (report : Report) (before later : List Step) {closing : Step}
    (h : closing.Closes) :
    report.after (before ++ closing :: later) = (report.after before).close := by
  rw [after_append, after, List.foldl_cons, closed_of_closes h]
  exact after_of_closed rfl later

private theorem balanced_perform (h : report.summary.Balanced) (step : Step) :
    (report.perform step).2.summary.Balanced := by
  cases step with
  | add finding judged =>
    cases hc : report.closed with
    | false =>
      rw [perform_add_of_open hc, summary_addAll]
      exact h.count judged
    | true =>
      rw [perform_add_of_closed hc]
      exact h
  | finalize | render => exact h

private theorem balanced_after (h : report.summary.Balanced) (steps : List Step) :
    (report.after steps).summary.Balanced := by
  induction steps generalizing report with
  | nil => exact h
  | cons step steps ih => exact ih (balanced_perform h step)

/-- The report takes nothing any more, and shows what it showed when it was closed. -/
structure SettledSince (closed report : Report) : Prop where
  summary_eq : report.summary = closed.summary
  written_eq : report.written = closed.written
  refuses : ∀ finding judged,
    report.perform (.add finding judged) = (.error .reportClosed, report)
  text_eq : (report.perform .render).1 = (closed.perform .render).1

private theorem settledSince_close (report : Report) : SettledSince report report.close where
  summary_eq := rfl
  written_eq := rfl
  refuses := perform_add_of_closed rfl
  text_eq := rfl

/-- The counters of a report are tied together at every point, and nothing changes them or the text
once it was finalized or rendered. -/
theorem books_balance (path : String) (detail : Detail) (writesOutside : Bool)
    (steps : List Step) :
    ((opening path detail writesOutside).after steps).summary.Balanced ∧
      ∀ before closing later, steps = before ++ closing :: later → closing.Closes →
        SettledSince ((opening path detail writesOutside).after before)
          ((opening path detail writesOutside).after steps) := by
  refine ⟨balanced_after Summary.balanced_empty steps, ?_⟩
  rintro before closing later rfl hcloses
  rw [after_closing _ before later hcloses]
  exact settledSince_close _

/-- A file whose only block has no copy. -/
def lostFile : FileHealth :=
  let block : BlockRecord := { id := "blk_1", length := 4 }
  { record := { path := "/a", length := 4, replication := 1, blocks := [block] }
    verdict := .missing
    blocks := [BlockHealth.judge 1 block] }

private theorem lostFile_judged : (Finding.file lostFile).IsJudged := ⟨lostFile.record, false, rfl⟩

/-- A report that is rendered between the loss of a file and its deletion tells of the loss only. -/
theorem books_balance_of_lostFile :
    let report := opening "/" {} false
    let steps : List Step :=
      [.add (.file lostFile) lostFile_judged, .render, .add (.deleted "/a") trivial, .render]
    (report.after steps).summary.Balanced ∧
      SettledSince (report.after (steps.take 1)) (report.after steps) ∧
      (report.after steps).summary.missingBlocks = 1 ∧
      (report.after steps).summary.deletedFiles = 0 := by
  obtain ⟨hbalanced, hsettled⟩ := books_balance "/" {} false
    [.add (.file lostFile) lostFile_judged, .render, .add (.deleted "/a") trivial, .render]
  exact ⟨hbalanced, hsettled [_] .render [_, _] rfl trivial, rfl, rfl⟩

end Report

end BlockFsck
