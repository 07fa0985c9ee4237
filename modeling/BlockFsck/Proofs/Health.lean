import Mathlib.Data.List.Basic
import BlockFsck.Health
import BlockFsck.Proofs.Namespace.Reading

/-!
# What a judgement says

A file is malformed if a block that counts has a negative length, and else corrupt if a block that
counts has no copy that is both uncorrupted and on a live node.
-/

namespace BlockFsck

namespace Verdict

private theorem isLoss_worse (v w : Verdict) : (v.worse w).isLoss = (v.isLoss || w.isLoss) := by
  cases v <;> cases w <;> rfl

end Verdict

theorem BlockRecord.isLoss_verdict {block : BlockRecord} {target : Int} :
    (block.verdict target).isLoss = true ↔ block.usableCount = 0 := by
  rw [verdict]
  split_ifs <;> simp_all [Verdict.isLoss]

private theorem FileHealth.isLoss_worstOf (blocks : List BlockHealth) :
    (worstOf blocks).isLoss = blocks.any (·.verdict.isLoss) := by
  have run : ∀ (blocks : List BlockHealth) (v : Verdict),
      (blocks.foldl (fun v b => v.worse b.verdict) v).isLoss =
        (v.isLoss || blocks.any (·.verdict.isLoss)) := by
    intro blocks
    induction blocks with
    | nil => simp
    | cons block blocks ih =>
      intro v
      rw [List.foldl_cons, ih, Verdict.isLoss_worse, List.any_cons, Bool.or_assoc]
  rw [worstOf, run]
  rfl

/-- Blocks that are all judged alike make the file so. -/
theorem FileHealth.worstOf_of_forall {blocks : List BlockHealth} (hne : blocks ≠ []) {v : Verdict}
    (h : ∀ block ∈ blocks, block.verdict = v) : worstOf blocks = v := by
  have hworse : Verdict.healthy.worse v = v ∧ v.worse v = v := by cases v <;> exact ⟨rfl, rfl⟩
  have hrun : ∀ rest : List BlockHealth, (∀ block ∈ rest, block.verdict = v) →
      rest.foldl (fun v b => v.worse b.verdict) v = v := by
    intro rest hrest
    induction rest with
    | nil => rfl
    | cons block rest ih =>
      rw [List.foldl_cons, hrest block List.mem_cons_self, hworse.2]
      exact ih fun other hmem => hrest other (List.mem_cons_of_mem _ hmem)
  cases blocks with
  | nil => exact absurd rfl hne
  | cons block rest =>
    rw [worstOf, List.foldl_cons, h block List.mem_cons_self, hworse.1]
    exact hrun rest fun other hmem => h other (List.mem_cons_of_mem _ hmem)

/-- The blocks that count: all, or without the last one if the file is open for write, or none if
open files are not to be seen. -/
def FileRecord.judged (record : FileRecord) (openVisible : Bool) : List BlockRecord :=
  if record.openForWrite then (if openVisible then record.blocks.dropLast else [])
  else record.blocks

/-- The judgement of a block of non-negative length. -/
def BlockHealth.judge (target : Int) (block : BlockRecord) : BlockHealth :=
  ⟨block, block.verdict target, block.usableCount, block.corruptCount, target⟩

namespace FileHealth

private theorem mapM_ofBlock (path : String) (target : Int) (blocks : List BlockRecord) :
    blocks.mapM (BlockHealth.ofBlock path target) =
      match blocks.find? (·.length < 0) with
      | some block => .error ⟨path, block.id, block.length⟩
      | none => .ok (blocks.map (BlockHealth.judge target)) := by
  induction blocks with
  | nil => rfl
  | cons block blocks ih =>
    rw [List.mapM_cons, ih, BlockHealth.ofBlock]
    by_cases hn : block.length < 0
    · rw [if_pos hn, List.find?_cons_of_pos (by simpa using hn)]
      rfl
    · rw [if_neg hn, List.find?_cons_of_neg (by simpa using hn)]
      cases blocks.find? (·.length < 0) <;> rfl

theorem ofRecord_eq (record : FileRecord) (openVisible : Bool) :
    ofRecord record openVisible =
      if record.openForWrite && !openVisible then .ok ⟨record, .healthy, [], [], false, true⟩
      else match (record.judged openVisible).find? (·.length < 0) with
        | some block => .error ⟨record.path, block.id, block.length⟩
        | none =>
          let judged := (record.judged openVisible).map
            (BlockHealth.judge (max record.replication 1))
          .ok ⟨record, worstOf judged, judged,
            record.blocks.drop (record.judged openVisible).length, record.openForWrite, false⟩ := by
  rw [ofRecord]
  by_cases hs : record.openForWrite && !openVisible
  · rw [if_pos hs, if_pos hs]
  · have hj : (if record.openForWrite then record.blocks.dropLast else record.blocks) =
        record.judged openVisible := by
      rw [FileRecord.judged]
      cases ho : record.openForWrite <;> cases hv : openVisible <;> simp_all
    rw [if_neg hs, if_neg hs]
    dsimp only
    rw [hj, mapM_ofBlock]
    cases (record.judged openVisible).find? (·.length < 0) <;> rfl

/-- A file that nobody writes to is judged by all its blocks. -/
theorem ofRecord_closed {record : FileRecord} (hclosed : record.openForWrite = false)
    (hlength : ∀ block ∈ record.blocks, 0 ≤ block.length) (openVisible : Bool) :
    let judged := record.blocks.map (BlockHealth.judge (max record.replication 1))
    ofRecord record openVisible = .ok ⟨record, worstOf judged, judged, [], false, false⟩ := by
  intro judged
  have hjudged : record.judged openVisible = record.blocks := by
    simp [FileRecord.judged, hclosed]
  have hnone : record.blocks.find? (fun block => decide (block.length < 0)) = none := by
    rw [List.find?_eq_none]
    intro block hmem
    simpa using hlength block hmem
  rw [ofRecord_eq, hclosed, hjudged, if_neg (by simp), hnone]
  simp [judged]

theorem ofRecord_error (record : FileRecord) (openVisible : Bool) :
    (∃ malformed, ofRecord record openVisible = .error malformed) ↔
      ∃ block ∈ record.judged openVisible, block.length < 0 := by
  rw [ofRecord_eq]
  by_cases hs : record.openForWrite && !openVisible
  · rw [if_pos hs]
    simp_all [FileRecord.judged]
  · rw [if_neg hs]
    cases hf : (record.judged openVisible).find? (·.length < 0) with
    | none => simpa using List.find?_eq_none.mp hf
    | some block =>
      have hneg := List.find?_some hf
      have hmem := List.mem_of_find?_eq_some hf
      simp only [Except.error.injEq, exists_eq', true_iff]
      exact ⟨block, hmem, by simpa using hneg⟩

/-- What is known of the judgement of a file that is not malformed. -/
structure Judges (record : FileRecord) (openVisible : Bool) (health : FileHealth) : Prop where
  record_eq : health.record = record
  corrupt_iff : health.isCorrupt = true ↔
    ∃ block ∈ record.judged openVisible, block.usableCount = 0
  some_loss : (∃ block ∈ health.blocks, block.verdict.isLoss = true) ↔ health.isCorrupt = true
  open_eq : health.isCorrupt = true → health.openForWrite = record.openForWrite
  looked_at : health.isCorrupt = true → health.skipped = false

theorem judges_of_ok {record : FileRecord} {openVisible : Bool} {health : FileHealth}
    (h : ofRecord record openVisible = .ok health) :
    Judges record openVisible health := by
  rw [ofRecord_eq] at h
  by_cases hs : record.openForWrite && !openVisible
  · rw [if_pos hs] at h
    cases h
    have hj : record.judged openVisible = [] := by
      simp_all [FileRecord.judged]
    constructor <;> simp [hj, isCorrupt, Verdict.isLoss]
  · rw [if_neg hs] at h
    cases hf : (record.judged openVisible).find? (·.length < 0) with
    | some block =>
      rw [hf] at h
      cases h
    | none =>
      rw [hf] at h
      cases h
      have hany := isLoss_worstOf ((record.judged openVisible).map
        (BlockHealth.judge (max record.replication 1)))
      constructor
      · rfl
      · rw [isCorrupt, hany]
        simp [BlockHealth.judge, BlockRecord.isLoss_verdict]
      · rw [isCorrupt, hany]
        simp
      · exact fun _ => rfl
      · exact fun _ => rfl

end FileHealth

/-- The file is judged, and is corrupt or missing. -/
def FileRecord.isDamaged (record : FileRecord) (openVisible : Bool) : Bool :=
  match FileHealth.ofRecord record openVisible with
  | .ok health => health.isCorrupt
  | .error _ => false

private theorem FileRecord.isDamaged_iff {record : FileRecord} {openVisible : Bool} :
    record.isDamaged openVisible = true ↔
      (∀ block ∈ record.judged openVisible, ¬ block.length < 0) ∧
        ∃ block ∈ record.judged openVisible, block.usableCount = 0 := by
  rw [isDamaged]
  have herror := FileHealth.ofRecord_error record openVisible
  cases h : FileHealth.ofRecord record openVisible with
  | error malformed =>
    obtain ⟨block, hmem, hneg⟩ := herror.mp ⟨malformed, h⟩
    simp only [Bool.false_eq_true, false_iff, not_and]
    exact fun hall => absurd hneg (hall block hmem)
  | ok health =>
    have hall : ∀ block ∈ record.judged openVisible, ¬ block.length < 0 := by
      intro block hmem hneg
      obtain ⟨malformed, hmalformed⟩ := herror.mpr ⟨block, hmem, hneg⟩
      rw [h] at hmalformed
      cases hmalformed
    rw [(FileHealth.judges_of_ok h).corrupt_iff]
    exact ⟨fun hlost => ⟨hall, hlost⟩, And.right⟩

/-- The ids of the blocks that count. -/
def FileNode.judged (content : FileNode) (openVisible : Bool) : List String :=
  if content.lease.isSome then (if openVisible then content.blocks.dropLast else [])
  else content.blocks

namespace Namespace

/-- The block is known and has a negative length. -/
def IsNegative (ns : Namespace) (id : String) : Prop :=
  ∃ block, ns.blocks.get? id = some block ∧ block.length < 0

/-- The block is known and none of its copies is both uncorrupted and on a live node. -/
def IsLost (ns : Namespace) (id : String) : Prop :=
  ∃ block, ns.blocks.get? id = some block ∧
    ∀ copy ∈ block.copies.entries, ¬ (copy.2.corrupt = false ∧ ns.isLive copy.1 = true)

private theorem usableCount_blockRecord (ns : Namespace) (id : String) (block : Block) :
    (ns.blockRecord id block).usableCount = 0 ↔
      ∀ copy ∈ block.copies.entries, ¬ (copy.2.corrupt = false ∧ ns.isLive copy.1 = true) := by
  rw [BlockRecord.usableCount, List.countP_eq_zero]
  simp only [blockRecord, List.mem_map, forall_exists_index, and_imp, forall_apply_eq_imp_iff₂,
    mem_sortedBy, BlockRecord.isUsable, replicaOf, Bool.and_eq_true, Bool.not_eq_true']
  constructor
  · rintro h copy hmem ⟨hc, hl⟩
    refine h copy hmem ⟨⟨hl, hc⟩, ?_⟩
    -- a copy that is not corrupt keeps the block from being so
    rw [Block.isCorrupt, Bool.and_eq_false_iff]
    right
    rw [List.all_eq_false]
    exact ⟨copy, hmem, by simp [hc]⟩
  · rintro h copy hmem ⟨⟨hl, hc⟩, -⟩
    exact h copy hmem ⟨hc, hl⟩

variable {ns : Namespace}

theorem IsRegistry.known (h : ns.IsRegistry) (ht : ns.IsTree) {path : Path} {content : FileNode}
    (hn : ns.node? path = some (.file content)) {id : String} (hid : id ∈ content.blocks) :
    (ns.blocks.get? id).isSome := by
  rw [Table.isSome_get?]
  exact (h.known_iff ht).mpr ⟨path, content, hn, hid⟩

private theorem Valid.judged_recordOf (h : ns.Valid) {path : Path} {content : FileNode}
    (hn : ns.node? path = some (.file content)) (openVisible : Bool) :
    (ns.recordOf path content).judged openVisible =
      (content.judged openVisible).filterMap fun id =>
        (ns.blocks.get? id).map (ns.blockRecord id) := by
  have hlast : (ns.recordOf path content).blocks.dropLast =
      content.blocks.dropLast.filterMap fun id =>
        (ns.blocks.get? id).map (ns.blockRecord id) := by
    rw [recordOf]
    rcases List.eq_nil_or_concat content.blocks with he | ⟨front, last, he⟩
    · rw [he]
      rfl
    · have hlast : last ∈ content.blocks := by simp [he]
      obtain ⟨block, hb⟩ := Option.isSome_iff_exists.mp
        (h.toIsRegistry.known h.toIsTree hn hlast)
      rw [he]
      simp [hb]
  rw [FileRecord.judged, FileNode.judged, hlast]
  change (if content.lease.isSome = true then _ else _) = _
  split_ifs <;> rfl

theorem Valid.negative_iff (h : ns.Valid) {path : Path} {content : FileNode}
    (hn : ns.node? path = some (.file content)) (openVisible : Bool) :
    (∃ block ∈ (ns.recordOf path content).judged openVisible, block.length < 0) ↔
      ∃ id ∈ content.judged openVisible, ns.IsNegative id := by
  rw [h.judged_recordOf hn]
  simp only [List.mem_filterMap, Option.map_eq_some_iff, IsNegative]
  constructor
  · rintro ⟨_, ⟨id, hid, block, hb, rfl⟩, hneg⟩
    exact ⟨id, hid, block, hb, hneg⟩
  · rintro ⟨id, hid, block, hb, hneg⟩
    exact ⟨_, ⟨id, hid, block, hb, rfl⟩, hneg⟩

theorem Valid.lost_iff (h : ns.Valid) {path : Path} {content : FileNode}
    (hn : ns.node? path = some (.file content)) (openVisible : Bool) :
    (∃ block ∈ (ns.recordOf path content).judged openVisible, block.usableCount = 0) ↔
      ∃ id ∈ content.judged openVisible, ns.IsLost id := by
  rw [h.judged_recordOf hn]
  simp only [List.mem_filterMap, Option.map_eq_some_iff, IsLost]
  constructor
  · rintro ⟨_, ⟨id, hid, block, hb, rfl⟩, hlost⟩
    exact ⟨id, hid, block, hb, (usableCount_blockRecord ns id block).mp hlost⟩
  · rintro ⟨id, hid, block, hb, hlost⟩
    exact ⟨_, ⟨id, hid, block, hb, rfl⟩, (usableCount_blockRecord ns id block).mpr hlost⟩

/-- Some block that counts has a negative length. -/
def HasNegative (ns : Namespace) (content : FileNode) (openVisible : Bool) : Prop :=
  ∃ id ∈ content.judged openVisible, ns.IsNegative id

/-- Some block that counts has no good copy on a live node. -/
def HasLost (ns : Namespace) (content : FileNode) (openVisible : Bool) : Prop :=
  ∃ id ∈ content.judged openVisible, ns.IsLost id

theorem Valid.isDamaged_iff (h : ns.Valid) {path : Path} {content : FileNode}
    (hn : ns.node? path = some (.file content)) (openVisible : Bool) :
    (ns.recordOf path content).isDamaged openVisible = true ↔
      ¬ ns.HasNegative content openVisible ∧ ns.HasLost content openVisible := by
  rw [FileRecord.isDamaged_iff, HasNegative, HasLost, ← h.negative_iff hn, ← h.lost_iff hn]
  simp only [not_exists, not_and]

/-- There is a file that is judged corrupt or missing. -/
def isDamagedAt (ns : Namespace) (openVisible : Bool) (path : Path) : Bool :=
  match ns.node? path with
  | some (.file content) => (ns.recordOf path content).isDamaged openVisible
  | _ => false

/-- There is a file with a block of negative length among those that count. -/
def isMalformedAt (ns : Namespace) (openVisible : Bool) (path : Path) : Bool :=
  match ns.node? path with
  | some (.file content) =>
    ((ns.recordOf path content).judged openVisible).any fun block => block.length < 0
  | _ => false

/-- There is a file that somebody is writing to. -/
def isOpenAt (ns : Namespace) (path : Path) : Bool :=
  match ns.node? path with
  | some (.file content) => content.lease.isSome
  | _ => false

theorem Valid.isDamagedAt_iff (h : ns.Valid) {openVisible : Bool} {path : Path} :
    ns.isDamagedAt openVisible path = true ↔ ∃ content, ns.node? path = some (.file content) ∧
      ¬ ns.HasNegative content openVisible ∧ ns.HasLost content openVisible := by
  rw [isDamagedAt]
  cases hn : ns.node? path with
  | none => simp
  | some node =>
    cases node with
    | directory => simp
    | file content =>
      dsimp only
      rw [h.isDamaged_iff hn]
      simp only [Option.some.injEq, Node.file.injEq, exists_eq_left']

/-- Of an open file that is not to be seen no block counts. -/
theorem Valid.seen_of_isDamagedAt (h : ns.Valid) {openVisible : Bool} {path : Path}
    {content : FileNode} (hn : ns.node? path = some (.file content))
    (hd : ns.isDamagedAt openVisible path = true) : content.lease = none ∨ openVisible = true := by
  obtain ⟨other, hother, -, id, hid, -⟩ := h.isDamagedAt_iff.mp hd
  obtain rfl : other = content := by simpa [hn, eq_comm] using hother
  rw [FileNode.judged] at hid
  by_cases hv : openVisible = true
  · exact .inr hv
  · cases hl : other.lease with
    | none => exact .inl rfl
    | some holder => simp [hl, hv] at hid

end Namespace

end BlockFsck
