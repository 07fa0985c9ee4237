import BlockFsck.Proofs.Checker.Verdict
import BlockFsck.Proofs.Namespace.Decay

/-!
# Faults and repairs in the report

A check that changes nothing reads the tree, the lengths of the blocks and who serves them. Where
fewer serve, it finds no less: its list of corrupt files only grows and its status gets no better.
-/

namespace BlockFsck

open Metadata (onNamespace)
open Namespace (oneCorruptFile oneCorruptFile_reachable)

namespace Checker

variable {o : Options} {ns after : Namespace} {root quarantine : Path}

private theorem fileIn_of_degrades (h : ns.Degrades after) {path : Path} {content : FileNode} :
    after.FileIn root quarantine path content ↔ ns.FileIn root quarantine path content := by
  rw [Namespace.FileIn, Namespace.FileIn, h.node?_eq]

private theorem hasNegative_of_degrades (h : ns.Degrades after) {content : FileNode}
    {openVisible : Bool} :
    after.HasNegative content openVisible ↔ ns.HasNegative content openVisible := by
  simp only [Namespace.HasNegative, h.negative_iff]

private theorem hasLost_of_degrades (h : ns.Degrades after) (hns : ns.Valid) (hafter : after.Valid)
    {content : FileNode} {openVisible : Bool} (hlost : ns.HasLost content openVisible) :
    after.HasLost content openVisible := by
  obtain ⟨id, hid, hl⟩ := hlost
  exact ⟨id, hid, h.lost hns hafter hl⟩

/-- The second result is no better than the first. -/
structure NoBetter (result other : Result) : Prop where
  corruptFiles : ∀ file ∈ result.corruptFiles, file ∈ other.corruptFiles
  failure_iff : other.status = .failure ↔ result.status = .failure
  corrupt : result.status = .corrupt → other.status = .corrupt
  healthy : other.status = .healthy → result.status = .healthy

private theorem noBetter_of_degrades (h : ns.Degrades after) (hns : ns.Valid) (hafter : after.Valid)
    {openVisible : Bool} {result other : Result}
    (hresult : IsVerdict ns openVisible root quarantine result)
    (hother : IsVerdict after openVisible root quarantine other) : NoBetter result other := by
  have hfailure : other.status = .failure ↔ result.status = .failure := by
    rw [hother.failure_iff, hresult.failure_iff, h.node?_eq]
    simp only [fileIn_of_degrades h, hasNegative_of_degrades h]
  have hcorrupt : result.status = .corrupt → other.status = .corrupt := by
    intro hc
    have hne : result.status ≠ .failure := by simp [hc]
    obtain ⟨path, content, hfile, hlost⟩ := (hresult.corrupt_iff hne).mp hc
    refine (hother.corrupt_iff (mt hfailure.mp hne)).mpr ⟨path, content, ?_, ?_⟩
    · exact (fileIn_of_degrades h).mpr hfile
    · exact hasLost_of_degrades h hns hafter hlost
  constructor
  case corruptFiles =>
    obtain ⟨corrupt, hlist, -, hmem⟩ := hresult.corruptFiles_eq
    obtain ⟨corrupt', hlist', -, hmem'⟩ := hother.corruptFiles_eq
    intro file hfile
    rw [hlist, List.mem_map] at hfile
    obtain ⟨path, hpath, rfl⟩ := hfile
    obtain ⟨content, hin, hneg, hlost⟩ := (hmem path).mp hpath
    have hthere : path ∈ corrupt' := (hmem' path).mpr
      ⟨content, (fileIn_of_degrades h).mpr hin, mt (hasNegative_of_degrades h).mp hneg,
        hasLost_of_degrades h hns hafter hlost⟩
    rw [hlist']
    exact List.mem_map_of_mem hthere
  case failure_iff => exact hfailure
  case corrupt => exact hcorrupt
  case healthy =>
    intro hh
    cases hs : result.status with
    | healthy => rfl
    | corrupt => rw [hcorrupt hs] at hh; cases hh
    | failure => rw [hfailure.mpr hs] at hh; cases hh

private theorem isVerdict_of_run {depth : Nat} {result : Result} (h : ns.Valid)
    (hnames : o.Names root quarantine) (hl : o.listCorrupt = false) (hm : o.move = false)
    (hd : o.delete = false)
    (hrun : (run o depth).run onNamespace.answer ns = (.ok result, after)) :
    IsVerdict ns o.openForWrite root quarantine result := by
  rcases readOnly_result hnames hl hm hd h hrun with
    ⟨hnone, -, rfl⟩ | ⟨paths, hsome, -, hordered, hpaths, -, hstatus, hfiles⟩
  · exact isVerdict_of_missing hnone o.openForWrite _
  · exact isVerdict_of_noted h hsome hordered hpaths hstatus hfiles

/-- After a fault the result of a check is no better, and after a repair no worse. -/
theorem faults_and_repairs_monotone (hns : ns.Reachable) {raw o : Options}
    (hvalid : raw.validate = .ok o) (hm : o.move = false) (hd : o.delete = false)
    (hl : o.listCorrupt = false) {depth depth' : Nat} {result result' : Result}
    {after after' : Namespace} (op : Operation)
    (hrun : (run o depth).run onNamespace.answer ns = (.ok result, after))
    (hrun' : (run o depth').run onNamespace.answer (op.perform ns).2 = (.ok result', after')) :
    (op.IsFault → NoBetter result result') ∧ (op.IsRepair → NoBetter result' result) := by
  obtain ⟨root, quarantine, hnames⟩ := Options.exists_names hvalid
  have h := hns.valid
  have h' := h.perform op
  have hverdict := isVerdict_of_run h hnames hl hm hd hrun
  have hverdict' := isVerdict_of_run h' hnames hl hm hd hrun'
  constructor
  · intro hfault
    exact noBetter_of_degrades (Namespace.degrades_of_isFault hfault ns) h h' hverdict hverdict'
  · intro hrepair
    exact noBetter_of_degrades (Namespace.restores_of_isRepair hrepair ns) h' h hverdict' hverdict

/-- A node that goes down does not mend a corrupt file, and a new copy does it no harm. -/
theorem faults_and_repairs_monotone_of_corrupt_file : ∃ result worse better,
    ((run { path := "/" } 10).run onNamespace.answer (oneCorruptFile none 4)).1 = .ok result ∧
      ((run { path := "/" } 10).run onNamespace.answer
        ((Operation.setNodeLive "n1" false).perform (oneCorruptFile none 4)).2).1 = .ok worse ∧
      ((run { path := "/" } 10).run onNamespace.answer
        ((Operation.addReplica "blk_1" "n1").perform (oneCorruptFile none 4)).2).1 = .ok better ∧
      NoBetter result worse ∧ NoBetter better result := by
  have hvalid : Options.validate { path := "/" } = .ok { path := "/" } := by decide +kernel
  have hreachable := oneCorruptFile_reachable none 4
  have hok : ((run { path := "/" } 10).run onNamespace.answer
      (oneCorruptFile none 4)).1.isOk = true := by decide +kernel
  have hokWorse : ((run { path := "/" } 10).run onNamespace.answer
      ((Operation.setNodeLive "n1" false).perform (oneCorruptFile none 4)).2).1.isOk = true := by
    decide +kernel
  have hokBetter : ((run { path := "/" } 10).run onNamespace.answer
      ((Operation.addReplica "blk_1" "n1").perform (oneCorruptFile none 4)).2).1.isOk = true := by
    decide +kernel
  obtain ⟨result, hresult⟩ := run_eq_of_isOk hok
  obtain ⟨worse, hworse⟩ := run_eq_of_isOk hokWorse
  obtain ⟨better, hbetter⟩ := run_eq_of_isOk hokBetter
  refine ⟨result, worse, better, by rw [hresult], by rw [hworse], by rw [hbetter], ?_, ?_⟩
  · exact (faults_and_repairs_monotone hreachable hvalid rfl rfl rfl _ hresult hworse).1
      (.nodeDown "n1")
  · exact (faults_and_repairs_monotone hreachable hvalid rfl rfl rfl _ hresult hbetter).2
      (.add "blk_1" "n1")

end Checker

end BlockFsck
