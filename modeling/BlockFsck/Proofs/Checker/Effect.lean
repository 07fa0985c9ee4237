import BlockFsck.Proofs.Checker.Listed

/-!
# What a run changes

A run in either mode changes what its result tells of, and nothing else. In particular it leaves
alone the files that somebody is writing to.
-/

namespace BlockFsck

open Metadata (onNamespace)
open Namespace (oneCorruptFile oneCorruptFile_reachable)

/-- Where a file is in the end that has not been deleted. -/
def EndsAt (deeds : List Deed) (path place : Path) : Prop :=
  path = place ∧ path ∉ deeds.map Deed.path ∨ .moved path place ∈ deeds

namespace Checker

variable {o : Options} {ns after : Namespace} {root quarantine : Path}

/-- A run in either mode is a history of deeds, of which its result tells, on files that nobody
writes to. -/
theorem run_deeds {depth : Nat} {ended : Except Failure Result} (hnames : o.Names root quarantine)
    (h : ns.Valid) (hrun : (run o depth).run onNamespace.answer ns = (ended, after)) :
    ∃ (P : Path → FileRecord → Prop) (deeds : List Deed),
      Deeds quarantine o.move P ns deeds after ∧
      (∀ result, ended = .ok result → Reported o result deeds) ∧
      ∀ path record, P path record → record.openForWrite = false := by
  cases hl : o.listCorrupt with
  | false =>
    obtain ⟨deeds, hdeeds, hreported⟩ := full_deeds hnames hl h hrun
    exact ⟨_, deeds, hdeeds, hreported, fun _ _ hacts => hacts.2⟩
  | true =>
    rcases list_ended hnames hl h hrun with
      ⟨-, rfl, hfailed⟩ | ⟨_, _, failure, -, -, rfl, hfailure⟩ |
      ⟨files, malformed, treated, deeds, made, -, -, hdeeds, htreats, hended, hmade⟩
    · refine ⟨fun _ _ => False, [], .nil, fun result hresult => ?_, by simp⟩
      rw [hfailed] at hresult
      exact .failed (Except.ok.inj hresult).symm
    · refine ⟨fun _ _ => False, [], .nil, fun result hresult => ?_, by simp⟩
      rw [hfailure] at hresult
      cases hresult
    · refine ⟨_, deeds, hdeeds, fun result hresult => ?_, fun _ _ hlisted => hlisted.2⟩
      rw [hended] at hresult
      cases hresult
      exact .listing hmade htreats.actions

/-- A file that somebody writes to when a run starts is where and as it was when the run has ended,
also in a failure. -/
theorem run_keeps_leased (hns : ns.Reachable) {raw o : Options} (hvalid : raw.validate = .ok o)
    {depth : Nat} {ended : Except Failure Result}
    (hrun : (run o depth).run onNamespace.answer ns = (ended, after)) {path : Path}
    {content : FileNode} (hn : ns.node? path = some (.file content))
    (hleased : content.lease ≠ none) :
    after.node? path = some (.file content) ∧
      after.recordOf path content = ns.recordOf path content := by
  obtain ⟨root, quarantine, hnames⟩ := Options.exists_names hvalid
  obtain ⟨P, deeds, hdeeds, -, hclosed⟩ := run_deeds hnames hns.valid hrun
  have hacted := hdeeds.acted hns.valid
  have hnot : path ∉ deeds.map Deed.path := by
    intro hmem
    obtain ⟨deed, hdeed, rfl⟩ := List.mem_map.mp hmem
    obtain ⟨others, hothers, hP⟩ := hacted.source deed hdeed
    have hopen : others.lease.isSome = false := hclosed _ _ hP
    rw [Namespace.file_inj hn hothers] at hopen
    exact hleased (by simpa using hopen)
  exact ⟨by rw [hacted.kept hnot (by simp [hn]), hn],
    hacted.recordOf_eq hns.valid hn (Deed.not_deleted hnot) path⟩

/-- Such a run that deletes listed files, of which the only one is open. -/
theorem run_keeps_leased_of_delete : ∃ result after content,
    (run { path := "/", delete := true, openForWrite := true, listCorrupt := true } 10).run
      onNamespace.answer (oneCorruptFile (some "writer") 4) = (.ok result, after) ∧
      content.lease ≠ none ∧ after.node? ["a"] = some (.file content) := by
  have hvalid : Options.validate
      { path := "/", delete := true, openForWrite := true, listCorrupt := true } =
      .ok { path := "/", delete := true, openForWrite := true, listCorrupt := true } := by
    decide +kernel
  have hok : ((run { path := "/", delete := true, openForWrite := true, listCorrupt := true }
      10).run onNamespace.answer (oneCorruptFile (some "writer") 4)).1.isOk = true := by
    decide +kernel
  have hfile : (oneCorruptFile (some "writer") 4).node? ["a"] = some (.file
      { replication := 1, blocks := ["blk_1", "blk_2"], lease := some "writer" }) := by
    decide +kernel
  obtain ⟨result, hrun⟩ := run_eq_of_isOk hok
  have hkept := run_keeps_leased (oneCorruptFile_reachable (some "writer") 4) hvalid hrun hfile
    (by simp)
  exact ⟨result, _, _, hrun, by simp, hkept.1⟩

end Checker

end BlockFsck
