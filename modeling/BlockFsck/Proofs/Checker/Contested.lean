import BlockFsck.Proofs.Checker.ListAccount

/-!
# Runs while others change the namespace

Between any two calls of a run others may do what they like. What they remove, a run leaves out. It
ends in one result unless it reads an entry that has been replaced by one of the other kind: then
the refusal of the namespace ends it.
-/

namespace BlockFsck

/-- A namespace that others share, and the calls that were made on it. -/
structure Shared where
  current : Namespace
  calls : List Call := []

namespace Shared

/-- The service of a namespace on which others perform operations before each call, which are given
by the number of the call. -/
def service (others : Nat → List Operation) : Metadata.Service (StateM Shared) where
  query q := fun shared =>
    let met := shared.current.after (others shared.calls.length)
    let (reply, current) := (Metadata.onNamespace.query q).run met
    (reply, ⟨current, shared.calls ++ [⟨q, met⟩]⟩)
  log _ := return ()

end Shared

private theorem Program.Conducts.sound {α : Type} {Permitted : List Call → Query → Prop}
    {Ends : α → List Call → Prop} {calls : List Call} {p : Program Metadata α}
    (hp : p.Conducts Permitted Ends calls) (others : Nat → List Operation) {ns : Namespace}
    (hv : ns.Valid) :
    Ends (p.run (Shared.service others).answer ⟨ns, calls⟩).1
      (p.run (Shared.service others).answer ⟨ns, calls⟩).2.calls := by
  induction hp generalizing ns with
  | done h => exact h
  | log _ ih => exact ih hv
  | @query calls q next _ _ ih =>
    have hmet := hv.after (others calls.length)
    exact ih _ hmet (hmet.query q)

namespace Checker

open Namespace (oneCorruptFile oneCorruptFile_reachable)

variable {o : Options} {root quarantine : Path} {depth : Nat} {calls : List Call}

private theorem Concludes.refused_iff {ended : Except Failure Result}
    (h : Concludes o root depth calls ended) (cause : NamespaceError) :
    ended = .error (.namespaceRefused cause) ↔ ∃ call ∈ calls, call.Misread cause := by
  have hsmooth : Smooth calls → ¬ ∃ call ∈ calls, call.Misread cause := by
    rintro hs ⟨call, hmem, hmisread⟩
    exact hs call hmem cause hmisread
  cases h with
  | verdict hs _ => simp [hsmooth hs]
  | overflow _ hs _ _ => simp [hsmooth hs]
  | breaksOff hbroken =>
    cases hbroken with
    | tooDeep hs _ _ _ => simp [hsmooth hs]
    | @misread before last other hs hm hcalls =>
      subst hcalls
      constructor
      · intro he
        cases he
        exact ⟨last, List.mem_append_right _ (List.mem_singleton_self last), hm⟩
      · rintro ⟨call, hmem, hmisread⟩
        -- all but the last call went smoothly, so that this is the last one
        rcases List.mem_append.mp hmem with hmem | hmem
        · exact absurd hmisread (hs call hmem cause)
        · rw [List.mem_singleton.mp hmem] at hmisread
          rw [hm.unique hmisread]

/-- Whatever others do between its calls, a run ends in one result that accounts for its calls, or
it breaks off. A refusal of the namespace breaks it off exactly if it has read an entry that was
of the other kind. -/
theorem contested_run {ns : Namespace} (hns : ns.Reachable) {raw : Options}
    (hvalid : raw.validate = .ok o) (hroot : Path.ofText o.path = .ok root) (depth : Nat)
    (others : Nat → List Operation) {ended : Except Failure Result} {shared : Shared}
    (hrun : (run o depth).run (Shared.service others).answer ⟨ns, []⟩ = (ended, shared)) :
    Concludes o root depth shared.calls ended ∧ ∀ cause,
      ended = .error (.namespaceRefused cause) ↔ ∃ call ∈ shared.calls, call.Misread cause := by
  obtain ⟨named, quarantine, hnames⟩ := Options.exists_names hvalid
  obtain rfl : named = root := by
    rw [hnames.path_eq, Path.ofText_text hnames.root_valid] at hroot
    exact Except.ok.inj hroot
  have hconcludes := (conducts_run hnames depth).sound others hns.valid
  rw [hrun] at hconcludes
  exact ⟨hconcludes, hconcludes.refused_iff⟩

/-- Others that act before the third call only. -/
def beforeThird (operations : List Operation) (number : Nat) : List Operation :=
  if number = 2 then operations else []

/-- Such a run on a file that is removed before it is read. -/
theorem contested_run_of_removal : ∃ result shared,
    (run { path := "/" } 10).run (Shared.service (beforeThird [.delete "/a" false])).answer
        ⟨oneCorruptFile none 4, []⟩ = (.ok result, shared) ∧
      shared.calls.map Call.query = [.resolve "/", .listChildren "/", .blockLocations "/a"] ∧
      Concludes { path := "/" } [] 10 shared.calls (.ok result) := by
  have hvalid : Options.validate { path := "/" } = .ok { path := "/" } := by decide +kernel
  have hroot : Path.ofText "/" = .ok [] := by decide +kernel
  have hok : ((run { path := "/" } 10).run (Shared.service (beforeThird [.delete "/a" false])).answer
    ⟨oneCorruptFile none 4, []⟩).1.isOk = true := by decide +kernel
  have hqueries : ((run { path := "/" } 10).run
    (Shared.service (beforeThird [.delete "/a" false])).answer
      ⟨oneCorruptFile none 4, []⟩).2.calls.map Call.query =
        [.resolve "/", .listChildren "/", .blockLocations "/a"] := by decide +kernel
  rcases hrun : (run { path := "/" } 10).run
    (Shared.service (beforeThird [.delete "/a" false])).answer ⟨oneCorruptFile none 4, []⟩ with
    ⟨failure | result, shared⟩
  · rw [hrun] at hok
    cases hok
  · rw [hrun] at hqueries
    exact ⟨result, shared, rfl, hqueries,
      (contested_run (oneCorruptFile_reachable none 4) hvalid hroot 10 _ hrun).1⟩

/-- A file that is replaced by a directory before it is read ends the run. -/
theorem replaced_file_breaks_off : (oneCorruptFile none 4).Reachable ∧
    Options.validate { path := "/" } = .ok { path := "/" } ∧
    ((run { path := "/" } 10).run
      (Shared.service (beforeThird [.delete "/a" false, .mkdirs "/a"])).answer
        ⟨oneCorruptFile none 4, []⟩).1 = .error (.namespaceRefused (.notFile "/a")) :=
  ⟨oneCorruptFile_reachable none 4, by decide +kernel, by decide +kernel⟩

end Checker

end BlockFsck
