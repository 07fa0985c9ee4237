import BlockFsck.Proofs.Checker.Scan

/-!
# How a run ends

On a namespace that nobody else changes a run fails only where the tree is too deep for its walk or
an amount too large for its text. A root that is not there ends it in a result of its own.
-/

namespace BlockFsck.Checker

open Metadata (onNamespace)

variable {o : Options} {ns after : Namespace}

/-- What a run makes of the end of its check. -/
def conclusion (o : Options) : Except Failure Result → Except Failure Result
  | .ok result => .ok result
  | .error failure =>
    if failure.isMissing then .ok (failed o failure.message)
    else if failure.kind = .unavailable then
      .ok (failed o s!"Namespace service unavailable: {failure.message}")
    else .error failure

private theorem run_concluded (o : Options) (ended : Except Failure Result) (ns : Namespace) :
    (concluded o ended).run onNamespace.answer ns = (conclusion o ended, ns) := by
  cases ended with
  | ok result => rfl
  | error failure =>
    rw [concluded, conclusion]
    split_ifs <;> rfl

/-- The report of a full check before it starts. -/
def blank (o : Options) : Scan := { report := { path := o.path, detail := o.detail } }

private theorem run_check {σ : Type} (step : Check σ Result) (s : σ) (ns : Namespace) :
    (Prod.fst <$> step.start s >>= concluded o).run onNamespace.answer ns =
      (conclusion o (step.runOn onNamespace s ns).1.1, (step.runOn onNamespace s ns).2) := by
  rw [bind_map_left]
  change (Program.bind _ _).run onNamespace.answer ns = _
  rw [Program.run_bind]
  exact run_concluded o _ _

private theorem run_full (hl : o.listCorrupt = false) (depth : Nat) (ns : Namespace) :
    (run o depth).run onNamespace.answer ns =
      let ended := (fullCheck o depth).runOn onNamespace (blank o) ns
      (conclusion o ended.1.1, ended.2) := by
  rw [run, if_neg (by simp [hl])]
  exact run_check _ _ ns

theorem run_list (hl : o.listCorrupt = true) (depth : Nat) (ns : Namespace) :
    (run o depth).run onNamespace.answer ns =
      let ended := (listCheck o depth).runOn onNamespace {} ns
      (conclusion o ended.1.1, ended.2) := by
  rw [run, if_pos hl]
  exact run_check _ _ ns

theorem run_eq_of_isOk {depth : Nat}
    (h : ((run o depth).run onNamespace.answer ns).1.isOk = true) : ∃ result,
    (run o depth).run onNamespace.answer ns =
      (.ok result, ((run o depth).run onNamespace.answer ns).2) := by
  cases hended : ((run o depth).run onNamespace.answer ns).1 with
  | error failure =>
    rw [hended] at h
    cases h
  | ok result => exact ⟨result, Prod.ext hended rfl⟩

theorem run_eq_of_map {depth : Nat} {α : Type} (f : Result → α) {value : α}
    (h : ((run o depth).run onNamespace.answer ns).1.toOption.map f = some value) : ∃ result,
    (run o depth).run onNamespace.answer ns =
      (.ok result, ((run o depth).run onNamespace.answer ns).2) ∧ f result = value := by
  cases hended : ((run o depth).run onNamespace.answer ns).1 with
  | error failure =>
    rw [hended] at h
    cases h
  | ok result =>
    rw [hended] at h
    exact ⟨result, Prod.ext hended rfl, Option.some.inj h⟩

theorem error_of_text {report : Report} {failure : Failure} (h : report.text = .error failure) :
    failure = .overflow := by
  rw [Report.text, Report.summaryLines] at h
  cases hs : Report.summaryLines? report.detail report.summary with
  | none =>
    rw [hs] at h
    exact (Except.error.inj h).symm
  | some lines =>
    rw [hs] at h
    cases h

/-- What a result says of a scan that has come to its end. -/
structure SumsUp (result : Result) (scan : Scan) : Prop where
  output_eq : scan.report.text = .ok result.output
  status_eq : result.status = scan.report.summary.status
  summary_eq : result.summary = some scan.report.summary
  corruptFiles_eq : result.corruptFiles = scan.corrupt

/-- A full check misses its root, or fails on the way or in the end, or has toured all below its
root and sums up what it found. -/
theorem full_ended {root quarantine : Path} {I : Scan → Namespace → Prop} {depth : Nat}
    {ended : Except Failure Result} (hnames : o.Names root quarantine) (hl : o.listCorrupt = false)
    (hg : Walk.Gentle (visit o) root (some quarantine) I) (hI : I (blank o) ns)
    (hrun : (run o depth).run onNamespace.answer ns = (ended, after)) :
    (ns.node? root = none ∧ after = ns ∧
      ended = .ok (failed o (Failure.pathNotFound root.text).message)) ∨
    (∃ failure scan, ended = .error failure ∧ I scan after) ∨
    ∃ visited scan result, ns.node? root ≠ none ∧ ended = .ok result ∧
      Walk.Tour (visit o) root (some quarantine) I (root <+: ·) (blank o) ns visited scan after ∧
      SumsUp result scan := by
  rw [run_full hl, fullCheck, Check.runOn_bind, hnames.path_eq, hnames.quarantine_eq] at hrun
  have hroot := Path.ofText_text hnames.root_valid
  rcases Walk.run_tour hg hroot (by simpa using hnames.quarantine_valid) depth hI with
    ⟨hnone, hwalk⟩ | ⟨scan, ns', below, node, hkept, -, -, hwalk⟩ |
    ⟨visited, scan, ns', hsome, hwalk, htour⟩
  · rw [Option.map_some] at hwalk
    rw [hwalk] at hrun
    cases hrun
    exact .inl ⟨hnone, rfl, rfl⟩
  · rw [Option.map_some] at hwalk
    rw [hwalk] at hrun
    cases hrun
    exact .inr (.inl ⟨_, scan, rfl, hkept⟩)
  · rw [Option.map_some] at hwalk
    rw [hwalk] at hrun
    dsimp only at hrun
    rw [Check.runOn_bind, Check.runOn_get] at hrun
    dsimp only [Report.render] at hrun
    cases ht : scan.report.text with
    | error failure =>
      rw [ht, error_of_text ht] at hrun
      cases hrun
      exact .inr (.inl ⟨_, scan, rfl, htour.keeps⟩)
    | ok output =>
      rw [ht] at hrun
      cases hrun
      exact .inr (.inr ⟨visited, scan, _, hsome, rfl, htour, ht, rfl, rfl, rfl⟩)

end BlockFsck.Checker
