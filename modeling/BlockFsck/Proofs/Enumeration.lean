import BlockFsck.Proofs.Service

/-!
# Walks enumerate their scope

On a namespace that does not change a walk yields the entries in its scope, each once, in the order
of their names one by one, whatever the order in which the service gives the children of a directory
(`collect_enumerates`).
-/

namespace BlockFsck.Walk

open Metadata (onNamespace)

variable {τ : Type} {ns : Namespace} {root : Path} {quarantine : Option Path}

/-- In a tree all that is left out lies at or below the quarantine directory, which is then there
as a directory. -/
theorem visible_iff {path : Path} {node : Node} (hn : ns.node? path = some node) :
    Visible root quarantine path node.kind ↔ root <+: path ∧
      ∀ q ∈ quarantine, q <+: root ∨ ¬ (ns.node? q = some .directory ∧ q <+: path) := by
  constructor
  · intro hv
    refine ⟨hv.1.1, fun q hq => ?_⟩
    rcases hv.1.2 q hq with hr | hs
    · exact .inl hr
    · by_cases hp : q <+: path
      · obtain rfl := hs hp
        by_cases hd : ns.node? path = some .directory
        · obtain rfl : Node.directory = node := by simpa [hd] using hn
          exact (hv.2 rfl path hq).imp_right fun hne => absurd rfl hne
        · exact .inr fun hboth => hd hboth.1
      · exact .inr fun hboth => hp hboth.2
  · intro hv
    refine ⟨⟨hv.1, fun q hq => ?_⟩, fun hk q hq => ?_⟩
    · refine (hv.2 q hq).imp_right fun hno hp => ?_
      by_contra hne
      exact hno ⟨Namespace.directory_above hn hp (Ne.symm hne), hp⟩
    · refine (hv.2 q hq).imp_right fun hno he => ?_
      subst he
      obtain rfl : node = .directory := by cases node <;> simp_all [Node.kind]
      exact hno ⟨hn, List.prefix_refl _⟩

/-- All that a walk should yield, one after the other: the entries at or below the root, without the
quarantine directory and what is below it, unless the root is in there. -/
structure Enumerates (ns : Namespace) (root : Path) (quarantine : Option Path)
    (visited : List (Path × EntryKind)) : Prop where
  mem_iff : ∀ path kind, (path, kind) ∈ visited ↔ ∃ node, ns.node? path = some node ∧
    node.kind = kind ∧ root <+: path ∧
      ∀ q ∈ quarantine, q <+: root ∨ ¬ (ns.node? q = some .directory ∧ q <+: path)
  ascending : visited.Pairwise (Path.Before ·.1 ·.1)
  root_first : ∀ node, ns.node? root = some node → visited.head? = some (root, node.kind)
  parents_first : visited.Pairwise fun earlier later => ¬ later.1 <+: earlier.1

private theorem enumerates_nil (hn : ns.node? root = none) :
    Enumerates ns root quarantine [] where
  mem_iff := by
    intro path kind
    simp only [List.not_mem_nil, false_iff]
    intro hin
    obtain ⟨node, hpath, -, hp, -⟩ := hin
    simp [Namespace.none_under_none hn hp] at hpath
  ascending := .nil
  root_first := by simp [hn]
  parents_first := .nil

private theorem enumerates_of_ascending {visited : List (Path × EntryKind)}
    (hordered : visited.Pairwise (Path.Before ·.1 ·.1))
    (hmem : ∀ path kind, (path, kind) ∈ visited ↔ ∃ node, ns.node? path = some node ∧
      node.kind = kind ∧ Visible root quarantine path node.kind) :
    Enumerates ns root quarantine visited where
  mem_iff := by
    intro path kind
    rw [hmem]
    refine exists_congr fun node => and_congr_right fun hn => and_congr_right fun _ => ?_
    exact visible_iff hn
  ascending := hordered
  root_first := by
    intro node hn
    have hroot : (root, node.kind) ∈ visited :=
      (hmem root node.kind).mpr ⟨node, hn, rfl, visible_root root quarantine node.kind⟩
    cases visited with
    | nil => simp at hroot
    | cons first rest =>
      -- all that was visited is at or below the root, so that nothing comes before it
      rcases List.mem_cons.mp hroot with he | hlater
      · simp [he]
      · obtain ⟨node', -, -, hv⟩ := (hmem first.1 first.2).mp (List.mem_cons_self ..)
        have hbefore := (List.pairwise_cons.mp hordered).1 _ hlater
        exact absurd hv.1.1 hbefore.not_prefix
  parents_first := hordered.imp Path.Before.not_prefix

/-- What the walk yields of a visited path. -/
def entryAt (visited : Path × EntryKind) : Entry := ⟨visited.1.text, visited.2⟩

private theorem runOn_collectAll (visited : List (Path × EntryKind)) (collected : List Entry)
    (ns : Namespace) :
    Check.runOn onNamespace (visited.forM fun e =>
      (modify (· ++ [⟨e.1.text, e.2⟩]) : Check (List Entry) Unit)) collected ns =
        ((.ok (), collected ++ visited.map entryAt), ns) := by
  induction visited generalizing collected with
  | nil => simp [List.forM_nil, Check.runOn_pure]
  | cons e visited ih =>
    rw [Check.runOn_forM_cons, Check.runOn_modify]
    dsimp only
    rw [ih, List.map_cons, List.append_assoc]
    rfl

private theorem gentle_collect (h : ns.Valid) :
    Gentle (fun entry => (modify (· ++ [entry]) : Check (List Entry) Unit)) root quarantine
      fun _ after => after = ns where
  valid := by
    intro _ _ hsame
    exact hsame ▸ h
  visits := by
    intro collected after path node hsame _ _
    exact ⟨_, after, rfl, hsame, fun _ _ _ => .refl _ _⟩

theorem collect_spec (h : ns.Valid) {text : String} (hroot : Path.ofText text = .ok root)
    (hq : ∀ q ∈ quarantine, q.Valid) {depth : Nat} (hdepth : ns.tree.height < depth) :
    ∃ visited, Enumerates ns root quarantine visited ∧
      (collect ⟨text, quarantine.map Path.text⟩ depth).runOn onNamespace [] ns =
        ((if ns.node? root = none then .error (.pathNotFound text) else .ok (),
          visited.map entryAt), ns) := by
  rcases run_tour (gentle_collect h) hroot hq depth (s := []) rfl with
    ⟨hnone, hrun⟩ | ⟨_, _, below, node, rfl, hdeep, hlong, -⟩ |
    ⟨visited, collected, after, hsome, hrun, htour⟩
  · refine ⟨[], enumerates_nil hnone, ?_⟩
    rw [if_pos hnone]
    exact hrun
  · have hshort := Namespace.length_le_height hdeep
    omega
  obtain rfl := htour.keeps
  have hruns := htour.runs
  rw [runOn_collectAll, Prod.mk.injEq, Prod.mk.injEq] at hruns
  obtain ⟨⟨-, rfl⟩, -⟩ := hruns
  refine ⟨visited, enumerates_of_ascending htour.ordered fun path kind => ?_, ?_⟩
  · exact htour.mem_visited_iff id
  · rw [if_neg hsome]
    exact hrun

/-- A walk that may go deep enough ends and has yielded what is in its scope, in order, and so it does
with any service that answers from the same tree, in whatever order that gives the children of a
directory. -/
theorem collect_enumerates (hns : ns.Reachable) {text : String} {quarantineText : Option String}
    (hroot : Path.ofText text = .ok root)
    (hquarantine : quarantineText.mapM Path.ofText = .ok quarantine) {depth : Nat}
    (hdepth : ns.tree.height < depth) :
    ∃ walk visited ended, make text quarantineText = .ok walk ∧
      Enumerates ns root quarantine visited ∧
      ended = (if ns.node? root = none then .error (.pathNotFound text) else .ok ()) ∧
      (walk.collect depth).runOn onNamespace [] ns = ((ended, visited.map entryAt), ns) ∧
      ∀ {τ : Type} (service : Metadata.Service (StateM τ)) (Within : τ → Prop),
        service.ServesTree Within ns → ∀ t, Within t → ∃ t',
          (walk.collect depth).runOn service [] t = ((ended, visited.map entryAt), t') := by
  have h := hns.valid
  obtain ⟨visited, henumerates, hrun⟩ :=
    collect_spec h hroot (Path.valid_of_mapM_ofText hquarantine) hdepth
  refine ⟨_, visited, _, make_of_ofText text hquarantine, henumerates, rfl, hrun, ?_⟩
  intro τ service Within hs t hw
  have hstands : Check.StandsFor service Within ns
      (collect ⟨text, quarantine.map Path.text⟩ depth) :=
    standsFor_run hs h.toIsTree hroot _ depth fun _ => .modify _
  obtain ⟨ended, t', hrun', hserved, -⟩ := hstands [] t hw
  have hended := hrun'.symm.trans hrun
  rw [Prod.mk.injEq] at hended
  exact ⟨t', hended.1 ▸ hserved⟩

/-- A directory, a file whose name goes on where the name of the directory ends, and a directory
below the quarantine directory. -/
def nested : Namespace :=
  (Namespace.empty 4 1 ["n1"]).after [.mkdirs "/a/b", .createFile "/a-b" 4 none none none,
    .mkdirs "/lost+found/c"]

private theorem nested_reachable : nested.Reachable := ⟨4, 1, ["n1"], _, rfl⟩

/-- Each directory gives its children the other way round, and the walk enumerates its scope all the
same: what is below a directory, and the file whose text comes before that, but not what is in the
quarantine directory. -/
theorem collect_enumerates_of_reversed :
    (Path.ofText "/" = .ok [] ∧ (some "/lost+found").mapM Path.ofText = .ok (some ["lost+found"]) ∧
      nested.tree.height < 10) ∧
    ∃ walk visited, make "/" (some "/lost+found") = .ok walk ∧
      Enumerates nested [] (some ["lost+found"]) visited ∧
      ((walk.collect 10).runOn (Metadata.reordered List.reverse) [] nested).1 =
        (.ok (), visited.map entryAt) ∧
      (["a", "b"], .directory) ∈ visited ∧ (["a-b"], .file) ∈ visited ∧
      (["lost+found"], .directory) ∉ visited ∧ (["lost+found", "c"], .directory) ∉ visited := by
  have hroot : Path.ofText "/" = .ok [] := by decide +kernel
  have hq : (some "/lost+found").mapM Path.ofText = .ok (some ["lost+found"]) := by decide +kernel
  have hdepth : nested.tree.height < 10 := by decide +kernel
  have hthere : nested.node? [] ≠ none := by decide +kernel
  obtain ⟨walk, visited, ended, hmake, henumerates, hended, -, hserved⟩ :=
    collect_enumerates nested_reachable hroot hq hdepth
  obtain ⟨t', hreversed⟩ := hserved (Metadata.reordered List.reverse) (· = nested)
    (Metadata.servesTree_reordered List.reverse_perm nested) nested rfl
  rw [if_neg hthere] at hended
  refine ⟨⟨hroot, hq, hdepth⟩, walk, visited, hmake, henumerates, by rw [hreversed, hended], ?_⟩
  have hdirectory : (nested.node? ["a", "b"]).map Node.kind = some .directory := by decide +kernel
  have hfile : (nested.node? ["a-b"]).map Node.kind = some .file := by decide +kernel
  have hquarantine : nested.node? ["lost+found"] = some .directory := by decide +kernel
  obtain ⟨node, hn, hk⟩ := Option.map_eq_some_iff.mp hdirectory
  obtain ⟨node', hn', hk'⟩ := Option.map_eq_some_iff.mp hfile
  simp only [henumerates.mem_iff, Option.mem_def, Option.some.injEq, forall_eq', hquarantine]
  refine ⟨⟨node, hn, hk, by simp⟩, ⟨node', hn', hk', by simp⟩, by simp, by simp⟩

end BlockFsck.Walk
