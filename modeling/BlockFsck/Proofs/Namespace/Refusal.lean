import BlockFsck.Proofs.Namespace.Ownership

/-!
# Refused operations

An operation that fails, or answers that it was not done, leaves the whole namespace as it was. Most
operations look before they write. Making directories writes on the way, but a file in the way
comes after directories that are there already.
-/

namespace BlockFsck.Namespace

variable {α β : Type} {ns : Namespace}

/-- The operation was not carried out: it failed, or answered so. -/
inductive IsRefusal : Except NamespaceError Outcome → Prop
  | failed (cause : NamespaceError) : IsRefusal (.error cause)
  | denied : IsRefusal (.ok (.truth false))

/-- When the action fails, the namespace is what it was. -/
def KeepsOnFailure (ns : Namespace) (action : Action α) : Prop :=
  ∀ cause after, action.run ns = (.error cause, after) → after = ns

namespace KeepsOnFailure

private theorem of_ok {action : Action α} {answer : α} {after : Namespace}
    (h : action.run ns = (.ok answer, after)) : ns.KeepsOnFailure action := by
  intro cause other hfailed
  rw [h] at hfailed
  cases hfailed

private theorem throw (cause : NamespaceError) : ns.KeepsOnFailure (throw cause : Action α) := by
  intro _ _ hfailed
  cases hfailed
  rfl

private theorem look_bind {read : Namespace → Except NamespaceError β} {next : β → Action α}
    (h : ∀ found, read ns = .ok found → ns.KeepsOnFailure (next found)) :
    ns.KeepsOnFailure (look read >>= next) := by
  intro cause after hfailed
  rw [run_bind, run_look] at hfailed
  cases hread : read ns with
  | error e =>
    rw [hread] at hfailed
    cases hfailed
    rfl
  | ok found =>
    rw [hread] at hfailed
    exact h found hread cause after hfailed

private theorem get_bind {next : Namespace → Action α} (h : ns.KeepsOnFailure (next ns)) :
    ns.KeepsOnFailure (get >>= next) := by
  intro cause after hfailed
  rw [run_bind, run_get] at hfailed
  exact h cause after hfailed

end KeepsOnFailure

private theorem keepsOnFailure_openForWrite (text : String) (holder : Option String) :
    ns.KeepsOnFailure (openForWrite text holder) := by
  refine .look_bind ?_
  rintro ⟨path, content⟩ -
  dsimp only
  cases content.lease with
  | none => exact .of_ok rfl
  | some other =>
    dsimp only
    split_ifs
    · exact .throw _
    · exact .of_ok rfl

private theorem keepsOnFailure_closeFile (text : String) : ns.KeepsOnFailure (closeFile text) := by
  refine .look_bind ?_
  rintro ⟨path, content⟩ -
  exact .of_ok rfl

private theorem keepsOnFailure_removeReplica (id node : String) :
    ns.KeepsOnFailure (removeReplica id node) := by
  refine .look_bind fun block _ => ?_
  exact .of_ok rfl

private theorem keepsOnFailure_addReplica (id node : String) :
    ns.KeepsOnFailure (addReplica id node) := by
  refine .look_bind fun block _ => .get_bind ?_
  split_ifs
  · exact .throw _
  · exact .of_ok rfl

private theorem keepsOnFailure_reportBadReplica (id node : String) :
    ns.KeepsOnFailure (reportBadReplica id node) := by
  refine .look_bind fun block _ => ?_
  cases block.copies.get? node with
  | none => exact .throw _
  | some copy => exact .of_ok rfl

private theorem keepsOnFailure_setBlockLength (id : String) (length : Int) :
    ns.KeepsOnFailure (setBlockLength id length) := by
  refine .look_bind fun block _ => ?_
  exact .of_ok rfl

private theorem keepsOnFailure_setNodeLive (node : String) (live : Bool) :
    ns.KeepsOnFailure (setNodeLive node live) := by
  refine .get_bind ?_
  split_ifs
  · exact .of_ok rfl
  · exact .throw _

private theorem keepsOnFailure_append (text : String) (length : Int)
    (nodes : Option (List String)) :
    ns.KeepsOnFailure (append text length nodes) := by
  rcases run_append ns text length nodes with
    ⟨cause, hended⟩ | ⟨path, content, middle, hf, hmiddle, _, _, hafter, hanswer⟩
  · intro _ _ hfailed
    rw [hended] at hfailed
    cases hfailed
    rfl
  · obtain ⟨hp, hn⟩ := findFile_eq_ok.mp hf
    have hroot : middle.root = ns.root := by
      rcases hmiddle with rfl | ⟨_, _, _, -, -, rfl⟩ <;> rfl
    have hwritten (new : FileNode) :
        (middle.place path (.file new)).node? path = some (.file new) :=
      (node?_file ((node?_congr hroot path).trans hn) new path).trans (if_pos rfl)
    have hread := (node?_congr (congrArg root hafter) path).trans (hwritten _)
    exact .of_ok (Prod.ext (hanswer.trans (blockLocations_of_file hp hread)) rfl)

private theorem withDirectories_of_present {base : Path} {names : List String}
    (h : ∀ path, path <+: base ++ names → ns.node? path ≠ none) :
    ns.withDirectories base names = ns := by
  fun_induction withDirectories ns base names with
  | case1 => rfl
  | case2 ns base name rest hn ih => exact absurd hn (h _ (by simp))
  | case3 ns base name rest node hn ih =>
    rw [List.append_cons base name rest] at h
    exact ih h

private theorem IsTree.withDirectories_of_taken (ht : ns.IsTree) {path : Path} (hv : path.Valid)
    (hne : path ≠ []) (hc : ns.Clear path.parent)
    (hn : (ns.withDirectories [] path.parent).node? path ≠ none) :
    ns.withDirectories [] path.parent = ns := by
  have hshort : ¬ path <+: path.parent := by
    intro hp
    have hlength := hp.length_le
    have hpos := List.length_pos_iff.mpr hne
    rw [Path.parent, List.length_dropLast] at hlength
    omega
  rw [ht.node?_withDirectories hv.parent hc, if_neg hshort] at hn
  refine withDirectories_of_present fun above ha hnone => hn ?_
  exact none_under_none hnone (ha.trans (List.dropLast_prefix path))

private theorem Valid.keepsOnFailure_createFile (h : ns.Valid) (text : String) (length : Int)
    (replication : Option Int) (nodes : Option (List String)) (lease : Option String) :
    ns.KeepsOnFailure (Namespace.createFile text length replication nodes lease) := by
  rcases run_createFile ns text length replication nodes lease with
    ⟨cause, hended⟩ | ⟨path, middle, made, hp, hne, hrun, hended⟩
  · intro _ _ hfailed
    rw [hended] at hfailed
    cases hfailed
    rfl
  rcases hended with ⟨htaken, cause, hended⟩ | ⟨rfl, hn, _, _, _, hafter, hanswer⟩
  · intro _ _ hfailed
    rw [hended] at hfailed
    cases hfailed
    rcases run_makeDirectories ns path.parent with ⟨hc, hclear⟩ | ⟨-, hfile⟩
    · rw [hclear] at hrun
      cases hrun
      exact h.withDirectories_of_taken (valid_of_readPath hp) hne hc (htaken rfl)
    · rw [hfile] at hrun
      cases hrun
      rfl
  · have hparent := (h.mkdirs_path (valid_of_readPath hp).parent).2
    rw [hrun] at hparent
    have hwritten (new : FileNode) :
        (middle.place path (.file new)).node? path = some (.file new) :=
      (node?_put hne (hparent rfl) (by simp [hn]) rfl path).trans (if_pos rfl)
    have hread := (node?_congr (congrArg root hafter) path).trans (hwritten _)
    exact .of_ok (Prod.ext (hanswer.trans (blockLocations_of_file hp hread)) rfl)

private theorem rename_of_not_true {source target : String} {answer : Except NamespaceError Bool}
    {after : Namespace} (hrun : (rename source target).run ns = (answer, after))
    (ha : answer ≠ .ok true) : after = ns := by
  rw [run_rename] at hrun
  cases hs : readPath source <;> cases ht : readPath target <;> rw [hs, ht] at hrun
  case ok.ok source target =>
    dsimp only at hrun
    split_ifs at hrun
    · cases hrun
      exact absurd rfl ha
    · cases hrun
      rfl
  all_goals
    cases hrun
    rfl

private theorem mkdirs_of_not_true {text : String}
    {answer : Except NamespaceError Bool} {after : Namespace}
    (hrun : (Namespace.mkdirs text).run ns = (answer, after)) (ha : answer ≠ .ok true) :
    after = ns := by
  rw [Namespace.mkdirs, run_bind, run_look] at hrun
  cases hp : readPath text with
  | error e =>
    rw [hp] at hrun
    cases hrun
    rfl
  | ok path =>
    rw [hp] at hrun
    dsimp only at hrun
    rcases run_makeDirectories ns path with ⟨-, hclear⟩ | ⟨-, hfile⟩
    · rw [hclear] at hrun
      cases hrun
      exact absurd rfl ha
    · rw [hfile] at hrun
      cases hrun
      rfl

private theorem delete_of_not_true {text : String} {recursive : Bool}
    {answer : Except NamespaceError Bool} {after : Namespace}
    (hrun : (delete text recursive).run ns = (answer, after)) (ha : answer ≠ .ok true) :
    after = ns := by
  rw [run_delete] at hrun
  cases hp : readPath text with
  | error e =>
    rw [hp] at hrun
    cases hrun
    rfl
  | ok path =>
    rw [hp] at hrun
    dsimp only at hrun
    split_ifs at hrun
    · cases hrun
      exact absurd rfl ha
    · cases hrun
      rfl

private theorem failed_or_denied {action : Action α} {form : α → Outcome}
    (hr : IsRefusal ((do let answer ← action; return form answer : Action Outcome).run ns).1) :
    (∃ cause, (action.run ns).1 = .error cause) ∨
      ∃ answer, (action.run ns).1 = .ok answer ∧ form answer = .truth false := by
  rw [run_bind] at hr
  rcases hrun : action.run ns with ⟨cause | answer, after⟩
  · exact .inl ⟨cause, rfl⟩
  · rw [hrun] at hr
    refine .inr ⟨answer, rfl, ?_⟩
    have hform : IsRefusal (.ok (form answer)) := hr
    generalize form answer = outcome at hform
    cases hform
    rfl

private theorem KeepsOnFailure.of_refusal {action : Action α} {form : α → Outcome}
    (h : ns.KeepsOnFailure action) (hform : ∀ answer, form answer ≠ .truth false)
    (hr : IsRefusal ((do let answer ← action; return form answer : Action Outcome).run ns).1) :
    (action.run ns).2 = ns := by
  rcases failed_or_denied hr with ⟨cause, hcause⟩ | ⟨answer, -, hanswer⟩
  · exact h cause _ (Prod.ext hcause rfl)
  · exact absurd hanswer (hform answer)

private theorem not_true_of_refusal {action : Action Bool}
    (hr : IsRefusal ((do let answer ← action; return .truth answer : Action Outcome).run ns).1) :
    (action.run ns).1 ≠ .ok true := by
  rcases failed_or_denied hr with ⟨cause, hcause⟩ | ⟨answer, hanswer, hform⟩
  · simp [hcause]
  · cases hform
    simp [hanswer]

private theorem Valid.perform_of_refusal (h : ns.Valid) {op : Operation}
    (hr : IsRefusal (op.perform ns).1) : (op.perform ns).2 = ns := by
  rw [Operation.perform] at hr ⊢
  cases op <;> simp only [Operation.action, run_answer, run_look] at hr ⊢
  case corruptFiles | liveNodes => rfl
  case rename source target => exact rename_of_not_true rfl (not_true_of_refusal hr)
  case mkdirs path => exact mkdirs_of_not_true rfl (not_true_of_refusal hr)
  case delete path recursive => exact delete_of_not_true rfl (not_true_of_refusal hr)
  case registerNode node live => cases hr
  case setNodeLive node live =>
    exact (keepsOnFailure_setNodeLive node live).of_refusal (by simp) hr
  case createFile path length replication nodes lease =>
    exact (h.keepsOnFailure_createFile path length replication nodes lease).of_refusal (by simp) hr
  case append path length nodes =>
    exact (keepsOnFailure_append path length nodes).of_refusal (by simp) hr
  case openForWrite path holder =>
    exact (keepsOnFailure_openForWrite path holder).of_refusal (by simp) hr
  case closeFile path => exact (keepsOnFailure_closeFile path).of_refusal (by simp) hr
  case removeReplica block node =>
    exact (keepsOnFailure_removeReplica block node).of_refusal (by simp) hr
  case addReplica block node =>
    exact (keepsOnFailure_addReplica block node).of_refusal (by simp) hr
  case reportBadReplica block node =>
    exact (keepsOnFailure_reportBadReplica block node).of_refusal (by simp) hr
  case setBlockLength block length =>
    exact (keepsOnFailure_setBlockLength block length).of_refusal (by simp) hr
  case setClock time => cases hr

/-- A refused operation changes nothing: no entry, record, time or lease, no storage node, no block,
and not the number of the next block. -/
theorem refused_keeps (hns : ns.Reachable) (op : Operation)
    (hr : IsRefusal (op.perform ns).1) : (op.perform ns).2 = ns :=
  hns.valid.perform_of_refusal hr

/-- A file that was to be made below two directories that are missing, and a file. -/
theorem refused_keeps_of_createFile :
    ((Operation.createFile "/a/b/c/d" 8 none none none).perform (oneCorruptFile none 4)).1 =
      .error (.parentNotDirectory "/a/b/c/d") ∧
    ((Operation.createFile "/a/b/c/d" 8 none none none).perform (oneCorruptFile none 4)).2 =
      oneCorruptFile none 4 := by
  have hanswer : ((Operation.createFile "/a/b/c/d" 8 none none none).perform
      (oneCorruptFile none 4)).1 = .error (.parentNotDirectory "/a/b/c/d") := by decide +kernel
  refine ⟨hanswer, refused_keeps (oneCorruptFile_reachable none 4) _ ?_⟩
  rw [hanswer]
  exact .failed _

end BlockFsck.Namespace
