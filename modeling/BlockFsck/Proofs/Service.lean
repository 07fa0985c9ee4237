import BlockFsck.Proofs.Walk

/-!
# Services that stand for a namespace

A service of its own kind may answer for a namespace that does not change: it has a state, and gives
the children of a directory in any order, another one each time if it likes. A step of a check that
reads only what is there comes to the same with it as with the namespace, a walk among them
(`standsFor_descend`).
-/

namespace BlockFsck

variable {τ : Type}

namespace Metadata.Service

/-- From the states within, the service gives one reply to the query and stays within. -/
def Replies (service : Metadata.Service (StateM τ)) (Within : τ → Prop) (q : Query)
    (reply : q.Reply) : Prop :=
  ∀ t, Within t → ∃ t', (service.query q).run t = (.ok reply, t') ∧ Within t'

/-- The service answers from the entries of the namespace, whichever way a path is spelled. -/
structure ServesTree (service : Metadata.Service (StateM τ)) (Within : τ → Prop) (ns : Namespace) :
    Prop where
  resolve : ∀ {text path}, Path.ofText text = .ok path → service.Replies Within (.resolve text)
    ((ns.node? path).map fun node => ⟨path.text, node.kind⟩)
  /-- The children come in any order. -/
  listChildren : ∀ {text path}, Path.ofText text = .ok path → ns.node? path = some .directory →
    ∀ t, Within t → ∃ children t', (service.query (.listChildren text)).run t = (.ok children, t') ∧
      children.Perm (ns.childrenOf path) ∧ Within t'
  log : ∀ r t, Within t → Within ((service.log r).run t).2

/-- It answers from the records of the files as well. -/
structure ServesFiles (service : Metadata.Service (StateM τ)) (Within : τ → Prop)
    (ns : Namespace) : Prop extends ServesTree service Within ns where
  blockLocations : ∀ {text path content}, Path.ofText text = .ok path →
    ns.node? path = some (.file content) →
    service.Replies Within (.blockLocations text) (ns.recordOf path content)

end Metadata.Service

open Metadata (onNamespace)

/-- A namespace serves itself. -/
theorem Metadata.servesFiles_onNamespace (ns : Namespace) :
    onNamespace.ServesFiles (· = ns) ns where
  resolve := by
    intro text path ht t hw
    subst hw
    refine ⟨t, ?_, rfl⟩
    change ((t.resolve text).mapError Failure.namespaceRefused, t) = _
    rw [t.resolve_of_read (Namespace.readPath_of_ofText ht)]
    rfl
  listChildren := by
    intro text path ht hn t hw
    subst hw
    refine ⟨t.childrenOf path, t, ?_, .refl _, rfl⟩
    change ((t.listChildren text).mapError Failure.namespaceRefused, t) = _
    rw [t.listChildren_of_read (Namespace.readPath_of_ofText ht), hn]
    rfl
  log := by
    intro r t hw
    exact hw
  blockLocations := by
    intro text path content ht hn t hw
    subst hw
    refine ⟨t, ?_, rfl⟩
    change ((t.blockLocations text).mapError Failure.namespaceRefused, t) = _
    rw [t.blockLocations_of_read (Namespace.readPath_of_ofText ht), hn]
    rfl

/-- The service of a namespace that gives the children of a directory in another order. -/
def Metadata.reordered (order : List Entry → List Entry) : Metadata.Service (StateM Namespace) where
  query
    | .listChildren path => do return (← onNamespace.query (.listChildren path)).map order
    | q => onNamespace.query q
  log _ := return ()

theorem Metadata.servesTree_reordered {order : List Entry → List Entry}
    (horder : ∀ entries, (order entries).Perm entries) (ns : Namespace) :
    (Metadata.reordered order).ServesTree (· = ns) ns where
  resolve := (Metadata.servesFiles_onNamespace ns).resolve
  listChildren := by
    intro text path ht hn t hw
    obtain ⟨children, t', hrun, hperm, hw'⟩ :=
      (Metadata.servesFiles_onNamespace ns).listChildren ht hn t hw
    refine ⟨order children, t', ?_, (horder children).trans hperm, hw'⟩
    exact congrArg (fun answered => (answered.1.map order, answered.2)) hrun
  log := by
    intro r t hw
    exact hw

/-- The service of a namespace that has another list of corrupt files. -/
def Metadata.withIndex (index : List String) : Metadata.Service (StateM Namespace) where
  query
    | .corruptFiles => return .ok index
    | q => onNamespace.query q
  log _ := return ()

theorem Metadata.servesFiles_withIndex (index : List String) (ns : Namespace) :
    (Metadata.withIndex index).ServesFiles (· = ns) ns where
  resolve := (Metadata.servesFiles_onNamespace ns).resolve
  listChildren := (Metadata.servesFiles_onNamespace ns).listChildren
  blockLocations := (Metadata.servesFiles_onNamespace ns).blockLocations
  log := by
    intro r t hw
    exact hw

theorem Metadata.replies_withIndex (index : List String) (ns : Namespace) :
    (Metadata.withIndex index).Replies (· = ns) .corruptFiles index :=
  fun t hw => ⟨t, rfl, hw⟩

namespace Check

variable {σ α β : Type}

theorem runOn_query {service : Metadata.Service (StateM τ)} {Within : τ → Prop} {q : Query}
    {reply : q.Reply} (hreply : service.Replies Within q reply) (s : σ) {t : τ} (hw : Within t) :
    ∃ t', (query q).runOn service s t = ((.ok reply, s), t') ∧ Within t' := by
  obtain ⟨t', hrun, hw'⟩ := hreply t hw
  exact ⟨t', congrArg (fun answered => ((answered.1, s), answered.2)) hrun, hw'⟩

/-- With the service the step comes to the same as with the namespace, which it leaves as it is. -/
def StandsFor (service : Metadata.Service (StateM τ)) (Within : τ → Prop) (ns : Namespace)
    (step : Check σ α) : Prop :=
  ∀ s t, Within t → ∃ ended t', step.runOn onNamespace s ns = (ended, ns) ∧
    step.runOn service s t = (ended, t') ∧ Within t'

namespace StandsFor

variable {service : Metadata.Service (StateM τ)} {Within : τ → Prop} {ns : Namespace}

theorem pure (a : α) : StandsFor service Within ns (pure a : Check σ α) :=
  fun s t hw => ⟨(.ok a, s), t, rfl, rfl, hw⟩

theorem throw (failure : Failure) : StandsFor service Within ns
    (throw failure : Check σ α) :=
  fun s t hw => ⟨(.error failure, s), t, rfl, rfl, hw⟩

theorem modify (f : σ → σ) : StandsFor service Within ns (modify f : Check σ Unit) :=
  fun s t hw => ⟨(.ok (), f s), t, rfl, rfl, hw⟩

theorem ofPath (x : Except PathError α) : StandsFor service Within ns
    (ofPath x : Check σ α) := by
  cases x with
  | error e => exact throw _
  | ok a => exact pure a

theorem log (hs : service.ServesTree Within ns) (r : LogRecord) :
    StandsFor service Within ns (log r : Check σ Unit) :=
  fun s t hw => ⟨(.ok (), s), _, rfl, runOn_log service r s t, hs.log r t hw⟩

theorem bind {step : Check σ α} {next : α → Check σ β} (hstep : StandsFor service Within ns step)
    (hnext : ∀ s a s', step.runOn onNamespace s ns = ((.ok a, s'), ns) →
      StandsFor service Within ns (next a)) : StandsFor service Within ns (step >>= next) := by
  intro s t hw
  obtain ⟨⟨ended, s'⟩, t', hrun, hrun', hw'⟩ := hstep s t hw
  rw [runOn_bind, runOn_bind, hrun, hrun']
  cases ended with
  | error failure => exact ⟨(.error failure, s'), t', rfl, rfl, hw'⟩
  | ok a => exact hnext s a s' hrun s' t' hw'

theorem map {step : Check σ α} (hstep : StandsFor service Within ns step) (f : α → β) :
    StandsFor service Within ns (f <$> step) := by
  intro s t hw
  obtain ⟨⟨ended, s'⟩, t', hrun, hrun', hw'⟩ := hstep s t hw
  rw [runOn_map, runOn_map, hrun, hrun']
  exact ⟨(ended.map f, s'), t', rfl, rfl, hw'⟩

theorem tryCatch {step : Check σ α} {handle : Failure → Check σ α}
    (hstep : StandsFor service Within ns step)
    (hhandle : ∀ failure, StandsFor service Within ns (handle failure)) :
    StandsFor service Within ns (tryCatch step handle : Check σ α) := by
  intro s t hw
  obtain ⟨⟨ended, s'⟩, t', hrun, hrun', hw'⟩ := hstep s t hw
  rw [runOn_tryCatch, runOn_tryCatch, hrun, hrun']
  cases ended with
  | error failure => exact hhandle failure s' t' hw'
  | ok a => exact ⟨(.ok a, s'), t', rfl, rfl, hw'⟩

theorem orIfMissing {step : Check σ α} (hstep : StandsFor service Within ns step) (default : α) :
    StandsFor service Within ns (orIfMissing step default) := by
  apply hstep.tryCatch
  intro failure
  split_ifs
  · exact pure default
  · exact throw failure

theorem forM {visit : β → Check σ Unit} {xs : List β}
    (hvisit : ∀ x ∈ xs, StandsFor service Within ns (visit x)) :
    StandsFor service Within ns (xs.forM visit) := by
  induction xs with
  | nil => exact pure ()
  | cons x xs ih =>
    refine (hvisit x (List.mem_cons_self ..)).bind fun _ _ _ _ => ?_
    exact ih fun y hy => hvisit y (List.mem_cons_of_mem x hy)

theorem query {q : Query} {reply : q.Reply} (hreply : service.Replies Within q reply)
    (hnamespace : onNamespace.Replies (· = ns) q reply) :
    StandsFor service Within ns (query q : Check σ q.Reply) := by
  intro s t hw
  obtain ⟨t', hrun, hw'⟩ := runOn_query hreply s hw
  obtain ⟨_, hrun', rfl⟩ := runOn_query hnamespace s rfl
  exact ⟨(.ok reply, s), t', hrun', hrun, hw'⟩

end StandsFor

end Check

namespace Walk

open Check (StandsFor)

variable {σ : Type} {service : Metadata.Service (StateM τ)} {Within : τ → Prop} {ns : Namespace}

private theorem standsFor_childrenInOrder (hs : service.ServesTree Within ns) (ht : ns.IsTree)
    {path : Path} (hn : ns.node? path = some .directory) :
    StandsFor service Within ns
      (childrenInOrder ⟨path.text, .directory⟩ : Check σ (List Entry)) := by
  intro s t hw
  have hread := Path.ofText_text (ht.path_valid hn)
  obtain ⟨children, t', hrun, hperm, hw'⟩ := hs.listChildren hread hn t hw
  refine ⟨_, t', runOn_childrenInOrder ht hn s, ?_, hw'⟩
  have hquery : (Check.query (.listChildren path.text) : Check σ _).runOn service s t =
      ((.ok children, s), t') :=
    congrArg (fun answered => ((answered.1, s), answered.2)) hrun
  have hsorted : sortedBy Entry.name children = sortedBy Entry.name (ns.childrenOf path) :=
    sortedBy_of_perm hperm (ht.childrenOf_names_nodup path)
  rw [childrenInOrder, Check.runOn_bind, Check.runOn_orIfMissing, hquery]
  dsimp only
  rw [Check.runOn_pure, hsorted, sortedBy_eq_self ((ht.childrenOf_sorted path).imp le_of_lt),
    ht.childrenOf_eq]

theorem standsFor_descend (hs : service.ServesTree Within ns) (ht : ns.IsTree)
    {visit : Entry → Check σ Unit}
    (hvisit : ∀ {path node}, ns.node? path = some node →
      StandsFor service Within ns (visit ⟨path.text, node.kind⟩))
    (root : Entry) (quarantine : Option String) (depth : Nat) {path : Path} {node : Node}
    (hn : ns.node? path = some node) :
    StandsFor service Within ns (descend visit root quarantine depth ⟨path.text, node.kind⟩) := by
  induction depth generalizing path node with
  | zero => exact .throw _
  | succ depth ih =>
    rw [descend_succ]
    refine (hvisit hn).bind fun _ _ _ _ => ?_
    cases node with
    | file content => exact .pure ()
    | directory =>
      refine (standsFor_childrenInOrder hs ht hn).bind fun s children s' hrun => ?_
      have hlisted := hrun.symm.trans (runOn_childrenInOrder ht hn s)
      simp only [Prod.mk.injEq, Except.ok.injEq, and_true] at hlisted
      obtain ⟨rfl, -⟩ := hlisted
      apply StandsFor.forM
      intro entry hmem
      obtain ⟨child, hchild, rfl⟩ := List.mem_map.mp hmem
      have hpresent := ht.mem_childNodes.mp (mem_sortedBy.mp hchild)
      refine (StandsFor.ofPath _).bind fun _ left _ _ => ?_
      cases left with
      | true => exact .pure ()
      | false => exact ih hpresent

private theorem standsFor_resolveRoot (hs : service.ServesTree Within ns) {text : String}
    {root : Path}
    (hr : Path.ofText text = .ok root) :
    StandsFor service Within ns (resolveRoot text : Check σ Entry) := by
  have hread := Path.ofText_text (Path.valid_of_ofText hr)
  rw [resolveRoot, Path.normalize_eq_ok.mpr ⟨root, hr, rfl⟩]
  refine (StandsFor.ofPath _).bind fun s normal s' hrun => ?_
  obtain rfl : root.text = normal := by
    rw [Check.runOn_ofPath_ok] at hrun
    simpa using congrArg (fun ended => ended.1.1) hrun
  have hquery := hs.resolve hread
  have hnamespace := (Metadata.servesFiles_onNamespace ns).resolve hread
  refine (StandsFor.query hquery hnamespace).bind fun _ found _ _ => ?_
  cases found with
  | none => exact .throw _
  | some entry => exact .pure entry

/-- A walk whose visits read only comes to the same with the service. -/
theorem standsFor_run (hs : service.ServesTree Within ns) (ht : ns.IsTree) {text : String}
    {root : Path} (hr : Path.ofText text = .ok root) (quarantine : Option String) (depth : Nat)
    {visit : Entry → Check σ Unit}
    (hvisit : ∀ {path node}, ns.node? path = some node →
      StandsFor service Within ns (visit ⟨path.text, node.kind⟩)) :
    StandsFor service Within ns (run ⟨text, quarantine⟩ depth visit) := by
  refine (standsFor_resolveRoot hs hr).bind fun s entry s' hrun => ?_
  cases hn : ns.node? root with
  | none =>
    rw [runOn_resolveRoot_none hr hn] at hrun
    cases hrun
  | some node =>
    rw [runOn_resolveRoot hr hn] at hrun
    simp only [Prod.mk.injEq, Except.ok.injEq, and_true] at hrun
    obtain ⟨rfl, -⟩ := hrun
    exact standsFor_descend hs ht hvisit _ quarantine depth hn

end Walk

end BlockFsck
