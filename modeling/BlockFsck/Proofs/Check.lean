import BlockFsck.Check
import BlockFsck.Proofs.Namespace.Reading

/-!
# Running the steps of a check

A step run against a service with a state of its own comes to an outcome, a state of the check and
a state of the service. Against a namespace that nobody else changes, reading leaves it as it is.
-/

namespace BlockFsck.Check

variable {σ τ α β : Type}

theorem start_bind (step : Check σ α) (next : α → Check σ β) (s : σ) :
    (step >>= next).start s = (step.start s).bind fun ended =>
      match ended with
      | (.ok a, s') => (next a).start s'
      | (.error failure, s') => .done (.error failure, s') := by
  change (step.start s).bind _ = (step.start s).bind _
  congr 1
  funext ended
  rcases ended with ⟨e | a, s'⟩ <;> rfl

theorem start_tryCatch (step : Check σ α) (handle : Failure → Check σ α) (s : σ) :
    (tryCatch step handle : Check σ α).start s = (step.start s).bind fun ended =>
      match ended with
      | (.ok a, s') => .done (.ok a, s')
      | (.error failure, s') => (handle failure).start s' := by
  change (step.start s).bind _ = (step.start s).bind _
  congr 1
  funext ended
  rcases ended with ⟨e | a, s'⟩ <;> rfl

section Service

variable (service : Metadata.Service (StateM τ))

/-- What a step comes to against a service, from its state and that of the service. -/
def runOn (step : Check σ α) (s : σ) (t : τ) : (Except Failure α × σ) × τ :=
  (step.start s).run service.answer t

theorem runOn_pure (a : α) (s : σ) (t : τ) :
    runOn service (pure a) s t = ((.ok a, s), t) := rfl

theorem runOn_bind (step : Check σ α) (next : α → Check σ β) (s : σ) (t : τ) :
    runOn service (step >>= next) s t = match runOn service step s t with
      | ((.ok a, s'), t') => runOn service (next a) s' t'
      | ((.error failure, s'), t') => ((.error failure, s'), t') := by
  rw [runOn, start_bind, Program.run_bind]
  change (match ((step.start s).run service.answer t).1 with
    | (.ok a, s') => (next a).start s'
    | (.error failure, s') => .done (.error failure, s') : Program Metadata _).run service.answer
      ((step.start s).run service.answer t).2 = _
  rw [runOn]
  rcases (step.start s).run service.answer t with ⟨⟨e | a, s'⟩, t'⟩ <;> rfl

theorem runOn_map (f : α → β) (step : Check σ α) (s : σ) (t : τ) :
    runOn service (f <$> step) s t =
      (((runOn service step s t).1.1.map f, (runOn service step s t).1.2),
        (runOn service step s t).2) := by
  rw [map_eq_pure_bind, runOn_bind]
  rcases runOn service step s t with ⟨⟨e | a, s'⟩, t'⟩ <;> rfl

theorem runOn_get (s : σ) (t : τ) : runOn service (get : Check σ σ) s t = ((.ok s, s), t) := rfl

theorem runOn_modify (f : σ → σ) (s : σ) (t : τ) :
    runOn service (modify f : Check σ Unit) s t = ((.ok (), f s), t) := rfl

theorem runOn_tryCatch (step : Check σ α) (handle : Failure → Check σ α) (s : σ) (t : τ) :
    runOn service (tryCatch step handle) s t = match runOn service step s t with
      | ((.ok a, s'), t') => ((.ok a, s'), t')
      | ((.error failure, s'), t') => runOn service (handle failure) s' t' := by
  rw [runOn, start_tryCatch, Program.run_bind]
  change (match ((step.start s).run service.answer t).1 with
    | (.ok a, s') => .done (.ok a, s')
    | (.error failure, s') => (handle failure).start s' : Program Metadata _).run service.answer
      ((step.start s).run service.answer t).2 = _
  rw [runOn]
  rcases (step.start s).run service.answer t with ⟨⟨e | a, s'⟩, t'⟩ <;> rfl

theorem runOn_orIfMissing (step : Check σ α) (default : α) (s : σ) (t : τ) :
    runOn service (orIfMissing step default) s t = match runOn service step s t with
      | ((.ok a, s'), t') => ((.ok a, s'), t')
      | ((.error failure, s'), t') =>
        if failure.isMissing then ((.ok default, s'), t') else ((.error failure, s'), t') := by
  rw [orIfMissing, runOn_tryCatch]
  rcases runOn service step s t with ⟨⟨failure | a, s'⟩, t'⟩
  · dsimp only
    split_ifs <;> rfl
  · rfl

theorem runOn_forM_cons (x : β) (xs : List β) (f : β → Check σ Unit) (s : σ) (t : τ) :
    runOn service (List.forM (x :: xs) f) s t = match runOn service (f x) s t with
      | ((.ok _, s'), t') => runOn service (xs.forM f) s' t'
      | ((.error failure, s'), t') => ((.error failure, s'), t') := by
  rw [List.forM_eq_forM, List.forM_cons, runOn_bind]
  rcases runOn service (f x) s t with ⟨⟨e | a, s'⟩, t'⟩ <;> rfl

theorem runOn_forM_append (xs ys : List β) (f : β → Check σ Unit) (s : σ) (t : τ) :
    runOn service (List.forM (xs ++ ys) f) s t = match runOn service (xs.forM f) s t with
      | ((.ok _, s'), t') => runOn service (ys.forM f) s' t'
      | ((.error failure, s'), t') => ((.error failure, s'), t') := by
  rw [List.forM_eq_forM, List.forM_append, runOn_bind]
  rcases runOn service (forM xs f) s t with ⟨⟨e | a, s'⟩, t'⟩ <;> rfl

theorem runOn_ofPath_ok (a : α) (s : σ) (t : τ) :
    runOn service (ofPath (.ok a)) s t = ((.ok a, s), t) := rfl

theorem runOn_log (r : LogRecord) (s : σ) (t : τ) :
    runOn service (log r : Check σ Unit) s t = ((.ok (), s), ((service.log r).run t).2) := rfl

end Service

open Metadata (onNamespace)

variable {ns : Namespace}

theorem runOn_namespace (q : Query) (s : σ) (ns : Namespace) :
    (query q : Check σ q.Reply).runOn onNamespace s ns =
      (((q.onNamespace.run ns).1.mapError .namespaceRefused, s), (q.onNamespace.run ns).2) := rfl

theorem runOn_resolve {path : Path} (hv : path.Valid) (s : σ) (ns : Namespace) :
    (query (.resolve path.text) : Check σ _).runOn onNamespace s ns =
      ((.ok ((ns.node? path).map fun node => ⟨path.text, node.kind⟩), s), ns) := by
  rw [runOn_namespace, Query.onNamespace, Namespace.run_look, Namespace.resolve_text ns hv]
  rfl

theorem runOn_listChildren {path : Path} (hv : path.Valid)
    (hn : ns.node? path = some .directory) (s : σ) :
    (query (.listChildren path.text) : Check σ _).runOn onNamespace s ns =
      ((.ok (ns.childrenOf path), s), ns) := by
  rw [runOn_namespace, Query.onNamespace, Namespace.run_look, Namespace.listChildren_text ns hv,
    hn]
  rfl

theorem runOn_blockLocations {path : Path} {content : FileNode} (hv : path.Valid)
    (hn : ns.node? path = some (.file content)) (s : σ) :
    (query (.blockLocations path.text) : Check σ _).runOn onNamespace s ns =
      ((.ok (ns.recordOf path content), s), ns) := by
  rw [runOn_namespace, Query.onNamespace, Namespace.run_look, Namespace.blockLocations_text ns hv,
    hn]
  rfl

end BlockFsck.Check
