import BlockFsck.Proofs.Namespace.Ownership

/-!
# Modification times

The time of a file is what the clock has shown at some point. As long as the clock shows finite
times, those of all files are finite.
-/

namespace BlockFsck

namespace Namespace

variable {ns : Namespace}

/-- The clock of a well-formed namespace shows a finite time, and so it did whenever it was read. -/
structure HasFiniteTimes (ns : Namespace) : Prop extends Valid ns where
  clock : ns.clock.toRat?.isSome = true
  files : ∀ {path content}, ns.node? path = some (.file content) →
    content.modified.toRat?.isSome = true

namespace HasFiniteTimes

private theorem of_files {after : Namespace} (h : ns.HasFiniteTimes) (hv : after.Valid)
    (hc : after.clock = ns.clock)
    (hfiles : ∀ {path content}, after.node? path = some (.file content) →
      (∃ old, ns.node? old = some (.file content)) ∨ content.modified.toRat?.isSome = true) :
    after.HasFiniteTimes where
  toValid := hv
  clock := hc ▸ h.clock
  files hn := by
    rcases hfiles hn with ⟨old, hold⟩ | hfinite
    · exact h.files hold
    · exact hfinite

private theorem write {after : Namespace} (h : ns.HasFiniteTimes) (hv : after.Valid)
    (hc : after.clock = ns.clock) {path : Path} {new : FileNode}
    (hnew : new.modified.toRat?.isSome = true)
    (hnode : ∀ other, after.node? other =
      if other = path then some (.file new) else ns.node? other) : after.HasFiniteTimes := by
  refine h.of_files hv hc fun {other content} hn => ?_
  rw [hnode] at hn
  split_ifs at hn
  · cases hn
    exact .inr hnew
  · exact .inl ⟨other, hn⟩

private theorem makeDirectories (h : ns.HasFiniteTimes) {path : Path} (hv : path.Valid) :
    ((makeDirectories [] path).run ns).2.HasFiniteTimes := by
  rcases run_makeDirectories ns path with ⟨hc, hrun⟩ | ⟨-, hrun⟩ <;> rw [hrun]
  · refine h.of_files (h.withDirectories hv hc) (by rw [withDirectories_eq])
      fun {other content} hn => ?_
    rw [h.node?_withDirectories hv hc] at hn
    split_ifs at hn
    · cases hn
    · exact .inl ⟨other, hn⟩
  · exact h

private theorem perform (h : ns.HasFiniteTimes) (op : Operation)
    (hop : ∀ time, op = .setClock time → time.toRat?.isSome = true) :
    (op.perform ns).2.HasFiniteTimes := by
  have hbecomes := perform_becomes ns op
  have hvalid := h.toValid.perform op
  generalize (op.perform ns).2 = after at hbecomes hvalid
  cases hbecomes with
  | unchanged => exact h
  | @clock time hclock => exact ⟨hvalid, hop time hclock, h.files⟩
  | node node live => exact ⟨hvalid, h.clock, h.files⟩
  | report hreports hb => exact ⟨hvalid, h.clock, h.files⟩
  | @write text path content new _ _ _ _ hwritesTo hf hwrites =>
    have hn := (findFile_eq_ok.mp hf).2
    have hnew : new.modified.toRat?.isSome = true := by
      rcases hwrites.modified with hsame | hclock
      · rw [hsame]
        exact h.files hn
      · rw [hclock]
        exact h.clock
    exact h.write hvalid hwrites.clock hnew fun other => by
      rw [node?_congr hwrites.root, node?_file hn]
  | directories path hv => exact h.makeDirectories hv
  | @create path middle _ replication _ added lease hv hne hrun hn hadded =>
    have hmiddle := h.makeDirectories hv.parent
    have hparent := (h.mkdirs_path hv.parent).2
    rw [hrun] at hmiddle hparent
    let new : FileNode := ⟨replication, added.map Prod.fst, lease, middle.clock⟩
    have hnew : new.modified.toRat?.isSome = true := hmiddle.clock
    have hnode : ∀ other, (middle.place path (.file new)).node? other =
        if other = path then some (.file new) else middle.node? other :=
      node?_put hne (hparent rfl) (by simp [hn]) rfl
    exact hmiddle.write hvalid rfl hnew hnode
  | rename hv hcan =>
    refine h.of_files hvalid rfl fun {other content} hn => ?_
    rw [node?_moved hcan] at hn
    split_ifs at hn
    · exact .inl ⟨_, hn⟩
    · exact .inl ⟨other, hn⟩
  | delete hne =>
    refine h.of_files hvalid rfl fun {other content} hn => ?_
    rw [node?_removed hne] at hn
    split_ifs at hn
    exact .inl ⟨other, hn⟩

theorem query (h : ns.HasFiniteTimes) (q : Query) :
    ((Metadata.onNamespace.query q).run ns).2.HasFiniteTimes := by
  rw [← perform_query]
  exact h.perform q.operation (by cases q <;> simp [Query.operation])

theorem after (h : ns.HasFiniteTimes) {history : List Operation}
    (hclock : ∀ time, .setClock time ∈ history → time.toRat?.isSome = true) :
    (ns.after history).HasFiniteTimes := by
  induction history generalizing ns with
  | nil => exact h
  | cons op history ih =>
    apply ih
    · apply h.perform
      rintro time rfl
      exact hclock time (List.mem_cons_self ..)
    · intro time hmem
      exact hclock time (List.mem_cons_of_mem _ hmem)

theorem empty (blockSize defaultReplication : Int) (nodes : List String) :
    (Namespace.empty blockSize defaultReplication nodes).HasFiniteTimes where
  toValid := .empty blockSize defaultReplication nodes
  clock := rfl
  files hn := by
    rw [node?_empty] at hn
    split_ifs at hn
    cases hn

end HasFiniteTimes

end Namespace

end BlockFsck
