import BlockFsck.Proofs.Checker.Listed
import BlockFsck.Proofs.Conduct

/-!
# How a run conducts itself

Whatever others do between its calls, a run reads before it acts, moves files out of the way of
nobody and only below the quarantine directory, and ends in a result that is in keeping with its
calls. It breaks off where an entry that it reads has become one of the other kind.
-/

namespace BlockFsck

variable {σ α : Type} {o : Options} {root quarantine : Path} {s : σ} {calls : List Call}

/-- The path is that of a file whose record was read. -/
def HasRead (calls : List Call) (path : Path) : Prop :=
  path.Valid ∧ path ≠ [] ∧ ∃ record ∈ recordsOf calls, record.path = path.text

theorem HasRead.later {after : List Call} {path : Path} {records : List FileRecord}
    {deeds : List Deed} (h : HasRead calls path) (ha : Adds calls after records deeds) :
    HasRead after path := by
  obtain ⟨hv, hne, record, hmem, hpath⟩ := h
  refine ⟨hv, hne, record, ?_, hpath⟩
  rw [ha.records_eq]
  exact List.mem_append_left _ hmem

theorem hasRead_of_mem {record : FileRecord} (h : record ∈ recordsOf calls) :
    ∃ path, record.path = path.text ∧ HasRead calls path := by
  obtain ⟨call, -, path, content, hn, hv, rfl⟩ := exists_of_mem_recordsOf h
  exact ⟨path, rfl, hv, Namespace.ne_root_of_file hn, _, h, rfl⟩

/-- What a run may ask after the calls it has made. It moves or deletes what it has read, if the
options say so, and moves it from outside of the quarantine directory to a place in there. -/
def Options.Permits (o : Options) (quarantine : Path) (calls : List Call) : Query → Prop
  | .mkdirs text => o.move = true ∧
    ∃ path : Path, text = path.text ∧ path.Valid ∧ quarantine <+: path
  | .rename source target => o.move = true ∧ ∃ path place : Path, source = path.text ∧
    target = place.text ∧ HasRead calls path ∧ place.Valid ∧ ¬ quarantine <+: path ∧
      quarantine <+: place ∧ place ≠ quarantine
  | .delete text _ => o.delete = true ∧ ∃ path : Path, text = path.text ∧ HasRead calls path
  | _ => True

namespace Quarantine

private theorem conducts_firstConflict {base : Path} {names : List String}
    (hv : Path.Valid (base ++ names)) {Ends : Option Nat → σ → List Call → Prop}
    {Fails : Failure → σ → List Call → Prop}
    (h : ∀ found {after}, Adds calls after [] [] → Ends found s after) :
    (firstConflict base names : Check σ _).Conducts (o.Permits quarantine) s calls Ends Fails := by
  induction names generalizing base calls Ends with
  | nil => exact .pure (h none (.refl calls))
  | cons name rest ih =>
    rw [List.append_cons] at hv
    apply Check.Conducts.bind
    apply Check.Conducts.resolve (Path.valid_append.mp hv).1 trivial
    intro met after _ hadds
    cases met.node? (base ++ [name]) with
    | none => exact .pure (h none hadds)
    | some node =>
      dsimp only [Option.map_some]
      split_ifs
      · exact .pure (h _ hadds)
      · apply Check.Conducts.bind
        apply ih hv
        intro found after' hadds'
        exact .pure (h _ (hadds.idle hadds'))

private theorem conducts_freeName {base : Path} {names : List String}
    (hv : Path.Valid (base ++ names))
    (position left suffix : Nat) {Ends : Option Path → σ → List Call → Prop}
    {Fails : Failure → σ → List Call → Prop}
    (hnone : ∀ {after}, Adds calls after [] [] → Ends none s after)
    (hsome : ∀ {chosen : Path} {after}, chosen.Valid → chosen.length = names.length →
      Adds calls after [] [] → Ends (some (base ++ chosen)) s after) :
    (freeName base names position suffix left : Check σ _).Conducts (o.Permits quarantine) s calls
      Ends Fails := by
  obtain ⟨hbase, hnames⟩ := Path.valid_append.mp hv
  induction left generalizing suffix calls with
  | zero => exact .pure (hnone (.refl calls))
  | succ left ih =>
    have hc := withSuffix_valid hnames position suffix
    have hsplit := List.take_append_drop position (withSuffix names position suffix)
    apply Check.Conducts.bind
    apply conducts_firstConflict
    · rw [List.append_assoc, hsplit]
      exact Path.valid_append.mpr ⟨hbase, hc⟩
    intro found after hadds
    cases found with
    | none =>
      have hlength : (withSuffix names position suffix).length = names.length := by
        simp [withSuffix]
      exact .pure (hsome hc hlength hadds)
    | some _ =>
      exact ih (suffix + 1) (fun hmore => hnone (hadds.idle hmore))
        fun hchosen hlength hmore => hsome hchosen hlength (hadds.idle hmore)

private theorem conducts_destination (q : Quarantine) (hq : q.directory = quarantine.text)
    (hd : quarantine.Valid) {path : Path} (hp : path.Valid) (hne : path ≠ [])
    {Ends : String → σ → List Call → Prop} {Fails : Failure → σ → List Call → Prop}
    (hends : ∀ {names : Path} {after}, names.Valid → names ≠ [] → ¬ quarantine <+: path →
      Adds calls after [] [] → Ends (Path.text (quarantine ++ names)) s after)
    (hfails : ∀ cause {after}, Adds calls after [] [] → Fails (.quarantine cause) s after) :
    (q.destination path.text : Check σ _).Conducts (o.Permits quarantine) s calls Ends Fails := by
  have hv := Path.valid_append.mpr ⟨hd, hp⟩
  rw [destination, hq, Path.ofText_text hd, Path.ofText_text hp]
  apply Check.Conducts.bind
  apply Check.Conducts.pure
  apply Check.Conducts.bind
  apply Check.Conducts.pure
  split_ifs with hu
  · exact .throw (hfails _ (.refl calls))
  have hout : ¬ quarantine <+: path := fun h => hu (Path.isUnder_iff.mpr h)
  apply Check.Conducts.bind
  apply conducts_firstConflict hv
  intro found after hadds
  cases found with
  | none => exact .pure (hends hp hne hout hadds)
  | some position =>
    apply Check.Conducts.bind
    apply conducts_freeName hv
    · intro after' hadds'
      exact .throw (hfails _ (hadds.idle hadds'))
    · intro chosen after' hchosen hlength hadds'
      have hsome : chosen ≠ [] := by
        rintro rfl
        exact hne (List.length_eq_zero_iff.mp hlength.symm)
      exact .pure (hends hchosen hsome hout (hadds.idle hadds'))

/-- A move ends in one deed, or fails and has done nothing. -/
theorem conducts_move (q : Quarantine) (hq : q.directory = quarantine.text)
    (hd : quarantine.Valid) (hm : o.move = true) {path : Path} (hread : HasRead calls path)
    {Ends : String → σ → List Call → Prop} {Fails : Failure → σ → List Call → Prop}
    (hends : ∀ {target : Path} {after}, Adds calls after [] [.moved path target] →
      Ends target.text s after)
    (hfails : ∀ cause {after}, Adds calls after [] [] → Fails (.quarantine cause) s after) :
    (q.move path.text : Check σ _).Conducts (o.Permits quarantine) s calls Ends Fails := by
  apply Check.Conducts.bind
  apply conducts_destination q hq hd hread.1 hread.2.1 (fun {names after} hnames hne hout hadds => ?_)
    hfails
  have hv : Path.Valid (quarantine ++ names) := Path.valid_append.mpr ⟨hd, hnames⟩
  have hparent : Path.parent (quarantine ++ names) = quarantine ++ Path.parent names :=
    List.dropLast_append_of_ne_nil hne
  rw [Path.parentText_text hv]
  apply Check.Conducts.bind
  apply Check.Conducts.pure
  apply Check.Conducts.bind
  apply Check.Conducts.mkdirs hv.parent
  · exact ⟨hm, _, rfl, hv.parent, hparent ▸ List.prefix_append ..⟩
  intro made after' hmade
  split_ifs
  · exact .throw (hfails _ (hadds.idle hmade))
  apply Check.Conducts.bind
  apply Check.Conducts.rename hread.1 hv
  · exact ⟨hm, path, _, rfl, rfl, (hread.later hadds).later hmade, hv, hout,
      List.prefix_append .., by simp [hne]⟩
  intro granted after'' hgranted
  have hafter := hadds.after_idle (hmade.after_idle hgranted)
  cases granted with
  | false => exact .throw (hfails _ hafter)
  | true => exact .pure (hends hafter)

end Quarantine

theorem Check.conducts_deleteFile (hd : o.delete = true) {path : Path} (hread : HasRead calls path)
    {Ends : Unit → σ → List Call → Prop} {Fails : Failure → σ → List Call → Prop}
    (hends : ∀ {after}, Adds calls after [] [.deleted path] → Ends () s after)
    (hfails : ∀ cause {after}, Adds calls after [] [] → Fails (.quarantine cause) s after) :
    (deleteFile path.text : Check σ Unit).Conducts (o.Permits quarantine) s calls Ends Fails := by
  apply Check.Conducts.bind
  apply Check.Conducts.delete hread.1 ⟨hd, path, rfl, hread⟩
  intro granted after hadds
  cases granted with
  | false => exact .throw (hfails _ hadds)
  | true => exact .pure (hends hadds)

/-- What breaks a run off: an entry of the other kind was read last, or the walk met an entry so
deep below its root as it may not go. -/
inductive BreaksOff (root : Path) (depth : Nat) (calls : List Call) : Failure → Prop
  | misread {before : List Call} {call : Call} {cause : NamespaceError} (hs : Smooth before)
      (hm : call.Misread cause) (hcalls : calls = before ++ [call]) :
      BreaksOff root depth calls (.namespaceRefused cause)
  | tooDeep {path : Path} (hs : Smooth calls) (hseen : Seen calls path) (hroot : root <+: path)
      (hlength : path.length = root.length + depth) : BreaksOff root depth calls (.tooDeep path.text)

namespace Walk

variable {depth : Nat}

/-- Visits break off or keep an invariant, which says that all has gone smoothly, and which calls
that read and do nothing keep too. -/
structure Orderly (o : Options) (quarantine root : Path) (depth : Nat)
    (visit : Entry → Check σ Unit) (I : σ → List Call → Prop) : Prop where
  smooth : ∀ {s calls}, I s calls → Smooth calls
  idle : ∀ {s calls after}, I s calls → Adds calls after [] [] → I s after
  visits : ∀ {path : Path} {kind s calls}, Seen calls path → I s calls →
    (visit ⟨path.text, kind⟩).Conducts (o.Permits quarantine) s calls (fun _ => I)
      fun failure _ after => BreaksOff root depth after failure

variable {visit : Entry → Check σ Unit} {I : σ → List Call → Prop} {q? : Option Path}

private theorem conducts_childrenInOrder {path : Path} (hv : path.Valid)
    {Ends : List Entry → σ → List Call → Prop} {Fails : Failure → σ → List Call → Prop}
    (hends : ∀ {children : List Entry} {after}, Adds calls after [] [] →
      (∀ child ∈ children, ∃ name, child.path = Path.text (path ++ [name]) ∧
        Seen after (path ++ [name])) → Ends children s after)
    (hfails : ∀ {call cause}, call.Misread cause →
      Fails (.namespaceRefused cause) s (calls ++ [call])) :
    (childrenInOrder ⟨path.text, .directory⟩ : Check σ _).Conducts (o.Permits quarantine) s calls
      Ends Fails := by
  apply Check.Conducts.bind
  apply Check.Conducts.children hv trivial
  · intro met after hmet hafter hadds
    refine .pure (hends hadds fun child hchild => ?_)
    rw [mem_sortedBy, hmet.toIsTree.childrenOf_eq] at hchild
    obtain ⟨⟨name, node⟩, hnode, rfl⟩ := List.mem_map.mp hchild
    rw [mem_sortedBy, hmet.toIsTree.mem_childNodes] at hnode
    exact ⟨name, rfl, seen_of_last hafter (hmet.toIsTree.path_valid hnode) (by simp [hnode])⟩
  · intro after hadds
    refine .pure (hends hadds ?_)
    intro child hchild
    rw [mem_sortedBy] at hchild
    cases hchild
  · exact hfails

private theorem exists_isLeftOut (hr : root.Valid) (hq : ∀ q ∈ q?, q.Valid)
    (rootKind kind : EntryKind)
    (path : String) : ∃ left, isLeftOut ⟨root.text, rootKind⟩ (q?.map Path.text) ⟨path, kind⟩ =
      .ok left := by
  cases q? with
  | none => exact ⟨false, rfl⟩
  | some q =>
    cases kind with
    | file => exact ⟨false, rfl⟩
    | directory =>
      refine ⟨!root.isUnder q && path == q.text, ?_⟩
      simp [isLeftOut, Entry.isDirectory, Path.textIsUnder_text hr (hq q rfl), bind, Except.bind,
        pure, Except.pure]

private theorem conducts_descend (hI : Orderly o quarantine root depth visit I) (hr : root.Valid)
    (hq : ∀ q ∈ q?, q.Valid)
    (rootKind kind : EntryKind) {path : Path} {left : Nat} (hroot : root <+: path)
    (hlength : path.length + left = root.length + depth) (hseen : Seen calls path)
    (h : I s calls) :
    (descend visit ⟨root.text, rootKind⟩ (q?.map Path.text) left ⟨path.text, kind⟩).Conducts
      (o.Permits quarantine) s calls (fun _ => I)
      fun failure _ after => BreaksOff root depth after failure := by
  induction left generalizing path kind s calls with
  | zero => exact .throw (.tooDeep (hI.smooth h) hseen hroot hlength)
  | succ left ih =>
    apply Check.Conducts.bind
    refine (hI.visits hseen h).mono (fun {_ s' calls'} h' => ?_) fun hfailed => hfailed
    cases kind with
    | file => exact .pure h'
    | directory =>
      apply Check.Conducts.bind
      apply conducts_childrenInOrder hseen.1
      · intro children after hadds hchildren
        -- the children were met before the loop starts, and so they were at each of its turns
        refine (Check.Conducts.forM (fun s' later => after <+: later ∧ I s' later)
          (fun child hmem s'' later hkeeps => ?_) ⟨List.prefix_refl after, hI.idle h' hadds⟩).mono
            (fun hkeeps => hkeeps.2) fun hfailed => hfailed
        obtain ⟨childPath, childKind⟩ := child
        obtain ⟨name, rfl, hchild⟩ := hchildren _ hmem
        obtain ⟨leftOut, hleftOut⟩ := exists_isLeftOut hr hq rootKind childKind _
        rw [hleftOut]
        apply Check.Conducts.bind
        apply Check.Conducts.pure
        split_ifs
        · have hdeeper : (path ++ [name]).length + left = root.length + depth := by
            rw [List.length_append, List.length_singleton]
            omega
          have hbelow := ih childKind (hroot.trans (List.prefix_append path [name])) hdeeper
            (hchild.mono hkeeps.1) hkeeps.2
          exact hbelow.longer.mono (fun hlater => ⟨hkeeps.1.trans hlater.1, hlater.2⟩)
            fun hfailed => hfailed
        · exact .pure hkeeps
      · intro call cause hmisread
        exact .misread (hI.smooth h') hmisread rfl

private theorem conducts_resolveRoot (hr : root.Valid) {Ends : Entry → σ → List Call → Prop}
    {Fails : Failure → σ → List Call → Prop}
    (hends : ∀ kind {after}, Adds calls after [] [] → Seen after root →
      Ends ⟨root.text, kind⟩ s after)
    (hfails : ∀ met : Namespace, met.node? root = none →
      Fails (.pathNotFound root.text) s (calls ++ [⟨.resolve root.text, met⟩])) :
    (resolveRoot root.text : Check σ _).Conducts (o.Permits quarantine) s calls Ends Fails := by
  rw [resolveRoot, Path.normalize_text hr]
  apply Check.Conducts.bind
  apply Check.Conducts.pure
  apply Check.Conducts.bind
  apply Check.Conducts.resolve hr trivial
  intro met after hafter hadds
  cases hn : met.node? root with
  | none =>
    rw [hafter]
    exact .throw (hfails met hn)
  | some node =>
    exact .pure (hends node.kind hadds (seen_of_last hafter hr (by simp [hn])))

/-- A walk keeps what its visits keep, or breaks off, or misses its root. -/
theorem conducts_run (hI : Orderly o quarantine root depth visit I) (hr : root.Valid)
    (hq : ∀ q ∈ q?, q.Valid) (h : I s calls) {Fails : Failure → σ → List Call → Prop}
    (hbreaks : ∀ {failure s' after}, BreaksOff root depth after failure → Fails failure s' after)
    (hfails : ∀ met : Namespace, met.node? root = none →
      Fails (.pathNotFound root.text) s (calls ++ [⟨.resolve root.text, met⟩])) :
    (Walk.run ⟨root.text, q?.map Path.text⟩ depth visit).Conducts (o.Permits quarantine) s calls
      (fun _ => I) Fails := by
  apply Check.Conducts.bind
  apply conducts_resolveRoot hr
  · intro kind after hadds hseen
    exact (conducts_descend hI hr hq kind kind (List.prefix_refl root) rfl hseen
      (hI.idle h hadds)).mono (fun hkeeps => hkeeps) hbreaks
  · exact hfails

end Walk

end BlockFsck
