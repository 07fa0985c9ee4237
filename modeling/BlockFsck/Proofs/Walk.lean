import BlockFsck.Proofs.Check
import BlockFsck.Walk

/-!
# What a walk visits

A walk on a namespace visits its scope in ascending order, each entry once. This holds also while
its visits change the tree, as long as they leave what is still to come where it is
(`descend_tour`): all that was there before is visited, and besides it at most new directories.
-/

namespace BlockFsck.Walk

open Metadata (onNamespace)

variable {σ : Type}

/-- Under the root and not below the quarantine directory, unless the root is in there. -/
def Scope (root : Path) (quarantine : Option Path) (path : Path) : Prop :=
  root <+: path ∧ ∀ q ∈ quarantine, q <+: root ∨ (q <+: path → path = q)

/-- In scope, and not the quarantine directory itself unless the root is in there. -/
def Visible (root : Path) (quarantine : Option Path) (path : Path) (kind : EntryKind) : Prop :=
  Scope root quarantine path ∧
    (kind = .directory → ∀ q ∈ quarantine, q <+: root ∨ path ≠ q)

variable {root path : Path} {quarantine : Option Path}

theorem visible_root (root : Path) (quarantine : Option Path) (kind : EntryKind) :
    Visible root quarantine root kind := by
  refine ⟨⟨List.prefix_refl root, fun q _ => ?_⟩, fun _ q _ => ?_⟩
  · by_cases h : q <+: root
    · exact .inl h
    · exact .inr fun h' => absurd h' h
  · by_cases h : root = q
    · exact .inl (h ▸ List.prefix_refl q)
    · exact .inr h

private theorem Visible.scope_child (h : Visible root quarantine path .directory) (name : String) :
    Scope root quarantine (path ++ [name]) := by
  refine ⟨h.1.1.trans (List.prefix_append ..), fun q hq => ?_⟩
  rcases h.2 rfl q hq with hr | hne
  · exact .inl hr
  · rcases h.1.2 q hq with hr | hs
    · exact .inl hr
    · refine .inr fun hp => ?_
      rcases List.prefix_concat_iff.mp hp with he | hp
      · exact he.symm
      · exact absurd (hs hp) hne

private theorem Visible.above {other : Path} {kind : EntryKind}
    (h : Visible root quarantine other kind)
    (hr : root <+: path) (hp : path <+: other) (hne : path ≠ other) :
    Visible root quarantine path .directory := by
  have apart : ∀ q ∈ quarantine, q <+: root ∨ ¬ q <+: path := by
    intro q hq
    rcases h.1.2 q hq with hr | hs
    · exact .inl hr
    · refine .inr fun hqp => hne ?_
      have he := hs (hqp.trans hp)
      exact hp.eq_of_length_le (he ▸ hqp.length_le)
  refine ⟨⟨hr, fun q hq => ?_⟩, fun _ q hq => ?_⟩
  · exact (apart q hq).imp_right fun hn hp => absurd hp hn
  · refine (apart q hq).imp_right fun hn he => hn (he ▸ List.prefix_refl _)

private theorem isLeftOut_eq (kind childKind : EntryKind) {child : Path} (hr : root.Valid)
    (hq : ∀ q ∈ quarantine, q.Valid) (hc : child.Valid) (hs : Scope root quarantine child) :
    ∃ left, isLeftOut ⟨root.text, kind⟩ (quarantine.map Path.text) ⟨child.text, childKind⟩ =
      .ok left ∧ (left = false ↔ Visible root quarantine child childKind) := by
  cases quarantine with
  | none => exact ⟨false, rfl, by simp [Visible, hs]⟩
  | some q =>
    have hqv := hq q rfl
    cases childKind with
    | file => exact ⟨false, rfl, by simp [Visible, hs]⟩
    | directory =>
      refine ⟨!root.isUnder q && child.text == q.text, ?_, ?_⟩
      · simp [isLeftOut, Entry.isDirectory, Path.textIsUnder_text hr hqv, bind, Except.bind, pure,
          Except.pure]
      · rw [Bool.and_eq_false_iff, beq_eq_false_iff_ne, ne_eq, Path.text_inj hc hqv,
          Bool.not_eq_false', Path.isUnder_iff]
        simp [Visible, hs]

/-- The path leads where it did before, or there was nothing and now is a directory. -/
def Survives (before after : Namespace) (path : Path) : Prop :=
  after.node? path = before.node? path ∨
    before.node? path = none ∧ after.node? path = some .directory

theorem Survives.refl (ns : Namespace) (path : Path) : Survives ns ns path := .inl rfl

private theorem Survives.trans {first second third : Namespace} (h : Survives first second path)
    (h' : Survives second third path) : Survives first third path := by
  rcases h with h | ⟨hn, hd⟩
  · rcases h' with h' | ⟨hn', hd'⟩
    · exact .inl (h'.trans h)
    · exact .inr ⟨h ▸ hn', hd'⟩
  · rcases h' with h' | ⟨hn', -⟩
    · exact .inr ⟨hn, h'.trans hd⟩
    · rw [hd] at hn'
      cases hn'

private theorem Survives.node {before after : Namespace} (h : Survives before after path)
    {node : Node}
    (hn : before.node? path = some node) : after.node? path = some node := by
  rcases h with h | ⟨hnone, -⟩
  · rw [h, hn]
  · rw [hn] at hnone
    cases hnone

/-- Visits succeed and keep an invariant, and all in scope survives them, with the exception of a
visited file. -/
structure Gentle (visit : Entry → Check σ Unit) (root : Path) (quarantine : Option Path)
    (I : σ → Namespace → Prop) : Prop where
  valid : ∀ {s ns}, I s ns → ns.Valid
  visits : ∀ {s ns path node}, I s ns → ns.node? path = some node →
    Visible root quarantine path node.kind →
    ∃ s' ns', (visit ⟨path.text, node.kind⟩).runOn onNamespace s ns = ((.ok (), s'), ns') ∧
      I s' ns' ∧
      ∀ other, Scope root quarantine other → other ≠ path ∨ node = .directory →
        Survives ns ns' other

/-- A part of a walk: the entries it visits in the region, one after the other. -/
structure Tour (visit : Entry → Check σ Unit) (root : Path) (quarantine : Option Path)
    (I : σ → Namespace → Prop) (region : Path → Prop) (s : σ) (ns : Namespace)
    (visited : List (Path × EntryKind)) (s' : σ) (ns' : Namespace) : Prop where
  runs : Check.runOn onNamespace (visited.forM fun e => visit ⟨e.1.text, e.2⟩) s ns =
    ((.ok (), s'), ns')
  keeps : I s' ns'
  ordered : visited.Pairwise (Path.Before ·.1 ·.1)
  visible : ∀ e ∈ visited, region e.1 ∧ Visible root quarantine e.1 e.2
  seen : ∀ e ∈ visited, ∃ s ns node, I s ns ∧ ns.node? e.1 = some node ∧ node.kind = e.2
  known : ∀ e ∈ visited, ∀ node, ns.node? e.1 = some node → node.kind = e.2
  unknown : ∀ e ∈ visited, ns.node? e.1 = none → e.2 = .directory
  complete : ∀ {path node}, region path → Visible root quarantine path node.kind →
    ns.node? path = some node → (path, node.kind) ∈ visited
  survives : ∀ {path}, Scope root quarantine path →
    ¬ region path ∨ ns.node? path = some .directory → Survives ns ns' path

namespace Tour

variable {visit : Entry → Check σ Unit} {I : σ → Namespace → Prop} {region other : Path → Prop}
  {s s₁ s₂ : σ} {ns ns₁ ns₂ : Namespace} {visited visited' : List (Path × EntryKind)}

private theorem append (h : Tour visit root quarantine I region s ns visited s₁ ns₁)
    (h' : Tour visit root quarantine I other s₁ ns₁ visited' s₂ ns₂)
    (hb : ∀ {path path'}, region path → other path' → Path.Before path path') :
    Tour visit root quarantine I (fun path => region path ∨ other path) s ns
      (visited ++ visited') s₂ ns₂ := by
  have apart : ∀ {path}, other path → ¬ region path :=
    fun ho hr => Path.Before.irrefl _ (hb hr ho)
  have stays : ∀ e ∈ visited', Survives ns ns₁ e.1 := fun e he =>
    h.survives (h'.visible e he).2.1 (.inl (apart (h'.visible e he).1))
  refine ⟨?_, h'.keeps, ?_, ?_, ?_, ?_, ?_, ?_, ?_⟩
  · rw [Check.runOn_forM_append, h.runs]
    exact h'.runs
  · exact List.pairwise_append.mpr ⟨h.ordered, h'.ordered, fun e he e' he' =>
      hb (h.visible e he).1 (h'.visible e' he').1⟩
  · intro e he
    rcases List.mem_append.mp he with he | he
    · exact ⟨.inl (h.visible e he).1, (h.visible e he).2⟩
    · exact ⟨.inr (h'.visible e he).1, (h'.visible e he).2⟩
  · intro e he
    rcases List.mem_append.mp he with he | he
    · exact h.seen e he
    · exact h'.seen e he
  · intro e he node hn
    rcases List.mem_append.mp he with he | he
    · exact h.known e he node hn
    · exact h'.known e he node ((stays e he).node hn)
  · intro e he hn
    rcases List.mem_append.mp he with he | he
    · exact h.unknown e he hn
    · rcases stays e he with hs | ⟨-, hd⟩
      · exact h'.unknown e he (hs.trans hn)
      · exact (h'.known e he _ hd).symm
  · intro path node hr hv hn
    rw [List.mem_append]
    rcases hr with hr | hr
    · exact .inl (h.complete hr hv hn)
    · have hs := h.survives hv.1 (.inl (apart hr))
      exact .inr (h'.complete hr hv (hs.node hn))
  · intro path hs hr
    have first : Survives ns ns₁ path := h.survives hs (hr.imp_left fun hn hr => hn (.inl hr))
    exact first.trans (h'.survives hs (hr.imp (fun hn hr => hn (.inr hr)) first.node))

private theorem congr (h : Tour visit root quarantine I region s ns visited s₁ ns₁)
    (hw : ∀ {path}, region path → other path)
    (hn : ∀ {path node}, other path → Visible root quarantine path node.kind →
      ns.node? path = some node → region path) :
    Tour visit root quarantine I other s ns visited s₁ ns₁ where
  runs := h.runs
  keeps := h.keeps
  ordered := h.ordered
  visible e he := ⟨hw (h.visible e he).1, (h.visible e he).2⟩
  seen := h.seen
  known := h.known
  unknown := h.unknown
  complete ho hv hnode := h.complete (hn ho hv hnode) hv hnode
  survives hs ho := h.survives hs (ho.imp_left fun hno hr => hno (hw hr))

private theorem nil (hI : I s ns) (he : ∀ {path node}, region path →
    Visible root quarantine path node.kind → ns.node? path ≠ some node) :
    Tour visit root quarantine I region s ns [] s ns where
  runs := rfl
  keeps := hI
  ordered := .nil
  visible := by simp
  seen := by simp
  known := by simp
  unknown := by simp
  complete hr hv hn := absurd hn (he hr hv)
  survives _ _ := .refl _ _

private theorem single (hg : Gentle visit root quarantine I) (hI : I s ns) {node : Node}
    (hn : ns.node? path = some node) (hv : Visible root quarantine path node.kind) :
    ∃ s₁ ns₁, (visit ⟨path.text, node.kind⟩).runOn onNamespace s ns = ((.ok (), s₁), ns₁) ∧
      Tour visit root quarantine I (· = path) s ns [(path, node.kind)] s₁ ns₁ := by
  obtain ⟨s₁, ns₁, hrun, hI₁, hs⟩ := hg.visits hI hn hv
  refine ⟨s₁, ns₁, hrun, ?_⟩
  constructor
  · rw [Check.runOn_forM_cons, hrun]
    rfl
  · exact hI₁
  · exact List.pairwise_singleton ..
  · intro e he
    rw [List.mem_singleton.mp he]
    exact ⟨rfl, hv⟩
  · intro e he
    rw [List.mem_singleton.mp he]
    exact ⟨s, ns, node, hI, hn, rfl⟩
  · intro e he node' hn'
    rw [List.mem_singleton.mp he] at hn' ⊢
    rw [hn, Option.some.injEq] at hn'
    rw [hn']
  · intro e he hnone
    rw [List.mem_singleton.mp he, hn] at hnone
    cases hnone
  · intro other node' hr hv' hn'
    rw [hr, hn, Option.some.injEq] at hn'
    rw [hr, hn']
    exact List.mem_singleton_self _
  · intro other hscope ho
    refine hs other hscope ?_
    by_cases he : other = path
    · right
      rcases ho with ho | ho
      · exact absurd he ho
      · rw [he, hn, Option.some.injEq] at ho
        exact ho
    · exact .inl he

theorem present (hI : ∀ {s after}, I s after → after = ns)
    (h : Tour visit root quarantine I region s ns visited s₁ ns₁) :
    ∀ e ∈ visited, ∃ node, ns.node? e.1 = some node ∧ node.kind = e.2 := by
  intro e he
  obtain ⟨_, after, node, hkept, hn, hk⟩ := h.seen e he
  exact ⟨node, hI hkept ▸ hn, hk⟩

theorem mem_visited_iff (hI : ∀ {s after}, I s after → after = ns)
    (h : Tour visit root quarantine I (root <+: ·) s ns visited s₁ ns₁) {path : Path}
    {kind : EntryKind} : (path, kind) ∈ visited ↔
      ∃ node, ns.node? path = some node ∧ node.kind = kind ∧
        Visible root quarantine path node.kind := by
  constructor
  · intro hmem
    obtain ⟨node, hn, hk⟩ := h.present hI _ hmem
    exact ⟨node, hn, hk, hk ▸ (h.visible _ hmem).2⟩
  · intro hin
    obtain ⟨node, hn, rfl, hv⟩ := hin
    exact h.complete hv.1.1 hv hn

theorem mem_paths_iff (hI : ∀ {s after}, I s after → after = ns)
    (h : Tour visit root quarantine I (root <+: ·) s ns visited s₁ ns₁) (path : Path) :
    path ∈ visited.map Prod.fst ↔
      ∃ node, ns.node? path = some node ∧ Visible root quarantine path node.kind := by
  rw [List.mem_map]
  constructor
  · intro hmem
    obtain ⟨⟨_, kind⟩, he, rfl⟩ := hmem
    obtain ⟨node, hn, -, hv⟩ := (h.mem_visited_iff hI).mp he
    exact ⟨node, hn, hv⟩
  · intro hin
    obtain ⟨node, hn, hv⟩ := hin
    exact ⟨_, (h.mem_visited_iff hI).mpr ⟨node, hn, rfl, hv⟩, rfl⟩

end Tour

/-! ## A whole walk -/

/-- The walk broke off at an entry that lies too deep below a path. -/
def BrokeOff {α : Type} (I : σ → Namespace → Prop) (path : Path) (depth : Nat)
    (ended : (Except Failure α × σ) × Namespace) : Prop :=
  ∃ s ns below node, I s ns ∧ ns.node? below = some node ∧ path.length + depth ≤ below.length ∧
    ended = ((.error (.tooDeep below.text), s), ns)

section Descend

variable {visit : Entry → Check σ Unit} {I : σ → Namespace → Prop}

/-- A step for a present and visible path visits all at or below it, or breaks off. -/
def Tours (visit step : Entry → Check σ Unit) (root : Path) (quarantine : Option Path)
    (I : σ → Namespace → Prop) (depth : Nat) : Prop :=
  ∀ {s ns path node}, I s ns → ns.node? path = some node →
    Visible root quarantine path node.kind →
    BrokeOff I path depth ((step ⟨path.text, node.kind⟩).runOn onNamespace s ns) ∨
      ∃ visited s' ns',
        (step ⟨path.text, node.kind⟩).runOn onNamespace s ns = ((.ok (), s'), ns') ∧
        Tour visit root quarantine I (path <+: ·) s ns visited s' ns'

private theorem not_visible_below {child below : Path} {node node' : Node} {ns : Namespace}
    (hn : ns.node? child = some node) (hs : Scope root quarantine child)
    (hv : ¬ Visible root quarantine child node.kind) (hb : child <+: below)
    (hv' : Visible root quarantine below node'.kind) : ns.node? below ≠ some node' := by
  intro hn'
  by_cases he : child = below
  · rw [he, hn', Option.some.injEq] at hn
    exact hv (he ▸ hn ▸ hv')
  · have hd := Namespace.directory_above hn' hb he
    rw [hn, Option.some.injEq] at hd
    rw [hd] at hv
    exact hv (hv'.above hs.1 hb he)

/-- A step for a child, unless it is left out. -/
def unlessLeftOut (root : Entry) (quarantine : Option String) (step : Entry → Check σ Unit)
    (child : Entry) : Check σ Unit := do
  if !(← Check.ofPath (isLeftOut root quarantine child)) then step child

theorem descend_succ (visit : Entry → Check σ Unit) (root : Entry) (quarantine : Option String)
    (depth : Nat) (entry : Entry) :
    descend visit root quarantine (depth + 1) entry = (do
      visit entry
      if entry.isDirectory then
        (← childrenInOrder entry).forM
          (unlessLeftOut root quarantine (descend visit root quarantine depth))) := rfl

/-- The children of a directory that is there, in the order of their names. -/
theorem runOn_childrenInOrder {ns : Namespace} (ht : ns.IsTree) {path : Path}
    (hn : ns.node? path = some .directory) (s : σ) :
    (childrenInOrder ⟨path.text, .directory⟩ : Check σ _).runOn onNamespace s ns =
      ((.ok ((sortedBy Prod.fst (ns.childNodes path)).map (Namespace.childEntry path)), s), ns) := by
  rw [childrenInOrder, Check.runOn_bind, Check.runOn_orIfMissing,
    Check.runOn_listChildren (ht.path_valid hn) hn]
  dsimp only
  rw [Check.runOn_pure, sortedBy_eq_self ((ht.childrenOf_sorted path).imp le_of_lt),
    ht.childrenOf_eq]

private theorem children_tour (kind : EntryKind) (hg : Gentle visit root quarantine I)
    (hr : root.Valid)
    (hq : ∀ q ∈ quarantine, q.Valid) {depth : Nat} {step : Entry → Check σ Unit}
    (hstep : Tours visit step root quarantine I depth)
    (hv : Visible root quarantine path .directory) (children : List (String × Node)) {s : σ}
    {ns : Namespace} (hI : I s ns) (ho : children.Pairwise (·.1 < ·.1))
    (hn : ∀ child ∈ children, ns.node? (path ++ [child.1]) = some child.2) :
    let loop := (children.map (Namespace.childEntry path)).forM
      (unlessLeftOut ⟨root.text, kind⟩ (quarantine.map Path.text) step)
    BrokeOff I path (depth + 1) (loop.runOn onNamespace s ns) ∨
      ∃ visited s' ns', loop.runOn onNamespace s ns = ((.ok (), s'), ns') ∧
        Tour visit root quarantine I (fun x => ∃ child ∈ children, path ++ [child.1] <+: x)
          s ns visited s' ns' := by
  intro loop
  induction children generalizing s ns with
  | nil => exact .inr ⟨[], s, ns, rfl, .nil hI (by simp)⟩
  | cons child rest ih =>
    obtain ⟨hfirst, ho⟩ := List.pairwise_cons.mp ho
    have hc := hn child (List.mem_cons_self ..)
    have hscope := hv.scope_child child.1
    obtain ⟨left, hleft, hiff⟩ := isLeftOut_eq kind child.2.kind hr hq
      ((hg.valid hI).path_valid hc) hscope
    have hchild : unlessLeftOut ⟨root.text, kind⟩ (quarantine.map Path.text) step
        (Namespace.childEntry path child) =
        if left = false then step ⟨Path.text (path ++ [child.1]), child.2.kind⟩ else pure () := by
      rw [unlessLeftOut, Namespace.childEntry, hleft]
      cases left <;> rfl
    simp only [loop, List.map_cons]
    rw [Check.runOn_forM_cons, hchild]
    by_cases hl : left = false
    · rw [if_pos hl]
      rcases hstep hI hc (hiff.mp hl) with ⟨s', ns', below, node, hI', hb, hlength, hrun⟩ |
        ⟨visited, s₁, ns₁, hrun, htour⟩
      · left
        rw [hrun]
        rw [List.length_append, List.length_singleton] at hlength
        exact ⟨s', ns', below, node, hI', hb, by omega, rfl⟩
      · have hrest : ∀ other ∈ rest, ns₁.node? (path ++ [other.1]) = some other.2 := by
          intro other hmem
          refine (htour.survives (hv.scope_child other.1) (.inl fun hp => ?_)).node
            (hn other (List.mem_cons_of_mem _ hmem))
          have he := hp.eq_of_length (by simp)
          simp only [List.append_cancel_left_eq, List.cons.injEq, and_true] at he
          exact absurd (he ▸ hfirst other hmem) (lt_irrefl _)
        rw [hrun]
        rcases ih htour.keeps ho hrest with hbroke | ⟨visited', s₂, ns₂, hrun', htour'⟩
        · exact .inl hbroke
        · refine .inr ⟨visited ++ visited', s₂, ns₂, hrun', ?_⟩
          refine (htour.append htour' ?_).congr ?_ ?_
          · rintro x x' ⟨below, rfl⟩ ⟨other, hmem, below', rfl⟩
            rw [List.append_assoc, List.append_assoc]
            exact Path.before_of_names (hfirst other hmem)
          · rintro x (hx | ⟨other, hmem, hx⟩)
            · exact ⟨child, List.mem_cons_self .., hx⟩
            · exact ⟨other, List.mem_cons_of_mem _ hmem, hx⟩
          · rintro x node ⟨other, hmem, hx⟩ - -
            rcases List.mem_cons.mp hmem with rfl | hmem
            · exact .inl hx
            · exact .inr ⟨other, hmem, hx⟩
    · have hnot : ¬ Visible root quarantine (path ++ [child.1]) child.2.kind :=
        fun hvis => hl (hiff.mpr hvis)
      rw [if_neg hl, Check.runOn_pure]
      rcases ih hI ho (fun other hmem => hn other (List.mem_cons_of_mem _ hmem)) with
        hbroke | ⟨visited, s₁, ns₁, hrun, htour⟩
      · exact .inl hbroke
      · refine .inr ⟨visited, s₁, ns₁, hrun, htour.congr ?_ ?_⟩
        · rintro x ⟨other, hmem, hx⟩
          exact ⟨other, List.mem_cons_of_mem _ hmem, hx⟩
        · rintro x node ⟨other, hmem, hx⟩ hvx hnx
          rcases List.mem_cons.mp hmem with rfl | hmem
          · exact absurd hnx (not_visible_below hc hscope hnot hx hvx)
          · exact ⟨other, hmem, hx⟩

theorem descend_tour (hg : Gentle visit root quarantine I) (hr : root.Valid)
    (hq : ∀ q ∈ quarantine, q.Valid) (depth : Nat) :
    Tours visit (descend visit ⟨root.text, kind⟩ (quarantine.map Path.text) depth) root quarantine I
      depth := by
  induction depth with
  | zero =>
    intro s ns path node hI hn _
    exact .inl ⟨s, ns, path, node, hI, hn, le_rfl, rfl⟩
  | succ depth ih =>
    intro s ns path node hI hn hv
    have ht := (hg.valid hI).toIsTree
    obtain ⟨s₁, ns₁, hrun, htour⟩ := Tour.single hg hI hn hv
    rw [descend_succ, Check.runOn_bind, hrun]
    cases node with
    | file content =>
      refine .inr ⟨_, s₁, ns₁, rfl, htour.congr ?_ ?_⟩
      · rintro x rfl
        exact List.prefix_refl _
      · intro x node hx _ hnx
        exact Namespace.eq_of_file hn hx (by simp [hnx])
    | directory =>
      have hn₁ := (htour.survives hv.1 (.inr hn)).node hn
      have ht₁ := (hg.valid htour.keeps).toIsTree
      have hloop := children_tour kind hg hr hq ih hv
        (sortedBy Prod.fst (ns₁.childNodes path)) htour.keeps (ht₁.sorted_childNodes path)
        fun child hmem => ht₁.mem_childNodes.mp (mem_sortedBy.mp hmem)
      simp only [Node.kind, Entry.isDirectory, decide_true, if_true]
      rw [Check.runOn_bind, runOn_childrenInOrder ht₁ hn₁]
      dsimp only
      rcases hloop with hbroke | ⟨visited, s₂, ns₂, hrun', htour'⟩
      · exact .inl hbroke
      refine .inr ⟨_, s₂, ns₂, hrun', (htour.append htour' ?_).congr ?_ ?_⟩
      · rintro x x' rfl ⟨child, -, hx⟩
        have hlength := hx.length_le
        refine Path.before_of_prefix ((List.prefix_append _ _).trans hx) ?_
        rintro rfl
        simp at hlength
      · rintro x (rfl | ⟨child, -, hx⟩)
        · exact List.prefix_refl _
        · exact (List.prefix_append _ _).trans hx
      · rintro x node ⟨rest, rfl⟩ hvx hnx
        cases rest with
        | nil => exact .inl (List.append_nil path)
        | cons name rest =>
          right
          rw [List.append_cons] at hnx ⊢
          have hp : path ++ [name] <+: path ++ [name] ++ rest := List.prefix_append ..
          obtain ⟨child, hchild⟩ : ∃ child, ns.node? (path ++ [name]) = some child := by
            by_cases he : path ++ [name] = path ++ [name] ++ rest
            · exact ⟨node, he ▸ hnx⟩
            · exact ⟨_, Namespace.directory_above hnx hp he⟩
          have hs := htour.survives (hv.scope_child name) (.inl (by simp))
          exact ⟨(name, child), mem_sortedBy.mpr (ht₁.mem_childNodes.mpr (hs.node hchild)), hp⟩

theorem make_of_ofText {given : Option String} (text : String)
    (h : given.mapM Path.ofText = .ok quarantine) :
    make text given = .ok ⟨text, quarantine.map Path.text⟩ := by
  rcases Path.mapM_ofText_eq_ok.mp h with ⟨rfl, rfl⟩ | ⟨directory, q, rfl, rfl, hread⟩
  · rfl
  · rw [make]
    · rw [Path.normalize_eq_ok.mpr ⟨q, hread, rfl⟩]
      rfl
    · exact Path.ne_empty_of_ofText hread

theorem runOn_resolveRoot {text : String} (ht : Path.ofText text = .ok root) {node : Node}
    (hn : ns.node? root = some node) (s : σ) :
    (resolveRoot text : Check σ _).runOn onNamespace s ns =
      ((.ok ⟨root.text, node.kind⟩, s), ns) := by
  rw [resolveRoot, Check.runOn_bind, Path.normalize_eq_ok.mpr ⟨root, ht, rfl⟩,
    Check.runOn_ofPath_ok]
  dsimp only
  rw [Check.runOn_bind, Check.runOn_resolve (Path.valid_of_ofText ht), hn]
  rfl

theorem runOn_resolveRoot_none {text : String} (ht : Path.ofText text = .ok root)
    (hn : ns.node? root = none) (s : σ) :
    (resolveRoot text : Check σ _).runOn onNamespace s ns =
      ((.error (.pathNotFound text), s), ns) := by
  rw [resolveRoot, Check.runOn_bind, Path.normalize_eq_ok.mpr ⟨root, ht, rfl⟩,
    Check.runOn_ofPath_ok]
  dsimp only
  rw [Check.runOn_bind, Check.runOn_resolve (Path.valid_of_ofText ht), hn]
  rfl

/-- A walk with a root that is not there fails at once; else it tours all below it, or breaks
off. -/
theorem run_tour (hg : Gentle visit root quarantine I) {text : String}
    (ht : Path.ofText text = .ok root) (hq : ∀ q ∈ quarantine, q.Valid) (depth : Nat) {s : σ}
    {ns : Namespace} (hI : I s ns) :
    let ended := (run ⟨text, quarantine.map Path.text⟩ depth visit).runOn onNamespace s ns
    (ns.node? root = none ∧ ended = ((.error (.pathNotFound text), s), ns)) ∨
      BrokeOff I root depth ended ∨
      ∃ visited s' ns', ns.node? root ≠ none ∧ ended = ((.ok (), s'), ns') ∧
        Tour visit root quarantine I (root <+: ·) s ns visited s' ns' := by
  intro ended
  simp only [ended, run]
  cases hn : ns.node? root with
  | none =>
    rw [Check.runOn_bind, runOn_resolveRoot_none ht hn]
    exact .inl ⟨rfl, rfl⟩
  | some node =>
    right
    rw [Check.runOn_bind, runOn_resolveRoot ht hn]
    have hr := Path.valid_of_ofText ht
    rcases descend_tour hg hr hq depth hI hn (visible_root root quarantine node.kind) with
      hbroke | ⟨visited, s', ns', hrun, htour⟩
    · exact .inl hbroke
    · exact .inr ⟨visited, s', ns', by simp, hrun, htour⟩

end Descend

end BlockFsck.Walk
