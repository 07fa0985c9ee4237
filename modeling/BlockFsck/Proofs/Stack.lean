import BlockFsck.Proofs.Walk

/-!
# The walk as a loop

A walk by recursion and a walk by a loop over a stack of open directories ask the same questions in
the same order and make the same visits, whatever the service answers, as long as the recursion does
not break off for its depth (`runOpen_eq_run`).
-/

namespace BlockFsck.Walk

variable {σ τ : Type} {service : Metadata.Service (StateM τ)} {visit step : Entry → Check σ Unit}
  {root entry : Entry} {quarantine : Option String} {rest : List Entry} {stack : List (List Entry)}

/-- The step has not broken off for its depth. -/
def GoesThrough (ended : (Except Failure Unit × σ) × τ) : Prop :=
  ∀ path, ended.1.1 ≠ .error (.tooDeep path)

/-- The loop from the visit of an entry on. -/
def enter (visit : Entry → Check σ Unit) (root : Entry) (quarantine : Option String) (turns : ℕ)
    (stack : List (List Entry)) (entry : Entry) : Check σ Unit := do
  visit entry
  if entry.isDirectory then
    visitOpen visit root quarantine turns ((← childrenInOrder entry) :: stack)
  else visitOpen visit root quarantine turns stack

private theorem visitOpen_entry (turns : ℕ) :
    visitOpen visit root quarantine (turns + 1) ((entry :: rest) :: stack) = (do
      if ← Check.ofPath (isLeftOut root quarantine entry) then
        visitOpen visit root quarantine turns (rest :: stack)
      else enter visit root quarantine turns (rest :: stack) entry) := rfl

private theorem visitOpen_shown (h : isLeftOut root quarantine entry = .ok false) (turns : ℕ) :
    visitOpen visit root quarantine (turns + 1) ((entry :: rest) :: stack) =
      enter visit root quarantine turns (rest :: stack) entry := by
  rw [visitOpen_entry, h]
  rfl

private theorem unlessLeftOut_shown (h : isLeftOut root quarantine entry = .ok false) :
    unlessLeftOut root quarantine step entry = step entry := by
  rw [unlessLeftOut, h]
  rfl

/-- Where the step for an entry goes through, so does the loop after some turns, and then goes on
with what was on the stack. -/
def Entered (service : Metadata.Service (StateM τ)) (visit : Entry → Check σ Unit) (root : Entry)
    (quarantine : Option String) (step : Entry → Check σ Unit) : Prop :=
  ∀ entry s t, GoesThrough ((step entry).runOn service s t) → ∃ turns, ∀ more stack,
    (enter visit root quarantine (more + turns) stack entry).runOn service s t =
      (step entry >>= fun _ => visitOpen visit root quarantine more stack).runOn service s t

private theorem visitOpen_children (hstep : Entered service visit root quarantine step)
    (children : List Entry) (s : σ) (t : τ)
    (hthrough : GoesThrough
      ((children.forM (unlessLeftOut root quarantine step)).runOn service s t)) :
    ∃ turns, ∀ more stack,
      (visitOpen visit root quarantine (more + turns) (children :: stack)).runOn service s t =
        (children.forM (unlessLeftOut root quarantine step) >>= fun _ =>
          visitOpen visit root quarantine more stack).runOn service s t := by
  induction children generalizing s t with
  | nil => exact ⟨1, fun _ _ => rfl⟩
  | cons entry rest ih =>
    simp only [Check.runOn_bind, Check.runOn_forM_cons] at ih hthrough ⊢
    cases hleft : isLeftOut root quarantine entry with
    | error e =>
      refine ⟨1, fun more stack => ?_⟩
      rw [visitOpen_entry, unlessLeftOut, hleft]
      rfl
    | ok left =>
      cases left with
      | true =>
        rw [unlessLeftOut, hleft] at hthrough
        obtain ⟨turns, hturns⟩ := ih s t hthrough
        refine ⟨turns + 1, fun more stack => ?_⟩
        rw [← Nat.add_assoc, visitOpen_entry, unlessLeftOut, hleft]
        exact hturns more stack
      | false =>
        rw [unlessLeftOut_shown hleft] at hthrough ⊢
        have hentry := hstep entry s t
        simp only [Check.runOn_bind] at hentry
        rcases hended : (step entry).runOn service s t with ⟨⟨failure | _, s'⟩, t'⟩
        · rw [hended] at hthrough hentry
          obtain ⟨turns, hturns⟩ := hentry hthrough
          refine ⟨turns + 1, fun more stack => ?_⟩
          rw [← Nat.add_assoc, visitOpen_shown hleft]
          exact hturns more (rest :: stack)
        · rw [hended] at hthrough hentry
          obtain ⟨first, hfirst⟩ := hentry (by simp [GoesThrough])
          obtain ⟨others, hothers⟩ := ih s' t' hthrough
          refine ⟨others + first + 1, fun more stack => ?_⟩
          rw [← Nat.add_assoc, visitOpen_shown hleft, ← Nat.add_assoc, hfirst]
          exact hothers more stack

private theorem entered_descend (depth : ℕ) :
    Entered service visit root quarantine (descend visit root quarantine depth) := by
  induction depth with
  | zero => exact fun entry s t hthrough => absurd rfl (hthrough entry.path)
  | succ depth ih =>
    intro entry s t hthrough
    simp only [descend_succ, enter, Check.runOn_bind] at hthrough ⊢
    rcases hvisit : (visit entry).runOn service s t with ⟨⟨failure | _, s₁⟩, t₁⟩
    · exact ⟨0, fun _ _ => rfl⟩
    · rw [hvisit] at hthrough
      cases hkind : entry.isDirectory with
      | false => exact ⟨0, fun _ _ => rfl⟩
      | true =>
        rw [hkind] at hthrough
        simp only [if_true, Check.runOn_bind] at hthrough ⊢
        rcases hlisted : (childrenInOrder entry).runOn service s₁ t₁ with
          ⟨⟨failure | children, s₂⟩, t₂⟩
        · exact ⟨0, fun _ _ => rfl⟩
        · rw [hlisted] at hthrough
          obtain ⟨turns, hturns⟩ := visitOpen_children ih children s₂ t₂ hthrough
          refine ⟨turns, fun more stack => ?_⟩
          have hloop := hturns more stack
          rw [Check.runOn_bind] at hloop
          exact hloop

private theorem visitOpen_nil (turns : ℕ) :
    visitOpen visit root quarantine turns [] = pure () := by
  cases turns <;> rfl

private theorem runOpen_eq (walk : Walk) (turns : ℕ) :
    walk.runOpen turns visit = (do
      let root ← resolveRoot walk.root
      enter visit root walk.quarantine turns [] root) := by
  simp only [runOpen, enter, visitOpen_nil]

/-- The loop of enough turns is the walk. -/
theorem runOpen_eq_run (walk : Walk) (depth : ℕ) (s : σ) (t : τ)
    (hthrough : GoesThrough ((walk.run depth visit).runOn service s t)) :
    ∃ turns, ∀ more, (walk.runOpen (more + turns) visit).runOn service s t =
      (walk.run depth visit).runOn service s t := by
  simp only [run, Check.runOn_bind] at hthrough ⊢
  rcases hroot : (resolveRoot walk.root).runOn service s t with ⟨⟨failure | root, s'⟩, t'⟩
  · refine ⟨0, fun _ => ?_⟩
    rw [runOpen_eq, Check.runOn_bind, hroot]
  · rw [hroot] at hthrough
    obtain ⟨turns, hturns⟩ := entered_descend depth root s' t' hthrough
    refine ⟨turns, fun more => ?_⟩
    rw [runOpen_eq, Check.runOn_bind, hroot]
    have hloop := hturns more []
    rw [visitOpen_nil, bind_pure_unit] at hloop
    exact hloop

end BlockFsck.Walk
