import BlockFsck.Proofs.Tolerance

/-!
# Programs that stop at a failure

A failure of the service may say that an entry is missing, and a refusal to move or delete a file
is dealt with file by file. All other failures are fatal. A program is disciplined if it ends at
once with a fatal failure, whatever it has asked before, and goes on alike after any failure that
says that an entry is missing. Disciplined programs are tolerant.
-/

namespace BlockFsck

variable {α β : Type}

/-- A failure that no step of a check deals with. -/
def Failure.isFatal (failure : Failure) : Bool :=
  !failure.isMissing && failure.kind ≠ .quarantine

theorem Failure.isFatal_iff {failure : Failure} :
    failure.isFatal = true ↔ failure.isMissing = false ∧ failure.kind ≠ .quarantine := by
  simp [isFatal]

private theorem Failure.isFatal_of_isRefusal {failure : Failure} (h : failure.isRefusal = true) :
    failure.isFatal = true :=
  isFatal_iff.mpr ⟨(isRefusal_kind h).1, (isRefusal_kind h).2.1⟩

namespace Program

/-- The failures in which the queries of a program end, in order. -/
def raised {τ : Type} (service : Metadata.Service (StateM τ)) :
    Program Metadata α → τ → List Failure
  | .done _, _ => []
  | .ask (.query q) next, t =>
    failures ((service.query q).run t).1 ++
      (next ((service.query q).run t).1).raised service ((service.query q).run t).2
  | .ask (.log r) next, t => (next ()).raised service ((service.log r).run t).2
where
  failures {β : Type} : Except Failure β → List Failure
    | .ok _ => []
    | .error failure => [failure]

theorem raised_query {τ : Type} (service : Metadata.Service (StateM τ)) (q : Query)
    (next : Except Failure q.Reply → Program Metadata α) (t : τ) :
    (Program.ask (I := Metadata) (.query q) next).raised service t =
      raised.failures ((service.query q).run t).1 ++
        (next ((service.query q).run t).1).raised service ((service.query q).run t).2 := rfl

/-- After a fatal failure the program is over, with a result that is `Broken` by it, and after a
failure that says that an entry is missing it goes on in one way. -/
inductive Disciplined (Broken : Failure → α → Prop) : Program Metadata α → Prop
  | done (result : α) : Disciplined Broken (.done result)
  | log {r : LogRecord} {next : Unit → Program Metadata α}
      (hnext : Disciplined Broken (next ())) : Disciplined Broken (.ask (.log r) next)
  | query {q : Query} {next : Except Failure q.Reply → Program Metadata α}
      (hok : ∀ reply, Disciplined Broken (next (.ok reply)))
      (hfatal : ∀ failure, failure.isFatal = true →
        ∃ result, Broken failure result ∧ next (.error failure) = .done result)
      (hmissing : ∀ failure, failure.isMissing = true →
        Disciplined Broken (next (.error failure)))
      (halike : q.mayMiss = true → ∀ failure other, failure.isMissing = true →
        other.isMissing = true → next (.error failure) = next (.error other)) :
      Disciplined Broken (.ask (.query q) next)

namespace Disciplined

variable {Broken : Failure → α → Prop} {Broken' : Failure → β → Prop} {p : Program Metadata α}

theorem bind {f : α → Program Metadata β} (hp : p.Disciplined Broken)
    (hf : ∀ result, (f result).Disciplined Broken')
    (hbroken : ∀ failure result, failure.isFatal = true → Broken failure result →
      ∃ ended, Broken' failure ended ∧ f result = .done ended) :
    (p.bind f).Disciplined Broken' := by
  induction hp with
  | done result => exact hf result
  | log _ ih => exact .log ih
  | @query q next _ hfatal _ halike ih ihmissing =>
    refine .query ih (fun failure hfailure => ?_) ihmissing ?_
    · obtain ⟨result, hresult, hdone⟩ := hfatal failure hfailure
      obtain ⟨ended, hended, hover⟩ := hbroken failure result hfailure hresult
      exact ⟨ended, hended, by rw [hdone, bind_done, hover]⟩
    · intro hq failure other hf ho
      rw [halike hq failure other hf ho]

theorem tolerant {Refused : α → Prop} (hp : p.Disciplined Broken)
    (hbroken : ∀ failure result, failure.isRefusal = true → Broken failure result →
      Refused result) : p.Tolerant Refused := by
  induction hp with
  | done result => exact .done result
  | log _ ih => exact .log ih
  | query _ hfatal _ halike ih ihmissing =>
    refine .query ih (fun failure hfailure => ?_) (fun _ => ihmissing) halike
    obtain ⟨result, hresult, hdone⟩ := hfatal failure (Failure.isFatal_of_isRefusal hfailure)
    exact ⟨result, hbroken failure result hfailure hresult, hdone⟩

/-- A fatal failure in which a query ends breaks the result. Services do not refuse to move or
delete a file in the words of a check. -/
theorem broken_of_raised {τ : Type} {service : Metadata.Service (StateM τ)}
    (hservice : ∀ q t failure, ((service.query q).run t).1 = .error failure →
      failure.kind ≠ .quarantine)
    (hp : p.Disciplined Broken) {t : τ} {failure : Failure} (hraised : failure ∈ p.raised service t)
    (hmissing : failure.isMissing = false) : Broken failure ((p.run service.answer).run t).1 := by
  induction hp generalizing t with
  | done result => cases hraised
  | log _ ih => exact ih hraised
  | @query q next _ hfatal _ _ ih ihmissing =>
    have hkind := hservice q t
    rw [raised_query] at hraised
    rw [run_query]
    generalize (service.query q).run t = answered at *
    obtain ⟨answer, t'⟩ := answered
    cases answer with
    | ok reply => exact ih reply hraised
    | error now =>
      dsimp only at hraised hkind ⊢
      rw [raised.failures, List.singleton_append, List.mem_cons] at hraised
      cases hnow : now.isMissing with
      | true =>
        -- the fatal failure is a later one
        rcases hraised with rfl | hlater
        · rw [hmissing] at hnow
          cases hnow
        · exact ihmissing now hnow hlater
      | false =>
        obtain ⟨result, hresult, hdone⟩ :=
          hfatal now (Failure.isFatal_iff.mpr ⟨hnow, hkind now rfl⟩)
        rw [hdone] at hraised ⊢
        obtain rfl : failure = now := hraised.resolve_right List.not_mem_nil
        exact hresult

end Disciplined

end Program

namespace Check

variable {σ : Type}

/-- The step is disciplined whatever state it starts from: a fatal failure is how it ends. -/
def Disciplined (step : Check σ α) : Prop :=
  ∀ s, (step.start s).Disciplined fun failure ended => ended.1 = .error failure

namespace Disciplined

theorem pure (a : α) : (pure a : Check σ α).Disciplined := fun s => .done (Except.ok a, s)

theorem throw (failure : Failure) : (throw failure : Check σ α).Disciplined :=
  fun s => .done (Except.error failure, s)

theorem get : (get : Check σ σ).Disciplined := fun s => .done (Except.ok s, s)

theorem modify (f : σ → σ) : (modify f : Check σ Unit).Disciplined :=
  fun s => .done (Except.ok (), f s)

theorem log (r : LogRecord) : (log r : Check σ Unit).Disciplined := fun _ => .log (.done _)

theorem ofPath (x : Except PathError α) : (ofPath x : Check σ α).Disciplined := by
  cases x with
  | error e => exact throw _
  | ok a => exact pure a

theorem bind {step : Check σ α} {next : α → Check σ β} (hstep : step.Disciplined)
    (hnext : ∀ a, (next a).Disciplined) : (step >>= next).Disciplined := by
  intro s
  rw [start_bind]
  apply (hstep s).bind
  · rintro ⟨failure | a, s'⟩
    · exact .done _
    · exact hnext a s'
  · intro failure ⟨ended, s'⟩ _ hended
    obtain rfl : ended = .error failure := hended
    exact ⟨_, rfl, rfl⟩

theorem forM {γ : Type} {visit : γ → Check σ Unit} (hvisit : ∀ x, (visit x).Disciplined)
    (xs : List γ) : (xs.forM visit).Disciplined := by
  induction xs with
  | nil => exact pure ()
  | cons x xs ih => exact (hvisit x).bind fun _ => ih

theorem query {q : Query} (hq : q.mayMiss = false) : (query q : Check σ q.Reply).Disciplined := by
  intro s
  refine .query (fun reply => .done _) (fun failure _ => ⟨_, rfl, rfl⟩)
    (fun failure _ => .done _) ?_
  intro hmay
  simp [hq] at hmay

/-- A query with a default value for what is missing. -/
theorem lookup (q : Query) (f : q.Reply → α) (default : α) :
    (orIfMissing (f <$> Check.query q) default : Check σ α).Disciplined := by
  intro s
  -- all that is needed of what follows the query is what it makes of the two kinds of answers
  obtain ⟨next, hstart, hok, herror⟩ : ∃ next,
      (orIfMissing (f <$> Check.query q) default : Check σ α).start s = .ask (.query q) next ∧
      (∀ reply, next (.ok reply) = .done (.ok (f reply), s)) ∧
      ∀ failure, next (.error failure) =
        .done (if failure.isMissing then .ok default else .error failure, s) := by
    refine ⟨_, rfl, fun reply => rfl, fun failure => ?_⟩
    change (if failure.isMissing then return default else MonadExcept.throw failure :
      Check σ α).start s = _
    split_ifs <;> rfl
  rw [hstart]
  refine .query (fun reply => ?_) (fun failure hfailure => ?_) (fun failure _ => ?_)
    (fun _ failure other hf ho => ?_)
  · rw [hok]
    exact .done _
  · rw [herror, (Failure.isFatal_iff.mp hfailure).1]
    exact ⟨_, rfl, rfl⟩
  · rw [herror]
    exact .done _
  · rw [herror, herror, hf, ho]
    rfl

end Disciplined

end Check

end BlockFsck
