import BlockFsck.Proofs.Check

/-!
# Programs that tolerate another service

Two services may tell of a missing entry in different words, and one may answer what the other
refuses. A program is tolerant if it goes on alike after any failure that says that an entry is
missing and is over at once after a refusal: unless it is refused something by the first service,
it comes to the same result with the second.
-/

namespace BlockFsck

variable {α β : Type}

/-- The namespace refused, and not because the entry is missing. -/
def Failure.isRefusal : Failure → Bool
  | .namespaceRefused cause => cause.kind ≠ .entryNotFound
  | _ => false

theorem Failure.isRefusal_kind {failure : Failure} (h : failure.isRefusal = true) :
    failure.isMissing = false ∧ failure.kind ≠ .quarantine ∧ failure.kind ≠ .unavailable := by
  cases failure with
  | namespaceRefused cause =>
    cases cause <;> simp_all [isRefusal, isMissing, kind, NamespaceError.kind,
      FailureKind.isMissing]
  | _ => simp [isRefusal] at h

namespace Query

/-- The query fails where there is no entry. -/
def mayMiss : Query → Bool
  | .listChildren _ => true
  | .blockLocations _ => true
  | _ => false

/-- The answers of two services agree, as far as the first one has an answer. -/
inductive Alike (q : Query) : Except Failure q.Reply → Except Failure q.Reply → Prop
  | same (reply : q.Reply) : Alike q (.ok reply) (.ok reply)
  | missing {failure other : Failure} (hq : q.mayMiss = true) (hf : failure.isMissing = true)
      (ho : other.isMissing = true) : Alike q (.error failure) (.error other)
  | refused {failure : Failure} (hf : failure.isRefusal = true) (other : Except Failure q.Reply) :
      Alike q (.error failure) other

end Query

namespace Program

/-- The queries that a program asks of a service, in order. -/
def asked {τ : Type} (service : Metadata.Service (StateM τ)) : Program Metadata α → τ → List Query
  | .done _, _ => []
  | .ask (.query q) next, t =>
    q :: (next ((service.query q).run t).1).asked service ((service.query q).run t).2
  | .ask (.log r) next, t => (next ()).asked service ((service.log r).run t).2

section Query

variable {τ : Type} (service : Metadata.Service (StateM τ)) (q : Query)
  (next : Except Failure q.Reply → Program Metadata α) (t : τ)

private theorem asked_query : (Program.ask (I := Metadata) (.query q) next).asked service t =
    q :: (next ((service.query q).run t).1).asked service ((service.query q).run t).2 := rfl

theorem run_query : ((Program.ask (I := Metadata) (.query q) next).run service.answer).run t =
    ((next ((service.query q).run t).1).run service.answer).run ((service.query q).run t).2 := rfl

end Query

/-- After a refusal the program is over, with one of the `Broken` results, and after a failure that
says that an entry is missing it goes on in one way. -/
inductive Tolerant (Broken : α → Prop) : Program Metadata α → Prop
  | done (result : α) : Tolerant Broken (.done result)
  | log {r : LogRecord} {next : Unit → Program Metadata α} (hnext : Tolerant Broken (next ())) :
      Tolerant Broken (.ask (.log r) next)
  | query {q : Query} {next : Except Failure q.Reply → Program Metadata α}
      (hok : ∀ reply, Tolerant Broken (next (.ok reply)))
      (hrefused : ∀ failure, failure.isRefusal = true →
        ∃ result, Broken result ∧ next (.error failure) = .done result)
      (hmissing : q.mayMiss = true → ∀ failure, failure.isMissing = true →
        Tolerant Broken (next (.error failure)))
      (halike : q.mayMiss = true → ∀ failure other, failure.isMissing = true →
        other.isMissing = true → next (.error failure) = next (.error other)) :
      Tolerant Broken (.ask (.query q) next)

namespace Tolerant

variable {Broken : α → Prop} {Broken' : β → Prop} {p : Program Metadata α}

theorem bind {f : α → Program Metadata β} (hp : p.Tolerant Broken)
    (hf : ∀ result, (f result).Tolerant Broken')
    (hbroken : ∀ result, Broken result → ∃ ended, Broken' ended ∧ f result = .done ended) :
    (p.bind f).Tolerant Broken' := by
  have hover : ∀ {q : Program Metadata α}, (∃ result, Broken result ∧ q = .done result) →
      ∃ ended, Broken' ended ∧ q.bind f = .done ended := by
    rintro _ ⟨result, hresult, rfl⟩
    exact hbroken result hresult
  induction hp with
  | done result => exact hf result
  | log _ ih => exact .log ih
  | query _ hrefused _ halike ih ihmissing =>
    refine .query ih (fun failure hfailure => hover (hrefused failure hfailure)) ihmissing ?_
    intro hq failure other hf ho
    rw [halike hq failure other hf ho]

section Services

variable {τ υ : Type} {first : Metadata.Service (StateM τ)} {second : Metadata.Service (StateM υ)}

/-- Where the answers agree, query by query, a tolerant program comes to the same result with either
service. `Related` holds between the states of the services after the queries so far. -/
theorem run_agrees (hp : p.Tolerant Broken) {Allowed : Query → Prop}
    {Related : List Query → τ → υ → Prop}
    (hquery : ∀ {q asked t u}, Allowed q → Related asked t u →
      q.Alike ((first.query q).run t).1 ((second.query q).run u).1 ∧
        Related (asked ++ [q]) ((first.query q).run t).2 ((second.query q).run u).2)
    (hlog : ∀ {r asked t u}, Related asked t u →
      Related asked ((first.log r).run t).2 ((second.log r).run u).2)
    {asked : List Query} {t : τ} {u : υ} (hallowed : ∀ q ∈ p.asked first t, Allowed q)
    (hrelated : Related asked t u) (hgood : ¬ Broken ((p.run first.answer).run t).1) :
    ((p.run second.answer).run u).1 = ((p.run first.answer).run t).1 ∧
      Related (asked ++ p.asked first t) ((p.run first.answer).run t).2
        ((p.run second.answer).run u).2 := by
  induction hp generalizing asked t u with
  | done result =>
    rw [Program.asked, List.append_nil]
    exact ⟨rfl, hrelated⟩
  | log _ ih => exact ih hallowed (hlog hrelated) hgood
  | @query q next _ hrefused _ halike ih ihmissing =>
    obtain ⟨hnow, hlater⟩ := List.forall_mem_cons.mp hallowed
    obtain ⟨hanswers, hnext⟩ := hquery hnow hrelated
    rw [asked_query, List.append_cons]
    rw [run_query] at hgood
    rw [run_query, run_query]
    generalize (first.query q).run t = answered at *
    generalize (second.query q).run u = answered' at *
    obtain ⟨answer, t'⟩ := answered
    obtain ⟨answer', u'⟩ := answered'
    dsimp only at *
    cases hanswers with
    | same reply => exact ih reply hlater hnext hgood
    | @missing failure other hq hf ho =>
      rw [halike hq other failure ho hf]
      exact ihmissing hq failure hf hlater hnext hgood
    | refused hf =>
      obtain ⟨result, hbroken, hdone⟩ := hrefused _ hf
      rw [hdone] at hgood
      exact absurd hbroken hgood

end Services

end Tolerant

end Program

end BlockFsck
