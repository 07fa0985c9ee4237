import BlockFsck.Proofs.Checker.Discipline
import BlockFsck.Proofs.Checker.Run
import BlockFsck.Proofs.Remote.Query

/-!
# Remote runs

A check that asks over the wire comes to the result of one that asks the namespace itself, and
leaves it as that one does. Each of its queries is one request, and it never waits.
-/

namespace BlockFsck

open Metadata (onNamespace)

namespace Remote

/-- The service that a client has when its requests are delivered in the given way. -/
def Client.through {σ : Type} (c : Client) (deliver : Addressed → σ → Delivery × σ) :
    Metadata.Service (StateM (σ × Traffic)) where
  query q := (c.service.query q).run (answering deliver)
  log r := (c.service.log r).run (answering deliver)

theorem run_through {σ α : Type} (c : Client) (deliver : Addressed → σ → Delivery × σ)
    (p : Program Metadata α) (t : σ × Traffic) :
    ((p.run c.service.answer).run (answering deliver)).run t =
      (p.run (c.through deliver).answer).run t := by
  induction p generalizing t with
  | done result => rfl
  | ask question next ih =>
    refine (Exchange.run_bind_with (answering deliver) (c.service.answer question)
      (fun answer => (next answer).run c.service.answer) t).trans ?_
    rw [ih]
    cases question <;> rfl

variable {serve : Http.Request → Program Metadata Http.Response} {c : Client}

/-- The service that a client has over the wire, with what has passed over it. -/
def Client.overWire (c : Client) (serve : Http.Request → Program Metadata Http.Response) :
    Metadata.Service (StateM (Served × Traffic)) :=
  c.through (Served.deliverBy serve)

private theorem Linked.query {asked : List Query} {ns : Namespace} {s : Served × Traffic}
    (h : Linked asked ns s) (hserve : Interface serve c.room) {retries : Int}
    (hretries : c.settings.retries = .ok retries) (hnonneg : 0 ≤ retries) {q : Query}
    (hq : c.Carries q) :
    q.Alike ((onNamespace.query q).run ns).1 (((c.overWire serve).query q).run s).1 ∧
      Linked (asked ++ [q]) ((onNamespace.query q).run ns).2
        (((c.overWire serve).query q).run s).2 := by
  obtain ⟨id, s', hexchange, hlinked⟩ := h.exchange hserve hretries hnonneg hq
  obtain ⟨after, hrun, hsame⟩ := runOn_query c hexchange
  have hquery : ((c.overWire serve).query q).run s = _ := hrun
  rw [hquery]
  exact ⟨alike_answerTo hserve h.times q id, hlinked.of_same hsame⟩

/-- A run over the wire to any interface that a client understands has the result of a run on the
namespace behind it. -/
theorem run_agrees_of_interface (hserve : Interface serve c.room) {retries : Int}
    (hretries : c.settings.retries = .ok retries) (hnonneg : 0 ≤ retries) {ns after : Namespace}
    (htimes : ns.HasFiniteTimes) (o : Options) {depth : Nat} {result : Result}
    (hcarries : ∀ q ∈ (Checker.run o depth).asked onNamespace ns, c.Carries q)
    (hrun : (Checker.run o depth).run onNamespace.answer ns = (.ok result, after)) :
    ∃ traffic, runServedBy serve ((Checker.run o depth).run c.service.answer)
        { disturbed := .make ns [] } =
          (.ok result, { disturbed := ⟨after, [], (Checker.run o depth).asked onNamespace ns⟩ },
            traffic) ∧
      traffic.requests.map Addressed.request =
        numbered ((Checker.run o depth).asked onNamespace ns) ∧
      traffic.pauses = [] := by
  have hstart : Linked [] ns ({ disturbed := .make ns [] }, {}) := ⟨htimes, rfl, rfl, rfl, rfl⟩
  have hlog : ∀ {r : LogRecord} {asked : List Query} {ns : Namespace} {s : Served × Traffic},
      Linked asked ns s → Linked asked ((onNamespace.log r).run ns).2
        (((c.overWire serve).log r).run s).2 := by
    intro r asked ns s h
    exact h.of_same ⟨_, rfl⟩
  have hended : ((Checker.run o depth).run onNamespace.answer).run ns = (.ok result, after) := hrun
  have hgood : ¬ Checker.WasRefused
      (((Checker.run o depth).run onNamespace.answer).run ns).1 := by
    rw [hended]
    rintro ⟨failure, -, hfailure⟩
    cases hfailure
  -- `Linked` is what each query keeps; the induction over the program is in `run_agrees`
  obtain ⟨hresult, hlinked⟩ := (Checker.tolerant_run o depth).run_agrees
    (fun hq h => h.query hserve hretries hnonneg hq) hlog hcarries hstart hgood
  have hwire : runServedBy serve ((Checker.run o depth).run c.service.answer)
      { disturbed := .make ns [] } = ((Checker.run o depth).run (c.overWire serve).answer).run
        ({ disturbed := .make ns [] }, {}) := run_through c (Served.deliverBy serve) _ _
  rw [hended, List.nil_append] at hlinked
  rw [hended] at hresult
  rw [hwire]
  generalize ((Checker.run o depth).run (c.overWire serve).answer).run
    ({ disturbed := .make ns [] }, {}) = final at *
  obtain ⟨answer, served, traffic⟩ := final
  obtain ⟨-, hserved, hrequests, -, hpauses⟩ := hlinked
  dsimp only at hresult hserved hrequests hpauses
  subst hresult hserved
  exact ⟨traffic, rfl, hrequests, hpauses⟩

/-- Where the clock shows finite times and every request comes through, as with `Client.carries`, and
is sent at least once, a run over the wire has the result of a run on the namespace, if that has
one, with the same namespace afterwards. For each query it sends one request, and it does not pause.
-/
theorem remote_run_agrees {c : Client} {retries : Int}
    (hretries : c.settings.retries = .ok retries) (hnonneg : 0 ≤ retries)
    {blockSize defaultReplication : Int} {nodes : List String} {history : List Operation}
    (hclock : ∀ time, .setClock time ∈ history → time.toRat?.isSome = true) {ns after : Namespace}
    (hns : ns = (Namespace.empty blockSize defaultReplication nodes).after history) (o : Options)
    {depth : Nat} {result : Result}
    (hcarries : ∀ q ∈ (Checker.run o depth).asked onNamespace ns, c.Carries q)
    (hrun : (Checker.run o depth).run onNamespace.answer ns = (.ok result, after))
    (servedDepth room : Nat) :
    ∃ traffic, runServed servedDepth room ((Checker.run o depth).run c.service.answer)
        { disturbed := .make ns [] } =
          (.ok result, { disturbed := ⟨after, [], (Checker.run o depth).asked onNamespace ns⟩ },
            traffic) ∧
      traffic.requests.map Addressed.request =
        numbered ((Checker.run o depth).asked onNamespace ns) ∧
      traffic.pauses = [] := by
  have htimes : ns.HasFiniteTimes := by
    rw [hns]
    exact (Namespace.HasFiniteTimes.empty blockSize defaultReplication nodes).after hclock
  exact run_agrees_of_interface (interface_serve servedDepth room c.room) hretries hnonneg htimes o
    hcarries hrun

/-- A client of a service at the same host. -/
def localClient : Client where
  address := { host := "localhost", port := some 8000, path := "/" }
  settings := ⟨.int 3, .int 2⟩
  room := 1000

/-- A check over the wire that moves a corrupt file away. -/
theorem remote_run_agrees_of_move : ∃ result after traffic,
    (Checker.run { path := "/", move := true } 10).run onNamespace.answer
        (Namespace.oneCorruptFile none 4) = (.ok result, after) ∧
      runServed 10 1000 ((Checker.run { path := "/", move := true } 10).run localClient.service.answer)
        { disturbed := .make (Namespace.oneCorruptFile none 4) [] } =
          (.ok result, { disturbed := ⟨after, [], (Checker.run { path := "/", move := true } 10).asked
            onNamespace (Namespace.oneCorruptFile none 4)⟩ }, traffic) ∧
      traffic.requests.map Addressed.request =
        numbered ((Checker.run { path := "/", move := true } 10).asked onNamespace
          (Namespace.oneCorruptFile none 4)) ∧
      traffic.pauses = [] := by
  have hok : ((Checker.run { path := "/", move := true } 10).run onNamespace.answer
    (Namespace.oneCorruptFile none 4)).1.isOk = true := by decide +kernel
  obtain ⟨result, hrun⟩ := Checker.run_eq_of_isOk hok
  have hshort : ∀ q ∈ (Checker.run { path := "/", move := true } 10).asked onNamespace
      (Namespace.oneCorruptFile none 4), (Http.Parameters.text (requestOf q).query).length ≤
        Http.Address.maxLength := by decide +kernel
  have hcarries : ∀ q ∈ (Checker.run { path := "/", move := true } 10).asked onNamespace
      (Namespace.oneCorruptFile none 4), localClient.Carries q := by
    intro q hq
    exact Client.carries rfl rfl rfl (hshort q hq)
  have hretries : localClient.settings.retries = .ok 3 := rfl
  obtain ⟨traffic, hagrees⟩ := remote_run_agrees hretries (by decide) (by simp) rfl _ hcarries
    hrun 10 1000
  exact ⟨result, _, traffic, hrun, hagrees⟩

end Remote

end BlockFsck
