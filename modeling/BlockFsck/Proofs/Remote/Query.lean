import BlockFsck.Proofs.Http.Address
import BlockFsck.Proofs.Namespace.Times
import BlockFsck.Proofs.Remote.Interface
import BlockFsck.Proofs.Tolerance
import BlockFsck.Remote.Transport

/-!
# Queries over the wire

One query of a remote client against the HTTP interface of a namespace is one request, sent without
a pause, and its answer agrees with that of the namespace itself.
-/

namespace BlockFsck.Remote

open Http (sentFor respond)
open Metadata (onNamespace)

namespace Exchange

variable {σ α β : Type}

section Answering

variable (answer : (q : WireRequest) → StateM σ (Wire.Answer q))

/-- What an exchange comes to with its questions answered in the given way. -/
def runWith (step : Exchange α) (s : σ) : Except Failure α × σ := (step.run.run answer).run s

theorem run_bind_with (p : Program Wire α) (f : α → Program Wire β) (s : σ) :
    ((p.bind f).run answer).run s =
      ((f ((p.run answer).run s).1).run answer).run ((p.run answer).run s).2 :=
  congrArg (fun m : StateM σ β => m.run s) (Program.run_bind (I := Wire) answer p f)

theorem runWith_bind (step : Exchange α) (next : α → Exchange β) (s : σ) :
    runWith answer (step >>= next) s = match runWith answer step s with
      | (.ok a, s') => runWith answer (next a) s'
      | (.error failure, s') => (.error failure, s') := by
  have hrun : runWith answer (step >>= next) s =
      ((ExceptT.bindCont next (runWith answer step s).1).run answer).run
        (runWith answer step s).2 := run_bind_with answer step.run _ s
  rw [hrun]
  rcases runWith answer step s with ⟨failure | a, s'⟩ <;> rfl

theorem runWith_lift (x : Except Failure α) (s : σ) :
    runWith answer (ExceptT.mk (pure x)) s = (x, s) := rfl

end Answering

variable (deliver : Addressed → σ → Delivery × σ)

/-- What an exchange comes to with requests delivered in the given way. -/
def runOn (step : Exchange α) (s : σ × Traffic) : Except Failure α × σ × Traffic :=
  (step.run.run (answering deliver)).run s

theorem runOn_bind (step : Exchange α) (next : α → Exchange β) (s : σ × Traffic) :
    runOn deliver (step >>= next) s = match runOn deliver step s with
      | (.ok a, s') => runOn deliver (next a) s'
      | (.error failure, s') => (.error failure, s') := by
  have hwith : ∀ {γ : Type} (step : Exchange γ) (s : σ × Traffic),
      runOn deliver step s = runWith (answering deliver) step s := fun _ _ => rfl
  rw [hwith, runWith_bind, hwith]
  rcases runWith (answering deliver) step s with ⟨failure | a, s'⟩ <;> rfl

theorem runOn_tryCatch (step : Exchange α) (handle : Failure → Exchange α) (s : σ × Traffic) :
    runOn deliver (tryCatch step handle) s = match runOn deliver step s with
      | (.ok a, s') => (.ok a, s')
      | (.error failure, s') => runOn deliver (handle failure) s' := by
  -- what follows the step matches on how it ended, and these two equations are all of it
  obtain ⟨next, hnext, hok, herror⟩ : ∃ next : Except Failure α → Program Wire (Except Failure α),
      (tryCatch step handle : Exchange α).run = step.run.bind next ∧
      (∀ a, next (.ok a) = .done (.ok a)) ∧
      ∀ failure, next (.error failure) = (handle failure).run :=
    ⟨_, rfl, fun a => rfl, fun failure => rfl⟩
  have hrun : runOn deliver (tryCatch step handle) s =
      ((next (runOn deliver step s).1).run (answering deliver)).run (runOn deliver step s).2 := by
    rw [runOn, hnext]
    exact run_bind_with (answering deliver) step.run next s
  rw [hrun]
  rcases runOn deliver step s with ⟨failure | a, s'⟩
  · dsimp only
    rw [herror]
    rfl
  · dsimp only
    rw [hok]
    rfl

theorem runOn_lift (x : Except Failure α) (s : σ × Traffic) :
    runOn deliver (ExceptT.mk (pure x)) s = (x, s) := rfl

end Exchange

section Sending

variable {σ : Type} {deliver : Addressed → σ → Delivery × σ} {s s' : σ}

theorem runOn_send (traffic : Traffic) {request : Addressed} {outcome : Delivery}
    (hdeliver : deliver request s = (outcome, s')) :
    (Exchange.send request).runOn deliver (s, traffic) =
      (.ok outcome, s', { traffic with requests := traffic.requests ++ [request] }) := by
  change (Except.ok (deliver request s).1, (deliver request s).2, _) = _
  rw [hdeliver]

/-- The first attempt that is answered without a server error is the last one. -/
theorem runOn_attempts (room : Nat) (settings : RetrySettings) (label : String) {request : Addressed}
    {response : Http.Response} (hdeliver : deliver request s = (.ok response, s'))
    (hstatus : response.status < 500) (id : String) (total : Int) (attempt left : Nat)
    (last : LastAttempt) (traffic : Traffic) :
    (attempts room settings label (.ok request) id total attempt last (left + 1)).runOn deliver
        (s, traffic) =
      (.ok response, s', { traffic with requests := traffic.requests ++ [request] }) := by
  rw [attempts, Exchange.runOn_bind, Exchange.runOn_lift]
  dsimp only
  rw [Exchange.runOn_bind, runOn_send traffic hdeliver]
  dsimp only
  rw [if_pos hstatus]
  rfl

/-- A request is attempted under a new id. -/
theorem Client.runOn_exchange_attempts (c : Client) {retries : Int}
    (hretries : c.settings.retries = .ok retries) {request : Http.Request} {traffic : Traffic}
    {addressed : Except Failure Addressed}
    (haddressed : c.addressed request s!"rid-{traffic.ids + 1}" = addressed) (s : σ) :
    (c.exchange request).runOn deliver (s, traffic) =
      (attempts c.room c.settings s!"{request.method} {request.path}" addressed
        s!"rid-{traffic.ids + 1}" (retries + 1) 0 .none (retries + 1).toNat).runOn deliver
          (s, { traffic with ids := traffic.ids + 1 }) := by
  have hid : Exchange.freshId.runOn deliver (s, traffic) =
      (.ok s!"rid-{traffic.ids + 1}", s, { traffic with ids := traffic.ids + 1 }) := rfl
  rw [exchange, Exchange.runOn_bind, hid]
  dsimp only
  rw [Exchange.runOn_bind, Exchange.runOn_lift, hretries]
  dsimp only
  rw [haddressed]

/-- A request that reaches the service is answered at once. -/
theorem Client.runOn_exchange (c : Client) {retries : Int}
    (hretries : c.settings.retries = .ok retries) (hnonneg : 0 ≤ retries) {request : Http.Request}
    {traffic : Traffic} {addressed : Addressed} {response : Http.Response}
    (haddressed : c.addressed request s!"rid-{traffic.ids + 1}" = .ok addressed)
    (hdeliver : deliver addressed s = (.ok response, s')) (hstatus : response.status < 500) :
    (c.exchange request).runOn deliver (s, traffic) =
      (.ok response, s', { traffic with
        requests := traffic.requests ++ [addressed], ids := traffic.ids + 1 }) := by
  have hleft : (retries + 1).toNat = retries.toNat + 1 := by omega
  rw [c.runOn_exchange_attempts hretries haddressed, hleft,
    runOn_attempts _ _ _ hdeliver hstatus]

end Sending

/-- The request of the query comes through: its address is sound, and the service sees the path and
the parameters in it as they were given. -/
def Client.Carries (c : Client) (q : Query) : Prop :=
  ∃ address, (c.address.below (requestOf q).path).bind (·.asking (requestOf q).query) =
      .ok address ∧
    address.plainPath = (requestOf q).path ∧ address.parameters = (requestOf q).query

private theorem isPlain_requestOf (q : Query) : Http.Address.IsPlain (requestOf q).path := by
  cases q <;> simp only [requestOf] <;> constructor <;> decide +kernel

private theorem names_requestOf (q : Query) : ((requestOf q).query.map Prod.fst).Nodup := by
  cases q with
  | delete path recursive => cases recursive <;> simp [requestOf]
  | _ => simp [requestOf]

/-- Requests to a host come through as long as their texts are not too long for an address. -/
theorem Client.carries {c : Client} (hroot : c.address.location = "/")
    (hquery : c.address.query = none) (hchecked : c.address.checked = .ok c.address) {q : Query}
    (hshort : (Http.Parameters.text (requestOf q).query).length ≤ Http.Address.maxLength) :
    c.Carries q := by
  have hplain := isPlain_requestOf q
  have hbelow := Http.Address.below_eq hroot hquery hchecked hplain
  have htarget := Http.Address.checked_at hchecked hplain.short
  obtain ⟨address, hasking, hpath, hparameters⟩ :=
    Http.Address.asking_eq htarget hquery (names_requestOf q) hshort
  refine ⟨address, ?_, hplain.plainPath hpath, hparameters⟩
  rw [hbelow]
  exact hasking

theorem Client.addressed_eq {c : Client} {request : Http.Request} {address : Http.Address}
    (h : (c.address.below request.path).bind (·.asking request.query) = .ok address)
    (id : String) : c.addressed request id = .ok ⟨address, request.labelled id⟩ := by
  have htarget : (do (← c.address.below request.path).asking request.query) = Except.ok address := h
  rw [Client.addressed, htarget]
  rfl

/-- The requests of queries, each under the id of its number. -/
def numbered (asked : List Query) : List Http.Request :=
  asked.mapIdx fun i q => (requestOf q).labelled s!"rid-{i + 1}"

/-- The namespace is behind the wire, over which one request has gone for each query so far. -/
structure Linked (asked : List Query) (ns : Namespace) (s : Served × Traffic) : Prop where
  times : ns.HasFiniteTimes
  served : s.1 = { disturbed := ⟨ns, [], asked⟩ }
  requests : s.2.requests.map Addressed.request = numbered asked
  ids : s.2.ids = asked.length
  pauses : s.2.pauses = []

variable {asked : List Query} {ns : Namespace} {s : Served × Traffic}

variable {serve : Http.Request → Program Metadata Http.Response} {room : Nat}

theorem deliver_query (hserve : Interface serve room) {q : Query} (id : String)
    {address : Http.Address}
    (hpath : address.plainPath = (requestOf q).path)
    (hquery : address.parameters = (requestOf q).query) (asked : List Query) (ns : Namespace) :
    Served.deliverBy serve ⟨address, (requestOf q).labelled id⟩ { disturbed := ⟨ns, [], asked⟩ } =
      (.ok (sentFor ((requestOf q).labelled id)
          (((onNamespace.query q).run ns).1.bind (respond q))),
        { disturbed := ⟨((onNamespace.query q).run ns).2, [], asked ++ [q]⟩ }) := by
  have hat : ((requestOf q).labelled id).at address = (requestOf q).labelled id := by
    rw [Http.Request.at, hpath, hquery]
    rfl
  rw [Served.deliverBy]
  dsimp only
  rw [hat, Disturbed.run, hserve.asks]
  rfl

section Refused

variable {cause : NamespaceError}

private theorem kind_of_readPath {text : String} (h : Namespace.readPath text = .error cause) :
    cause.kind = .invalidPath := by
  rw [Namespace.readPath] at h
  cases hp : Path.ofText text with
  | error e =>
    rw [hp] at h
    cases h
    rfl
  | ok path =>
    rw [hp] at h
    cases h

private theorem kind_of_resolve {text : String} (h : ns.resolve text = .error cause) :
    cause.kind = .invalidPath := by
  rw [Namespace.resolve] at h
  cases hp : Namespace.readPath text with
  | error e =>
    rw [hp] at h
    cases h
    exact kind_of_readPath hp
  | ok path =>
    rw [hp] at h
    cases h

private theorem kind_of_rename {source target : String}
    (h : ((Namespace.rename source target).run ns).1 = .error cause) :
    cause.kind = .invalidPath := by
  rw [Namespace.run_rename] at h
  cases hs : Namespace.readPath source with
  | error e =>
    rw [hs] at h
    cases h
    exact kind_of_readPath hs
  | ok source =>
    cases ht : Namespace.readPath target with
    | error e =>
      rw [hs, ht] at h
      cases h
      exact kind_of_readPath ht
    | ok target =>
      rw [hs, ht] at h
      dsimp only at h
      split_ifs at h

private theorem makeDirectories_ok (ns : Namespace) (base : Path) (names : List String) :
    ∃ made, ((Namespace.makeDirectories base names).run ns).1 = .ok made := by
  induction names generalizing ns base with
  | nil => exact ⟨true, rfl⟩
  | cons name rest ih =>
    rw [Namespace.run_makeDirectories_cons]
    rcases ns.node? (base ++ [name]) with _ | _ | content
    · exact ih _ _
    · exact ih _ _
    · exact ⟨false, rfl⟩

private theorem kind_of_mkdirs {text : String}
    (h : ((Namespace.mkdirs text).run ns).1 = .error cause) :
    cause.kind = .invalidPath := by
  rw [Namespace.mkdirs, Namespace.run_bind, Namespace.run_look] at h
  cases hp : Namespace.readPath text with
  | error e =>
    rw [hp] at h
    cases h
    exact kind_of_readPath hp
  | ok path =>
    obtain ⟨made, hmade⟩ := makeDirectories_ok ns [] path
    rw [hp] at h
    dsimp only at h
    rw [hmade] at h
    cases h

private theorem kind_of_delete {text : String} {recursive : Bool}
    (h : ((Namespace.delete text recursive).run ns).1 = .error cause) :
    cause.kind = .invalidPath := by
  rw [Namespace.run_delete] at h
  cases hp : Namespace.readPath text with
  | error e =>
    rw [hp] at h
    cases h
    exact kind_of_readPath hp
  | ok path =>
    rw [hp] at h
    dsimp only at h
    split_ifs at h

private theorem kind_of_refused {q : Query} (hq : q.mayMiss = false)
    (h : (q.onNamespace.run ns).1 = .error cause) : cause.kind = .invalidPath := by
  cases q with
  | listChildren path => cases hq
  | blockLocations path => cases hq
  | resolve path =>
    rw [Query.onNamespace, Namespace.run_look] at h
    cases hr : ns.resolve path with
    | error e =>
      rw [hr] at h
      cases h
      exact kind_of_resolve hr
    | ok entry =>
      rw [hr] at h
      cases h
  | rename source target => exact kind_of_rename h
  | mkdirs path => exact kind_of_mkdirs h
  | delete path recursive => exact kind_of_delete h
  | corruptFiles => cases h

end Refused

private theorem answer_cases (q : Query) (ns : Namespace) :
    (∃ reply, ((onNamespace.query q).run ns).1 = .ok reply) ∨
    ∃ cause, ((onNamespace.query q).run ns).1 = .error (.namespaceRefused cause) ∧
      (cause.kind = .entryNotFound → q.mayMiss = true) := by
  have hmapped : ((onNamespace.query q).run ns).1 =
      (q.onNamespace.run ns).1.mapError .namespaceRefused := rfl
  rw [hmapped]
  cases hanswer : (q.onNamespace.run ns).1 with
  | ok reply => exact .inl ⟨reply, rfl⟩
  | error cause =>
    refine .inr ⟨cause, rfl, ?_⟩
    intro hkind
    by_contra hq
    rw [kind_of_refused (by simpa using hq) hanswer] at hkind
    cases hkind

private theorem status_refused (r : Http.Request) (cause : NamespaceError) :
    (sentFor r (.error (.namespaceRefused cause))).status < 500 ∧
      (sentFor r (.error (.namespaceRefused cause))).status ≠ 200 ∧
      (cause.kind = .entryNotFound →
        (sentFor r (.error (.namespaceRefused cause))).status = 404) := by
  cases cause <;> simp [sentFor, Http.errorResponse?, Http.errorCode?, Failure.kind,
    NamespaceError.kind, Http.tagged, Http.Response.json]

private theorem status_answered (r : Http.Request) (q : Query) (ns : Namespace) :
    (sentFor r (((onNamespace.query q).run ns).1.bind (respond q))).status < 500 := by
  rcases answer_cases q ns with ⟨reply, hreply⟩ | ⟨cause, hcause, -⟩
  · have hsuccess : (200 : Int) < 500 := by decide
    rw [hreply]
    cases q with
    | resolve path =>
      cases reply with
      | some entry => exact hsuccess
      | none => exact (status_refused r (.notFound path)).1
    | _ => exact hsuccess
  · rw [hcause]
    exact (status_refused r cause).1

theorem Linked.exchange (h : Linked asked ns s) {c : Client} (hserve : Interface serve room)
    {retries : Int} (hretries : c.settings.retries = .ok retries) (hnonneg : 0 ≤ retries)
    {q : Query} (hq : c.Carries q) :
    ∃ id s', (c.exchange (requestOf q)).runOn (Served.deliverBy serve) s =
        (.ok (sentFor ((requestOf q).labelled id)
          (((onNamespace.query q).run ns).1.bind (respond q))), s') ∧
      Linked (asked ++ [q]) ((onNamespace.query q).run ns).2 s' := by
  obtain ⟨served, traffic⟩ := s
  obtain ⟨htimes, hserved, hrequests, hids, hpauses⟩ := h
  dsimp only at hserved hrequests hids hpauses
  subst hserved
  obtain ⟨address, haddress, hpath, hquery⟩ := hq
  have haddressed := Client.addressed_eq haddress s!"rid-{traffic.ids + 1}"
  have hdeliver := deliver_query hserve s!"rid-{traffic.ids + 1}" hpath hquery asked ns
  refine ⟨_, _, c.runOn_exchange hretries hnonneg haddressed hdeliver (status_answered _ q ns),
    htimes.query q, rfl, ?_, ?_, hpauses⟩
  · dsimp only
    rw [List.map_append, hrequests, numbered, numbered, List.mapIdx_concat, hids]
    rfl
  · dsimp only
    rw [hids, List.length_append]
    rfl

/-! ## Reading responses -/

section Reading

variable {σ α : Type} {deliver : Addressed → σ → Delivery × σ} {t t' : σ × Traffic}
  {response : Http.Response} {q : Query} (c : Client)

private theorem runOn_fetch
    (hexchange : (c.exchange (requestOf q)).runOn deliver t = (.ok response, t'))
    (path : Option String) (form : Json.AnswerForm α) :
    (c.fetch q path form).runOn deliver t =
      ((fetched c.room path response).bind (answerIn c.room form), t') := by
  rw [Client.fetch, Exchange.runOn_bind, hexchange]
  rfl

/-- Of what has passed over the wire only the log is longer. -/
def SameTraffic (t t' : σ × Traffic) : Prop := ∃ log, t' = (t.1, { t.2 with log })

theorem runOn_change
    (hexchange : (c.exchange (requestOf q)).runOn deliver t = (.ok response, t')) :
    ∃ after, (c.change q).runOn deliver t = (answerTo.changed c.room response, after) ∧
      SameTraffic t' after := by
  rw [Client.change, Exchange.runOn_bind, hexchange, answerTo.changed]
  dsimp only
  split_ifs
  · exact ⟨t', rfl, t'.2.log, rfl⟩
  · rw [Exchange.runOn_bind, Exchange.runOn_lift]
    cases describe c.room response with
    | error failure => exact ⟨t', rfl, t'.2.log, rfl⟩
    | ok reason => exact ⟨_, rfl, _, rfl⟩

theorem runOn_query
    (hexchange : (c.exchange (requestOf q)).runOn deliver t = (.ok response, t')) :
    ∃ after, (c.query q).runOn deliver t = (answerTo c.room q response, after) ∧
      SameTraffic t' after := by
  have hsame : SameTraffic t' t' := ⟨t'.2.log, rfl⟩
  cases q with
  | resolve path =>
    refine ⟨t', ?_, hsame⟩
    rw [Client.query, Exchange.runOn_tryCatch, map_eq_pure_bind, Exchange.runOn_bind,
      runOn_fetch c hexchange, answerTo]
    cases (fetched c.room (some path) response).bind (answerIn c.room Json.entryForm) with
    | ok entry => rfl
    | error failure =>
      dsimp only
      split_ifs <;> rfl
  | listChildren path => exact ⟨t', runOn_fetch c hexchange _ _, hsame⟩
  | blockLocations path => exact ⟨t', runOn_fetch c hexchange _ _, hsame⟩
  | rename source target => exact runOn_change c hexchange
  | mkdirs path => exact runOn_change c hexchange
  | delete path recursive => exact runOn_change c hexchange
  | corruptFiles => exact ⟨t', runOn_fetch c hexchange _ _, hsame⟩

end Reading

theorem Linked.of_same {s' : Served × Traffic} (h : Linked asked ns s) (hsame : SameTraffic s s') :
    Linked asked ns s' := by
  obtain ⟨log, rfl⟩ := hsame
  exact ⟨h.times, h.served, h.requests, h.ids, h.pauses⟩

private theorem modified_of_blockLocations (h : ns.HasFiniteTimes) {path : String}
    {record : FileRecord}
    (hrecord : ns.blockLocations path = .ok record) : record.modified.toRat?.isSome = true := by
  rw [Namespace.blockLocations] at hrecord
  cases hf : ns.findFile path with
  | error e =>
    rw [hf] at hrecord
    cases hrecord
  | ok found =>
    obtain ⟨path, content⟩ := found
    rw [hf] at hrecord
    cases hrecord
    exact h.files (Namespace.findFile_eq_ok.mp hf).2

private theorem isSendable_of_answer (htimes : ns.HasFiniteTimes) {q : Query} {reply : q.Reply}
    (hreply : ((onNamespace.query q).run ns).1 = .ok reply) : IsSendable q reply := by
  cases q with
  | blockLocations path =>
    have hmapped : (ns.blockLocations path).mapError Failure.namespaceRefused = .ok reply := hreply
    cases hanswer : ns.blockLocations path with
    | error e =>
      rw [hanswer] at hmapped
      cases hmapped
    | ok record =>
      rw [hanswer] at hmapped
      cases hmapped
      exact modified_of_blockLocations htimes hanswer
  | _ => trivial

/-- The answer that comes back agrees with that of the namespace. -/
theorem alike_answerTo (hserve : Interface serve room) (htimes : ns.HasFiniteTimes) (q : Query)
    (id : String) :
    q.Alike ((onNamespace.query q).run ns).1 (answerTo room q (sentFor ((requestOf q).labelled id)
      (((onNamespace.query q).run ns).1.bind (respond q)))) := by
  rcases answer_cases q ns with ⟨reply, hreply⟩ | ⟨cause, hcause, hmiss⟩
  · have hback := hserve.reads (isSendable_of_answer htimes hreply) id
    rw [hreply]
    change q.Alike (.ok reply) (answerTo room q (sentFor _ (respond q reply)))
    rw [hback]
    exact .same reply
  · rw [hcause]
    by_cases hkind : cause.kind = .entryNotFound
    · have hstatus := (status_refused ((requestOf q).labelled id) cause).2.2 hkind
      have hq := hmiss hkind
      have hmissing : (Failure.namespaceRefused cause).isMissing = true := by
        simp [Failure.isMissing, Failure.kind, hkind, FailureKind.isMissing]
      have hfetched : ∀ path, fetched room (some path) (sentFor ((requestOf q).labelled id)
          (.error (.namespaceRefused cause))) = .error (.pathNotFound path) := by
        intro path
        simp [fetched, hstatus]
      cases q with
      | listChildren path =>
        change Query.Alike _ _ ((fetched room (some path) (sentFor _ (.error _))).bind _)
        rw [hfetched]
        exact .missing rfl hmissing rfl
      | blockLocations path =>
        change Query.Alike _ _ ((fetched room (some path) (sentFor _ (.error _))).bind _)
        rw [hfetched]
        exact .missing rfl hmissing rfl
      | _ => cases hq
    · have hrefusal : (Failure.namespaceRefused cause).isRefusal = true := by
        simp [Failure.isRefusal, hkind]
      exact .refused hrefusal _

end BlockFsck.Remote
