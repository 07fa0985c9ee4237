import BlockFsck.Proofs.Remote.Attempts
import BlockFsck.Proofs.Remote.Equivalence

/-!
# What a remote query may end in

The callers of a metadata service expect an answer, or to be told that an entry is missing or that
the service is unavailable. A remote query ends so if and only if its request has an address, the
client can wait as often as it has to, and what became of the last attempt can be told in these
terms: of the other outcomes a query ends in a failure of their own.
-/

namespace BlockFsck

/-- The failures that callers of a metadata service expect of it. -/
def Failure.isExpected (failure : Failure) : Bool :=
  failure.isMissing || failure.kind = .unavailable

namespace Remote

/-- A query has been answered, or has ended in a failure that is expected. -/
def Foreseen {α : Type} (ended : Except Failure α) : Prop :=
  ∀ failure, ended = .error failure → failure.isExpected = true

section Foreseen

variable {α β : Type}

@[simp] theorem foreseen_ok (a : α) : Foreseen (.ok a : Except Failure α) := by
  intro failure hfailure
  cases hfailure

@[simp] theorem foreseen_error {failure : Failure} :
    Foreseen (.error failure : Except Failure α) ↔ failure.isExpected = true :=
  ⟨fun h => h failure rfl, fun h _ hfailure => Except.error.inj hfailure ▸ h⟩

private theorem foreseen_map {f : α → β} {ended : Except Failure α} :
    Foreseen (ended.map f) ↔ Foreseen ended := by
  cases ended <;> simp [Except.map]

end Foreseen

private theorem isExpected_eq_false_of_isOfDelay {failure : Failure}
    (h : failure.isOfDelay = true) :
    failure.isExpected = false := by
  rw [Failure.isOfDelay, Bool.or_eq_true, decide_eq_true_eq, decide_eq_true_eq] at h
  rw [Failure.isExpected, Failure.isMissing]
  rcases h with hkind | hkind <;> simp [hkind, FailureKind.isMissing]

@[simp] theorem isExpected_unreadable (cause : Json.Unreadable) :
    (Failure.unreadable cause).isExpected = false := by
  cases cause <;> rfl

/-- The body is an object that the form reads. -/
def Holds {α : Type} (room : Nat) (form : Json.AnswerForm α) (r : Http.Response) : Prop :=
  ∃ members answer, r.sent.read room = .ok (.obj members) ∧
    form.fields (.obj members) = .valid answer

/-- The body can be put into words: it is an object, or it is not JSON, though not for its depth. -/
def IsTold (room : Nat) (r : Http.Response) : Prop :=
  match r.sent.read room with
  | .ok value => ∃ members, value = .obj members
  | .error (.tooDeep _) => False
  | .error _ => True

variable {room : Nat}

private theorem foreseen_answerIn {α : Type} {form : Json.AnswerForm α} {r : Http.Response} :
    Foreseen (answerIn room form r) ↔ Holds room form r := by
  rw [answerIn, Holds]
  cases hread : r.sent.read room with
  | error cause => simp
  | ok value =>
    cases value with
    | obj members =>
      dsimp only
      cases hfields : form.fields (.obj members) <;>
        simp [hfields, Failure.isExpected, Failure.isMissing, Failure.kind, FailureKind.isMissing]
    | _ => simp [Failure.isExpected, Failure.isMissing, Failure.kind, FailureKind.isMissing]

theorem foreseen_describe {r : Http.Response} : Foreseen (describe room r) ↔ IsTold room r := by
  rw [describe, IsTold]
  cases hread : r.sent.read room with
  | error cause => cases cause <;> simp
  | ok value =>
    cases value <;>
      simp [Failure.isExpected, Failure.isMissing, Failure.kind, FailureKind.isMissing]

/-- A query that reads the entry at a path, which may be missing. -/
def readsPath : Query → Bool
  | .resolve _ => true
  | .listChildren _ => true
  | .blockLocations _ => true
  | _ => false

/-- The body holds an answer to the query. -/
def HoldsAnswer (room : Nat) : Query → Http.Response → Prop
  | .resolve _, r => Holds room Json.entryForm r
  | .listChildren _, r => Holds room Json.childrenForm r
  | .blockLocations _, r => Holds room Json.recordForm r
  | .rename _ _, r => Holds room Json.successForm r
  | .mkdirs _, r => Holds room Json.successForm r
  | .delete _ _, r => Holds room Json.successForm r
  | .corruptFiles, r => Holds room Json.filesForm r

/-- The response holds an answer, if it is a success. Otherwise it says that the entry is missing,
if it can be, or can be put into words. -/
def Conforms (room : Nat) (q : Query) (r : Http.Response) : Prop :=
  if r.status = 200 then HoldsAnswer room q r
  else readsPath q = true ∧ r.status = 404 ∨ IsTold room r

private theorem foreseen_unavailable {α : Type} (r : Http.Response) :
    Foreseen ((describe room r).bind fun text => (.error (.unavailable text) : Except Failure α)) ↔
      IsTold room r := by
  rw [← foreseen_describe]
  cases describe room r <;> simp [Except.bind, Failure.isExpected, Failure.kind]

private theorem foreseen_fetched {α : Type} (form : Json.AnswerForm α) (path : Option String)
    (r : Http.Response) :
    Foreseen ((fetched room path r).bind (answerIn room form)) ↔
      if r.status = 200 then Holds room form r
      else path.isSome = true ∧ r.status = 404 ∨ IsTold room r := by
  have hunavailable : Foreseen (((describe room r).bind fun text =>
      .error (.unavailable text)).bind (answerIn room form)) ↔ IsTold room r := by
    rw [← foreseen_unavailable r (α := α)]
    cases describe room r <;> rfl
  by_cases hsuccess : r.status = 200
  · have hholds : Foreseen ((.ok r : Except Failure Http.Response).bind (answerIn room form)) ↔
        Holds room form r := foreseen_answerIn
    cases path <;> simp [fetched, hsuccess, hholds]
  · cases path with
    | none => simp [fetched, hsuccess, hunavailable]
    | some path =>
      by_cases hmissing : r.status = 404
      · simp [fetched, hmissing, Except.bind, Failure.isExpected, Failure.isMissing, Failure.kind,
          FailureKind.isMissing]
      · simp [fetched, hsuccess, hmissing, hunavailable]

private theorem foreseen_changed (r : Http.Response) :
    Foreseen (answerTo.changed room r) ↔
      if r.status = 200 then Holds room Json.successForm r else IsTold room r := by
  rw [answerTo.changed]
  by_cases hsuccess : r.status = 200
  · rw [if_pos hsuccess, if_pos hsuccess]
    exact foreseen_answerIn
  · rw [if_neg hsuccess, if_neg hsuccess, foreseen_map]
    exact foreseen_describe

private theorem foreseen_answerTo (q : Query) (r : Http.Response) :
    Foreseen (answerTo room q r) ↔ Conforms room q r := by
  cases q with
  | resolve path =>
    -- that the entry is missing is an answer here, and all other failures stay what they are
    have hsame : Foreseen (answerTo room (.resolve path) r) ↔
        Foreseen ((fetched room (some path) r).bind (answerIn room Json.entryForm)) := by
      rw [answerTo]
      cases (fetched room (some path) r).bind (answerIn room Json.entryForm) with
      | ok entry => simp
      | error failure => cases hmissing : failure.isMissing <;> simp [hmissing, Failure.isExpected]
    rw [hsame]
    exact foreseen_fetched _ _ r
  | listChildren path => exact foreseen_fetched _ _ r
  | blockLocations path => exact foreseen_fetched _ _ r
  | corruptFiles => exact foreseen_fetched _ _ r
  | _ =>
    rw [answerTo, foreseen_changed, Conforms]
    simp [HoldsAnswer, readsPath]

/-! ## What becomes of a query -/

theorem badAddress_of_addressed {c : Client} {request : Http.Request} {id : String}
    {failure : Failure} (h : c.addressed request id = .error failure) :
    ∃ cause, failure = .badAddress cause := by
  rw [Client.addressed] at h
  split at h
  · cases h
  · exact ⟨_, (Except.error.inj h).symm⟩

/-- The outcome of an attempt can be told to the callers, as an answer or as a failure that they
expect. -/
def Tellable (room : Nat) (q : Query) : Delivery → Prop
  | .ok r => Conforms room q r
  | .error (.broken failure) => failure.isExpected = true
  | .error (.connection _) => True
  | .error (.timeout _ _) => True

section Queries

variable {σ : Type} {deliver : Addressed → σ → Delivery × σ} {t t' : σ × Traffic} {q : Query}
  (c : Client)

/-- A failure of the exchange ends the query, unless it is an answer that the entry is missing. -/
theorem runOn_query_failed {failure : Failure}
    (hexchange : (c.exchange (requestOf q)).runOn deliver t = (.error failure, t')) :
    ∃ ended, (c.query q).runOn deliver t = (ended, t') ∧
      (ended = .error failure ∨ failure.isMissing = true ∧ ∃ reply, ended = .ok reply) := by
  have hfetch : ∀ {α : Type} (path : Option String) (form : Json.AnswerForm α),
      (c.fetch q path form).runOn deliver t = (.error failure, t') := by
    intro α path form
    rw [Client.fetch, Exchange.runOn_bind, hexchange]
  have hchange : (c.change q).runOn deliver t = (.error failure, t') := by
    rw [Client.change, Exchange.runOn_bind, hexchange]
  cases q with
  | resolve path =>
    rw [Client.query, Exchange.runOn_tryCatch, map_eq_pure_bind, Exchange.runOn_bind, hfetch]
    dsimp only
    cases hmissing : failure.isMissing with
    | false => exact ⟨_, rfl, .inl rfl⟩
    | true => exact ⟨_, rfl, .inr ⟨rfl, none, rfl⟩⟩
  | listChildren path => exact ⟨_, hfetch _ _, .inl rfl⟩
  | blockLocations path => exact ⟨_, hfetch _ _, .inl rfl⟩
  | rename source target => exact ⟨_, hchange, .inl rfl⟩
  | mkdirs path => exact ⟨_, hchange, .inl rfl⟩
  | delete path recursive => exact ⟨_, hchange, .inl rfl⟩
  | corruptFiles => exact ⟨_, hfetch _ _, .inl rfl⟩

private theorem foreseen_query_failed {failure : Failure}
    (hexchange : (c.exchange (requestOf q)).runOn deliver t = (.error failure, t')) :
    ∃ ended, (c.query q).runOn deliver t = (ended, t') ∧
      (Foreseen ended ↔ failure.isExpected = true) := by
  obtain ⟨ended, hquery, rfl | ⟨hmissing, reply, rfl⟩⟩ := runOn_query_failed c hexchange
  · exact ⟨_, hquery, foreseen_error⟩
  · exact ⟨_, hquery, by simp [Failure.isExpected, hmissing]⟩

private theorem runOn_query_verdict {label : String} {total : Int} {outcome : Delivery}
    (hexchange : (c.exchange (requestOf q)).runOn deliver t = (verdict c.room label total outcome, t')) :
    ∃ ended after, (c.query q).runOn deliver t = (ended, after) ∧
      after.2.requests = t'.2.requests ∧ (Foreseen ended ↔ Tellable c.room q outcome) := by
  rcases outcome with ⟨text | ⟨name, text⟩ | failure⟩ | r
  case error.connection =>
    obtain ⟨ended, hquery, hforeseen⟩ := foreseen_query_failed c hexchange
    exact ⟨ended, t', hquery, rfl, by simp [hforeseen, Tellable, givenUp, Failure.isExpected,
      Failure.kind]⟩
  case error.timeout =>
    obtain ⟨ended, hquery, hforeseen⟩ := foreseen_query_failed c hexchange
    exact ⟨ended, t', hquery, rfl, by simp [hforeseen, Tellable, givenUp, Failure.isExpected,
      Failure.kind]⟩
  case error.broken =>
    obtain ⟨ended, hquery, hforeseen⟩ := foreseen_query_failed c hexchange
    exact ⟨ended, t', hquery, rfl, hforeseen⟩
  case ok =>
    rw [verdict] at hexchange
    by_cases hstatus : r.status < 500
    · rw [if_pos hstatus] at hexchange
      obtain ⟨after, hquery, log, rfl⟩ := runOn_query c hexchange
      exact ⟨_, _, hquery, rfl, foreseen_answerTo q r⟩
    · rw [if_neg hstatus] at hexchange
      obtain ⟨ended, hquery, hforeseen⟩ := foreseen_query_failed c hexchange
      have hsuccess : r.status ≠ 200 := by omega
      have hmissing : r.status ≠ 404 := by omega
      refine ⟨ended, t', hquery, rfl, hforeseen.trans ?_⟩
      rw [Tellable, Conforms, if_neg hsuccess, or_iff_right (fun h => hmissing h.2),
        ← foreseen_describe, givenUp]
      cases describe c.room r <;> simp [Failure.isExpected, Failure.kind]

end Queries

section Runs

variable {σ : Type} (deliver : Addressed → σ → Delivery × σ) (s : σ) (traffic : Traffic)
  {c : Client} {retries : Nat} (hretries : c.settings.retries = .ok (retries : Int)) (q : Query)

include hretries in
private theorem runOn_exchange_left {addressed : Except Failure Addressed}
    (haddressed : c.addressed (requestOf q) s!"rid-{traffic.ids + 1}" = addressed) :
    (c.exchange (requestOf q)).runOn deliver (s, traffic) =
      (attempts c.room c.settings s!"{(requestOf q).method} {(requestOf q).path}" addressed
        s!"rid-{traffic.ids + 1}" (retries + 1) 0 .none (retries + 1)).runOn deliver
          (s, { traffic with ids := traffic.ids + 1 }) := by
  have hleft : ((retries : Int) + 1).toNat = retries + 1 := by omega
  rw [c.runOn_exchange_attempts hretries haddressed, hleft]

include hretries in
private theorem not_foreseen_of_unaddressed {failure : Failure}
    (haddressed : c.addressed (requestOf q) s!"rid-{traffic.ids + 1}" = .error failure) :
    ¬ Foreseen ((c.query q).runOn deliver (s, traffic)).1 := by
  obtain ⟨cause, rfl⟩ := badAddress_of_addressed haddressed
  have hexchange := runOn_exchange_left deliver s traffic hretries q haddressed
  rw [attempts, Exchange.runOn_bind, Exchange.runOn_lift] at hexchange
  obtain ⟨ended, hquery, hforeseen⟩ := foreseen_query_failed c hexchange
  rw [hquery, hforeseen]
  simp [Failure.isExpected, Failure.isMissing, Failure.kind, FailureKind.isMissing]

include hretries in
private theorem foreseen_of_waits {request : Addressed}
    (haddressed : c.addressed (requestOf q) s!"rid-{traffic.ids + 1}" = .ok request)
    (hwaits : ∀ n < repetitions retries (outcomes deliver request s),
      c.settings.canWait n = true) :
    let ended := (c.query q).runOn deliver (s, traffic)
    let repeated := repetitions retries (outcomes deliver request s)
    (Foreseen ended.1 ↔ Tellable c.room q (outcomes deliver request s repeated)) ∧
      ended.2.2.requests = traffic.requests ++ List.replicate (repeated + 1) request := by
  have hexchange := runOn_exchange_left deliver s traffic hretries q haddressed
  obtain ⟨s', traffic', hattempts, hsent⟩ := (runOn_attempts_outcomes deliver c.room
    c.settings request s { traffic with ids := traffic.ids + 1 }
    s!"{(requestOf q).method} {(requestOf q).path}"
    s!"rid-{traffic.ids + 1}" (retries + 1) 0 retries .none).1 (by simpa using hwaits)
  obtain ⟨ended, after, hquery, hrequests, hforeseen⟩ :=
    runOn_query_verdict c (hexchange.trans hattempts)
  dsimp only
  rw [hquery]
  exact ⟨hforeseen, hrequests.trans hsent⟩

include hretries in
private theorem not_foreseen_of_cannot_wait {request : Addressed}
    (haddressed : c.addressed (requestOf q) s!"rid-{traffic.ids + 1}" = .ok request) {n : Nat}
    (hn : n < repetitions retries (outcomes deliver request s))
    (hwait : c.settings.canWait n = false) :
    ¬ Foreseen ((c.query q).runOn deliver (s, traffic)).1 := by
  have hexchange := runOn_exchange_left deliver s traffic hretries q haddressed
  obtain ⟨failure, s', traffic', hattempts, hkind⟩ := (runOn_attempts_outcomes deliver c.room
    c.settings request s { traffic with ids := traffic.ids + 1 }
    s!"{(requestOf q).method} {(requestOf q).path}"
    s!"rid-{traffic.ids + 1}" (retries + 1) 0 retries .none).2 ⟨n, hn, by simpa using hwait⟩
  obtain ⟨ended, hquery, hforeseen⟩ := foreseen_query_failed c (hexchange.trans hattempts)
  rw [hquery, hforeseen, isExpected_eq_false_of_isOfDelay hkind]
  decide

include hretries in
variable {deliver s} in
/-- A query whose first request breaks off ends so, and is not sent again. -/
theorem runOn_query_broken {failure : Failure} (hmissing : failure.isMissing = false) {s' : σ}
    (hdeliver : ∀ request, deliver request s = (.error (.broken failure), s'))
    (hcarries : c.Carries q) :
    ∃ request traffic', (c.query q).runOn deliver (s, traffic) = (.error failure, s', traffic') ∧
      traffic'.requests = traffic.requests ++ [request] := by
  obtain ⟨address, haddress, -, -⟩ := hcarries
  have haddressed := Client.addressed_eq haddress s!"rid-{traffic.ids + 1}"
  have hexchange := runOn_exchange_left deliver s traffic hretries q haddressed
  obtain ⟨traffic', hattempts, hrequests⟩ := runOn_attempts_last c.room c.settings
    { traffic with ids := traffic.ids + 1 } (hdeliver _)
    s!"{(requestOf q).method} {(requestOf q).path}" s!"rid-{traffic.ids + 1}" (retries + 1) 0
    retries .none (.inl rfl)
  obtain ⟨ended, hquery, hended⟩ := runOn_query_failed c (hexchange.trans hattempts)
  obtain rfl := hended.resolve_right fun h => by simp [hmissing] at h
  exact ⟨_, traffic', hquery, hrequests⟩

end Runs

/-- A query ends in an answer or in a failure that its callers expect if and only if its request
has an address, the client can wait between all of its attempts, and the outcome of the last one
can be told. It is sent once more for each repetition, and the last outcome is worth another one
only if the budget is used up. -/
theorem foreseen_query_iff (deliver : Addressed → σ → Delivery × σ) (s : σ) (traffic : Traffic)
    {c : Client} {retries : Nat} (hretries : c.settings.retries = .ok (retries : Int))
    (q : Query) :
    let ended := (c.query q).runOn deliver (s, traffic)
    let repeated := fun request => repetitions retries (outcomes deliver request s)
    let waits := fun request => ∀ n < repeated request, c.settings.canWait n = true
    let last := fun request => outcomes deliver request s (repeated request)
    (Foreseen ended.1 ↔ ∃ request,
      c.addressed (requestOf q) s!"rid-{traffic.ids + 1}" = .ok request ∧
        waits request ∧ Tellable c.room q (last request)) ∧
    ∀ request, c.addressed (requestOf q) s!"rid-{traffic.ids + 1}" = .ok request →
      waits request →
        ended.2.2.requests =
          traffic.requests ++ List.replicate (repeated request + 1) request ∧
        (isPassing (last request) = true → repeated request = retries) := by
  dsimp only
  refine ⟨⟨fun hforeseen => ?_, ?_⟩, ?_⟩
  case refine_1 =>
    cases haddressed : c.addressed (requestOf q) s!"rid-{traffic.ids + 1}" with
    | error failure =>
      exact absurd hforeseen (not_foreseen_of_unaddressed deliver s traffic hretries q haddressed)
    | ok request =>
      have hwaits : ∀ n < repetitions retries (outcomes deliver request s),
          c.settings.canWait n = true := by
        intro n hn
        by_contra hwait
        exact not_foreseen_of_cannot_wait deliver s traffic hretries q haddressed hn
          (by simpa using hwait) hforeseen
      have hlast := (foreseen_of_waits deliver s traffic hretries q haddressed hwaits).1
      exact ⟨request, rfl, hwaits, hlast.mp hforeseen⟩
  case refine_2 =>
    intro ⟨request, haddressed, hwaits, htold⟩
    exact (foreseen_of_waits deliver s traffic hretries q haddressed hwaits).1.mpr htold
  case refine_3 =>
    intro request haddressed hwaits
    exact ⟨(foreseen_of_waits deliver s traffic hretries q haddressed hwaits).2,
      repetitions_eq_of_isPassing⟩

/-- A file at the path of the query. -/
def fileFound : Http.Response := .json 200 [("path", .str "/a"), ("kind", .str "file")]

/-- Delivers the outcomes of a script, whatever is sent. -/
def scripted (_ : Addressed) (script : List Delivery) : Delivery × List Delivery := nextOf script

/-- The query of a local client, with the outcomes of a script. -/
def resolveScripted (script : List Delivery) :
    Except Failure (Option Entry) × List Delivery × Traffic :=
  (localClient.query (.resolve "/a")).runOn scripted (script, {})

theorem localClient_carries_resolve : localClient.Carries (.resolve "/a") := by
  have hshort : (Http.Parameters.text (requestOf (.resolve "/a")).query).length ≤
      Http.Address.maxLength := by decide +kernel
  exact Client.carries rfl rfl rfl hshort

/-- A query that is answered after the connection was refused once. -/
theorem foreseen_query_iff_of_connection :
    let ended := resolveScripted [.error (.connection "refused"), .ok fileFound]
    Foreseen ended.1 ∧ ended.2.2.requests.length = 2 := by
  obtain ⟨address, haddress, -, -⟩ := localClient_carries_resolve
  have haddressed := Client.addressed_eq haddress "rid-1"
  have hwaits : ∀ n < 1, localClient.settings.canWait n = true := by decide +kernel
  have hanswer : Conforms localClient.room (.resolve "/a") fileFound := by
    refine ⟨_, ⟨"/a", .file⟩, rfl, ?_⟩
    simp [Json.entryForm, Entry.ofJson, Json.objectOf, Json.need, Json.text, Entry.kindField,
      Json.orRefuse, EntryKind.ofText?]
  have hretries : localClient.settings.retries = .ok ((3 : Nat) : Int) := rfl
  obtain ⟨hforeseen, hsent⟩ := foreseen_query_iff scripted
    [.error (.connection "refused"), .ok fileFound] {} hretries (.resolve "/a")
  have hrequests := (hsent _ haddressed hwaits).1
  exact ⟨hforeseen.mpr ⟨_, haddressed, hwaits, hanswer⟩, congrArg List.length hrequests⟩

/-- A query whose connection was dropped while the answer was read, before the answer came: the
failure is none that its callers expect, and the query is not sent again. -/
theorem dropped_connection_escapes :
    let failure := Failure.told .readFailed "dropped"
    let ended := resolveScripted [.error (.broken failure), .ok fileFound]
    ended.1 = .error failure ∧ ¬ Foreseen ended.1 ∧ ended.2.2.requests.length = 1 := by
  dsimp only
  have hretries : localClient.settings.retries = .ok ((3 : Nat) : Int) := rfl
  have hmissing : (Failure.told .readFailed "dropped").isMissing = false := rfl
  have hdeliver : ∀ request,
      scripted request [.error (.broken (.told .readFailed "dropped")), .ok fileFound] =
        (.error (.broken (.told .readFailed "dropped")), [.ok fileFound]) := fun _ => rfl
  obtain ⟨request, traffic, hquery, hrequests⟩ :=
    runOn_query_broken {} hretries (.resolve "/a") hmissing hdeliver localClient_carries_resolve
  have hrun : resolveScripted [.error (.broken (.told .readFailed "dropped")), .ok fileFound] =
      (.error (.told .readFailed "dropped"), [.ok fileFound], traffic) := hquery
  rw [hrun, foreseen_error]
  refine ⟨rfl, by decide, ?_⟩
  rw [hrequests]
  rfl

end Remote

end BlockFsck
