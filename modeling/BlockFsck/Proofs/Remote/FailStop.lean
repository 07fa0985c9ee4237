import BlockFsck.Command.Run
import BlockFsck.Proofs.Remote.Contract

/-!
# The command stops at a failure

Whenever the service fails a check for another reason than that an entry is missing, the command
ends with exit code -1 and prints the failure with the closing line of a failed check, and nothing
of what the check has found before.
-/

namespace BlockFsck

namespace Remote

/-- No service refuses to move or delete a file: it is the check that does. -/
def IsForeign (failure : Failure) : Prop := failure.kind ≠ .quarantine

section Foreign

variable {room : Nat} {r : Http.Response} {failure : Failure}

private theorem isForeign_of_describe (h : describe room r = .error failure) :
    IsForeign failure := by
  rw [describe] at h
  split at h
  · cases h
  · cases h
    simp [IsForeign, Failure.kind]
  · cases h
    simp [IsForeign, Failure.kind]
  · cases h

private theorem isForeign_unreadable (cause : Json.Unreadable) : IsForeign (.unreadable cause) := by
  cases cause <;> simp [IsForeign, Failure.kind]

private theorem isForeign_of_answerIn {α : Type} {form : Json.AnswerForm α}
    (h : answerIn room form r = .error failure) : IsForeign failure := by
  rw [answerIn] at h
  split at h
  · cases h
    exact isForeign_unreadable _
  · split at h <;> cases h
    simp [IsForeign, Failure.kind]
  · cases h
    simp [IsForeign, Failure.kind]

private theorem isForeign_of_fetched {path : Option String}
    (h : fetched room path r = .error failure) :
    IsForeign failure := by
  have hdescribed : ∀ {failure : Failure},
      ((describe room r).bind fun text =>
        (.error (.unavailable text) : Except Failure Http.Response)) = .error failure →
      IsForeign failure := by
    intro failure hfailure
    cases hdescribe : describe room r with
    | error other =>
      rw [hdescribe] at hfailure
      cases hfailure
      exact isForeign_of_describe hdescribe
    | ok text =>
      rw [hdescribe] at hfailure
      cases hfailure
      simp [IsForeign, Failure.kind]
  cases path with
  | none =>
    rw [fetched] at h
    split_ifs at h
    exact hdescribed h
  | some path =>
    rw [fetched] at h
    split_ifs at h
    · cases h
      simp [IsForeign, Failure.kind]
    · exact hdescribed h

private theorem isForeign_givenUp (room : Nat) (label : String) (total : Int) (last : LastAttempt) :
    IsForeign (givenUp room label total last) := by
  rw [givenUp.eq_def]
  split
  · split
    · simp [IsForeign, Failure.kind]
    · exact isForeign_of_describe ‹_›
  · simp [IsForeign, Failure.kind]
  · simp [IsForeign, Failure.kind]

private theorem isForeign_of_isOfDelay (h : failure.isOfDelay = true) : IsForeign failure := by
  intro hkind
  simp [Failure.isOfDelay, hkind] at h

private theorem isForeign_of_answerTo {q : Query} (h : answerTo room q r = .error failure) :
    IsForeign failure := by
  have hread : ∀ {α : Type} {path : Option String} {form : Json.AnswerForm α} {failure : Failure},
      (fetched room path r).bind (answerIn room form) = .error failure → IsForeign failure := by
    intro α path form failure hfailure
    cases hfetched : fetched room path r with
    | error other =>
      rw [hfetched] at hfailure
      cases hfailure
      exact isForeign_of_fetched hfetched
    | ok success =>
      rw [hfetched] at hfailure
      exact isForeign_of_answerIn hfailure
  have hchanged : ∀ {failure : Failure}, answerTo.changed room r = .error failure →
      IsForeign failure := by
    intro failure hfailure
    rw [answerTo.changed] at hfailure
    split_ifs at hfailure
    · exact isForeign_of_answerIn hfailure
    · cases hdescribe : describe room r with
      | error other =>
        rw [hdescribe] at hfailure
        cases hfailure
        exact isForeign_of_describe hdescribe
      | ok text =>
        rw [hdescribe] at hfailure
        cases hfailure
  cases q with
  | resolve path =>
    rw [answerTo] at h
    split at h
    · cases h
    · split_ifs at h
      cases h
      exact hread ‹_›
  | listChildren path => exact hread h
  | blockLocations path => exact hread h
  | corruptFiles => exact hread h
  | rename source target => exact hchanged h
  | mkdirs path => exact hchanged h
  | delete path recursive => exact hchanged h

end Foreign

section Client

variable {σ : Type} {deliver : Addressed → σ → Delivery × σ}
  (hdeliver : ∀ request s failure, (deliver request s).1 = .error (.broken failure) →
    IsForeign failure)

include hdeliver

private theorem isForeign_of_outcomes {request : Addressed} {s : σ} {n : Nat} {failure : Failure}
    (h : outcomes deliver request s n = .error (.broken failure)) : IsForeign failure := by
  induction n generalizing s with
  | zero => exact hdeliver request s failure h
  | succ n ih => exact ih h

private theorem isForeign_of_verdict {request : Addressed} {s : σ} {n room : Nat} {label : String}
    {total : Int} {failure : Failure}
    (h : verdict room label total (outcomes deliver request s n) = .error failure) :
    IsForeign failure := by
  cases houtcome : outcomes deliver request s n with
  | ok r =>
    rw [houtcome, verdict] at h
    split_ifs at h
    cases h
    exact isForeign_givenUp room label total _
  | error cause =>
    rw [houtcome] at h
    cases cause with
    | connection text => cases h; exact isForeign_givenUp room label total .connection
    | timeout name text => cases h; exact isForeign_givenUp room label total .timeout
    | broken other => cases h; exact isForeign_of_outcomes hdeliver houtcome

private theorem isForeign_of_attempts {settings : RetrySettings} {label id : String}
    {request : Except Failure Addressed}
    (hrequest : ∀ failure, request = .error failure → IsForeign failure) {total : Int}
    {attempt left room : Nat} {last : LastAttempt} {s : σ} {traffic : Traffic} {failure : Failure}
    (h : ((attempts room settings label request id total attempt last left).runOn deliver
      (s, traffic)).1 = .error failure) : IsForeign failure := by
  cases left with
  | zero => cases h; exact isForeign_givenUp room label total last
  | succ left =>
    cases request with
    | error cause =>
      rw [attempts, Exchange.runOn_bind, Exchange.runOn_lift] at h
      cases h
      exact hrequest _ rfl
    | ok request =>
      obtain ⟨hwaits, hstops⟩ := runOn_attempts_outcomes deliver room settings request s traffic
        label id total attempt left last
      by_cases hcan : ∀ n < repetitions left (outcomes deliver request s),
          settings.canWait (attempt + n) = true
      · obtain ⟨s', traffic', hstep, -⟩ := hwaits hcan
        rw [hstep] at h
        exact isForeign_of_verdict hdeliver h
      · simp only [not_forall, Bool.not_eq_true] at hcan
        obtain ⟨n, hn, hwait⟩ := hcan
        obtain ⟨other, s', traffic', hstep, hkind⟩ := hstops ⟨n, hn, hwait⟩
        rw [hstep] at h
        cases h
        exact isForeign_of_isOfDelay hkind

private theorem isForeign_of_query {c : Client} {q : Query} {t : σ × Traffic} {failure : Failure}
    (h : ((c.query q).runOn deliver t).1 = .error failure) : IsForeign failure := by
  have hexchange : ∀ {other : Failure},
      ((c.exchange (requestOf q)).runOn deliver t).1 = .error other → IsForeign other := by
    intro other hother
    obtain ⟨s, traffic⟩ := t
    cases hretries : c.settings.retries with
    | error cause =>
      have hid : Exchange.freshId.runOn deliver (s, traffic) =
          (.ok s!"rid-{traffic.ids + 1}", s, { traffic with ids := traffic.ids + 1 }) := rfl
      rw [Client.exchange, Exchange.runOn_bind, hid] at hother
      dsimp only at hother
      rw [Exchange.runOn_bind, Exchange.runOn_lift, hretries] at hother
      cases hother
      rw [RetrySettings.retries] at hretries
      split at hretries <;> cases hretries
      simp [IsForeign, Failure.kind]
    | ok retries =>
      rw [c.runOn_exchange_attempts hretries rfl s] at hother
      refine isForeign_of_attempts hdeliver (fun cause hcause => ?_) hother
      obtain ⟨cause, rfl⟩ := badAddress_of_addressed hcause
      simp [IsForeign, Failure.kind]
  generalize hended : (c.exchange (requestOf q)).runOn deliver t = ended at hexchange
  obtain ⟨other | response, t'⟩ := ended
  · obtain ⟨ended, hquery, rfl | ⟨-, reply, rfl⟩⟩ := runOn_query_failed c hended
    · rw [hquery] at h
      cases h
      exact hexchange rfl
    · rw [hquery] at h
      cases h
  · obtain ⟨after, hquery, -⟩ := runOn_query c hended
    rw [hquery] at h
    exact isForeign_of_answerTo h

end Client

end Remote

namespace Program

variable {τ α β : Type} (service : Metadata.Service (StateM τ))

private theorem raised_bind (p : Program Metadata α) (f : α → Program Metadata β) (t : τ) :
    (p.bind f).raised service t = p.raised service t ++
      (f ((p.run service.answer).run t).1).raised service ((p.run service.answer).run t).2 := by
  induction p generalizing t with
  | done result => rfl
  | ask question next ih =>
    cases question with
    | query q =>
      have hrest := ih ((service.query q).run t).1 ((service.query q).run t).2
      exact (congrArg (raised.failures ((service.query q).run t).1 ++ ·) hrest).trans
        (List.append_assoc _ _ _).symm
    | log r => exact ih () _

end Program

namespace Checker

variable {τ : Type} {service : Metadata.Service (StateM τ)}

private theorem raised_concluded (o : Options) (ended : Except Failure Result) (t : τ) :
    (concluded o ended).raised service t = [] := by
  cases ended with
  | ok result => rfl
  | error failure =>
    rw [concluded]
    split_ifs <;> rfl

private theorem outcome_of_raised
    (hservice : ∀ q t failure, ((service.query q).run t).1 = .error failure →
      failure.kind ≠ .quarantine) {o : Options} {depth : Nat} {t : τ} {failure : Failure}
    (hraised : failure ∈ (run o depth).raised service t) (hmissing : failure.isMissing = false) :
    (((outcome o depth).run service.answer).run t).1 = .error failure := by
  rw [run_eq_outcome, Program.raised_bind, raised_concluded, List.append_nil] at hraised
  exact (disciplined_outcome o depth).broken_of_raised hservice hraised hmissing

/-- What a run comes to after a fatal failure. -/
def stopped (o : Options) (failure : Failure) : Except Failure Result :=
  if failure.kind = .unavailable then
    .ok (failed o s!"Namespace service unavailable: {failure.message}")
  else .error failure

private theorem run_of_raised
    (hservice : ∀ q t failure, ((service.query q).run t).1 = .error failure →
      failure.kind ≠ .quarantine) {o : Options} {depth : Nat} {t : τ} {failure : Failure}
    (hraised : failure ∈ (run o depth).raised service t) (hmissing : failure.isMissing = false) :
    (((run o depth).run service.answer).run t).1 = stopped o failure := by
  have houtcome := outcome_of_raised hservice hraised hmissing
  rw [run_eq_outcome, Program.run_bind]
  change (((concluded o (((outcome o depth).run service.answer).run t).1).run service.answer).run
    (((outcome o depth).run service.answer).run t).2).1 = _
  rw [houtcome, concluded, stopped, if_neg (by simp [hmissing])]
  split_ifs <;> rfl

end Checker

/-! ## Commands -/

namespace Command

open Remote

/-- The check that a command line starts, and the client that it asks, if it comes to that. -/
def session? (arguments : List String) (config : Config) (room : Nat) :
    Option (Options × Client) :=
  if asksForHelp arguments then none
  else
    match level arguments config, prepare arguments config, config.address with
    | .ok _, .ok options, .ok address =>
      some (options, ⟨address, ⟨config.maxRetries, config.backoff⟩, room⟩)
    | _, _, _ => none

variable {arguments : List String} {config : Config} {room : Nat}

private theorem run_of_session {o : Options} {c : Client}
    (h : session? arguments config room = some (o, c))
    (depth : Nat) : run arguments config depth room =
      ((Checker.run o depth).run c.service.answer).bind fun result =>
        (conclude o.path result).bind fun printed => .done (.ok printed) := by
  rw [session?] at h
  split_ifs at h with hhelp
  rw [run, if_neg hhelp]
  cases hlevel : level arguments config with
  | error failure => simp [hlevel] at h
  | ok level =>
    cases hprepare : prepare arguments config with
    | error refusal => simp [hlevel, hprepare] at h
    | ok options =>
      cases haddress : config.address with
      | error cause => simp [hlevel, hprepare, haddress] at h
      | ok address =>
        simp only [hlevel, hprepare, haddress, Option.some.injEq, Prod.mk.injEq] at h
        obtain ⟨rfl, rfl⟩ := h
        rfl

private theorem prepare_of_session {o : Options} {c : Client}
    (h : session? arguments config room = some (o, c)) : prepare arguments config = .ok o := by
  rw [session?] at h
  split_ifs at h
  split at h
  · simp_all
  · cases h

section Delivered

variable {σ : Type} (deliver : Addressed → σ → Delivery × σ)

/-- The failures that the client raises during a command. -/
def raised (arguments : List String) (config : Config) (depth room : Nat) (t : σ × Traffic) :
    List Failure :=
  match session? arguments config room with
  | none => []
  | some (o, c) => (Checker.run o depth).raised (c.through deliver) t

/-- The words for a failure of the service. -/
def headline (failure : Failure) : String :=
  if failure.kind = .unavailable then s!"Namespace service unavailable: {failure.message}"
  else s!"fsck error: {failure.message}"

variable {deliver}

/-- If the client raises a failure other than that an entry is missing, then the command exits with
-1, and all that it prints is the failure and the closing line of a failed check. -/
theorem stops_at_failure
    (hdeliver : ∀ request s failure, (deliver request s).1 = .error (.broken failure) →
      failure.kind ≠ .quarantine)
    {depth : Nat} {t : σ × Traffic} {failure : Failure}
    (hraised : failure ∈ raised deliver arguments config depth room t)
    (hmissing : failure.isMissing = false) :
    ∃ o, prepare arguments config = .ok o ∧
      (((run arguments config depth room).run (answering deliver)).run t).1 = .ok {
        exitCode := -1
        output := s!"{headline failure}\n\n\n{Status.failure.line o.path}\n" } := by
  rw [raised] at hraised
  cases hsession : session? arguments config room with
  | none => simp [hsession] at hraised
  | some session =>
    obtain ⟨o, c⟩ := session
    simp only [hsession] at hraised
    have hservice : ∀ q t failure, (((c.through deliver).query q).run t).1 = .error failure →
        failure.kind ≠ .quarantine := by
      intro q t failure hfailure
      exact isForeign_of_query hdeliver hfailure
    have hstopped := Checker.run_of_raised hservice hraised hmissing
    refine ⟨o, prepare_of_session hsession, ?_⟩
    rw [run_of_session hsession, Exchange.run_bind_with, run_through,
      Exchange.run_bind_with, hstopped, Checker.stopped, headline]
    split_ifs <;> rfl

end Delivered

/-- The client of the default configuration. -/
def defaultClient : Client where
  address := { host := "localhost", port := some 8000 }
  settings := ⟨.int 3, .int 2⟩
  room := 1000

private theorem session?_root :
    session? ["/"] Config.default 1000 = some ({ path := "/" }, defaultClient) := by
  have haddress : Config.default.address = .ok defaultClient.address := by
    have hread : Http.Address.ofText Config.default.authority.shown = .ok defaultClient.address := by
      decide +kernel
    have hrooted : defaultClient.address.rooted = .ok defaultClient.address :=
      Http.Address.rooted_eq rfl
    rw [Config.address, hread]
    exact hrooted
  have hprepare : prepare ["/"] Config.default = .ok { path := "/" } := rfl
  rw [session?, haddress, hprepare]
  rfl

private theorem defaultClient_carries {q : Query}
    (hshort : (Http.Parameters.text (requestOf q).query).length ≤ Http.Address.maxLength) :
    defaultClient.Carries q := Client.carries rfl rfl rfl hshort

def rootFound : Http.Response := .json 200 [("path", .str "/"), ("kind", .str "directory")]

/-- The root is there, but then the connection drops. The state is the number of requests so far. -/
def droppedLater (_ : Addressed) (count : Nat) : Delivery × Nat :=
  (if count = 0 then .ok rootFound else .error (.broken (.told .readFailed "dropped")), count + 1)

private theorem raised_droppedLater :
    .told .readFailed "dropped" ∈ raised droppedLater ["/"] Config.default 10 1000 (0, {}) := by
  have hretries : defaultClient.settings.retries = .ok ((3 : Nat) : Int) := rfl
  -- the first query is answered
  have hcarries : defaultClient.Carries (.resolve "/") := defaultClient_carries (by decide +kernel)
  obtain ⟨address, haddress, -, -⟩ := hcarries
  have haddressed := Client.addressed_eq haddress "rid-1"
  have hanswered : droppedLater ⟨address, (requestOf (.resolve "/")).labelled "rid-1"⟩ 0 =
    (.ok rootFound, 1) := rfl
  have hexchange : (defaultClient.exchange (requestOf (.resolve "/"))).runOn droppedLater
      (0, {}) = _ :=
    defaultClient.runOn_exchange hretries (by decide) haddressed hanswered (by decide)
  obtain ⟨⟨count, traffic⟩, hroot, log, hlog⟩ := runOn_query defaultClient hexchange
  obtain rfl : count = 1 := congrArg Prod.fst hlog
  have hfirst : ((defaultClient.through droppedLater).query (.resolve "/")).run (0, {}) =
    (.ok (some ⟨"/", .directory⟩), 1, traffic) := hroot
  -- the second one breaks off
  have hdrops : ∀ request, droppedLater request 1 =
    (.error (.broken (.told .readFailed "dropped")), 2) := fun _ => rfl
  obtain ⟨request, traffic', hchildren, -⟩ := runOn_query_broken traffic hretries
    (.listChildren "/") (rfl : (Failure.told .readFailed "dropped").isMissing = false) hdrops
    (defaultClient_carries (by decide +kernel))
  have hsecond : ((defaultClient.through droppedLater).query (.listChildren "/")).run
    (1, traffic) = _ := hchildren
  obtain ⟨next, later, hnext, hlater⟩ :
      ∃ (next : Except Failure (Option Entry) → Program Metadata (Except Failure Result))
        (later : Except Failure (List Entry) → Program Metadata (Except Failure Result)),
        Checker.run { path := "/" } 10 =
            Program.ask (I := Metadata) (.query (.resolve "/")) next ∧
          next (.ok (some ⟨"/", .directory⟩)) =
            Program.ask (I := Metadata) (.query (.listChildren "/")) later :=
    ⟨_, _, rfl, rfl⟩
  rw [raised, session?_root]
  dsimp only
  rw [hnext, Program.raised_query, hfirst]
  dsimp only
  rw [hlater, Program.raised_query, hsecond]
  exact List.mem_cons_self

/-- A check whose connection drops after the root was found. -/
theorem stops_at_failure_of_drop :
    (((run ["/"] Config.default 10 1000).run (answering droppedLater)).run (0, {})).1 = .ok {
      exitCode := -1
      output :=
        "fsck error: dropped\n\n\nThe filesystem check under path '/' ended in FAILURE\n" } := by
  have hdeliver : ∀ request count failure,
      (droppedLater request count).1 = .error (.broken failure) → failure.kind ≠ .quarantine := by
    intro request count failure hfailure
    rw [droppedLater] at hfailure
    split_ifs at hfailure
    cases hfailure
    decide
  obtain ⟨o, hprepare, hrun⟩ := stops_at_failure hdeliver raised_droppedLater rfl
  obtain rfl : { path := "/" } = o := Except.ok.inj hprepare
  exact hrun

end Command

end BlockFsck
