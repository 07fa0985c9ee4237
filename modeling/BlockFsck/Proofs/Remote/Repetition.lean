import Mathlib.Algebra.Ring.Int.Defs
import BlockFsck.Proofs.Remote.Contract

/-!
# How a request is repeated

A request is sent again under the same id after each outcome that is worth it, as often as it may
be, and between two attempts the client waits, each time longer by the same factor. In the end it
has the first outcome that is not worth another attempt, or else its last attempt says why the
service is unavailable (`exchange_exact_iff`).
-/

namespace BlockFsck.Remote

/-- What a client does that others notice. -/
inductive Step
  | sent (request : Addressed)
  | slept (seconds : Double)

/-- Requests have the outcomes on a tape, and there is a journal of them and of the waits. -/
def journaling (id : String) :
    (q : WireRequest) → StateM ((Nat → Delivery) × List Step) (Wire.Answer q)
  | .send request => fun (tape, journal) =>
    (tape 0, fun n => tape (n + 1), journal ++ [.sent request])
  | .pause seconds => fun (tape, journal) => ((), tape, journal ++ [.slept seconds])
  | .log _ => fun s => ((), s)
  | .freshId => fun s => (id, s)

/-- The delay of this many seconds as a double. -/
def seconds (delay : Int) : Double := Double.nearest delay

/-- A request that is sent so many times, with a delay after each: one second, then as many as the
factor says, and so on. -/
def sentAndSlept (request : Addressed) (factor times : Nat) : List Step :=
  (List.range times).flatMap fun n => [.sent request, .slept (seconds (factor ^ n))]

/-- A request that is sent again so many times, with a delay before each repetition. -/
def repeated (request : Addressed) (factor times : Nat) : List Step :=
  sentAndSlept request factor times ++ [.sent request]

private theorem repeated_injective {request : Addressed} {factor times others : Nat}
    (h : repeated request factor times = repeated request factor others) : times = others := by
  have hlength := congrArg List.length h
  have hdouble : times * 2 = others * 2 := by
    simpa [repeated, sentAndSlept, List.length_flatMap] using hlength
  omega

/-- What an outcome that is not worth another attempt makes of a request. -/
def settled? : Delivery → Option (Except Failure Http.Response)
  | .ok r => if r.status < 500 then some (.ok r) else none
  | .error (.broken failure) => some (.error failure)
  | .error _ => none

/-- What the last attempt says of the service, if all attempts were worth another one. -/
def complaint (room : Nat) (label : String) (retries : Nat) : Delivery → Except Failure String
  | .ok r =>
    (describe room r).map fun text => s!"{label} failed after {retries + 1} attempts: {text}"
  | .error (.timeout _ _) => .ok "Request timed out. Namespace service may be overloaded."
  | .error _ => .ok "Cannot connect to namespace service. Is it running?"

private theorem settled?_eq_some {outcome : Delivery} {result : Except Failure Http.Response}
    (h : settled? outcome = some result) (room : Nat) (label : String) (total : Int) :
    isPassing outcome = false ∧ verdict room label total outcome = result := by
  rcases outcome with ⟨_ | _ | failure⟩ | r
  case error.connection => cases h
  case error.timeout => cases h
  case error.broken => exact ⟨rfl, Option.some.inj h⟩
  case ok =>
    rw [settled?] at h
    split_ifs at h with hstatus
    exact ⟨by simpa [isPassing] using hstatus, (if_pos hstatus).trans (Option.some.inj h)⟩

private theorem ofInt?_eq_seconds {delay : Int} (h : (Double.ofInt? delay).isSome = true) :
    Double.ofInt? delay = some (seconds delay) := by
  rw [Double.ofInt?] at h ⊢
  rw [seconds]
  cases hn : Double.nearest delay with
  | infinite negative =>
    rw [hn] at h
    cases h
  | _ => rfl

variable {settings : RetrySettings} {factor : Nat}
  (hfactor : Number.ofJson? settings.backoff = some (.int factor)) (room : Nat) (id : String)
  (total : Int)

section Waiting

include hfactor

private theorem runWith_waitAfter {α : Type} (next : Exchange α) (attempt : Nat)
    (kind what : String)
    (tape : Nat → Delivery) (journal : List Step) :
    let step : Exchange α := do waitAfter settings attempt total id kind what; next
    step.runWith (journaling id) (tape, journal) =
      if (Double.ofInt? (factor ^ attempt)).isSome then
        next.runWith (journaling id) (tape, journal ++ [.slept (seconds (factor ^ attempt))])
      else (.error .overflow, tape, journal) := by
  have hdelay : settings.delay attempt = .ok (.int (factor ^ attempt)) := by
    rw [RetrySettings.delay, hfactor]
    rfl
  have hdouble : (Number.int (factor ^ attempt)).toDouble? = Double.ofInt? (factor ^ attempt) := rfl
  dsimp only
  rw [Exchange.runWith_bind, waitAfter, Exchange.runWith_bind, Exchange.runWith_lift, hdelay]
  dsimp only
  rw [Exchange.runWith_bind, hdouble]
  split_ifs with hfits
  · rw [ofInt?_eq_seconds hfits]
    rfl
  · rw [Option.not_isSome_iff_eq_none.mp hfits]
    rfl

private theorem runWith_attempts (label : String) (request : Addressed) (attempt left : Nat)
    (last : LastAttempt) (tape : Nat → Delivery) (journal : List Step) :
    (attempts room settings label (.ok request) id total attempt last (left + 1)).runWith
        (journaling id) (tape, journal) =
      if isPassing (tape 0) = false ∨ left = 0 then
        (verdict room label total (tape 0), fun n => tape (n + 1), journal ++ [.sent request])
      else if (Double.ofInt? (factor ^ attempt)).isSome then
        (attempts room settings label (.ok request) id total (attempt + 1) (leftBy (tape 0))
          left).runWith (journaling id) (fun n => tape (n + 1),
            journal ++ [.sent request, .slept (seconds (factor ^ attempt))])
      else (.error .overflow, fun n => tape (n + 1), journal ++ [.sent request]) := by
  have hsend : (Exchange.send request).runWith (journaling id) (tape, journal) =
      (.ok (tape 0), fun n => tape (n + 1), journal ++ [.sent request]) := rfl
  obtain ⟨afterwards, hattempts, hends, hgoes⟩ :=
    attempts_succ room settings label request id total attempt left last
  rw [hattempts, Exchange.runWith_bind, hsend]
  dsimp only
  split_ifs with hlast hfits
  · obtain ⟨note, hafterwards⟩ := hends (tape 0) hlast
    rw [hafterwards]
    cases note <;> rfl
  all_goals
    obtain ⟨kind, what, hafterwards⟩ := hgoes (tape 0) (by simpa using (not_or.mp hlast).1)
      (not_or.mp hlast).2
    rw [hafterwards, runWith_waitAfter hfactor]
  · rw [if_pos hfits, List.append_assoc, List.singleton_append]
  · rw [if_neg hfits]

private theorem runWith_attempts_repeated (label : String) (request : Addressed) {left : Nat}
    (last : LastAttempt) (tape : Nat → Delivery) {times : Nat} (htimes : times ≤ left)
    (hpassing : ∀ n < times, isPassing (tape n) = true)
    (hfits : ∀ n < times, (Double.ofInt? (factor ^ n)).isSome = true) :
    ∃ last', (attempts room settings label (.ok request) id total 0 last (left + 1)).runWith
        (journaling id) (tape, []) =
      (attempts room settings label (.ok request) id total times last' (left - times + 1)).runWith
        (journaling id) (fun n => tape (times + n), sentAndSlept request factor times) := by
  induction times with
  | zero => exact ⟨last, by simp [sentAndSlept]⟩
  | succ times ih =>
    obtain ⟨last', hrun⟩ := ih (by omega) (fun n hn => hpassing n (by omega))
      fun n hn => hfits n (by omega)
    have hgoes : ¬ (isPassing (tape (times + 0)) = false ∨ left - times = 0) := by
      rw [Nat.add_zero, hpassing times times.lt_succ_self]
      rintro (hends | hends)
      · cases hends
      · omega
    have hleft : left - times = left - (times + 1) + 1 := by omega
    refine ⟨leftBy (tape (times + 0)), ?_⟩
    rw [hrun, runWith_attempts hfactor, if_neg hgoes, if_pos (hfits times times.lt_succ_self),
      hleft, sentAndSlept, sentAndSlept, List.range_succ, List.flatMap_append,
      List.flatMap_singleton]
    simp only [Nat.add_assoc, Nat.add_comm 1]

private theorem runWith_attempts_last (label : String) (request : Addressed) {left : Nat}
    (last : LastAttempt) (tape : Nat → Delivery) {times : Nat} (htimes : times ≤ left)
    (hpassing : ∀ n < times, isPassing (tape n) = true)
    (hends : isPassing (tape times) = false ∨ times = left)
    (hfits : ∀ n < times, (Double.ofInt? (factor ^ n)).isSome = true) :
    let run := (attempts room settings label (.ok request) id total 0 last (left + 1)).runWith
      (journaling id) (tape, [])
    run.1 = verdict room label total (tape times) ∧ run.2.2 = repeated request factor times := by
  intro run
  obtain ⟨last', hrun⟩ := runWith_attempts_repeated hfactor room id total label request last tape htimes
    hpassing hfits
  have hends' : isPassing (tape (times + 0)) = false ∨ left - times = 0 :=
    hends.imp_right (by omega)
  rw [show run = _ from hrun, runWith_attempts hfactor, if_pos hends']
  exact ⟨rfl, rfl⟩

private theorem runWith_attempts_stuck (label : String) (request : Addressed) {left : Nat}
    (last : LastAttempt) (tape : Nat → Delivery) {times : Nat} (htimes : times < left)
    (hpassing : ∀ n ≤ times, isPassing (tape n) = true)
    (hfits : ∀ n < times, (Double.ofInt? (factor ^ n)).isSome = true)
    (hstuck : ¬ (Double.ofInt? (factor ^ times)).isSome = true) :
    let run := (attempts room settings label (.ok request) id total 0 last (left + 1)).runWith
      (journaling id) (tape, [])
    run.1 = .error .overflow ∧ run.2.2 = repeated request factor times := by
  intro run
  obtain ⟨last', hrun⟩ := runWith_attempts_repeated hfactor room id total label request last tape
    htimes.le (fun n hn => hpassing n hn.le) hfits
  have hgoes : ¬ (isPassing (tape (times + 0)) = false ∨ left - times = 0) := by
    rw [Nat.add_zero, hpassing times le_rfl]
    rintro (hends | hends)
    · cases hends
    · omega
  rw [show run = _ from hrun, runWith_attempts hfactor, if_neg hgoes, if_neg hstuck]
  exact ⟨rfl, rfl⟩

private theorem fits_of_journal (label : String) (request : Addressed) {left : Nat}
    (last : LastAttempt)
    (tape : Nat → Delivery) {times : Nat} (htimes : times ≤ left)
    (hpassing : ∀ n < times, isPassing (tape n) = true)
    (hjournal : ((attempts room settings label (.ok request) id total 0 last (left + 1)).runWith
      (journaling id) (tape, [])).2.2 = repeated request factor times) :
    ∀ n < times, (Double.ofInt? (factor ^ n)).isSome = true := by
  intro n
  induction n using Nat.strong_induction_on with
  | _ n ih =>
    intro hn
    by_contra hstuck
    have hshort := (runWith_attempts_stuck hfactor room id total label request last tape
      (hn.trans_le htimes) (fun m hm => hpassing m (hm.trans_lt hn))
      (fun m hm => ih m hm (hm.trans hn)) hstuck).2
    exact hn.ne (repeated_injective (hshort.symm.trans hjournal))

end Waiting

/-! ## Requests -/

private theorem exists_describe_iff {room : Nat} {r : Http.Response} :
    (∃ text, describe room r = .ok text) ↔ IsTold room r := by
  rw [← foreseen_describe]
  rw [describe]
  cases hread : r.sent.read room with
  | error cause => cases cause <;> simp
  | ok value =>
    cases value <;>
      simp [Failure.isExpected, Failure.isMissing, Failure.kind, FailureKind.isMissing]

/-- After a last attempt that was worth another one the service is unavailable, if that can be put
into words. -/
theorem verdict_of_isPassing {outcome : Delivery} (h : isPassing outcome = true) (room : Nat)
    (label : String) (retries : Nat) :
    (∀ message, complaint room label retries outcome = .ok message →
      verdict room label (retries + 1) outcome = .error (.unavailable message)) ∧
    ((∃ message, complaint room label retries outcome = .ok message) ↔
      ∀ r, outcome = .ok r → IsTold room r) := by
  rcases outcome with ⟨text | ⟨name, text⟩ | failure⟩ | r
  case error.connection => exact ⟨fun _ hm => by cases hm; rfl, by simp [complaint]⟩
  case error.timeout => exact ⟨fun _ hm => by cases hm; rfl, by simp [complaint]⟩
  case error.broken => cases h
  case ok =>
    have hstatus : ¬ r.status < 500 := by simpa [isPassing] using h
    rw [complaint, verdict, if_neg hstatus, givenUp]
    cases hd : describe room r with
    | error failure =>
      have hunspelt : ¬ IsTold room r := fun h => by
        obtain ⟨text, ht⟩ := exists_describe_iff.mpr h
        cases hd.symm.trans ht
      refine ⟨fun _ hm => ?_, fun hm => ?_, fun h => absurd (h r rfl) hunspelt⟩
      · cases hm
      · obtain ⟨_, hm⟩ := hm
        cases hm
    | ok text =>
      have htold : IsTold room r := exists_describe_iff.mp ⟨text, hd⟩
      refine ⟨fun _ hm => ?_, fun _ r' hr => ?_, fun _ => ⟨_, rfl⟩⟩
      · cases hm
        rfl
      · cases hr
        exact htold

private theorem runWith_exchange {c : Client} {retries : Nat}
    (hretries : c.settings.retries = .ok (retries : Int)) {request : Http.Request} {id : String}
    {sent : Addressed} (haddressed : c.addressed request id = .ok sent) (tape : Nat → Delivery) :
    (c.exchange request).runWith (journaling id) (tape, []) =
      (attempts c.room c.settings s!"{request.method} {request.path}" (.ok sent) id (retries + 1) 0
        .none (retries + 1)).runWith (journaling id) (tape, []) := by
  have hid : Exchange.freshId.runWith (journaling id) (tape, []) = (.ok id, tape, []) := rfl
  have hleft : ((retries : Int) + 1).toNat = retries + 1 := by omega
  rw [Client.exchange, Exchange.runWith_bind, hid]
  dsimp only
  rw [Exchange.runWith_bind, Exchange.runWith_lift, hretries]
  dsimp only
  rw [haddressed, hleft]

/-- A request has the first outcome that is not worth another attempt. If there is none among the
attempts that it may have, then the last of them says why the service is unavailable. All attempts
are one request under one id, and there is one delay before each repetition. This is so if and only
if a double can hold the delays and the last response, if there is one, can be put into words. -/
theorem exchange_exact_iff {c : Client} {retries factor : Nat}
    (hretries : c.settings.retries = .ok (retries : Int))
    (hfactor : Number.ofJson? c.settings.backoff = some (.int factor)) {request : Http.Request}
    {id : String} {sent : Addressed} (haddressed : c.addressed request id = .ok sent)
    (tape : Nat → Delivery) :
    let run := (c.exchange request).runWith (journaling id) (tape, [])
    let label := s!"{request.method} {request.path}"
    let fits := fun n : Nat => (Double.ofInt? (factor ^ n)).isSome = true
    sent.request = { request with requestId := some id } ∧
    (∀ times ≤ retries, ∀ result, (∀ n < times, isPassing (tape n) = true) →
      settled? (tape times) = some result →
      (run.1 = result ∧ run.2.2 = repeated sent factor times ↔ ∀ n < times, fits n)) ∧
    ((∀ n ≤ retries, isPassing (tape n) = true) →
      ((∃ message, complaint c.room label retries (tape retries) = .ok message ∧
          run.1 = .error (.unavailable message) ∧ run.2.2 = repeated sent factor retries) ↔
        (∀ n < retries, fits n) ∧ ∀ r, tape retries = .ok r → IsTold c.room r)) ∧
    ∀ times < retries, (∀ n ≤ times, isPassing (tape n) = true) → (∀ n < times, fits n) →
      ¬ fits times → run.1 = .error .overflow ∧ run.2.2 = repeated sent factor times := by
  intro run label fits
  have hrun : run = (attempts c.room c.settings label (.ok sent) id (retries + 1) 0 .none
      (retries + 1)).runWith (journaling id) (tape, []) :=
    runWith_exchange hretries haddressed tape
  refine ⟨?_, ?_, ?_, ?_⟩
  · rw [Client.addressed] at haddressed
    split at haddressed
    · rw [← Except.ok.inj haddressed]
    · cases haddressed
  · intro times htimes result hpassing hsettled
    obtain ⟨hends, hverdict⟩ := settled?_eq_some hsettled c.room label (retries + 1)
    rw [hrun]
    refine ⟨fun h => fits_of_journal hfactor c.room id _ label sent .none tape htimes hpassing h.2,
      fun hfits => ?_⟩
    have hlast := runWith_attempts_last hfactor c.room id (retries + 1) label sent .none tape htimes
      hpassing (.inl hends) hfits
    rwa [hverdict] at hlast
  · intro hpassing
    obtain ⟨hsaid, htold⟩ := verdict_of_isPassing (hpassing retries le_rfl) c.room label retries
    have hbefore : ∀ n < retries, isPassing (tape n) = true := fun n hn => hpassing n hn.le
    rw [hrun]
    constructor
    · rintro ⟨message, hmessage, -, hjournal⟩
      exact ⟨fits_of_journal hfactor c.room id _ label sent .none tape le_rfl hbefore hjournal,
        htold.mp ⟨message, hmessage⟩⟩
    · rintro ⟨hfits, hspelt⟩
      obtain ⟨message, hmessage⟩ := htold.mpr hspelt
      have hlast := runWith_attempts_last hfactor c.room id (retries + 1) label sent .none tape le_rfl
        hbefore (.inr rfl) hfits
      rw [hsaid message hmessage] at hlast
      exact ⟨message, hmessage, hlast⟩
  · intro times htimes hpassing hfits hstuck
    rw [hrun]
    exact runWith_attempts_stuck hfactor c.room id (retries + 1) label sent .none tape htimes hpassing
      hfits hstuck

/-- The connection is refused once, then the service fails, then there is a file. -/
def recovering : Nat → Delivery
  | 0 => .error (.connection "refused")
  | 1 => .ok (.text 503 "busy")
  | _ => .ok fileFound

/-- A request that is answered at its third attempt. -/
theorem exchange_exact_iff_of_recovering : ∃ sent,
    let run := (localClient.exchange (requestOf (.resolve "/a"))).runWith (journaling "rid-1")
      (recovering, [])
    sent.request = { requestOf (.resolve "/a") with requestId := some "rid-1" } ∧
    run.1 = .ok fileFound ∧
    run.2.2 = [.sent sent, .slept (seconds 1), .sent sent, .slept (seconds 2), .sent sent] := by
  obtain ⟨address, haddress, -, -⟩ := localClient_carries_resolve
  have hretries : localClient.settings.retries = .ok ((3 : Nat) : Int) := rfl
  have hfactor : Number.ofJson? localClient.settings.backoff = some (.int (2 : Nat)) := rfl
  obtain ⟨hid, hsettled, -⟩ := exchange_exact_iff hretries hfactor
    (Client.addressed_eq haddress "rid-1") recovering
  have hpassing : ∀ n < 2, isPassing (recovering n) = true := by decide
  have hfits : ∀ n < 2, (Double.ofInt? ((2 : Nat) ^ n)).isSome = true := by decide +kernel
  obtain ⟨hresult, hjournal⟩ := (hsettled 2 (by decide) (.ok fileFound) hpassing rfl).mpr hfits
  exact ⟨_, hid, hresult, hjournal⟩

/-- An object whose only member is so many lists one within another. -/
def nestedText (depth : Nat) : List Char :=
  ['\x7b', '"', 'a', '"', ':'] ++ List.replicate depth '[' ++ List.replicate depth ']' ++ ['\x7d']

def nestedFailure : Http.Response := .text 500 (String.ofList (nestedText 2000))

private theorem readBody_nestedText (room depth : Nat) :
    Json.readBody room (String.ofList (nestedText depth)) =
      (Json.readChars room (nestedText depth)).mapError (·.unreadable (nestedText depth)) := by
  have hplain : '\x00' ∉ (String.ofList (nestedText depth)).toList := by
    simp [nestedText, List.mem_replicate]
  have hmark : (nestedText depth).head? ≠ some '\uFEFF' := by simp [nestedText]
  rw [Json.readBody, Text.reinterpret_of_notMem hplain, String.toList_ofList]
  exact congrArg (fun cs => (Json.readChars room cs).mapError (·.unreadable cs)) (if_neg hmark)

private theorem read_nestedFailure :
    ∃ message, nestedFailure.sent.read 1000 = .error (.tooDeep message) := by
  have hdeep : (match Json.readChars 1000 (nestedText 2000) with
      | .ok _ => none
      | .error flaw => some flaw.cause) = some (.tooDeep "array") := by decide +kernel
  have hread : nestedFailure.sent.read 1000 = _ := readBody_nestedText 1000 2000
  rw [hread]
  generalize Json.readChars 1000 (nestedText 2000) = ended at hdeep
  cases ended with
  | ok value => cases hdeep
  | error flaw =>
    have hcause : flaw.cause = .tooDeep "array" := Option.some.inj hdeep
    have hunreadable : flaw.unreadable (nestedText 2000) = .tooDeep flaw.cause.message := by
      rw [Json.Flaw.unreadable, hcause]
    exact ⟨_, congrArg Except.error hunreadable⟩

private theorem readValue_nestedText :
    ∃ members, Json.readValue 5000 3000 (nestedText 2000) = .ok (.obj members, []) := by
  have hobject : (Json.readValue 5000 3000 (nestedText 2000)).toOption.map
      (fun read => (read.1.typeName, read.2)) = some ("dict", []) := by decide +kernel
  generalize Json.readValue 5000 3000 (nestedText 2000) = ended at hobject
  rcases ended with flaw | ⟨value, rest⟩
  · cases hobject
  · obtain ⟨hname, hrest⟩ := Prod.ext_iff.mp (Option.some.inj hobject)
    obtain rfl : rest = [] := hrest
    cases value with
    | obj members => exact ⟨members, rfl⟩
    | _ => simp [Json.typeName] at hname

/-- The service fails with an object that a reader with more room can read. The request then ends in
the failure to read it, and not in one that says the service is unavailable. -/
theorem nested_body_escapes :
    let c : Client := { localClient with settings := ⟨.int 0, .int 2⟩ }
    let run := (c.exchange (requestOf (.resolve "/a"))).runWith (journaling "rid-1")
      (fun _ => .ok nestedFailure, [])
    (∃ members, Json.readValue 5000 3000 (nestedText 2000) = .ok (.obj members, [])) ∧
    isPassing (.ok nestedFailure) = true ∧
    ∃ message, run.1 = .error (.unreadable (.tooDeep message)) := by
  intro c run
  have hcarries : c.Carries (.resolve "/a") := localClient_carries_resolve
  obtain ⟨address, haddress, -, -⟩ := hcarries
  obtain ⟨message, hread⟩ := read_nestedFailure
  have hunspelt : describe c.room nestedFailure = .error (.unreadable (.tooDeep message)) := by
    change describe 1000 nestedFailure = _
    rw [describe, hread]
  have hstatus : ¬ nestedFailure.status < 500 := by decide
  have hretries : c.settings.retries = .ok ((0 : Nat) : Int) := rfl
  have hfactor : Number.ofJson? c.settings.backoff = some (.int (2 : Nat)) := rfl
  have hexchange : run = _ := runWith_exchange hretries (Client.addressed_eq haddress "rid-1")
    fun _ => .ok nestedFailure
  refine ⟨readValue_nestedText, rfl, message, ?_⟩
  rw [hexchange, runWith_attempts hfactor, if_pos (.inr rfl)]
  dsimp only
  rw [verdict, if_neg hstatus, givenUp, hunspelt]

end BlockFsck.Remote
