import BlockFsck.Proofs.Namespace.Change
import BlockFsck.Proofs.Remote.Attempts
import BlockFsck.Proofs.Remote.Equivalence

/-!
# Lost attempts

A request is sent again when no answer comes, and what the service has done by then it does not
undo. A change that was made by an attempt whose answer got lost is refused to the next one, so the
client is told that nothing has changed. In all other cases it is told what has happened.
-/

namespace BlockFsck.Remote

open Http (sentFor respond)
open Metadata (onNamespace)
open Namespace (oneCorruptFile oneCorruptFile_reachable)

/-- Why no answer came, as the client sees it. -/
inductive Loss
  | connection (text : String)
  | timeout (name text : String)

def Loss.error : Loss → NetworkError
  | connection text => .connection text
  | timeout name text => .timeout name text

/-- What becomes of an attempt: its request or only its answer may be lost. -/
inductive Fate
  | answered
  | unsent (loss : Loss)
  | unanswered (name text : String)

/-- Delivers requests as far as they are not lost. After the given fates nothing is lost. -/
def lossy {σ : Type} (deliver : Addressed → σ → Delivery × σ) (r : Addressed) :
    σ × List Fate → Delivery × σ × List Fate
  | (s, .unsent loss :: fates) => (.error loss.error, s, fates)
  | (s, .unanswered name text :: fates) => (.error (.timeout name text), (deliver r s).2, fates)
  | (s, fates) => ((deliver r s).1, (deliver r s).2, fates.tail)

/-- How many attempts are carried out before the first of at most `left` that is answered, if one
is. -/
def unseen : Nat → List Fate → Option Nat
  | 0, _ => none
  | _ + 1, [] => some 0
  | _ + 1, .answered :: _ => some 0
  | left + 1, .unsent _ :: fates => unseen left fates
  | left + 1, .unanswered _ _ :: fates => (unseen left fates).map (· + 1)

section Attempts

variable {σ : Type} {deliver : Addressed → σ → Delivery × σ} {s s' : σ}

private theorem runOn_attempts_lost (room : Nat) (settings : RetrySettings) (label : String)
    {request : Addressed}
    {loss : Loss} (hdeliver : deliver request s = (.error loss.error, s')) (id : String)
    (total : Int) (attempt left : Nat) (last : LastAttempt) (traffic : Traffic) :
    ∃ traffic', (left ≠ 0 ∧ settings.canWait attempt = false ∧ ∃ failure,
        (attempts room settings label (.ok request) id total attempt last (left + 1)).runOn deliver
          (s, traffic) = (.error failure, s', traffic')) ∨
      ∃ last', (attempts room settings label (.ok request) id total attempt last (left + 1)).runOn
          deliver (s, traffic) =
        (attempts room settings label (.ok request) id total (attempt + 1) last' left).runOn deliver
          (s', traffic') := by
  have hpassing : isPassing (.error loss.error) = true := by cases loss <;> rfl
  by_cases hleft : left = 0
  · subst hleft
    obtain ⟨traffic', hlast, -⟩ := runOn_attempts_last room settings traffic hdeliver label id total
      attempt 0 last (.inr rfl)
    refine ⟨traffic', .inr ⟨leftBy (.error loss.error), hlast.trans ?_⟩⟩
    cases loss <;> rfl
  · obtain ⟨traffic', -, hcan, hcannot⟩ := runOn_attempts_next room settings traffic hdeliver label id
      total attempt left last hpassing hleft
    refine ⟨traffic', ?_⟩
    cases hwait : settings.canWait attempt with
    | false =>
      obtain ⟨failure, hstop, -⟩ := hcannot hwait
      exact .inl ⟨hleft, rfl, failure, hstop⟩
    | true => exact .inr ⟨leftBy (.error loss.error), hcan hwait⟩

end Attempts

/-- How attempts end: with the response to the first that was answered, after those that were
carried out unseen, or with a failure, if none was answered or the client could not wait. -/
inductive Ends (settings : RetrySettings) (responses : Nat → Http.Response) (attempt left : Nat)
    (fates : List Fate) : Except Failure Http.Response → Nat → Prop
  | answered {before : Nat} : unseen left fates = some before →
    Ends settings responses attempt left fates (.ok (responses before)) (before + 1)
  | failed {failure : Failure} {count : Nat} :
    (∀ before, unseen left fates = some before → ∃ n, attempt ≤ n ∧ n + 1 < attempt + left ∧
      settings.canWait n = false) →
    Ends settings responses attempt left fates (.error failure) count

namespace Ends

variable {settings : RetrySettings} {responses : Nat → Http.Response} {attempt left count : Nat}
  {fates : List Fate} {ended : Except Failure Http.Response}

private theorem cannot_wait (hleft : left ≠ 0) (hwait : settings.canWait attempt = false)
    (failure : Failure) (count : Nat) :
    Ends settings responses attempt (left + 1) fates (.error failure) count :=
  .failed fun _ _ => ⟨attempt, le_refl _, by omega, hwait⟩

private theorem unsent (h : Ends settings responses (attempt + 1) left fates ended count)
    (loss : Loss) :
    Ends settings responses attempt (left + 1) (.unsent loss :: fates) ended count := by
  cases h with
  | answered hbefore => exact .answered hbefore
  | failed hfails =>
    refine .failed fun before hbefore => ?_
    obtain ⟨n, hle, hlt, hwait⟩ := hfails before hbefore
    exact ⟨n, by omega, by omega, hwait⟩

private theorem unanswered
    (h : Ends settings (fun n => responses (n + 1)) (attempt + 1) left fates ended count)
    (name text : String) : Ends settings responses attempt (left + 1)
      (.unanswered name text :: fates) ended (count + 1) := by
  cases h with
  | answered hbefore => exact .answered (by rw [unseen, hbefore, Option.map_some])
  | failed hfails =>
    refine .failed fun before hbefore => ?_
    rw [unseen, Option.map_eq_some_iff] at hbefore
    obtain ⟨rest, hrest, -⟩ := hbefore
    obtain ⟨n, hle, hlt, hwait⟩ := hfails rest hrest
    exact ⟨n, by omega, by omega, hwait⟩

end Ends

section States

variable {σ : Type} {deliver : Addressed → σ → Delivery × σ} {request : Addressed}
  {states : Nat → σ} {responses : Nat → Http.Response}

private theorem runOn_attempts_lossy (room : Nat) (settings : RetrySettings) (label : String)
    (hdeliver : ∀ n, deliver request (states n) = (.ok (responses n), states (n + 1)))
    (hstatus : ∀ n, (responses n).status < 500) (id : String) (total : Int)
    (attempt left : Nat) (last : LastAttempt) (fates : List Fate) (traffic : Traffic) :
    ∃ ended count rest traffic',
      (attempts room settings label (.ok request) id total attempt last left).runOn (lossy deliver)
          ((states 0, fates), traffic) = (ended, (states count, rest), traffic') ∧
        Ends settings responses attempt left fates ended count := by
  induction left generalizing attempt last fates traffic states responses with
  | zero =>
    refine ⟨_, 0, fates, traffic, rfl, .failed ?_⟩
    intro before hbefore
    cases hbefore
  | succ left ih =>
    rcases fates with _ | ⟨_ | loss | ⟨name, text⟩, fates⟩
    case nil =>
      have hlossy : lossy deliver request (states 0, []) = (.ok (responses 0), states 1, []) := by
        simp only [lossy, hdeliver, List.tail_nil]
      exact ⟨_, 1, [], _, runOn_attempts room settings label hlossy (hstatus 0) id total attempt left
        last traffic, .answered rfl⟩
    case cons.answered =>
      have hlossy : lossy deliver request (states 0, .answered :: fates) =
          (.ok (responses 0), states 1, fates) := by
        simp only [lossy, hdeliver, List.tail_cons]
      exact ⟨_, 1, fates, _, runOn_attempts room settings label hlossy (hstatus 0) id total attempt left
        last traffic, .answered rfl⟩
    case cons.unsent =>
      have hlossy : lossy deliver request (states 0, .unsent loss :: fates) =
        (.error loss.error, states 0, fates) := rfl
      obtain ⟨traffic', ⟨hleft, hwait, failure, hrun⟩ | ⟨last', hrun⟩⟩ :=
        runOn_attempts_lost room settings label hlossy id total attempt left last traffic
      · exact ⟨_, 0, fates, traffic', hrun, .cannot_wait hleft hwait failure 0⟩
      · obtain ⟨ended, count, rest, traffic'', hrest, hends⟩ :=
          ih hdeliver hstatus (attempt + 1) last' fates traffic'
        exact ⟨ended, count, rest, traffic'', hrun.trans hrest, hends.unsent loss⟩
    case cons.unanswered =>
      have hlossy : lossy deliver request (states 0, .unanswered name text :: fates) =
          (.error (Loss.timeout name text).error, states 1, fates) := by
        rw [lossy, hdeliver]
        rfl
      obtain ⟨traffic', ⟨hleft, hwait, failure, hrun⟩ | ⟨last', hrun⟩⟩ :=
        runOn_attempts_lost room settings label hlossy id total attempt left last traffic
      · exact ⟨_, 1, fates, traffic', hrun, .cannot_wait hleft hwait failure 1⟩
      · -- from here on the service is one state further
        have hfurther : ∀ n, deliver request (states (n + 1)) =
            (.ok (responses (n + 1)), states (n + 1 + 1)) := fun n => hdeliver (n + 1)
        obtain ⟨ended, count, rest, traffic'', hrest, hends⟩ :=
          ih hfurther (fun n => hstatus (n + 1)) (attempt + 1) last' fates traffic'
        exact ⟨ended, count + 1, rest, traffic'', hrun.trans hrest, hends.unanswered name text⟩

end States

/-- The service after it was asked for a change that many times. -/
def askedFor (change : Change) (ns : Namespace) (count : Nat) : Served :=
  { disturbed := ⟨change.asked^[count] ns, [], List.replicate count change.query⟩ }

/-- The response that says whether a change was made. -/
def told (change : Change) (id : String) (made : Bool) : Http.Response :=
  Http.tagged ((requestOf change.query).labelled id) (Http.success made)

variable {change : Change} {ns : Namespace} {c : Client}

private theorem run_change (hv : change.Valid) (ns : Namespace) :
    ((onNamespace.query change.query).run ns).1.bind (respond change.query) =
        .ok (Http.success (change.isGranted ns)) ∧
      ((onNamespace.query change.query).run ns).2 = change.asked ns := by
  cases change with
  | rename source target =>
    change (((Namespace.rename source.text target.text).run ns).1.mapError _).bind _ = _ ∧
      ((Namespace.rename source.text target.text).run ns).2 = _
    rw [Namespace.run_rename_text ns hv.1 hv.2, Change.asked, Change.isGranted]
    by_cases hcan : ns.CanRename source target <;> simp only [hcan] <;> exact ⟨rfl, rfl⟩
  | delete path =>
    change (((Namespace.delete path.text false).run ns).1.mapError _).bind _ = _ ∧
      ((Namespace.delete path.text false).run ns).2 = _
    rw [Namespace.run_delete_text ns hv, Change.asked]
    cases hg : (Change.delete path).isGranted ns with
    | true =>
      rw [if_pos (by simpa [Change.isGranted, and_assoc] using hg)]
      exact ⟨rfl, rfl⟩
    | false =>
      rw [if_neg (by simpa [Change.isGranted, and_assoc] using hg)]
      exact ⟨rfl, rfl⟩

private theorem deliver_askedFor {serve : Http.Request → Program Metadata Http.Response}
    {room : Nat}
    (hserve : Interface serve room) (hv : change.Valid) (id : String) {address : Http.Address}
    (hpath : address.plainPath = (requestOf change.query).path)
    (hquery : address.parameters = (requestOf change.query).query) (ns : Namespace) (n : Nat) :
    Served.deliverBy serve ⟨address, (requestOf change.query).labelled id⟩ (askedFor change ns n) =
      (.ok (told change id (change.isGranted (change.asked^[n] ns))),
        askedFor change ns (n + 1)) := by
  obtain ⟨hresponse, hafter⟩ := run_change hv (change.asked^[n] ns)
  rw [askedFor, deliver_query hserve id hpath hquery, hresponse, hafter, askedFor,
    Function.iterate_succ_apply', List.replicate_succ']
  rfl

private theorem changed_told {serve : Http.Request → Program Metadata Http.Response} {room : Nat}
    (hserve : Interface serve room) (change : Change) (id : String) (made : Bool) :
    answerTo.changed room (told change id made) = .ok made := by
  cases change with
  | rename source target =>
    exact hserve.reads (q := .rename source.text target.text) trivial id
  | delete path => exact hserve.reads (q := .delete path.text false) trivial id

namespace Client

/-- Asks for a change over the wire. -/
def ask (c : Client) : Change → Exchange Bool
  | .rename source target => c.query (.rename source.text target.text)
  | .delete path => c.query (.delete path.text false)

private theorem ask_eq (c : Client) (change : Change) : c.ask change = c.change change.query := by
  cases change <;> rfl

/-- The answer to a request for a change over a wire that loses attempts, and the namespace
afterwards. The traffic is what the client has sent before. -/
def askLossy (c : Client) (depth room : Nat) (fates : List Fate) (traffic : Traffic)
    (change : Change) (ns : Namespace) : Except Failure Bool × Namespace :=
  let (ended, (served, _), _) := (c.ask change).run.run
    (answering (lossy (Served.deliver depth room))) (({ disturbed := .make ns [] }, fates), traffic)
  (ended, served.disturbed.current)

private theorem askLossy_eq {depth room : Nat} {fates rest : List Fate}
    {ended : Except Failure Bool}
    {served : Served} {traffic traffic' : Traffic}
    (h : (c.change change.query).runOn (lossy (Served.deliver depth room))
      ((askedFor change ns 0, fates), traffic) = (ended, (served, rest), traffic')) :
    c.askLossy depth room fates traffic change ns = (ended, served.disturbed.current) := by
  have hask : ((c.ask change).run.run (answering (lossy (Served.deliver depth room))))
      (({ disturbed := .make ns [] }, fates), traffic) = (ended, (served, rest), traffic') := by
    rw [ask_eq]
    exact h
  rw [askLossy, hask]

/-- What is answered was told by the first attempt that was answered, and what is left was done by
all attempts that were carried out. -/
theorem askLossy_ended {retries : Int} (hretries : c.settings.retries = .ok retries)
    (hnonneg : 0 ≤ retries) (hv : change.Valid) (hcarries : c.Carries change.query)
    (depth room : Nat) (fates : List Fate) (traffic : Traffic) (ns : Namespace) :
    (∃ before, unseen (retries.toNat + 1) fates = some before ∧
      c.askLossy depth room fates traffic change ns = (.ok (change.isGranted (change.asked^[before] ns)),
        change.asked^[before + 1] ns)) ∨
    ∃ failure count,
      c.askLossy depth room fates traffic change ns = (.error failure, change.asked^[count] ns) ∧
        ∀ before, unseen (retries.toNat + 1) fates = some before →
          ∃ n < retries.toNat, c.settings.canWait n = false := by
  obtain ⟨address, haddress, hpath, hquery⟩ := hcarries
  have hserve := interface_serve depth room c.room
  have hleft : (retries + 1).toNat = retries.toNat + 1 := by omega
  let id := s!"rid-{traffic.ids + 1}"
  have hstatus : ∀ n : Nat, (told change id (change.isGranted (change.asked^[n] ns))).status <
      500 := fun _ => (by decide : (200 : Int) < 500)
  obtain ⟨ended, count, rest, traffic', hrun, hends⟩ := runOn_attempts_lossy c.room c.settings
    s!"{(requestOf change.query).method} {(requestOf change.query).path}"
    (deliver_askedFor hserve hv id hpath hquery ns) hstatus id (retries + 1) 0
    (retries + 1).toNat .none fates { traffic with ids := traffic.ids + 1 }
  have hexchange := (c.runOn_exchange_attempts hretries (addressed_eq haddress id)
    (askedFor change ns 0, fates)).trans hrun
  rw [hleft] at hends
  cases hends with
  | answered hbefore =>
    obtain ⟨after, hchange, log, rfl⟩ := runOn_change c hexchange
    rw [changed_told hserve] at hchange
    exact .inl ⟨_, hbefore, askLossy_eq hchange⟩
  | @failed failure _ hfails =>
    have hchange : (c.change change.query).runOn
        (lossy (Served.deliverBy (Http.serve depth room))) ((askedFor change ns 0, fates), traffic) =
          (.error failure, (askedFor change ns count, rest), traffic') := by
      rw [Client.change, Exchange.runOn_bind, hexchange]
    refine .inr ⟨failure, count, askLossy_eq hchange, ?_⟩
    intro before hbefore
    obtain ⟨n, -, hlt, hwait⟩ := hfails before hbefore
    exact ⟨n, by omega, hwait⟩

end Client

/-! ## What the client is told -/

/-- What the client is told of a change is what has become of it: it has been made once, or nothing
has changed. -/
structure Truthful (change : Change) (ns : Namespace) (told : Bool) (after : Namespace) : Prop where
  made : told = true → change.isGranted ns = true ∧ after = change.applied ns
  unmade : told = false → after = ns

private theorem truthful_first (change : Change) (ns : Namespace) :
    Truthful change ns (change.isGranted ns) (change.asked ns) := by
  constructor
  case made =>
    intro hg
    rw [Change.asked, if_pos hg]
    exact ⟨hg, rfl⟩
  case unmade =>
    intro hg
    rw [Change.asked, if_neg (by simp [hg])]

private theorem truthful_refused_iff (change : Change) (ns : Namespace) :
    Truthful change ns false (change.asked ns) ↔ change.isGranted ns = false := by
  constructor
  · intro htruthful
    have hsame := htruthful.unmade rfl
    rw [← hsame]
    exact Change.isGranted_asked change ns
  · intro hg
    have hfirst := truthful_first change ns
    rwa [hg] at hfirst

/-- An answer that was told after so many attempts carried out unseen. -/
structure Answers (change : Change) (ns : Namespace) (before : Nat) (told : Bool)
    (after : Namespace) : Prop where
  after_eq : after = change.asked ns
  told_iff : told = true ↔ change.isGranted ns = true ∧ before = 0
  truthful_iff : Truthful change ns told after ↔ ¬ (change.isGranted ns = true ∧ 0 < before)

private theorem answers_iterate (change : Change) (ns : Namespace) (before : Nat) :
    Answers change ns before (change.isGranted (change.asked^[before] ns))
      (change.asked^[before + 1] ns) := by
  rcases before with _ | before
  · have hfirst := truthful_first change ns
    exact ⟨rfl, by simp, by simpa using hfirst⟩
  · have hrefused : change.isGranted (change.asked^[before + 1] ns) = false :=
      Change.isGranted_iterate change ns before
    refine ⟨Change.asked_iterate change ns (before + 1), ?_, ?_⟩
    · rw [hrefused]
      simp
    · rw [hrefused, Change.asked_iterate, truthful_refused_iff]
      simp

/-- Whatever is lost, a change is made at most once. The client that gets an answer is told the
truth unless the change was made by an attempt of which it has not heard, and without a delay that
it cannot wait for it gets an answer as soon as one attempt is answered. -/
theorem told_truthfully_iff (ns : Namespace) {retries : Int}
    (hretries : c.settings.retries = .ok retries) (hnonneg : 0 ≤ retries) (hv : change.Valid)
    (hcarries : c.Carries change.query) (depth room : Nat) (fates : List Fate)
    (traffic : Traffic) :
    let ended := c.askLossy depth room fates traffic change ns
    (ended.2 = ns ∨ change.isGranted ns = true ∧ ended.2 = change.applied ns) ∧
      (∀ answer, ended.1 = .ok answer → ∃ before,
        unseen (retries.toNat + 1) fates = some before ∧
          Answers change ns before answer ended.2) ∧
      ((∀ n < retries.toNat, c.settings.canWait n = true) → ∀ before,
        unseen (retries.toNat + 1) fates = some before → ∃ answer, ended.1 = .ok answer) := by
  have honce : ∀ count, change.asked^[count] ns = ns ∨
      change.isGranted ns = true ∧ change.asked^[count] ns = change.applied ns := by
    intro count
    rcases count with _ | count
    · exact .inl rfl
    · rw [Change.asked_iterate, Change.asked]
      split_ifs with hg
      · exact .inr ⟨hg, rfl⟩
      · exact .inl rfl
  rcases c.askLossy_ended hretries hnonneg hv hcarries depth room fates traffic ns with
    ⟨before, hbefore, hended⟩ | ⟨failure, count, hended, hfails⟩
  · rw [hended]
    refine ⟨honce (before + 1), ?_, fun _ _ _ => ⟨_, rfl⟩⟩
    intro answer hanswer
    obtain rfl := Except.ok.inj hanswer
    exact ⟨before, hbefore, answers_iterate change ns before⟩
  · rw [hended]
    refine ⟨honce count, ?_, ?_⟩
    · intro answer hanswer
      cases hanswer
    · intro hwaits before hbefore
      obtain ⟨n, hn, hwait⟩ := hfails before hbefore
      simp [hwaits n hn] at hwait

private theorem valid_delete : (Change.delete ["a"]).Valid := by
  have hread : Path.ofText "/a" = .ok ["a"] := by decide +kernel
  exact Path.valid_of_ofText hread

private theorem localClient_carries_delete : localClient.Carries (Change.delete ["a"]).query := by
  have hshort : (Http.Parameters.text (requestOf (Change.delete ["a"]).query).query).length ≤
      Http.Address.maxLength := by decide +kernel
  exact Client.carries rfl rfl rfl hshort

private theorem localClient_canWait : ∀ n < 3, localClient.settings.canWait n = true := by
  decide +kernel

/-- A deletion whose first request does not reach the service. -/
theorem told_truthfully_iff_of_unsent : ∃ answer after,
    localClient.askLossy 10 1000 [.unsent (.connection "refused")] {} (.delete ["a"])
        (oneCorruptFile none 4) = (.ok answer, after) ∧
      Truthful (.delete ["a"]) (oneCorruptFile none 4) answer after := by
  obtain ⟨-, htold, hanswers⟩ := told_truthfully_iff (oneCorruptFile none 4)
    (c := localClient) rfl (by decide) valid_delete localClient_carries_delete 10 1000
    [.unsent (.connection "refused")] {}
  obtain ⟨answer, hanswer⟩ := hanswers localClient_canWait 0 rfl
  obtain ⟨before, hbefore, hanswers⟩ := htold answer hanswer
  obtain rfl : 0 = before := Option.some.inj hbefore
  exact ⟨answer, _, Prod.ext hanswer rfl, hanswers.truthful_iff.mpr (by simp)⟩

/-- A deletion that is carried out, while its answer gets lost: the client is told that it was
refused. -/
theorem lost_answer_misleads : ∃ after,
    localClient.askLossy 10 1000 [.unanswered "ReadTimeout" "timed out"] {} (.delete ["a"])
        (oneCorruptFile none 4) = (.ok false, after) ∧
      (oneCorruptFile none 4).node? ["a"] ≠ none ∧ after.node? ["a"] = none ∧
      ¬ Truthful (.delete ["a"]) (oneCorruptFile none 4) false after := by
  have hgranted : (Change.delete ["a"]).isGranted (oneCorruptFile none 4) = true := by
    decide +kernel
  rcases localClient.askLossy_ended rfl (by decide) valid_delete localClient_carries_delete 10 1000
    [.unanswered "ReadTimeout" "timed out"] {} (oneCorruptFile none 4) with
    ⟨before, hbefore, hended⟩ | ⟨failure, count, -, hfails⟩
  · obtain rfl : 1 = before := Option.some.inj hbefore
    rw [Change.isGranted_iterate, Change.asked_iterate] at hended
    refine ⟨_, hended, by decide +kernel, by decide +kernel, ?_⟩
    rw [truthful_refused_iff, hgranted]
    decide
  · obtain ⟨n, hn, hwait⟩ := hfails 1 rfl
    simp [localClient_canWait n hn] at hwait

end BlockFsck.Remote
