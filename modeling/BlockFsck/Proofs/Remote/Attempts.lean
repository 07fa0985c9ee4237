import BlockFsck.Proofs.Remote.Query

/-!
# Attempts

What comes of a request is decided by what became of its attempts: it is sent again after each
outcome that is worth it, until there is another one or no repetition is left.
-/

namespace BlockFsck

/-- What ends a request that the client cannot wait to repeat. -/
def Failure.isOfDelay (failure : Failure) : Bool :=
  failure.kind = .wrongType || failure.kind = .overflow

namespace Remote

/-- A server error, a connection error or a timeout, after which a request is sent again. -/
def isPassing : Delivery → Bool
  | .ok r => 500 ≤ r.status
  | .error (.broken _) => false
  | .error _ => true

/-- How many of at most `left` repetitions are made, by the outcomes of the attempts. -/
def repetitions : (left : Nat) → (Nat → Delivery) → Nat
  | 0, _ => 0
  | left + 1, tape => if isPassing (tape 0) then repetitions left (fun n => tape (n + 1)) + 1 else 0

/-- A last attempt that would be worth another one has used up the budget. -/
theorem repetitions_eq_of_isPassing {left : Nat} {tape : Nat → Delivery}
    (h : isPassing (tape (repetitions left tape)) = true) : repetitions left tape = left := by
  induction left generalizing tape with
  | zero => rfl
  | succ left ih =>
    rw [repetitions] at h ⊢
    by_cases hpassing : isPassing (tape 0) = true
    · rw [if_pos hpassing] at h ⊢
      rw [ih h]
    · rw [if_neg hpassing] at h
      exact absurd h hpassing

/-- What the outcome of the last attempt makes of a request. -/
def verdict (room : Nat) (label : String) (total : Int) : Delivery → Except Failure Http.Response
  | .ok r => if r.status < 500 then .ok r else .error (givenUp room label total (.response r))
  | .error (.broken failure) => .error failure
  | .error (.connection _) => .error (givenUp room label total .connection)
  | .error (.timeout _ _) => .error (givenUp room label total .timeout)

/-- What an attempt leaves behind. -/
def leftBy : Delivery → LastAttempt
  | .ok r => .response r
  | .error (.timeout _ _) => .timeout
  | .error _ => .connection

/-- After an attempt the request is at its end, which may be noted, or else the client waits, with
words that depend on the outcome, and goes on. -/
theorem attempts_succ (room : Nat) (settings : RetrySettings) (label : String) (request : Addressed)
    (id : String) (total : Int) (attempt left : Nat) (last : LastAttempt) :
    ∃ afterwards : Delivery → Exchange Http.Response,
      attempts room settings label (.ok request) id total attempt last (left + 1) =
        Exchange.send request >>= afterwards ∧
      (∀ outcome, isPassing outcome = false ∨ left = 0 → ∃ note : Option String,
        afterwards outcome =
          note.forM (Exchange.log Log.error) >>= fun _ =>
            ExceptT.mk (pure (verdict room label total outcome))) ∧
      ∀ outcome, isPassing outcome = true → left ≠ 0 → ∃ kind what,
        afterwards outcome =
          waitAfter settings attempt total id kind what >>= fun _ =>
            attempts room settings label (.ok request) id total (attempt + 1) (leftBy outcome) left := by
  refine ⟨_, rfl, fun outcome hlast => ?_, fun outcome hpassing hleft => ?_⟩
  · rcases outcome with ⟨text | ⟨name, text⟩ | failure⟩ | r
    case error.connection =>
      obtain rfl : left = 0 := by simpa [isPassing] using hlast
      exact ⟨some _, rfl⟩
    case error.timeout =>
      obtain rfl : left = 0 := by simpa [isPassing] using hlast
      exact ⟨some _, rfl⟩
    case error.broken => exact ⟨none, rfl⟩
    case ok =>
      refine ⟨none, ?_⟩
      rw [verdict]
      dsimp only
      by_cases hstatus : r.status < 500
      · rw [if_pos hstatus, if_pos hstatus]
        rfl
      · obtain rfl : left = 0 := hlast.resolve_left (by simpa [isPassing] using hstatus)
        rw [if_neg hstatus, if_neg hstatus]
        rfl
  · rcases outcome with ⟨text | ⟨name, text⟩ | failure⟩ | r
    case error.connection => exact ⟨_, _, if_pos hleft⟩
    case error.timeout => exact ⟨_, _, if_pos hleft⟩
    case error.broken => cases hpassing
    case ok =>
      have hstatus : ¬ r.status < 500 := by simpa [isPassing] using hpassing
      dsimp only
      rw [if_neg hstatus, if_pos hleft]
      exact ⟨_, _, rfl⟩

/-- The delay after the attempt can be computed and waited for. -/
def RetrySettings.canWait (settings : RetrySettings) (attempt : Nat) : Bool :=
  match settings.delay attempt with
  | .ok delay => delay.toDouble?.isSome
  | .error _ => false

private theorem isOfDelay_of_delay {settings : RetrySettings} {attempt : Nat} {failure : Failure}
    (h : settings.delay attempt = .error failure) : failure.isOfDelay = true := by
  rw [RetrySettings.delay] at h
  split at h
  · cases h
    rfl
  · split at h
    · cases h
    · cases h
      rfl

section Outcomes

variable {σ α : Type} (deliver : Addressed → σ → Delivery × σ)

/-- What becomes of a request that is sent again and again. -/
def outcomes (request : Addressed) (s : σ) : Nat → Delivery
  | 0 => (deliver request s).1
  | n + 1 => outcomes request (deliver request s).2 n

variable (room : Nat) (settings : RetrySettings) (s : σ) (traffic : Traffic)

private theorem runOn_waitAfter (attempt : Nat) (total : Int) (id kind what : String) :
    ∃ ended traffic', (waitAfter settings attempt total id kind what).runOn deliver (s, traffic) =
        (ended, s, traffic') ∧ traffic'.requests = traffic.requests ∧
      (settings.canWait attempt = true → ended = .ok ()) ∧
      (settings.canWait attempt = false →
        ∃ failure, ended = .error failure ∧ failure.isOfDelay = true) := by
  rw [waitAfter, Exchange.runOn_bind, Exchange.runOn_lift, RetrySettings.canWait]
  cases hdelay : settings.delay attempt with
  | error failure =>
    exact ⟨_, _, rfl, rfl, by simp, fun _ => ⟨failure, rfl, isOfDelay_of_delay hdelay⟩⟩
  | ok delay =>
    dsimp only
    rw [Exchange.runOn_bind]
    cases delay.toDouble? with
    | none => exact ⟨_, _, rfl, rfl, by simp, fun _ => ⟨.overflow, rfl, rfl⟩⟩
    | some seconds => exact ⟨_, _, rfl, rfl, fun _ => rfl, by simp⟩

private theorem runOn_waitAfter_then (next : Exchange α) (attempt : Nat) (total : Int)
    (id kind what : String) :
    let step : Exchange α := do waitAfter settings attempt total id kind what; next
    ∃ traffic', traffic'.requests = traffic.requests ∧
      (settings.canWait attempt = true →
        step.runOn deliver (s, traffic) = next.runOn deliver (s, traffic')) ∧
      (settings.canWait attempt = false →
        ∃ failure, step.runOn deliver (s, traffic) = (.error failure, s, traffic') ∧
          failure.isOfDelay = true) := by
  dsimp only
  obtain ⟨ended, traffic', hwait, hsame, hcan, hcannot⟩ :=
    runOn_waitAfter deliver settings s traffic attempt total id kind what
  rw [Exchange.runOn_bind, hwait]
  refine ⟨traffic', hsame, fun h => ?_, fun h => ?_⟩
  · rw [hcan h]
  · obtain ⟨failure, hfailure, hkind⟩ := hcannot h
    exact ⟨failure, by rw [hfailure], hkind⟩

variable {deliver s} {request : Addressed} {outcome : Delivery} {s' : σ}

/-- An attempt whose outcome is not worth another one, or that is the last one, decides. -/
theorem runOn_attempts_last (hdeliver : deliver request s = (outcome, s')) (label id : String)
    (total : Int) (attempt left : Nat) (last : LastAttempt)
    (hlast : isPassing outcome = false ∨ left = 0) :
    ∃ traffic', (attempts room settings label (.ok request) id total attempt last (left + 1)).runOn
        deliver (s, traffic) = (verdict room label total outcome, s', traffic') ∧
      traffic'.requests = traffic.requests ++ [request] := by
  obtain ⟨afterwards, hsend, hends, -⟩ :=
    attempts_succ room settings label request id total attempt left last
  obtain ⟨note, hafterwards⟩ := hends outcome hlast
  rw [hsend, Exchange.runOn_bind, runOn_send traffic hdeliver]
  dsimp only
  rw [hafterwards]
  cases note with
  | none => exact ⟨_, rfl, rfl⟩
  | some message => exact ⟨_, rfl, rfl⟩

/-- After an outcome that is worth it the request is sent again, once the client has waited. -/
theorem runOn_attempts_next (hdeliver : deliver request s = (outcome, s')) (label id : String)
    (total : Int) (attempt left : Nat) (last : LastAttempt) (hpassing : isPassing outcome = true)
    (hleft : left ≠ 0) :
    let step := (attempts room settings label (.ok request) id total attempt last (left + 1)).runOn
      deliver (s, traffic)
    ∃ traffic', traffic'.requests = traffic.requests ++ [request] ∧
      (settings.canWait attempt = true → step =
        (attempts room settings label (.ok request) id total (attempt + 1) (leftBy outcome) left).runOn
          deliver (s', traffic')) ∧
      (settings.canWait attempt = false →
        ∃ failure, step = (.error failure, s', traffic') ∧
          failure.isOfDelay = true) := by
  dsimp only
  obtain ⟨afterwards, hsend, -, hgoes⟩ :=
    attempts_succ room settings label request id total attempt left last
  obtain ⟨kind, what, hafterwards⟩ := hgoes outcome hpassing hleft
  rw [hsend, Exchange.runOn_bind, runOn_send traffic hdeliver]
  dsimp only
  rw [hafterwards]
  exact runOn_waitAfter_then deliver settings s'
    { traffic with requests := traffic.requests ++ [request] }
    (attempts room settings label (.ok request) id total (attempt + 1) (leftBy outcome) left) attempt
    total id kind what

variable (deliver request) in
/-- What comes of a request, by the outcomes of its attempts. Their number is the budget of
repetitions, if all of them are worth another one, and else goes to the first that is not. -/
theorem runOn_attempts_outcomes (s : σ) (traffic : Traffic) (label id : String) (total : Int)
    (attempt left : Nat) (last : LastAttempt) :
    let tape := outcomes deliver request s
    let repeated := repetitions left tape
    let step := (attempts room settings label (.ok request) id total attempt last (left + 1)).runOn
      deliver (s, traffic)
    ((∀ n < repeated, settings.canWait (attempt + n) = true) → ∃ s' traffic',
      step = (verdict room label total (tape repeated), s', traffic') ∧
        traffic'.requests = traffic.requests ++ List.replicate (repeated + 1) request) ∧
    ((∃ n < repeated, settings.canWait (attempt + n) = false) → ∃ failure s' traffic',
      step = (.error failure, s', traffic') ∧ failure.isOfDelay = true) := by
  induction left generalizing attempt last s traffic with
  | zero =>
    obtain ⟨traffic', hstep, hsent⟩ := runOn_attempts_last room settings traffic
      (rfl : deliver request s = (_, _)) label id total attempt 0 last (.inr rfl)
    exact ⟨fun _ => ⟨_, traffic', hstep, hsent⟩, by simp [repetitions]⟩
  | succ left ih =>
    cases hpassing : isPassing (deliver request s).1 with
    | false =>
      have hnone : repetitions (left + 1) (outcomes deliver request s) = 0 := by
        rw [repetitions, outcomes, hpassing]
        rfl
      obtain ⟨traffic', hstep, hsent⟩ := runOn_attempts_last room settings traffic
        (rfl : deliver request s = (_, _)) label id total attempt (left + 1) last (.inl hpassing)
      dsimp only
      rw [hnone]
      exact ⟨fun _ => ⟨_, traffic', hstep, hsent⟩, by simp⟩
    | true =>
      have hmore : repetitions (left + 1) (outcomes deliver request s) =
          repetitions left (outcomes deliver request (deliver request s).2) + 1 := by
        rw [repetitions, outcomes, if_pos hpassing]
        rfl
      obtain ⟨traffic', hsent, hcan, hcannot⟩ := runOn_attempts_next room settings traffic
        (rfl : deliver request s = (_, _)) label id total attempt (left + 1) last hpassing
        (Nat.succ_ne_zero left)
      dsimp only
      rw [hmore]
      refine ⟨fun hwaits => ?_, fun hwaits => ?_⟩
      · have hnext := hcan (by simpa using hwaits 0 (Nat.succ_pos _))
        obtain ⟨s'', traffic'', hstep, hrest⟩ := (ih (deliver request s).2 traffic' (attempt + 1)
          (leftBy (deliver request s).1)).1 fun n hn => by
            simpa [Nat.add_right_comm, Nat.add_assoc] using hwaits (n + 1) (Nat.succ_lt_succ hn)
        refine ⟨s'', traffic'', by rw [hnext]; exact hstep, ?_⟩
        rw [hrest, hsent, List.append_assoc, List.singleton_append, ← List.replicate_succ]
      · obtain ⟨n, hn, hwait⟩ := hwaits
        cases hnow : settings.canWait attempt with
        | false =>
          obtain ⟨failure, hstep, hkind⟩ := hcannot hnow
          exact ⟨failure, _, _, hstep, hkind⟩
        | true =>
          -- the client waits now, so the wait that it cannot do is a later one
          have hnext := hcan hnow
          rcases n with _ | n
          · simp [hnow] at hwait
          · obtain ⟨failure, s'', traffic'', hstep, hkind⟩ := (ih (deliver request s).2 traffic'
              (attempt + 1) (leftBy (deliver request s).1)).2 ⟨n, Nat.lt_of_succ_lt_succ hn, by
                simpa [Nat.add_right_comm, Nat.add_assoc] using hwait⟩
            exact ⟨failure, s'', traffic'', by rw [hnext]; exact hstep, hkind⟩

end Outcomes

end Remote

end BlockFsck
