import Mathlib.Data.List.Chain
import BlockFsck.Polling
import BlockFsck.Proofs.Number

/-!
# Waiting for a condition

Waiting ends with the first outcome that decides it or when its attempts are used up, and between
the calls there is one delay each, as long as the delays can be computed (`waits_exactly_iff`). The
delays grow up to their bound, above which the first of them may be all the same
(`delays_bounded_iff`).
-/

namespace BlockFsck.Polling

variable {α : Type} {p : Polling} {accepts : α → Bool} {delay : Number} {attempt : Nat}

/-- One more call is allowed after so many. -/
def Allows (p : Polling) (calls : Nat) : Prop := ∀ most ∈ p.maxAttempts, (calls : Int) < most

private theorem Allows.mono {calls fewer : Nat} (h : p.Allows calls) (hle : fewer ≤ calls) :
    p.Allows fewer := fun most hmost => lt_of_le_of_lt (by exact_mod_cast hle) (h most hmost)

/-- A failure ends waiting, and so does a result that is acceptable. -/
def decides (accepts : α → Bool) : Except Failure α → Bool
  | .ok result => accepts result
  | .error _ => true

/-- How waiting is to end on these outcomes, and after how many calls. -/
inductive Stops (p : Polling) (accepts : α → Bool) :
    List (Except Failure α) → Nat → Except Failure α → Prop
  | decided (rejected : List α) (outcome : Except Failure α) (rest : List (Except Failure α))
      (hrejected : ∀ result ∈ rejected, accepts result = false)
      (hdecides : decides accepts outcome = true)
      (hallowed : p.Allows rejected.length) :
      Stops p accepts (rejected.map .ok ++ outcome :: rest) (rejected.length + 1) outcome
  | timedOut (rejected : List α) (rest : List (Except Failure α)) (hne : rejected ≠ [])
      (hrejected : ∀ result ∈ rejected, accepts result = false)
      (hbound : p.maxAttempts = some (rejected.length : Int)) :
      Stops p accepts (rejected.map .ok ++ rest) rejected.length
        (.error (.told .notConverged s!"Condition not met after {rejected.length} attempts"))

/-- So many delays, the given one being the first, can be spelt and followed by another. -/
def canWait (p : Polling) : Number → Nat → Bool
  | _, 0 => true
  | delay, n + 1 => delay.toDouble?.isSome &&
      match p.nextDelay? delay with
      | some next => p.canWait next n
      | none => false

private theorem poll_decided {outcome : Except Failure α} (h : decides accepts outcome = true) :
    ∃ last : Ending α, last.result = outcome ∧ ∀ delay attempt rest,
      p.poll accepts delay attempt (outcome :: rest) = { ending := last, attempts := 1 } := by
  cases outcome with
  | error failure => exact ⟨.failed failure, rfl, fun _ _ _ => rfl⟩
  | ok result => exact ⟨.accepted result, rfl, fun _ _ _ => if_pos h⟩

private theorem poll_timedOut {result : α} (hrejected : accepts result = false)
    (hbound : p.maxAttempts = some (attempt + 1 : Int)) (delay : Number)
    (rest : List (Except Failure α)) :
    p.poll accepts delay attempt (.ok result :: rest) =
      { ending := .timeout (attempt + 1), attempts := 1 } := by
  rw [poll, if_neg (by simp [hrejected]), if_pos (by simp [hbound])]

section Rejected

variable {rejected : List α}

private theorem poll_rejected {result : α} (hrejected : accepts result = false)
    (hallowed : p.Allows (attempt + 1)) (rest : List (Except Failure α)) :
    p.poll accepts delay attempt (.ok result :: rest) =
      if delay.toDouble?.isNone then { ending := .overflow, attempts := 1 }
      else match p.nextDelay? delay with
        | none => { ending := .overflow, attempts := 1, delays := [delay] }
        | some next => (p.poll accepts next (attempt + 1) rest).after delay := by
  have hmore : p.maxAttempts.any (fun most : Int => most ≤ attempt + 1) = false := by
    cases hmost : p.maxAttempts with
    | none => rfl
    | some most => simpa using hallowed most hmost
  rw [poll, if_neg (by simp [hrejected])]
  exact if_neg (by simp [hmore])

private theorem poll_of_canWait (hrejected : ∀ result ∈ rejected, accepts result = false)
    (hallowed : p.Allows (attempt + rejected.length))
    (hwait : p.canWait delay rejected.length = true) (rest : List (Except Failure α)) :
    ∃ delays next, delays.length = rejected.length ∧
      let last := p.poll accepts next (attempt + rejected.length) rest
      p.poll accepts delay attempt (rejected.map .ok ++ rest) =
        ⟨last.ending, rejected.length + last.attempts, delays ++ last.delays⟩ := by
  induction rejected generalizing delay attempt with
  | nil => exact ⟨[], delay, rfl, by simp⟩
  | cons result rejected ih =>
    rw [List.forall_mem_cons] at hrejected
    rw [List.length_cons, canWait, Bool.and_eq_true] at hwait
    rw [List.length_cons] at hallowed
    have hfirst : p.Allows (attempt + 1) := hallowed.mono (by omega)
    have hothers : p.Allows (attempt + 1 + rejected.length) := hallowed.mono (by omega)
    have hspelt : ¬ delay.toDouble?.isNone = true := by
      simpa [Option.isSome_iff_ne_none] using hwait.1
    cases hn : p.nextDelay? delay with
    | none =>
      rw [hn] at hwait
      cases hwait.2
    | some next =>
      rw [hn] at hwait
      obtain ⟨delays, final, hlength, hrun⟩ := ih hrejected.2 hothers hwait.2
      refine ⟨delay :: delays, final, by simp [hlength], ?_⟩
      rw [List.map_cons, List.cons_append, poll_rejected hrejected.1 hfirst, if_neg hspelt, hn]
      dsimp only
      rw [hrun, List.length_cons, Trace.after]
      simp only [Nat.add_assoc, Nat.add_comm 1, List.cons_append]

private theorem attempts_of_not_canWait (hrejected : ∀ result ∈ rejected, accepts result = false)
    (hallowed : p.Allows (attempt + rejected.length))
    (hwait : p.canWait delay rejected.length = false) (rest : List (Except Failure α)) :
    (p.poll accepts delay attempt (rejected.map .ok ++ rest)).attempts ≤ rejected.length := by
  induction rejected generalizing delay attempt with
  | nil => cases hwait
  | cons result rejected ih =>
    rw [List.forall_mem_cons] at hrejected
    rw [List.length_cons, canWait, Bool.and_eq_false_iff] at hwait
    rw [List.length_cons] at hallowed
    have hfirst : p.Allows (attempt + 1) := hallowed.mono (by omega)
    have hothers : p.Allows (attempt + 1 + rejected.length) := hallowed.mono (by omega)
    rw [List.map_cons, List.cons_append, poll_rejected hrejected.1 hfirst, List.length_cons]
    split_ifs with hspelt
    · exact Nat.le_add_left 1 _
    have hnext := hwait.resolve_left (by simpa [Option.isSome_iff_ne_none] using hspelt)
    cases hn : p.nextDelay? delay with
    | none => exact Nat.le_add_left 1 _
    | some next =>
      rw [hn] at hnext
      exact Nat.add_le_add_right (ih hrejected.2 hothers hnext) 1

/-- If what comes after the rejected results ends waiting at once, then as many calls are made as it
takes, if and only if it can be waited as often. -/
theorem poll_exact_iff (delay : Number) (hrejected : ∀ result ∈ rejected, accepts result = false)
    (hallowed : p.Allows (attempt + rejected.length))
    {rest : List (Except Failure α)} {last : Ending α}
    (hlast : ∀ next, p.poll accepts next (attempt + rejected.length) rest =
      { ending := last, attempts := 1 }) :
    let trace := p.poll accepts delay attempt (rejected.map .ok ++ rest)
    trace.attempts = rejected.length + 1 ∧ trace.delays.length + 1 = rejected.length + 1 ∧
        trace.ending.result = last.result ↔
      p.canWait delay rejected.length = true := by
  intro trace
  constructor
  · rintro ⟨hattempts, -, -⟩
    by_contra hwait
    have hfew := attempts_of_not_canWait hrejected hallowed (Bool.eq_false_iff.mpr hwait) rest
    change trace.attempts ≤ _ at hfew
    omega
  · intro hwait
    obtain ⟨delays, next, hlength, hrun⟩ := poll_of_canWait hrejected hallowed hwait rest
    dsimp only at hrun
    rw [hlast next, List.append_nil] at hrun
    change trace = _ at hrun
    rw [hrun]
    exact ⟨rfl, by rw [hlength], rfl⟩

end Rejected

/-- The settings are all doubles. -/
structure InDoubles (p : Polling) : Prop where
  interval : ∃ x, p.interval = .double x
  backoff : ∃ x, p.backoff = .double x
  bound : ∀ bound ∈ p.maxInterval, ∃ x, bound = .double x

private theorem InDoubles.canWait (h : p.InDoubles) (calls : Nat) :
    p.canWait p.interval calls = true := by
  obtain ⟨x, hx⟩ := h.interval
  obtain ⟨y, hy⟩ := h.backoff
  rw [hx]
  clear hx
  induction calls generalizing x with
  | zero => rfl
  | succ calls ih =>
    obtain ⟨z, hz⟩ : ∃ z, p.nextDelay? (.double x) = some (.double z) := by
      rw [nextDelay?, hy]
      cases hmax : p.maxInterval with
      | none => exact ⟨x.mul y, rfl⟩
      | some bound =>
        obtain ⟨most, rfl⟩ := h.bound bound hmax
        cases hless : (Number.double most).lt (.double (x.mul y)) with
        | true => exact ⟨most, congrArg some (if_pos hless)⟩
        | false => exact ⟨x.mul y, congrArg some (if_neg (Bool.eq_false_iff.mp hless))⟩
    rw [Polling.canWait, hz]
    exact ih z

private theorem canWait_int {a b : Int} (hb : p.backoff = .int b) (hmax : p.maxInterval = none)
    (calls : Nat) :
    p.canWait (.int a) calls = true ↔ ∀ k < calls, (Double.ofInt? (a * b ^ k)).isSome := by
  induction calls generalizing a with
  | zero => simp [canWait]
  | succ calls ih =>
    have hnext : p.nextDelay? (.int a) = some (.int (a * b)) := by
      rw [nextDelay?, hb, hmax]
      rfl
    rw [canWait, hnext, Bool.and_eq_true]
    dsimp only
    rw [ih, Nat.forall_lt_succ_left, pow_zero, mul_one]
    simp only [pow_succ', mul_assoc, Number.toDouble?]

private theorem fault?_eq_none_iff : p.fault? = none ↔
    p.interval.lt (.int 0) = false ∧ p.backoff.lt (.int 1) = false ∧
      ∀ most ∈ p.maxAttempts, 1 ≤ most := by
  cases hi : p.interval.lt (.int 0) <;> cases hb : p.backoff.lt (.int 1) <;>
    simp [fault?, hi, hb]
  cases p.maxAttempts <;> simp

/-- Waiting makes as many calls as it takes, with one delay less, and ends as it should, if and only
if the delays that it takes can be spelt and computed, the one after the last of them included.
Settings that are out of range are refused before the first call. -/
theorem waits_exactly_iff (p : Polling) (accepts : α → Bool) :
    (p.fault? = none ↔ p.interval.lt (.int 0) = false ∧ p.backoff.lt (.int 1) = false ∧
      ∀ most ∈ p.maxAttempts, 1 ≤ most) ∧
    (∀ reason, p.fault? = some reason → ∀ outcomes : List (Except Failure α),
      let trace := p.run accepts outcomes
      trace.attempts = 0 ∧ trace.delays = [] ∧
        trace.ending.result = .error (.told .invalidValue reason)) ∧
    (p.fault? = none → ∀ outcomes calls result, p.Stops accepts outcomes calls result →
      let trace := p.run accepts outcomes
      (trace.attempts = calls ∧ trace.delays.length + 1 = calls ∧ trace.ending.result = result ↔
        p.canWait p.interval (calls - 1) = true)) ∧
    (p.InDoubles → ∀ calls, p.canWait p.interval calls = true) ∧
    ∀ a b, p.interval = .int a → p.backoff = .int b → p.maxInterval = none → ∀ calls,
      (p.canWait p.interval calls = true ↔ ∀ k < calls, (Double.ofInt? (a * b ^ k)).isSome) := by
  refine ⟨fault?_eq_none_iff, ?_, ?_, InDoubles.canWait, ?_⟩
  · intro reason hfault outcomes
    rw [run, hfault]
    exact ⟨rfl, rfl, rfl⟩
  · intro hfault outcomes calls result hstops
    rw [run, hfault]
    cases hstops with
    | decided rejected outcome rest hrejected hdecides hallowed =>
      obtain ⟨last, hresult, hlast⟩ := poll_decided (p := p) hdecides
      rw [← Nat.zero_add rejected.length] at hallowed
      have hexact := poll_exact_iff p.interval hrejected hallowed
        (fun next => hlast next _ rest)
      rw [hresult] at hexact
      exact hexact
    | timedOut rejected rest hne hrejected hbound =>
      obtain ⟨front, last, rfl⟩ := (List.eq_nil_or_concat' rejected).resolve_left hne
      rw [List.length_append, List.length_singleton] at hbound ⊢
      rw [List.forall_mem_append, List.forall_mem_singleton] at hrejected
      have hallowed : p.Allows (0 + front.length) := by
        intro most hmost
        rw [Option.mem_unique hmost hbound]
        push_cast
        omega
      have hexact := poll_exact_iff p.interval hrejected.1 hallowed
        (fun next => poll_timedOut hrejected.2 (by simpa using hbound) next rest)
      rw [List.map_append, List.append_assoc]
      simpa [Ending.result] using hexact
  · intro a b ha hb hmax calls
    rw [ha]
    exact canWait_int hb hmax calls

/-- Three attempts with two delays, which doubles can be waited for. -/
theorem waits_exactly_iff_of_threeAttempts :
    let p : Polling :=
      { interval := .double (.finite (1 / 2)), backoff := .double (.finite 2)
        maxAttempts := some 3 }
    let trace := p.run (fun result : String => decide (result = "a")) [.ok "b", .ok "b", .ok "b"]
    trace.attempts = 3 ∧ trace.delays.length + 1 = 3 ∧
      trace.ending.result = .error (.told .notConverged "Condition not met after 3 attempts") := by
  intro p trace
  obtain ⟨-, -, hexact, hdoubles, -⟩ :=
    waits_exactly_iff p fun result : String => decide (result = "a")
  have hp : p.InDoubles := ⟨⟨_, rfl⟩, ⟨_, rfl⟩, by simp [p]⟩
  have hfault : p.fault? = none := by decide +kernel
  have hstops : p.Stops (fun result : String => decide (result = "a")) [.ok "b", .ok "b", .ok "b"]
      3 (.error (.told .notConverged "Condition not met after 3 attempts")) :=
    .timedOut ["b", "b", "b"] [] (by simp) (by decide) rfl
  exact (hexact hfault _ _ _ hstops).mpr (hdoubles hp _)

/-- The second result would be acceptable, but the delay that would come after the one before it is
too large for a double. -/
theorem backoff_ends_waiting :
    let p : Polling := { interval := .double (.finite (1 / 2)), backoff := .int (10 ^ 309) }
    let accepts := fun result : String => decide (result = "a")
    let trace := p.run accepts [.ok "b", .ok "a"]
    p.fault? = none ∧ p.Stops accepts [.ok "b", .ok "a"] 2 (.ok "a") ∧
      trace.attempts = 1 ∧ trace.ending.result = .error .overflow := by
  intro p accepts trace
  refine ⟨by decide +kernel, ?_, by decide +kernel, by decide +kernel⟩
  exact .decided ["b"] (.ok "a") [] (by decide) (by decide) (by simp [Allows, p])

/-! ## Delays -/

private theorem poll_delays (outcomes : List (Except Failure α)) :
    let delays := (p.poll accepts delay attempt outcomes).delays
    (∀ first ∈ delays.head?, first = delay) ∧
      delays.IsChain (fun before after => p.nextDelay? before = some after) := by
  induction outcomes generalizing delay attempt with
  | nil => exact ⟨by simp [poll], by simp [poll]⟩
  | cons outcome rest ih =>
    cases outcome with
    | error failure => exact ⟨by simp [poll], by simp [poll]⟩
    | ok result =>
      rw [poll]
      split_ifs
      · exact ⟨by simp, by simp⟩
      · exact ⟨by simp, by simp⟩
      · exact ⟨by simp, by simp⟩
      · cases hn : p.nextDelay? delay with
        | none => exact ⟨by simp, by simp⟩
        | some next =>
          obtain ⟨hfirst, hchain⟩ := @ih next (attempt + 1)
          refine ⟨by simp [Trace.after], ?_⟩
          refine hchain.cons fun first hmem => ?_
          rw [hfirst first hmem, hn]

section Bounded

variable {bound before after : Number}

private theorem nextDelay?_eq_some (hmax : p.maxInterval = some bound)
    (h : p.nextDelay? before = some after) :
    ∃ grown, before.mul? p.backoff = some grown ∧ after = grown.least bound := by
  obtain ⟨grown, hgrown, hafter⟩ := Option.bind_eq_some_iff.mp h
  rw [hmax] at hafter
  exact ⟨grown, hgrown, (Option.some.inj hafter).symm⟩

/-- What is kept from one delay to the next. -/
structure IsWithin (p : Polling) (bound delay : Number) : Prop where
  low : p.interval ≤ delay
  high : delay ≤ bound
  steady : delay.IsSteady p.backoff

private theorem IsWithin.next (h : p.IsWithin bound before) (hmax : p.maxInterval = some bound)
    (hinterval : .int 0 ≤ p.interval) (hbackoff : .int 1 ≤ p.backoff)
    (hsteady : bound.IsSteady p.backoff)
    (hz : ¬ (p.interval ≤ .int 0 ∧ p.backoff = .double (.infinite false)))
    (hnext : p.nextDelay? before = some after) : before ≤ after ∧ p.IsWithin bound after := by
  obtain ⟨grown, hgrown, rfl⟩ := nextDelay?_eq_some hmax hnext
  have hpositive : ¬ (before ≤ .int 0 ∧ p.backoff = .double (.infinite false)) :=
    fun ⟨hzero, hinfinite⟩ => hz ⟨Number.le_trans h.low hzero, hinfinite⟩
  obtain ⟨hgrows, hsteadily⟩ :=
    h.steady.le_mul? (Number.le_trans hinterval h.low) hbackoff hpositive hgrown
  have hle : before ≤ grown.least bound := Number.le_least hgrows h.high
  refine ⟨hle, Number.le_trans h.low hle, ?_, ?_⟩
  · exact Number.least_le (Number.le_self_right hgrows) (Number.le_self_right h.high)
  · rw [Number.least]
    split_ifs
    · exact hsteady
    · exact hsteadily

end Bounded

/-- The delays stay between zero and their bound and never decrease, if and only if there are none
or the first of them is not above the bound, and not zero with an infinite factor unless it is the
only one. The later ones are never above it. -/
theorem delays_bounded_iff {bound : Number} (hmax : p.maxInterval = some bound)
    (hinterval : .int 0 ≤ p.interval) (hbackoff : .int 1 ≤ p.backoff)
    (hfirst : p.interval.IsSteady p.backoff) (hlast : bound.IsSteady p.backoff)
    (accepts : α → Bool) (outcomes : List (Except Failure α)) :
    let delays := (p.run accepts outcomes).delays
    ((∀ delay ∈ delays, .int 0 ≤ delay ∧ delay ≤ bound) ∧ delays.Pairwise (· ≤ ·) ↔
      delays = [] ∨ p.interval ≤ bound ∧ (delays.length = 1 ∨
        ¬ (p.interval ≤ .int 0 ∧ p.backoff = .double (.infinite false)))) ∧
    ∀ delay ∈ delays.tail, bound.lt delay = false := by
  intro delays
  obtain ⟨hhead, hchain⟩ : (∀ first ∈ delays.head?, first = p.interval) ∧
      delays.IsChain fun before after => p.nextDelay? before = some after := by
    simp only [delays, run]
    split
    · exact ⟨by simp, by simp⟩
    · exact poll_delays outcomes
  clear_value delays
  rcases delays with _ | ⟨first, rest⟩
  · simp
  obtain rfl : first = p.interval := hhead first rfl
  have hrest : ∀ delay ∈ rest, bound.lt delay = false := by
    have hnext : ∀ before after, p.nextDelay? before = some after → bound.lt after = false := by
      intro before after hnext
      obtain ⟨grown, -, rfl⟩ := nextDelay?_eq_some hmax hnext
      exact Number.not_lt_least grown bound
    exact hchain.tail.induction _ _ (fun before after h _ => hnext before after h)
      fun hne => hnext _ _ (hchain.rel_head? (List.head_mem_head? hne))
  refine ⟨⟨?_, ?_⟩, hrest⟩
  · rintro ⟨hwithin, -⟩
    refine .inr ⟨(hwithin _ List.mem_cons_self).2, ?_⟩
    rcases rest with _ | ⟨second, rest⟩
    · exact .inl rfl
    right
    rintro ⟨hzero, hinfinite⟩
    obtain ⟨grown, hgrown, rfl⟩ := nextDelay?_eq_some hmax (hchain.rel_head? rfl)
    rw [hinfinite] at hgrown
    have hnone := Number.value?_zero_mul_infinite hinterval hzero hgrown
    rw [Number.least_of_value?_eq_none hnone] at hwithin
    obtain ⟨a, ha, -⟩ := Number.int_le_iff.mp (hwithin grown (by simp)).1
    rw [hnone] at ha
    cases ha
  · rintro (hnil | ⟨hle, hone | hz⟩)
    · cases hnil
    · obtain rfl : rest = [] := List.length_eq_zero_iff.mp (Nat.succ.inj hone)
      simpa using ⟨hinterval, hle⟩
    · have hfirstWithin : p.IsWithin bound p.interval :=
        ⟨Number.le_self_right hinterval, hle, hfirst⟩
      have hwithin : ∀ delay ∈ p.interval :: rest, p.IsWithin bound delay :=
        hchain.induction _ _
          (fun before after hnext h =>
            (h.next hmax hinterval hbackoff hlast hz hnext).2)
          fun _ => hfirstWithin
      have hsorted : (p.interval :: rest).IsChain (· ≤ ·) :=
        hchain.imp_of_mem_imp fun before after hbefore _ hnext =>
          ((hwithin before hbefore).next hmax hinterval hbackoff hlast hz hnext).1
      refine ⟨fun delay hmem => ?_, List.isChain_iff_pairwise.mp hsorted⟩
      exact ⟨Number.le_trans hinterval (hwithin delay hmem).low, (hwithin delay hmem).high⟩

/-- A delay that is doubled each time until it is three seconds. -/
theorem delays_bounded_iff_of_doubling :
    let p : Polling :=
      { interval := .int 1, backoff := .double (.finite 2), maxInterval := some (.int 3) }
    let delays := (p.run (fun result : String => decide (result = "a"))
      [.ok "b", .ok "b", .ok "b", .ok "b", .ok "a"]).delays
    delays = [.int 1, .double (.finite 2), .int 3, .int 3] ∧
      (∀ delay ∈ delays, .int 0 ≤ delay ∧ delay ≤ .int 3) ∧ delays.Pairwise (· ≤ ·) := by
  intro p delays
  have hbackoff : .int 1 ≤ p.backoff := Number.int_le_iff.mpr ⟨_, rfl, by simp⟩
  have hz : ¬ (p.interval ≤ .int 0 ∧ p.backoff = .double (.infinite false)) := by simp [p]
  have hiff := (delays_bounded_iff (p := p) rfl (Number.int_le_int.mpr zero_le_one) hbackoff
    (.inl (Number.isDouble_int (by decide))) (.inl (Number.isDouble_int (by decide)))
    (fun result => decide (result = "a")) [.ok "b", .ok "b", .ok "b", .ok "b", .ok "a"]).1
  exact ⟨by decide +kernel, hiff.mpr (.inr ⟨Number.int_le_int.mpr (by decide), .inr hz⟩)⟩

/-- The first delay is five seconds, although none is to be longer than one. -/
theorem first_delay_above_bound :
    let p : Polling :=
      { interval := .int 5, backoff := .double (.finite 1), maxInterval := some (.int 1) }
    let delays := (p.run (fun result : String => decide (result = "a"))
      [.ok "b", .ok "b", .ok "a"]).delays
    p.fault? = none ∧ delays = [.int 5, .int 1] ∧ ¬ (Number.int 5 ≤ .int 1) :=
  ⟨by decide +kernel, by decide +kernel, by simp [Number.int_le_int]⟩

end BlockFsck.Polling
