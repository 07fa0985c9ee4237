import BlockFsck.Failure
import BlockFsck.Number

/-!
# Waiting for a condition

An action is repeated until its result is acceptable, with a delay before each repetition that
grows by a factor up to a bound. The action is given by the outcomes of its calls in order. The
sleeper is the caller's: it takes every delay that a double can hold, so that a limit of its own,
such as the three hundred years of a system clock, is not among the endings.
-/

namespace BlockFsck

structure Polling where
  interval : Number
  backoff : Number
  maxInterval : Option Number := none
  maxAttempts : Option Int := none
  deriving DecidableEq

namespace Polling

/-- How waiting ended. `exhausted` is a call for which there was no outcome left. -/
inductive Ending (α : Type)
  | accepted (result : α)
  | failed (failure : Failure)
  | outOfRange (reason : String)
  | timeout (attempts : Nat)
  | overflow
  | exhausted

/-- The ending, the number of calls with an outcome, and the delays between them. -/
structure Trace (α : Type) where
  ending : Ending α
  attempts : Nat := 0
  delays : List Number := []

variable {α : Type}

/-- The delays as doubles. -/
def Trace.sleeps (trace : Trace α) : List Double := trace.delays.filterMap Number.toDouble?

/-- A call and a delay before what followed. -/
def Trace.after (trace : Trace α) (delay : Number) : Trace α :=
  { trace with attempts := trace.attempts + 1, delays := delay :: trace.delays }

/-- The attempts that a bound given as a number allows; `none` if it sets no bound. Attempts are
whole, so that a bound between two integers is reached at the upper one, and a bound below one
allows none. -/
def attemptBound? : Number → Option Int
  | .int n => some n
  | .double x =>
    if x.lt (.finite 1) then some 0 else x.toRat?.map fun (q : Rat) => q.ceil

/-- The delay that follows a delay; `none` where it cannot be computed. -/
def nextDelay? (p : Polling) (delay : Number) : Option Number := do
  let grown ← delay.mul? p.backoff
  return match p.maxInterval with
    | some bound => grown.least bound
    | none => grown

/-- Goes through the outcomes, `attempt` calls having been made before. -/
def poll (p : Polling) (accepts : α → Bool) (delay : Number) (attempt : Nat) :
    List (Except Failure α) → Trace α
  | [] => { ending := .exhausted }
  | .error failure :: _ => { ending := .failed failure, attempts := 1 }
  | .ok result :: rest =>
    if accepts result then { ending := .accepted result, attempts := 1 }
    else if p.maxAttempts.any fun (most : Int) => most ≤ attempt + 1 then
      { ending := .timeout (attempt + 1), attempts := 1 }
    -- the delay is spelt as a double before it is waited for
    else if delay.toDouble?.isNone then { ending := .overflow, attempts := 1 }
    else
      match p.nextDelay? delay with
      | none => { ending := .overflow, attempts := 1, delays := [delay] }
      | some next => (poll p accepts next (attempt + 1) rest).after delay

/-- Why the settings are no good, if they are not. -/
def fault? (p : Polling) : Option String :=
  if p.interval.lt (.int 0) || p.backoff.lt (.int 1) then
    some "interval must be >= 0 and backoff >= 1.0"
  else if p.maxAttempts.any (· < 1) then some "max_attempts must be at least 1"
  else none

def run (p : Polling) (accepts : α → Bool) (outcomes : List (Except Failure α)) : Trace α :=
  match p.fault? with
  | some reason => { ending := .outOfRange reason }
  | none => p.poll accepts p.interval 0 outcomes

/-- The failure that an ending stands for, or the accepted result. -/
def Ending.result : Ending α → Except Failure α
  | .accepted result => .ok result
  | .failed failure => .error failure
  | .outOfRange reason => .error (.told .invalidValue reason)
  | .timeout attempts =>
    .error (.told .notConverged s!"Condition not met after {attempts} attempts")
  | .overflow => .error .overflow
  | .exhausted => .error (.told .unexpected "results exhausted")

end Polling

end BlockFsck
