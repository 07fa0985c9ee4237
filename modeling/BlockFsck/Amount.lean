import BlockFsck.Decimal

/-!
# Amounts in reports

Sizes in binary units with two decimals, and shares of a whole as a percentage with one. Both are
computed in doubles, so that an amount beyond the largest double has no text.
-/

namespace BlockFsck.Amount

/-- The units above the byte; each is 1024 times the one before it. -/
def units : List String := ["KiB", "MiB", "GiB", "TiB"]

/-- Moves to the next unit while the number has four digits before the point or more. -/
def inUnits (x : Double) : List String → Double × String
  | [] => (x, "PiB")
  | unit :: larger =>
    if x.lt (.finite 1024) then (x, unit) else inUnits (x.divPos 1024) larger

/-- A size in bytes below 1024, and in the largest unit that leaves at least one above that; `none`
for a size that no double holds. -/
def sizeText? (bytes : Int) : Option String :=
  if bytes < 1024 then some s!"{bytes} B"
  else do
    let (x, unit) := inUnits ((← Double.ofInt? bytes).divPos 1024) units
    return s!"{x.fixed 2} {unit}"

/-- `part` as a percentage of `whole`; nothing is no part of an empty whole. -/
def percentText? (part whole : Int) : Option String :=
  if whole ≤ 0 then some "0.0"
  else do
    let share := (← Double.ofInt? part).mul (.finite 100)
    let divisor ← Double.ofInt? whole
    return (share.divPos (divisor.toRat?.getD 1)).fixed 1

end BlockFsck.Amount
