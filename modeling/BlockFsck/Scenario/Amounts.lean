import BlockFsck.Amount
import BlockFsck.Listing
import BlockFsck.Scenario.Field

/-!
# Amounts in scenarios

Amounts are whole numbers; what a double or a truth value is in the place of one follows the same
rules of calculation.
-/

namespace BlockFsck.Scenario

/-- The text of an amount that has one. -/
def amountText (x : Option String) : Except Failure String :=
  match x with
  | some text => .ok text
  | none => .error .overflow

/-- A size in bytes. -/
def sizeText (size : Json) : Except Failure String :=
  match size with
  | .bool _ => .ok s!"{size.spelled} B"
  | .int n => amountText (Amount.sizeText? n)
  | .float x =>
    if x.lt (.finite 1024) then .ok s!"{size.spelled} B"
    else
      let (x, unit) := Amount.inUnits (x.divPos 1024) Amount.units
      .ok s!"{x.fixed 2} {unit}"
  | _ => .error misfit

/-- What a double is divided by a positive number, or by what is no number. -/
def quotient (x y : Double) : Double :=
  match y.toRat? with
  | some d => x.divPos d
  | none =>
    match x, y with
    | .infinite _, .infinite _ => .nan true
    | .nan s, _ => .nan s
    | _, .nan s => .nan s
    | x, _ => Double.signed x.isNegative 0

/-- What is no number at all is not at most zero either. -/
def isAtMostZero : Number → Bool
  | .int n => n ≤ 0
  | .double x => x.lt (.finite 0) || x.toRat? = some 0

/-- A part of a whole as a percentage. -/
def shareText (part whole : Json) : Except Failure String :=
  match Number.ofJson? whole, Number.ofJson? part with
  | none, _ => .error misfit
  | some whole, part =>
    if isAtMostZero whole then .ok "0.0"
    else
      match part with
      | none => .error misfit
      | some part =>
        match part.toDouble?, whole.toDouble? with
        | some p, some w => .ok ((quotient (p.mul (.finite 100)) w).fixed 1)
        | _, _ => .error .overflow

/-- The closing sentence for a number of corrupt files. A number that is not whole is many or a
mistake. -/
def sentence (count : Json) (path : String) : Except Failure String :=
  match Number.ofJson? count with
  | none => .error misfit
  | some (.int n) => (Listing.sentence n path).mapError .argument
  | some (.double x) =>
    if x.toRat? = some 0 then (Listing.sentence 0 path).mapError .argument
    else if x.toRat? = some 1 then (Listing.sentence 1 path).mapError .argument
    else if x.lt (.finite 0) then
      .error (.told .invalidArgument s!"Corrupt file count must not be negative: {x.shortest}")
    else
      .ok <| s!"There are at least {x.shortest} corrupt files under '{path}', which " ++
        Status.corrupt.marker

end BlockFsck.Scenario
