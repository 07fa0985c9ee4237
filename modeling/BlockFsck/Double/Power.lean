import BlockFsck.Double.Exponential

/-!
# Powers of doubles

A power is the exponential of a multiple of a logarithm. The logarithm is known to more bits than a
double has, so that nearly all powers are the nearest doubles.
-/

namespace BlockFsck.Double

/-- The power of a positive double, if it is finite. -/
def powMagnitude (x : Rat) (n : Nat) : Option Rat :=
  let (high, low) := logarithm x
  let product := rounded (n * high)
  exponential product (rounded (n * low + rounded (n * high - product)))

/-- A power with a natural exponent. -/
def pow (x : Double) (n : Nat) : Double :=
  if n = 0 then .finite 1
  else
    let negative := x.isNegative && n % 2 == 1
    match x with
    | .nan s => .nan s
    | .infinite _ => .infinite negative
    | x =>
      let base := x.toRat?.getD 0
      if base = 0 then signed negative 0
      else
        match powMagnitude base.abs n with
        | some power => signed negative power
        | none => .infinite negative

end BlockFsck.Double
