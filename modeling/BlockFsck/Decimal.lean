import BlockFsck.Double

/-!
# Decimal text of doubles

Two texts: a fixed number of places, which rounds the exact value with ties to even, and the
shortest, which writes the fewest digits that read back as the same double.
-/

namespace BlockFsck

def digits (n : Nat) : List Char := Nat.toDigits 10 n

def zeros (n : Nat) : List Char := List.replicate n '0'

/-- The integer `n` read as a count of units of the last of `places` decimal places. -/
def placeText (places n : Nat) : String :=
  let ds := digits n
  let padded := zeros (places + 1 - ds.length) ++ ds
  let whole := padded.take (padded.length - places)
  let fraction := padded.drop (padded.length - places)
  String.ofList (if places = 0 then whole else whole ++ '.' :: fraction)

namespace Double

/-- The number rounded to `places` decimal places, never with an exponent. -/
def fixed (places : Nat) (x : Double) : String :=
  match x with
  | .nan _ => "nan"
  | .infinite negative => if negative then "-inf" else "inf"
  | x =>
    let q := x.toRat?.getD 0
    let body := placeText places (roundDiv (q.num.natAbs * Nat.pow 10 places) q.den)
    if x.isNegative then "-" ++ body else body

/-- How many digits `num / den` has before the point; zero and below count leading zeros after
it. -/
def pointPosition (num den : Nat) : Int :=
  if den ≤ num then (digits (num / den)).length
  else 1 - (digits ((den + num - 1) / num - 1)).length

/-- A count of decimal grid steps, where a step is `10 ^ exponent`. -/
structure DecimalSteps where
  steps : Nat
  exponent : Int
  deriving Repr, DecidableEq

def DecimalSteps.value (d : DecimalSteps) : Rat :=
  if 0 ≤ d.exponent then ((d.steps * Nat.pow 10 d.exponent.toNat : Nat) : Rat)
  else mkRat d.steps (Nat.pow 10 (-d.exponent).toNat)

/-- The grid neighbours of `x` that read back as `x`, the nearer one first and, where both are
equally near, the even one. -/
def readingBack (x : Rat) (exponent : Int) : Option DecimalSteps :=
  let num := if 0 ≤ exponent then x.num.natAbs else x.num.natAbs * Nat.pow 10 (-exponent).toNat
  let den := if 0 ≤ exponent then x.den * Nat.pow 10 exponent.toNat else x.den
  let below : DecimalSteps := ⟨num / den, exponent⟩
  let above : DecimalSteps := ⟨num / den + 1, exponent⟩
  let order := if (roundDiv num den = num / den) then [below, above] else [above, below]
  order.find? fun d => nearest d.value = .finite x

/-- Tries one significant digit more at a time. -/
def fewestDigits (x : Rat) (point : Int) (tried : Nat) : (left : Nat) → DecimalSteps
  | 0 => ⟨0, 0⟩
  | left + 1 =>
    match readingBack x (point - (tried + 1)) with
    | some d => d
    | none => fewestDigits x point (tried + 1) left

/-- The digits without trailing zeros, and the position of the point before them. -/
def shortestDigits (x : Rat) : List Char × Int :=
  let d := fewestDigits x (pointPosition x.num.natAbs x.den) 0 17
  let ds := digits d.steps
  ((ds.reverse.dropWhile (· = '0')).reverse, ds.length + d.exponent)

/-- Positional from `0.0001` up to sixteen digits before the point, with an exponent of at least two
digits elsewhere; a whole number ends in `.0`. -/
def layout (ds : List Char) (point : Int) : List Char :=
  if -4 < point ∧ point ≤ 16 then
    if point ≤ 0 then '0' :: '.' :: zeros (-point).toNat ++ ds
    else
      let n := point.toNat
      if ds.length ≤ n then ds ++ zeros (n - ds.length) ++ ['.', '0']
      else ds.take n ++ '.' :: ds.drop n
  else
    let e := point - 1
    let es := digits e.natAbs
    let mantissa := match ds with
      | [] => []
      | [c] => [c]
      | c :: rest => c :: '.' :: rest
    mantissa ++ 'e' :: (if e < 0 then '-' else '+') :: zeros (2 - es.length) ++ es

/-- The fewest digits that read back, and of those the nearest to the exact value. -/
def shortest (x : Double) : String :=
  match x with
  | .nan _ => "nan"
  | .infinite negative => if negative then "-inf" else "inf"
  | .negativeZero => "-0.0"
  | .finite q =>
    if q = 0 then "0.0"
    else
      let magnitude := if q < 0 then -q else q
      let (ds, point) := shortestDigits magnitude
      let body := String.ofList (layout ds point)
      if q < 0 then "-" ++ body else body

end Double

end BlockFsck
