/-!
# Double-precision numbers as exact rationals

A finite double is the rational it stands for, so that arithmetic is exact arithmetic followed by
one rounding: to nearest on the grid of 53 significant bits, ties to even, with gradual underflow
and overflow to infinity.
-/

namespace BlockFsck

/-- A quotient rounded to the nearest integer, a tie to the even one. -/
def roundDiv (num den : Nat) : Nat :=
  let q := num / den
  let r := num % den
  if 2 * r < den then q else if den < 2 * r then q + 1 else q + q % 2

/-- Zero has two signs, of which `negativeZero` is one and `finite 0` the other. What is not a
number has a sign too, which nothing but its bits shows. -/
inductive Double
  | finite (value : Rat)
  | negativeZero
  | infinite (negative : Bool)
  | nan (negative : Bool)
  deriving DecidableEq

namespace Double

instance : Inhabited Double := ⟨.finite 0⟩

/-- The largest power of two not above `num / den`. -/
def binaryExponent (num den : Nat) : Int :=
  let e : Int := (Nat.log2 num : Int) - Nat.log2 den
  let reaches := if 0 ≤ e then den * Nat.pow 2 e.toNat ≤ num else den ≤ num * Nat.pow 2 (-e).toNat
  if reaches then e else e - 1

/-- The exponent of the grid on which a value of that size is rounded. -/
def gridExponent (num den : Nat) : Int := max (binaryExponent num den - 52) (-1074)

/-- How many grid steps come nearest to `num / den`. -/
def gridSteps (num den : Nat) (e : Int) : Nat :=
  if 0 ≤ e then roundDiv num (den * Nat.pow 2 e.toNat)
  else roundDiv (num * Nat.pow 2 (-e).toNat) den

def scale (m : Nat) (e : Int) : Rat :=
  if 0 ≤ e then ((m * Nat.pow 2 e.toNat : Nat) : Rat) else mkRat m (Nat.pow 2 (-e).toNat)

/-- Magnitudes from here on are beyond the largest double. -/
def bound : Rat := (Nat.pow 2 1024 : Rat)

/-- The magnitude of the double nearest to a positive quotient, if it is finite. -/
def roundMagnitude (num den : Nat) : Option Rat :=
  if num = 0 then some 0
  else
    let e := gridExponent num den
    let x := scale (gridSteps num den e) e
    if x < bound then some x else none

/-- A magnitude with a sign, where a negative zero keeps its sign. -/
def signed (negative : Bool) (x : Rat) : Double :=
  if x = 0 then (if negative then .negativeZero else .finite 0)
  else .finite (if negative then -x else x)

/-- The double nearest to a quotient with the given sign. -/
def roundSigned (negative : Bool) (num den : Nat) : Double :=
  match roundMagnitude num den with
  | some x => signed negative x
  | none => .infinite negative

def nearest (x : Rat) : Double := roundSigned (x < 0) x.num.natAbs x.den

/-- The rational that a finite double stands for. -/
def toRat? : Double → Option Rat
  | .finite x => some x
  | .negativeZero => some 0
  | _ => none

def isNegative : Double → Bool
  | .finite x => x < 0
  | .negativeZero => true
  | .infinite negative => negative
  | .nan negative => negative

/-- The double nearest to an integer; `none` where that would be infinite. -/
def ofInt? (n : Int) : Option Double :=
  match nearest n with
  | .infinite _ => none
  | x => some x

/-- The quotient of two integers rounded once; `none` where that would be infinite. A zero quotient
keeps the sign of the divisor. -/
def ofQuotient? (n d : Int) : Option Double :=
  match roundSigned ((n < 0) != (d < 0)) n.natAbs d.natAbs with
  | .infinite _ => none
  | x => some x

/-- The product. That of zero and infinity is the negative `nan`. -/
def mul (x y : Double) : Double :=
  match x, y with
  | .nan s, _ => .nan s
  | _, .nan s => .nan s
  | .infinite s, y => if y.toRat? = some 0 then .nan true else .infinite (s != y.isNegative)
  | x, .infinite s => if x.toRat? = some 0 then .nan true else .infinite (s != x.isNegative)
  | x, y =>
    let a := x.toRat?.getD 0
    let b := y.toRat?.getD 0
    let p := a * b
    roundSigned (x.isNegative != y.isNegative) p.num.natAbs p.den

/-- Division by a positive finite number. -/
def divPos (x : Double) (d : Rat) : Double :=
  match x with
  | .nan s => .nan s
  | .infinite s => .infinite s
  | x =>
    let q := x.toRat?.getD 0 / d
    roundSigned x.isNegative q.num.natAbs q.den

/-- Strictly less; nothing is less than or greater than `nan`. -/
def lt : Double → Double → Bool
  | .nan _, _ => false
  | _, .nan _ => false
  | .infinite s, .infinite t => s && !t
  | .infinite s, _ => s
  | _, .infinite t => !t
  | x, y => x.toRat?.getD 0 < y.toRat?.getD 0

/-- The interchange format: sign bit, eleven exponent bits, fifty-two fraction bits. -/
def toBits : Double → Nat
  | .nan negative => 0x7ff8000000000000 + (if negative then Nat.pow 2 63 else 0)
  | .infinite negative => 0x7ff0000000000000 + (if negative then Nat.pow 2 63 else 0)
  | .negativeZero => Nat.pow 2 63
  | .finite x =>
    let num := x.num.natAbs
    let sign := if x < 0 then Nat.pow 2 63 else 0
    if num = 0 then 0
    else
      let e := gridExponent num x.den
      let m := gridSteps num x.den e
      let field := if m < Nat.pow 2 52 then m else (e + 1074).toNat * Nat.pow 2 52 + m
      sign + field

end Double

end BlockFsck
