import BlockFsck.Decimal
import BlockFsck.Double.Power
import BlockFsck.Json.Value

/-!
# Delays

A number of seconds is an exact integer or a double. Integers stay exact under multiplication and
powers until they meet a double.
-/

namespace BlockFsck

inductive Number
  | int (value : Int)
  | double (value : Double)
  deriving DecidableEq

namespace Number

/-- The number that a JSON value stands for, a truth value being zero or one. -/
def ofJson? : Json → Option Number
  | .int n => some (.int n)
  | .bool b => some (.int (if b then 1 else 0))
  | .float x => some (.double x)
  | _ => none

/-- The nearest double; `none` for an integer that no double holds. -/
def toDouble? : Number → Option Double
  | .int n => Double.ofInt? n
  | .double x => some x

def text : Number → String
  | .int n => toString n
  | .double x => x.shortest

/-- Exact comparison, whatever the two numbers are stored as. -/
def lt : Number → Number → Bool
  | .int m, .int n => m < n
  | .int m, .double y => (Double.finite m).lt y
  | .double x, .int n => x.lt (.finite n)
  | .double x, .double y => x.lt y

/-- The product; `none` where an integer meets a double and is too large for one. -/
def mul? : Number → Number → Option Number
  | .int m, .int n => some (.int (m * n))
  | x, y => do return .double ((← x.toDouble?).mul (← y.toDouble?))

/-- A power; `none` where that of a finite double is infinite. -/
def pow? (x : Number) (n : Nat) : Option Number :=
  match x with
  | .int m => some (.int (m.pow n))
  | .double x =>
    match x, x.pow n with
    | .infinite _, p => some (.double p)
    | _, .infinite _ => none
    | _, p => some (.double p)

/-- The smaller of two numbers, the first if they are equal. -/
def least (x y : Number) : Number := if y.lt x then y else x

end Number

end BlockFsck
