import BlockFsck.Double
import BlockFsck.Table
import BlockFsck.Text.Points

/-!
# JSON values

Integers are exact and kept apart from doubles, texts are runs of code points, and an object keeps
the order of its members.
`Json.same` is equality of meaning: it ignores how a number is stored and the order of members.
-/

namespace BlockFsck

inductive Json
  | null
  | bool (value : Bool)
  | int (value : Int)
  | float (value : Double)
  | str (text : Points)
  | arr (items : List Json)
  | obj (members : List (Points × Json))
  deriving Inhabited

namespace Json

/-- The most digits of an integer that is turned into text or read from it. -/
def maxDigits : Nat := 4300

/-- The object with the given members, where a repeated name keeps its first place and its last
value. -/
def object (members : List (Points × Json)) : Json := .obj (Table.ofList members).entries

/-- The member of an object, and `none` of anything else. -/
def member? (name : String) : Json → Option Json
  | .obj members => Table.getIn (name : Points) members
  | _ => none

@[simp] theorem member?_nil (name : String) : (obj []).member? name = none := rfl

@[simp] theorem member?_cons (name l : String) (x : Json) (rest : List (Points × Json)) :
    (obj ((Points.ofText l, x) :: rest)).member? name =
      if l = name then some x else (obj rest).member? name := by
  simp [member?, Table.getIn]

/-- An empty value of its kind. -/
def isVoid : Json → Bool
  | .null => true
  | .bool b => !b
  | .int n => n = 0
  | .float x => x.toRat? = some 0
  | .str s => s.isEmpty
  | .arr items => items.isEmpty
  | .obj members => members.isEmpty

/-- The rational that a truth value or a finite number stands for. -/
def toRat? : Json → Option Rat
  | .bool b => some (if b then 1 else 0)
  | .int n => some n
  | .float x => x.toRat?
  | _ => none

/-- Equality of two values neither of which is a list or an object. Being no number at all is one
value. -/
def sameScalar (x y : Json) : Bool :=
  match x, y with
  | .null, .null => true
  | .str s, .str t => s == t
  | .float (.infinite s), .float (.infinite t) => s == t
  | .float (.nan _), .float (.nan _) => true
  | x, y => x.toRat?.isSome && x.toRat? == y.toRat?

mutual

/-- Numbers and truth values are equal by value, and objects whatever the order of members. -/
def same : Json → Json → Bool
  | .arr xs, .arr ys => sameItems xs ys
  | .obj xs, .obj ys => xs.length == ys.length && sameMembers xs ys
  | x, y => sameScalar x y

def sameItems : List Json → List Json → Bool
  | [], [] => true
  | x :: xs, y :: ys => same x y && sameItems xs ys
  | _, _ => false

def sameMembers : List (Points × Json) → List (Points × Json) → Bool
  | [], _ => true
  | (name, x) :: xs, ys =>
    (match Table.getIn name ys with
      | some y => same x y
      | none => false) && sameMembers xs ys

end

mutual

/-- No number in the value is infinite or `nan`. -/
def isFinite : Json → Bool
  | .float x => x.toRat?.isSome
  | .arr items => areFinite items
  | .obj members => areFiniteMembers members
  | _ => true

def areFinite : List Json → Bool
  | [] => true
  | x :: xs => isFinite x && areFinite xs

def areFiniteMembers : List (Points × Json) → Bool
  | [] => true
  | (_, x) :: xs => isFinite x && areFiniteMembers xs

end

end Json

end BlockFsck
