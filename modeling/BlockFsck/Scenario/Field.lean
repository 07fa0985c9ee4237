import BlockFsck.Command.Arguments
import BlockFsck.Failure
import BlockFsck.Json.Field
import BlockFsck.Number

/-!
# Fields of scenarios

A scenario is written in JSON. Fields that are left out have defaults, and what is wrong with the
arguments of a step is told before or while the step is done: there are too few or too many of them,
or one is of the wrong kind.
-/

namespace BlockFsck.Scenario

/-! ## Values of fields -/

def member (x : Json) (name : String) : Json := (x.member? name).getD .null

def text (x : Json) (name : String) : String := (member x name).spelled

def textOr (x : Json) (name missing : String) : String :=
  match x.member? name with
  | none => missing
  | some value => value.spelled

def text? (x : Json) (name : String) : Option String :=
  match x.member? name with
  | some (.str s) => some s.shown
  | _ => none

/-- A value as a text; null is none. -/
def word? (x : Json) : Option String :=
  match x with
  | .null => none
  | x => some x.spelled

def flagOr (x : Json) (name : String) (missing : Bool) : Bool :=
  match x.member? name with
  | some value => !value.isVoid
  | none => missing

def flag (x : Json) (name : String) : Bool := flagOr x name false

def wholeOf? (x : Json) : Option Int := (Json.whole x).toOption

def whole? (x : Json) (name : String) : Option Int := (x.member? name).bind wholeOf?

def whole (x : Json) (name : String) : Int := (whole? x name).getD 0

def items (x : Json) (name : String) : List Json := (member x name).items?.getD []

/-- The name of a logger, which is the root if it is void. -/
def loggerName? (x : Json) : Option String :=
  match x with
  | .str s => some s.shown
  | x => if x.isVoid then some "" else none

/-- A value as the value of a parameter. -/
def parameterText : Json → String
  | .null => ""
  | .bool b => if b then "true" else "false"
  | x => x.spelled

def textList? (x : Json) : Option (List String) := x.items?.map (·.map Json.spelled)

def doubleOf (x : Json) : Double := (Json.double x).toOption.getD (.finite 0)

/-! ## Arguments -/

/-- The members of an object are those that are needed, and of those that are possible. -/
def hasFields (x : Json) (needed possible : List String) : Bool :=
  match x with
  | .obj members =>
    needed.all (fun name => members.any (·.1 = Points.ofText name)) &&
      members.all fun (name, _) => needed.contains name.shown || possible.contains name.shown
  | _ => false

/-- A member, if there is one, is a list of what passes the test. -/
def hasItems (x : Json) (name : String) (fits : Json → Bool) : Bool :=
  match x.member? name with
  | none => true
  | some (.arr items) => items.all fits
  | some _ => false

/-- The failure of what is given too few or too many arguments, or some of the wrong kind. -/
def misfit : Failure := .told .wrongType ""

/-- A value that is read if it fits, and a misfit otherwise. -/
def fitting {α : Type} (fits : Json → Bool) (read : Json → α) (x : Json) : Except Failure α :=
  if fits x then .ok (read x) else .error misfit

def isNumber (x : Json) : Bool := (Number.ofJson? x).isSome

/-- A whole number, which no text is. -/
def number (x : Json) (name : String) : Except Failure Int :=
  if isNumber (member x name) then .ok (whole x name) else .error misfit

/-- Neither a text nor void, and so nothing that is read as a path. -/
def isNoPath (x : Json) : Bool :=
  match x with
  | .str _ => false
  | x => !x.isVoid

def noPath : Failure := .told .notObject ""

/-- A text to be read as a path. -/
def pathText (x : Json) : Except Failure String :=
  if isNoPath x then .error noPath else .ok x.spelled

/-- A text that is used as such. -/
def exactText (x : Json) : Except Failure String :=
  match x with
  | .str s => .ok s.shown
  | _ => .error misfit

/-- Command-line arguments. The first that is no text makes a mistake, unless one is made before. -/
def arguments (xs : List Json) : Except Failure (List String) :=
  let texts := xs.filterMap fun
    | .str s => some s.shown
    | _ => none
  let leading := (xs.takeWhile fun
    | .str _ => true
    | _ => false).length
  if leading = xs.length then .ok texts
  else
    match Command.scan none [] (texts.take leading) with
    | .ok _ => .error noPath
    | .error _ => .ok (texts.take leading)

end BlockFsck.Scenario
