import BlockFsck.Json.Spelling
import BlockFsck.Path

/-!
# Issues with received values

What is wrong with a received value, where in it, and how a report says so. Reading a value goes on
after an issue, so that a report lists the issues of all parts: `Checked` collects them.
-/

namespace BlockFsck.Json

inductive Complaint
  | missing
  | notText
  | notChoice (choices : List String)
  | notWhole
  | unreadableWhole
  | oversizedWhole
  | fractional
  | notFinite
  | notTruth
  | unreadableTruth
  | notNumber
  | unreadableNumber
  | notList
  | notObject (schema : String)
  | notFields
  | notJson
  deriving Repr, DecidableEq

namespace Complaint

def code : Complaint → String
  | .missing => "missing"
  | .notText => "string_type"
  | .notChoice _ => "enum"
  | .notWhole => "int_type"
  | .unreadableWhole => "int_parsing"
  | .oversizedWhole => "int_parsing_size"
  | .fractional => "int_from_float"
  | .notFinite => "finite_number"
  | .notTruth => "bool_type"
  | .unreadableTruth => "bool_parsing"
  | .notNumber => "float_type"
  | .unreadableNumber => "float_parsing"
  | .notList => "list_type"
  | .notObject _ => "model_type"
  | .notFields => "model_attributes_type"
  | .notJson => "json_invalid"

/-- Quoted choices, the last one after the word `or`. -/
def choicesText : List String → String
  | [] => ""
  | [a] => quoted a
  | [a, b] => quoted a ++ " or " ++ quoted b
  | a :: rest => quoted a ++ ", " ++ choicesText rest

def message : Complaint → String
  | .missing => "Field required"
  | .notText => "Input should be a valid string"
  | .notChoice choices => "Input should be " ++ choicesText choices
  | .notWhole => "Input should be a valid integer"
  | .unreadableWhole => "Input should be a valid integer, unable to parse string as an integer"
  | .oversizedWhole => "Unable to parse input string as an integer, exceeded maximum size"
  | .fractional => "Input should be a valid integer, got a number with a fractional part"
  | .notFinite => "Input should be a finite number"
  | .notTruth => "Input should be a valid boolean"
  | .unreadableTruth => "Input should be a valid boolean, unable to interpret input"
  | .notNumber => "Input should be a valid number"
  | .unreadableNumber => "Input should be a valid number, unable to parse string as a number"
  | .notList => "Input should be a valid list"
  | .notObject schema => s!"Input should be a valid dictionary or instance of {schema}"
  | .notFields => "Input should be a valid dictionary or object to extract fields from"
  | .notJson => "JSON decode error"

end Complaint

/-- A complaint about the value at a place, which is given by the names and indices that lead
there. -/
structure Issue where
  location : List String
  complaint : Complaint
  input : Json

namespace Issue

/-- The issue seen from the container in which the value has that name or index. -/
def within (name : String) (i : Issue) : Issue := { i with location := name :: i.location }

/-- The longest start of a text that fits into so many bytes. -/
def startWithin : (bytes : Nat) → List Char → List Char
  | _, [] => []
  | bytes, c :: rest =>
    if c.utf8Size ≤ bytes then c :: startWithin (bytes - c.utf8Size) rest else []

/-- A text of more than fifty bytes without its middle. -/
def shortened (s : String) : String :=
  if s.utf8ByteSize ≤ 50 then s
  else
    let start := startWithin 25 s.toList
    let finish := (startWithin 24 s.toList.reverse).reverse
    String.ofList start ++ "..." ++ String.ofList finish

/-- The page that explains a complaint. -/
def page (c : Complaint) : String := "errors.pydantic.dev/2.14/v/" ++ c.code

/-- The lines of a report on one issue. -/
def text (i : Issue) : String :=
  let place := if i.location.isEmpty then "" else String.intercalate "." i.location ++ "\n"
  let input := s!"input_value={shortened i.input.spelledInside}, input_type={i.input.typeName}"
  s!"{place}  {i.complaint.message} [type={i.complaint.code}, {input}]\n" ++
    s!"    For further information visit https://{page i.complaint}"

/-- The report on a value of the named schema. -/
def report (schema : String) (issues : List Issue) : String :=
  let plural := if issues.length = 1 then "" else "s"
  s!"{issues.length} validation error{plural} for {schema}\n" ++
    String.intercalate "\n" (issues.map text)

end Issue

/-- A value that was read, or all the issues with what was received. -/
inductive Checked (α : Type)
  | valid (value : α)
  | invalid (issues : List Issue)

namespace Checked

variable {α β : Type}

/-- Applies what was read to what was read; the issues of both are kept in order. -/
def apply (f : Checked (α → β)) (x : Checked α) : Checked β :=
  match f, x with
  | .valid f, .valid a => .valid (f a)
  | .valid _, .invalid issues => .invalid issues
  | .invalid issues, .valid _ => .invalid issues
  | .invalid issues, .invalid more => .invalid (issues ++ more)

instance : Applicative Checked where
  pure := .valid
  map f x := apply (.valid f) x
  seq f x := apply f (x ())

@[simp] theorem pure_eq_valid (a : α) : (pure a : Checked α) = .valid a := rfl

@[simp] theorem map_valid (f : α → β) (a : α) : f <$> valid a = .valid (f a) := rfl

@[simp] theorem seq_valid (f : α → β) (a : α) : valid f <*> valid a = .valid (f a) := rfl

/-- Places what was read inside a container. -/
def within (name : String) : Checked α → Checked α
  | .valid a => .valid a
  | .invalid issues => .invalid (issues.map (·.within name))

@[simp] theorem within_valid (name : String) (a : α) : (valid a).within name = .valid a := rfl

def toOption : Checked α → Option α
  | .valid a => some a
  | .invalid _ => none

end Checked

end BlockFsck.Json
