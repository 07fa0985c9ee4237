import BlockFsck.Metadata
import BlockFsck.Namespace.Operation

/-!
# A disturbed service

A namespace in memory whose service is disturbed: before chosen calls others change the namespace,
or the call fails or is answered with something else. The calls are recorded in order.
-/

namespace BlockFsck

/-- The kinds of query. -/
inductive Method
  | resolve
  | listChildren
  | blockLocations
  | rename
  | mkdirs
  | delete
  | corruptFiles
  deriving Repr, DecidableEq

namespace Query

def method : Query → Method
  | .resolve _ => .resolve
  | .listChildren _ => .listChildren
  | .blockLocations _ => .blockLocations
  | .rename _ _ => .rename
  | .mkdirs _ => .mkdirs
  | .delete _ _ => .delete
  | .corruptFiles => .corruptFiles

/-- The paths that a query names. -/
def arguments : Query → List String
  | .resolve path => [path]
  | .listChildren path => [path]
  | .blockLocations path => [path]
  | .rename source target => [source, target]
  | .mkdirs path => [path]
  | .delete path _ => [path]
  | .corruptFiles => []

/-- The outcome of an operation as the reply to a query of that kind. -/
def replyOf? : (q : Query) → Outcome → Option q.Reply
  | .resolve _, .entry found => some found
  | .listChildren _, .entries found => some found
  | .blockLocations _, .record found => some found
  | .rename _ _, .truth value => some value
  | .mkdirs _, .truth value => some value
  | .delete _ _, .truth value => some value
  | .corruptFiles, .texts found => some found
  | _, _ => none

end Query

/-- What becomes of a disturbed call once the others are done. -/
inductive Disruption
  | none
  | failure (failure : Failure)
  | answer (outcome : Outcome)

/-- A disturbance of the calls of one kind, of those on one path only if a path is given, and of
those with certain numbers only if numbers are given. -/
structure Disturbance where
  method : Method
  path : Option String := none
  numbers : Option (List Nat) := none
  before : List Operation := []
  disruption : Disruption := .none

namespace Disturbance

def concerns (d : Disturbance) (q : Query) : Bool :=
  d.method = q.method && d.path.all fun path => q.arguments.head? = some path

/-- It applies to the call with that number among the calls it concerns. -/
def applies (d : Disturbance) (number : Nat) : Bool :=
  d.numbers.all (·.contains number)

end Disturbance

/-- A namespace with its disturbances, each with the number of calls it has concerned. -/
structure Disturbed where
  current : Namespace
  disturbances : List (Disturbance × Nat) := []
  calls : List Query := []

namespace Disturbed

def make (ns : Namespace) (disturbances : List Disturbance) : Disturbed :=
  { current := ns, disturbances := disturbances.map (·, 0) }

/-- Counts a call for every disturbance that it concerns. -/
def counted (q : Query) (ds : List (Disturbance × Nat)) : List (Disturbance × Nat) :=
  ds.map fun (d, n) => if d.concerns q then (d, n + 1) else (d, n)

/-- The first disturbance that applies to the call just counted. -/
def applying? (q : Query) (ds : List (Disturbance × Nat)) : Option Disturbance :=
  (ds.find? fun (d, n) => d.concerns q && d.applies n).map Prod.fst

/-- Performs the operations of others up to the first that is refused. -/
def interfere (ns : Namespace) : List Operation → Except NamespaceError Unit × Namespace
  | [] => (.ok (), ns)
  | op :: rest =>
    match op.perform ns with
    | (.ok _, ns) => interfere ns rest
    | (.error e, ns) => (.error e, ns)

/-- The answer of the namespace itself. -/
def answer (ns : Namespace) (q : Query) : Except Failure q.Reply × Namespace :=
  (Metadata.onNamespace.query q).run ns

def query (q : Query) : StateM Disturbed (Except Failure q.Reply) := fun s =>
  let ds := counted q s.disturbances
  let calls := s.calls ++ [q]
  match applying? q ds with
  | none =>
    let (reply, ns) := answer s.current q
    (reply, ⟨ns, ds, calls⟩)
  | some d =>
    match interfere s.current d.before with
    | (.error e, ns) => (.error (.namespaceRefused e), ⟨ns, ds, calls⟩)
    | (.ok (), ns) =>
      match d.disruption with
      | .failure failure => (.error failure, ⟨ns, ds, calls⟩)
      | .answer outcome =>
        match q.replyOf? outcome with
        | some reply => (.ok reply, ⟨ns, ds, calls⟩)
        | none => (.error (.told .unexpected "an answer of another kind"), ⟨ns, ds, calls⟩)
      | .none =>
        let (reply, ns) := answer ns q
        (reply, ⟨ns, ds, calls⟩)

/-- The disturbed service; records are dropped. -/
def service : Metadata.Service (StateM Disturbed) where
  query := query
  log _ := return ()

/-- Runs a program against the disturbed service. -/
def run {α : Type} (p : Program Metadata α) (s : Disturbed) : α × Disturbed :=
  p.run service.answer s

end Disturbed

end BlockFsck
