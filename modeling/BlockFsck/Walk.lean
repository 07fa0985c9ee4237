import BlockFsck.Check

/-!
# Walking a subtree

A walk visits a file, or a directory and then all below it, children in order of their names. It
leaves out the quarantine directory unless it starts inside it. A directory that is gone when its
children are asked for has none.
-/

namespace BlockFsck

/-- How deep a walk goes below its root by default. -/
def Walk.defaultDepth : Nat := 100000

/-- What to walk, and what to leave out. -/
structure Walk where
  root : String
  quarantine : Option String
  deriving Repr, DecidableEq

namespace Walk

variable {σ : Type}

/-- A walk whose quarantine directory is written in the normal way; an empty text is none. -/
def make (root : String) (quarantine : Option String) : Except PathError Walk :=
  match quarantine with
  | none => .ok ⟨root, none⟩
  | some "" => .ok ⟨root, none⟩
  | some q => (Path.normalize q).map fun q => ⟨root, some q⟩

/-- The child is the quarantine directory, and the walk does not start inside it. -/
def isLeftOut (root : Entry) (quarantine : Option String) (child : Entry) :
    Except PathError Bool :=
  match quarantine with
  | some q =>
    if child.isDirectory then do
      return !(← Path.textIsUnder root.path q) && child.path == q
    else .ok false
  | none => .ok false

def childrenInOrder (directory : Entry) : Check σ (List Entry) := do
  let children ← Check.orIfMissing (Check.query (.listChildren directory.path)) []
  return sortedBy Entry.name children

/-- Visits an entry and, if it is a directory, all below it. -/
def descend (visit : Entry → Check σ Unit) (root : Entry) (quarantine : Option String) :
    Nat → Entry → Check σ Unit
  | 0, entry => throw (.tooDeep entry.path)
  | depth + 1, entry => do
    visit entry
    if entry.isDirectory then
      (← childrenInOrder entry).forM fun child => do
        if !(← Check.ofPath (isLeftOut root quarantine child)) then
          descend visit root quarantine depth child

/-- The same visits as a loop of so many turns. For each open directory it has the children that are
still to come, those of the innermost first. -/
def visitOpen (visit : Entry → Check σ Unit) (root : Entry) (quarantine : Option String) :
    Nat → List (List Entry) → Check σ Unit
  | _, [] => return
  | 0, _ :: _ => throw (.tooDeep root.path)
  | turns + 1, [] :: stack => visitOpen visit root quarantine turns stack
  | turns + 1, (entry :: rest) :: stack => do
    if ← Check.ofPath (isLeftOut root quarantine entry) then
      visitOpen visit root quarantine turns (rest :: stack)
    else
      visit entry
      if entry.isDirectory then
        visitOpen visit root quarantine turns ((← childrenInOrder entry) :: rest :: stack)
      else visitOpen visit root quarantine turns (rest :: stack)

/-- The entry to start from. -/
def resolveRoot (path : String) : Check σ Entry := do
  let normal ← Check.ofPath (Path.normalize path)
  match ← Check.query (.resolve normal) with
  | some root => return root
  | none => throw (.pathNotFound path)

def run (walk : Walk) (depth : Nat) (visit : Entry → Check σ Unit) : Check σ Unit := do
  let root ← resolveRoot walk.root
  descend visit root walk.quarantine depth root

/-- The walk as a loop. -/
def runOpen (walk : Walk) (turns : Nat) (visit : Entry → Check σ Unit) : Check σ Unit := do
  let root ← resolveRoot walk.root
  visit root
  if root.isDirectory then
    visitOpen visit root walk.quarantine turns [← childrenInOrder root]

/-- The entries of a walk in order, up to its end or to the failure that broke it off. -/
def collect (walk : Walk) (depth : Nat) : Check (List Entry) Unit :=
  walk.run depth fun entry => modify (· ++ [entry])

end Walk

end BlockFsck
