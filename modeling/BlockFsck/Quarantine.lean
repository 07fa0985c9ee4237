import BlockFsck.Walk

/-!
# Quarantine

A corrupt file moves to its own path below the quarantine directory. Where that path cannot be
made, because it is taken or an ancestor is a file, the first name in the way gets a numbered
ending.
-/

namespace BlockFsck

structure Quarantine where
  directory : String := "/lost+found"
  /-- The highest number to try as an ending. -/
  maxSuffix : Int := 64
  deriving Repr, DecidableEq

namespace Quarantine

variable {σ : Type}

/-- How far along the names below `base` something is in the way: an entry at the last of them, or
a file before it. -/
def firstConflict (base : Path) : List String → Check σ (Option Nat)
  | [] => return none
  | name :: rest => do
    let path := base ++ [name]
    match ← Check.query (.resolve path.text) with
    | none => return none
    | some entry =>
      if rest = [] ∨ !entry.isDirectory then return some 0
      else return (← firstConflict path rest).map (· + 1)

/-- The names with `.suffix` at the end of the one at a position. -/
def withSuffix (names : List String) (position suffix : Nat) : List String :=
  names.modify position fun name => s!"{name}.{suffix}"

/-- Tries the endings from `suffix` on, `left` of them. -/
def freeName (base : Path) (names : List String) (position suffix : Nat) :
    (left : Nat) → Check σ (Option Path)
  | 0 => return none
  | left + 1 => do
    let candidate := withSuffix names position suffix
    match ← firstConflict (base ++ candidate.take position) (candidate.drop position) with
    | none => return some (base ++ candidate)
    | some _ => freeName base names position (suffix + 1) left

/-- Where the file at a path would go. -/
def destination (q : Quarantine) (text : String) : Check σ String := do
  let directory ← Check.ofPath (Path.ofText q.directory)
  let path ← Check.ofPath (Path.ofText text)
  if path.isUnder directory then throw (.quarantine (.inside text directory.text))
  match ← firstConflict directory path with
  | none => return (directory ++ path).text
  | some position =>
    match ← freeName directory path position 1 q.maxSuffix.toNat with
    | some free => return free.text
    | none => throw (.quarantine (.noFreeName text q.maxSuffix))

/-- Moves the file at a path and gives back where it went. -/
def move (q : Quarantine) (text : String) : Check σ String := do
  let destination ← q.destination text
  let directory ← Check.ofPath (Path.parentText destination)
  if !(← Check.query (.mkdirs directory)) then throw (.quarantine (.noDirectory directory))
  if !(← Check.query (.rename text destination)) then
    throw (.quarantine (.notMoved text destination))
  return destination

end Quarantine

/-- Deletes the corrupt file at a path. -/
def Check.deleteFile {σ : Type} (text : String) : Check σ Unit := do
  if !(← Check.query (.delete text false)) then throw (.quarantine (.notDeleted text))

end BlockFsck
