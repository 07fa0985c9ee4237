/-!
# Ordered tables

A finite map that lists its keys in the order in which they were first written. The lemmas say
what each write does to later reads.
-/

namespace BlockFsck

/-- A finite map whose keys keep the order in which they were first written. -/
structure Table (κ ν : Type) where
  entries : List (κ × ν)
  deriving Repr, DecidableEq

namespace Table

variable {κ ν : Type}

def empty : Table κ ν := ⟨[]⟩

instance : Inhabited (Table κ ν) := ⟨empty⟩

def keys (t : Table κ ν) : List κ := t.entries.map Prod.fst

/-- Keeps the entries whose key passes the test. -/
def restrict (keep : κ → Bool) (t : Table κ ν) : Table κ ν :=
  ⟨t.entries.filter (fun e => keep e.1)⟩

/-- Adds entries with new keys. -/
def extend (t : Table κ ν) (added : List (κ × ν)) : Table κ ν := ⟨t.entries ++ added⟩

variable [DecidableEq κ]

@[specialize]
def getIn (k : κ) : List (κ × ν) → Option ν
  | [] => none
  | (l, v) :: rest => if l = k then some v else getIn k rest

/-- Overwrites in place, or appends a new key. -/
@[specialize]
def setIn (k : κ) (v : ν) : List (κ × ν) → List (κ × ν)
  | [] => [(k, v)]
  | (l, w) :: rest => if l = k then (l, v) :: rest else (l, w) :: setIn k v rest

@[specialize]
def eraseIn (k : κ) : List (κ × ν) → List (κ × ν)
  | [] => []
  | (l, w) :: rest => if l = k then eraseIn k rest else (l, w) :: eraseIn k rest

def get? (t : Table κ ν) (k : κ) : Option ν := getIn k t.entries

def contains (t : Table κ ν) (k : κ) : Bool := (t.get? k).isSome

def set (t : Table κ ν) (k : κ) (v : ν) : Table κ ν := ⟨setIn k v t.entries⟩

def erase (t : Table κ ν) (k : κ) : Table κ ν := ⟨eraseIn k t.entries⟩

/-- Writes the pairs one after the other. -/
def update (t : Table κ ν) (pairs : List (κ × ν)) : Table κ ν :=
  pairs.foldl (fun t e => t.set e.1 e.2) t

def ofList (pairs : List (κ × ν)) : Table κ ν := empty.update pairs

@[simp] theorem get?_empty (k : κ) : (empty : Table κ ν).get? k = none := rfl

private theorem getIn_setIn (k l : κ) (v : ν) (es : List (κ × ν)) :
    getIn l (setIn k v es) = if k = l then some v else getIn l es := by
  fun_induction setIn k v es <;> grind [getIn]

theorem get?_set (t : Table κ ν) (k l : κ) (v : ν) :
    (t.set k v).get? l = if k = l then some v else t.get? l :=
  getIn_setIn k l v t.entries

private theorem getIn_eraseIn (k l : κ) (es : List (κ × ν)) :
    getIn l (eraseIn k es) = if k = l then none else getIn l es := by
  fun_induction eraseIn k es <;> grind [getIn]

theorem get?_erase (t : Table κ ν) (k l : κ) :
    (t.erase k).get? l = if k = l then none else t.get? l :=
  getIn_eraseIn k l t.entries

theorem get?_restrict (keep : κ → Bool) (t : Table κ ν) (k : κ) :
    (t.restrict keep).get? k = if keep k then t.get? k else none := by
  obtain ⟨es⟩ := t
  induction es <;> grind [restrict, get?, getIn]

end Table

end BlockFsck
