import BlockFsck.Json.Writer
import BlockFsck.Proofs.Decimal

/-!
# Writing without a fault

Whether any chunk of a value is refused depends on its integers and on how deep its containers lie.
What is written then is the layout that the reader takes apart again.
-/

namespace BlockFsck.Json

variable {room depth : ℕ} {before : List Char} {x : Json} {xs : List Json}
  {members : List (Points × Json)} {cs : List Chunk}

@[simp] theorem textOf_append (cs ds : List Chunk) : textOf (cs ++ ds) = textOf cs ++ textOf ds :=
  List.flatMap_append

@[simp] theorem textOf_cons (c : Chunk) (cs : List Chunk) :
    textOf (c :: cs) = c.text ++ textOf cs := rfl

@[simp] theorem textOf_nil : textOf [] = [] := rfl

/-- The text of a value, and of the items or members after the first. -/
def indentedChars (depth : ℕ) (x : Json) : List Char := textOf (chunks depth [] x)

def indentedItems (depth : ℕ) (xs : List Json) : List Char := textOf (itemChunks depth xs)

def indentedMembers (depth : ℕ) (members : List (Points × Json)) : List Char :=
  textOf (memberChunks depth members)

@[simp] theorem textOf_chunks (depth : ℕ) (before : List Char) (x : Json) :
    textOf (chunks depth before x) = before ++ indentedChars depth x := by
  cases x with
  | arr items => cases items <;> simp [indentedChars, chunks, Chunk.text]
  | obj members => cases members <;> simp [indentedChars, chunks, Chunk.text]
  | _ => simp [indentedChars, chunks, Chunk.text]

theorem indentedChars_bool (depth : ℕ) (b : Bool) :
    indentedChars depth (.bool b) = (if b then "true" else "false").toList := by
  rw [indentedChars, chunks]
  simp [Chunk.text]

theorem indentedChars_int (depth : ℕ) (n : ℤ) : indentedChars depth (.int n) = intChars n := by
  rw [indentedChars, chunks]
  simp [Chunk.text]

theorem indentedChars_str (depth : ℕ) (s : Points) :
    indentedChars depth (.str s) = stringChars s := by
  rw [indentedChars, chunks]
  simp [Chunk.text]

theorem indentedChars_arr (depth : ℕ) (x : Json) (xs : List Json) :
    indentedChars depth (.arr (x :: xs)) = '[' :: (lineBreak (depth + 1) ++
      (indentedChars (depth + 1) x ++ (indentedItems (depth + 1) xs ++
        (lineBreak depth ++ [']'])))) := by
  rw [indentedChars, chunks]
  simp [indentedItems, Chunk.text]

theorem indentedChars_obj (depth : ℕ) (name : Points) (x : Json)
    (members : List (Points × Json)) :
    indentedChars depth (.obj ((name, x) :: members)) = '\x7b' :: (lineBreak (depth + 1) ++
      (stringChars name ++ ':' :: ' ' :: (indentedChars (depth + 1) x ++
        (indentedMembers (depth + 1) members ++ (lineBreak depth ++ ['\x7d']))))) := by
  rw [indentedChars, chunks]
  simp [indentedMembers, Chunk.text]

theorem indentedItems_cons (depth : ℕ) (x : Json) (xs : List Json) :
    indentedItems depth (x :: xs) =
      ',' :: (lineBreak depth ++ (indentedChars depth x ++ indentedItems depth xs)) := by
  simp [indentedItems, itemChunks]

theorem indentedMembers_cons (depth : ℕ) (name : Points) (x : Json)
    (members : List (Points × Json)) :
    indentedMembers depth ((name, x) :: members) =
      ',' :: (lineBreak depth ++ (stringChars name ++ ':' :: ' ' :: (indentedChars depth x ++
        indentedMembers depth members))) := by
  simp [indentedMembers, memberChunks, Chunk.text]

theorem written_of_faultless (h : (written room cs).2 = none) :
    (written room cs).1 = textOf cs := by
  induction cs with
  | nil => rfl
  | cons c cs ih =>
    rw [written] at h ⊢
    split at h
    · cases h
    · rw [textOf_cons, ← ih h]

theorem written_eq_none_iff :
    (written room cs).2 = none ↔ ∀ c ∈ cs, c.fault? room = none := by
  induction cs with
  | nil => simp [written]
  | cons c cs ih =>
    rw [written, List.forall_mem_cons, ← ih]
    cases c.fault? room <;> simp

theorem fault?_int (n : ℤ) (after : List Char) :
    (Chunk.int before n after).fault? room =
      if n.natAbs < 10 ^ maxDigits then none else some .tooManyDigits := by
  have hcount : (digits n.natAbs).length ≤ maxDigits ↔ n.natAbs < 10 ^ maxDigits :=
    Nat.length_toDigits_le_iff (by decide) (by decide)
  simp only [Chunk.fault?, ← hcount, ← not_le, ite_not]

theorem written_of_fault {c : Chunk} {fault : WriteFault} (hcs : ∀ d ∈ cs, d.fault? room = none)
    (hfault : c.fault? room = some fault) (ds : List Chunk) :
    written room (cs ++ c :: ds) = (textOf cs, some fault) := by
  induction cs with
  | nil => rw [List.nil_append, written, hfault, textOf_nil]
  | cons d cs ih =>
    obtain ⟨hd, hcs⟩ := List.forall_mem_cons.mp hcs
    rw [List.cons_append, written, hd, ih hcs, textOf_cons]

mutual

/-- No integer of the value is too long, and there is room for what is in its containers. -/
def isWritable (room : ℕ) : Json → Bool
  | .int n => n.natAbs < 10 ^ maxDigits
  | .float _ => 0 < room
  | .arr (x :: xs) =>
    match room with
    | 0 => false
    | room + 1 => isWritable room x && areWritable room xs
  | .obj ((_, x) :: xs) =>
    match room with
    | 0 => false
    | room + 1 => isWritable room x && areWritableMembers room xs
  | _ => true

def areWritable (room : ℕ) : List Json → Bool
  | [] => true
  | x :: xs => isWritable room x && areWritable room xs

def areWritableMembers (room : ℕ) : List (Points × Json) → Bool
  | [] => true
  | (_, x) :: xs => isWritable room x && areWritableMembers room xs

end

mutual

/-- A value that `depth` containers enclose is written without a fault if it is writable in the room
that these leave. -/
theorem faultless_chunks_iff : ∀ (x : Json) (room depth : ℕ) (before : List Char),
    (∀ c ∈ chunks depth before x, c.fault? (depth + room) = none) ↔ x.isWritable room = true
  | .null, _, _, _ => by simp [chunks, isWritable, Chunk.fault?]
  | .bool _, _, _, _ => by simp [chunks, isWritable, Chunk.fault?]
  | .int n, _, _, _ => by simp [chunks, isWritable, fault?_int]
  | .float _, _, _, _ => by simp [chunks, isWritable, Chunk.fault?, Nat.pos_iff_ne_zero]
  | .str _, _, _, _ => by simp [chunks, isWritable, Chunk.fault?]
  | .arr [], _, _, _ => by simp [chunks, isWritable, Chunk.fault?]
  | .arr (x :: xs), 0, depth, _ => by simp [chunks, isWritable, Chunk.fault?]
  | .arr (x :: xs), room + 1, depth, _ => by
    have hx := faultless_chunks_iff x room (depth + 1) ('[' :: lineBreak (depth + 1))
    have hxs := faultless_itemChunks_iff xs room (depth + 1)
    rw [isWritable, Bool.and_eq_true, ← hx, ← hxs]
    simp [chunks, Chunk.fault?, or_imp, forall_and, Nat.add_right_comm, Nat.add_assoc]
  | .obj [], _, _, _ => by simp [chunks, isWritable, Chunk.fault?]
  | .obj ((_, x) :: xs), 0, depth, _ => by simp [chunks, isWritable, Chunk.fault?]
  | .obj ((_, x) :: xs), room + 1, depth, _ => by
    have hx := faultless_chunks_iff x room (depth + 1) []
    have hxs := faultless_memberChunks_iff xs room (depth + 1)
    rw [isWritable, Bool.and_eq_true, ← hx, ← hxs]
    simp [chunks, Chunk.fault?, or_imp, forall_and, Nat.add_right_comm, Nat.add_assoc]

private theorem faultless_itemChunks_iff : ∀ (xs : List Json) (room depth : ℕ),
    (∀ c ∈ itemChunks depth xs, c.fault? (depth + room) = none) ↔ areWritable room xs = true
  | [], _, _ => by simp [itemChunks, areWritable]
  | x :: xs, room, depth => by
    have hx := faultless_chunks_iff x room depth (',' :: lineBreak depth)
    have hxs := faultless_itemChunks_iff xs room depth
    rw [areWritable, Bool.and_eq_true, ← hx, ← hxs]
    simp [itemChunks, or_imp, forall_and]

private theorem faultless_memberChunks_iff : ∀ (xs : List (Points × Json)) (room depth : ℕ),
    (∀ c ∈ memberChunks depth xs, c.fault? (depth + room) = none) ↔
      areWritableMembers room xs = true
  | [], _, _ => by simp [memberChunks, areWritableMembers]
  | (_, x) :: xs, room, depth => by
    have hx := faultless_chunks_iff x room depth []
    have hxs := faultless_memberChunks_iff xs room depth
    rw [areWritableMembers, Bool.and_eq_true, ← hx, ← hxs]
    simp [memberChunks, Chunk.fault?, or_imp, forall_and]

end

end BlockFsck.Json
