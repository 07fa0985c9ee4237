/-!
# Punycode

A text with characters beyond ASCII is written as its ASCII characters and then, in digits, where
the others are inserted: the others come in increasing order, each by its distance from the one
before, in a number system that adapts to the size of the distances.
-/

namespace BlockFsck.Text.Punycode

/-! ## Digits -/

/-- How many steps a delta adds to the next bias: it is halved, or divided by 700 the first time,
and then divided by 35 until it is small. -/
def adaptLoop (delta steps : Nat) : Nat :=
  if 455 < delta then adaptLoop (delta / 35) (steps + 36) else steps + 36 * delta / (delta + 38)
termination_by delta
decreasing_by omega

def adapt (delta points : Nat) (first : Bool) : Nat :=
  let delta := if first then delta / 700 else delta / 2
  adaptLoop (delta + delta / points) 0

def digit (n : Nat) : Char := Char.ofNat (if n < 26 then 97 + n else 22 + n)

def digitValue? (c : Char) : Option Nat :=
  if 'a' ≤ c && c ≤ 'z' then some (c.toNat - 97)
  else if c.isDigit then some (c.toNat - 22)
  else none

/-- The threshold of the digit at a position. -/
def threshold (bias position : Nat) : Nat := min 26 (max 1 (position - bias))

/-- A delta in digits of growing weight. -/
def deltaDigits (bias position delta : Nat) : List Char :=
  let t := threshold bias position
  if delta < t then [digit delta]
  else
    digit (t + (delta - t) % (36 - t)) ::
      deltaDigits bias (position + 36) ((delta - t) / (36 - t))
termination_by delta
decreasing_by
  have h : 1 ≤ threshold bias position := by simp only [threshold]; omega
  have := Nat.div_le_self (delta - threshold bias position) (36 - threshold bias position)
  omega

/-- Reads the digits of a delta, the next of which has the given weight, and gives back the rest. -/
def readDelta (bias position weight sum : Nat) : List Char → Option (Nat × List Char)
  | [] => none
  | c :: rest => do
    let d ← digitValue? c
    let t := threshold bias position
    if d < t then return (sum + d * weight, rest)
    readDelta bias (position + 36) (weight * (36 - t)) (sum + d * weight) rest

theorem readDelta_length {bias position weight sum : Nat} {cs : List Char} {delta : Nat}
    {rest : List Char} (h : readDelta bias position weight sum cs = some (delta, rest)) :
    rest.length < cs.length := by
  induction cs generalizing position weight sum with
  | nil => simp [readDelta] at h
  | cons c cs ih =>
    simp only [readDelta, Option.bind_eq_bind, Option.bind_eq_some_iff] at h
    obtain ⟨d, -, h⟩ := h
    split at h
    · cases h
      simp
    · have := ih h
      simp only [List.length_cons]
      omega

/-! ## Writing -/

/-- What is known while the characters beyond ASCII are inserted in their order. -/
structure Insertion where
  digits : List Char := []
  delta : Nat := 0
  bias : Nat := 72
  handled : Nat

/-- Passes one character of the text while those with the given number are inserted. -/
def Insertion.pass (basic n : Nat) (s : Insertion) (c : Char) : Insertion :=
  if c.toNat < n then { s with delta := s.delta + 1 }
  else if c.toNat = n then
    { digits := s.digits ++ deltaDigits s.bias 36 s.delta
      delta := 0
      bias := adapt s.delta (s.handled + 1) (s.handled = basic)
      handled := s.handled + 1 }
  else s

/-- Inserts the characters with the given numbers, `next` being the least that can come. -/
def insertAll (cs : List Char) (basic : Nat) : List Nat → Nat → Insertion → List Char
  | [], _, s => s.digits
  | n :: rest, next, s =>
    let s := { s with delta := s.delta + (n - next) * (s.handled + 1) }
    let s := cs.foldl (Insertion.pass basic n) s
    insertAll cs basic rest (n + 1) { s with delta := s.delta + 1 }

def encode (cs : List Char) : List Char :=
  let basic := cs.filter (·.toNat < 128)
  let others := (cs.map Char.toNat).filter (128 ≤ ·)
  let numbers := (others.mergeSort (· ≤ ·)).eraseDups
  basic ++ (if basic = [] then [] else ['-']) ++
    insertAll cs basic.length numbers 128 { handled := basic.length }

/-! ## Reading -/

/-- Inserts the characters that the digits stand for into a text, where the next one comes at
`position` or later, and has the number `n` or a higher one. -/
def decodeInto (done : List Char) (n position bias : Nat) (first : Bool) (cs : List Char) :
    Option (List Char) :=
  if cs = [] then some done
  else
    match _h : readDelta bias 36 1 0 cs with
    | none => none
    | some (delta, rest) =>
      let points := done.length + 1
      let n := n + (position + delta) / points
      let position := (position + delta) % points
      if n.isValidChar then
        decodeInto (done.take position ++ Char.ofNat n :: done.drop position) n (position + 1)
          (adapt delta points first) false rest
      else none
termination_by cs.length
decreasing_by exact readDelta_length _h

/-- The text that was written: its ASCII characters stand before the last hyphen. -/
def decode? (cs : List Char) : Option (List Char) :=
  let digits := (cs.reverse.takeWhile (· ≠ '-')).reverse
  decodeInto (cs.take (cs.length - digits.length - 1)) 128 0 72 true digits

end BlockFsck.Text.Punycode
