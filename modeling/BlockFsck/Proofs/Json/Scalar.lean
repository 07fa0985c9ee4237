import BlockFsck.Json.Reader
import BlockFsck.Json.Writer
import BlockFsck.Proofs.Decimal

/-!
# Strings and integers are read as they were written

A string is written in ASCII and read in parts, one or two for each code point. The parts of a code
point are joined again to it, unless it is half of a surrogate pair and the other half follows. An
integer is read up to where its digits stop.
-/

namespace BlockFsck

/-- Somewhere the high half of a surrogate pair stands right before the low half of one. -/
def Points.hasSplitPair : Points → Bool
  | [] => false
  | p :: rest =>
    (p.isHigh && rest.head?.any (·.isLow)) || hasSplitPair rest

theorem Points.hasSplitPair_ofText (text : String) : (Points.ofText text).hasSplitPair = false := by
  rw [ofText]
  induction text.toList with
  | nil => rfl
  | cons c cs ih =>
    have hhigh : (CodePoint.ofChar c).isHigh = false := (Text.not_unit_of_char c).1
    rw [List.map_cons, hasSplitPair, ih, hhigh]
    rfl

namespace Json

variable {rest tail : List Char}

private theorem ofNat_val (p : CodePoint) : CodePoint.ofNat p.val = p := by
  simp [CodePoint.ofNat]

private theorem ofNat_toNat (c : Char) : CodePoint.ofNat c.toNat = .ofChar c :=
  ofNat_val (.ofChar c)

private theorem eq_ofChar_of_char? {p : CodePoint} {c : Char} (h : p.char? = some c) :
    p = .ofChar c := by
  rw [CodePoint.char?] at h
  split_ifs at h with hunit
  obtain rfl := Option.some.inj h
  have hvalid : p.val.isValidChar := by
    have hlt := p.isLt
    simp only [CodePoint.isHigh, CodePoint.isLow, Text.isHighUnit, Text.isLowUnit, Bool.or_eq_true,
    Bool.and_eq_true,
      decide_eq_true_eq] at hunit
    simp only [Nat.isValidChar]
    omega
  have hval : (Char.ofNat p.val).toNat = p.val := by
    rw [Char.ofNat, dif_pos hvalid]
    rfl
  exact Fin.ext hval.symm

private theorem val_lt_of_char? {p : CodePoint} (h : p.char? = none) : p.val < 0x10000 := by
  rw [CodePoint.char?] at h
  split_ifs at h with hunit
  simp only [CodePoint.isHigh, CodePoint.isLow, Text.isHighUnit, Text.isLowUnit, Bool.or_eq_true,
    Bool.and_eq_true,
    decide_eq_true_eq] at hunit
  omega

private theorem hexDigit?_hexChar {n : ℕ} (h : n < 16) : hexDigit? (hexChar n) = some n := by
  have hall : ∀ n < 16, hexDigit? (hexChar n) = some n := by decide
  exact hall n h

private theorem readParts_char {c : Char} (hquote : c ≠ '"') (hslash : c ≠ '\\')
    (h : 32 ≤ c.toNat) :
    readParts (c :: tail) = (readParts tail).map fun (parts, rest) => (.char c :: parts, rest) := by
  rw [readParts]
  · exact if_neg (by omega)
  all_goals simp_all

private theorem readParts_letter {c x : Char} (h : escapeOf? c = some x) :
    readParts ('\\' :: c :: tail) =
      (readParts tail).map fun (parts, rest) => (.char x :: parts, rest) := by
  have hu : c ≠ 'u' := by
    rintro rfl
    cases h
  rw [readParts]
  · rw [h]
  all_goals simp_all

private theorem readUnit?_hexQuad {n : ℕ} (h : n < 0x10000) :
    readUnit? (hexChar (n / 4096 % 16)) (hexChar (n / 256 % 16)) (hexChar (n / 16 % 16))
      (hexChar (n % 16)) = some n := by
  rw [readUnit?, hexDigit?_hexChar (by omega), hexDigit?_hexChar (by omega),
    hexDigit?_hexChar (by omega), hexDigit?_hexChar (by omega)]
  change some _ = some n
  congr 1
  omega

private theorem readParts_unit {n : ℕ} (h : n < 0x10000) (htail : tail ≠ []) :
    readParts (unitEscape n ++ tail) =
      (readParts tail).map fun (parts, rest) => (.unit n :: parts, rest) := by
  obtain ⟨c, tail, rfl⟩ := List.exists_cons_of_ne_nil htail
  rw [unitEscape, hexQuad]
  change readParts ('\\' :: 'u' :: hexChar (n / 4096 % 16) :: hexChar (n / 256 % 16) ::
    hexChar (n / 16 % 16) :: hexChar (n % 16) :: c :: tail) = _
  rw [readParts, readUnit?_hexQuad h]

private theorem isLow_ofNat {m : ℕ} (h : Text.isLowUnit m = true) :
    (CodePoint.ofNat m).isLow = true := by
  have hlt : m < 0x110000 := by
    simp only [Text.isLowUnit, Bool.and_eq_true, decide_eq_true_eq] at h
    omega
  simpa [CodePoint.isLow, CodePoint.ofNat, hlt] using h

private theorem exists_joinParts_low {m : ℕ} (h : Text.isLowUnit m = true) (parts : List Part) :
    ∃ rest, joinParts (.unit m :: parts) = .ofNat m :: rest := by
  have hhigh : Text.isHighUnit m = false := by
    simp only [Text.isLowUnit, Bool.and_eq_true, decide_eq_true_eq] at h
    simp only [Text.isHighUnit, Bool.and_eq_false_iff, decide_eq_false_iff_not]
    omega
  rcases parts with _ | ⟨c | n, parts⟩
  · exact ⟨_, rfl⟩
  · exact ⟨_, rfl⟩
  · rw [joinParts, hhigh, Bool.false_and]
    exact ⟨_, rfl⟩

private theorem joinParts_unit {p : CodePoint} {parts : List Part}
    (h : (p.isHigh && (joinParts parts).head?.any (·.isLow)) = false) :
    joinParts (.unit p.val :: parts) = p :: joinParts parts := by
  rcases parts with _ | ⟨c | m, parts⟩
  · exact congrArg (· :: _) (ofNat_val p)
  · exact congrArg (· :: _) (ofNat_val p)
  · have hpair : (Text.isHighUnit p.val && Text.isLowUnit m) = false := by
      rw [Bool.eq_false_iff]
      intro hboth
      obtain ⟨hhigh, hlow⟩ := Bool.and_eq_true_iff.mp hboth
      obtain ⟨rest, hrest⟩ := exists_joinParts_low hlow parts
      rw [CodePoint.isHigh, hhigh, hrest] at h
      simp [isLow_ofNat hlow] at h
    rw [joinParts, hpair, ofNat_val]
    rfl

private theorem parts_of_letter {c x : Char} (h : escapeOf? c = some x) :
    (∀ tail ≠ [], readParts (['\\', c] ++ tail) =
        (readParts tail).map fun (more, rest) => ([.char x] ++ more, rest)) ∧
      ∀ more, joinParts ([.char x] ++ more) = .ofChar x :: joinParts more :=
  ⟨fun _ _ => readParts_letter h, fun _ => rfl⟩

private theorem joinParts_pair {c : Char} (h : 0x10000 ≤ c.toNat) (more : List Part) :
    joinParts (.unit (0xD800 + (c.toNat - 0x10000) / 0x400) ::
      .unit (0xDC00 + (c.toNat - 0x10000) % 0x400) :: more) = .ofChar c :: joinParts more := by
  have hvalid : c.toNat < 0xD800 ∨ 0xDFFF < c.toNat ∧ c.toNat < 0x110000 := c.valid
  have hhigh : Text.isHighUnit (0xD800 + (c.toNat - 0x10000) / 0x400) = true := by
    rw [Text.isHighUnit, Bool.and_eq_true, decide_eq_true_iff, decide_eq_true_iff]
    omega
  have hlow : Text.isLowUnit (0xDC00 + (c.toNat - 0x10000) % 0x400) = true := by
    rw [Text.isLowUnit, Bool.and_eq_true, decide_eq_true_iff, decide_eq_true_iff]
    omega
  have hpair : 0x10000 + (0xD800 + (c.toNat - 0x10000) / 0x400 - 0xD800) * 0x400 +
      (0xDC00 + (c.toNat - 0x10000) % 0x400 - 0xDC00) = c.toNat := by omega
  rw [joinParts, hhigh, hlow, Bool.and_self, if_pos rfl, CodePoint.ofPair, hpair, ofNat_toNat]

private theorem exists_parts_of_escaped (c : Char) :
    ∃ parts, (∀ tail ≠ [], readParts (escaped c ++ tail) =
        (readParts tail).map fun (more, rest) => (parts ++ more, rest)) ∧
      ∀ more, joinParts (parts ++ more) = .ofChar c :: joinParts more := by
  unfold escaped
  split
  case h_1 | h_2 | h_3 | h_4 | h_5 | h_6 | h_7 => exact ⟨_, parts_of_letter rfl⟩
  case h_8 hquote hslash _ _ _ _ _ =>
    dsimp only
    split_ifs with hplain hunit
    · exact ⟨[.char c], fun tail _ => readParts_char hquote hslash hplain.1, fun _ => rfl⟩
    · refine ⟨[.unit c.toNat], fun tail htail => readParts_unit hunit htail, fun more => ?_⟩
      have hhigh := (Text.not_unit_of_char c).1
      exact joinParts_unit (p := .ofChar c) (by simp [CodePoint.isHigh, hhigh])
    · refine ⟨[.unit _, .unit _], fun tail htail => ?_, joinParts_pair (not_lt.mp hunit)⟩
      have hvalid : c.toNat < 0xD800 ∨ 0xDFFF < c.toNat ∧ c.toNat < 0x110000 := c.valid
      rw [List.append_assoc, readParts_unit (by omega) (by simp [unitEscape]),
        readParts_unit (by omega) htail]
      cases readParts tail <;> rfl

private theorem exists_parts_of_point (p : CodePoint) :
    ∃ parts, (∀ tail ≠ [], readParts (escapedPoint p ++ tail) =
        (readParts tail).map fun (more, rest) => (parts ++ more, rest)) ∧
      ∀ more, (p.isHigh && (joinParts more).head?.any (·.isLow)) = false →
        joinParts (parts ++ more) = p :: joinParts more := by
  rw [escapedPoint]
  cases hchar : p.char? with
  | some c =>
    obtain rfl := eq_ofChar_of_char? hchar
    obtain ⟨parts, hread, hjoin⟩ := exists_parts_of_escaped c
    exact ⟨parts, hread, fun more _ => hjoin more⟩
  | none =>
    exact ⟨[.unit p.val], fun tail htail => readParts_unit (val_lt_of_char? hchar) htail,
      fun more => joinParts_unit⟩

private theorem readParts_escaped {s : Points} (h : s.hasSplitPair = false) (rest : List Char) :
    ∃ parts, readParts (s.flatMap escapedPoint ++ '"' :: rest) = .ok (parts, rest) ∧
      joinParts parts = s := by
  induction s with
  | nil => exact ⟨[], by rw [List.flatMap_nil, List.nil_append, readParts], rfl⟩
  | cons p s ih =>
    obtain ⟨hfirst, hrest⟩ := Bool.or_eq_false_iff.mp h
    obtain ⟨more, hread, rfl⟩ := ih hrest
    obtain ⟨parts, hparts, hjoin⟩ := exists_parts_of_point p
    refine ⟨parts ++ more, ?_, hjoin more hfirst⟩
    rw [List.flatMap_cons, List.append_assoc, hparts _ (by simp), hread]
    rfl

/-- A string is read back if no pair in it is two code points. -/
theorem readString_escaped {s : Points} (h : s.hasSplitPair = false) (rest : List Char) :
    readString (s.flatMap escapedPoint ++ '"' :: rest) = .ok (s, rest) := by
  obtain ⟨parts, hread, rfl⟩ := readParts_escaped h rest
  rw [readString, hread]

theorem stringChars_append (s : Points) (rest : List Char) :
    stringChars s ++ rest = '"' :: (s.flatMap escapedPoint ++ '"' :: rest) := by
  rw [stringChars, List.cons_append, List.cons_append, List.append_assoc, List.singleton_append]

private theorem isHighUnit_of_ofNat {n : ℕ} (h : (CodePoint.ofNat n).isHigh = true) :
    Text.isHighUnit n = true := by
  rw [CodePoint.isHigh, CodePoint.ofNat] at h
  split_ifs at h
  · exact h
  · cases h

private theorem isLowUnit_of_ofNat {n : ℕ} (h : (CodePoint.ofNat n).isLow = true) :
    Text.isLowUnit n = true := by
  rw [CodePoint.isLow, CodePoint.ofNat] at h
  split_ifs at h
  · exact h
  · cases h

private theorem not_half_ofPair {n m : ℕ} :
    (CodePoint.ofPair n m).isHigh = false ∧ (CodePoint.ofPair n m).isLow = false := by
  constructor
  · rw [Bool.eq_false_iff]
    intro h
    have hunit := isHighUnit_of_ofNat h
    simp only [Text.isHighUnit, Bool.and_eq_true, decide_eq_true_eq] at hunit
    omega
  · rw [Bool.eq_false_iff]
    intro h
    have hunit := isLowUnit_of_ofNat h
    simp only [Text.isLowUnit, Bool.and_eq_true, decide_eq_true_eq] at hunit
    omega

private theorem exists_unit_of_isLow {parts : List Part} {p : CodePoint}
    (hhead : (joinParts parts).head? = some p) (hlow : p.isLow = true) :
    ∃ m rest, parts = .unit m :: rest ∧ Text.isLowUnit m = true := by
  match parts with
  | [] => cases hhead
  | .char c :: _ =>
    obtain rfl := Option.some.inj hhead
    exact absurd hlow (by simp [CodePoint.isLow, (Text.not_unit_of_char c).2])
  | [.unit m] =>
    obtain rfl := Option.some.inj hhead
    exact ⟨m, _, rfl, isLowUnit_of_ofNat hlow⟩
  | .unit m :: .char _ :: _ =>
    obtain rfl := Option.some.inj hhead
    exact ⟨m, _, rfl, isLowUnit_of_ofNat hlow⟩
  | .unit m :: .unit k :: _ =>
    rw [joinParts] at hhead
    split_ifs at hhead
    · obtain rfl := Option.some.inj hhead
      exact absurd hlow (by simp [not_half_ofPair.2])
    · obtain rfl := Option.some.inj hhead
      exact ⟨m, _, rfl, isLowUnit_of_ofNat hlow⟩

private theorem hasSplitPair_joinParts (parts : List Part) :
    (joinParts parts).hasSplitPair = false := by
  have hcons : ∀ p s, (p.isHigh = true → ∀ q, s.head? = some q → q.isLow = false) →
      Points.hasSplitPair s = false → Points.hasSplitPair (p :: s) = false := by
    intro p s hsplit hs
    rw [Points.hasSplitPair, hs, Bool.or_false, Bool.and_eq_false_iff]
    cases hhigh : p.isHigh with
    | false => exact .inl rfl
    | true =>
      cases hhead : s.head? with
      | none => exact .inr rfl
      | some q => exact .inr (hsplit hhigh q hhead)
  fun_induction joinParts parts with
  | case1 => rfl
  | case2 c rest ih =>
    refine hcons _ _ (fun hhigh => ?_) ih
    exact absurd hhigh (by simp [CodePoint.isHigh, (Text.not_unit_of_char c).1])
  | case3 n m rest _ ih =>
    exact hcons _ _ (fun hhigh => absurd hhigh (by simp [not_half_ofPair.1])) ih
  | case4 n m rest hpair ih =>
    refine hcons _ _ (fun hhigh q hhead => Bool.eq_false_iff.mpr fun hlow => hpair ?_) ih
    obtain ⟨m', rest', hparts, hm⟩ := exists_unit_of_isLow hhead hlow
    obtain ⟨hm', -⟩ := List.cons.inj hparts
    obtain rfl := Part.unit.inj hm'
    rw [isHighUnit_of_ofNat hhigh, hm]
    rfl
  | case5 n rest hother ih =>
    refine hcons _ _ (fun hhigh q hhead => Bool.eq_false_iff.mpr fun hlow => ?_) ih
    obtain ⟨m, rest', hparts, -⟩ := exists_unit_of_isLow hhead hlow
    exact hother m rest' hparts

theorem hasSplitPair_of_readString {cs rest : List Char} {s : Points}
    (h : readString cs = .ok (s, rest)) : s.hasSplitPair = false := by
  rw [readString] at h
  split at h
  · obtain ⟨rfl, -⟩ := Prod.mk.inj (Except.ok.inj h)
    exact hasSplitPair_joinParts _
  · cases h
  · cases h

/-! ## Integers -/

/-- No number goes on in the rest. -/
def IsStop (rest : List Char) : Prop := ∀ c ∈ rest.head?, c = ',' ∨ c = '\n'

private theorem digits_ne_nil (n : ℕ) : digits n ≠ [] := Nat.toDigits_ne_nil

private theorem isDigit_of_mem_digits {n : ℕ} {c : Char} (h : c ∈ digits n) : c.isDigit = true :=
  Nat.isDigit_of_mem_toDigits (by decide) (by decide) h

private theorem head?_digits_ne_zero {n : ℕ} (h : n ≠ 0) : (digits n).head? ≠ some '0' := by
  induction n using Nat.strong_induction_on with
  | _ n ih =>
    rcases lt_or_ge n 10 with hsmall | hlarge
    · have hall : ∀ n < 10, n ≠ 0 → (digits n).head? ≠ some '0' := by decide
      exact hall n hsmall h
    · rw [digits_concat hlarge, List.head?_append_of_ne_nil _ (digits_ne_nil _)]
      exact ih (n / 10) (by omega) (by omega)

private theorem digitsValue_digits (n : ℕ) : digitsValue (digits n) = n :=
  Nat.ofDigitChars_ten_toDigits

private theorem takeWhile_isDigit (h : IsStop rest) : rest.takeWhile Char.isDigit = [] := by
  cases rest with
  | nil => rfl
  | cons c rest => rcases h c rfl with rfl | rfl <;> rfl

private theorem dropWhile_isDigit (h : IsStop rest) : rest.dropWhile Char.isDigit = rest := by
  cases rest with
  | nil => rfl
  | cons c rest => rcases h c rfl with rfl | rfl <;> rfl

private theorem readTail_of_isStop (h : IsStop rest) (negative : Bool) (whole : List Char) :
    readTail negative whole rest =
      (.int (if negative then -(digitsValue whole : ℤ) else digitsValue whole), rest) := by
  cases rest with
  | nil => rfl
  | cons c rest => rcases h c rfl with rfl | rfl <;> rfl

private theorem readMagnitude_digits (n : ℕ) (h : IsStop rest) (negative : Bool) :
    readMagnitude negative (digits n ++ rest) =
      some (.int (if negative then -(n : ℤ) else n), rest) := by
  by_cases hzero : n = 0
  · subst hzero
    change some (readTail negative ['0'] rest) = _
    rw [readTail_of_isStop h]
    rfl
  obtain ⟨c, ds, hdigits⟩ := List.exists_cons_of_ne_nil (digits_ne_nil n)
  have hc : c ≠ '0' := by
    rintro rfl
    exact head?_digits_ne_zero hzero (by rw [hdigits]; rfl)
  have hall : ∀ d ∈ digits n, d.isDigit = true := fun d => isDigit_of_mem_digits
  have htail := readTail_of_isStop h negative (digits n)
  rw [digitsValue_digits] at htail
  rw [← htail, hdigits, List.cons_append, readMagnitude]
  · rw [if_pos (hall c (hdigits ▸ List.mem_cons_self)), ← List.cons_append, ← hdigits,
      List.takeWhile_append_of_pos hall, List.dropWhile_append_of_pos hall, takeWhile_isDigit h,
      dropWhile_isDigit h, List.append_nil]
  · exact hc

theorem exists_intChars_eq (n : ℤ) :
    ∃ c cs, intChars n = c :: cs ∧
      (c.isDigit = true ∨ c = '-' ∧ ∃ d ds, cs = d :: ds ∧ d.isDigit = true) := by
  obtain ⟨c, cs, hdigits⟩ := List.exists_cons_of_ne_nil (digits_ne_nil n.natAbs)
  have hc : c.isDigit = true := isDigit_of_mem_digits (hdigits ▸ List.mem_cons_self)
  rw [intChars]
  split_ifs
  · exact ⟨'-', _, rfl, .inr ⟨rfl, c, cs, hdigits, hc⟩⟩
  · exact ⟨c, cs, hdigits, .inl hc⟩

private theorem readNumber_intChars (n : ℤ) (h : IsStop rest) :
    readNumber (intChars n ++ rest) = some (.int n, rest) := by
  rw [intChars]
  split_ifs with hneg
  · rw [List.cons_append, readNumber, readMagnitude_digits _ h]
    congr 3
    simp only [if_true]
    omega
  · obtain ⟨c, cs, hdigits⟩ := List.exists_cons_of_ne_nil (digits_ne_nil n.natAbs)
    have hc : c.isDigit = true := isDigit_of_mem_digits (hdigits ▸ List.mem_cons_self)
    have hread : readNumber (digits n.natAbs ++ rest) =
        readMagnitude false (digits n.natAbs ++ rest) := by
      rw [hdigits, List.cons_append, readNumber]
      intro more hmore
      obtain ⟨rfl, -⟩ := List.cons.inj hmore
      cases hc
    rw [hread, readMagnitude_digits _ h]
    congr 3
    rw [if_neg (by decide)]
    omega

private theorem readWord_intChars (n : ℤ) (rest : List Char) : readWord
    (intChars n ++ rest) = none := by
  have hdigit : ∀ c : Char, c.isDigit = true → 'n' ≠ c ∧ 't' ≠ c ∧ 'f' ≠ c ∧ 'N' ≠ c ∧ 'I' ≠ c ∧
      '-' ≠ c := by
    intro c hc
    refine ⟨?_, ?_, ?_, ?_, ?_, ?_⟩ <;> rintro rfl <;> cases hc
  obtain ⟨c, cs, hchars, hc⟩ := exists_intChars_eq n
  rw [hchars, readWord]
  rcases hc with hc | ⟨rfl, d, ds, rfl, hd⟩
  · simp [words, afterWord, hdigit c hc]
  · simp [words, afterWord, hdigit d hd]

theorem readScalar_intChars {n : ℤ} (hn : n.natAbs < 10 ^ maxDigits) (h : IsStop rest) :
    readScalar (intChars n ++ rest) = .ok (.int n, rest) := by
  have hcount : ¬ maxDigits < (Nat.toDigits 10 n.natAbs).length :=
    not_lt.mpr ((Nat.length_toDigits_le_iff (by decide) (by decide)).mpr hn)
  rw [readScalar, readWord_intChars, readNumber_intChars n h]
  dsimp only
  rw [limited, if_neg hcount]
  rfl

theorem readScalar_bool (b : Bool) (rest : List Char) :
    readScalar ((if b then "true" else "false").toList ++ rest) = .ok (.bool b, rest) := by
  cases b <;> rfl

end Json

end BlockFsck
