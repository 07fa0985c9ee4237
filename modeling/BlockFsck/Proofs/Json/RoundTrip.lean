import BlockFsck.Proofs.Json.Scalar
import BlockFsck.Proofs.Json.Writing
import BlockFsck.Proofs.Table

/-!
# What is written is read back

The indented text of a value is read as that value, if it is within the limits of the reader, and
all that the reader gives is within these. Numbers that are no integers are left out.
-/

namespace BlockFsck.Json

variable {cs rest more : List Char} {fuel room depth : ℕ} {x : Json} {xs : List Json}
  {members : List (Points × Json)} {name : Points}

mutual

/-- A value without numbers that are no integers, where the members of an object have different
names. -/
def isPlain : Json → Bool
  | .float _ => false
  | .arr items => arePlain items
  | .obj members => decide (members.map Prod.fst).Nodup && arePlainMembers members
  | _ => true

def arePlain : List Json → Bool
  | [] => true
  | x :: xs => isPlain x && arePlain xs

def arePlainMembers : List (Points × Json) → Bool
  | [] => true
  | (_, x) :: xs => isPlain x && arePlainMembers xs

end

mutual

/-- No integer of the value is too long, no pair in its texts and names is two code points, and
there is room for the containers in it. -/
def fits (room : ℕ) : Json → Bool
  | .int n => n.natAbs < 10 ^ maxDigits
  | .str s => !s.hasSplitPair
  | .arr items =>
    match room with
    | 0 => false
    | room + 1 => allFit room items
  | .obj members =>
    match room with
    | 0 => false
    | room + 1 => allFitMembers room members
  | _ => true

def allFit (room : ℕ) : List Json → Bool
  | [] => true
  | x :: xs => fits room x && allFit room xs

def allFitMembers (room : ℕ) : List (Points × Json) → Bool
  | [] => true
  | (name, x) :: xs => !name.hasSplitPair && fits room x && allFitMembers room xs

end

theorem arePlainMembers_iff :
    arePlainMembers members = true ↔ ∀ member ∈ members, member.2.isPlain = true := by
  induction members with
  | nil => simp [arePlainMembers]
  | cons member members ih => simp [arePlainMembers, ih]

theorem allFitMembers_iff :
    allFitMembers room members = true ↔
      ∀ member ∈ members, member.1.hasSplitPair = false ∧ member.2.fits room = true := by
  induction members with
  | nil => simp [allFitMembers]
  | cons member members ih => simp [allFitMembers, ih]

private theorem skipBlanks_lineBreak (depth : ℕ) (cs : List Char) :
    skipBlanks (lineBreak depth ++ cs) = skipBlanks cs := by
  have hblank : ∀ c ∈ lineBreak depth, isBlank c = true := by
    intro c hc
    rcases List.mem_cons.mp hc with rfl | hc
    · rfl
    · rw [List.eq_of_mem_replicate hc]
      rfl
  exact List.dropWhile_append_of_pos hblank

private theorem skipBlanks_cons {c : Char} (h : isBlank c = false) : skipBlanks (c :: cs) = c ::
    cs :=
  List.dropWhile_cons_of_neg (by simp [h])

private theorem isStop_lineBreak (depth : ℕ) (cs : List Char) : IsStop (lineBreak depth ++ cs) := by
  intro c hc
  exact .inr (Option.some.inj hc).symm

private theorem isStop_comma (cs : List Char) : IsStop (',' :: cs) := by
  intro c hc
  exact .inl (Option.some.inj hc).symm

private theorem readValue_of_scalar {c : Char} (hquote : c ≠ '"')
    (hlist : c ≠ '[') (hobject : c ≠ '\x7b') :
    readValue (fuel + 1) room (c :: cs) = readScalar (c :: cs) := by
  rw [readValue]
  all_goals simp_all

private theorem readValue_of_items (hskip : skipBlanks cs = more) (hmore : more.head? ≠ some ']')
    (hread : readItems fuel room more = .ok (xs, rest)) :
    readValue (fuel + 1) (room + 1) ('[' :: cs) = .ok (.arr xs, rest) := by
  rw [readValue, hskip]
  split
  · exact absurd rfl hmore
  · rw [hread]
    rfl

private theorem readValue_of_members (hskip : skipBlanks cs = more)
    (hmore : more.head? ≠ some '\x7d')
    (hread : readMembers fuel room more = .ok (members, rest)) :
    readValue (fuel + 1) (room + 1) ('\x7b' :: cs) = .ok (.object members, rest) := by
  rw [readValue, hskip]
  split
  · exact absurd rfl hmore
  · rw [hread]
    rfl

private theorem readItems_last (hread : readValue fuel room cs = .ok (x, rest))
    (hskip : skipBlanks rest = ']' :: more) :
    readItems (fuel + 1) room cs = .ok ([x], more) := by
  rw [readItems, hread]
  simp only [bind, Except.bind, hskip]

private theorem readItems_more (hread : readValue fuel room cs = .ok (x, ',' :: rest))
    (hmore : readItems fuel room (skipBlanks rest) = .ok (xs, more)) :
    readItems (fuel + 1) room cs = .ok (x :: xs, more) := by
  have hskip : skipBlanks (',' :: rest) = ',' :: rest := skipBlanks_cons rfl
  rw [readItems, hread]
  simp only [bind, Except.bind, hskip, hmore]

private theorem skipBlanks_colon (cs : List Char) : skipBlanks (':' :: cs) = ':' :: cs :=
  skipBlanks_cons rfl

private theorem skipBlanks_space (cs : List Char) : skipBlanks (' ' :: cs) = skipBlanks cs := rfl

private theorem readMembers_last (hname : name.hasSplitPair = false)
    (hread : readValue fuel room cs = .ok (x, rest)) (hcs : skipBlanks cs = cs)
    (hskip : skipBlanks rest = '\x7d' :: more) :
    readMembers (fuel + 1) room (stringChars name ++ ':' :: ' ' :: cs) =
      .ok ([(name, x)], more) := by
  rw [stringChars_append, readMembers, readString_escaped hname]
  simp only [bind, Except.bind, skipBlanks_colon, skipBlanks_space, hcs, hread, hskip]

private theorem readMembers_more (hname : name.hasSplitPair = false)
    (hread : readValue fuel room cs = .ok (x, ',' :: rest)) (hcs : skipBlanks cs = cs)
    (hmore : readMembers fuel room (skipBlanks rest) = .ok (members, more)) :
    readMembers (fuel + 1) room (stringChars name ++ ':' :: ' ' :: cs) =
      .ok ((name, x) :: members, more) := by
  have hskip : skipBlanks (',' :: rest) = ',' :: rest := skipBlanks_cons rfl
  rw [stringChars_append, readMembers, readString_escaped hname]
  simp only [bind, Except.bind, skipBlanks_colon, skipBlanks_space, hcs, hread, hskip, hmore]

private theorem fits_int {n : ℤ} : fits room (.int n) = true ↔ n.natAbs < 10 ^ maxDigits := by
  rw [fits, decide_eq_true_iff]

/-- The text of a value starts at once, and not with a bracket that closes a list or with a byte
order mark. -/
theorem exists_indentedChars_eq (h : x.isPlain = true) (depth : ℕ) :
    ∃ c cs, indentedChars depth x = c :: cs ∧ isBlank c = false ∧ c ≠ ']' ∧ c ≠ '\uFEFF' := by
  cases x with
  | null => exact ⟨'n', _, rfl, rfl, by decide⟩
  | bool b => cases b <;> exact ⟨_, _, rfl, rfl, by decide⟩
  | int n =>
    obtain ⟨c, cs, hchars, hc⟩ := exists_intChars_eq n
    refine ⟨c, cs, (indentedChars_int depth n).trans hchars, ?_⟩
    rcases hc with hc | ⟨rfl, -⟩
    · have hother : ∀ other : Char, other.isDigit = false → c ≠ other := by
        rintro other hother rfl
        exact absurd hc (by simp [hother])
      refine ⟨?_, hother _ rfl, hother _ rfl⟩
      simp [isBlank, hother ' ' rfl, hother '\t' rfl, hother '\n' rfl, hother '\r' rfl]
    · exact ⟨rfl, by decide⟩
  | float x => cases h
  | str s => exact ⟨'"', _, rfl, rfl, by decide⟩
  | arr items =>
    cases items with
    | nil => exact ⟨'[', _, rfl, rfl, by decide⟩
    | cons x xs => exact ⟨'[', _, indentedChars_arr depth x xs, rfl, by decide⟩
  | obj members =>
    cases members with
    | nil => exact ⟨'\x7b', _, rfl, rfl, by decide⟩
    | cons member members =>
      exact ⟨'\x7b', _, indentedChars_obj depth member.1 member.2 members, rfl, by decide⟩

private theorem skipBlanks_indentedChars (h : x.isPlain = true) (depth : ℕ) (rest : List Char) :
    skipBlanks (indentedChars depth x ++ rest) = indentedChars depth x ++ rest := by
  obtain ⟨c, cs, hchars, hblank, -⟩ := exists_indentedChars_eq h depth
  rw [hchars, List.cons_append, skipBlanks_cons hblank]

private theorem head?_indentedChars_ne (h : x.isPlain = true) (depth : ℕ) (rest : List Char) :
    (indentedChars depth x ++ rest).head? ≠ some ']' := by
  obtain ⟨c, cs, hchars, -, hc, -⟩ := exists_indentedChars_eq h depth
  rw [hchars]
  exact fun hclosed => hc (Option.some.inj hclosed)

private theorem skipBlanks_stringChars (name : Points) (rest : List Char) :
    skipBlanks (stringChars name ++ rest) = stringChars name ++ rest := rfl

private theorem indentedChars_arr_append (depth : ℕ) (x : Json) (xs : List Json)
    (rest : List Char) :
    indentedChars depth (.arr (x :: xs)) ++ rest = '[' :: (lineBreak (depth + 1) ++
      (indentedChars (depth + 1) x ++ (indentedItems (depth + 1) xs ++
        (lineBreak depth ++ ']' :: rest)))) := by
  simp [indentedChars_arr]

private theorem indentedChars_obj_append (depth : ℕ) (name : Points) (x : Json)
    (members : List (Points × Json)) (rest : List Char) :
    indentedChars depth (.obj ((name, x) :: members)) ++ rest = '\x7b' :: (lineBreak (depth + 1) ++
      (stringChars name ++ ':' :: ' ' :: (indentedChars (depth + 1) x ++
        (indentedMembers (depth + 1) members ++ (lineBreak depth ++ '\x7d' :: rest))))) := by
  simp [indentedChars_obj]

private theorem indentedItems_append (depth : ℕ) (x : Json) (xs : List Json) (rest : List Char) :
    indentedItems depth (x :: xs) ++ rest =
      ',' :: (lineBreak depth ++ (indentedChars depth x ++ (indentedItems depth xs ++ rest))) := by
  simp [indentedItems_cons]

private theorem indentedMembers_append (depth : ℕ) (name : Points) (x : Json)
    (members : List (Points × Json)) (rest : List Char) :
    indentedMembers depth ((name, x) :: members) ++ rest =
      ',' :: (lineBreak depth ++ (stringChars name ++ ':' :: ' ' :: (indentedChars depth x ++
        (indentedMembers depth members ++ rest)))) := by
  simp [indentedMembers_cons]

mutual

/-- A value is read back from its text, at any depth. The reader needs no more steps than the text
has characters. -/
theorem readValue_indented : ∀ (x : Json) {fuel room depth : ℕ} {rest : List Char},
    x.isPlain = true → x.fits room = true → IsStop rest →
    (indentedChars depth x).length ≤ fuel →
    readValue fuel room (indentedChars depth x ++ rest) = .ok (x, rest)
  | x, 0, room, depth, rest => by
    intro hplain _ _ hfuel
    obtain ⟨c, cs, hchars, -⟩ := exists_indentedChars_eq hplain depth
    rw [hchars] at hfuel
    cases hfuel
  | .null, fuel + 1, room, depth, rest => fun _ _ _ _ =>
    readValue_of_scalar (by decide) (by decide) (by decide)
  | .bool b, fuel + 1, room, depth, rest => by
    intro _ _ _ _
    rw [indentedChars_bool, ← readScalar_bool b rest]
    cases b <;> exact readValue_of_scalar (by decide) (by decide) (by decide)
  | .int n, fuel + 1, room, depth, rest => by
    intro _ hfits hrest _
    have hscalar := readScalar_intChars (fits_int.mp hfits) hrest
    obtain ⟨c, cs, hchars, hc⟩ := exists_intChars_eq n
    rw [indentedChars_int, ← hscalar, hchars]
    refine readValue_of_scalar ?_ ?_ ?_ <;> rintro rfl <;> simp at hc
  | .float _, _ + 1, _, _, _ => by
    intro hplain
    cases hplain
  | .str s, fuel + 1, room, depth, rest => by
    intro _ hfits _ _
    rw [fits, Bool.not_eq_true'] at hfits
    rw [indentedChars_str, stringChars_append, readValue, readString_escaped hfits]
    rfl
  | .arr _, _ + 1, 0, _, _ => by
    intro _ hfits
    cases hfits
  | .arr [], fuel + 1, room + 1, depth, rest => fun _ _ _ _ => rfl
  | .arr (x :: xs), fuel + 1, room + 1, depth, rest => by
    intro hplain hfits _ hfuel
    rw [isPlain] at hplain
    rw [fits] at hfits
    have hx := (Bool.and_eq_true_iff.mp hplain).1
    have hlength : (indentedChars (depth + 1) x).length +
        (indentedItems (depth + 1) xs).length < fuel := by
      simp only [indentedChars_arr, List.length_append, List.length_cons] at hfuel
      omega
    have hskip := skipBlanks_indentedChars hx (depth + 1) (indentedItems (depth + 1) xs ++
      (lineBreak depth ++ ']' :: rest))
    rw [indentedChars_arr_append]
    exact readValue_of_items ((skipBlanks_lineBreak _ _).trans hskip)
      (head?_indentedChars_ne hx (depth + 1) _) (readItems_indented x xs hplain hfits hlength)
  | .obj _, _ + 1, 0, _, _ => by
    intro _ hfits
    cases hfits
  | .obj [], fuel + 1, room + 1, depth, rest => fun _ _ _ _ => rfl
  | .obj ((name, x) :: members), fuel + 1, room + 1, depth, rest => by
    intro hplain hfits _ hfuel
    rw [isPlain, Bool.and_eq_true, decide_eq_true_iff] at hplain
    rw [fits] at hfits
    have hlength : (indentedChars (depth + 1) x).length +
        (indentedMembers (depth + 1) members).length < fuel := by
      simp only [indentedChars_obj, List.length_append, List.length_cons] at hfuel
      omega
    have hskip := skipBlanks_stringChars name (':' :: ' ' :: (indentedChars (depth + 1) x ++
      (indentedMembers (depth + 1) members ++ (lineBreak depth ++ '\x7d' :: rest))))
    rw [indentedChars_obj_append, readValue_of_members ((skipBlanks_lineBreak _ _).trans hskip)
      (by simp [stringChars]) (readMembers_indented name x members hplain.2 hfits hlength),
      object, Table.ofList_entries hplain.1]
termination_by structural _ fuel => fuel

private theorem readItems_indented : ∀ (x : Json) (xs : List Json) {fuel room depth d : ℕ}
    {rest : List Char}, arePlain (x :: xs) = true → allFit room (x :: xs) = true →
    (indentedChars depth x).length + (indentedItems depth xs).length < fuel →
    readItems fuel room (indentedChars depth x ++
      (indentedItems depth xs ++ (lineBreak d ++ ']' :: rest))) = .ok (x :: xs, rest)
  | x, [], fuel + 1, room, depth, d, rest, hplain, hfits, hfuel => by
    rw [arePlain, Bool.and_eq_true] at hplain
    rw [allFit, Bool.and_eq_true] at hfits
    have hread := readValue_indented x hplain.1 hfits.1 (isStop_lineBreak d (']' :: rest))
      (Nat.le_of_lt_succ (Nat.lt_of_add_right_lt hfuel))
    exact readItems_last hread (skipBlanks_lineBreak d _)
  | x, y :: ys, fuel + 1, room, depth, d, rest, hplain, hfits, hfuel => by
    rw [arePlain, Bool.and_eq_true] at hplain
    rw [allFit, Bool.and_eq_true] at hfits
    simp only [indentedItems_cons, List.length_append, List.length_cons] at hfuel
    have hy := (Bool.and_eq_true_iff.mp hplain.2).1
    rw [indentedItems_append]
    refine readItems_more (readValue_indented x hplain.1 hfits.1 (isStop_comma _) (by omega)) ?_
    rw [skipBlanks_lineBreak, skipBlanks_indentedChars hy]
    exact readItems_indented y ys hplain.2 hfits.2 (by omega)
termination_by structural _ _ fuel => fuel

private theorem readMembers_indented : ∀ (name : Points) (x : Json) (members : List (Points × Json))
    {fuel room depth d : ℕ} {rest : List Char}, arePlainMembers ((name, x) :: members) = true →
    allFitMembers room ((name, x) :: members) = true →
    (indentedChars depth x).length + (indentedMembers depth members).length < fuel →
    readMembers fuel room (stringChars name ++ ':' :: ' ' :: (indentedChars depth x ++
      (indentedMembers depth members ++ (lineBreak d ++ '\x7d' :: rest)))) =
      .ok ((name, x) :: members, rest)
  | name, x, [], fuel + 1, room, depth, d, rest, hplain, hfits, hfuel => by
    rw [arePlainMembers, Bool.and_eq_true] at hplain
    rw [allFitMembers, Bool.and_eq_true, Bool.and_eq_true, Bool.not_eq_true'] at hfits
    have hread := readValue_indented x hplain.1 hfits.1.2 (isStop_lineBreak d ('\x7d' :: rest))
      (Nat.le_of_lt_succ (Nat.lt_of_add_right_lt hfuel))
    exact readMembers_last hfits.1.1 hread (skipBlanks_indentedChars hplain.1 _ _)
      (skipBlanks_lineBreak d _)
  | name, x, (other, y) :: members, fuel + 1, room, depth, d, rest, hplain, hfits, hfuel => by
    rw [arePlainMembers, Bool.and_eq_true] at hplain
    rw [allFitMembers, Bool.and_eq_true, Bool.and_eq_true, Bool.not_eq_true'] at hfits
    simp only [indentedMembers_cons, List.length_append, List.length_cons] at hfuel
    rw [indentedMembers_append]
    refine readMembers_more hfits.1.1
      (readValue_indented x hplain.1 hfits.1.2 (isStop_comma _) (by omega))
      (skipBlanks_indentedChars hplain.1 _ _) ?_
    rw [skipBlanks_lineBreak, skipBlanks_stringChars]
    exact readMembers_indented other y members hplain.2 hfits.2 (by omega)
termination_by structural _ _ _ fuel => fuel

end

/-- A value within the limits is read back from its text. -/
theorem read_indented (hplain : x.isPlain = true) (hfits : x.fits room = true) :
    read room (String.ofList (indentedChars 0 x)) = .ok x := by
  have hskip := skipBlanks_indentedChars hplain 0 []
  have hread : readValue (2 * (indentedChars 0 x).length + 2) room (indentedChars 0 x ++ []) =
      .ok (x, []) := readValue_indented x hplain hfits (fun c hc => by cases hc) (by omega)
  have hmark : (indentedChars 0 x).head? ≠ some '\uFEFF' := by
    obtain ⟨c, cs, hchars, -, -, hc⟩ := exists_indentedChars_eq hplain 0
    rw [hchars]
    exact fun hhead => hc (Option.some.inj hhead)
  rw [List.append_nil] at hskip hread
  rw [read, String.toList_ofList, if_neg hmark, readChars, hskip, hread]
  rfl

/-! ## The limits of what is read -/

private theorem map_eq_ok {α β : Type} {e : Except Flaw α} {f : α → β} {b : β}
    (h : e.map f = .ok b) :
    ∃ a, e = .ok a ∧ f a = b := by
  cases e with
  | error flaw => cases h
  | ok a => exact ⟨a, rfl, Except.ok.inj h⟩

private theorem bind_eq_ok {α β : Type} {e : Except Flaw α} {f : α → Except Flaw β} {b : β}
    (h : e >>= f = .ok b) : ∃ a, e = .ok a ∧ f a = .ok b := by
  cases e with
  | error flaw => cases h
  | ok a => exact ⟨a, rfl, h⟩

private theorem readNumber_eq {cs : List Char} (h : readNumber cs = some (x, rest)) :
    (∃ n, x = .int n) ∨ ∃ q, x = .float q := by
  have htail : ∀ negative whole cs, readTail negative whole cs = (x, rest) →
      (∃ n, x = .int n) ∨ ∃ q, x = .float q := by
    intro negative whole cs h
    rw [readTail] at h
    split at h
    · exact .inl ⟨_, (Prod.mk.inj h).1.symm⟩
    · exact .inr ⟨_, (Prod.mk.inj h).1.symm⟩
  have hmagnitude : ∀ negative cs, readMagnitude negative cs = some (x, rest) →
      (∃ n, x = .int n) ∨ ∃ q, x = .float q := by
    intro negative cs h
    rw [readMagnitude.eq_def] at h
    split at h
    · exact htail _ _ _ (Option.some.inj h)
    · split_ifs at h
      exact htail _ _ _ (Option.some.inj h)
    · cases h
  rw [readNumber.eq_def] at h
  split at h <;> exact hmagnitude _ _ h

private theorem fits_of_readScalar (h : readScalar cs = .ok (x, rest)) : x.fits room = true := by
  rw [readScalar] at h
  split at h
  · rename_i hword
    obtain rfl := Except.ok.inj h
    obtain ⟨entry, hmem, hentry⟩ := List.exists_of_findSome?_eq_some hword
    obtain ⟨rest', -, hvalue⟩ := Option.map_eq_some_iff.mp hentry
    obtain rfl := (Prod.mk.inj hvalue).1
    have hall : ∀ entry ∈ words, entry.2.fits room = true := by
      simp [words, fits]
    exact hall entry hmem
  · split at h
    · rename_i hnumber
      obtain ⟨y, hlimited, hpair⟩ := map_eq_ok h
      obtain ⟨rfl, rfl⟩ := Prod.mk.inj hpair
      rcases readNumber_eq hnumber with ⟨n, rfl⟩ | ⟨q, rfl⟩
      · rw [limited] at hlimited
        split_ifs at hlimited with hcount
        obtain rfl := Except.ok.inj hlimited
        exact fits_int.mpr ((Nat.length_toDigits_le_iff (by decide) (by decide)).mp
          (not_lt.mp hcount))
      · obtain rfl := Except.ok.inj hlimited
        rfl
    · cases h

private theorem fits_object (h : allFitMembers room members = true) :
    (object members).fits (room + 1) = true := by
  rw [object, fits, allFitMembers_iff]
  exact fun member hmem => allFitMembers_iff.mp h member (Table.mem_ofList hmem)

mutual

private theorem fits_of_readValue : ∀ {fuel room : ℕ} {cs rest : List Char} {x : Json},
    readValue fuel room cs = .ok (x, rest) → x.fits room = true
  | 0, _, _, _, _ => fun h => by
    rw [readValue] at h
    cases h
  | fuel + 1, room, cs, rest, x => fun h => by
    rw [readValue.eq_def] at h
    dsimp only at h
    split at h
    · obtain ⟨⟨s, rest'⟩, hread, hpair⟩ := map_eq_ok h
      obtain rfl := (Prod.mk.inj hpair).1
      rw [fits, hasSplitPair_of_readString hread]
      rfl
    · cases h
    · split at h
      · exact (Prod.mk.inj (Except.ok.inj h)).1 ▸ rfl
      · obtain ⟨⟨items, rest'⟩, hitems, hpair⟩ := map_eq_ok h
        exact (Prod.mk.inj hpair).1 ▸ allFit_of_readItems hitems
    · cases h
    · split at h
      · exact (Prod.mk.inj (Except.ok.inj h)).1 ▸ rfl
      · obtain ⟨⟨members, rest'⟩, hmembers, hpair⟩ := map_eq_ok h
        exact (Prod.mk.inj hpair).1 ▸ fits_object (allFitMembers_of_readMembers hmembers)
    · exact fits_of_readScalar h
termination_by structural fuel => fuel

private theorem allFit_of_readItems : ∀ {fuel room : ℕ} {cs rest : List Char} {xs : List Json},
    readItems fuel room cs = .ok (xs, rest) → allFit room xs = true
  | 0, _, _, _, _ => fun h => by
    rw [readItems] at h
    cases h
  | fuel + 1, room, cs, rest, xs => fun h => by
    rw [readItems] at h
    obtain ⟨⟨x, rest'⟩, hx, h⟩ := bind_eq_ok h
    have hfits := fits_of_readValue hx
    dsimp only at h
    split at h
    · rw [← (Prod.mk.inj (Except.ok.inj h)).1, allFit, hfits]
      rfl
    · obtain ⟨⟨more, rest''⟩, hmore, h⟩ := bind_eq_ok h
      rw [← (Prod.mk.inj (Except.ok.inj h)).1, allFit, hfits, allFit_of_readItems hmore]
      rfl
    · cases h
termination_by structural fuel => fuel

private theorem allFitMembers_of_readMembers : ∀ {fuel room : ℕ} {cs rest : List Char}
    {members : List (Points × Json)}, readMembers fuel room cs = .ok (members, rest) →
    allFitMembers room members = true
  | 0, _, _, _, _ => fun h => by
    rw [readMembers] at h
    cases h
  | fuel + 1, room, cs, rest, members => fun h => by
    rw [readMembers.eq_def] at h
    dsimp only at h
    split at h
    · obtain ⟨⟨name, rest'⟩, hread, h⟩ := bind_eq_ok h
      have hname := hasSplitPair_of_readString hread
      dsimp only at h
      split at h
      · obtain ⟨⟨x, rest''⟩, hx, h⟩ := bind_eq_ok h
        have hfits := fits_of_readValue hx
        dsimp only at h
        split at h
        · rw [← (Prod.mk.inj (Except.ok.inj h)).1, allFitMembers, hname, hfits]
          rfl
        · obtain ⟨⟨more, rest'''⟩, hmore, h⟩ := bind_eq_ok h
          rw [← (Prod.mk.inj (Except.ok.inj h)).1, allFitMembers, hname, hfits,
            allFitMembers_of_readMembers hmore]
          rfl
        · cases h
      · cases h
    · cases h
termination_by structural fuel => fuel

end

private theorem eq_obj_of_readValue (h : readValue (fuel + 1) room ('\x7b' :: cs) = .ok (x, rest)) :
    ∃ members, x = .obj members := by
  cases room with
  | zero =>
    rw [readValue] at h
    cases h
  | succ room =>
    rw [readValue] at h
    split at h
    · exact ⟨[], (Prod.mk.inj (Except.ok.inj h)).1.symm⟩
    · obtain ⟨⟨members, rest'⟩, -, hpair⟩ := map_eq_ok h
      exact ⟨_, (Prod.mk.inj hpair).1.symm⟩

/-- A text that starts with a brace is read as an object whose members are within the limits, if it
is read at all. -/
theorem exists_members_of_read {text : String} (htext : text.toList = '\x7b' :: cs)
    (h : read room text = .ok x) : ∃ members, x = .obj members ∧ x.fits room = true := by
  rw [read, htext] at h
  have hchars : readChars room ('\x7b' :: cs) = .ok x := by
    cases hread : readChars room ('\x7b' :: cs) with
    | error flaw =>
      rw [hread] at h
      cases h
    | ok y =>
      rw [hread] at h
      exact congrArg Except.ok (Except.ok.inj h)
  rw [readChars] at hchars
  obtain ⟨⟨y, rest⟩, hvalue, hrest⟩ := bind_eq_ok hchars
  dsimp only at hrest
  split at hrest
  · obtain rfl := Except.ok.inj hrest
    obtain ⟨members, rfl⟩ := eq_obj_of_readValue hvalue
    exact ⟨members, rfl, fits_of_readValue hvalue⟩
  · cases hrest

end BlockFsck.Json
