import BlockFsck.Decimal
import BlockFsck.Path
import BlockFsck.Report.Status
import BlockFsck.Proofs.Text.Occurs

/-!
# Markers of a status in a text

A text is put together of parts. Where the parts name no status, and no word goes over a boundary,
the text names none; and where it takes a marker of a status from one of its parts, it has no
other marker.
-/

namespace BlockFsck

open Text

variable {a b l : String} {status : Status}

private theorem Status.forall_iff {P : Status → Prop} :
    (∀ status, P status) ↔ P .healthy ∧ P .corrupt ∧ P .failure := by
  refine ⟨fun h => ⟨h _, h _, h _⟩, fun ⟨hhealthy, hcorrupt, hfailure⟩ status => ?_⟩
  cases status <;> assumption

instance {P : Status → Prop} [DecidablePred P] : Decidable (∀ status, P status) :=
  decidable_of_iff _ Status.forall_iff.symm

/-- The text names no status. -/
def Unmarked (text : String) : Prop := ∀ status : Status, ¬ Occurs status.text text

instance : DecidablePred Unmarked := fun text =>
  inferInstanceAs (Decidable (∀ status : Status, ¬ Occurs status.text text))

private theorem Status.isUpper_text (status : Status) :
    status.text.toList.all Char.isUpper = true := by
  cases status <;> decide

/-- A text between values: no word goes over its ends. -/
def IsLabel (text : String) : Prop :=
  Unmarked text ∧ StartsWithout Char.isUpper text ∧ EndsWithout Char.isUpper text

instance : DecidablePred IsLabel := fun _ =>
  inferInstanceAs (Decidable (_ ∧ _ ∧ _))

/-- A text without capital letters, as numbers are. -/
def IsLow (text : String) : Prop := text.toList.all (fun c => !c.isUpper) = true

instance : DecidablePred IsLow := fun _ => inferInstanceAs (Decidable (_ = _))

private theorem isLow_iff {text : String} : IsLow text ↔ ∀ c ∈ text.toList, c.isUpper = false := by
  simp [IsLow]

namespace Unmarked

theorem of_occurs (h : Unmarked b) (hpart : Occurs a b) : Unmarked a :=
  fun status hstatus => h status (hstatus.trans hpart)

theorem append (ha : Unmarked a) (hb : Unmarked b) (h : Apart Char.isUpper a b) :
    Unmarked (a ++ b) := by
  intro status hstatus
  rcases hstatus.of_append status.isUpper_text h with hin | hin
  · exact ha status hin
  · exact hb status hin

theorem low (h : IsLow a) : Unmarked a := by
  intro status hstatus
  have hall := List.all_eq_true.mp status.isUpper_text
  obtain ⟨c, hc⟩ : ∃ c, c ∈ status.text.toList := by
    cases status <;> exact ⟨_, List.mem_cons_self ..⟩
  have hlow := isLow_iff.mp h c (hstatus.subset hc)
  rw [hall c hc] at hlow
  cases hlow

theorem ended (ha : Unmarked a) (hl : Unmarked l ∧ StartsWithout Char.isUpper l) :
    Unmarked (a ++ l) := ha.append hl.1 (.inr hl.2)

theorem value (ha : Unmarked a) (hl : IsLabel l) (hb : Unmarked b) :
    Unmarked (a ++ l ++ b) :=
  (ha.ended ⟨hl.1, hl.2.1⟩).append hb (.inl (hl.2.2.append a))

theorem first (hl : Unmarked l ∧ EndsWithout Char.isUpper l) (hb : Unmarked b) :
    Unmarked (l ++ b) := hl.1.append hb (.inl hl.2)

end Unmarked

namespace IsLow

theorem append (ha : IsLow a) (hb : IsLow b) : IsLow (a ++ b) := by
  rw [IsLow, String.toList_append, List.all_append, Bool.and_eq_true]
  exact ⟨ha, hb⟩

theorem ends_append (hl : EndsWithout Char.isUpper l) (ha : IsLow a) :
    EndsWithout Char.isUpper (l ++ a) := by
  rw [EndsWithout, String.toList_append, List.getLast?_append]
  cases hlast : a.toList.getLast? with
  | none => exact hl
  | some c =>
    rw [Option.some_or, Option.any_some, isLow_iff.mp ha c (List.mem_of_getLast? hlast)]
    rfl

private theorem of_isDigit {cs : List Char} (h : ∀ c ∈ cs, c = '.' ∨ c.isDigit = true) :
    IsLow (String.ofList cs) := by
  rw [isLow_iff, String.toList_ofList]
  intro c hc
  rcases h c hc with rfl | hdigit
  · decide
  · rw [Char.isDigit, Bool.and_eq_true, decide_eq_true_eq, decide_eq_true_eq] at hdigit
    have hbelow : ¬ c.val ≥ 'A'.val :=
      UInt32.not_le.mpr (UInt32.lt_of_le_of_lt hdigit.2 (by decide))
    exact decide_eq_false fun hupper => hbelow hupper.1

theorem nat (n : Nat) : IsLow (toString n) :=
  of_isDigit fun _ hc => .inr (Nat.isDigit_of_mem_toDigits (by decide) (by decide) hc)

theorem int (n : Int) : IsLow (toString n) := by
  have hminus : IsLow "-" := by decide
  cases n with
  | ofNat n => exact nat n
  | negSucc n => exact hminus.append (nat n.succ)

private theorem placeText (places n : Nat) : IsLow (BlockFsck.placeText places n) := by
  apply of_isDigit
  have hpadded : ∀ c ∈ zeros (places + 1 - (digits n).length) ++ digits n, c.isDigit = true := by
    intro c hc
    rcases List.mem_append.mp hc with hzero | hdigit
    · rw [List.eq_of_mem_replicate hzero]
      decide
    · exact Nat.isDigit_of_mem_toDigits (by decide) (by decide) hdigit
  intro c hc
  split_ifs at hc
  · exact .inr (hpadded c (List.mem_of_mem_take hc))
  · rcases List.mem_append.mp hc with hc | hc
    · exact .inr (hpadded c (List.mem_of_mem_take hc))
    · exact (List.mem_cons.mp hc).imp_right fun hc => hpadded c (List.mem_of_mem_drop hc)

theorem fixed (places : Nat) (x : Double) : IsLow (x.fixed places) := by
  have hminus : IsLow "-" := by decide
  have hnumber : IsLow (if x.isNegative then "-" ++ BlockFsck.placeText places
      (roundDiv ((x.toRat?.getD 0).num.natAbs * Nat.pow 10 places) (x.toRat?.getD 0).den)
    else BlockFsck.placeText places
      (roundDiv ((x.toRat?.getD 0).num.natAbs * Nat.pow 10 places) (x.toRat?.getD 0).den)) := by
    split_ifs
    · exact hminus.append (placeText _ _)
    · exact placeText _ _
  cases x with
  | nan negative => exact (show IsLow "nan" by decide)
  | infinite negative =>
    cases negative with
    | false => exact (show IsLow "inf" by decide)
    | true => exact (show IsLow "-inf" by decide)
  | negativeZero => exact hnumber
  | finite q => exact hnumber

end IsLow

/-- All markers in the text are those of the status. -/
def Fits (status : Status) (text : String) : Prop :=
  ∀ other : Status, Occurs other.marker text → other = status

instance (status : Status) : DecidablePred (Fits status) := fun text =>
  inferInstanceAs (Decidable (∀ other : Status, Occurs other.marker text → other = status))

/-- The letters of the markers. -/
def Status.isMarkerLetter (c : Char) : Bool := c.isUpper || c = 'i' || c = 's' || c = ' '

private theorem Status.isMarkerLetter_marker (status : Status) :
    status.marker.toList.all Status.isMarkerLetter = true := by
  cases status <;> decide

private theorem Status.exists_marker_eq (status : Status) :
    ∃ lead, status.marker = lead ++ status.text := by
  cases status with
  | healthy => exact ⟨"is ", rfl⟩
  | corrupt => exact ⟨"is ", rfl⟩
  | failure => exact ⟨"", rfl⟩

theorem Unmarked.fits (h : Unmarked a) (status : Status) : Fits status a := by
  intro other hother
  obtain ⟨lead, hmarker⟩ := other.exists_marker_eq
  rw [hmarker] at hother
  exact absurd ((occurs_append_right lead other.text).trans hother) (h other)

namespace Fits

theorem of_occurs (h : Fits status b) (hpart : Occurs a b) : Fits status a :=
  fun other hother => h other (hother.trans hpart)

theorem append (ha : Fits status a) (hb : Fits status b) (h : Apart Status.isMarkerLetter a b) :
    Fits status (a ++ b) := by
  intro other hother
  rcases hother.of_append other.isMarkerLetter_marker h with hin | hin
  · exact ha other hin
  · exact hb other hin

theorem append_unmarked (ha : Fits status a) (hb : Unmarked b) (h : Apart Char.isUpper a b) :
    Fits status (a ++ b) := by
  intro other hother
  obtain ⟨lead, hmarker⟩ := other.exists_marker_eq
  have hleft := ha other
  rw [hmarker] at hother hleft
  exact hleft (hother.of_append_word other.isUpper_text h (hb other))

theorem count (hl : (∀ status, Fits status l) ∧ EndsWithout Char.isUpper l) (n : Int) :
    Fits status (l ++ toString n) :=
  (hl.1 status).append_unmarked (.low (.int n)) (.inl hl.2)

private theorem append_break (ha : Fits status a) (hb : Fits status b) :
    Fits status (a ++ "\n" ++ b) := by
  have hbreak : Fits status "\n" := (show Unmarked "\n" by decide).fits status
  have hends : EndsWithout Status.isMarkerLetter "\n" := by decide
  exact (ha.append hbreak (.inr (by decide))).append hb (.inl (hends.append a))

theorem intercalate {lines : List String} (h : ∀ line ∈ lines, Fits status line) :
    Fits status (String.intercalate "\n" lines) := by
  induction lines with
  | nil => exact (show Unmarked "" by decide).fits status
  | cons line lines ih =>
    cases lines with
    | nil => simpa using h
    | cons next lines =>
      rw [String.intercalate_cons_cons]
      exact (h line (by simp)).append_break (ih fun other hother => h other (by simp [hother]))

end Fits

theorem occurs_intercalate (separator : String) {line : String} {lines : List String}
    (h : line ∈ lines) : Occurs line (String.intercalate separator lines) := by
  induction lines with
  | nil => cases h
  | cons first lines ih =>
    cases lines with
    | nil =>
      obtain rfl := List.mem_singleton.mp h
      rw [String.intercalate_singleton]
      exact List.infix_refl _
    | cons next lines =>
      rw [String.intercalate_cons_cons]
      rcases List.mem_cons.mp h with rfl | hlater
      · rw [String.append_assoc]
        exact occurs_append_left ..
      · exact (ih hlater).trans (occurs_append_right ..)

/-- The markers in the text are those of the status, and there is one. -/
def Shows (status : Status) (text : String) : Prop :=
  ∀ other : Status, Occurs other.marker text ↔ other = status

theorem Fits.shows (h : Fits status a) (hmarker : Occurs status.marker a) : Shows status a := by
  intro other
  refine ⟨h other, ?_⟩
  rintro rfl
  exact hmarker

theorem unmarked_intercalate (hl : IsLabel l) {parts : List String}
    (h : ∀ part ∈ parts, Unmarked part) : Unmarked (String.intercalate l parts) := by
  induction parts with
  | nil => exact (show Unmarked "" by decide)
  | cons part parts ih =>
    cases parts with
    | nil => simpa using h
    | cons next parts =>
      rw [String.intercalate_cons_cons]
      exact (h part (by simp)).value hl (ih fun other hother => h other (by simp [hother]))

private theorem prefix_of_pieces {separator : Char} {cs first : List Char}
    {others : List (List Char)}
    (h : Path.pieces separator cs = first :: others) :
    first <+: cs ∧ ∀ other ∈ others, other <:+: cs := by
  induction cs generalizing first others with
  | nil =>
    cases h
    simp
  | cons c cs ih =>
    rw [Path.pieces] at h
    split_ifs at h with hc
    · cases h
      refine ⟨List.nil_prefix, fun other hother => ?_⟩
      cases hrest : Path.pieces separator cs with
      | nil =>
        rw [hrest] at hother
        cases hother
      | cons next rest =>
        rw [hrest] at hother
        obtain ⟨hnext, hrest⟩ := ih hrest
        rcases List.mem_cons.mp hother with rfl | hother
        · exact List.infix_cons hnext.isInfix
        · exact List.infix_cons (hrest other hother)
    · cases hrest : Path.pieces separator cs with
      | nil =>
        rw [hrest] at h
        cases h
        simp
      | cons next rest =>
        rw [hrest] at h
        cases h
        obtain ⟨hnext, hrest⟩ := ih hrest
        refine ⟨(List.prefix_cons_inj c).mpr hnext, fun other hother => ?_⟩
        exact List.infix_cons (hrest other hother)

private theorem infix_of_mem_pieces {separator : Char} {cs piece : List Char}
    (h : piece ∈ Path.pieces separator cs) : piece <:+: cs := by
  cases hpieces : Path.pieces separator cs with
  | nil =>
    rw [hpieces] at h
    cases h
  | cons first others =>
    rw [hpieces] at h
    obtain ⟨hfirst, hothers⟩ := prefix_of_pieces hpieces
    rcases List.mem_cons.mp h with rfl | hmem
    · exact hfirst.isInfix
    · exact hothers piece hmem

theorem unmarked_of_mem_names {text name : String} (h : Unmarked text)
    (hmem : name ∈ Path.names text) : Unmarked name := by
  obtain ⟨piece, hpiece, rfl⟩ := List.mem_map.mp hmem
  have hin := infix_of_mem_pieces (List.mem_of_mem_filter hpiece)
  exact h.of_occurs (by rwa [Occurs, String.toList_ofList])

theorem unmarked_text {path : Path} : Unmarked path.text ↔ ∀ name ∈ path, Unmarked name := by
  have hslash : IsLabel "/" := by decide
  constructor
  · intro h name hmem
    exact h.of_occurs ((occurs_intercalate "/" hmem).trans (occurs_append_right ..))
  · intro h
    exact .first (by decide) (unmarked_intercalate hslash h)

end BlockFsck
