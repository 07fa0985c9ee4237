import BlockFsck.Amount
import BlockFsck.Proofs.Decimal
import BlockFsck.Proofs.Double.Exact

/-!
# Sizes in binary units

The unit of a printed size is the largest one that is not above the size, and the number before it
is within half of its last place of the exact quotient. The unit is chosen before the number is
rounded, so that just below the next unit the number is `1024.00` (`Amount.printed_fits_iff`).
-/

namespace BlockFsck.Amount

open Double (OnGrid placed)

/-- A number with two decimals, and a unit. -/
structure Printed where
  hundredths : ℕ
  power : Fin units.length
  deriving DecidableEq

namespace Printed

variable (size : Printed)

def text : String :=
  let n := size.hundredths
  s!"{n / 100}.{n / 10 % 10}{n % 10} {units.get size.power}"

def value : ℚ := size.hundredths / 100

def unitBytes : ℤ := 1024 ^ (size.power.val + 1)

/-- The unit is the right one for the number, and both together are off by half of the last place at
most. -/
structure Fits (bytes : ℤ) : Prop where
  one_le : 1 ≤ size.value
  lt : size.value < 1024
  near : |size.value * size.unitBytes - bytes| ≤ 0.005 * size.unitBytes

/-- The characters from the point on. -/
def tail : List Char :=
  '.' :: (size.hundredths / 10 % 10).digitChar :: (size.hundredths % 10).digitChar :: ' ' ::
    (units.get size.power).toList

private theorem toList_text : size.text.toList = digits (size.hundredths / 100) ++ size.tail := by
  have htenths := toList_toString_digit (Nat.mod_lt (size.hundredths / 10) (by decide : 0 < 10))
  have hlast := toList_toString_digit (Nat.mod_lt size.hundredths (by decide : 0 < 10))
  simp only [text, String.toList_append, toList_toString (size.hundredths / 100), htenths, hlast,
    List.append_assoc]
  rfl

private theorem length_tail : size.tail.length = 7 := by
  have hunit : ∀ power : Fin units.length, (units.get power).toList.length = 3 := by decide
  simp only [tail, List.length_cons, hunit]

private theorem text_injective : Function.Injective text := by
  intro a b h
  have hlists := congrArg String.toList h
  rw [toList_text, toList_text] at hlists
  obtain ⟨hwhole, htail⟩ := List.append_inj' hlists (a.length_tail.trans b.length_tail.symm)
  simp only [tail, List.cons.injEq, true_and] at htail
  obtain ⟨htenths, hlast, hunit⟩ := htail
  have hdigit : ∀ m < 10, ∀ n < 10, m.digitChar = n.digitChar → m = n := by decide
  have hunits : ∀ i j : Fin units.length, (units.get i).toList = (units.get j).toList → i = j := by
    decide
  have hhundreds : a.hundredths / 100 = b.hundredths / 100 := digits_injective hwhole
  have htens := hdigit _ (Nat.mod_lt _ (by decide)) _ (Nat.mod_lt _ (by decide)) htenths
  have hones := hdigit _ (Nat.mod_lt _ (by decide)) _ (Nat.mod_lt _ (by decide)) hlast
  obtain ⟨m, i⟩ := a
  obtain ⟨n, j⟩ := b
  obtain rfl : m = n := by
    dsimp only at hhundreds htens hones
    omega
  obtain rfl := hunits i j hunit
  rfl

end Printed

section Search

variable {n k : ℕ}

private theorem divPos_1024 (hpos : 0 < n) (hn : n ≤ 2 ^ 53) (hk : k + 1 ≤ 107) :
    (Double.finite (n / 1024 ^ k)).divPos 1024 = .finite (n / 1024 ^ (k + 1)) := by
  have hpow : (n / 1024 ^ k / 1024 : ℚ) = n / 2 ^ (10 * (k + 1)) := by
    rw [div_div, ← pow_succ, pow_mul]
    norm_num
  have hq : (0 : ℚ) < n / 1024 ^ k := by positivity
  have hgrid : OnGrid (n / 1024 ^ k / 1024 : ℚ) :=
    hpow ▸ Double.onGrid_div_two_pow hn (by omega)
  have hb : (n / 1024 ^ k / 1024 : ℚ) < Double.bound := hpow ▸ Double.div_two_pow_lt_bound hn
  rw [Double.divPos_of_onGrid hq (by norm_num) hgrid hb, div_div, ← pow_succ]

private theorem inUnits_eq {names : List String} (hn : n ≤ 2 ^ 53) (hk : k + names.length ≤ 107)
    (hlow : 1024 ^ k ≤ n) (hhigh : n < 1024 ^ (k + names.length)) :
    ∃ i : Fin names.length, 1024 ^ (k + i) ≤ n ∧ n < 1024 ^ (k + i + 1) ∧
      inUnits (.finite (n / 1024 ^ k)) names = (.finite (n / 1024 ^ (k + i)), names.get i) := by
  have hpos : 0 < n := hlow.trans_lt' (by positivity)
  induction names generalizing k with
  | nil => exact absurd hhigh hlow.not_gt
  | cons name names ih =>
    rw [List.length_cons] at hk hhigh
    have hstop : (Double.finite (n / 1024 ^ k)).lt (.finite 1024) = true ↔ n < 1024 ^ (k + 1) := by
      change decide ((n / 1024 ^ k : ℚ) < 1024) = true ↔ _
      rw [decide_eq_true_iff, div_lt_iff₀ (by positivity), ← pow_succ']
      exact_mod_cast Iff.rfl
    rw [inUnits]
    split_ifs with hlt
    · exact ⟨⟨0, Nat.succ_pos _⟩, hlow, hstop.mp hlt, rfl⟩
    · have hnext : 1024 ^ (k + 1) ≤ n := not_lt.mp (mt hstop.mpr hlt)
      rw [divPos_1024 hpos hn (by omega)]
      rw [← add_assoc, add_right_comm] at hk hhigh
      obtain ⟨i, hreached, hbelow, heq⟩ := ih hk hnext hhigh
      rw [add_right_comm k 1] at hreached hbelow heq
      exact ⟨i.succ, hreached, hbelow, heq⟩

end Search

section Places

variable {x : ℚ} (hx : 0 ≤ x)

include hx

private theorem abs_twoPlaces_sub_le : |(placed 2 x / 100 - x : ℚ)| ≤ 0.005 := by
  have hround : |(placed 2 x : ℚ) - x * 10 ^ 2| ≤ 1 / 2 := Double.abs_placed_sub_le hx 2
  rw [abs_le] at hround ⊢
  constructor <;> linarith

private theorem le_twoPlaces {n : ℕ} (h : n ≤ x) : (n : ℚ) ≤ placed 2 x / 100 := by
  have hle : n * 100 ≤ placed 2 x := Double.le_placed hx 2 (by push_cast; linarith)
  rw [le_div_iff₀ (by norm_num)]
  exact_mod_cast hle

private theorem twoPlaces_le {n : ℕ} (h : x ≤ n) : (placed 2 x / 100 : ℚ) ≤ n := by
  have hle : placed 2 x ≤ n * 100 := Double.placed_le hx 2 (by push_cast; linarith)
  rw [div_le_iff₀ (by norm_num)]
  exact_mod_cast hle

private theorem twoPlaces_lt_iff (n : ℕ) : (placed 2 x / 100 : ℚ) < n ↔ x < n - 0.005 := by
  have hround : placed 2 x < n * 100 ↔ 2 * (x * 10 ^ 2) + 1 < 2 * (n * 100 : ℕ) := by
    rw [← not_le, ← not_le, Double.le_placed_iff_of_even hx 2 (by omega)]
  have hcast : (placed 2 x : ℚ) < n * 100 ↔ placed 2 x < n * 100 := by exact_mod_cast Iff.rfl
  rw [div_lt_iff₀ (by norm_num), hcast, hround]
  push_cast
  constructor <;> intro h <;> linarith

end Places

private theorem sizeText?_eq {bytes : ℤ} (hlow : 1024 ≤ bytes) (hhigh : bytes < 2 ^ 50) :
    ∃ size : Printed, sizeText? bytes = some size.text ∧
      size.unitBytes ≤ bytes ∧ bytes < 1024 * size.unitBytes ∧
      size.hundredths = placed 2 (bytes / size.unitBytes) := by
  obtain ⟨n, rfl⟩ := Int.eq_ofNat_of_zero_le (show 0 ≤ bytes by omega)
  have hn : n ≤ 2 ^ 53 := by omega
  obtain ⟨i, hreached, hbelow, heq⟩ :=
    inUnits_eq (k := 1) hn (by decide : 1 + units.length ≤ 107) (by omega)
      (show n < 2 ^ 50 by omega)
  have hfirst := divPos_1024 (n := n) (k := 0) (by omega) hn (by omega)
  rw [pow_zero, div_one, zero_add] at hfirst
  rw [add_comm 1] at hreached hbelow heq
  let x : ℚ := n / 1024 ^ (i.val + 1)
  have hx : 0 ≤ x := by positivity
  refine ⟨⟨placed 2 x, i⟩, ?_, ?_, ?_, ?_⟩
  · rw [sizeText?, if_neg (by omega), Double.ofInt?_of_le (by omega) hn]
    simp only [Option.bind_eq_bind, Option.bind_some, hfirst, heq]
    rw [Double.fixed_finite hx, placeText_two, Printed.text]
    rfl
  · rw [Printed.unitBytes]
    exact_mod_cast hreached
  · rw [Printed.unitBytes, ← pow_succ']
    exact_mod_cast hbelow
  · simp only [Printed.unitBytes]
    push_cast
    rfl

/-- Every size from 1 KiB on and below 1024 TiB is printed in the largest unit that is not above it,
with an error of half of the last place at most. The number is below 1024, as the unit demands, if
and only if the size is more than half of the last place below the next unit. -/
theorem printed_fits_iff {bytes : ℤ} (hlow : 1024 ≤ bytes) (hhigh : bytes < 2 ^ 50) :
    ∃ size : Printed, (∀ other : Printed, sizeText? bytes = some other.text ↔ other = size) ∧
      size.unitBytes ≤ bytes ∧ bytes < 1024 * size.unitBytes ∧
      1 ≤ size.value ∧ size.value ≤ 1024 ∧
      |size.value * size.unitBytes - bytes| ≤ 0.005 * size.unitBytes ∧
      (size.Fits bytes ↔ (bytes : ℚ) < 1023.995 * size.unitBytes) := by
  obtain ⟨size, htext, hunit, hnext, hplaced⟩ := sizeText?_eq hlow hhigh
  have hpos : (0 : ℚ) < size.unitBytes := by
    rw [Printed.unitBytes]
    positivity
  let x : ℚ := bytes / size.unitBytes
  have hmul : x * size.unitBytes = bytes := div_mul_cancel₀ _ hpos.ne'
  have hone : 1 ≤ x := (one_le_div₀ hpos).mpr (by exact_mod_cast hunit)
  have hmost : x < 1024 := (div_lt_iff₀ hpos).mpr (by exact_mod_cast hnext)
  have hx : 0 ≤ x := zero_le_one.trans hone
  have hvalue : size.value = placed 2 x / 100 := by rw [Printed.value, hplaced]
  have hleast : 1 ≤ size.value := by
    rw [hvalue]
    exact_mod_cast le_twoPlaces hx (by exact_mod_cast hone)
  have hgreatest : size.value ≤ 1024 := by
    rw [hvalue]
    exact_mod_cast twoPlaces_le hx (by exact_mod_cast hmost.le)
  have hnear : |size.value * size.unitBytes - bytes| ≤ 0.005 * size.unitBytes := by
    rw [hvalue, ← hmul, ← sub_mul, abs_mul, abs_of_pos hpos]
    exact mul_le_mul_of_nonneg_right (abs_twoPlaces_sub_le hx) hpos.le
  have hlt : size.value < 1024 ↔ (bytes : ℚ) < 1023.995 * size.unitBytes := by
    have hplaces := twoPlaces_lt_iff hx 1024
    norm_num only at hplaces ⊢
    rw [hvalue, hplaces, ← hmul, mul_lt_mul_iff_of_pos_right hpos]
  refine ⟨size, fun other => ?_, hunit, hnext, hleast, hgreatest, hnear, ?_⟩
  · rw [htext, Option.some.injEq]
    exact ⟨fun h => (Printed.text_injective h).symm, fun h => h ▸ rfl⟩
  · exact ⟨fun h => hlt.mp h.lt, fun h => ⟨hleast, hlt.mpr h, hnear⟩⟩

/-- The largest size that is printed in KiB with a number below 1024. -/
theorem printed_fits_iff_of_below :
    (1024 : ℤ) ≤ 1048570 ∧ (1048570 : ℤ) < 2 ^ 50 ∧
      ∃ size : Printed, sizeText? 1048570 = some size.text ∧ size.text = "1023.99 KiB" ∧
        size.Fits 1048570 := by
  have hhigh : (1048570 : ℤ) < 2 ^ 50 := by decide
  obtain ⟨size, htext, -, -, -, -, -, hfits⟩ := printed_fits_iff (by decide) hhigh
  obtain rfl := (htext ⟨102399, 0, by decide⟩).mp (by decide +kernel)
  refine ⟨by decide, hhigh, _, (htext _).mpr rfl, by decide +kernel, hfits.mpr ?_⟩
  norm_num [Printed.unitBytes]

/-- The last size below a unit is printed as 1024 of the smaller one. -/
theorem rounded_up_to_next_unit :
    sizeText? 1048575 = some "1024.00 KiB" ∧
      ¬ ∃ size : Printed, sizeText? 1048575 = some size.text ∧ size.Fits 1048575 := by
  have hprinted : sizeText? 1048575 = some (Printed.text ⟨102400, 0, by decide⟩) := by
    decide +kernel
  refine ⟨by decide +kernel, ?_⟩
  rintro ⟨size, htext, hfits⟩
  rw [hprinted, Option.some.injEq] at htext
  obtain rfl := Printed.text_injective htext
  have hlt := hfits.lt
  norm_num [Printed.value] at hlt

end BlockFsck.Amount
