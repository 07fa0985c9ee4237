import Mathlib.Algebra.Order.Field.Basic
import Mathlib.Data.Rat.Cast.Order
import Mathlib.Tactic.FieldSimp
import Mathlib.Tactic.Linarith
import BlockFsck.Decimal
import BlockFsck.Proofs.Double.Rounding

/-!
# Decimal places

Rounding to a number of places is off by half a unit of the last place at most, and the text has the
digits of the rounded number with the point before the places.
-/

namespace BlockFsck

private theorem roundDiv_mul_add {den r : ℕ} (q : ℕ) (hr : r < den) :
    roundDiv (den * q + r) den =
      if 2 * r < den then q else if den < 2 * r then q + 1 else q + q % 2 := by
  have hd : 0 < den := Nat.zero_lt_of_lt hr
  rw [roundDiv, Nat.mul_add_div hd, Nat.mul_add_mod, Nat.div_eq_of_lt hr, Nat.mod_eq_of_lt hr,
    Nat.add_zero]

private theorem abs_roundDiv_sub_le {num den : ℕ} (hd : 0 < den) :
    |(roundDiv num den : ℚ) - num / den| ≤ 1 / 2 := by
  have hbounds : 2 * (den * roundDiv num den) ≤ 2 * num + den ∧
      2 * num ≤ 2 * (den * roundDiv num den) + den := by
    have hlt := Nat.mod_lt num hd
    rw [← Nat.div_add_mod num den, roundDiv_mul_add _ hlt]
    split_ifs with hbelow habove
    · omega
    · rw [Nat.mul_succ]
      omega
    · -- a tie goes to one of the two integers next to it
      rcases Nat.mod_two_eq_zero_or_one (num / den) with heven | hodd
      · rw [heven, Nat.add_zero]
        omega
      · rw [hodd, Nat.mul_succ]
        omega
  have hden : (0 : ℚ) < den := by exact_mod_cast hd
  have hlow : (2 * (den * roundDiv num den) : ℚ) ≤ 2 * num + den := by exact_mod_cast hbounds.1
  have hhigh : (2 * num : ℚ) ≤ 2 * (den * roundDiv num den) + den := by exact_mod_cast hbounds.2
  have hsub : (roundDiv num den : ℚ) - num / den = (den * roundDiv num den - num) / den := by
    field_simp
  rw [hsub, abs_div, abs_of_pos hden, div_le_iff₀ hden, abs_le]
  constructor <;> linarith

private theorem le_roundDiv_iff_of_even {num den k : ℕ} (hd : 0 < den) (heven : k % 2 = 0) :
    k ≤ roundDiv num den ↔ 2 * (den * k) ≤ 2 * num + den := by
  have hlt := Nat.mod_lt num hd
  rw [← Nat.div_add_mod num den, roundDiv_mul_add _ hlt]
  rcases lt_trichotomy k (num / den + 1) with hle | rfl | hgt
  · have hmul : den * k ≤ den * (num / den) := Nat.mul_le_mul_left den (Nat.lt_succ_iff.mp hle)
    split_ifs <;> omega
  · rw [Nat.mul_succ]
    split_ifs <;> omega
  · have hmul : den * (num / den + 2) ≤ den * k := Nat.mul_le_mul_left den hgt
    rw [Nat.mul_add] at hmul
    split_ifs <;> omega

theorem digits_concat {n : ℕ} (h : 10 ≤ n) : digits n = digits (n / 10) ++ [(n % 10).digitChar] :=
  Nat.toDigits_of_base_le (by decide) h

theorem digits_injective : Function.Injective digits := fun m n h => by
  rw [← Nat.ofDigitChars_ten_toDigits (n := m), ← digits, h, digits, Nat.ofDigitChars_ten_toDigits]

theorem toList_toString (n : ℕ) : (toString n).toList = digits n := by
  rw [Nat.toString_eq_ofList_toDigits, String.toList_ofList, digits]

theorem toList_toString_digit {n : ℕ} (h : n < 10) : (toString n).toList = [n.digitChar] := by
  rw [toList_toString, digits, Nat.toDigits_of_lt_base h]

private theorem placeText_of_digits {places n : ℕ} {whole part : List Char}
    (h : digits n = whole ++ part)
    (hwhole : whole ≠ []) (hpart : part.length = places) (hplaces : places ≠ 0) :
    placeText places n = String.ofList (whole ++ '.' :: part) := by
  have hpos := List.length_pos_iff.mpr hwhole
  have hpad : places + 1 - (digits n).length = 0 := by
    rw [h, List.length_append, hpart]
    omega
  rw [placeText, hpad, zeros, List.replicate_zero, List.nil_append, if_neg hplaces, h,
    List.length_append, hpart, Nat.add_sub_cancel, List.take_left, List.drop_left]

/-- Two places: the hundreds are before the point. -/
theorem placeText_two (n : ℕ) : placeText 2 n = s!"{n / 100}.{n / 10 % 10}{n % 10}" := by
  rcases lt_or_ge n 100 with hsmall | hlarge
  · have hall : ∀ n < 100, placeText 2 n = s!"{n / 100}.{n / 10 % 10}{n % 10}" := by decide +kernel
    exact hall n hsmall
  · have hdigits : digits n =
        digits (n / 100) ++ [(n / 10 % 10).digitChar, (n % 10).digitChar] := by
      rw [digits_concat (by omega), digits_concat (by omega : 10 ≤ n / 10), Nat.div_div_eq_div_mul,
        List.append_assoc]
      rfl
    have htext : placeText 2 n = _ :=
      placeText_of_digits hdigits Nat.toDigits_ne_nil rfl two_ne_zero
    rw [htext]
    apply String.toList_injective
    have htenths := toList_toString_digit (Nat.mod_lt (n / 10) (by decide : 0 < 10))
    have hlast := toList_toString_digit (Nat.mod_lt n (by decide : 0 < 10))
    simp only [String.toList_append, String.toList_ofList, toList_toString (n / 100), htenths,
      hlast, List.append_assoc]
    rfl

namespace Double

/-- How many units of the last of `places` places a number is rounded to. -/
def placed (places : ℕ) (x : ℚ) : ℕ := roundDiv (x.num.natAbs * 10 ^ places) x.den

section Placed

variable {x : ℚ} (hx : 0 ≤ x) (places : ℕ)

include hx

theorem fixed_finite : (finite x).fixed places = placeText places (placed places x) := by
  have hpositive : (finite x).isNegative = false := decide_eq_false hx.not_gt
  change (if (finite x).isNegative then "-" ++ placeText places (placed places x)
    else placeText places (placed places x)) = _
  rw [hpositive]
  rfl

private theorem scaled_eq : ((x.num.natAbs * 10 ^ places : ℕ) : ℚ) = x * 10 ^ places * x.den := by
  have hnum : (x.num.natAbs : ℚ) = x * x.den := by
    rw [Nat.cast_natAbs, abs_of_nonneg (Rat.num_nonneg.mpr hx), Rat.mul_den_eq_num]
  rw [Nat.cast_mul, hnum, Nat.cast_pow, Nat.cast_ofNat, mul_right_comm]

theorem abs_placed_sub_le : |(placed places x : ℚ) - x * 10 ^ places| ≤ 1 / 2 := by
  have hden : (x.den : ℚ) ≠ 0 := by exact_mod_cast x.den_ne_zero
  have hnear : |(placed places x : ℚ) - (x.num.natAbs * 10 ^ places : ℕ) / x.den| ≤ 1 / 2 :=
    abs_roundDiv_sub_le x.den_pos
  rwa [scaled_eq hx, mul_div_cancel_right₀ _ hden] at hnear

theorem le_placed {k : ℕ} (h : k ≤ x * 10 ^ places) : k ≤ placed places x := by
  have hden : (0 : ℚ) < x.den := by exact_mod_cast x.den_pos
  have hmul := mul_le_mul_of_nonneg_right h hden.le
  rw [← scaled_eq hx] at hmul
  exact le_roundDiv x.den_pos (by exact_mod_cast hmul)

theorem placed_le {k : ℕ} (h : x * 10 ^ places ≤ k) : placed places x ≤ k := by
  have hden : (0 : ℚ) < x.den := by exact_mod_cast x.den_pos
  have hmul := mul_le_mul_of_nonneg_right h hden.le
  rw [← scaled_eq hx] at hmul
  exact roundDiv_le x.den_pos (by exact_mod_cast hmul)

theorem le_placed_iff_of_even {k : ℕ} (heven : k % 2 = 0) :
    k ≤ placed places x ↔ 2 * (k : ℚ) ≤ 2 * (x * 10 ^ places) + 1 := by
  have hden : (0 : ℚ) < x.den := by exact_mod_cast x.den_pos
  have hscaled := scaled_eq hx places
  rw [placed, le_roundDiv_iff_of_even x.den_pos heven, ← mul_le_mul_iff_of_pos_right hden, add_mul,
    mul_assoc 2 _ (x.den : ℚ), mul_assoc 2 _ (x.den : ℚ), ← hscaled, one_mul,
    mul_comm (k : ℚ)]
  exact_mod_cast Iff.rfl

end Placed

end Double

end BlockFsck
