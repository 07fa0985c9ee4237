import Mathlib.Algebra.Order.Field.Power
import Mathlib.Data.Nat.Log
import Mathlib.Data.Rat.Cast.Order
import Mathlib.Tactic.FieldSimp
import Mathlib.Tactic.Positivity
import Mathlib.Tactic.Ring
import BlockFsck.Double

/-!
# Rounding to a double

What a quotient is rounded to is on the grid of the doubles, and not below any point of the grid
that the quotient is not below (`roundMagnitude_spec`).
-/

namespace BlockFsck

theorem le_roundDiv {num den k : ℕ} (hd : 0 < den) (h : k * den ≤ num) :
    k ≤ roundDiv num den := by
  have hq : k ≤ num / den := (Nat.le_div_iff_mul_le hd).mpr h
  rw [roundDiv]
  split_ifs <;> omega

theorem roundDiv_le {num den k : ℕ} (hd : 0 < den) (h : num ≤ k * den) :
    roundDiv num den ≤ k := by
  have hmod : den * (num / den) + num % den = num := Nat.div_add_mod num den
  rw [roundDiv]
  have hle : num / den ≤ k := Nat.div_le_of_le_mul (by rwa [mul_comm])
  rcases hle.eq_or_lt with hq | hq
  · -- nothing is left where the bound is reached
    have hrest : num % den = 0 := by
      rw [hq, mul_comm] at hmod
      omega
    rw [hrest, if_pos (by omega)]
    exact hq.le
  · split_ifs <;> omega

namespace Double

/-- The magnitude has 53 binary digits at most, none of them below the last one that a double can
have. -/
def OnGrid (x : ℚ) : Prop := ∃ (m : ℕ) (e : ℤ), m ≤ 2 ^ 53 ∧ -1074 ≤ e ∧ x = m * 2 ^ e

theorem OnGrid.nonneg {x : ℚ} (h : OnGrid x) : 0 ≤ x := by
  obtain ⟨m, e, -, -, rfl⟩ := h
  positivity

private theorem two_zpow (e : ℤ) : (2 : ℚ) ^ e = 2 ^ e.toNat / 2 ^ (-e).toNat := by
  rcases le_total 0 e with he | he
  · obtain ⟨n, rfl⟩ := Int.eq_ofNat_of_zero_le he
    simp
  · obtain ⟨n, rfl⟩ : ∃ n : ℕ, e = -n := ⟨(-e).toNat, by omega⟩
    simp

theorem scale_eq (m : ℕ) (e : ℤ) : scale m e = m * 2 ^ e := by
  rw [two_zpow, scale]
  split_ifs with he
  · simp [Int.toNat_of_nonpos (by omega : -e ≤ 0)]
  · rw [Int.toNat_of_nonpos (by omega : e ≤ 0), Rat.mkRat_eq_div]
    simp [div_eq_mul_inv]

section Quotient

variable {num den k : ℕ} {e : ℤ}

private theorem gridSteps_eq (num den : ℕ) (e : ℤ) :
    gridSteps num den e = roundDiv (num * 2 ^ (-e).toNat) (den * 2 ^ e.toNat) := by
  rw [gridSteps]
  split_ifs with he
  · simp [Int.toNat_of_nonpos (by omega : -e ≤ 0)]
  · simp [Int.toNat_of_nonpos (by omega : e ≤ 0)]

private theorem mul_zpow_le_iff (hd : 0 < den) :
    k * 2 ^ e ≤ (num / den : ℚ) ↔ k * (den * 2 ^ e.toNat) ≤ num * 2 ^ (-e).toNat := by
  have hden : (0 : ℚ) < den := by exact_mod_cast hd
  have hpow : (0 : ℚ) < 2 ^ (-e).toNat := by positivity
  rw [two_zpow, ← mul_div_assoc, div_le_div_iff₀ hpow hden, mul_right_comm, mul_assoc]
  exact_mod_cast Iff.rfl

private theorem le_mul_zpow_iff (hd : 0 < den) :
    (num / den : ℚ) ≤ k * 2 ^ e ↔ num * 2 ^ (-e).toNat ≤ k * (den * 2 ^ e.toNat) := by
  have hden : (0 : ℚ) < den := by exact_mod_cast hd
  have hpow : (0 : ℚ) < 2 ^ (-e).toNat := by positivity
  rw [two_zpow, ← mul_div_assoc, div_le_div_iff₀ hden hpow, mul_right_comm _ _ (den : ℚ),
    mul_assoc _ (den : ℚ)]
  exact_mod_cast Iff.rfl

private theorem binaryExponent_spec (hn : 0 < num) (hd : 0 < den) :
    2 ^ binaryExponent num den ≤ (num / den : ℚ) ∧
      (num / den : ℚ) < 2 ^ (binaryExponent num den + 1) := by
  have hden : (0 : ℚ) < den := by exact_mod_cast hd
  have hnlow : (2 : ℚ) ^ (num.log2 : ℤ) ≤ num := by exact_mod_cast Nat.log2_self_le hn.ne'
  have hnhigh : (num : ℚ) < 2 ^ (num.log2 + 1 : ℤ) := by exact_mod_cast Nat.lt_log2_self
  have hdlow : (2 : ℚ) ^ (den.log2 : ℤ) ≤ den := by exact_mod_cast Nat.log2_self_le hd.ne'
  have hdhigh : (den : ℚ) < 2 ^ (den.log2 + 1 : ℤ) := by exact_mod_cast Nat.lt_log2_self
  have hlow : (2 : ℚ) ^ ((num.log2 : ℤ) - den.log2 - 1) ≤ num / den := by
    rw [le_div_iff₀ hden]
    calc (2 : ℚ) ^ ((num.log2 : ℤ) - den.log2 - 1) * den
      _ ≤ 2 ^ ((num.log2 : ℤ) - den.log2 - 1) * 2 ^ (den.log2 + 1 : ℤ) := by gcongr
      _ = 2 ^ (num.log2 : ℤ) := by
        rw [← zpow_add₀ two_ne_zero]
        congr 1
        ring
      _ ≤ num := hnlow
  have hhigh : (num / den : ℚ) < 2 ^ ((num.log2 : ℤ) - den.log2 + 1) := by
    rw [div_lt_iff₀ hden]
    calc (num : ℚ)
      _ < 2 ^ (num.log2 + 1 : ℤ) := hnhigh
      _ = 2 ^ ((num.log2 : ℤ) - den.log2 + 1) * 2 ^ (den.log2 : ℤ) := by
        rw [← zpow_add₀ two_ne_zero]
        congr 1
        ring
      _ ≤ 2 ^ ((num.log2 : ℤ) - den.log2 + 1) * den := by gcongr
  have hreaches : ∀ e : ℤ, (if 0 ≤ e then den * Nat.pow 2 e.toNat ≤ num
      else den ≤ num * Nat.pow 2 (-e).toNat) ↔ (2 : ℚ) ^ e ≤ num / den := by
    intro e
    have hone : ((1 : ℕ) * 2 ^ e : ℚ) ≤ num / den ↔ _ := mul_zpow_le_iff hd
    rw [Nat.cast_one, one_mul, one_mul] at hone
    rw [hone]
    split_ifs with he
    · simp [Int.toNat_of_nonpos (by omega : -e ≤ 0)]
    · simp [Int.toNat_of_nonpos (by omega : e ≤ 0)]
  rcases le_or_gt ((2 : ℚ) ^ ((num.log2 : ℤ) - den.log2)) (num / den) with h | h
  · rw [binaryExponent, if_pos ((hreaches _).mpr h)]
    exact ⟨h, hhigh⟩
  · rw [binaryExponent, if_neg (mt (hreaches _).mp h.not_ge), sub_add_cancel]
    exact ⟨hlow, h⟩

theorem le_gridSteps (hd : 0 < den) (h : k * 2 ^ e ≤ (num / den : ℚ)) :
    k ≤ gridSteps num den e := by
  rw [gridSteps_eq]
  exact le_roundDiv (by positivity) ((mul_zpow_le_iff hd).mp h)

theorem gridSteps_le (hd : 0 < den) (h : (num / den : ℚ) ≤ k * 2 ^ e) :
    gridSteps num den e ≤ k := by
  rw [gridSteps_eq]
  exact roundDiv_le (by positivity) ((le_mul_zpow_iff hd).mp h)

private theorem onGrid_scale (hn : 0 < num) (hd : 0 < den) :
    OnGrid (scale (gridSteps num den (gridExponent num den)) (gridExponent num den)) := by
  refine ⟨_, _, gridSteps_le hd ?_, le_max_right _ _, scale_eq _ _⟩
  have hexponent : binaryExponent num den + 1 ≤ 53 + gridExponent num den := by
    have hmax : binaryExponent num den - 52 ≤ gridExponent num den := le_max_left _ _
    omega
  calc (num / den : ℚ)
    _ ≤ 2 ^ (binaryExponent num den + 1) := (binaryExponent_spec hn hd).2.le
    _ ≤ 2 ^ (53 + gridExponent num den) := zpow_le_zpow_right₀ one_le_two hexponent
    _ = (2 ^ 53 : ℕ) * 2 ^ gridExponent num den := by
      rw [zpow_add₀ two_ne_zero]
      norm_num

theorem mul_zpow_eq_of_le {fine coarse : ℤ} (h : fine ≤ coarse) (m : ℕ) :
    (m * 2 ^ coarse : ℚ) = (m * 2 ^ (coarse - fine).toNat : ℕ) * 2 ^ fine := by
  rw [Nat.cast_mul, Nat.cast_pow, Nat.cast_ofNat, mul_assoc, ← zpow_natCast,
    ← zpow_add₀ two_ne_zero]
  congr 2
  omega

/-- Where the grid is not the finest of all, the quotient is not below the first grid point of its
binade. -/
theorem first_mul_zpow_le (hn : 0 < num) (hd : 0 < den) (h : -1074 < gridExponent num den) :
    ((2 ^ 52 : ℕ) : ℚ) * 2 ^ gridExponent num den ≤ num / den := by
  have hexponent : gridExponent num den = binaryExponent num den - 52 := by
    rcases max_choice (binaryExponent num den - 52) (-1074) with hmax | hmax
    · exact hmax
    · rw [gridExponent, hmax] at h
      omega
  refine le_trans (le_of_eq ?_) (binaryExponent_spec hn hd).1
  rw [Nat.cast_pow, Nat.cast_ofNat, ← zpow_natCast, ← zpow_add₀ two_ne_zero, hexponent]
  congr 1
  omega

/-- A double of a finer grid is not above that point. -/
theorem mul_zpow_le_first {m : ℕ} (hm : m ≤ 2 ^ 53) {fine : ℤ} (h : fine < e) :
    (m * 2 ^ fine : ℚ) ≤ ((2 ^ 52 : ℕ) : ℚ) * 2 ^ e :=
  calc (m * 2 ^ fine : ℚ)
    _ ≤ (2 ^ 53 : ℕ) * 2 ^ (e - 1) := by
      gcongr
      · exact one_le_two
      · omega
    _ = (2 ^ 52 : ℕ) * 2 ^ e := by
      rw [zpow_sub_one₀ two_ne_zero]
      norm_num
      ring

private theorem OnGrid.le_scale {x : ℚ} (hx : OnGrid x) (hn : 0 < num) (hd : 0 < den)
    (h : x ≤ num / den) :
    x ≤ scale (gridSteps num den (gridExponent num den)) (gridExponent num den) := by
  obtain ⟨m, e, hm, he, rfl⟩ := hx
  rw [scale_eq]
  rcases le_or_gt (gridExponent num den) e with hfine | hcoarse
  · -- the double is a point of the grid on which the quotient is rounded
    rw [mul_zpow_eq_of_le hfine] at h ⊢
    gcongr
    exact le_gridSteps hd h
  · -- the grid is that of the binade of the quotient, and the double is below the binade
    refine (mul_zpow_le_first hm hcoarse).trans ?_
    gcongr
    exact le_gridSteps hd (first_mul_zpow_le hn hd (by omega))

/-- A quotient that is not beyond the doubles is rounded to one of them, and to none that is below a
double that the quotient is not below. -/
theorem roundMagnitude_spec (hd : 0 < den) {y : ℚ} (hy : roundMagnitude num den = some y) :
    OnGrid y ∧ ∀ x, OnGrid x → x ≤ num / den → x ≤ y := by
  rw [roundMagnitude] at hy
  split_ifs at hy with hz
  · obtain rfl := Option.some.inj hy
    refine ⟨⟨0, 0, by simp⟩, fun x _ hle => ?_⟩
    simpa [hz] using hle
  · dsimp only at hy
    split_ifs at hy
    obtain rfl := Option.some.inj hy
    have hn : 0 < num := Nat.pos_of_ne_zero hz
    exact ⟨onGrid_scale hn hd, fun x hx hle => hx.le_scale hn hd hle⟩

end Quotient

end Double

end BlockFsck
