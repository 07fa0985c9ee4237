import Mathlib.Algebra.Order.Ring.Abs
import BlockFsck.Proofs.Double.Rounding

/-!
# Numbers that are doubles

A number on the grid of the doubles is rounded to itself. Integers of 53 binary digits are such
numbers, and so are the quotients of them by powers of two.
-/

namespace BlockFsck.Double

section Quotient

variable {num den : ℕ}

private theorem OnGrid.exists_steps (h : OnGrid (num / den)) (hn : 0 < num) (hd : 0 < den) :
    ∃ k : ℕ, (num / den : ℚ) = k * 2 ^ gridExponent num den := by
  obtain ⟨m, e, hm, he, heq⟩ := h
  rcases le_or_gt (gridExponent num den) e with hfine | hcoarse
  · exact ⟨_, heq.trans (mul_zpow_eq_of_le hfine m)⟩
  · -- it is not below the first point of its binade, and no double of a finer grid is above that
    have hbelow := first_mul_zpow_le hn hd (by omega)
    have habove := mul_zpow_le_first hm hcoarse
    exact ⟨2 ^ 52, le_antisymm (heq ▸ habove) hbelow⟩

private theorem roundMagnitude_of_onGrid (h : OnGrid (num / den)) (hd : 0 < den)
    (hb : (num / den : ℚ) < bound) : roundMagnitude num den = some (num / den : ℚ) := by
  rw [roundMagnitude]
  split_ifs with hz
  · simp [hz]
  · obtain ⟨k, hk⟩ := h.exists_steps (Nat.pos_of_ne_zero hz) hd
    have hsteps : gridSteps num den (gridExponent num den) = k :=
      le_antisymm (gridSteps_le hd hk.le) (le_gridSteps hd hk.ge)
    dsimp only
    rw [hsteps, scale_eq, ← hk, if_pos hb]

end Quotient

variable {q d : ℚ}

private theorem roundSigned_of_onGrid (hq : 0 < q) (h : OnGrid q) (hb : q < bound) :
    roundSigned false q.num.natAbs q.den = .finite q := by
  have hquotient : (q.num.natAbs / q.den : ℚ) = q := by
    rw [Nat.cast_natAbs, abs_of_pos (Rat.num_pos.mpr hq), Rat.num_div_den]
  have hround : roundMagnitude q.num.natAbs q.den = some q := by
    have hsame := roundMagnitude_of_onGrid (hquotient.symm ▸ h) q.den_pos (hquotient.symm ▸ hb)
    rwa [hquotient] at hsame
  rw [roundSigned, hround]
  change signed false q = .finite q
  rw [signed, if_neg hq.ne']
  rfl

/-- A quotient of an integer of 53 binary digits by a power of two is on the grid, unless it is too
small, and not beyond the doubles. -/
theorem onGrid_div_two_pow {n k : ℕ} (hn : n ≤ 2 ^ 53) (hk : k ≤ 1074) : OnGrid (n / 2 ^ k) := by
  refine ⟨n, -k, hn, by omega, ?_⟩
  rw [zpow_neg, zpow_natCast, div_eq_mul_inv]

theorem div_two_pow_lt_bound {n k : ℕ} (hn : n ≤ 2 ^ 53) : (n / 2 ^ k : ℚ) < bound := by
  have hpow : ∀ e, 53 < e → 2 ^ 53 < Nat.pow 2 e := fun _ he =>
    Nat.pow_lt_pow_right one_lt_two he
  calc (n / 2 ^ k : ℚ)
    _ ≤ n := div_le_self (Nat.cast_nonneg n) (one_le_pow₀ one_le_two)
    _ < bound := Nat.cast_lt.mpr (hn.trans_lt (hpow 1024 (by omega)))

theorem ofInt?_of_le {n : ℕ} (hpos : 0 < n) (hn : n ≤ 2 ^ 53) : ofInt? n = some (.finite n) := by
  have hq : (0 : ℚ) < n := by exact_mod_cast hpos
  have hnearest : nearest (n : ℚ) = .finite n := by
    have hgrid : OnGrid (n : ℚ) := by simpa using onGrid_div_two_pow (k := 0) hn (by omega)
    have hb : (n : ℚ) < bound := by simpa using div_two_pow_lt_bound (k := 0) hn
    rw [nearest, decide_eq_false hq.not_gt]
    exact roundSigned_of_onGrid hq hgrid hb
  have hcast : ((n : ℤ) : ℚ) = n := by norm_cast
  rw [ofInt?, hcast, hnearest]

theorem divPos_of_onGrid (hq : 0 < q) (hd : 0 < d) (h : OnGrid (q / d)) (hb : q / d < bound) :
    (finite q).divPos d = .finite (q / d) := by
  have hpositive : (finite q).isNegative = false := decide_eq_false hq.not_gt
  change roundSigned (finite q).isNegative (q / d).num.natAbs (q / d).den = _
  rw [hpositive]
  exact roundSigned_of_onGrid (div_pos hq hd) h hb

end BlockFsck.Double
