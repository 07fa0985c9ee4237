import Mathlib.Order.WithBotTop
import Mathlib.Tactic.Linarith
import BlockFsck.Number
import BlockFsck.Proofs.Double.Rounding

/-!
# What numbers stand for

An integer and a double are compared by what they stand for, a rational or an infinity. A number
that is multiplied by one or more does not get smaller, if a double can hold it, nor does it if both
are integers (`Number.IsSteady.le_mul?`).
-/

namespace BlockFsck

/-- What a double stands for, if it is a number. -/
def Double.value? : Double → Option (WithBotTop ℚ)
  | .finite x => some x
  | .negativeZero => some (0 : ℚ)
  | .infinite false => some ⊤
  | .infinite true => some ⊥
  | .nan _ => none

namespace Double

private theorem roundSigned_spec {negative : Bool} {num den : ℕ} (hsign : negative = true → num = 0)
    (hd : 0 < den) :
    ∃ v, (roundSigned negative num den).value? = some v ∧ (∀ q : ℚ, v = q → OnGrid q) ∧
      ∀ x, OnGrid x → x ≤ num / den → (x : WithBotTop ℚ) ≤ v := by
  cases hr : roundMagnitude num den with
  | none =>
    have hpositive : negative = false := by
      rw [Bool.eq_false_iff]
      intro hnegative
      rw [hsign hnegative, roundMagnitude] at hr
      cases hr
    refine ⟨⊤, ?_, fun q hq => absurd hq.symm (WithBotTop.coe_ne_top q), fun _ _ _ => le_top⟩
    rw [roundSigned, hr, hpositive]
    rfl
  | some y =>
    obtain ⟨hgrid, hle⟩ := roundMagnitude_spec hd hr
    have hvalue : (signed negative y).value? = some (y : WithBotTop ℚ) := by
      rw [signed]
      split_ifs with hz hnegative hnegative
      · rw [hz, value?]
      · rw [hz, value?]
      · rw [hsign hnegative, roundMagnitude] at hr
        exact absurd (Option.some.inj hr).symm hz
      · rw [value?]
    refine ⟨y, ?_, fun q hq => WithBotTop.coe_injective hq ▸ hgrid, fun x hx hxle => ?_⟩
    · rw [roundSigned, hr]
      exact hvalue
    · exact WithBotTop.coe_le_coe.mpr (hle x hx hxle)

private theorem natAbs_num_div_den {q : ℚ} (h : 0 ≤ q) : (q.num.natAbs / q.den : ℚ) = q := by
  rw [Nat.cast_natAbs, abs_of_nonneg (Rat.num_nonneg.mpr h), Rat.num_div_den]

private theorem ofInt?_spec {n : ℤ} (hn : 0 ≤ n) {r : Double} (h : ofInt? n = some r) :
    ∃ q : ℚ, r.value? = some (q : WithBotTop ℚ) ∧ OnGrid q ∧ ∀ x, OnGrid x → x ≤ n → x ≤ q := by
  have hn' : (0 : ℚ) ≤ n := by exact_mod_cast hn
  have hsign : decide ((n : ℚ) < 0) = true → (n : ℚ).num.natAbs = 0 :=
    fun hneg => absurd (of_decide_eq_true hneg) hn'.not_gt
  obtain ⟨v, hv, hgrid, hle⟩ := roundSigned_spec hsign (n : ℚ).den_pos
  rw [natAbs_num_div_den hn'] at hle
  change (nearest n).value? = some v at hv
  rw [ofInt?] at h
  generalize nearest n = rounded at h hv
  induction v using WithBotTop.rec with
  | bot => exact absurd (hle 0 ⟨0, 0, by simp⟩ hn') (by simp)
  | top =>
    rcases rounded with x | _ | (_ | _) | _ <;> simp_all [value?]
  | coe q =>
    refine ⟨q, ?_, hgrid q rfl, fun x hx hxn => WithBotTop.coe_le_coe.mp (hle x hx hxn)⟩
    split at h
    · cases h
    · rwa [← Option.some.inj h]

private theorem finite_or_infinite {x : Double} {a : WithBotTop ℚ} (ha : x.value? = some a)
    (h0 : (0 : ℚ) ≤ a) :
    (∃ q : ℚ, x.toRat? = some q ∧ a = q ∧ 0 ≤ q ∧ (x.isNegative = true → q = 0)) ∨
      x = .infinite false ∧ a = ⊤ := by
  rcases x with q | _ | (_ | _) | _
  case finite =>
    obtain rfl := Option.some.inj ha
    have hq : 0 ≤ q := WithBotTop.coe_le_coe.mp h0
    exact .inl ⟨q, rfl, rfl, hq, fun hneg => absurd (of_decide_eq_true hneg) hq.not_gt⟩
  case negativeZero =>
    obtain rfl := Option.some.inj ha
    exact .inl ⟨0, rfl, rfl, le_rfl, fun _ => rfl⟩
  case infinite.false =>
    exact .inr ⟨rfl, (Option.some.inj ha).symm⟩
  case infinite.true =>
    obtain rfl := Option.some.inj ha
    exact absurd (le_bot_iff.mp h0) (WithBotTop.coe_ne_bot 0)
  case nan => cases ha

private theorem mul_of_finite {x y : Double} {q r : ℚ} (hx : x.toRat? = some q)
    (hy : y.toRat? = some r) :
    x.mul y = roundSigned (x.isNegative != y.isNegative) (q * r).num.natAbs (q * r).den := by
  cases x <;> cases y <;> simp_all [toRat?, mul]

private theorem mul_infinite {x : Double} {q : ℚ} (hx : x.toRat? = some q) (hq : q ≠ 0) (s : Bool) :
    x.mul (.infinite s) = .infinite (s != x.isNegative) := by
  cases x <;> simp_all [toRat?, mul]

private theorem infinite_mul {y : Double} {r : ℚ} (hy : y.toRat? = some r) (hr : r ≠ 0) (s : Bool) :
    (infinite s).mul y = .infinite (s != y.isNegative) := by
  cases y <;> simp_all [toRat?, mul]

private theorem mul_spec {x y : Double} {a b : WithBotTop ℚ} (ha : x.value? = some a)
    (hb : y.value? = some b) (h0 : (0 : ℚ) ≤ a) (h1 : (1 : ℚ) ≤ b)
    (hgrid : ∀ q : ℚ, a = q → OnGrid q) (hz : ¬ (a = (0 : ℚ) ∧ b = ⊤)) :
    ∃ v, (x.mul y).value? = some v ∧ (∀ q : ℚ, v = q → OnGrid q) ∧ a ≤ v := by
  have htop : x.mul y = .infinite false →
      ∃ v, (x.mul y).value? = some v ∧ (∀ q : ℚ, v = q → OnGrid q) ∧ a ≤ v := by
    intro hv
    exact ⟨⊤, by rw [hv, value?], fun q hq => absurd hq.symm (WithBotTop.coe_ne_top q), le_top⟩
  have hzero : (0 : ℚ) ≤ b := le_trans (WithBotTop.coe_le_coe.mpr zero_le_one) h1
  rcases finite_or_infinite ha h0 with ⟨q, hx, rfl, hq, hxneg⟩ | ⟨rfl, rfl⟩ <;>
    rcases finite_or_infinite hb hzero with ⟨r, hy, rfl, -, hyneg⟩ | ⟨rfl, rfl⟩
  · have hr : 1 ≤ r := WithBotTop.coe_le_coe.mp h1
    have hypos : y.isNegative = false := by
      rw [Bool.eq_false_iff]
      intro hneg
      linarith [hyneg hneg]
    have hgrow : q ≤ q * r := le_mul_of_one_le_right hq hr
    have hsign : (x.isNegative != y.isNegative) = true → (q * r).num.natAbs = 0 := by
      rw [hypos, Bool.bne_false]
      intro hneg
      simp [hxneg hneg]
    obtain ⟨v, hv, hgridv, hle⟩ := roundSigned_spec hsign (q * r).den_pos
    rw [natAbs_num_div_den (hq.trans hgrow)] at hle
    exact ⟨v, (mul_of_finite hx hy) ▸ hv, hgridv, hle q (hgrid q rfl) hgrow⟩
  · have hne : q ≠ 0 := by
      rintro rfl
      exact hz ⟨rfl, rfl⟩
    apply htop
    rw [mul_infinite hx hne, Bool.eq_false_iff.mpr (mt hxneg hne)]
    rfl
  · have hne : r ≠ 0 := by
      have hr : 1 ≤ r := WithBotTop.coe_le_coe.mp h1
      linarith
    apply htop
    rw [infinite_mul hy hne, Bool.eq_false_iff.mpr (mt hyneg hne)]
    rfl
  · exact htop rfl

end Double

namespace Number

def value? : Number → Option (WithBotTop ℚ)
  | .int n => some (n : ℚ)
  | .double x => x.value?

/-- A comparison of what the two stand for, which nothing has with `nan`. -/
instance : LE Number := ⟨fun x y => ∃ a ∈ x.value?, ∃ b ∈ y.value?, a ≤ b⟩

variable {x y z : Number}

private theorem le_def : x ≤ y ↔ ∃ a ∈ x.value?, ∃ b ∈ y.value?, a ≤ b := Iff.rfl

theorem int_le_iff {n : ℤ} : .int n ≤ x ↔ ∃ a ∈ x.value?, ((n : ℚ) : WithBotTop ℚ) ≤ a := by
  simp [le_def, value?]

theorem int_le_int {m n : ℤ} : (.int m : Number) ≤ .int n ↔ m ≤ n := by
  simp [int_le_iff, value?]

theorem le_self_right (h : x ≤ y) : y ≤ y := by
  obtain ⟨-, -, b, hb, -⟩ := h
  exact ⟨b, hb, b, hb, le_rfl⟩

protected theorem le_trans (h : x ≤ y) (hyz : y ≤ z) : x ≤ z := by
  obtain ⟨a, ha, b, hb, hab⟩ := h
  obtain ⟨b', hb', c, hc, hbc⟩ := hyz
  obtain rfl := Option.mem_unique hb hb'
  exact ⟨a, ha, c, hc, hab.trans hbc⟩

instance : IsTrans Number (· ≤ ·) := ⟨fun _ _ _ => Number.le_trans⟩

private theorem lt_iff : x.lt y = true ↔ ∃ a ∈ x.value?, ∃ b ∈ y.value?, a < b := by
  have hdouble : ∀ x y : Double, x.lt y = true ↔ ∃ a ∈ x.value?, ∃ b ∈ y.value?, a < b := by
    intro x y
    rcases x with x | _ | (_ | _) | _ <;> rcases y with y | _ | (_ | _) | _ <;>
      simp [Double.lt, Double.value?, Double.toRat?, lt_top_iff_ne_top, bot_lt_iff_ne_bot]
    all_goals exact decide_eq_true_iff
  cases x with
  | int m =>
    cases y with
    | int n => simp [lt, value?]
    | double y => exact hdouble (.finite m) y
  | double x =>
    cases y with
    | int n => exact hdouble x (.finite n)
    | double y => exact hdouble x y

private theorem lt_self (x : Number) : x.lt x = false := by
  rw [Bool.eq_false_iff]
  intro h
  obtain ⟨a, ha, b, hb, hab⟩ := lt_iff.mp h
  exact hab.ne (Option.mem_unique ha hb)

private theorem le_of_not_lt (hx : x ≤ x) (hy : y ≤ y) (h : ¬ y.lt x = true) : x ≤ y := by
  obtain ⟨a, ha, -⟩ := hx
  obtain ⟨b, hb, -⟩ := hy
  refine ⟨a, ha, b, hb, ?_⟩
  by_contra hlt
  exact h (lt_iff.mpr ⟨b, hb, a, ha, not_le.mp hlt⟩)

theorem le_least (hx : z ≤ x) (hy : z ≤ y) : z ≤ x.least y := by
  rw [least]
  split_ifs
  · exact hy
  · exact hx

theorem least_le (hx : x ≤ x) (hy : y ≤ y) : x.least y ≤ y := by
  rw [least]
  split_ifs with h
  · exact hy
  · exact le_of_not_lt hx hy h

theorem not_lt_least (x y : Number) : y.lt (x.least y) = false := by
  rw [least]
  split_ifs with h
  · exact lt_self y
  · exact Bool.eq_false_iff.mpr h

theorem least_of_value?_eq_none (h : x.value? = none) : x.least y = x := by
  rw [least, if_neg]
  intro hlt
  obtain ⟨-, -, b, hb, -⟩ := lt_iff.mp hlt
  rw [h] at hb
  cases hb

/-- A double can hold what the number stands for. -/
def IsDouble (x : Number) : Prop := ∀ q : ℚ, x.value? = some (q : WithBotTop ℚ) → Double.OnGrid |q|

theorem isDouble_int {n : ℤ} (h : n.natAbs ≤ 2 ^ 53) : IsDouble (.int n) := by
  intro q hq
  obtain rfl : (n : ℚ) = q := WithBotTop.coe_injective (Option.some.inj hq)
  exact ⟨n.natAbs, 0, h, by norm_num, by simp [Nat.cast_natAbs]⟩

/-- The number is the same as a double, or is multiplied as an integer. -/
def IsSteady (x factor : Number) : Prop :=
  x.IsDouble ∨ ∃ m n : ℤ, x = .int m ∧ factor = .int n

private theorem le_toDouble? {r : Double} (hx : x.IsDouble) (h0 : .int 0 ≤ x) (h : x ≤ y)
    (hr : y.toDouble? = some r) : x ≤ .double r := by
  cases y with
  | double y =>
    obtain rfl := Option.some.inj hr
    exact h
  | int n =>
    obtain ⟨a, ha, b, hb, hab⟩ := h
    obtain ⟨a', ha', h0⟩ := int_le_iff.mp h0
    obtain rfl := Option.mem_unique ha ha'
    obtain rfl := Option.some.inj hb
    induction a using WithBotTop.rec with
    | bot => exact absurd (le_bot_iff.mp h0) (WithBotTop.coe_ne_bot _)
    | top => exact absurd (top_le_iff.mp hab) (WithBotTop.coe_ne_top _)
    | coe q =>
      have hq : (0 : ℚ) ≤ q := by simpa using h0
      have hqn : q ≤ n := WithBotTop.coe_le_coe.mp hab
      have hn : 0 ≤ n := by exact_mod_cast hq.trans hqn
      obtain ⟨v, hv, -, hle⟩ := Double.ofInt?_spec hn hr
      have hgrid := hx q ha
      rw [abs_of_nonneg hq] at hgrid
      exact ⟨q, ha, v, hv, WithBotTop.coe_le_coe.mpr (hle q hgrid hqn)⟩

private theorem isDouble_toDouble? {r : Double} (hx : x.IsDouble) (h0 : .int 0 ≤ x)
    (hr : x.toDouble? = some r) : IsDouble (.double r) := by
  cases x with
  | double x =>
    obtain rfl := Option.some.inj hr
    exact hx
  | int n =>
    obtain ⟨v, hv, hgrid, -⟩ := Double.ofInt?_spec (int_le_int.mp h0) hr
    intro q hq
    obtain rfl : v = q := WithBotTop.coe_injective (Option.some.inj (hv.symm.trans hq))
    rwa [abs_of_nonneg hgrid.nonneg]

private theorem mul?_eq_some (h : x.mul? y = some z) :
    (∃ m n, x = .int m ∧ y = .int n ∧ z = .int (m * n)) ∨
      (¬ ∃ m n, x = .int m ∧ y = .int n) ∧
        ∃ s t, x.toDouble? = some s ∧ y.toDouble? = some t ∧ z = .double (s.mul t) := by
  have hdoubles : ((do return .double ((← x.toDouble?).mul (← y.toDouble?))) = some z) →
      ∃ s t, x.toDouble? = some s ∧ y.toDouble? = some t ∧ z = .double (s.mul t) := by
    intro hsome
    obtain ⟨s, hs, hrest⟩ := Option.bind_eq_some_iff.mp hsome
    obtain ⟨t, ht, hz⟩ := Option.bind_eq_some_iff.mp hrest
    exact ⟨s, t, hs, ht, (Option.some.inj hz).symm⟩
  cases x with
  | int m =>
    cases y with
    | int n => exact .inl ⟨m, n, rfl, rfl, (Option.some.inj h).symm⟩
    | double y => exact .inr ⟨by simp, hdoubles h⟩
  | double x => exact .inr ⟨by simp, hdoubles (by cases y <;> exact h)⟩

private theorem eq_infinite_of_toDouble? {r : Double} {y : Number} (h : y.toDouble? = some r)
    (htop : r.value? = some ⊤) (h0 : .int 0 ≤ y) : y = .double (.infinite false) := by
  cases y with
  | int n =>
    obtain ⟨q, hq, -⟩ := Double.ofInt?_spec (int_le_int.mp h0) h
    rw [htop] at hq
    exact absurd (Option.some.inj hq).symm (WithBotTop.coe_ne_top q)
  | double y =>
    obtain rfl := Option.some.inj h
    rcases y with y | _ | (_ | _) | _ <;> simp_all [Double.value?]

/-- Multiplied by one or more a number does not get smaller, unless it is zero times infinity. -/
theorem IsSteady.le_mul? (h : x.IsSteady y) (h0 : .int 0 ≤ x) (h1 : .int 1 ≤ y)
    (hz : ¬ (x ≤ .int 0 ∧ y = .double (.infinite false))) (hmul : x.mul? y = some z) :
    x ≤ z ∧ z.IsSteady y := by
  rcases mul?_eq_some hmul with ⟨m, n, rfl, rfl, rfl⟩ | ⟨hne, s, t, hs, ht, rfl⟩
  · have hgrow : m ≤ m * n := le_mul_of_one_le_right (int_le_int.mp h0) (int_le_int.mp h1)
    exact ⟨int_le_int.mpr hgrow, .inr ⟨_, n, rfl, rfl⟩⟩
  have hdouble := h.resolve_right hne
  have hone : IsDouble (.int 1) := isDouble_int (by decide)
  have hxs : x ≤ .double s := le_toDouble? hdouble h0 (le_self_right h0) hs
  obtain ⟨a, ha, h0a⟩ := int_le_iff.mp (Number.le_trans h0 hxs)
  have h01 : Number.int 0 ≤ .int 1 := int_le_int.mpr zero_le_one
  obtain ⟨b, hb, h1b⟩ := int_le_iff.mp (le_toDouble? hone h01 h1 ht)
  rw [Int.cast_zero] at h0a
  rw [Int.cast_one] at h1b
  have hgrid : ∀ q : ℚ, a = q → Double.OnGrid q := by
    rintro q rfl
    have hq : 0 ≤ q := WithBotTop.coe_le_coe.mp h0a
    simpa [abs_of_nonneg hq] using isDouble_toDouble? hdouble h0 hs q ha
  have hzero : ¬ (a = (0 : ℚ) ∧ b = ⊤) := by
    rintro ⟨rfl, rfl⟩
    have hs0 : Number.double s ≤ .int 0 := ⟨_, ha, _, rfl, by simp⟩
    exact hz ⟨Number.le_trans hxs hs0,
      eq_infinite_of_toDouble? ht hb (Number.le_trans h01 h1)⟩
  obtain ⟨v, hv, hgridv, hav⟩ := Double.mul_spec ha hb h0a h1b hgrid hzero
  refine ⟨Number.le_trans hxs ⟨a, ha, v, hv, hav⟩, .inl fun q hq => ?_⟩
  obtain rfl : v = q := Option.some.inj (hv.symm.trans hq)
  have hq : 0 ≤ q := WithBotTop.coe_le_coe.mp (h0a.trans hav)
  rw [abs_of_nonneg hq]
  exact hgridv q rfl

/-- Zero times infinity is no number. -/
theorem value?_zero_mul_infinite (h0 : .int 0 ≤ x) (h : x ≤ .int 0)
    (hmul : x.mul? (.double (.infinite false)) = some z) : z.value? = none := by
  obtain ⟨s, t, hs, ht, rfl⟩ := ((mul?_eq_some hmul).resolve_left (by simp)).2
  obtain rfl := Option.some.inj ht
  have hzero : s.toRat? = some 0 := by
    cases x with
    | int n =>
      obtain rfl : n = 0 := le_antisymm (int_le_int.mp h) (int_le_int.mp h0)
      have hs0 : (Number.int 0).toDouble? = some (.finite 0) := by decide +kernel
      obtain rfl := Option.some.inj (hs0.symm.trans hs)
      rfl
    | double x =>
      obtain rfl := Option.some.inj hs
      obtain ⟨a, ha, b, hb, hab⟩ := h
      obtain ⟨a', ha', h0a⟩ := int_le_iff.mp h0
      obtain rfl := Option.mem_unique ha ha'
      obtain rfl := Option.some.inj hb
      rw [Int.cast_zero] at hab h0a
      rcases Double.finite_or_infinite ha h0a with ⟨q, hq, rfl, h0q, -⟩ | ⟨-, rfl⟩
      · rw [hq, le_antisymm (WithBotTop.coe_le_coe.mp hab) h0q]
      · exact absurd (top_le_iff.mp hab) (WithBotTop.coe_ne_top 0)
  cases s <;> simp_all [Double.toRat?, Double.mul, value?, Double.value?]

end Number

end BlockFsck
