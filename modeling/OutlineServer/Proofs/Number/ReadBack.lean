import Mathlib.Algebra.Order.Field.Power
import Mathlib.Algebra.Order.Ring.Rat
import Mathlib.Tactic.FieldSimp
import Mathlib.Tactic.Linarith
import Mathlib.Tactic.NormNum
import Mathlib.Tactic.Positivity
import Mathlib.Tactic.Ring
import Mathlib.Tactic.Zify
import OutlineServer.Number.Shortest

/-!
# The decimal of a double reads back

A decimal has a value, and so has a rank.  Rounding a decimal depends on its value only
(`ofDecimal_congr`), and a decimal whose value is that of a rank is rounded to that rank
(`ofDecimal_of_value`), so the search for the shortest decimal always ends with one that reads back
(`ofDecimal_shortestDecimal`).
-/
namespace OutlineServer

namespace Decimal

def value (d : Decimal) : ℚ := d.digits * (10 : ℚ) ^ d.scale

def IsTrimmed (d : Decimal) : Prop := d.digits = 0 ∨ d.digits % 10 ≠ 0

theorem value_trimZeros : ∀ (fuel : Nat) (d : Decimal), (trimZeros fuel d).value = d.value
  | 0, _ => rfl
  | fuel + 1, d => by
    unfold trimZeros
    split
    · rename_i h
      have hdigits : (d.digits : ℚ) = (d.digits / 10 : Nat) * 10 := by
        have : d.digits = d.digits / 10 * 10 := by omega
        exact_mod_cast this
      rw [value_trimZeros fuel]
      unfold value
      rw [hdigits, zpow_add_one₀ (by norm_num)]
      simp only
      ring
    · rfl

theorem isTrimmed_trimZeros : ∀ (fuel : Nat) (d : Decimal), d.digits < 10 ^ fuel →
    (trimZeros fuel d).IsTrimmed
  | 0, d, h => .inl (by rw [trimZeros]; omega)
  | fuel + 1, d, h => by
    unfold trimZeros
    split
    · refine isTrimmed_trimZeros fuel _ ?_
      show d.digits / 10 < 10 ^ fuel
      rw [Nat.pow_succ] at h
      omega
    · rename_i hstop
      by_cases hzero : d.digits = 0
      · exact .inl hzero
      · exact .inr (fun hmod => hstop ⟨hzero, hmod⟩)

theorem size_pos (d : Decimal) : 0 < d.size := Nat.length_toDigits_pos

theorem digits_lt (d : Decimal) : d.digits < 10 ^ d.size :=
  (Nat.length_toDigits_le_iff (by omega) d.size_pos).1 (Nat.le_refl _)

theorem le_digits {d : Decimal} (h : d.digits ≠ 0) : 10 ^ (d.size - 1) ≤ d.digits := by
  by_cases hone : d.size = 1
  · rw [hone]
    exact Nat.one_le_iff_ne_zero.2 h
  · have hpos := d.size_pos
    have hlong := (Nat.length_toDigits_le_iff (b := 10) (n := d.digits) (k := d.size - 1)
      (by omega) (by omega)).not
    have hsize : ¬ (Nat.toDigits 10 d.digits).length ≤ d.size - 1 := by
      show ¬ d.size ≤ d.size - 1
      omega
    exact Nat.not_lt.1 (hlong.1 hsize)

theorem value_trim (d : Decimal) : d.trim.value = d.value := value_trimZeros _ _

theorem isTrimmed_trim (d : Decimal) : d.trim.IsTrimmed := isTrimmed_trimZeros _ _ d.digits_lt

theorem trim_of_isTrimmed {d : Decimal} (h : d.IsTrimmed) : d.trim = d := by
  unfold trim
  cases d.size with
  | zero => rfl
  | succ fuel =>
    unfold trimZeros
    rw [if_neg]
    rintro ⟨hzero, hmod⟩
    exact h.elim hzero (fun hne => hne hmod)

theorem value_eq_zero {d : Decimal} : d.value = 0 ↔ d.digits = 0 := by
  unfold value
  rw [mul_eq_zero, Nat.cast_eq_zero, or_iff_left (zpow_ne_zero _ (by norm_num))]

theorem scale_le_of_value_eq {d e : Decimal} (hd : d.digits % 10 ≠ 0) (h : d.value = e.value) :
    e.scale ≤ d.scale := by
  by_contra hlt
  obtain ⟨n, hn⟩ := Int.le.dest (Int.not_le.1 hlt)
  have hscale : e.scale = d.scale + (1 + n : Nat) := by push_cast; omega
  have hdigits : d.digits = e.digits * 10 ^ (1 + n) := by
    have hpow : (10 : ℚ) ^ d.scale ≠ 0 := zpow_ne_zero _ (by norm_num)
    unfold value at h
    rw [hscale, zpow_add₀ (by norm_num), zpow_natCast] at h
    have hcancel : (d.digits : ℚ) = e.digits * 10 ^ (1 + n) := by
      apply mul_right_cancel₀ hpow
      rw [h]
      ring
    exact_mod_cast hcancel
  apply hd
  rw [hdigits, Nat.pow_add, Nat.pow_one, Nat.mul_left_comm]
  exact Nat.mul_mod_right 10 _

theorem eq_of_value_eq {d e : Decimal} (hd : d.digits % 10 ≠ 0) (he : e.digits % 10 ≠ 0)
    (h : d.value = e.value) : d = e := by
  have hscale : d.scale = e.scale :=
    Int.le_antisymm (scale_le_of_value_eq he h.symm) (scale_le_of_value_eq hd h)
  obtain ⟨digits, scale⟩ := d
  obtain ⟨digits', scale'⟩ := e
  dsimp only at hscale
  subst hscale
  have hpow : (10 : ℚ) ^ scale ≠ 0 := zpow_ne_zero _ (by norm_num)
  have hdigits : digits = digits' := Nat.cast_inj.1 (mul_right_cancel₀ hpow h)
  rw [hdigits]

theorem trim_eq_of_value_eq {d e : Decimal} (hne : d.value ≠ 0) (h : d.value = e.value) :
    d.trim = e.trim := by
  have hd : d.trim.digits ≠ 0 := by
    rw [Ne, ← value_eq_zero, value_trim]
    exact hne
  have he : e.trim.digits ≠ 0 := by
    rw [Ne, ← value_eq_zero, value_trim, ← h]
    exact hne
  refine eq_of_value_eq (d.isTrimmed_trim.resolve_left hd) (e.isTrimmed_trim.resolve_left he) ?_
  rw [value_trim, value_trim, h]

theorem value_lt_point (d : Decimal) : d.value < (10 : ℚ) ^ d.point := by
  have hlt : (d.digits : ℚ) < 10 ^ d.size := by exact_mod_cast d.digits_lt
  have hpos : (0 : ℚ) < 10 ^ d.scale := by positivity
  unfold value point
  rw [zpow_add₀ (by norm_num), zpow_natCast]
  exact mul_lt_mul_of_pos_right hlt hpos

theorem point_le_value {d : Decimal} (h : d.digits ≠ 0) : (10 : ℚ) ^ (d.point - 1) ≤ d.value := by
  have hle : (10 : ℚ) ^ (d.size - 1) ≤ d.digits := by exact_mod_cast le_digits h
  have hpos : (0 : ℚ) < 10 ^ d.scale := by positivity
  have hpoint : d.point - 1 = ((d.size - 1 : Nat) : Int) + d.scale := by
    have := d.size_pos
    unfold point
    omega
  unfold value
  rw [hpoint, zpow_add₀ (by norm_num), zpow_natCast]
  exact mul_le_mul_of_nonneg_right hle hpos.le

end Decimal

namespace Double

/-! ## Ranks -/

def magnitude (rank : Nat) : ℚ := mantissa rank * (2 : ℚ) ^ exponent rank

theorem binade_pos : 0 < binade := by decide

theorem mantissa_lt (rank : Nat) : mantissa rank < 2 ^ 53 := by
  have hmod := Nat.mod_lt rank binade_pos
  have hbinade : binade = 2 ^ 52 := rfl
  unfold mantissa
  split <;> omega

theorem exponent_ge (rank : Nat) : -1074 ≤ exponent rank := by
  unfold exponent
  omega

theorem exponent_le {rank : Nat} (h : rank < infiniteRank) : exponent rank ≤ 971 := by
  have hdiv : rank / binade < 2047 := (Nat.div_lt_iff_lt_mul binade_pos).2 h
  unfold exponent
  omega

theorem mantissa_pos {rank : Nat} (h : rank ≠ 0) : 0 < mantissa rank := by
  have := binade_pos
  unfold mantissa
  split <;> omega

theorem rank_eq (rank : Nat) : (exponent rank + 1074).toNat * binade + mantissa rank = rank := by
  unfold exponent mantissa
  split
  · rename_i h
    rw [Nat.div_eq_of_lt h]
    simp
  · rename_i h
    have hone : 1 ≤ rank / binade := (Nat.one_le_div_iff binade_pos).2 (Nat.not_lt.1 h)
    have hexponent : (((max (rank / binade) 1 : Nat) : Int) - 1075 + 1074).toNat
        = rank / binade - 1 := by omega
    have hdiv := Nat.div_add_mod rank binade
    obtain ⟨n, hn⟩ := Nat.exists_eq_add_of_le hone
    rw [hexponent, hn, Nat.add_sub_cancel_left]
    rw [hn, Nat.mul_comm, Nat.add_mul] at hdiv
    omega

/-! ## Exponents -/

theorem two_zpow_unique {x : ℚ} {a b : Int} (ha : (2 : ℚ) ^ a ≤ x) (ha' : x < (2 : ℚ) ^ (a + 1))
    (hb : (2 : ℚ) ^ b ≤ x) (hb' : x < (2 : ℚ) ^ (b + 1)) : a = b := by
  have h1 : a < b + 1 := (zpow_lt_zpow_iff_right₀ (by norm_num : (1 : ℚ) < 2)).1 (ha.trans_lt hb')
  have h2 : b < a + 1 := (zpow_lt_zpow_iff_right₀ (by norm_num : (1 : ℚ) < 2)).1 (hb.trans_lt ha')
  omega

theorem log2_bounds {n : Nat} (h : n ≠ 0) :
    (2 : ℚ) ^ (n.log2 : Int) ≤ n ∧ (n : ℚ) < (2 : ℚ) ^ ((n.log2 : Int) + 1) := by
  constructor
  · rw [zpow_natCast]
    exact_mod_cast Nat.log2_self_le h
  · rw [show ((n.log2 : Int) + 1) = ((n.log2 + 1 : Nat) : Int) by push_cast; rfl, zpow_natCast]
    exact_mod_cast Nat.lt_log2_self (n := n)

/-- The difference of the bit lengths is the exponent of the quotient, or one more. -/
theorem log2_quotient_bounds {numerator denominator : Nat} (hn : numerator ≠ 0)
    (hd : denominator ≠ 0) {estimate : Int}
    (hestimate : (numerator.log2 : Int) - denominator.log2 = estimate) :
    (2 : ℚ) ^ (estimate - 1) ≤ (numerator : ℚ) / denominator
    ∧ (numerator : ℚ) / denominator < (2 : ℚ) ^ (estimate + 1) := by
  obtain ⟨hn1, hn2⟩ := log2_bounds hn
  obtain ⟨hd1, hd2⟩ := log2_bounds hd
  have hdpos : (0 : ℚ) < denominator := by positivity
  constructor
  · rw [le_div_iff₀ hdpos]
    calc (2 : ℚ) ^ (estimate - 1) * denominator
        ≤ (2 : ℚ) ^ (estimate - 1) * (2 : ℚ) ^ ((denominator.log2 : Int) + 1) := by gcongr
      _ = (2 : ℚ) ^ (numerator.log2 : Int) := by
        rw [← zpow_add₀ (by norm_num)]
        congr 1
        omega
      _ ≤ numerator := hn1
  · rw [div_lt_iff₀ hdpos]
    calc (numerator : ℚ) < (2 : ℚ) ^ ((numerator.log2 : Int) + 1) := hn2
      _ = (2 : ℚ) ^ (estimate + 1) * (2 : ℚ) ^ (denominator.log2 : Int) := by
        rw [← zpow_add₀ (by norm_num)]
        congr 1
        omega
      _ ≤ (2 : ℚ) ^ (estimate + 1) * denominator := by gcongr

theorem reached_iff (numerator : Nat) {denominator : Nat} (hd : denominator ≠ 0)
    (estimate : Int) :
    (if 0 ≤ estimate then decide (denominator * Nat.pow 2 estimate.toNat ≤ numerator)
      else decide (denominator ≤ numerator * Nat.pow 2 (-estimate).toNat)) = true
      ↔ (2 : ℚ) ^ estimate ≤ (numerator : ℚ) / denominator := by
  have hdpos : (0 : ℚ) < denominator := by positivity
  rw [le_div_iff₀ hdpos]
  split
  · rename_i hpos
    obtain ⟨n, rfl⟩ := Int.eq_ofNat_of_zero_le hpos
    rw [decide_eq_true_eq, Int.toNat_natCast, zpow_natCast, mul_comm]
    norm_cast
  · rename_i hneg
    obtain ⟨n, hn⟩ := Int.eq_ofNat_of_zero_le (show 0 ≤ -estimate by omega)
    have hestimate : estimate = -(n : Int) := by omega
    rw [hestimate, decide_eq_true_eq, neg_neg, Int.toNat_natCast, zpow_neg, zpow_natCast,
      inv_mul_le_iff₀ (by positivity), mul_comm]
    norm_cast

/-- **The exponent is that of the leading bit**, 52 places below it. -/
theorem normalExponent_bounds {numerator denominator : Nat} (hn : numerator ≠ 0)
    (hd : denominator ≠ 0) :
    (2 : ℚ) ^ (normalExponent numerator denominator + 52) ≤ (numerator : ℚ) / denominator
    ∧ (numerator : ℚ) / denominator < (2 : ℚ) ^ (normalExponent numerator denominator + 52 + 1) := by
  generalize hestimate : (numerator.log2 : Int) - denominator.log2 = estimate
  obtain ⟨hlow, hhigh⟩ := log2_quotient_bounds hn hd hestimate
  have hreached := reached_iff numerator hd estimate
  unfold normalExponent
  dsimp only
  rw [hestimate]
  by_cases h : (2 : ℚ) ^ estimate ≤ (numerator : ℚ) / denominator
  · rw [if_pos (hreached.2 h), show estimate - 52 + 52 = estimate by omega]
    exact ⟨h, hhigh⟩
  · rw [if_neg (fun hr => h (hreached.1 hr)), show estimate - 53 + 52 = estimate - 1 by omega,
      show estimate - 1 + 1 = estimate by omega]
    exact ⟨hlow, not_le.1 h⟩

/-! ## Rounding what needs no rounding -/

theorem roundQuotient_mul (m : Nat) {denominator : Nat} (h : 0 < denominator) :
    roundQuotient (m * denominator) denominator = m := by
  unfold roundQuotient
  simp [Nat.mul_div_cancel _ h, h]

theorem magnitude_lt {rank n : Nat} (h : mantissa rank < 2 ^ n) :
    magnitude rank < (2 : ℚ) ^ (exponent rank + n) := by
  have hlt : (mantissa rank : ℚ) < 2 ^ n := by exact_mod_cast h
  have hpow : (0 : ℚ) < (2 : ℚ) ^ exponent rank := by positivity
  unfold magnitude
  rw [zpow_add₀ (by norm_num), zpow_natCast, mul_comm]
  exact mul_lt_mul_of_pos_left hlt hpow

theorem le_magnitude {rank n : Nat} (h : 2 ^ n ≤ mantissa rank) :
    (2 : ℚ) ^ (exponent rank + n) ≤ magnitude rank := by
  have hle : (2 : ℚ) ^ n ≤ mantissa rank := by exact_mod_cast h
  have hpow : (0 : ℚ) < (2 : ℚ) ^ exponent rank := by positivity
  unfold magnitude
  rw [zpow_add₀ (by norm_num), zpow_natCast, mul_comm]
  exact mul_le_mul_of_nonneg_right hle hpow.le

theorem magnitude_pos {rank : Nat} (h : rank ≠ 0) : 0 < magnitude rank := by
  have hmantissa : (0 : ℚ) < mantissa rank := by exact_mod_cast mantissa_pos h
  unfold magnitude
  positivity

theorem max_normalExponent {numerator denominator rank : Nat} (hd : denominator ≠ 0)
    (hrank : rank ≠ 0) (h : (numerator : ℚ) / denominator = magnitude rank) :
    max (normalExponent numerator denominator) (-1074) = exponent rank := by
  have hn : numerator ≠ 0 := by
    rintro rfl
    have hpos := magnitude_pos hrank
    rw [← h] at hpos
    simp at hpos
  obtain ⟨hlow, hhigh⟩ := normalExponent_bounds hn hd
  rw [h] at hlow hhigh
  by_cases hsmall : rank < binade
  · -- a subnormal: its leading bit lies lower than its exponent says, and the bound decides
    have hexponent : exponent rank = -1074 := by
      unfold exponent
      rw [Nat.div_eq_of_lt hsmall]
      rfl
    have hmantissa : mantissa rank < 2 ^ 52 := by
      unfold mantissa
      rw [if_pos hsmall]
      exact hsmall
    have hlt : normalExponent numerator denominator + 52 < exponent rank + 52 :=
      (zpow_lt_zpow_iff_right₀ (by norm_num : (1 : ℚ) < 2)).1
        (hlow.trans_lt (magnitude_lt hmantissa))
    omega
  · have hmantissa : 2 ^ 52 ≤ mantissa rank := by
      unfold mantissa
      rw [if_neg hsmall]
      exact Nat.le_add_right _ _
    have heq : normalExponent numerator denominator + 52 = exponent rank + 52 :=
      two_zpow_unique hlow hhigh (le_magnitude hmantissa)
        (by rw [add_assoc]; exact magnitude_lt (mantissa_lt rank))
    have := exponent_ge rank
    omega

/-- **A magnitude is its own nearest one.** -/
theorem nearestRank_of_value {numerator denominator rank : Nat} (hd : denominator ≠ 0)
    (hrank : rank ≠ 0) (h : (numerator : ℚ) / denominator = magnitude rank) :
    nearestRank numerator denominator = rank := by
  have hexponent := max_normalExponent hd hrank h
  have hdpos : (0 : ℚ) < denominator := by positivity
  have hvalue : (numerator : ℚ) = mantissa rank * (2 : ℚ) ^ exponent rank * denominator := by
    rw [div_eq_iff hdpos.ne'] at h
    exact h
  unfold nearestRank
  dsimp only
  rw [hexponent]
  have hmantissa : (if 0 ≤ exponent rank then
        roundQuotient numerator (denominator * Nat.pow 2 (exponent rank).toNat)
      else roundQuotient (numerator * Nat.pow 2 (-exponent rank).toNat) denominator)
      = mantissa rank := by
    -- the division is exact on both sides, so nothing is left to round
    split
    · rename_i hpos
      obtain ⟨n, hn⟩ := Int.eq_ofNat_of_zero_le hpos
      rw [hn, zpow_natCast] at hvalue
      have hnumerator : numerator = mantissa rank * (denominator * 2 ^ n) := by
        have : (numerator : ℚ) = mantissa rank * (denominator * 2 ^ n) := by
          rw [hvalue]
          ring
        exact_mod_cast this
      rw [hn, Int.toNat_natCast, hnumerator]
      exact roundQuotient_mul _ (Nat.mul_pos (Nat.pos_of_ne_zero hd) (Nat.two_pow_pos n))
    · rename_i hneg
      obtain ⟨n, hn⟩ := Int.eq_ofNat_of_zero_le (show 0 ≤ -exponent rank by omega)
      have hminus : exponent rank = -(n : Int) := by omega
      rw [hminus, zpow_neg, zpow_natCast] at hvalue
      have hnumerator : numerator * 2 ^ n = mantissa rank * denominator := by
        have : (numerator : ℚ) * 2 ^ n = mantissa rank * denominator := by
          rw [hvalue]
          field_simp
        exact_mod_cast this
      rw [hn, Int.toNat_natCast]
      show roundQuotient (numerator * 2 ^ n) denominator = mantissa rank
      rw [hnumerator]
      exact roundQuotient_mul _ (Nat.pos_of_ne_zero hd)
  rw [hmantissa, rank_eq]

/-! ## Decimals -/

theorem magnitude_eq_zero {rank : Nat} : magnitude rank = 0 ↔ rank = 0 := by
  constructor
  · intro h
    by_contra hne
    exact absurd h (magnitude_pos hne).ne'
  · rintro rfl
    have hmantissa : mantissa 0 = 0 := by decide
    unfold magnitude
    rw [hmantissa]
    simp

theorem magnitude_bounds {rank : Nat} (hne : rank ≠ 0) (h : rank < infiniteRank) :
    (10 : ℚ) ^ (-331 : Int) ≤ magnitude rank ∧ magnitude rank < (10 : ℚ) ^ (310 : Int) := by
  have hone : (1 : ℚ) ≤ mantissa rank := by exact_mod_cast mantissa_pos hne
  have hlt : (mantissa rank : ℚ) < 2 ^ 53 := by exact_mod_cast mantissa_lt rank
  have hlow : (2 : ℚ) ^ (-1074 : Int) ≤ (2 : ℚ) ^ exponent rank :=
    (zpow_le_zpow_iff_right₀ (by norm_num)).2 (exponent_ge rank)
  have hhigh : (2 : ℚ) ^ exponent rank ≤ (2 : ℚ) ^ (971 : Int) :=
    (zpow_le_zpow_iff_right₀ (by norm_num)).2 (exponent_le h)
  have hpow : (0 : ℚ) < (2 : ℚ) ^ exponent rank := by positivity
  have hsmallest : (2 : ℚ) ^ 1074 ≤ 10 ^ 331 := by
    exact_mod_cast (by decide +kernel : 2 ^ 1074 ≤ 10 ^ 331)
  have hlargest : (2 : ℚ) ^ 53 * 2 ^ 971 ≤ 10 ^ 310 := by
    exact_mod_cast (by decide +kernel : 2 ^ 53 * 2 ^ 971 ≤ 10 ^ 310)
  constructor
  · calc (10 : ℚ) ^ (-331 : Int) ≤ (2 : ℚ) ^ (-1074 : Int) := by
          rw [zpow_neg, zpow_neg]
          exact inv_anti₀ (by positivity) (by exact_mod_cast hsmallest)
      _ ≤ (2 : ℚ) ^ exponent rank := hlow
      _ ≤ magnitude rank := by
        unfold magnitude
        nlinarith
  · calc magnitude rank < 2 ^ 53 * (2 : ℚ) ^ exponent rank := by
          unfold magnitude
          exact mul_lt_mul_of_pos_right hlt hpow
      _ ≤ 2 ^ 53 * (2 : ℚ) ^ (971 : Int) := by gcongr
      _ ≤ (10 : ℚ) ^ (310 : Int) := by exact_mod_cast hlargest

/-- The point of a decimal with the value of a magnitude is where no shortcut of rounding applies. -/
theorem point_bounds {d : Decimal} {rank : Nat} (hne : rank ≠ 0) (hrank : rank < infiniteRank)
    (h : d.value = magnitude rank) : -330 ≤ d.point ∧ d.point ≤ 310 := by
  obtain ⟨hlow, hhigh⟩ := magnitude_bounds hne hrank
  rw [← h] at hlow hhigh
  have hdigits : d.digits ≠ 0 := by
    rw [Ne, ← Decimal.value_eq_zero, h, magnitude_eq_zero]
    exact hne
  have hten : (1 : ℚ) < 10 := by norm_num
  constructor
  · have hlt := (zpow_lt_zpow_iff_right₀ hten).1 (hlow.trans_lt d.value_lt_point)
    omega
  · have hlt := (zpow_lt_zpow_iff_right₀ hten).1 ((Decimal.point_le_value hdigits).trans_lt hhigh)
    omega

/-- **A decimal with the value of a rank is read as that rank.** -/
theorem ofDecimal_of_value {d : Decimal} {rank : Fin infiniteRank} (negative : Bool)
    (h : d.value = magnitude rank) : ofDecimal negative d = .finite negative rank := by
  have hfinite : ∀ n : Nat, n = rank → ofRank negative n = .finite negative rank := by
    rintro _ rfl
    unfold ofRank
    rw [dif_pos rank.isLt]
  have hvalue : d.trim.value = magnitude rank := by rw [Decimal.value_trim, h]
  unfold ofDecimal
  dsimp only
  by_cases hzero : (rank : Nat) = 0
  · have hdigits : d.trim.digits = 0 := by
      rw [← Decimal.value_eq_zero, hvalue, magnitude_eq_zero]
      exact hzero
    rw [if_pos (.inl hdigits)]
    exact hfinite 0 hzero.symm
  · obtain ⟨hlow, hhigh⟩ := point_bounds hzero rank.isLt hvalue
    have hdigits : d.trim.digits ≠ 0 := by
      rw [Ne, ← Decimal.value_eq_zero, hvalue, magnitude_eq_zero]
      exact hzero
    rw [if_neg (not_or.2 ⟨hdigits, Int.not_lt.2 hlow⟩), if_neg (Int.not_lt.2 hhigh)]
    unfold Decimal.value at hvalue
    split
    · rename_i hscale
      obtain ⟨n, hn⟩ := Int.eq_ofNat_of_zero_le hscale
      refine hfinite _ (nearestRank_of_value (by omega) hzero ?_)
      rw [hn, zpow_natCast] at hvalue
      rw [hn, Int.toNat_natCast, ← hvalue]
      push_cast
      rw [div_one]
      norm_cast
    · rename_i hscale
      obtain ⟨n, hn⟩ := Int.eq_ofNat_of_zero_le (show 0 ≤ -d.trim.scale by omega)
      have hminus : d.trim.scale = -(n : Int) := by omega
      refine hfinite _ (nearestRank_of_value (pow_ne_zero _ (by norm_num)) hzero ?_)
      rw [hminus, zpow_neg, zpow_natCast] at hvalue
      rw [hn, Int.toNat_natCast, ← hvalue, div_eq_mul_inv]
      norm_cast

theorem value_exactDecimal (rank : Nat) : (exactDecimal rank).value = magnitude rank := by
  unfold exactDecimal magnitude Decimal.value
  dsimp only
  split
  · rename_i hzero
    rw [hzero]
    simp
  · split
    · rename_i hpos
      obtain ⟨n, hn⟩ := Int.eq_ofNat_of_zero_le hpos
      rw [hn, Int.toNat_natCast, zpow_zero, mul_one, zpow_natCast]
      push_cast
      norm_cast
    · rename_i hneg
      obtain ⟨n, hn⟩ := Int.eq_ofNat_of_zero_le (show 0 ≤ -exponent rank by omega)
      have hminus : exponent rank = -(n : Int) := by omega
      have hpow : ((Nat.pow 5 n : Nat) : ℚ) = (5 : ℚ) ^ n := by norm_cast
      rw [hn, Int.toNat_natCast, hminus, zpow_neg, zpow_neg, zpow_natCast, zpow_natCast,
        Nat.cast_mul, hpow, show (10 : ℚ) = 5 * 2 by norm_num, mul_pow]
      field_simp

theorem readsAs_of_withDigits? {rank : Fin infiniteRank} {n : Nat} {d : Decimal}
    (h : withDigits? rank n = some d) : readsAs rank d = true := by
  unfold withDigits? at h
  dsimp only at h
  split at h
  · rename_i hlow hhigh
    split at h
    · cases h
      exact hlow
    · split at h
      · cases h
        exact hhigh
      · split at h
        · cases h
          exact hlow
        · cases h
          exact hhigh
  · rename_i hlow _
    cases h
    exact hlow
  · rename_i _ hhigh
    cases h
    exact hhigh
  · cases h

theorem trim_trim (d : Decimal) : d.trim.trim = d.trim := Decimal.trim_of_isTrimmed d.isTrimmed_trim

theorem ofDecimal_trim (negative : Bool) (d : Decimal) :
    ofDecimal negative d.trim = ofDecimal negative d := by
  unfold ofDecimal
  rw [trim_trim]

theorem ofDecimal_congr {d e : Decimal} (negative : Bool) (h : d.value = e.value) :
    ofDecimal negative d = ofDecimal negative e := by
  by_cases hzero : d.value = 0
  · have hd : d.trim.digits = 0 := by rw [← Decimal.value_eq_zero, Decimal.value_trim, hzero]
    have he : e.trim.digits = 0 := by rw [← Decimal.value_eq_zero, Decimal.value_trim, ← h, hzero]
    unfold ofDecimal
    dsimp only
    rw [if_pos (.inl hd), if_pos (.inl he)]
  · rw [← ofDecimal_trim, Decimal.trim_eq_of_value_eq hzero h, ofDecimal_trim]

theorem ofDecimal_sign {d : Decimal} {rank : Fin infiniteRank}
    (h : ofDecimal false d = .finite false rank) (negative : Bool) :
    ofDecimal negative d = .finite negative rank := by
  have hrank : ∀ n : Nat, ofRank false n = .finite false rank →
      ofRank negative n = .finite negative rank := by
    intro n hn
    unfold ofRank at hn ⊢
    split
    · rename_i hlt
      rw [dif_pos hlt] at hn
      cases hn
      rfl
    · rename_i hge
      rw [dif_neg hge] at hn
      cases hn
  unfold ofDecimal at h ⊢
  dsimp only at h ⊢
  split
  · rename_i hsmall
    rw [if_pos hsmall] at h
    exact hrank 0 h
  · rename_i hsmall
    rw [if_neg hsmall] at h
    split
    · rename_i hlarge
      rw [if_pos hlarge] at h
      cases h
    · rename_i hlarge
      rw [if_neg hlarge] at h
      split
      · rename_i hscale
        rw [if_pos hscale] at h
        exact hrank _ h
      · rename_i hscale
        rw [if_neg hscale] at h
        exact hrank _ h

/-- **The shortest decimal of a magnitude reads back as the magnitude.** -/
theorem ofDecimal_shortestDecimal (negative : Bool) (rank : Fin infiniteRank) :
    ofDecimal negative (shortestDecimal rank) = .finite negative rank := by
  refine ofDecimal_sign ?_ negative
  unfold shortestDecimal
  dsimp only
  rw [ofDecimal_trim]
  cases hfound : (List.range (exactDecimal rank).size).findSome?
      (fun n => withDigits? rank (n + 1)) with
  | none => exact ofDecimal_of_value false (value_exactDecimal rank)
  | some d =>
    obtain ⟨n, -, hn⟩ := List.exists_of_findSome?_eq_some hfound
    simpa [readsAs] using readsAs_of_withDigits? hn

end Double

end OutlineServer
