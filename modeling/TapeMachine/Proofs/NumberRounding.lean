import Mathlib.Algebra.Order.Field.Power
import Mathlib.Data.Rat.Cast.Order
import Mathlib.Tactic.FieldSimp
import Mathlib.Tactic.Linarith
import Mathlib.Tactic.Positivity
import Mathlib.Tactic.Ring
import TapeMachine.Binary64.Shortest

/-!
# The number nearest to a ratio

Rounding works on naturals, and what it does is told in rationals. The rationals that round to a
number form an interval around it; `IsNear` says that a rational lies there. Every such rational is
rounded to the number, also where the interval reaches below a power of two and the mantissa has to
be carried.

## Main results

- `exists_exponentOf`: the exponent at which a ratio has a mantissa of 53 bits
- `roundDiv_eq`: a quotient is rounded to the integer that it is near to
- `ofRatio_eq_of_isNear`: a ratio near to a number is rounded to it
-/

namespace TapeMachine.Binary64

/-! ## Powers -/

theorem power_pos {b : Nat} (hb : 0 < b) (e : Int) : 0 < power b e := Nat.pow_pos hb

/-- The two powers are the numerator and the denominator of one. -/
theorem power_div_power (b : Nat) (e : Int) :
    (power b e : ℚ) / power b (-e) = (b : ℚ) ^ e := by
  unfold power
  rcases Int.le_total 0 e with h | h
  · have hneg : (-e).toNat = 0 := by omega
    have hpos : (e.toNat : Int) = e := Int.toNat_of_nonneg h
    rw [hneg]
    rw [Nat.pow_eq, Nat.pow_eq, pow_zero, Nat.cast_one, div_one, Nat.cast_pow, ← zpow_natCast, hpos]
  · have hneg : e.toNat = 0 := by omega
    have hpos : ((-e).toNat : Int) = -e := Int.toNat_of_nonneg (by omega)
    rw [hneg]
    rw [Nat.pow_eq, Nat.pow_eq, pow_zero, Nat.cast_one, one_div, Nat.cast_pow, ← zpow_natCast,
      hpos, zpow_neg, inv_inv]

theorem two_zpow_pos (e : Int) : (0 : ℚ) < 2 ^ e := zpow_pos (by norm_num) e

theorem scaled_pos {den : Nat} (hden : 0 < den) (num : Nat) (e : Int) : 0 < (scaled num den e).2 :=
  Nat.mul_pos hden (power_pos (by decide) e)

/-- What is scaled is divided by the power of two. -/
theorem scaled_div (num den : Nat) (e : Int) :
    ((scaled num den e).1 : ℚ) / (scaled num den e).2 = num / den / 2 ^ e := by
  have hpower := power_div_power 2 (-e)
  rw [neg_neg, zpow_neg] at hpower
  simp only [scaled, Nat.cast_mul]
  rw [mul_div_mul_comm, hpower, div_eq_mul_inv ((num : ℚ) / den)]
  norm_cast

theorem leastFullMantissa_eq : leastFullMantissa = 2 ^ 52 := rfl

theorem mantissaBound_eq : mantissaBound = 2 ^ 53 := rfl

/-! ## Rounding to an integer -/

/-- A quotient is near to an integer: at most one half away, and less if the integer is odd. -/
structure IsHalfNear (n : Nat) (x : ℚ) : Prop where
  below : (n : ℚ) - 1 / 2 ≤ x
  above : x ≤ n + 1 / 2
  strict : n % 2 = 1 → (n : ℚ) - 1 / 2 < x ∧ x < n + 1 / 2

/-- The same bounds in naturals, with no fractions left. -/
theorem IsHalfNear.nat_bounds {num den n : Nat} (hden : 0 < den) (h : IsHalfNear n (num / den)) :
    2 * (den * n) ≤ 2 * num + den ∧ 2 * num ≤ 2 * (den * n) + den ∧
      (n % 2 = 1 → 2 * (den * n) < 2 * num + den ∧ 2 * num < 2 * (den * n) + den) := by
  have hden' : (0 : ℚ) < den := Nat.cast_pos.2 hden
  refine ⟨?_, ?_, fun hodd => ?_⟩
  · have hbelow := (le_div_iff₀ hden').1 h.below
    have hbelow : (2 * (den * n) : ℚ) ≤ 2 * num + den := by linarith
    exact_mod_cast hbelow
  · have habove := (div_le_iff₀ hden').1 h.above
    have habove : (2 * num : ℚ) ≤ 2 * (den * n) + den := by linarith
    exact_mod_cast habove
  · obtain ⟨hlow, hhigh⟩ := h.strict hodd
    have hlow := (lt_div_iff₀ hden').1 hlow
    have hhigh := (div_lt_iff₀ hden').1 hhigh
    have hlow : (2 * (den * n) : ℚ) < 2 * num + den := by linarith
    have hhigh : (2 * num : ℚ) < 2 * (den * n) + den := by linarith
    exact ⟨by exact_mod_cast hlow, by exact_mod_cast hhigh⟩

/-- An integer within one half of a quotient is its floor, or the one above. -/
theorem eq_div_or_succ {num den n : Nat} (hden : 0 < den) (hbelow : 2 * (den * n) ≤ 2 * num + den)
    (habove : 2 * num ≤ 2 * (den * n) + den) : n = num / den ∨ n = num / den + 1 := by
  have hsplit := Nat.div_add_mod num den
  have hrest := Nat.mod_lt num hden
  have hle : num / den ≤ n := by
    apply Nat.le_of_lt_succ
    apply Nat.lt_of_mul_lt_mul_left (a := den)
    rw [Nat.mul_succ]
    omega
  have hge : n ≤ num / den + 1 := by
    apply Nat.le_of_lt_succ
    apply Nat.lt_of_mul_lt_mul_left (a := den)
    rw [Nat.mul_succ, Nat.mul_succ]
    omega
  omega

/-- A quotient is rounded to the integer that it is near to. -/
theorem roundDiv_eq {num den n : Nat} (hden : 0 < den) (h : IsHalfNear n (num / den)) :
    roundDiv num den = n := by
  obtain ⟨hbelow, habove, hstrict⟩ := h.nat_bounds hden
  have hquotient := eq_div_or_succ hden hbelow habove
  have hsplit := Nat.div_add_mod num den
  unfold roundDiv
  generalize num / den = q at hquotient hsplit ⊢
  generalize num % den = r at hsplit ⊢
  dsimp only
  -- what is left over is compared with one half; on a tie the integer cannot be odd
  rcases hquotient with rfl | rfl
  · split
    · rfl
    · split
      · omega
      · split
        · rfl
        · omega
  · rw [Nat.mul_succ] at *
    split
    · omega
    · split
      · rfl
      · split
        · omega
        · rfl

/-! ## The exponent -/

/-- A positive natural lies between two powers of two. -/
theorem two_zpow_log2_le {n : Nat} (h : 0 < n) :
    (2 : ℚ) ^ (n.log2 : Int) ≤ n ∧ (n : ℚ) < 2 ^ ((n.log2 : Int) + 1) := by
  have hlow := Nat.log2_self_le (Nat.ne_of_gt h)
  have hhigh := @Nat.lt_log2_self n
  constructor
  · rw [zpow_natCast]
    exact_mod_cast hlow
  · rw [← Nat.cast_succ, zpow_natCast]
    exact_mod_cast hhigh

/-- What the lengths of a numerator and a denominator say about the ratio: it lies between two powers
of two, one of which is four times the other. -/
theorem two_zpow_log2_div_bounds {num den : Nat} (hnum : 0 < num) (hden : 0 < den) :
    (2 : ℚ) ^ ((num.log2 : Int) - den.log2 - 1) ≤ num / den ∧
      (num : ℚ) / den < 2 ^ ((num.log2 : Int) - den.log2 + 1) := by
  obtain ⟨hnumLow, hnumHigh⟩ := two_zpow_log2_le hnum
  obtain ⟨hdenLow, hdenHigh⟩ := two_zpow_log2_le hden
  have hden' : (0 : ℚ) < den := Nat.cast_pos.2 hden
  constructor
  · rw [le_div_iff₀ hden']
    calc (2 : ℚ) ^ ((num.log2 : Int) - den.log2 - 1) * den
        ≤ 2 ^ ((num.log2 : Int) - den.log2 - 1) * 2 ^ ((den.log2 : Int) + 1) := by
          exact mul_le_mul_of_nonneg_left hdenHigh.le (two_zpow_pos _).le
      _ = 2 ^ (num.log2 : Int) := by
          rw [← zpow_add₀ (by norm_num)]
          congr 1
          omega
      _ ≤ num := hnumLow
  · rw [div_lt_iff₀ hden']
    calc (num : ℚ) < 2 ^ ((num.log2 : Int) + 1) := hnumHigh
      _ = 2 ^ ((num.log2 : Int) - den.log2 + 1) * 2 ^ (den.log2 : Int) := by
          rw [← zpow_add₀ (by norm_num)]
          congr 1
          omega
      _ ≤ 2 ^ ((num.log2 : Int) - den.log2 + 1) * den :=
          mul_le_mul_of_nonneg_left hdenLow (two_zpow_pos _).le

/-- A mantissa is too short at an exponent if the ratio is below the power of two there. -/
theorem scaled_floor_lt_iff {num den : Nat} (hden : 0 < den) (e : Int) :
    (scaled num den e).1 / (scaled num den e).2 < leastFullMantissa ↔
      (num : ℚ) / den < 2 ^ (e + 52) := by
  have hscaled := scaled_pos hden num e
  have hscaled' : (0 : ℚ) < (scaled num den e).2 := Nat.cast_pos.2 hscaled
  rw [Nat.div_lt_iff_lt_mul hscaled, ← Nat.cast_lt (α := ℚ), Nat.cast_mul,
    ← div_lt_iff₀ hscaled', scaled_div, div_lt_iff₀ (two_zpow_pos e), zpow_add₀ (by norm_num),
    mul_comm, leastFullMantissa_eq]
  norm_num

/-- The exponent at which a ratio has a mantissa of 53 bits, unless it is below the least one. -/
theorem exists_exponentOf {num den : Nat} (hnum : 0 < num) (hden : 0 < den) :
    ∃ e : Int, exponentOf num den = max e leastExponent ∧
      (2 : ℚ) ^ (e + 52) ≤ num / den ∧ (num : ℚ) / den < 2 ^ (e + 53) := by
  obtain ⟨hlow, hhigh⟩ := two_zpow_log2_div_bounds hnum hden
  unfold exponentOf
  dsimp only
  generalize hguess : (num.log2 : Int) - den.log2 - 52 = guess
  rw [show (num.log2 : Int) - den.log2 - 1 = guess + 51 by omega] at hlow
  rw [show (num.log2 : Int) - den.log2 + 1 = guess + 53 by omega] at hhigh
  -- the guess is right, or one too great
  split
  · rename_i hless
    refine ⟨guess - 1, rfl, ?_, ?_⟩
    · rwa [show guess - 1 + 52 = guess + 51 by ring]
    · rw [show guess - 1 + 53 = guess + 52 by ring]
      exact (scaled_floor_lt_iff hden guess).1 hless
  · rename_i hnotLess
    exact ⟨guess, rfl, not_lt.1 fun h => hnotLess ((scaled_floor_lt_iff hden guess).2 h), hhigh⟩

/-! ## Numbers and what is near to them -/

/-- The mantissa and the exponent of a number: there are 53 bits, or the exponent is the least
one. -/
structure IsLegal (m : Nat) (e : Int) : Prop where
  bound : m < mantissaBound
  least : leastExponent ≤ e
  greatest : e ≤ greatestExponent
  full : leastFullMantissa ≤ m ∨ e = leastExponent

/-- Where the interval of a number begins, in quarters of its last bit. The neighbour below a power
of two is half as far away. -/
def lowQuarters (m : Nat) (e : Int) : Nat :=
  if m = leastFullMantissa ∧ leastExponent < e then 4 * m - 1 else 4 * m - 2

/-- A rational is among those that round to a number. The ends of the interval are if the mantissa
is even. -/
structure IsNear (m : Nat) (e : Int) (x : ℚ) : Prop where
  below : (lowQuarters m e : ℚ) * 2 ^ (e - 2) ≤ x
  above : x ≤ (4 * m + 2) * 2 ^ (e - 2)
  strict : m % 2 = 1 → (lowQuarters m e : ℚ) * 2 ^ (e - 2) < x ∧ x < (4 * m + 2) * 2 ^ (e - 2)

variable {m : Nat} {e : Int} {x : ℚ}

theorem lowQuarters_bounds (hm : 0 < m) (e : Int) :
    (4 * m - 2 : ℚ) ≤ lowQuarters m e ∧ (lowQuarters m e : ℚ) ≤ 4 * m - 1 := by
  have hnat : 4 * m ≤ lowQuarters m e + 2 ∧ lowQuarters m e + 1 ≤ 4 * m := by
    unfold lowQuarters
    split <;> omega
  have hlow : (4 * m : ℚ) ≤ lowQuarters m e + 2 := by exact_mod_cast hnat.1
  have hhigh : (lowQuarters m e + 1 : ℚ) ≤ 4 * m := by exact_mod_cast hnat.2
  exact ⟨by linarith, by linarith⟩

theorem two_zpow_quarters (e : Int) : (2 : ℚ) ^ e = 4 * 2 ^ (e - 2) := by
  rw [zpow_sub₀ (by norm_num)]
  norm_num
  ring

/-- A number is near to itself. -/
theorem isNear_self (hm : 0 < m) (e : Int) : IsNear m e (m * 2 ^ e) := by
  have hlow := (lowQuarters_bounds hm e).2
  have hpos := two_zpow_pos (e - 2)
  rw [two_zpow_quarters]
  have hbelow : (lowQuarters m e : ℚ) * 2 ^ (e - 2) < m * (4 * 2 ^ (e - 2)) := by nlinarith
  have habove : (m : ℚ) * (4 * 2 ^ (e - 2)) < (4 * m + 2) * 2 ^ (e - 2) := by nlinarith
  exact ⟨hbelow.le, habove.le, fun _ => ⟨hbelow, habove⟩⟩

/-- What is rounded at the exponent of the number has the mantissa of the number. -/
theorem IsNear.isHalfNear (hm : 0 < m) (h : IsNear m e x) : IsHalfNear m (x / 2 ^ e) := by
  have hlow := (lowQuarters_bounds hm e).1
  have hpos := two_zpow_pos (e - 2)
  obtain ⟨hbelow, habove, hstrict⟩ := h
  rw [two_zpow_quarters]
  generalize (2 : ℚ) ^ (e - 2) = u at *
  have hquarters : (0 : ℚ) < 4 * u := by linarith
  have hbelow' : (m - 1 / 2 : ℚ) * (4 * u) ≤ lowQuarters m e * u := by nlinarith
  refine ⟨?_, ?_, fun hodd => ?_⟩
  · rw [le_div_iff₀ hquarters]
    exact hbelow'.trans hbelow
  · rw [div_le_iff₀ hquarters]
    linarith
  · obtain ⟨hbelow, habove⟩ := hstrict hodd
    rw [lt_div_iff₀ hquarters, div_lt_iff₀ hquarters]
    exact ⟨lt_of_le_of_lt hbelow' hbelow, by linarith⟩

theorem IsNear.lt_zpow (hlegal : IsLegal m e) (h : IsNear m e x) : x < 2 ^ (e + 53) := by
  have hbound : (m : ℚ) + 1 ≤ 2 ^ 53 := by exact_mod_cast hlegal.bound
  have hpos := two_zpow_pos (e - 2)
  have habove := h.above
  rw [show e + 53 = e - 2 + 55 by ring, zpow_add₀ (by norm_num)]
  generalize (2 : ℚ) ^ (e - 2) = u at *
  norm_num at *
  nlinarith

/-- Below a power of two the mantissa of the power is half-near to what is near to the power, and
that is rounded at the exponent below. -/
theorem IsNear.isHalfNear_bound (hm : 0 < m) (hfull : leastFullMantissa ≤ m)
    (he : leastExponent < e) (h : IsNear m e x) (hx : x < 2 ^ (e + 52)) :
    m = leastFullMantissa ∧ (2 : ℚ) ^ (e + 51) ≤ x ∧ IsHalfNear mantissaBound (x / 2 ^ (e - 1)) := by
  have hpos := two_zpow_pos (e - 2)
  have hbelow := h.below
  rw [show e + 52 = e - 2 + 54 by ring, zpow_add₀ (by norm_num)] at hx
  rw [show e + 51 = e - 2 + 53 by ring, show e - 1 = e - 2 + 1 by ring, zpow_add₀ (by norm_num),
    zpow_add₀ (by norm_num)]
  -- a greater mantissa would keep the interval above the power
  have hpower : m = leastFullMantissa := by
    by_contra hne
    have hgreater : (2 ^ 52 + 1 : ℚ) ≤ m := by
      exact_mod_cast Nat.lt_of_le_of_ne hfull (Ne.symm hne)
    have hlow : (2 ^ 54 : ℚ) ≤ lowQuarters m e := by
      calc (2 ^ 54 : ℚ) ≤ 4 * (2 ^ 52 + 1) - 2 := by norm_num
        _ ≤ (4 * m - 2 : ℚ) := by linarith
        _ ≤ lowQuarters m e := (lowQuarters_bounds hm e).1
    have := mul_le_mul_of_nonneg_right hlow hpos.le
    norm_num at hx this
    linarith
  -- the interval reaches one quarter below, which is half a bit of the exponent below
  have hquarters : lowQuarters m e = 2 ^ 54 - 1 := by
    rw [lowQuarters, if_pos ⟨hpower, he⟩, hpower]
    rfl
  rw [hquarters] at hbelow
  generalize (2 : ℚ) ^ (e - 2) = u at *
  norm_num at hx hbelow ⊢
  have hhalves : (0 : ℚ) < u * 2 := by linarith
  refine ⟨hpower, by linarith, ?_, ?_, fun hodd => ?_⟩
  · rw [mantissaBound_eq, le_div_iff₀ hhalves]
    norm_num
    linarith
  · rw [mantissaBound_eq, div_le_iff₀ hhalves]
    norm_num
    linarith
  · exact absurd hodd (by decide)

/-- A number that is near to a ratio is what the ratio is rounded to. -/
theorem ofRatio_eq_of_isNear {num den : Nat} (negative : Bool) (hnum : 0 < num) (hden : 0 < den)
    (hm : 0 < m) (hlegal : IsLegal m e) (h : IsNear m e (num / den)) :
    ofRatio negative num den = .finite negative m e := by
  obtain ⟨E, hexponent, hlow, hhigh⟩ := exists_exponentOf hnum hden
  have hzpow : ∀ i j : Int, (2 : ℚ) ^ i < 2 ^ j → i < j := fun i j =>
    (zpow_lt_zpow_iff_right₀ (by norm_num : (1 : ℚ) < 2)).1
  -- the exponent of the ratio is at most that of the number
  have hle := hzpow _ _ (lt_of_le_of_lt hlow (h.lt_zpow hlegal))
  have hleast := hlegal.least
  unfold ofRatio
  rw [if_neg (Nat.ne_of_gt hnum)]
  by_cases hsame : max E leastExponent = e
  · have hround : roundDiv (scaled num den e).1 (scaled num den e).2 = m := by
      apply roundDiv_eq (scaled_pos hden num e)
      rw [scaled_div]
      exact h.isHalfNear hm
    dsimp only
    rw [hexponent, hsame, hround, if_neg (Nat.ne_of_lt hlegal.bound)]
    dsimp only
    rw [if_neg (Int.not_lt.2 hlegal.greatest)]
  · -- the ratio is below a power of two, and is rounded to it
    have hfull : leastFullMantissa ≤ m := by
      rcases hlegal.full with hfull | hfull
      · exact hfull
      · omega
    have hx : (num : ℚ) / den < 2 ^ (e + 52) := by
      apply lt_of_lt_of_le hhigh
      exact zpow_le_zpow_right₀ (by norm_num) (by omega)
    obtain ⟨rfl, hlow', hnear⟩ := h.isHalfNear_bound hm hfull (by omega) hx
    have hge := hzpow _ _ (lt_of_le_of_lt hlow' hhigh)
    have hE : max E leastExponent = e - 1 := by omega
    have hround : roundDiv (scaled num den (e - 1)).1 (scaled num den (e - 1)).2 =
        mantissaBound := by
      apply roundDiv_eq (scaled_pos hden num (e - 1))
      rw [scaled_div]
      exact hnear
    dsimp only
    rw [hexponent, hE, hround, if_pos rfl]
    dsimp only
    rw [Int.sub_add_cancel, if_neg (Int.not_lt.2 hlegal.greatest)]

end TapeMachine.Binary64
