import TapeMachine.Proofs.NumberRounding

/-!
# Decimals of numbers

The shortest decimal of a number is near to it, so it is rounded to the number again. Which of the
candidates is taken does not matter for this: each of them is compared with the ends of the interval
first, and the exact decimal stands in if none is found.

## Main results

- `isNear_shortest`: the shortest decimal of a number is near to it
- `ofDecimal_eq_of_isNear`: whatever decimal is near to a number is read as the number
-/

namespace TapeMachine.Binary64

/-- The rational that a decimal is. -/
def Decimal.value (d : Decimal) : ℚ := d.digits * 10 ^ d.exponent

variable {m : Nat} {e : Int} {d : Decimal}

/-! ## Decimals that are compared -/

/-- The two sides are compared with a positive factor that makes them naturals. -/
theorem exists_compareScaled (a : Nat) (i : Int) (n : Nat) (j : Int) :
    ∃ (A B : Nat) (factor : ℚ), compareScaled a i n j = compare A B ∧ 0 < factor ∧
      (A : ℚ) = a * 10 ^ i * factor ∧ (B : ℚ) = n * 2 ^ j * factor := by
  have hten : (0 : ℚ) < power 10 (-i) := Nat.cast_pos.2 (power_pos (by decide) _)
  have htwo : (0 : ℚ) < power 2 (-j) := Nat.cast_pos.2 (power_pos (by decide) _)
  have hi := (div_eq_iff hten.ne').1 (power_div_power 10 i)
  have hj := (div_eq_iff htwo.ne').1 (power_div_power 2 j)
  refine ⟨_, _, power 10 (-i) * power 2 (-j), rfl, mul_pos hten htwo, ?_, ?_⟩
  · rw [Nat.cast_mul, Nat.cast_mul, hi, Nat.cast_ofNat]
    ring
  · rw [Nat.cast_mul, Nat.cast_mul, hj, Nat.cast_ofNat]
    ring

theorem compareScaled_iff (a : Nat) (i : Int) (n : Nat) (j : Int) :
    (compareScaled a i n j = .lt ↔ (a : ℚ) * 10 ^ i < n * 2 ^ j) ∧
      (compareScaled a i n j = .eq ↔ (a : ℚ) * 10 ^ i = n * 2 ^ j) ∧
      (compareScaled a i n j = .gt ↔ (n : ℚ) * 2 ^ j < a * 10 ^ i) := by
  obtain ⟨A, B, factor, hcompare, hfactor, hA, hB⟩ := exists_compareScaled a i n j
  rw [hcompare, Nat.compare_eq_lt, Nat.compare_eq_eq, Nat.compare_eq_gt]
  refine ⟨?_, ?_, ?_⟩
  · rw [← Nat.cast_lt (α := ℚ), hA, hB, mul_lt_mul_iff_left₀ hfactor]
  · rw [← Nat.cast_inj (R := ℚ), hA, hB, mul_left_inj' hfactor.ne']
  · rw [← Nat.cast_lt (α := ℚ), hA, hB, mul_lt_mul_iff_left₀ hfactor]

/-- What reads back is near. -/
theorem isNear_of_readsBack (h : readsBack m e d = true) : IsNear m e d.value := by
  obtain ⟨hlowLess, hlowEq, hlowGreater⟩ :=
    compareScaled_iff d.digits d.exponent (lowQuarters m e) (e - 2)
  obtain ⟨hhighLess, hhighEq, hhighGreater⟩ :=
    compareScaled_iff d.digits d.exponent (4 * m + 2) (e - 2)
  have h : ((compareScaled d.digits d.exponent (lowQuarters m e) (e - 2) == .gt ||
      (m % 2 == 0) && compareScaled d.digits d.exponent (lowQuarters m e) (e - 2) == .eq) &&
      (compareScaled d.digits d.exponent (4 * m + 2) (e - 2) == .lt ||
      (m % 2 == 0) && compareScaled d.digits d.exponent (4 * m + 2) (e - 2) == .eq)) = true := h
  simp only [Bool.and_eq_true, Bool.or_eq_true, beq_iff_eq, hlowEq, hlowGreater, hhighLess,
    hhighEq] at h
  push_cast at h
  obtain ⟨hbelow, habove⟩ := h
  -- the ends of the interval are taken only if the mantissa is even
  refine ⟨?_, ?_, fun hodd => ⟨?_, ?_⟩⟩
  · rcases hbelow with hbelow | ⟨-, hbelow⟩
    · exact hbelow.le
    · exact hbelow.ge
  · rcases habove with habove | ⟨-, habove⟩
    · exact habove.le
    · exact habove.le
  · rcases hbelow with hbelow | ⟨heven, -⟩
    · exact hbelow
    · omega
  · rcases habove with habove | ⟨heven, -⟩
    · exact habove
    · omega

/-- One of the neighbours on the grid is taken. -/
theorem roundDiv_cases (num den : Nat) :
    roundDiv num den = num / den ∨ roundDiv num den = num / den + 1 := by
  unfold roundDiv
  dsimp only
  split
  · exact .inl rfl
  · split
    · exact .inr rfl
    · split
      · exact .inl rfl
      · exact .inr rfl

/-- The neighbour of `num / den` on a grid that is taken, if one reads back. -/
def neighbour? (m : Nat) (e grid : Int) (num den : Nat) : Option Decimal :=
  match readsBack m e ⟨num / den, grid⟩, readsBack m e ⟨num / den + 1, grid⟩ with
  | true, true => some ⟨roundDiv num den, grid⟩
  | true, false => some ⟨num / den, grid⟩
  | false, true => some ⟨num / den + 1, grid⟩
  | false, false => none

theorem readsBack_of_neighbour? {grid : Int} {num den : Nat}
    (h : neighbour? m e grid num den = some d) : readsBack m e d = true := by
  unfold neighbour? at h
  split at h
  · cases h
    rcases roundDiv_cases num den with hround | hround <;> rw [hround] <;> assumption
  · cases h
    assumption
  · cases h
    assumption
  · contradiction

theorem readsBack_of_atDigits? {n : Nat} (h : atDigits? m e n = some d) :
    readsBack m e d = true := by
  obtain ⟨grid, num, den, hneighbour⟩ :
    ∃ grid num den, atDigits? m e n = neighbour? m e grid num den := ⟨_, _, _, rfl⟩
  rw [hneighbour] at h
  exact readsBack_of_neighbour? h

/-- Zeros at the end do not count. -/
theorem value_dropZeros (fuel : Nat) (d : Decimal) : (dropZeros fuel d).value = d.value := by
  induction fuel generalizing d with
  | zero => rfl
  | succ fuel ih =>
    unfold dropZeros
    split
    · rename_i hzero
      have hten : d.digits = d.digits / 10 * 10 := by omega
      rw [ih, Decimal.value, Decimal.value, zpow_add₀ (by norm_num), zpow_one]
      conv_rhs => rw [hten]
      push_cast
      ring
    · rfl

/-- The decimal that is equal to a number. -/
def exactly (m : Nat) (e : Int) : Decimal :=
  ⟨m * power 2 e * power 5 (-e), -((-e).toNat : Int)⟩

theorem value_exactly (m : Nat) (e : Int) : (exactly m e).value = m * 2 ^ e := by
  have hfive : (0 : ℚ) < power 5 (-e) := Nat.cast_pos.2 (power_pos (by decide) _)
  have htwo : (0 : ℚ) < power 2 (-e) := Nat.cast_pos.2 (power_pos (by decide) _)
  -- ten is two times five
  have hten : (power 5 (-e) : ℚ) * 10 ^ (-((-e).toNat : Int)) = (power 2 (-e) : ℚ)⁻¹ := by
    rw [zpow_neg, zpow_natCast, show (10 : ℚ) = 2 * 5 by norm_num, mul_pow]
    unfold power at *
    simp only [Nat.pow_eq, Nat.cast_pow, Nat.cast_ofNat] at *
    field_simp
  have hpower := power_div_power 2 e
  rw [div_eq_mul_inv, Nat.cast_ofNat] at hpower
  show ((m * power 2 e * power 5 (-e) : Nat) : ℚ) * 10 ^ (-((-e).toNat : Int)) = _
  rw [Nat.cast_mul, Nat.cast_mul, mul_assoc, hten, mul_assoc, hpower]

/-- The definition without its arguments, so that the candidates are not computed. -/
theorem shortest_eq : shortest = fun m e =>
    match (List.range' 1 17).findSome? (atDigits? m e) with
    | some d => dropZeros 20 d
    | none => ⟨m * power 2 e * power 5 (-e), -((-e).toNat : Int)⟩ := by
  delta shortest
  rfl

/-- The shortest decimal of a number is near to it. -/
theorem isNear_shortest (hm : 0 < m) (e : Int) : IsNear m e (shortest m e).value := by
  have hreads : ∀ n d, atDigits? m e n = some d → readsBack m e d = true :=
    fun n d => readsBack_of_atDigits?
  rw [shortest_eq]
  beta_reduce
  generalize atDigits? m e = candidate at hreads
  split
  · rename_i d hfound
    obtain ⟨n, -, hn⟩ := List.exists_of_findSome?_eq_some hfound
    rw [value_dropZeros]
    exact isNear_of_readsBack (hreads n d hn)
  · show IsNear m e (exactly m e).value
    rw [value_exactly]
    exact isNear_self hm e

/-! ## Reading a decimal -/

/-- Between which powers of ten a natural with so many digits lies. -/
theorem zpow_length_toDigits {n : Nat} (h : 0 < n) :
    (10 : ℚ) ^ (((Nat.toDigits 10 n).length : Int) - 1) ≤ n ∧
      (n : ℚ) < 10 ^ ((Nat.toDigits 10 n).length : Int) := by
  have hpos := Nat.length_toDigits_pos (b := 10) (n := n)
  have hhigh := (Nat.length_toDigits_le_iff (by decide) hpos).1 (Nat.le_refl _)
  generalize hlength : (Nat.toDigits 10 n).length = length at hpos hhigh ⊢
  obtain ⟨k, rfl⟩ := Nat.exists_eq_add_one_of_ne_zero (Nat.ne_of_gt hpos)
  -- one digit less would do for what is below the power
  have hlow : 10 ^ k ≤ n := by
    cases k with
    | zero => exact h
    | succ k =>
      apply Nat.le_of_not_lt
      intro hless
      have := (Nat.length_toDigits_le_iff (by decide) (Nat.succ_pos k)).2 hless
      omega
  constructor
  · rw [Nat.cast_succ, add_sub_cancel_right, zpow_natCast]
    exact_mod_cast hlow
  · rw [zpow_natCast]
    exact_mod_cast hhigh

/-- What is near to a number is not too small for a decimal. -/
theorem IsNear.zpow_lt {x : ℚ} (hm : 0 < m) (hlegal : IsLegal m e) (h : IsNear m e x) :
    (10 : ℚ) ^ (-401 : Int) < x := by
  have hlow : (2 : ℚ) ≤ lowQuarters m e := by
    have hone : (1 : ℚ) ≤ m := by exact_mod_cast hm
    linarith [(lowQuarters_bounds hm e).1]
  have hpowers : (10 : ℚ) ^ (-401 : Int) < 2 ^ (-1075 : Int) := by
    have hnat : 2 ^ 1075 < 10 ^ 401 := by decide +kernel
    rw [zpow_neg, zpow_neg, inv_lt_inv₀ (by positivity) (by positivity)]
    exact_mod_cast hnat
  have hleast := hlegal.least
  unfold leastExponent at hleast
  calc (10 : ℚ) ^ (-401 : Int) < 2 ^ (-1075 : Int) := hpowers
    _ ≤ 2 ^ (e - 2 + 1) := zpow_le_zpow_right₀ (by norm_num) (by omega)
    _ = 2 * 2 ^ (e - 2) := by
        rw [zpow_add₀ (by norm_num), zpow_one, mul_comm]
    _ ≤ lowQuarters m e * 2 ^ (e - 2) := mul_le_mul_of_nonneg_right hlow (two_zpow_pos _).le
    _ ≤ x := h.below

/-- It is not too great either. -/
theorem IsNear.lt_ten_zpow {x : ℚ} (hlegal : IsLegal m e) (h : IsNear m e x) :
    x < 10 ^ (400 : Int) := by
  have hgreatest := hlegal.greatest
  unfold greatestExponent at hgreatest
  calc x < 2 ^ (e + 53) := h.lt_zpow hlegal
    _ ≤ 2 ^ (1024 : Int) := zpow_le_zpow_right₀ (by norm_num) (by omega)
    _ < 10 ^ (400 : Int) := by
        have hnat : 2 ^ 1024 < 10 ^ 400 := by decide +kernel
        exact_mod_cast hnat

/-- A decimal that is near to a number is read as the number. -/
theorem ofDecimal_eq_of_isNear (negative : Bool) {digits : Nat} {exponent : Int} (hm : 0 < m)
    (hlegal : IsLegal m e) (h : IsNear m e (digits * 10 ^ exponent)) :
    ofDecimal negative digits exponent = .finite negative m e := by
  have hzpow : ∀ i j : Int, (10 : ℚ) ^ i < 10 ^ j → i < j := fun i j =>
    (zpow_lt_zpow_iff_right₀ (by norm_num : (1 : ℚ) < 10)).1
  have hlow := h.zpow_lt hm hlegal
  have hhigh := h.lt_ten_zpow hlegal
  have hten : (0 : ℚ) < 10 ^ exponent := zpow_pos (by norm_num) _
  have hdigits : 0 < digits := by
    apply Nat.pos_of_ne_zero
    rintro rfl
    rw [Nat.cast_zero, zero_mul] at hlow
    exact absurd hlow (not_lt.2 (by positivity))
  obtain ⟨hlengthLow, hlengthHigh⟩ := zpow_length_toDigits hdigits
  generalize hlength : (Nat.toDigits 10 digits).length = length at hlengthLow hlengthHigh
  -- so the place of the first digit is in range
  have hleast : -401 < (length : Int) + exponent := by
    apply hzpow
    rw [zpow_add₀ (by norm_num)]
    exact hlow.trans (mul_lt_mul_of_pos_right hlengthHigh hten)
  have hgreatest : (length : Int) - 1 + exponent < 400 := by
    apply hzpow
    rw [zpow_add₀ (by norm_num)]
    exact lt_of_le_of_lt (mul_le_mul_of_nonneg_right hlengthLow hten.le) hhigh
  have hratio : ((digits * power 10 exponent : Nat) : ℚ) / (power 10 (-exponent) : Nat) =
      digits * 10 ^ exponent := by
    rw [Nat.cast_mul, mul_div_assoc, power_div_power, Nat.cast_ofNat]
  unfold ofDecimal
  rw [hlength]
  dsimp only
  rw [if_neg (by omega), if_neg (by omega)]
  apply ofRatio_eq_of_isNear negative (Nat.mul_pos hdigits (power_pos (by decide) _))
    (power_pos (by decide) _) hm hlegal
  rw [hratio]
  exact h

/-- The mantissa and the exponent are those that rounding gives. -/
def IsCanonical : Binary64 → Prop
  | .finite _ m e => IsLegal m e
  | _ => True

end TapeMachine.Binary64
