import TapeMachine.Json.Printer
import TapeMachine.Json.Reader
import TapeMachine.Proofs.ShortestDecimal

/-!
# Numbers in JSON

An integer is read back from its digits. A number with a fraction or an exponent is written as the
shortest decimal of it, with the point at different places or an exponent behind it. In every case a
decimal of the same value is read, and that is rounded to the number again.

## Main results

- `readValue_intChars`: an integer is read back
- `readValue_realChars`: so is every number of 64 bits, and the values that are no numbers
-/

namespace TapeMachine.Json

open Binary64 (signed decimalText exponentText pointed Decimal)

/-! ## Digits -/

/-- No number goes on here. -/
def EndsNumber (rest : List Char) : Prop :=
  ∀ c ∈ rest.head?, isDigit c = false ∧ c ≠ '.' ∧ c ≠ 'e' ∧ c ≠ 'E'

/-- No digit comes next. -/
def EndsDigits (rest : List Char) : Prop := ∀ c ∈ rest.head?, isDigit c = false

variable {rest : List Char}

theorem EndsNumber.endsDigits (h : EndsNumber rest) : EndsDigits rest := fun c hc => (h c hc).1

theorem endsDigits_cons {c : Char} (h : isDigit c = false) (rest : List Char) :
    EndsDigits (c :: rest) := by
  intro d hd
  cases hd
  exact h

/-- Digits are taken up to their end. -/
theorem takeWhile_isDigit_append {ds : List Char} (hds : ∀ c ∈ ds, isDigit c = true)
    (h : EndsDigits rest) : (ds ++ rest).takeWhile isDigit = ds := by
  rw [List.takeWhile_append_of_pos hds]
  cases rest with
  | nil => simp
  | cons c rest => simp [h c rfl]

theorem dropWhile_isDigit_append {ds : List Char} (hds : ∀ c ∈ ds, isDigit c = true)
    (h : EndsDigits rest) : (ds ++ rest).dropWhile isDigit = rest := by
  rw [List.dropWhile_append_of_pos hds]
  cases rest with
  | nil => rfl
  | cons c rest => simp [h c rfl]

theorem isDigit_of_mem_toDigits {c : Char} {n : Nat} (h : c ∈ Nat.toDigits 10 n) :
    isDigit c = true := by
  have := Nat.isDigit_of_mem_toDigits (by decide) (by decide) h
  simp only [Char.isDigit, Bool.and_eq_true, decide_eq_true_eq] at this
  simp only [isDigit, Bool.and_eq_true, decide_eq_true_eq]
  exact ⟨this.1, this.2⟩

theorem isDigit_zero : ∀ c ∈ ['0'], isDigit c = true := by
  intro c hc
  rw [List.mem_singleton.1 hc]
  rfl

theorem isDigit_of_mem_zeros {c : Char} {n : Nat} (h : c ∈ List.replicate n '0') :
    isDigit c = true := by
  rw [List.eq_of_mem_replicate h]
  rfl

theorem decimalValue_toDigits (n : Nat) : decimalValue (Nat.toDigits 10 n) = n := by
  have h := Nat.ofDigitChars_ten_toDigits (n := n)
  rwa [Nat.ofDigitChars_eq_foldl] at h

theorem decimalValue_concat (ds : List Char) (c : Char) :
    decimalValue (ds ++ [c]) = 10 * decimalValue ds + (c.toNat - 48) := by
  simp [decimalValue]

/-- Digits side by side. -/
theorem decimalValue_append (ds es : List Char) :
    decimalValue (ds ++ es) = decimalValue ds * 10 ^ es.length + decimalValue es := by
  induction es using List.reverseRecOn with
  | nil => simp [decimalValue]
  | append_singleton es c ih =>
    rw [← List.append_assoc, decimalValue_concat, decimalValue_concat, ih, List.length_append,
      List.length_singleton, Nat.pow_succ]
    ring

theorem decimalValue_zeros (n : Nat) : decimalValue (List.replicate n '0') = 0 := by
  induction n with
  | zero => rfl
  | succ n ih =>
    rw [List.replicate_succ', decimalValue_concat, ih]
    rfl

/-! ## Digits in front of a point -/

/-- Digits that may stand in front of a point: a zero alone, or some that do not start with one. -/
structure IsWholePart (ds : List Char) : Prop where
  digits : ∀ c ∈ ds, isDigit c = true
  nonempty : ds ≠ []
  zero : ∀ rest, ds = '0' :: rest → rest = []

/-- No positive number starts with a zero. -/
theorem head?_toDigits {n : Nat} (h : 0 < n) : (Nat.toDigits 10 n).head? ≠ some '0' := by
  induction n using Nat.strongRecOn with
  | ind n ih =>
    -- the first digit is that of `n / 10`, down to a single one
    by_cases hn : n < 10
    · have : ∀ m < 10, 0 < m → (Nat.toDigits 10 m).head? ≠ some '0' := by decide
      exact this n hn h
    · rw [Nat.toDigits_of_base_le (by decide) (by omega)]
      have := ih (n / 10) (by omega) (by omega)
      rwa [List.head?_append_of_ne_nil _ Nat.toDigits_ne_nil]

/-- The digits of a positive number. -/
structure IsNumeral (ds : List Char) : Prop where
  digits : ∀ c ∈ ds, isDigit c = true
  nonempty : ds ≠ []
  head : ds.head? ≠ some '0'

theorem isNumeral_toDigits {n : Nat} (h : 0 < n) : IsNumeral (Nat.toDigits 10 n) where
  digits _ := isDigit_of_mem_toDigits
  nonempty := Nat.toDigits_ne_nil
  head := head?_toDigits h

theorem IsNumeral.isWholePart {ds : List Char} (h : IsNumeral ds) : IsWholePart ds where
  digits := h.digits
  nonempty := h.nonempty
  zero rest heq := absurd (by rw [heq]; rfl) h.head

theorem IsNumeral.append_zeros {ds : List Char} (h : IsNumeral ds) (n : Nat) :
    IsNumeral (ds ++ List.replicate n '0') where
  digits := List.forall_mem_append.2 ⟨h.digits, fun _ => isDigit_of_mem_zeros⟩
  nonempty := List.append_ne_nil_of_left_ne_nil h.nonempty _
  head := by rw [List.head?_append_of_ne_nil _ h.nonempty]; exact h.head

theorem IsNumeral.take {ds : List Char} (h : IsNumeral ds) {n : Nat} (hn : 0 < n) :
    IsNumeral (ds.take n) where
  digits c hc := h.digits c (List.mem_of_mem_take hc)
  nonempty := by
    rw [ne_eq, List.take_eq_nil_iff]
    exact fun heq => heq.elim (Nat.ne_of_gt hn) h.nonempty
  head := by rw [List.head?_take, if_neg (Nat.ne_of_gt hn)]; exact h.head

theorem isWholePart_singleton {d : Char} (h : ∀ c ∈ [d], isDigit c = true) : IsWholePart [d] :=
  ⟨h, List.cons_ne_nil d [], fun _ heq => (List.cons.inj heq).2.symm⟩

theorem isWholePart_toDigits (n : Nat) : IsWholePart (Nat.toDigits 10 n) := by
  rcases Nat.eq_zero_or_pos n with rfl | hn
  · exact isWholePart_singleton isDigit_zero
  · exact (isNumeral_toDigits hn).isWholePart

/-- The digits in front of a point are read up to their end. -/
theorem integerDigits_append {ds : List Char} (hds : IsWholePart ds) (h : EndsDigits rest) :
    integerDigits (ds ++ rest) = ds := by
  have htake := takeWhile_isDigit_append hds.digits h
  obtain _ | ⟨d, ds⟩ := ds
  · exact absurd rfl hds.nonempty
  · rw [List.cons_append] at htake ⊢
    unfold integerDigits
    -- a zero is read by itself, and stands by itself
    split
    · rename_i heq
      obtain ⟨rfl, -⟩ := List.cons.inj heq
      rw [hds.zero ds rfl]
    · exact htake

/-! ## Integers -/

theorem fraction_of_endsNumber (h : EndsNumber rest) : fraction rest = (none, rest) := by
  unfold fraction
  split
  · exact absurd rfl (h _ rfl).2.1
  · rfl

theorem exponent_of_endsNumber (h : EndsNumber rest) : exponent rest = (none, rest) := by
  unfold exponent
  split
  · rename_i mark cs
    obtain ⟨-, -, he, hE⟩ := h mark rfl
    rw [if_neg (not_or.2 ⟨he, hE⟩)]
  · rfl

/-- A number is read back if it may have so many digits. -/
theorem readUnsigned_toDigits {digitLimit n : Nat} (whole : List Char) (negative : Bool)
    (hlimit : (Nat.toDigits 10 n).length ≤ digitLimit) (h : EndsNumber rest) :
    readUnsigned digitLimit whole negative (Nat.toDigits 10 n ++ rest) =
      .ok (.int (if negative then -n else n), rest) := by
  have hempty : (Nat.toDigits 10 n).isEmpty = false := by simp
  simp only [readUnsigned, integerDigits_append (isWholePart_toDigits n) h.endsDigits, hempty,
    List.drop_left, fraction_of_endsNumber h, exponent_of_endsNumber h, Nat.not_lt.2 hlimit,
    decimalValue_toDigits, if_false, Bool.false_eq_true]

/-- A value that starts with a digit, perhaps behind a sign, is a number. -/
theorem readValue_signed {digitLimit fuel depth : Nat} (negative : Bool) {d : Char}
    (hd : isDigit d = true) (ds : List Char) :
    readValue digitLimit (fuel + 1) depth (signed negative (d :: ds)) =
      readUnsigned digitLimit (signed negative (d :: ds)) negative (d :: ds) := by
  cases negative with
  | true =>
    -- none of the other values starts like this
    apply readValue.eq_11
    all_goals
      intro rest' heq
      simp only [signed, if_true, List.cons.injEq] at heq
      first
        | exact absurd heq.1 (by decide)
        | exact absurd (heq.2.1 ▸ hd) (by decide)
  | false =>
    have hread : readValue digitLimit (fuel + 1) depth (d :: ds) = readNumber digitLimit (d :: ds) := by
      apply readValue.eq_11
      all_goals
        intro rest' heq
        rw [(List.cons.inj heq).1] at hd
        exact absurd hd (by decide)
    refine hread.trans (readNumber.eq_2 _ _ fun cs hcs => ?_)
    rw [(List.cons.inj hcs).1] at hd
    exact absurd hd (by decide)

/-- A number starts with a digit. -/
theorem toDigits_eq_cons (n : Nat) :
    ∃ d ds, Nat.toDigits 10 n = d :: ds ∧ isDigit d = true := by
  obtain ⟨d, ds, hdigits⟩ := List.exists_cons_of_ne_nil (Nat.toDigits_ne_nil (b := 10) (n := n))
  exact ⟨d, ds, hdigits, isDigit_of_mem_toDigits (n := n) (by simp [hdigits])⟩

theorem signed_append (negative : Bool) (text rest : List Char) :
    signed negative text ++ rest = signed negative (text ++ rest) := by
  cases negative <;> rfl

theorem intChars_eq (n : Int) :
    intChars n = signed (decide (n < 0)) (Nat.toDigits 10 n.natAbs) := by
  unfold intChars signed
  split <;> simp [*]

theorem readValue_intChars {digitLimit fuel depth : Nat} (n : Int)
    (hlimit : (Nat.toDigits 10 n.natAbs).length ≤ digitLimit) (h : EndsNumber rest) :
    readValue digitLimit (fuel + 1) depth (intChars n ++ rest) = .ok (.int n, rest) := by
  have hread := readUnsigned_toDigits (signed (decide (n < 0)) (Nat.toDigits 10 n.natAbs ++ rest))
    (decide (n < 0)) hlimit h
  obtain ⟨d, ds, hdigits, hd⟩ := toDigits_eq_cons n.natAbs
  rw [intChars_eq, signed_append]
  rw [hdigits, List.cons_append] at hread ⊢
  rw [readValue_signed _ hd, hread]
  congr 3
  split
  · rename_i hnegative
    have := of_decide_eq_true hnegative
    omega
  · rename_i hpositive
    have := of_decide_eq_false (Bool.eq_false_iff.2 hpositive)
    omega

/-! ## Fractions and exponents -/

theorem endsDigits_point (rest : List Char) : EndsDigits ('.' :: rest) := endsDigits_cons rfl rest

theorem endsDigits_mark (rest : List Char) : EndsDigits ('e' :: rest) := endsDigits_cons rfl rest

theorem fraction_mark (rest : List Char) : fraction ('e' :: rest) = (none, 'e' :: rest) := by
  unfold fraction
  rfl

theorem fraction_append {ds : List Char} (hds : ∀ c ∈ ds, isDigit c = true) (hne : ds ≠ [])
    (h : EndsDigits rest) : fraction ('.' :: (ds ++ rest)) = (some ds, rest) := by
  obtain ⟨d, ds, rfl⟩ := List.exists_cons_of_ne_nil hne
  have htake := takeWhile_isDigit_append (List.forall_mem_cons.1 hds).2 h
  have hdrop := dropWhile_isDigit_append (List.forall_mem_cons.1 hds).2 h
  rw [List.cons_append, fraction, if_pos (hds d List.mem_cons_self), htake, hdrop]

/-- The digits of an exponent: at least two, with a zero in front if need be. -/
theorem exists_exponentText (power : Int) : ∃ ds : List Char,
    exponentText power = (if power < 0 then '-' else '+') :: ds ∧
      (∀ c ∈ ds, isDigit c = true) ∧ ds ≠ [] ∧ decimalValue ds = power.natAbs := by
  have hdigits : ∀ c ∈ Nat.toDigits 10 power.natAbs, isDigit c = true :=
    fun c => isDigit_of_mem_toDigits
  refine ⟨_, rfl, ?_⟩
  split
  · refine ⟨List.forall_mem_cons.2 ⟨rfl, hdigits⟩, List.cons_ne_nil _ _, ?_⟩
    rw [← List.singleton_append, decimalValue_append, decimalValue_toDigits]
    exact Nat.zero_mul _ ▸ Nat.zero_add _
  · exact ⟨hdigits, Nat.toDigits_ne_nil, decimalValue_toDigits _⟩

theorem exponent_exponentText (power : Int) (h : EndsDigits rest) :
    exponent ('e' :: (exponentText power ++ rest)) = (some power, rest) := by
  obtain ⟨ds, htext, hds, hne, hvalue⟩ := exists_exponentText power
  have htake := takeWhile_isDigit_append hds h
  have hdrop := dropWhile_isDigit_append hds h
  obtain ⟨d, ds, rfl⟩ := List.exists_cons_of_ne_nil hne
  rw [htext]
  unfold exponent
  -- the sign is read by itself
  cases hnegative : decide (power < 0) with
  | true =>
    have hless := of_decide_eq_true hnegative
    simp only [hless, if_true, List.cons_append, true_or]
    rw [List.cons_append] at htake hdrop
    simp only [htake, hdrop, hvalue]
    congr 2
    omega
  | false =>
    have hless := of_decide_eq_false hnegative
    simp only [hless, if_false, List.cons_append, true_or, if_true]
    rw [List.cons_append] at htake hdrop
    simp only [htake, hdrop, hvalue]
    rw [if_neg Bool.false_ne_true]
    congr 2
    omega

section

variable {digitLimit : Nat} {ds tail tail' : List Char}

/-- Digits with a fraction behind them. -/
theorem readUnsigned_fraction {behind : List Char} {power : Option Int} (whole : List Char)
    (negative : Bool) (hds : IsWholePart ds) (htail : EndsDigits tail)
    (hfraction : fraction tail = (some behind, tail')) (hexponent : exponent tail' = (power, rest)) :
    readUnsigned digitLimit whole negative (ds ++ tail) =
      .ok (.real (.ofDecimal negative (decimalValue (ds ++ behind))
        (power.getD 0 - behind.length)), rest) := by
  have hempty : ds.isEmpty = false := by simp [hds.nonempty]
  simp only [readUnsigned, integerDigits_append hds htail, hempty, List.drop_left, hfraction,
    hexponent, if_false, Bool.false_eq_true, Option.getD_some]

/-- Digits with an exponent behind them. -/
theorem readUnsigned_exponent {power : Int} (whole : List Char) (negative : Bool)
    (hds : IsWholePart ds) (htail : EndsDigits tail) (hfraction : fraction tail = (none, tail'))
    (hexponent : exponent tail' = (some power, rest)) :
    readUnsigned digitLimit whole negative (ds ++ tail) =
      .ok (.real (.ofDecimal negative (decimalValue ds) power), rest) := by
  have hempty : ds.isEmpty = false := by simp [hds.nonempty]
  simp only [readUnsigned, integerDigits_append hds htail, hempty, List.drop_left, hfraction,
    hexponent, if_false, Bool.false_eq_true, Option.getD_none, Option.getD_some, List.append_nil,
    List.length_nil, Nat.cast_zero, sub_zero]

end

/-! ## Numbers of 64 bits -/

variable {d : Decimal}

/-- Digits with a point among them that are worth `x`. -/
def IsPointed (text : List Char) (x : ℚ) : Prop :=
  ∃ whole behind : List Char, text = whole ++ '.' :: behind ∧ IsWholePart whole ∧
    (∀ c ∈ behind, isDigit c = true) ∧ behind ≠ [] ∧
    (decimalValue (whole ++ behind) : ℚ) * 10 ^ (-(behind.length : Int)) = x

/-- Zeros stand in front. -/
theorem IsNumeral.isPointed_zeros_append {ds : List Char} (h : IsNumeral ds) (n : Nat) :
    IsPointed ('0' :: '.' :: (List.replicate n '0' ++ ds))
      (decimalValue ds * 10 ^ (-(n : Int) - ds.length)) := by
  refine ⟨['0'], List.replicate n '0' ++ ds, rfl, isWholePart_singleton isDigit_zero,
    List.forall_mem_append.2 ⟨fun c => isDigit_of_mem_zeros, h.digits⟩,
    List.append_ne_nil_of_right_ne_nil _ h.nonempty, ?_⟩
  rw [decimalValue_append, decimalValue_append, decimalValue_zeros, List.length_append,
    List.length_replicate, show decimalValue ['0'] = 0 from rfl, Nat.zero_mul, Nat.zero_mul,
    Nat.zero_add, Nat.zero_add]
  congr 2
  omega

/-- Zeros stand behind. -/
theorem IsNumeral.isPointed_append_zeros {ds : List Char} (h : IsNumeral ds) (n : Nat) :
    IsPointed (ds ++ List.replicate n '0' ++ ['.', '0']) (decimalValue ds * 10 ^ (n : Int)) := by
  refine ⟨ds ++ List.replicate n '0', ['0'], rfl, (h.append_zeros n).isWholePart, isDigit_zero,
    List.cons_ne_nil _ _, ?_⟩
  rw [decimalValue_concat, decimalValue_append, decimalValue_zeros, List.length_replicate,
    show ('0').toNat - 48 = 0 from rfl, List.length_singleton, zpow_natCast, Nat.cast_one,
    zpow_neg_one]
  push_cast
  ring

/-- The point stands among the digits. -/
theorem IsNumeral.isPointed_take_drop {ds : List Char} (h : IsNumeral ds) {n : Nat} (hn : 0 < n)
    (hlength : n < ds.length) :
    IsPointed (ds.take n ++ '.' :: ds.drop n) (decimalValue ds * 10 ^ ((n : Int) - ds.length)) := by
  refine ⟨ds.take n, ds.drop n, rfl, (h.take hn).isWholePart,
    fun c hc => h.digits c (List.mem_of_mem_drop hc), ?_, ?_⟩
  · rw [ne_eq, List.drop_eq_nil_iff]
    omega
  · rw [List.take_append_drop, List.length_drop]
    congr 2
    omega

theorem IsNumeral.isPointed {ds : List Char} (h : IsNumeral ds) (point : Int) :
    IsPointed (pointed ds point) (decimalValue ds * 10 ^ (point - ds.length)) := by
  unfold pointed
  split
  · have hpoint : point - ds.length = -((-point).toNat : Int) - ds.length := by omega
    rw [hpoint]
    exact h.isPointed_zeros_append _
  · split
    · have hpoint : point - ds.length = (point.toNat - ds.length : Nat) := by omega
      rw [hpoint]
      exact h.isPointed_append_zeros _
    · have hpoint : point - ds.length = (point.toNat : Int) - ds.length := by omega
      rw [hpoint]
      exact h.isPointed_take_drop (by omega) (by omega)

/-- The text of a decimal starts with a digit. -/
theorem exists_decimalText_cons (hd : 0 < d.digits) :
    ∃ c cs, decimalText d = c :: cs ∧ isDigit c = true := by
  have hds := isNumeral_toDigits hd
  unfold decimalText
  generalize Nat.toDigits 10 d.digits = ds at hds
  dsimp only
  split
  · obtain ⟨front, behind, htext, hfront, -⟩ := hds.isPointed (d.exponent + ds.length - 1 + 1)
    obtain ⟨c, cs, rfl⟩ := List.exists_cons_of_ne_nil hfront.nonempty
    exact ⟨c, _, htext, hfront.digits c List.mem_cons_self⟩
  · split
    · exact absurd rfl hds.nonempty
    · exact ⟨_, _, rfl, hds.digits _ List.mem_cons_self⟩
    · exact ⟨_, _, rfl, hds.digits _ List.mem_cons_self⟩

/-- A text is read as a decimal that is worth `x`, whatever comes behind it. -/
def ReadsAs (text : List Char) (x : ℚ) : Prop :=
  ∀ rest, EndsNumber rest → ∃ (n : Nat) (k : Int), (n : ℚ) * 10 ^ k = x ∧
    ∀ digitLimit whole negative, readUnsigned digitLimit whole negative (text ++ rest) =
      .ok (.real (.ofDecimal negative n k), rest)

/-- The point is where it belongs. -/
theorem IsPointed.readsAs {text : List Char} {x : ℚ} (h : IsPointed text x) : ReadsAs text x := by
  obtain ⟨front, behind, rfl, hfront, hbehind, hne, hvalue⟩ := h
  intro rest hrest
  refine ⟨decimalValue (front ++ behind), (none : Option Int).getD 0 - behind.length, ?_,
    fun digitLimit whole negative => ?_⟩
  · rw [Option.getD_none, zero_sub, hvalue]
  · rw [List.append_assoc, List.cons_append]
    exact readUnsigned_fraction whole negative hfront (endsDigits_point _)
      (fraction_append hbehind hne hrest.endsDigits) (exponent_of_endsNumber hrest)

/-- One digit, and an exponent. -/
theorem readsAs_digit {digit : Char} (h : ∀ c ∈ [digit], isDigit c = true) (power : Int) :
    ReadsAs (digit :: 'e' :: exponentText power) (decimalValue [digit] * 10 ^ power) :=
  fun _ hrest => ⟨_, _, rfl, fun _ whole negative =>
    readUnsigned_exponent whole negative (isWholePart_singleton h) (endsDigits_mark _)
      (fraction_mark _) (exponent_exponentText power hrest.endsDigits)⟩

/-- One digit in front of the point, others behind it, and an exponent. -/
theorem readsAs_scientific {first : Char} {behind : List Char}
    (h : ∀ c ∈ first :: behind, isDigit c = true) (hne : behind ≠ []) (power : Int) :
    ReadsAs (first :: '.' :: behind ++ 'e' :: exponentText power)
      (decimalValue (first :: behind) * 10 ^ (power - behind.length)) := by
  obtain ⟨hfirst, hbehind⟩ := List.forall_mem_cons.1 h
  refine fun rest hrest => ⟨decimalValue ([first] ++ behind), (some power).getD 0 - behind.length,
    rfl, fun digitLimit whole negative => ?_⟩
  rw [List.append_assoc]
  exact readUnsigned_fraction whole negative (isWholePart_singleton (by simpa using hfirst))
    (endsDigits_point _) (fraction_append hbehind hne (endsDigits_mark _))
    (exponent_exponentText power hrest.endsDigits)

/-- The text of a decimal is read as a decimal with the same value. -/
theorem readsAs_decimalText (hd : 0 < d.digits) : ReadsAs (decimalText d) d.value := by
  have hds := isNumeral_toDigits hd
  rw [Decimal.value, ← decimalValue_toDigits d.digits]
  unfold decimalText
  generalize Nat.toDigits 10 d.digits = ds at hds
  dsimp only
  split
  · have hpointed := hds.isPointed (d.exponent + ds.length - 1 + 1)
    rw [show d.exponent + ds.length - 1 + 1 - ds.length = d.exponent by omega] at hpointed
    exact hpointed.readsAs
  · rename_i hfar
    clear hfar
    -- an exponent stands behind one digit, or behind a point among more
    generalize hpower : d.exponent + ds.length - 1 = power
    split
    · exact absurd rfl hds.nonempty
    · rw [List.length_singleton] at hpower
      rw [show d.exponent = power by omega]
      exact readsAs_digit hds.digits power
    · rename_i first behind hmore
      rw [List.length_cons] at hpower
      rw [show d.exponent = power - behind.length by omega]
      exact readsAs_scientific hds.digits hmore power

/-- What a number starts with that has a sign: the sign, or a digit. -/
theorem exists_signed_cons {text : List Char} (htext : ∃ d ds, text = d :: ds ∧ isDigit d = true)
    (negative : Bool) : ∃ c cs, signed negative text = c :: cs ∧ (isDigit c = true ∨ c = '-') := by
  obtain ⟨d, ds, rfl, hd⟩ := htext
  cases negative with
  | true => exact ⟨_, _, rfl, .inr rfl⟩
  | false => exact ⟨_, _, rfl, .inl hd⟩

/-- The digits of a shortest decimal are no zero. -/
theorem digits_shortest_pos {m : Nat} {e : Int} (hm : 0 < m) (hlegal : Binary64.IsLegal m e) :
    0 < (Binary64.shortest m e).digits := by
  have hlow := (Binary64.isNear_shortest hm e).zpow_lt hm hlegal
  apply Nat.pos_of_ne_zero
  intro hzero
  rw [Decimal.value, hzero, Nat.cast_zero, zero_mul] at hlow
  exact absurd hlow (not_lt.2 (by positivity))

/-- Zero is written as one, at the least exponent. -/
theorem readUnsigned_zero {digitLimit : Nat} (whole : List Char) (negative : Bool)
    (hrest : EndsNumber rest) :
    readUnsigned digitLimit whole negative ("0.0".toList ++ rest) =
      .ok (.real (.finite negative 0 Binary64.leastExponent), rest) := by
  have hzero : Binary64.ofDecimal negative (decimalValue (['0'] ++ ['0']))
      ((none : Option Int).getD 0 - (['0'].length : Nat)) =
        .finite negative 0 Binary64.leastExponent := by
    unfold Binary64.ofDecimal
    exact if_pos (.inl rfl)
  rw [← hzero]
  exact readUnsigned_fraction _ negative (isWholePart_singleton isDigit_zero)
    (endsDigits_point _) (fraction_append isDigit_zero (List.cons_ne_nil _ _)
      hrest.endsDigits) (exponent_of_endsNumber hrest)

/-- Numbers of 64 bits are read back, and so are the values that are no numbers. -/
theorem readValue_realChars {digitLimit fuel depth : Nat} {x : Binary64} (hx : x.IsCanonical)
    (hrest : EndsNumber rest) :
    readValue digitLimit (fuel + 1) depth (x.chars realSpelling ++ rest) = .ok (.real x, rest) := by
  cases x with
  | nan => rfl
  | infinite negative => cases negative <;> rfl
  | finite negative m e =>
    have hlegal : Binary64.IsLegal m e := hx
    unfold Binary64.chars
    rw [signed_append]
    split
    · rename_i hm
      subst hm
      -- a mantissa of zero is not full, so the exponent is the least one
      obtain rfl : e = Binary64.leastExponent := hlegal.full.resolve_left (by decide)
      exact (readValue_signed negative rfl _).trans (readUnsigned_zero _ negative hrest)
    · rename_i hm
      have hm := Nat.pos_of_ne_zero hm
      have hdigits := digits_shortest_pos hm hlegal
      obtain ⟨c, cs, htext, hc⟩ := exists_decimalText_cons hdigits
      obtain ⟨n, k, hvalue, hread⟩ := readsAs_decimalText hdigits rest hrest
      have hnear := Binary64.isNear_shortest hm e
      rw [← hvalue] at hnear
      specialize hread digitLimit (signed negative (decimalText (Binary64.shortest m e) ++ rest))
        negative
      rw [htext, List.cons_append] at hread ⊢
      rw [readValue_signed negative hc, hread, Binary64.ofDecimal_eq_of_isNear negative hm hlegal hnear]

end TapeMachine.Json
