import Mathlib
import WideColumn.Decimal.Arithmetic
import WideColumn.Error
import WideColumn.Proofs.Integer.Checked
/-!
# Exact arithmetic of decimals

A decimal stands for a rational number (`Decimal.value`). Two decimals brought to the
larger of their scales stand for the same numbers as before, now as integers over one
power of ten, so sums, differences and remainders can be taken of the integers
(`Decimal.aligned_map`). Nothing is rounded; what has no result is refused for its scales
or for a divisor of zero.
-/

namespace WideColumn

theorem Scale.val_max (s t : Scale) : (s.max t).val = Max.max s.val t.val := by
  unfold Scale.max
  split <;> omega

theorem Scale.ofInt?_of_fits {n : Int} (h : -2147483648 ≤ n ∧ n ≤ 2147483647) : ofInt? n = some ⟨n, h.1, h.2⟩ :=
  dif_pos h

theorem Scale.ofInt?_eq_none {n : Int} (h : ¬(-2147483648 ≤ n ∧ n ≤ 2147483647)) : ofInt? n = none :=
  dif_neg h

namespace Decimal

/-! ## The number -/

/-- The number that a decimal stands for. -/
def value (d : Decimal) : ℚ := d.unscaled * 10 ^ (-d.scale.val)

theorem value_eq_zero_iff {d : Decimal} : d.value = 0 ↔ d.unscaled = 0 := by
  have hten : (10 : ℚ) ^ (-d.scale.val) ≠ 0 := zpow_ne_zero _ (by norm_num)
  rw [value, mul_eq_zero, or_iff_left hten, Int.cast_eq_zero]

theorem isZero_iff {d : Decimal} : d.isZero = true ↔ d.value = 0 := by
  rw [value_eq_zero_iff, isZero, beq_iff_eq]

/-- At a scale that is not smaller a decimal stands for the same number. -/
theorem value_eq_unscaledAt {d : Decimal} {s : Scale} (h : d.scale.val ≤ s.val) :
    d.value = d.unscaledAt s * 10 ^ (-s.val) := by
  obtain ⟨k, hk⟩ : ∃ k : Nat, s.val - d.scale.val = k := ⟨_, (Int.toNat_of_nonneg (by omega)).symm⟩
  have hs : -d.scale.val = k + -s.val := by omega
  have hpow : d.unscaledAt s = d.unscaled * 10 ^ k := by
    rw [unscaledAt, hk, Int.toNat_natCast]
    exact congrArg _ (Nat.cast_pow 10 k)
  rw [value, hpow, hs, zpow_add₀ (by norm_num), zpow_natCast]
  push_cast
  ring

/-! ## One scale for both -/

/-- The operation is refused, with an error of the kind. -/
def Refused (kind : ErrorKind) (result : Except ArithmeticError Decimal) : Prop :=
  ∃ e, result = .error e ∧ (Error.arithmetic e).kind = kind

/-- If no more than 100000 places lie between the scales there is a result, at the larger
scale and with the right value. Otherwise the operation is refused as out of range. -/
def Bridged (a b : Decimal) (result : Except ArithmeticError Decimal) (right : ℚ → Prop) : Prop :=
  if |a.scale.val - b.scale.val| ≤ 100000 then
    ∃ r, result = .ok r ∧ r.scale.val = max a.scale.val b.scale.val ∧ right r.value
  else Refused .range result

theorem aligned_eq (a b : Decimal) :
    aligned a b = if |a.scale.val - b.scale.val| ≤ 100000 then
      .ok (a.unscaledAt (a.scale.max b.scale), b.unscaledAt (a.scale.max b.scale), a.scale.max b.scale)
    else .error (.scalesApart a.scale.val b.scale.val) := by
  have hgap : widestGap < (a.scale.val - b.scale.val).natAbs ↔ ¬|a.scale.val - b.scale.val| ≤ 100000 := by
    rw [Int.abs_eq_natAbs, widestGap]
    omega
  unfold aligned
  by_cases h : |a.scale.val - b.scale.val| ≤ 100000
  · rw [if_pos h, if_neg (fun hwide => hgap.1 hwide h)]
  · rw [if_neg h, if_pos (hgap.2 h)]

/-- What is right for integers over one power of ten is right for the decimals. -/
theorem aligned_map (a b : Decimal) (f : Int → Int → Int) {right : ℚ → Prop}
    (h : ∀ (m n : Int) (u : ℚ), 0 < u → a.value = m * u → b.value = n * u → right (f m n * u)) :
    Bridged a b ((aligned a b).map fun (m, n, s) => ⟨f m n, s⟩) right := by
  rw [Bridged, aligned_eq]
  by_cases hnear : |a.scale.val - b.scale.val| ≤ 100000
  · rw [if_pos hnear, if_pos hnear]
    have hmax := Scale.val_max a.scale b.scale
    refine ⟨_, rfl, hmax, h _ _ _ (zpow_pos (by norm_num) _) ?_ ?_⟩
    · exact value_eq_unscaledAt (by omega)
    · exact value_eq_unscaledAt (by omega)
  · rw [if_neg hnear, if_neg hnear]
    exact ⟨_, rfl, rfl⟩

/-! ## Remainders -/

/-- What is left of a number after another has been taken away a whole number of times: less
than the other, and nothing or of the sign of the first. -/
structure Remainder (a b r : ℚ) : Prop where
  whole : ∃ k : ℤ, a = k * b + r
  small : |r| < |b|
  sign : r = 0 ∨ (0 < r ∧ 0 < a) ∨ (r < 0 ∧ a < 0)

/-- The remainder of integers is one of the numbers that they stand for over a common
power of ten. -/
theorem remainder_tmod {m n : Int} {u : ℚ} (hu : 0 < u) (hn : n ≠ 0) : Remainder (m * u) (n * u) (m.tmod n * u) where
  whole := by
    refine ⟨m.tdiv n, ?_⟩
    have h : (m : ℚ) = n * m.tdiv n + m.tmod n := by exact_mod_cast (Int.mul_tdiv_add_tmod m n).symm
    linear_combination u * h
  small := by
    have h : |(m.tmod n : ℚ)| < |(n : ℚ)| := by exact_mod_cast Integer.abs_tmod_lt hn
    rw [abs_mul, abs_mul]
    exact mul_lt_mul_of_pos_right h (abs_pos.2 hu.ne')
  sign := by
    rcases Integer.tmod_sign m n with h | ⟨hr, hm⟩ | ⟨hr, hm⟩
    · exact .inl (by simp [h])
    · exact .inr (.inl ⟨mul_pos (by exact_mod_cast hr) hu, mul_pos (by exact_mod_cast hm) hu⟩)
    · exact .inr (.inr ⟨mul_neg_of_neg_of_pos (by exact_mod_cast hr) hu, mul_neg_of_neg_of_pos (by exact_mod_cast hm) hu⟩)

/-! ## The operations -/

theorem bridged_add (a b : Decimal) : Bridged a b (a.add b) (· = a.value + b.value) := by
  apply aligned_map
  intro m n u _ ha hb
  rw [ha, hb]
  push_cast
  ring

theorem bridged_sub (a b : Decimal) : Bridged a b (a.sub b) (· = a.value - b.value) := by
  apply aligned_map
  intro m n u _ ha hb
  rw [ha, hb]
  push_cast
  ring

theorem bridged_modulo (a : Decimal) {b : Decimal} (hb : b.value ≠ 0) :
    Bridged a b (a.modulo b) (Remainder a.value b.value) := by
  have hzero : ¬b.isZero = true := fun h => hb (isZero_iff.1 h)
  rw [modulo, if_neg hzero]
  apply aligned_map
  intro m n u hu hm hn
  have hn0 : n ≠ 0 := by
    rintro rfl
    simp [hn] at hb
  rw [hm, hn]
  exact remainder_tmod hu hn0

/-- Only a divisor of zero is refused as one. -/
theorem refused_modulo_iff (a b : Decimal) : Refused .divideByZero (a.modulo b) ↔ b.value = 0 := by
  constructor
  · rintro ⟨e, he, hkind⟩
    by_contra hb
    have h := bridged_modulo a hb
    unfold Bridged at h
    split at h
    · obtain ⟨r, hr, -⟩ := h
      rw [he] at hr
      cases hr
    · obtain ⟨e', he', hrange⟩ := h
      rw [he] at he'
      cases he'
      rw [hkind] at hrange
      cases hrange
  · intro hb
    exact ⟨.moduloByZero, by rw [modulo, if_pos (isZero_iff.2 hb)], rfl⟩

/-- A product stands for the product of the numbers, at the sum of the scales if that is one. -/
theorem mul_cases (a b : Decimal) :
    if -2147483648 ≤ a.scale.val + b.scale.val ∧ a.scale.val + b.scale.val ≤ 2147483647 then
      ∃ r, a.mul b = .ok r ∧ r.scale.val = a.scale.val + b.scale.val ∧ r.value = a.value * b.value
    else Refused .range (a.mul b) := by
  split
  · next h =>
    refine ⟨⟨a.unscaled * b.unscaled, ⟨_, h.1, h.2⟩⟩, by rw [mul, Scale.ofInt?_of_fits h], rfl, ?_⟩
    have hten : (10 : ℚ) ≠ 0 := by norm_num
    simp only [value, neg_add, zpow_add₀ hten]
    push_cast
    ring
  · next h => exact ⟨.scaleOverflow, by rw [mul, Scale.ofInt?_eq_none h], rfl⟩

/-- The gap between two scales is a word of 32 bits without sign, and neither decimal is at
a larger scale than both are brought to. -/
theorem gap_fits (a b : Decimal) :
    (a.scale.val - b.scale.val).natAbs < 2 ^ 32 ∧
    a.scale.val ≤ (a.scale.max b.scale).val ∧ b.scale.val ≤ (a.scale.max b.scale).val := by
  have := a.scale.lower
  have := a.scale.upper
  have := b.scale.lower
  have := b.scale.upper
  have := Scale.val_max a.scale b.scale
  omega

/-- Sums, differences, products and remainders of decimals are those of the numbers that
they stand for. Sums, differences and remainders have the larger scale and are out of
range if the scales are too far apart; products have the sum of the scales and are out of
range if that is no scale; only a remainder by zero is refused as a division by zero. The
computed scales are never outside their words. -/
theorem arithmetic_exact (a b : Decimal) :
    Bridged a b (a.add b) (· = a.value + b.value) ∧
    Bridged a b (a.sub b) (· = a.value - b.value) ∧
    (if -2147483648 ≤ a.scale.val + b.scale.val ∧ a.scale.val + b.scale.val ≤ 2147483647 then
      ∃ r, a.mul b = .ok r ∧ r.scale.val = a.scale.val + b.scale.val ∧ r.value = a.value * b.value
    else Refused .range (a.mul b)) ∧
    (Refused .divideByZero (a.modulo b) ↔ b.value = 0) ∧
    (b.value ≠ 0 → Bridged a b (a.modulo b) (Remainder a.value b.value)) ∧
    (a.scale.val - b.scale.val).natAbs < 2 ^ 32 ∧
    a.scale.val ≤ (a.scale.max b.scale).val ∧ b.scale.val ≤ (a.scale.max b.scale).val :=
  ⟨bridged_add a b, bridged_sub a b, mul_cases a b, refused_modulo_iff a b, bridged_modulo a, gap_fits a b⟩

/-- -7.5 -/
def minusSevenAndAHalf : Decimal := ⟨-75, ⟨1, by decide, by decide⟩⟩

/-- What is left of it after taking away 2. -/
theorem arithmetic_exact_remainder :
    (ofInt 2).value ≠ 0 ∧ minusSevenAndAHalf.modulo (ofInt 2) = .ok ⟨-15, minusSevenAndAHalf.scale⟩ ∧
    Bridged minusSevenAndAHalf (ofInt 2) (minusSevenAndAHalf.modulo (ofInt 2))
      (Remainder minusSevenAndAHalf.value (ofInt 2).value) := by
  have divisor : (ofInt 2).value ≠ 0 := by
    rw [Ne, value_eq_zero_iff]
    decide
  obtain ⟨-, -, -, -, remainder, -⟩ := arithmetic_exact minusSevenAndAHalf (ofInt 2)
  exact ⟨divisor, rfl, remainder divisor⟩

end Decimal

end WideColumn
