import WideColumn.Decimal.Conversion
import WideColumn.Proofs.Decimal.Arithmetic
import WideColumn.Proofs.Except
/-!
# Decimals cut off to integers

A decimal is cut off toward zero to an integer of 64 bits if the integer fits
(`Decimal.toInt64_exact`). The digits before the point are counted first, and where they
decide alone they decide as the number would: without any the number is below one, and with
more than nineteen it is at least `10 ^ 19`.
-/

namespace WideColumn

namespace Numeral

theorem digitCount_le_iff {n k : Nat} (hk : 0 < k) : digitCount n ≤ k ↔ n < 10 ^ k := by
  rw [digitCount, digits_eq, Nat.length_toDigits_le_iff (by decide) hk]

theorem digitCount_pos (n : Nat) : 0 < digitCount n := by
  rw [digitCount, digits_eq]
  exact Nat.length_toDigits_pos

theorem lt_ten_pow_digitCount (n : Nat) : n < 10 ^ digitCount n := (digitCount_le_iff (digitCount_pos n)).1 le_rfl

/-- A number has no more digits than it takes. -/
theorem ten_pow_le_of_lt_digitCount {n k : Nat} (hn : n ≠ 0) (hk : k < digitCount n) : 10 ^ k ≤ n := by
  cases k with
  | zero => exact Nat.one_le_iff_ne_zero.2 hn
  | succ k =>
    by_contra hlt
    have := (digitCount_le_iff (Nat.succ_pos k)).2 (Nat.lt_of_not_le hlt)
    omega

end Numeral

namespace Decimal

/-! ## The integer part -/

/-- A number cut off toward zero. -/
def truncation (q : ℚ) : Int := if 0 ≤ q then ⌊q⌋ else ⌈q⌉

theorem truncation_intCast (n : Int) : truncation n = n := by
  simp [truncation]

theorem truncation_div (n : Int) {d : Nat} (hd : 0 < d) : truncation (n / d) = n.tdiv d := by
  have hpos : (0 : ℚ) < d := by exact_mod_cast hd
  have hsign : (0 : ℚ) ≤ n / d ↔ 0 ≤ n := by rw [le_div_iff₀ hpos, zero_mul, Int.cast_nonneg_iff]
  unfold truncation
  simp only [hsign]
  split
  · next h => rw [Rat.floor_intCast_div_natCast, Int.tdiv_eq_ediv_of_nonneg h]
  · next h =>
    have hneg : (n / d : ℚ) = -((-n : Int) / d : ℚ) := by
      push_cast
      ring
    rw [hneg, Int.ceil_neg, Rat.floor_intCast_div_natCast, ← Int.tdiv_eq_ediv_of_nonneg (by omega), Int.neg_tdiv, neg_neg]

theorem truncated_eq_truncation (d : Decimal) : truncated d.unscaled d.scale.val = truncation d.value := by
  have hcast (k : Nat) : ((Nat.pow 10 k : Nat) : ℚ) = 10 ^ k := Nat.cast_pow 10 k
  unfold truncated value
  split
  · next h =>
    obtain ⟨k, hk⟩ := Int.eq_ofNat_of_zero_le (Int.neg_nonneg_of_nonpos h)
    have hwhole : (d.unscaled * 10 ^ (k : Int) : ℚ) = (d.unscaled * (Nat.pow 10 k : Nat) : Int) := by
      rw [zpow_natCast, Int.cast_mul, Int.cast_natCast, hcast]
    rw [hk, Int.toNat_natCast, hwhole, truncation_intCast]
  · next h =>
    obtain ⟨k, hk⟩ := Int.eq_ofNat_of_zero_le (Int.le_of_lt (Int.not_le.1 h))
    have hquotient : (d.unscaled * 10 ^ (-(k : Int)) : ℚ) = d.unscaled / (Nat.pow 10 k : Nat) := by
      rw [zpow_neg, zpow_natCast, hcast, div_eq_mul_inv]
    have hpos : 0 < Nat.pow 10 k := Nat.pow_pos (by decide)
    rw [hk, Int.toNat_natCast, hquotient, truncation_div _ hpos]

/-! ## What the digits decide -/

theorem natAbs_truncated (n s : Int) :
    (truncated n s).natAbs = if s ≤ 0 then n.natAbs * 10 ^ (-s).toNat else n.natAbs / 10 ^ s.toNat := by
  unfold truncated
  split
  · rw [Int.natAbs_mul, Int.natAbs_natCast]
    rfl
  · rw [Int.natAbs_tdiv, Int.natAbs_natCast]
    rfl

/-- Without a digit before the point nothing is left. -/
theorem truncated_eq_zero {n s : Int} (h : Numeral.digitCount n.natAbs ≤ s) : truncated n s = 0 := by
  have hpos := Numeral.digitCount_pos n.natAbs
  have hlt : n.natAbs < 10 ^ s.toNat :=
    (Numeral.lt_ten_pow_digitCount n.natAbs).trans_le (Nat.pow_le_pow_right (by decide) (by omega))
  rw [← Int.natAbs_eq_zero, natAbs_truncated, if_neg (by omega), Nat.div_eq_of_lt hlt]

/-- With more than `k` digits before the point as much as `10 ^ k` is left. -/
theorem ten_pow_le_truncated {n s : Int} {k : Nat} (hn : n ≠ 0) (h : k < Numeral.digitCount n.natAbs - s) :
    10 ^ k ≤ (truncated n s).natAbs := by
  have hpos := Numeral.digitCount_pos n.natAbs
  have hnatAbs : n.natAbs ≠ 0 := Int.natAbs_ne_zero.2 hn
  rw [natAbs_truncated]
  split
  · next hs =>
    calc 10 ^ k ≤ 10 ^ (k - (-s).toNat + (-s).toNat) := Nat.pow_le_pow_right (by decide) (by omega)
      _ = 10 ^ (k - (-s).toNat) * 10 ^ (-s).toNat := pow_add ..
      _ ≤ n.natAbs * 10 ^ (-s).toNat :=
        Nat.mul_le_mul_right _ (Numeral.ten_pow_le_of_lt_digitCount hnatAbs (by omega))
  · next hs =>
    rw [Nat.le_div_iff_mul_le (by positivity), ← pow_add]
    exact Numeral.ten_pow_le_of_lt_digitCount hnatAbs (by omega)

/-- The conversion by the number alone, without a look at its digits. -/
def plainInt64 (d : Decimal) : Except ArithmeticError Int :=
  let n := truncated d.unscaled d.scale.val
  if Integer.Fits 64 n then .ok n else .error .tooBig

theorem toInt64_eq_plainInt64 (d : Decimal) : d.toInt64 = d.plainInt64 := by
  unfold toInt64 plainInt64 integerDigits
  by_cases hnone : d.isZero ∨ (Numeral.digitCount d.unscaled.natAbs : Int) - d.scale.val ≤ 0
  · -- there is nothing before the point
    have hzero : truncated d.unscaled d.scale.val = 0 := by
      rcases hnone with hzero | hdigits
      · rw [isZero, beq_iff_eq] at hzero
        rw [← Int.natAbs_eq_zero, natAbs_truncated, hzero]
        simp
      · exact truncated_eq_zero (by omega)
    rw [if_pos hnone, hzero, if_pos (by decide)]
  · rw [if_neg hnone]
    by_cases hmany : 19 < (Numeral.digitCount d.unscaled.natAbs : Int) - d.scale.val
    · -- there are too many digits before the point for 64 bits
      have hn : d.unscaled ≠ 0 := fun h => hnone (.inl (beq_iff_eq.2 h))
      have hlarge := ten_pow_le_truncated (k := 19) hn hmany
      have hunfit : ¬Integer.Fits 64 (truncated d.unscaled d.scale.val) := by
        rw [Integer.fits_iff]
        omega
      rw [if_pos hmany, if_neg hunfit]
    · rw [if_neg hmany]

/-- A decimal is cut off to the integer part of the number that it stands for if that fits 64
bits, and it is out of range otherwise. Counting the digits first decides nothing else than
the number itself would. -/
theorem toInt64_exact (d : Decimal) :
    d.toInt64 = d.plainInt64 ∧
    (∀ n, d.toInt64 = .ok n ↔ n = truncation d.value ∧ Integer.Fits 64 n) ∧
    ((∃ e, d.toInt64 = .error e ∧ (Error.arithmetic e).kind = .range) ↔ ¬Integer.Fits 64 (truncation d.value)) := by
  have hplain := toInt64_eq_plainInt64 d
  refine ⟨hplain, ?_, ?_⟩
  · intro n
    rw [hplain, plainInt64, truncated_eq_truncation, Except.ite_error_eq_ok_iff, Except.ok.injEq]
    constructor
    · rintro ⟨hfits, rfl⟩
      exact ⟨rfl, hfits⟩
    · rintro ⟨rfl, hfits⟩
      exact ⟨hfits, rfl⟩
  · rw [hplain, plainInt64, truncated_eq_truncation]
    split
    · next hfits => simp [hfits]
    · next hunfit => exact ⟨fun _ => hunfit, fun _ => ⟨_, rfl, rfl⟩⟩

end Decimal

end WideColumn
