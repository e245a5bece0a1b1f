import WideColumn.Binary.Arithmetic
import WideColumn.Binary.Integer
import WideColumn.Proofs.Order.Binary
import WideColumn.Proofs.TwosComplement
/-!
# Rounding up to a power of two

What is not above a power of two is not rounded above it (`BinaryFormat.nearest_le`), and
neither is its square root above the root of that power (`BinaryFormat.nearestRoot_le`).
-/

namespace WideColumn

open TwosComplement

theorem halveEven_le (n s : Nat) (rest : Bool) : halveEven n s rest ≤ n / 2 ^ s + 1 := by
  cases s with
  | zero => simp [halveEven]
  | succ s =>
    have hhalf : (n >>> s) / 2 = n / 2 ^ (s + 1) := by
      rw [Nat.shiftRight_eq_div_pow, Nat.div_div_eq_div_mul, pow_succ]
    simp only [halveEven, hhalf]
    split <;> omega

namespace BinaryFormat

variable {f : BinaryFormat}

/-- The magnitude pattern of `2 ^ j` units. -/
def power (f : BinaryFormat) (j : Nat) : Nat := (j + 2 - f.precision) * f.exponentWeight

theorem two_mul_exponentWeight (hf : f.Proper) : 2 * f.exponentWeight = 2 ^ f.precision := by
  have := hf.two_le_precision
  change 2 * 2 ^ (f.precision - 1) = 2 ^ f.precision
  rw [← pow_succ', Nat.sub_add_cancel (by omega)]

theorem units_power (hf : f.Proper) {j : Nat} (hj : f.precision ≤ j) : f.units (f.power j) = 2 ^ j := by
  have := hf.two_le_precision
  have hexponent : f.power j / f.exponentWeight = j + 2 - f.precision := Nat.mul_div_cancel _ f.exponentWeight_pos
  have hfraction : f.power j % f.exponentWeight = 0 := Nat.mul_mod_left _ _
  rw [units_eq, hexponent, hfraction, if_neg (by omega), Nat.zero_add]
  change 2 ^ (f.precision - 1) * 2 ^ (j + 2 - f.precision - 1) = 2 ^ j
  rw [← pow_add]
  congr 1
  omega

theorem units_le_of_le_power (hf : f.Proper) {m j : Nat} (hj : f.precision ≤ j) (h : m ≤ f.power j) : f.units m ≤ 2 ^ j := by
  rw [← units_power hf hj]
  exact f.units_strictMono.monotone h

/-- The bits that are kept of a number are no more than the format has, or one bit more
where they were all rounded up. -/
theorem significand_le (hf : f.Proper) {n : Nat} {e last : Int} (rest : Bool) (h : bitLength n + e - f.precision ≤ last) :
    (if last - e ≤ 0 then n <<< (-(last - e)).toNat else halveEven n (last - e).toNat rest) ≤ 2 * f.exponentWeight := by
  have hlt := lt_two_pow_bitLength n
  rw [two_mul_exponentWeight hf]
  split
  · next hshift =>
    rw [Nat.shiftLeft_eq]
    calc n * 2 ^ (-(last - e)).toNat ≤ 2 ^ bitLength n * 2 ^ (-(last - e)).toNat := Nat.mul_le_mul_right _ hlt.le
      _ = 2 ^ (bitLength n + (-(last - e)).toNat) := (pow_add ..).symm
      _ ≤ 2 ^ f.precision := Nat.pow_le_pow_right (by decide) (by omega)
  · next hshift =>
    have hquotient : n / 2 ^ (last - e).toNat < 2 ^ f.precision := by
      rw [Nat.div_lt_iff_lt_mul (by positivity), ← pow_add]
      exact hlt.trans_le (Nat.pow_le_pow_right (by decide) (by omega))
    have := halveEven_le n (last - e).toNat rest
    omega

theorem nearest_le (hf : f.Proper) {n j : Nat} {e : Int} (rest : Bool) (hj : f.precision ≤ j)
    (h : bitLength n + e ≤ f.unitExponent + j) : f.nearest n e rest ≤ f.power j := by
  unfold nearest
  split
  · exact Nat.zero_le _
  · refine (Nat.min_le_right _ _).trans ?_
    generalize hlast : max (bitLength n + e - f.precision) f.unitExponent = last
    have hplaces : (last - f.unitExponent).toNat + 2 ≤ j + 2 - f.precision := by omega
    calc _ ≤ (last - f.unitExponent).toNat * f.exponentWeight + 2 * f.exponentWeight :=
          Nat.add_le_add_left (significand_le hf rest (by omega)) _
      _ = ((last - f.unitExponent).toNat + 2) * f.exponentWeight := by ring
      _ ≤ f.power j := Nat.mul_le_mul_right _ hplaces

theorem nearestRoot_le (hf : f.Proper) {n j : Nat} {e k : Int} (hj : f.precision ≤ j) (h : bitLength n + e ≤ 2 * k)
    (hk : k ≤ f.unitExponent + j) : f.nearestRoot n e ≤ f.power j := by
  unfold nearestRoot
  -- the shift leaves an even exponent
  obtain ⟨shift, hshift, heven⟩ : ∃ shift : Nat,
      (if (e - (2 * (f.precision + 3) : Nat)) % 2 = 0 then 2 * (f.precision + 3) else 2 * (f.precision + 3) + 1) = shift ∧
        (e - shift) % 2 = 0 := by
    refine ⟨_, rfl, ?_⟩
    split <;> omega
  simp only [hshift]
  apply nearest_le hf _ hj
  have hroot : bitLength (n <<< shift).sqrt ≤ (k - (e - shift) / 2).toNat := by
    apply bitLength_le
    rw [Nat.sqrt_lt', ← pow_mul, Nat.shiftLeft_eq]
    calc n * 2 ^ shift < 2 ^ bitLength n * 2 ^ shift := Nat.mul_lt_mul_of_pos_right (lt_two_pow_bitLength n) (by positivity)
      _ = 2 ^ (bitLength n + shift) := (pow_add ..).symm
      _ ≤ 2 ^ ((k - (e - shift) / 2).toNat * 2) := Nat.pow_le_pow_right (by decide) (by omega)
  omega

end BinaryFormat

namespace Binary

open BinaryFormat

variable {f : BinaryFormat}

/-- A finite pattern with a sign denotes its units with that sign. -/
theorem datum_ofMagnitude (hf : f.Proper) (s : Bool) {m : Nat} (hm : m < f.infinity) :
    (ofMagnitude s m : Binary f).datum = .finite s (f.units m) := by
  have hinfinity : f.infinity < f.signWeight := by
    have := quietNaN_lt hf
    omega
  unfold ofMagnitude
  generalize hpattern : BitVec.ofNat f.width ((if s then f.signWeight else 0) + m) = bits
  have hbits : bits.toNat = (if s then f.signWeight else 0) + m := by
    rw [← hpattern, BitVec.toNat_ofNat, two_pow_width hf]
    apply Nat.mod_eq_of_lt
    split <;> omega
  have hmagnitude : f.magnitude bits = m := by
    rw [BinaryFormat.magnitude, hbits]
    split
    · rw [Nat.add_mod_left, Nat.mod_eq_of_lt (by omega)]
    · rw [Nat.zero_add, Nat.mod_eq_of_lt (by omega)]
  have hnegative : f.negative bits = s := by
    rw [BinaryFormat.negative, hbits]
    cases s with
    | true => simp
    | false => simp; omega
  have hnumber : ¬f.IsNaN bits := by
    rw [IsNaN, hmagnitude]
    omega
  rw [ofBits, dif_neg hnumber]
  simp only [datum, magnitude, negative, hmagnitude, hnegative]
  rw [if_neg (by omega), if_neg (by omega)]

/-- A number that is not below zero stands for its units, cut off to a whole number. -/
theorem whole_of_datum (hf : f.unitExponent < 0) {x : Binary f} {n : Nat} (h : x.datum = .finite false n) :
    x.whole = (n / 2 ^ (-f.unitExponent).toNat : Nat) := by
  simp [whole, truncate?, h, hf, signedUnits, Nat.shiftRight_eq_div_pow]

end Binary

end WideColumn
