import WideColumn.Proofs.Decimal.Truncation
import WideColumn.Proofs.Integer.Checked
import WideColumn.Proofs.Order.Binary
import WideColumn.Scalar.Arithmetic
import WideColumn.Scalar.Text
/-!
# Doubles cut off to integers

What a pattern of 64 bits stands for is a matter of its sign, its exponent and its fraction
(`binary64?`), and to cut it off is to cut off that number (`Binary.truncate?_ofBits`). The
three integer types differ only in their bounds. The bounds are computed in doubles, in
different ways; they come out as the powers of two that they should be.
-/

namespace WideColumn

/-- The number that a pattern of 64 bits stands for, which is none for the infinities and NaN. -/
def binary64? (bits : BitVec 64) : Option ℚ :=
  let sign : ℚ := if bits.msb then -1 else 1
  let exponent := (bits.extractLsb' 52 11).toNat
  let fraction := (bits.extractLsb' 0 52).toNat
  if exponent = 2047 then none
  else if exponent = 0 then some (sign * (fraction * 2 ^ (-1074 : ℤ)))
  else some (sign * ((2 ^ 52 + fraction) * 2 ^ ((exponent : ℤ) - 1075)))

namespace BinaryFormat

/-- The fields of a pattern, and what is left of it without its sign. -/
theorem double_fields (bits : BitVec 64) :
    (bits.extractLsb' 52 11).toNat = double.magnitude bits / double.exponentWeight ∧
    (bits.extractLsb' 0 52).toNat = double.magnitude bits % double.exponentWeight ∧
    bits.msb = double.negative bits := by
  have hweight : double.exponentWeight = 2 ^ 52 := rfl
  have hmagnitude : double.magnitude bits = bits.toNat % 2 ^ 63 := rfl
  have hlt : bits.toNat < 2 ^ 64 := bits.isLt
  rw [BitVec.extractLsb'_toNat, BitVec.extractLsb'_toNat, Nat.shiftRight_eq_div_pow, Nat.shiftRight_zero, hweight,
    hmagnitude]
  refine ⟨by omega, by omega, BitVec.msb_eq_decide bits⟩

end BinaryFormat

namespace Binary

open BinaryFormat

theorem cast_signedUnits (s : Bool) (n : Nat) : ((signedUnits s n : Int) : ℚ) = (if s then -1 else 1) * n := by
  cases s <;> simp [signedUnits]

/-- A pattern stands for its units, with its sign, unless its exponent is the largest one. -/
theorem binary64?_eq (bits : BitVec 64) :
    binary64? bits = if double.infinity ≤ double.magnitude bits then none
      else some (((signedUnits (double.negative bits) (double.units (double.magnitude bits)) : Int) : ℚ) * 2 ^ (-1074 : ℤ)) := by
  obtain ⟨hexponent, hfraction, hsign⟩ := double_fields bits
  have hinfinity : double.infinity = 2047 * 2 ^ 52 := rfl
  have hweight : double.exponentWeight = 2 ^ 52 := rfl
  have hmagnitude : double.magnitude bits < 2 ^ 63 := Nat.mod_lt _ (by decide)
  simp only [binary64?, hexponent, hfraction, hsign, cast_signedUnits, units_eq, hinfinity, hweight, mul_assoc]
  generalize double.magnitude bits = m at hmagnitude
  have hlargest : m / 2 ^ 52 = 2047 ↔ 2047 * 2 ^ 52 ≤ m := by omega
  rw [if_congr hlargest rfl rfl]
  refine if_congr Iff.rfl rfl ?_
  by_cases hzero : m / 2 ^ 52 = 0
  · rw [if_pos hzero, if_pos hzero]
  · rw [if_neg hzero, if_neg hzero]
    obtain ⟨k, hk⟩ := Nat.exists_eq_succ_of_ne_zero hzero
    have hpower : (2 : ℚ) ^ ((m / 2 ^ 52 : ℕ) - 1075 : ℤ) = 2 ^ k * 2 ^ (-1074 : ℤ) := by
      rw [← zpow_natCast, ← zpow_add₀ two_ne_zero, hk]
      congr 1
      push_cast
      ring
    rw [hpower, hk]
    generalize (2 : ℚ) ^ (-1074 : ℤ) = unit
    push_cast
    ring_nf

/-- Signed units of `2 ^ -k`, cut off to whole numbers. -/
theorem truncation_signedUnits (s : Bool) (n k : Nat) :
    Decimal.truncation ((signedUnits s n : Int) * 2 ^ (-k : ℤ)) = signedUnits s (n >>> k) := by
  have hquotient : ((signedUnits s n : Int) * 2 ^ (-k : ℤ) : ℚ) = (signedUnits s n : Int) / (2 ^ k : Nat) := by
    rw [zpow_neg, zpow_natCast, div_eq_mul_inv]
    push_cast
    rfl
  rw [hquotient, Decimal.truncation_div _ (Nat.two_pow_pos k), Nat.shiftRight_eq_div_pow]
  cases s with
  | false => exact (Int.ofNat_tdiv n (2 ^ k)).symm
  | true =>
    change (-(n : Int)).tdiv (2 ^ k : Nat) = -((n / 2 ^ k : Nat) : Int)
    rw [Int.neg_tdiv, Int.ofNat_tdiv]

/-- To cut a number off is to cut off what its pattern stands for. -/
theorem truncate?_ofBits (bits : BitVec 64) :
    (ofBits bits : Double).truncate? = (binary64? bits).map Decimal.truncation := by
  have hnan : (nan : Double).truncate? = none := by decide +kernel
  have hshift : double.unitExponent = -1074 := by decide
  rw [binary64?_eq]
  by_cases hNaN : double.IsNaN bits
  · have hof : (ofBits bits : Double) = nan := dif_pos hNaN
    rw [hof, hnan, if_pos (Nat.le_of_lt hNaN)]
    rfl
  · have hdatum : (ofBits bits : Double).datum = if double.magnitude bits = double.infinity then
        .infinite (double.negative bits) else .finite (double.negative bits) (double.units (double.magnitude bits)) := by
      have hof : (ofBits bits : Double) = ⟨bits, fun h => absurd h hNaN⟩ := dif_neg hNaN
      rw [hof]
      exact if_neg hNaN
    rw [truncate?, hdatum]
    by_cases hinfinite : double.magnitude bits = double.infinity
    · rw [if_pos hinfinite, if_pos hinfinite.ge]
      rfl
    · have hfinite : double.magnitude bits < double.infinity := Nat.lt_of_le_of_ne (Nat.not_lt.1 hNaN) hinfinite
      rw [if_neg hinfinite, if_neg (Nat.not_le.2 hfinite), Option.map_some]
      simp only [hshift]
      exact congrArg some (truncation_signedUnits _ _ 1074).symm

end Binary

/-! ## Bounds -/

namespace Integer

/-- One more than the greatest integer of 64 bits is the double next to that integer already. -/
theorem whole_greatest : (Binary.ofInt (greatest 64) : Double).whole = 2 ^ 63 := by decide +kernel

theorem whole_greatest_add_one :
    ((Binary.ofInt (greatest 64)).add (Binary.ofInt 1) : Double).whole = 2 ^ 63 ∧
    ((Binary.ofInt (greatest 32)).add (Binary.ofInt 1) : Double).whole = 2 ^ 31 := by decide +kernel

/-- Where the bound is what it should be, there is a word for a double just if there is one
for what is left of it. -/
theorem ofDouble?_eq_some_iff {w : Nat} (hw : 0 < w)
    (hbound : ((Binary.ofInt (greatest w)).add (Binary.ofInt 1) : Double).whole = 2 ^ (w - 1)) {x : Double} {a : BitVec w} :
    ofDouble? w x = some a ↔ x.truncate? = some a.toInt := by
  unfold ofDouble?
  cases x.truncate? with
  | none => simp
  | some n =>
    have hfits : (n < least w ∨ ((Binary.ofInt (greatest w)).add (Binary.ofInt 1) : Double).whole ≤ n) ↔ ¬Fits w n := by
      have hpow : least w = -2 ^ (w - 1) := congrArg Neg.neg (Nat.cast_pow 2 (w - 1))
      rw [hbound, fits_iff, hpow]
      omega
    change (if n < least w ∨ ((Binary.ofInt (greatest w)).add (Binary.ofInt 1) : Double).whole ≤ n then none
      else some (BitVec.ofInt w n)) = some a ↔ _
    rw [if_congr hfits rfl rfl, ite_not]
    change ofInt? w n = some a ↔ _
    rw [ofInt?_eq_some_iff hw, Option.some.injEq, eq_comm]

/-- There is a word for just what is left of a double and has one. -/
theorem exists_ofDouble?_iff {w : Nat} (hw : 0 < w)
    (hbound : ((Binary.ofInt (greatest w)).add (Binary.ofInt 1) : Double).whole = 2 ^ (w - 1)) {x : Double} {n : Int} :
    (∃ a : BitVec w, ofDouble? w x = some a ∧ a.toInt = n) ↔
      x.truncate? = some n ∧ -2 ^ (w - 1) ≤ n ∧ n < 2 ^ (w - 1) := by
  simp only [ofDouble?_eq_some_iff hw hbound]
  rw [← fits_iff, ← exists_toInt_eq_iff hw]
  constructor
  · rintro ⟨a, ha, rfl⟩
    exact ⟨ha, a, rfl⟩
  · rintro ⟨hx, a, rfl⟩
    exact ⟨a, hx, rfl⟩

end Integer

theorem Binary.toInt64_eq_ok_iff {x : Double} {n : Int} :
    x.toInt64 = .ok n ↔ x.truncate? = some n ∧ -2 ^ 63 ≤ n ∧ n < 2 ^ 63 := by
  have hleast : Integer.least 64 = -2 ^ 63 := by decide
  unfold toInt64
  rw [Integer.whole_greatest, hleast]
  cases x.truncate? with
  | none => simp
  | some m =>
    simp only [Except.error_ite_eq_ok_iff, Except.ok.injEq, Option.some.injEq]
    constructor
    · rintro ⟨hfits, rfl⟩
      exact ⟨rfl, by omega⟩
    · rintro ⟨rfl, hfits⟩
      exact ⟨by omega, rfl⟩

namespace Scalar

theorem ofDouble_varint_eq_ok_iff {x : Double} {n : Int} : ofDouble .varint x = .ok (varint n) ↔ x.truncate? = some n := by
  simp only [ofDouble, Varint.ofDouble?]
  cases x.truncate? <;> simp

theorem ofDouble_bigint_eq_ok_iff {x : Double} {n : Int} :
    (∃ a, ofDouble .bigint x = .ok (bigint a) ∧ a.toInt = n) ↔ x.truncate? = some n ∧ -2 ^ 63 ≤ n ∧ n < 2 ^ 63 := by
  rw [← Integer.exists_ofDouble?_iff (w := 64) (by decide) Integer.whole_greatest_add_one.1]
  simp only [ofDouble]
  cases Integer.ofDouble? 64 x <;> simp

theorem ofDouble_int_eq_ok_iff {x : Double} {n : Int} :
    (∃ a, ofDouble .int x = .ok (int a) ∧ a.toInt = n) ↔ x.truncate? = some n ∧ -2 ^ 31 ≤ n ∧ n < 2 ^ 31 := by
  rw [← Integer.exists_ofDouble?_iff (w := 32) (by decide) Integer.whole_greatest_add_one.2]
  simp only [ofDouble]
  cases Integer.ofDouble? 32 x <;> simp

theorem toInt64_double_eq_ok_iff {x : Double} {n : Int} :
    toInt64 (double x) = .ok n ↔ x.truncate? = some n ∧ -2 ^ 63 ≤ n ∧ n < 2 ^ 63 := by
  rw [← Binary.toInt64_eq_ok_iff, toInt64]
  cases x.toInt64 <;> simp [Except.mapError]

/-- What a conversion of a double gives: a value of the type, or that the double does not fit. -/
theorem ofDouble_cases (x : Double) :
    ((∃ n, ofDouble .varint x = .ok (varint n)) ∨ ofDouble .varint x = .error (.unfitDouble .varint x)) ∧
    ((∃ a, ofDouble .bigint x = .ok (bigint a)) ∨ ofDouble .bigint x = .error (.unfitDouble .bigint x)) ∧
    ((∃ a, ofDouble .int x = .ok (int a)) ∨ ofDouble .int x = .error (.unfitDouble .int x)) := by
  simp only [ofDouble]
  refine ⟨?_, ?_, ?_⟩
  · cases Varint.ofDouble? x <;> simp
  · cases Integer.ofDouble? 64 x <;> simp
  · cases Integer.ofDouble? 32 x <;> simp

theorem toInt64_double_cases (x : Double) :
    (∃ n, toInt64 (double x) = .ok n) ∨ toInt64 (double x) = .error (.arithmetic .tooBig) := by
  rw [toInt64, Binary.toInt64]
  cases x.truncate? with
  | none => exact .inr rfl
  | some n =>
    simp only
    split
    · exact .inr rfl
    · exact .inl ⟨n, rfl⟩

/-- A double that stands for a number becomes the varint that is left of the number when its
fraction is cut off, and the others become none. It becomes a bigint or an int exactly if that
varint is in the range of the type, and it is cut off to 64 bits exactly if it becomes a
bigint. Everything else is refused, as an argument or as out of range. -/
theorem ofDouble_exact (bits : BitVec 64) (n : Int) :
    let x : Double := Binary.ofBits bits
    (ofDouble .varint x = .ok (varint n) ↔ ∃ q, binary64? bits = some q ∧ n = Decimal.truncation q) ∧
    ((∃ a, ofDouble .bigint x = .ok (bigint a) ∧ a.toInt = n) ↔
      ofDouble .varint x = .ok (varint n) ∧ -2 ^ 63 ≤ n ∧ n < 2 ^ 63) ∧
    ((∃ a, ofDouble .int x = .ok (int a) ∧ a.toInt = n) ↔
      ofDouble .varint x = .ok (varint n) ∧ -2 ^ 31 ≤ n ∧ n < 2 ^ 31) ∧
    (toInt64 (double x) = .ok n ↔ ∃ a, ofDouble .bigint x = .ok (bigint a) ∧ a.toInt = n) ∧
    ((∃ m, ofDouble .varint x = .ok (varint m)) ∨ ∃ e, ofDouble .varint x = .error e ∧ e.kind = .invalidArgument) ∧
    ((∃ a, ofDouble .bigint x = .ok (bigint a)) ∨ ∃ e, ofDouble .bigint x = .error e ∧ e.kind = .invalidArgument) ∧
    ((∃ a, ofDouble .int x = .ok (int a)) ∨ ∃ e, ofDouble .int x = .error e ∧ e.kind = .invalidArgument) ∧
    ((∃ m, toInt64 (double x) = .ok m) ∨ ∃ e, toInt64 (double x) = .error e ∧ e.kind = .range) := by
  intro x
  obtain ⟨hvarint, hbigint, hint⟩ := ofDouble_cases x
  refine ⟨?_, ?_, ?_, ?_, hvarint.imp_right fun h => ⟨_, h, rfl⟩, hbigint.imp_right fun h => ⟨_, h, rfl⟩,
    hint.imp_right fun h => ⟨_, h, rfl⟩, (toInt64_double_cases x).imp_right fun h => ⟨_, h, rfl⟩⟩
  · rw [ofDouble_varint_eq_ok_iff, Binary.truncate?_ofBits, Option.map_eq_some_iff]
    simp only [eq_comm]
  · rw [ofDouble_bigint_eq_ok_iff, ofDouble_varint_eq_ok_iff]
  · rw [ofDouble_int_eq_ok_iff, ofDouble_varint_eq_ok_iff]
  · rw [toInt64_double_eq_ok_iff, ofDouble_bigint_eq_ok_iff]

/-- The greatest double below `2 ^ 63` has an integer of 64 bits. The next double is that power
itself and has only a varint; its negation is the least integer. -/
example : toInt64 (double (.ofBits 0x43DFFFFFFFFFFFFF)) = .ok 9223372036854774784 ∧
    toInt64 (double (.ofBits 0x43E0000000000000)) = .error (.arithmetic .tooBig) ∧
    ofDouble .varint (.ofBits 0x43E0000000000000) = .ok (varint 9223372036854775808) ∧
    toInt64 (double (.ofBits 0xC3E0000000000000)) = .ok (-9223372036854775808) := ⟨rfl, rfl, rfl, rfl⟩

end Scalar

end WideColumn
