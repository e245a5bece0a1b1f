import Mathlib
import WideColumn.Binary.Order
import WideColumn.Proofs.Order.Lawful
/-!
# The order of floating-point numbers

The order by value and then by pattern is the order of one integer, `Binary.place`:
magnitude patterns count up from zero to the infinity and NaN, and below the zeros
they count down. `Binary.order_eq` says so; a total order follows from it.
-/

namespace WideColumn

namespace BinaryFormat

variable (f : BinaryFormat)

/-- A format in which the infinities are not zeros and NaN has a pattern beside them. -/
structure Proper : Prop where
  two_le_precision : 2 ≤ f.precision
  one_le_exponentBits : 1 ≤ f.exponentBits

theorem proper_single : Proper .single := ⟨by decide, by decide⟩

theorem proper_double : Proper .double := ⟨by decide, by decide⟩

theorem exponentWeight_pos : 0 < f.exponentWeight := Nat.pow_pos (by decide)

/-! ## Units -/

theorem units_eq (m : Nat) :
    f.units m = if m / f.exponentWeight = 0 then m % f.exponentWeight
      else (m % f.exponentWeight + f.exponentWeight) * 2 ^ (m / f.exponentWeight - 1) := by
  simp only [units, Nat.shiftLeft_eq]

theorem units_lt (m : Nat) : f.units m < f.exponentWeight * 2 ^ (m / f.exponentWeight) := by
  have hr := Nat.mod_lt m f.exponentWeight_pos
  rw [units_eq]
  split
  · next h => rw [h]; simpa using hr
  · next h =>
    obtain ⟨q, hq⟩ := Nat.exists_eq_succ_of_ne_zero h
    have hp : 0 < 2 ^ q := Nat.pow_pos (by decide)
    rw [hq, Nat.succ_sub_one, pow_succ]
    nlinarith

theorem le_units {m k : Nat} (h : k < m / f.exponentWeight) : f.exponentWeight * 2 ^ k ≤ f.units m := by
  rw [units_eq, if_neg (by omega)]
  exact Nat.mul_le_mul (by omega) (Nat.pow_le_pow_right (by decide) (by omega))

/-- Larger magnitude patterns denote more units. -/
theorem units_strictMono : StrictMono f.units := by
  intro m n hmn
  -- either the exponents rise, or they are the same and the fractions rise
  rcases Nat.lt_or_eq_of_le (Nat.div_le_div_right (c := f.exponentWeight) hmn.le) with hq | hq
  · exact (f.units_lt m).trans_le (f.le_units hq)
  · have hr : m % f.exponentWeight < n % f.exponentWeight := by
      have hm := Nat.div_add_mod m f.exponentWeight
      have hn := Nat.div_add_mod n f.exponentWeight
      rw [hq] at hm
      omega
    rw [units_eq, units_eq, hq]
    split
    · exact hr
    · exact Nat.mul_lt_mul_of_pos_right (by omega) (Nat.pow_pos (by decide))

theorem units_zero : f.units 0 = 0 := by simp [units]

/-! ## Patterns -/

variable {f}

theorem infinity_pos (h : f.Proper) : 0 < f.infinity := by
  have : 2 ≤ 2 ^ f.exponentBits := by
    simpa using Nat.pow_le_pow_right (n := 2) (by decide) h.one_le_exponentBits
  exact Nat.mul_pos (by change 0 < 2 ^ f.exponentBits - 1; omega) f.exponentWeight_pos

theorem two_pow_width (h : f.Proper) : 2 ^ f.width = 2 * f.signWeight := by
  have := h.two_le_precision
  change 2 ^ f.width = 2 * 2 ^ (f.width - 1)
  rw [← pow_succ', Nat.sub_add_cancel (by unfold width; omega)]

/-- The pattern of NaN has no sign bit. -/
theorem quietNaN_lt (h : f.Proper) : f.infinity + Nat.pow 2 (f.precision - 2) < f.signWeight := by
  have hp := h.two_le_precision
  have half : Nat.pow 2 (f.precision - 2) < f.exponentWeight :=
    Nat.pow_lt_pow_right (by decide) (by omega)
  have whole : f.signWeight = 2 ^ f.exponentBits * f.exponentWeight := by
    change 2 ^ (f.width - 1) = 2 ^ f.exponentBits * 2 ^ (f.precision - 1)
    rw [← pow_add]
    congr 1
    unfold width
    omega
  have split : 2 ^ f.exponentBits * f.exponentWeight = f.infinity + f.exponentWeight := by
    have : 0 < 2 ^ f.exponentBits := Nat.pow_pos (by decide)
    change _ = (2 ^ f.exponentBits - 1) * f.exponentWeight + f.exponentWeight
    rw [Nat.sub_mul, Nat.one_mul, Nat.sub_add_cancel]
    exact Nat.le_mul_of_pos_left _ this
  omega

end BinaryFormat

namespace Binary

open BinaryFormat

variable {f : BinaryFormat}

/-- Place of a number in the order: magnitude patterns upward from zero, those with the
sign bit downward from minus one. -/
def place (x : Binary f) : Int := if x.negative then -(x.magnitude : Int) - 1 else x.magnitude

theorem magnitude_lt (x : Binary f) : x.magnitude < f.signWeight :=
  Nat.mod_lt _ (Nat.pow_pos (by decide))

/-- The pattern read as a signed integer. -/
theorem toInt_bits (h : f.Proper) (x : Binary f) :
    x.bits.toInt = if x.negative then (x.magnitude : Int) - f.signWeight else x.magnitude := by
  have hw := two_pow_width h
  have hlt : x.bits.toNat < 2 ^ f.width := x.bits.isLt
  rw [BitVec.toInt_eq_toNat_cond]
  simp only [negative, magnitude, BinaryFormat.negative, BinaryFormat.magnitude, decide_eq_true_eq]
  rw [hw] at hlt ⊢
  by_cases hs : f.signWeight ≤ x.bits.toNat
  · rw [if_neg (by omega), if_pos hs, Nat.mod_eq_sub_mod hs, Nat.mod_eq_of_lt (by omega)]
    omega
  · rw [if_pos (by omega), if_neg hs, Nat.mod_eq_of_lt (by omega)]

theorem negative_of_isNaN (h : f.Proper) {x : Binary f} (hx : f.infinity < x.magnitude) : x.negative = false := by
  have hlt := quietNaN_lt h
  have hb : x.bits.toNat = f.infinity + Nat.pow 2 (f.precision - 2) := by
    rw [x.canonical hx, quietNaN, BitVec.toNat_ofNat, Nat.mod_eq_of_lt]
    have := two_pow_width h
    omega
  simp only [negative, BinaryFormat.negative, decide_eq_false_iff_not, hb]
  omega

theorem signedUnits_units_lt (s t : Bool) (m n : Nat) :
    signedUnits s (f.units m) < signedUnits t (f.units n) ↔ signedUnits s m < signedUnits t n := by
  have mn := f.units_strictMono.lt_iff_lt (a := m) (b := n)
  have nm := f.units_strictMono.lt_iff_lt (a := n) (b := m)
  have m0 := f.units_strictMono.lt_iff_lt (a := 0) (b := m)
  have n0 := f.units_strictMono.lt_iff_lt (a := 0) (b := n)
  rw [units_zero] at m0 n0
  cases s <;> cases t <;> simp only [signedUnits, Bool.false_eq_true, if_true, if_false] <;> omega

/-- Less by value means less by signed magnitude pattern, and neither is NaN. -/
theorem lt_iff (h : f.Proper) (x y : Binary f) :
    x.lt y = true ↔ x.magnitude ≤ f.infinity ∧ y.magnitude ≤ f.infinity ∧
      signedUnits x.negative x.magnitude < signedUnits y.negative y.magnitude := by
  have hinf := infinity_pos h
  unfold lt datum
  -- below the pattern of infinity is finite, at it infinite, above it NaN
  rcases Nat.lt_trichotomy x.magnitude f.infinity with hx | hx | hx
  all_goals rcases Nat.lt_trichotomy y.magnitude f.infinity with hy | hy | hy
  · rw [if_neg (by omega), if_neg (by omega), if_neg (by omega), if_neg (by omega)]
    simp only [decide_eq_true_eq, signedUnits_units_lt]
    exact ⟨fun hlt => ⟨hx.le, hy.le, hlt⟩, fun hlt => hlt.2.2⟩
  · rw [if_neg (by omega), if_neg (by omega), if_neg (by omega), if_pos hy]
    cases x.negative <;> cases y.negative <;> simp [signedUnits] <;> omega
  · rw [if_neg (by omega), if_neg (by omega), if_pos hy]
    simp; omega
  · rw [if_neg (by omega), if_pos hx, if_neg (by omega), if_neg (by omega)]
    cases x.negative <;> cases y.negative <;> simp [signedUnits] <;> omega
  · rw [if_neg (by omega), if_pos hx, if_neg (by omega), if_pos hy]
    cases x.negative <;> cases y.negative <;> simp [signedUnits] <;> omega
  · rw [if_neg (by omega), if_pos hx, if_pos hy]
    simp; omega
  all_goals
    rw [if_pos hx]
    simp; omega

theorem place_lt_of_signedUnits_lt {x y : Binary f}
    (h : signedUnits x.negative x.magnitude < signedUnits y.negative y.magnitude) : x.place < y.place := by
  revert h
  unfold place signedUnits
  cases x.negative <;> cases y.negative <;> simp only [Bool.false_eq_true, if_true, if_false] <;> omega

/-- The order by value and then by pattern is the order by place. -/
theorem order_eq (h : f.Proper) (x y : Binary f) : x.order y = compare x.place y.place := by
  have hx := x.magnitude_lt
  have hy := y.magnitude_lt
  unfold order
  split
  · next hlt =>
    obtain ⟨-, -, hlt⟩ := (lt_iff h x y).1 hlt
    rw [eq_comm, Int.compare_eq_lt]
    exact place_lt_of_signedUnits_lt hlt
  · next hxy =>
    split
    · next hlt =>
      obtain ⟨-, -, hlt⟩ := (lt_iff h y x).1 hlt
      rw [eq_comm, Int.compare_eq_gt]
      exact place_lt_of_signedUnits_lt hlt
    · next hyx =>
      -- neither is less by value: what is left are zeros, NaN, and twice the same number
      rw [toInt_bits h, toInt_bits h]
      unfold place
      cases hnx : x.negative <;> cases hny : y.negative <;> simp only [Bool.false_eq_true, if_true, if_false]
      · rw [Int.compare_eq_gt.2 (by omega), Int.compare_eq_gt.2 (by omega)]
      · rw [Int.compare_eq_lt.2 (by omega), Int.compare_eq_lt.2 (by omega)]
      · have nx : x.magnitude ≤ f.infinity := not_lt.1 fun hn => by simp [negative_of_isNaN h hn] at hnx
        have ny : y.magnitude ≤ f.infinity := not_lt.1 fun hn => by simp [negative_of_isNaN h hn] at hny
        rw [lt_iff h, hnx, hny] at hxy hyx
        simp only [signedUnits, if_true] at hxy hyx
        have same : x.magnitude = y.magnitude := by omega
        rw [same]
        simp

theorem place_injective (h : f.Proper) : Function.Injective (place (f := f)) := by
  intro x y hxy
  have bits : x.bits.toInt = y.bits.toInt := by
    rw [toInt_bits h, toInt_bits h]
    revert hxy
    unfold place
    cases x.negative <;> cases y.negative <;> simp only [Bool.false_eq_true, if_true, if_false] <;> omega
  obtain ⟨b, _⟩ := x
  obtain ⟨c, _⟩ := y
  obtain rfl := BitVec.eq_of_toInt_eq bits
  rfl

/-- Numbers are totally ordered, and only equal patterns compare equal. -/
theorem lawfulAt_order (h : f.Proper) (x : Binary f) : LawfulAt Binary.order x := by
  have heq : (Binary.order : Binary f → Binary f → Ordering) = fun x y => compare x.place y.place :=
    funext fun x => funext (order_eq h x)
  rw [heq]
  exact .on (place_injective h) (.ofOrd _)

end Binary

end WideColumn
