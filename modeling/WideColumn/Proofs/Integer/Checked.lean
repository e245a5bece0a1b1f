import Mathlib.Tactic
import WideColumn.Integer
/-!
# Checked arithmetic of words

An operation on words gives the word of the exact result. If there is no such word it is
refused, and a word exists for just the integers in the range of its width.
-/

namespace WideColumn.Integer

variable {w : Nat}

/-! ## The range of a width -/

theorem fits_iff {n : Int} : Fits w n ↔ -2 ^ (w - 1) ≤ n ∧ n < 2 ^ (w - 1) := by
  have hpow : ((Nat.pow 2 (w - 1) : Nat) : Int) = 2 ^ (w - 1) := Nat.cast_pow 2 (w - 1)
  rw [Fits, least, greatest, hpow, Int.le_sub_one_iff]

theorem fits_toInt (a : BitVec w) : Fits w a.toInt :=
  fits_iff.2 ⟨BitVec.le_toInt a, BitVec.toInt_lt⟩

theorem toInt_eq_zero_iff {a : BitVec w} : a.toInt = 0 ↔ a = 0 := by
  rw [← BitVec.toInt_inj]
  simp

theorem toInt_intMin (hw : 0 < w) : (BitVec.intMin w).toInt = -2 ^ (w - 1) := by
  rw [BitVec.toInt_intMin, Nat.mod_eq_of_lt (Nat.pow_lt_pow_right (by decide) (by omega))]
  push_cast
  rfl

theorem toInt_ofInt_of_fits {n : Int} (hw : 0 < w) (h : Fits w n) : (BitVec.ofInt w n).toInt = n := by
  obtain ⟨hlower, hupper⟩ := fits_iff.1 h
  exact BitVec.toInt_ofInt_eq_self hw hlower hupper

/-- Just the integers of the range have words. -/
theorem exists_toInt_eq_iff {n : Int} (hw : 0 < w) : (∃ a : BitVec w, a.toInt = n) ↔ Fits w n := by
  constructor
  · rintro ⟨a, rfl⟩
    exact fits_toInt a
  · exact fun h => ⟨BitVec.ofInt w n, toInt_ofInt_of_fits hw h⟩

theorem ofInt?_eq_some_iff {n : Int} {a : BitVec w} (hw : 0 < w) : ofInt? w n = some a ↔ a.toInt = n := by
  unfold ofInt?
  constructor
  · intro h
    obtain ⟨hfits, ha⟩ := Option.ite_none_right_eq_some.1 h
    rw [← Option.some.inj ha, toInt_ofInt_of_fits hw hfits]
  · rintro rfl
    rw [if_pos (fits_toInt a), BitVec.ofInt_toInt]

/-! ## Operations -/

theorem fitting_eq_ok_iff {overflow : Bool} {result a : BitVec w} {n : Int} (hexact : ¬overflow → result.toInt = n)
    (hover : overflow → ¬Fits w n) : fitting overflow result = .ok a ↔ a.toInt = n := by
  unfold fitting
  by_cases h : overflow = true
  · rw [if_pos h]
    simp only [reduceCtorEq, false_iff]
    rintro rfl
    exact hover h (fits_toInt a)
  · rw [if_neg h, Except.ok.injEq, ← hexact h, BitVec.toInt_inj, eq_comm]

section Overflow

variable {a b : BitVec w}

/-! An operation that wraps has an exact result outside the range. -/

theorem not_fits_add (h : a.saddOverflow b) : ¬Fits w (a.toInt + b.toInt) := by
  intro hfits
  obtain ⟨hlower, hupper⟩ := fits_iff.1 hfits
  simp [BitVec.saddOverflow] at h
  omega

theorem not_fits_sub (h : a.ssubOverflow b) : ¬Fits w (a.toInt - b.toInt) := by
  intro hfits
  obtain ⟨hlower, hupper⟩ := fits_iff.1 hfits
  simp [BitVec.ssubOverflow] at h
  omega

theorem not_fits_mul (h : a.smulOverflow b) : ¬Fits w (a.toInt * b.toInt) := by
  intro hfits
  obtain ⟨hlower, hupper⟩ := fits_iff.1 hfits
  simp [BitVec.smulOverflow] at h
  omega

theorem not_fits_tdiv (hw : 0 < w) (h : (a == BitVec.intMin w && b == BitVec.allOnes w) = true) :
    ¬Fits w (a.toInt.tdiv b.toInt) := by
  simp only [Bool.and_eq_true, beq_iff_eq] at h
  obtain ⟨rfl, rfl⟩ := h
  rw [BitVec.toInt_allOnes, if_pos hw, Int.tdiv_neg, Int.tdiv_one, toInt_intMin hw, fits_iff]
  omega

theorem not_fits_natAbs (hw : 0 < w) (h : a = BitVec.intMin w) : ¬Fits w a.toInt.natAbs := by
  rw [h, toInt_intMin hw, fits_iff]
  omega

theorem not_fits_neg (h : a.negOverflow) : ¬Fits w (-a.toInt) := by
  rw [BitVec.negOverflow, beq_iff_eq] at h
  rw [h, fits_iff]
  omega

end Overflow

theorem add_eq_ok_iff {a b c : BitVec w} : add a b = .ok c ↔ c.toInt = a.toInt + b.toInt :=
  fitting_eq_ok_iff BitVec.toInt_add_of_not_saddOverflow not_fits_add

theorem sub_eq_ok_iff {a b c : BitVec w} : sub a b = .ok c ↔ c.toInt = a.toInt - b.toInt :=
  fitting_eq_ok_iff BitVec.toInt_sub_of_not_ssubOverflow not_fits_sub

theorem mul_eq_ok_iff {a b c : BitVec w} : mul a b = .ok c ↔ c.toInt = a.toInt * b.toInt :=
  fitting_eq_ok_iff BitVec.toInt_mul_of_not_smulOverflow not_fits_mul

/-! ## Remainders -/

theorem abs_tmod_lt {m n : Int} (hn : n ≠ 0) : |m.tmod n| < |n| := by
  have hlt := Nat.mod_lt m.natAbs (Int.natAbs_pos.2 hn)
  have habs := Int.natAbs_tmod m n
  rw [Int.abs_eq_natAbs, Int.abs_eq_natAbs]
  omega

theorem tmod_sign (m n : Int) : m.tmod n = 0 ∨ (0 < m.tmod n ∧ 0 < m) ∨ (m.tmod n < 0 ∧ m < 0) := by
  by_cases hm : 0 ≤ m
  · have := Int.tmod_nonneg n hm
    have hzero : m = 0 → m.tmod n = 0 := by rintro rfl; exact Int.zero_tmod n
    omega
  · have := Int.tmod_nonneg n (show 0 ≤ -m by omega)
    rw [Int.neg_tmod] at this
    omega

end WideColumn.Integer
