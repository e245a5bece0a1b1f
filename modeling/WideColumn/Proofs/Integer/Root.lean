import Mathlib
import WideColumn.Error
import WideColumn.Varint
import WideColumn.Proofs.Binary.Rounding
import WideColumn.Proofs.Except
import WideColumn.Proofs.Integer.Checked
/-!
# Square roots by correcting an estimate

The root of a number is estimated in doubles, and the estimate is then lowered and raised one
by one. Without bounds the two loops are a minimum and a maximum with the root
(`lowerRoot_eq`, `raiseRoot_eq`), so the estimate decides how long they take and nothing else
(`rootFrom_eq`). In words of 128 bits they are the turns of a machine (`Correction`) that stops
at an overflow, and every turn is that of the numbers as long as these have few enough bits.
How high the estimate can be (`rootEstimate_le`) follows from the rounding of doubles alone.
-/

namespace WideColumn.Integer

/-! ## The corrected estimate -/

theorem lowerRoot_eq (v r : Nat) : lowerRoot v r = min r v.sqrt := by
  induction r with
  | zero => simp [lowerRoot]
  | succ r ih =>
    rw [lowerRoot]
    split
    · next h =>
      have hlt : v.sqrt < r + 1 := Nat.sqrt_lt.2 h
      omega
    · next h =>
      have hle : r + 1 ≤ v.sqrt := Nat.le_sqrt.2 (Nat.le_of_not_lt h)
      omega

theorem raiseRoot_eq (v r : Nat) : raiseRoot v r = max r v.sqrt := by
  fun_induction raiseRoot v r with
  | case1 r h ih =>
    have hle : r + 1 ≤ v.sqrt := Nat.le_sqrt.2 h
    omega
  | case2 r h =>
    have hlt : v.sqrt < r + 1 := Nat.sqrt_lt.2 (Nat.lt_of_not_le h)
    omega

/-- Whatever the estimate, what comes of it is the root. -/
theorem rootFrom_eq (estimate v : Nat) : rootFrom estimate v = v.sqrt := by
  rw [rootFrom, raiseRoot_eq, lowerRoot_eq]
  omega

/-! ## The loops in words -/

/-- An estimate under correction: it is lowered, then raised, and then it is the root. -/
inductive Correction where
  | lowering (root : BitVec 128)
  | raising (root : BitVec 128)
  | done (root : BitVec 128)

namespace Correction

/-- One turn of a loop, or the end of it, in checked arithmetic. -/
def turn (v : BitVec 128) : Correction → Except ArithmeticError Correction
  | lowering root => do
    if v.toInt < (← mul root root).toInt then return lowering (← sub root 1) else return raising root
  | raising root => do
    let next ← add root 1
    if (← mul next next).toInt ≤ v.toInt then return raising next else return done root
  | done root => .ok (done root)

def turns (v : BitVec 128) : Nat → Correction → Except ArithmeticError Correction
  | 0, c => .ok c
  | n + 1, c => turn v c >>= turns v n

/-- The word of a number, which is below `2 ^ 127`. -/
def word (n : Nat) : BitVec 128 := BitVec.ofInt 128 n

theorem toInt_word {n : Nat} (h : n < 2 ^ 127) : (word n).toInt = n := by
  apply toInt_ofInt_of_fits (by decide)
  rw [fits_iff]
  omega

variable {v r : Nat}

theorem mul_word {m n : Nat} (hm : m < 2 ^ 63) (hn : n < 2 ^ 63) : mul (word m) (word n) = .ok (word (m * n)) := by
  have h : m * n < 2 ^ 126 := by
    calc m * n < 2 ^ 63 * 2 ^ 63 := Nat.mul_lt_mul'' hm hn
      _ = 2 ^ 126 := by norm_num
  rw [mul_eq_ok_iff, toInt_word (by omega), toInt_word (by omega), toInt_word (by omega)]
  push_cast
  rfl

theorem add_word (h : r < 2 ^ 63) : add (word r) 1 = .ok (word (r + 1)) := by
  rw [add_eq_ok_iff, toInt_word (by omega), toInt_word (by omega)]
  rfl

theorem sub_word (h : r < 2 ^ 63) : sub (word (r + 1)) 1 = .ok (word r) := by
  rw [sub_eq_ok_iff, toInt_word (by omega), toInt_word (by omega)]
  push_cast
  exact (Int.add_sub_cancel _ _).symm

/-! ### One turn -/

theorem lt_square_word (hv : v < 2 ^ 63) (hr : r < 2 ^ 63) : (word v).toInt < (word (r * r)).toInt ↔ v.sqrt < r := by
  have h : r * r < 2 ^ 126 := by
    calc r * r < 2 ^ 63 * 2 ^ 63 := Nat.mul_lt_mul'' hr hr
      _ = 2 ^ 126 := by norm_num
  rw [toInt_word (by omega), toInt_word (by omega), Int.ofNat_lt, Nat.sqrt_lt]

theorem turn_lowering (hv : v < 2 ^ 63) (hr : r < 2 ^ 63) :
    turn (word v) (lowering (word r)) =
      if v.sqrt < r then .ok (lowering (word (r - 1))) else .ok (raising (word r)) := by
  simp only [turn, mul_word hr hr, Except.ok_bind, lt_square_word hv hr]
  by_cases h : v.sqrt < r
  · obtain ⟨k, rfl⟩ : ∃ k, r = k + 1 := ⟨r - 1, by omega⟩
    rw [if_pos h, if_pos h, sub_word (by omega)]
    rfl
  · rw [if_neg h, if_neg h]
    rfl

theorem turn_raising (hv : v < 2 ^ 63) (hr : r + 1 < 2 ^ 63) :
    turn (word v) (raising (word r)) =
      if r < v.sqrt then .ok (raising (word (r + 1))) else .ok (done (word r)) := by
  have hguard : (word ((r + 1) * (r + 1))).toInt ≤ (word v).toInt ↔ r < v.sqrt := by
    rw [← Int.not_lt, lt_square_word hv hr]
    omega
  simp only [turn, add_word (Nat.lt_of_succ_lt hr), mul_word hr hr, Except.ok_bind, hguard]
  by_cases h : r < v.sqrt
  · rw [if_pos h, if_pos h]
    rfl
  · rw [if_neg h, if_neg h]
    rfl

/-! ### The whole run -/

theorem turns_succ {n : Nat} {w : BitVec 128} {c c' : Correction} (h : turn w c = .ok c') :
    turns w (n + 1) c = turns w n c' := by
  rw [turns, h]
  rfl

/-- Turn by turn an estimate above the root comes down to it. -/
theorem turns_lowering (hv : v < 2 ^ 63) (hr : r < 2 ^ 63) (n : Nat) :
    turns (word v) (r - v.sqrt + 1 + n) (lowering (word r)) = turns (word v) n (raising (word (min r v.sqrt))) := by
  induction r with
  | zero =>
    have hstop : turn (word v) (lowering (word 0)) = .ok (raising (word 0)) := by
      rw [turn_lowering hv hr, if_neg (Nat.not_lt_zero _)]
    rw [Nat.zero_sub, Nat.zero_add, Nat.add_comm, turns_succ hstop, Nat.zero_min]
  | succ r ih =>
    have hturn := turn_lowering hv hr
    by_cases h : v.sqrt < r + 1
    · rw [if_pos h, Nat.add_sub_cancel] at hturn
      rw [show r + 1 - v.sqrt + 1 + n = r - v.sqrt + 1 + n + 1 by omega, turns_succ hturn, ih (by omega)]
      rw [show min r v.sqrt = min (r + 1) v.sqrt by omega]
    · rw [if_neg h] at hturn
      rw [show r + 1 - v.sqrt + 1 + n = n + 1 by omega, turns_succ hturn, Nat.min_eq_left (by omega)]

/-- Turn by turn an estimate that is not above the root comes up to it. -/
theorem turns_raising (hv : v < 2 ^ 63) (hr : r ≤ v.sqrt) :
    turns (word v) (v.sqrt - r + 1) (raising (word r)) = .ok (done (word v.sqrt)) := by
  have hroot : v.sqrt < 2 ^ 62 := Nat.sqrt_lt.2 (by omega)
  induction hk : v.sqrt - r generalizing r with
  | zero =>
    obtain rfl : r = v.sqrt := by omega
    have hturn := turn_raising hv (r := v.sqrt) (by omega)
    rw [if_neg (lt_irrefl _)] at hturn
    rw [turns_succ hturn]
    rfl
  | succ k ih =>
    have hturn := turn_raising hv (r := r) (by omega)
    rw [if_pos (by omega)] at hturn
    rw [turns_succ hturn]
    exact ih (by omega) (by omega)

/-- The loops end, no word overflows on the way, and what is left is the root. -/
theorem turns_word (hv : v < 2 ^ 63) (hr : r < 2 ^ 63) :
    turns (word v) (r - v.sqrt + (v.sqrt - r) + 2) (lowering (word r)) = .ok (done (word v.sqrt)) := by
  have hsplit : r - v.sqrt + (v.sqrt - r) + 2 = r - v.sqrt + 1 + (v.sqrt - min r v.sqrt + 1) := by omega
  rw [hsplit, turns_lowering hv hr, turns_raising hv (Nat.min_le_right _ _)]

end Correction

/-! ## The exact root -/

/-- The floor of the square root of `v`. -/
def IsRoot (v root : Int) : Prop := 0 ≤ root ∧ root * root ≤ v ∧ v < (root + 1) * (root + 1)

theorem isRoot_iff {v : Nat} {root : Int} : IsRoot v root ↔ root = v.sqrt := by
  constructor
  · rintro ⟨hnonneg, hle, hlt⟩
    obtain ⟨r, rfl⟩ := Int.eq_ofNat_of_zero_le hnonneg
    have hr : r = v.sqrt := Nat.eq_sqrt.2 ⟨by exact_mod_cast hle, by exact_mod_cast hlt⟩
    rw [hr]
  · rintro rfl
    obtain ⟨hle, hlt⟩ := Nat.eq_sqrt.1 (Eq.refl v.sqrt)
    exact ⟨Int.natCast_nonneg _, by exact_mod_cast hle, by exact_mod_cast hlt⟩

/-! ## The estimate of the program -/

theorem unitExponent_double : BinaryFormat.double.unitExponent = -1074 := by decide

/-- As a double a number of 63 bits is at most `2 ^ 63`, which is `2 ^ 1137` units. -/
theorem exists_datum_ofInt {v : Nat} (hv : v < 2 ^ 63) :
    ∃ n ≤ 2 ^ 1137, (Binary.ofInt v : Double).datum = .finite false n := by
  have hf := BinaryFormat.proper_double
  have hunit := unitExponent_double
  have hbits := TwosComplement.bitLength_le hv
  have hle : BinaryFormat.double.nearest v 0 false ≤ BinaryFormat.double.power 1137 :=
    BinaryFormat.nearest_le hf false (by decide) (by omega)
  have hunits := BinaryFormat.units_le_of_le_power hf (by decide) hle
  exact ⟨_, hunits, Binary.datum_ofMagnitude hf false (hle.trans_lt (by decide))⟩

/-- The root of such a double is at most `2 ^ 32`, which is `2 ^ 1106` units. -/
theorem exists_sqrt_datum {x : Double} {n : Nat} (hn : n ≤ 2 ^ 1137) (hx : x.datum = .finite false n) :
    ∃ root : Double, x.sqrt = .ok root ∧ ∃ m ≤ 2 ^ 1106, root.datum = .finite false m := by
  have hf := BinaryFormat.proper_double
  have hunit := unitExponent_double
  unfold Binary.sqrt
  rw [hx]
  by_cases hzero : n = 0
  · simp only [hzero, if_true]
    exact ⟨x, rfl, 0, Nat.zero_le _, hzero ▸ hx⟩
  · simp only [hzero, if_false, Bool.false_eq_true]
    have hbits := TwosComplement.bitLength_le_succ hn
    have hle : BinaryFormat.double.nearestRoot n BinaryFormat.double.unitExponent ≤ BinaryFormat.double.power 1106 :=
      BinaryFormat.nearestRoot_le hf (k := 32) (by decide) (by omega) (by omega)
    have hunits := BinaryFormat.units_le_of_le_power hf (by decide) hle
    exact ⟨_, rfl, _, hunits, Binary.datum_ofMagnitude hf false (hle.trans_lt (by decide))⟩

theorem rootEstimate_le {v : Nat} (hv : v < 2 ^ 63) : rootEstimate v ≤ 2 ^ 32 := by
  obtain ⟨n, hn, hnumber⟩ := exists_datum_ofInt hv
  obtain ⟨root, hsqrt, m, hm, hroot⟩ := exists_sqrt_datum hn hnumber
  have hplaces : (-BinaryFormat.double.unitExponent).toNat = 1074 := by decide
  simp only [rootEstimate, hsqrt]
  rw [Binary.whole_of_datum (by decide) hroot, hplaces, Int.toNat_natCast]
  calc m / 2 ^ 1074 ≤ 2 ^ 1106 / 2 ^ 1074 := Nat.div_le_div_right hm
    _ = 2 ^ 32 := by rw [Nat.pow_div (by decide) (by decide)]

/-! ## Roots of words -/

/-- The root of a word is a word of the same width. -/
theorem exists_sqrt_eq {w : Nat} (hw : 0 < w) {a : BitVec w} (h : 0 ≤ a.toInt) :
    ∃ root, sqrt a = .ok root ∧ root.toInt = a.toInt.toNat.sqrt := by
  refine ⟨BitVec.ofNat w a.toInt.toNat.sqrt, ?_, ?_⟩
  · rw [sqrt, if_neg (Int.not_lt.2 h), rootFrom_eq]
  · obtain ⟨-, hupper⟩ := fits_iff.1 (fits_toInt a)
    have hle := Nat.sqrt_le_self a.toInt.toNat
    rw [← BitVec.ofInt_natCast]
    exact toInt_ofInt_of_fits hw (fits_iff.2 (by omega))

/-- In words of 128 bits the loops come to an end without an overflow from any estimate up to
`2 ^ 62`, the one that is used among them, for any number of 64 bits. They leave its only
root, which is that of `rootFrom`. So the square root of a word is the exact root, as it is
without bounds, and there is none just for the numbers below zero. -/
theorem roots_exact :
    (∀ v estimate : BitVec 128, 0 ≤ v.toInt → v.toInt ≤ greatest 64 → 0 ≤ estimate.toInt → estimate.toInt ≤ 2 ^ 62 →
      ∃ root : BitVec 128, (∀ r, IsRoot v.toInt r ↔ r = root.toInt) ∧
        Correction.turns v ((estimate.toInt - root.toInt).natAbs + 2) (.lowering estimate) = .ok (.done root) ∧
        rootFrom estimate.toInt.toNat v.toInt.toNat = root.toInt) ∧
    (∀ v : Nat, v ≤ greatest 64 → rootEstimate v ≤ 2 ^ 62) ∧
    ∀ (w : Nat) (a : BitVec w), 0 < w →
      if 0 ≤ a.toInt then
        ∃ root, sqrt a = .ok root ∧ IsRoot a.toInt root.toInt ∧ Varint.sqrt a.toInt = .ok root.toInt
      else ∃ e, sqrt a = .error e ∧ (Error.arithmetic e).kind = .range := by
  have hgreatest : greatest 64 = 2 ^ 63 - 1 := by decide
  refine ⟨?loops, ?estimate, ?words⟩
  case loops =>
    intro v estimate hv hmax hestimate hbound
    have hword (a : BitVec 128) (ha : 0 ≤ a.toInt) : a = Correction.word a.toInt.toNat := by
      rw [Correction.word, Int.toNat_of_nonneg ha, BitVec.ofInt_toInt]
    have hroot := Nat.sqrt_le_self v.toInt.toNat
    have hword_root := Correction.toInt_word (n := v.toInt.toNat.sqrt) (by omega)
    refine ⟨Correction.word v.toInt.toNat.sqrt, fun r => ?_, ?_, ?_⟩
    · rw [hword_root, ← isRoot_iff, Int.toNat_of_nonneg hv]
    · have hturns := Correction.turns_word (v := v.toInt.toNat) (r := estimate.toInt.toNat) (by omega) (by omega)
      rw [← hword v hv, ← hword estimate hestimate] at hturns
      rw [hword_root, ← hturns]
      congr 1
      omega
    · rw [hword_root, rootFrom_eq]
  case estimate =>
    intro v hv
    have := rootEstimate_le (v := v) (by omega)
    omega
  case words =>
    intro w a hw
    split
    · next h =>
      obtain ⟨root, hsqrt, hroot⟩ := exists_sqrt_eq hw h
      refine ⟨root, hsqrt, ?_, ?_⟩
      · rw [← Int.toNat_of_nonneg h, isRoot_iff]
        exact hroot
      · rw [Varint.sqrt, if_neg (Int.not_lt.2 h), hroot]
    · next h => exact ⟨.negativeRoot, by rw [sqrt, if_pos (Int.not_le.1 h)], rfl⟩

/-- For the greatest number of 64 bits an estimate that is one too high. -/
theorem roots_exact_greatest :
    Correction.turns (BitVec.ofInt 128 (greatest 64)) 3 (.lowering 3037000500) = .ok (.done 3037000499) := by
  obtain ⟨loops, -⟩ := roots_exact
  obtain ⟨root, unique, turns, -⟩ :=
    loops (BitVec.ofInt 128 (greatest 64)) 3037000500 (by decide) (by decide) (by decide) (by decide)
  have hroot : 3037000499 = root.toInt := (unique 3037000499).1 ⟨by decide, by decide, by decide⟩
  obtain rfl : (3037000499 : BitVec 128) = root := BitVec.toInt_inj.1 (by rw [← hroot]; decide)
  exact turns

end WideColumn.Integer
