import WideColumn.Proofs.Integer.Root
import WideColumn.Value.Arithmetic
/-!
# Words as integers that fit

Arithmetic in a type of a fixed width is that of integers without bounds, as long as the
results fit (`Value.Narrowed`): a result that is a word is the result in words, any other is
refused as out of range, and what is refused without bounds is refused in words.
-/

namespace WideColumn

/-- The types of integers of a fixed width. -/
inductive WordType where
  | int | bigint | counter

namespace WordType

def width : WordType → Nat
  | int => 32
  | bigint | counter => 64

theorem width_pos (t : WordType) : 0 < t.width := by
  cases t <;> decide

/-- The value of the type that a word stands for. -/
def value : (t : WordType) → BitVec t.width → Value
  | int, a => .scalar (.int a)
  | bigint, a => .scalar (.bigint a)
  | counter, a => .scalar (.counter a)

end WordType

namespace Value

/-- An integer without bounds. -/
def integer (n : Int) : Value := scalar (.varint n)

theorem integer_injective : Function.Injective integer := fun _ _ h => Scalar.varint.inj (scalar.inj h)

/-- What arithmetic gives, as a value. -/
def ofArithmetic {α : Type} (make : α → Value) (r : Except ArithmeticError α) : Except Error Value :=
  (r.map make).mapError .arithmetic

theorem map_ofResult {α : Type} (make : α → Scalar) (r : Except ArithmeticError α) :
    (Scalar.ofResult make r).map scalar = ofArithmetic (fun a => scalar (make a)) r := by
  cases r <;> rfl

variable {t : WordType}

theorem binary_word (op : BinaryOp) (a b : BitVec t.width) :
    binary op (t.value a) (t.value b) = ofArithmetic t.value (Integer.binary op a b) := by
  cases t with
  | int | bigint | counter => exact map_ofResult _ _

theorem unary_word (op : UnaryOp) (a : BitVec t.width) :
    unary op (t.value a) = ofArithmetic t.value (Integer.unary op a) := by
  cases t with
  | int | bigint | counter => exact map_ofResult _ _

theorem binary_integer (op : BinaryOp) (m n : Int) :
    binary op (integer m) (integer n) = ofArithmetic integer (Varint.binary op m n) := map_ofResult _ _

theorem unary_integer (op : UnaryOp) (n : Int) : unary op (integer n) = ofArithmetic integer (Varint.unary op n) :=
  map_ofResult _ _

/-- What arithmetic without bounds gives for `m` and `n`, operation by operation. Quotients are
cut off toward zero, and remainders are those of such quotients. -/
structure Unbounded (m n : Int) : Prop where
  add : binary .add (integer m) (integer n) = .ok (integer (m + n))
  sub : binary .sub (integer m) (integer n) = .ok (integer (m - n))
  mul : binary .mul (integer m) (integer n) = .ok (integer (m * n))
  div : n ≠ 0 → binary .div (integer m) (integer n) = .ok (integer (m.tdiv n))
  modulo : n ≠ 0 → binary .modulo (integer m) (integer n) = .ok (integer (m.tmod n))
  div_zero : n = 0 → binary .div (integer m) (integer n) = .error (.arithmetic .divisionByZero)
  modulo_zero : n = 0 → binary .modulo (integer m) (integer n) = .error (.arithmetic .moduloByZero)
  abs : unary .abs (integer m) = .ok (integer |m|)
  neg : unary .neg (integer m) = .ok (integer (-m))
  sqrt : 0 ≤ m → unary .sqrt (integer m) = .ok (integer m.toNat.sqrt)
  sqrt_neg : m < 0 → unary .sqrt (integer m) = .error (.arithmetic .negativeRoot)

theorem unbounded (m n : Int) : Unbounded m n where
  add := binary_integer .add m n
  sub := binary_integer .sub m n
  mul := binary_integer .mul m n
  div h := by rw [binary_integer, Varint.binary, Varint.div, if_neg h]; rfl
  modulo h := by rw [binary_integer, Varint.binary, Varint.modulo, if_neg h]; rfl
  div_zero h := by rw [binary_integer, Varint.binary, Varint.div, if_pos h]; rfl
  modulo_zero h := by rw [binary_integer, Varint.binary, Varint.modulo, if_pos h]; rfl
  abs := by rw [unary_integer, Varint.unary, Int.abs_eq_natAbs]; rfl
  neg := unary_integer .neg m
  sqrt h := by rw [unary_integer, Varint.unary, Varint.sqrt, if_neg h.not_gt]; rfl
  sqrt_neg h := by rw [unary_integer, Varint.unary, Varint.sqrt, if_pos h]; rfl

/-- `Narrowed t wide narrow`: where integers without bounds give `wide`, words of the type
`t` give `narrow`. -/
inductive Narrowed (t : WordType) : Except Error Value → Except Error Value → Prop where
  /-- A result that is a word. -/
  | word (a : BitVec t.width) : Narrowed t (.ok (integer a.toInt)) (.ok (t.value a))
  /-- Any other result. -/
  | outside {n : Int} {e : Error} (hn : ¬Integer.Fits t.width n) (he : e.kind = .range) :
    Narrowed t (.ok (integer n)) (.error e)
  /-- No result. -/
  | refused (e : Error) : Narrowed t (.error e) (.error e)

theorem Narrowed.of_toInt {a : BitVec t.width} {n : Int} (h : a.toInt = n) : Narrowed t (.ok (integer n)) (.ok (t.value a)) :=
  h ▸ .word a

theorem narrowed_fitting {overflow : Bool} {result : BitVec t.width} {n : Int} (hexact : ¬overflow → result.toInt = n)
    (hover : overflow → ¬Integer.Fits t.width n) :
    Narrowed t (ofArithmetic integer (.ok n)) (ofArithmetic t.value (Integer.fitting overflow result)) := by
  unfold Integer.fitting
  by_cases h : overflow = true
  · rw [if_pos h]
    exact .outside (hover h) rfl
  · rw [if_neg h]
    exact .of_toInt (hexact h)

theorem narrowed_binary (op : BinaryOp) (a b : BitVec t.width) :
    Narrowed t (binary op (integer a.toInt) (integer b.toInt)) (binary op (t.value a) (t.value b)) := by
  rw [binary_word, binary_integer]
  have hzero : b.toInt = 0 ↔ b = 0 := Integer.toInt_eq_zero_iff
  cases op with
  | add => exact narrowed_fitting BitVec.toInt_add_of_not_saddOverflow Integer.not_fits_add
  | sub => exact narrowed_fitting BitVec.toInt_sub_of_not_ssubOverflow Integer.not_fits_sub
  | mul => exact narrowed_fitting BitVec.toInt_mul_of_not_smulOverflow Integer.not_fits_mul
  | div =>
    simp only [Integer.binary, Varint.binary, Integer.div, Varint.div, hzero]
    split
    · exact .refused _
    · refine narrowed_fitting (fun h => BitVec.toInt_sdiv_of_ne_or_ne _ _ ?_) (Integer.not_fits_tdiv t.width_pos)
      rw [BitVec.neg_one_eq_allOnes, ← not_and_or]
      simpa using h
  | modulo =>
    simp only [Integer.binary, Varint.binary, Integer.modulo, Varint.modulo, hzero]
    split
    · exact .refused _
    · exact .of_toInt (BitVec.toInt_srem a b)

theorem narrowed_unary (op : UnaryOp) (a : BitVec t.width) :
    Narrowed t (unary op (integer a.toInt)) (unary op (t.value a)) := by
  rw [unary_word, unary_integer]
  cases op with
  | abs =>
    simp only [Integer.unary, Varint.unary, Integer.abs]
    split
    · next h => exact .outside (Integer.not_fits_natAbs t.width_pos h) rfl
    · next h => exact .of_toInt (BitVec.toInt_abs_eq_natAbs_of_ne_intMin h)
  | neg => exact narrowed_fitting BitVec.toInt_neg_of_not_negOverflow Integer.not_fits_neg
  | sqrt =>
    simp only [Integer.unary, Varint.unary, Varint.sqrt]
    split
    · next h =>
      rw [Integer.sqrt, if_pos h]
      exact .refused _
    · next h =>
      obtain ⟨root, hsqrt, hroot⟩ := Integer.exists_sqrt_eq t.width_pos (Int.not_lt.1 h)
      rw [hsqrt]
      exact .of_toInt hroot

/-! ## Quotients and remainders -/

theorem Narrowed.of_ok {wide : Except Error Value} {v : Value} (h : Narrowed t wide (.ok v)) :
    ∃ a, v = t.value a ∧ wide = .ok (integer a.toInt) := by
  cases h with
  | word a => exact ⟨a, rfl, rfl⟩

theorem modulo_word (a : BitVec t.width) {b : BitVec t.width} (hb : b.toInt ≠ 0) :
    binary .modulo (t.value a) (t.value b) = .ok (t.value (a.srem b)) := by
  rw [binary_word, Integer.binary, Integer.modulo, if_neg (fun h => hb (Integer.toInt_eq_zero_iff.2 h))]
  rfl

theorem toInt_of_div {a b : BitVec t.width} {v : Value} (h : binary .div (t.value a) (t.value b) = .ok v) :
    b.toInt ≠ 0 ∧ ∃ q, v = t.value q ∧ q.toInt = a.toInt.tdiv b.toInt := by
  obtain ⟨q, rfl, hq⟩ := (h ▸ narrowed_binary .div a b).of_ok
  by_cases hb : b.toInt = 0
  · rw [(unbounded _ _).div_zero hb] at hq
    cases hq
  · rw [(unbounded _ _).div hb] at hq
    exact ⟨hb, q, rfl, (integer_injective (Except.ok.inj hq)).symm⟩

/-- `Division a b q r`: divided by `b`, `a` is `q` with the remainder `r`. -/
structure Division (a b q r : Int) : Prop where
  whole : a = q * b + r
  small : |r| < |b|
  sign : r = 0 ∨ (0 < r ∧ 0 < a) ∨ (r < 0 ∧ a < 0)

theorem division_tdiv {a b : Int} (hb : b ≠ 0) : Division a b (a.tdiv b) (a.tmod b) where
  whole := (Int.tdiv_mul_add_tmod a b).symm
  small := Integer.abs_tmod_lt hb
  sign := Integer.tmod_sign a b

/-- Every operation on words of a type comes out as it does without bounds, as far as its
results fit, and without bounds it is that of the integers. So wherever words have a quotient, it and their remainder are those of a
division, and remainders are only refused for a divisor of zero. -/
theorem arithmetic_narrowed (t : WordType) (a b : BitVec t.width) :
    (∀ op, Narrowed t (binary op (integer a.toInt) (integer b.toInt)) (binary op (t.value a) (t.value b))) ∧
    (∀ op, Narrowed t (unary op (integer a.toInt)) (unary op (t.value a))) ∧
    (∀ v, binary .div (t.value a) (t.value b) = .ok v →
      ∃ q r, v = t.value q ∧ binary .modulo (t.value a) (t.value b) = .ok (t.value r) ∧
        Division a.toInt b.toInt q.toInt r.toInt) ∧
    (b.toInt ≠ 0 → ∃ r, binary .modulo (t.value a) (t.value b) = .ok (t.value r)) ∧
    Unbounded a.toInt b.toInt := by
  refine ⟨fun op => narrowed_binary op a b, fun op => narrowed_unary op a, fun v hv => ?_, fun hb => ⟨_, modulo_word a hb⟩,
    unbounded _ _⟩
  obtain ⟨hb, q, rfl, hq⟩ := toInt_of_div hv
  refine ⟨q, a.srem b, rfl, modulo_word a hb, ?_⟩
  rw [hq, BitVec.toInt_srem]
  exact division_tdiv hb

/-- The least integer has no quotient by minus one, but a remainder; minus seven has both by two. -/
theorem arithmetic_narrowed_least :
    binary .div (scalar (.int (.intMin 32))) (scalar (.int (-1))) = .error (.arithmetic .tooBig) ∧
    (∃ r, binary .modulo (scalar (.int (.intMin 32))) (scalar (.int (-1))) = .ok (scalar (.int r))) ∧
    binary .div (scalar (.int (-7))) (scalar (.int 2)) = .ok (scalar (.int (-3))) ∧ Division (-7) 2 (-3) (-1) := by
  obtain ⟨-, -, -, remainder, -⟩ := arithmetic_narrowed .int (.intMin 32) (-1)
  obtain ⟨-, -, division, -⟩ := arithmetic_narrowed .int (-7) 2
  have quotient : binary .div (scalar (.int (-7))) (scalar (.int 2)) = .ok (scalar (.int (-3))) := rfl
  obtain ⟨q, r, hq, hr, h⟩ := division _ quotient
  obtain rfl : -3 = q := Scalar.int.inj (scalar.inj hq)
  obtain rfl : -1 = r := Scalar.int.inj (scalar.inj (Except.ok.inj hr))
  exact ⟨rfl, remainder (by decide), quotient, h⟩

end Value

end WideColumn
