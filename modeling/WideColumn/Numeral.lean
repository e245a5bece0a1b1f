/-!
Decimal numerals: the digits of a number, and the integers that signed digit strings denote. The digits are
those of `Nat.toDigits 10`, in a form that stays fast for long numbers.
-/

namespace WideColumn.Numeral

/-- Whether a character is one of the ten decimal digits. -/
def isDigit (c : Char) : Bool := decide ('0' ≤ c) && decide (c ≤ '9')

/-! ## Writing -/

/-- How many digits are split off a long number at a time. -/
def blockLength : Nat := 18

/-- The `k` low digits of `n`, with zeros where it has fewer, in front of `tail`. -/
def lowDigits : Nat → Nat → List Char → List Char
  | 0, _, tail => tail
  | k + 1, n, tail => lowDigits k (n / 10) (Nat.digitChar (n % 10) :: tail)

/-- The decimal digits of `n` in front of `tail`. The digits of a long number are taken in blocks from the end,
so that most divisions are of small numbers. -/
def digitsBefore (n : Nat) (tail : List Char) : List Char :=
  if n < Nat.pow 10 blockLength then Nat.toDigits 10 n ++ tail
  else digitsBefore (n / Nat.pow 10 blockLength) (lowDigits blockLength (n % Nat.pow 10 blockLength) tail)
termination_by n
decreasing_by
  have : 1 < Nat.pow 10 blockLength := by decide
  exact Nat.div_lt_self (by omega) this

/-- The decimal digits of `n`, at least one. -/
def digits (n : Nat) : List Char := if n < Nat.pow 10 blockLength then Nat.toDigits 10 n else digitsBefore n []

theorem toDigits_append_lowDigits (k n : Nat) (tail : List Char) (h : Nat.pow 10 k ≤ n) :
    Nat.toDigits 10 (n / Nat.pow 10 k) ++ lowDigits k (n % Nat.pow 10 k) tail = Nat.toDigits 10 n ++ tail := by
  induction k generalizing n tail with
  | zero => simp [lowDigits]
  | succ k ih =>
    have power : Nat.pow 10 (k + 1) = 10 * Nat.pow 10 k := Nat.mul_comm (Nat.pow 10 k) 10
    have least : 1 ≤ Nat.pow 10 k := Nat.pow_pos (by decide)
    rw [power] at h ⊢
    have hn : 10 ≤ n := by omega
    have hk : Nat.pow 10 k ≤ n / 10 := (Nat.le_div_iff_mul_le (by decide)).2 (by omega)
    rw [lowDigits, Nat.mod_mul_right_mod, Nat.mod_mul_right_div_self, ← Nat.div_div_eq_div_mul, ih (n / 10) _ hk,
      Nat.toDigits_of_base_le (by decide) hn, List.append_assoc, List.singleton_append]

theorem digitsBefore_eq (n : Nat) (tail : List Char) : digitsBefore n tail = Nat.toDigits 10 n ++ tail := by
  fun_induction digitsBefore n tail with
  | case1 => rfl
  | case2 n tail h ih => rw [ih, toDigits_append_lowDigits _ _ _ (Nat.le_of_not_lt h)]

theorem digits_eq (n : Nat) : digits n = Nat.toDigits 10 n := by
  unfold digits
  split
  · rfl
  · rw [digitsBefore_eq, List.append_nil]

/-- Number of decimal digits, at least one. -/
def digitCount (n : Nat) : Nat := (digits n).length

/-- The least `k` with `n < 10 ^ k`. -/
def tenExponent (n : Nat) : Nat := if n = 0 then 0 else digitCount n

/-- Puts a minus sign before a text. -/
def withSign (negative : Bool) (cs : List Char) : String := String.ofList (if negative then '-' :: cs else cs)

/-- The decimal text of an integer, with a minus sign below zero. -/
def text (n : Int) : String := withSign (n < 0) (digits n.natAbs)

/-! ## Reading -/

/-- The number written by a non-empty string of digits. -/
def natural? (cs : List Char) : Option Nat :=
  if cs ≠ [] ∧ cs.all isDigit then some (Nat.ofDigitChars 10 cs 0) else none

theorem isDigit_of_mem_digits {n : Nat} {c : Char} (h : c ∈ digits n) : isDigit c = true := by
  rw [digits_eq] at h
  have := Nat.isDigit_of_mem_toDigits (by decide) (by decide) h
  simpa [isDigit, Char.isDigit, Char.le_def, UInt32.le_iff_toNat_le] using this

theorem natural?_digits (n : Nat) : natural? (digits n) = some n := by
  have every : (digits n).all isDigit = true := List.all_eq_true.2 fun _ => isDigit_of_mem_digits
  have some_digit : digits n ≠ [] := by rw [digits_eq]; exact Nat.toDigits_ne_nil
  rw [natural?, if_pos ⟨some_digit, every⟩, digits_eq, Nat.ofDigitChars_ten_toDigits]

/-- Reads an optional sign, then an unsigned numeral by `unsigned`. -/
def signed? (unsigned : List Char → Option Nat) : List Char → Option Int
  | '-' :: cs => (unsigned cs).map fun n => -(n : Int)
  | '+' :: cs => (unsigned cs).map fun n => (n : Int)
  | cs => (unsigned cs).map fun n => (n : Int)

/-- The integer written by an optional sign and one or more digits. -/
def integer? (cs : List Char) : Option Int := signed? natural? cs

/-- The number written by digits with underscores between or after them. -/
def grouped? : List Char → Option Nat
  | '_' :: _ => none
  | cs => natural? (cs.filter (· ≠ '_'))

/-- The integer written by an optional sign and grouped digits. -/
def groupedInteger? (cs : List Char) : Option Int := signed? grouped? cs

end WideColumn.Numeral
