/-!
Quotients of natural numbers rounded to the nearest integer, a tie to the even one.
-/

namespace WideColumn

/-- `n / 2 ^ s` rounded to the nearest integer, a tie to the even one. With `rest` the numerator stands for
something between `n` and `n + 1`. -/
def halveEven (n s : Nat) (rest : Bool) : Nat :=
  match s with
  | 0 => n
  | s + 1 =>
    let halves := n >>> s
    let quotient := halves / 2
    let below := rest || halves <<< s != n
    if halves % 2 = 1 ∧ (below ∨ quotient % 2 = 1) then quotient + 1 else quotient

/-- `n / d` rounded to the nearest integer, a tie to the even one. -/
def divideEven (n d : Nat) : Nat :=
  let quotient := n / d
  match compare (2 * (n % d)) d with
  | .lt => quotient
  | .gt => quotient + 1
  | .eq => if quotient % 2 = 1 then quotient + 1 else quotient

end WideColumn
