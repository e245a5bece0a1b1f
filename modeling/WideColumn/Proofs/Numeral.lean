import Mathlib.Tactic
import WideColumn.Numeral
/-!
# Numerals read back

A row of digits denotes a number whatever zeros stand before it, and zeros behind it are powers
of ten. A minus sign may stand in front of a text. Underscores are of no importance where there
are none.
-/

namespace WideColumn.Numeral

/-- Nothing but decimal digits. -/
def AllDigits (cs : List Char) : Prop := ∀ c ∈ cs, isDigit c = true

theorem ne_of_isDigit {c x : Char} (hc : isDigit c = true) (hx : isDigit x = false) : c ≠ x := by
  rintro rfl
  rw [hc] at hx
  cases hx

theorem AllDigits.not_mem {cs : List Char} (h : AllDigits cs) {x : Char} (hx : isDigit x = false) : x ∉ cs :=
  fun hmem => ne_of_isDigit (h x hmem) hx rfl

theorem AllDigits.append {as bs : List Char} (ha : AllDigits as) (hb : AllDigits bs) : AllDigits (as ++ bs) := by
  intro c hc
  rcases List.mem_append.1 hc with hc | hc
  · exact ha c hc
  · exact hb c hc

/-- There are no underscores among digits. -/
theorem AllDigits.filter_eq {cs : List Char} (h : AllDigits cs) : cs.filter (· ≠ '_') = cs := by
  rw [List.filter_eq_self]
  intro c hc
  simpa using ne_of_isDigit (h c hc) (by decide : isDigit '_' = false)

theorem allDigits_zeros (k : Nat) : AllDigits (List.replicate k '0') := by
  intro c hc
  rw [List.eq_of_mem_replicate hc]
  rfl

theorem allDigits_digits (n : Nat) : AllDigits (digits n) := fun _ => isDigit_of_mem_digits

theorem digits_ne_nil (n : Nat) : digits n ≠ [] := by
  rw [digits_eq]
  exact Nat.toDigits_ne_nil

/-! ## Numbers -/

theorem natural?_eq {cs : List Char} (hne : cs ≠ []) (h : AllDigits cs) : natural? cs = some (Nat.ofDigitChars 10 cs 0) := by
  rw [natural?, if_pos ⟨hne, List.all_eq_true.2 h⟩]

theorem ofDigitChars_digits (n : Nat) : Nat.ofDigitChars 10 (digits n) 0 = n := by
  rw [digits_eq, Nat.ofDigitChars_ten_toDigits]

theorem ofDigitChars_zeros_append (k : Nat) (cs : List Char) :
    Nat.ofDigitChars 10 (List.replicate k '0' ++ cs) 0 = Nat.ofDigitChars 10 cs 0 := by
  rw [Nat.ofDigitChars_append, Nat.ofDigitChars_replicate_zero, Nat.mul_zero]

theorem ofDigitChars_append_zeros (cs : List Char) (k : Nat) :
    Nat.ofDigitChars 10 (cs ++ List.replicate k '0') 0 = Nat.ofDigitChars 10 cs 0 * 10 ^ k := by
  rw [Nat.ofDigitChars_append, Nat.ofDigitChars_replicate_zero, Nat.mul_comm]

/-! ## Signs -/

/-- A text with a minus sign in front if it is negative. -/
def signed (negative : Bool) (cs : List Char) : List Char := if negative then '-' :: cs else cs

theorem toList_withSign (negative : Bool) (cs : List Char) : (withSign negative cs).toList = signed negative cs :=
  String.toList_ofList

theorem signed_append (negative : Bool) (as bs : List Char) : signed negative (as ++ bs) = signed negative as ++ bs := by
  cases negative <;> rfl

end WideColumn.Numeral
