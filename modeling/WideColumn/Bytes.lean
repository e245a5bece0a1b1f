/-!
Byte strings: fixed-width big-endian fields, lowercase hexadecimal, and the order that puts shorter
strings first.
-/

namespace WideColumn

/-- A byte string. -/
abbrev Bytes := List UInt8

namespace Bytes

/-! ## Fields -/

/-- The `w` low bytes of `n`, least significant first. -/
def littleEndian : Nat → Nat → Bytes
  | 0, _ => []
  | w + 1, n => UInt8.ofNat n :: littleEndian w (n / 256)

/-- A big-endian field of `w` bytes; what `n` has at or above `256 ^ w` is dropped. -/
def bigEndian (w n : Nat) : Bytes := (littleEndian w n).reverse

/-- The number that a big-endian byte string denotes; the empty string denotes zero. -/
def value (bs : Bytes) : Nat := bs.foldl (fun n b => n * 256 + b.toNat) 0

theorem length_littleEndian (w n : Nat) : (littleEndian w n).length = w := by
  induction w generalizing n with
  | zero => rfl
  | succ w ih => simp [littleEndian, ih]

@[simp]
theorem length_bigEndian (w n : Nat) : (bigEndian w n).length = w := by
  simp [bigEndian, length_littleEndian]

@[simp]
theorem value_append_singleton (bs : Bytes) (b : UInt8) : value (bs ++ [b]) = value bs * 256 + b.toNat := by
  simp [value]

/-- A field holds its number as long as that is below `256 ^ w`. -/
theorem value_bigEndian (w n : Nat) : value (bigEndian w n) = n % Nat.pow 256 w := by
  induction w generalizing n with
  | zero => exact (Nat.mod_one n).symm
  | succ w ih =>
    have power : Nat.pow 256 (w + 1) = 256 * Nat.pow 256 w := Nat.mul_comm (Nat.pow 256 w) 256
    have step : bigEndian (w + 1) n = bigEndian w (n / 256) ++ [UInt8.ofNat n] := by
      simp [bigEndian, littleEndian]
    have low : (UInt8.ofNat n).toNat = n % 256 := rfl
    rw [step, value_append_singleton, ih, low, power, Nat.mod_mul]
    omega

theorem value_reverse_cons (b : UInt8) (bs : Bytes) :
    value (b :: bs).reverse = value bs.reverse * 256 + b.toNat := by
  rw [List.reverse_cons, value_append_singleton]

theorem value_lt (bs : Bytes) : value bs < Nat.pow 256 bs.length := by
  rw [← List.reverse_reverse bs, List.length_reverse]
  induction bs.reverse with
  | nil => decide
  | cons b bs ih =>
    have hb : b.toNat < 256 := b.toNat_lt
    have power : Nat.pow 256 (bs.length + 1) = Nat.pow 256 bs.length * 256 := rfl
    rw [value_reverse_cons, List.length_cons, power]
    omega

/-! ## Hexadecimal -/

/-- Two lowercase hexadecimal digits for each byte. -/
def hexDigits (bs : Bytes) : List Char :=
  bs.flatMap fun b => [Nat.digitChar (b.toNat / 16), Nat.digitChar (b.toNat % 16)]

/-- The value of a hexadecimal digit of either case. -/
def hexValue? (c : Char) : Option Nat :=
  if '0' ≤ c ∧ c ≤ '9' then some (c.toNat - '0'.toNat)
  else if 'a' ≤ c ∧ c ≤ 'f' then some (c.toNat - 'a'.toNat + 10)
  else if 'A' ≤ c ∧ c ≤ 'F' then some (c.toNat - 'A'.toNat + 10)
  else none

/-- The bytes that pairs of hexadecimal digits denote; none if a digit is left over or is no digit. -/
def ofHexDigits? : List Char → Option Bytes
  | [] => some []
  | [_] => none
  | h :: l :: rest => do
    let high ← hexValue? h
    let low ← hexValue? l
    let bytes ← ofHexDigits? rest
    return UInt8.ofNat (high * 16 + low) :: bytes

theorem hexValue?_digitChar (n : Nat) (h : n < 16) : hexValue? (Nat.digitChar n) = some n := by
  revert n
  decide

theorem hexDigits_cons (b : UInt8) (bs : Bytes) :
    hexDigits (b :: bs) = Nat.digitChar (b.toNat / 16) :: Nat.digitChar (b.toNat % 16) :: hexDigits bs := rfl

/-- The digits of a byte string denote it. -/
theorem ofHexDigits?_hexDigits (bs : Bytes) : ofHexDigits? bs.hexDigits = some bs := by
  induction bs with
  | nil => rfl
  | cons b bs ih =>
    have hb : b.toNat < 256 := b.toNat_lt
    have whole : UInt8.ofNat (b.toNat / 16 * 16 + b.toNat % 16) = b := by
      rw [Nat.div_add_mod' b.toNat 16, UInt8.ofNat_toNat]
    rw [hexDigits_cons, ofHexDigits?, hexValue?_digitChar _ (by omega), hexValue?_digitChar _ (by omega), ih]
    simp only [Option.bind_eq_bind, Option.bind_some, Option.pure_def, whole]

def hex (bs : Bytes) : String := String.ofList bs.hexDigits

/-! ## Order -/

/-- Shorter strings first, then byte by byte. -/
def order (a b : Bytes) : Ordering := (compare a.length b.length).then (compare a b)

end Bytes

def Text.utf8 (s : String) : Bytes := s.toUTF8.data.toList

end WideColumn
