import Mathlib
import WideColumn.TwosComplement
/-!
# What bytes determine

A field determines the number in it, a byte string after its length determines the
string and where it ends, UTF-8 determines the text, and the shortest
two's-complement form determines the integer.
-/

namespace WideColumn

namespace Bytes

theorem value_bigEndian_of_lt {w n : Nat} (h : n < 256 ^ w) : value (bigEndian w n) = n := by
  rw [value_bigEndian]
  exact Nat.mod_eq_of_lt h

theorem bigEndian_inj {w m n : Nat} (hm : m < 256 ^ w) (hn : n < 256 ^ w) (h : bigEndian w m = bigEndian w n) :
    m = n := by
  rw [← value_bigEndian_of_lt hm, h, value_bigEndian_of_lt hn]

theorem value_cons (b : UInt8) (bs : Bytes) : value (b :: bs) = b.toNat * 256 ^ bs.length + value bs := by
  induction bs using List.reverseRecOn with
  | nil => simp [value]
  | append_singleton bs c ih =>
    rw [← List.cons_append, value_append_singleton, value_append_singleton, ih, List.length_append,
      List.length_singleton, pow_succ]
    ring

theorem value_append (as bs : Bytes) : value (as ++ bs) = value as * 256 ^ bs.length + value bs := by
  induction as with
  | nil => simp [value]
  | cons a as ih =>
    rw [List.cons_append, value_cons, value_cons, ih, List.length_append, pow_add]
    ring

/-- A byte string cut in two: the front counts the ranges of what is behind it. -/
theorem value_split (i : Nat) (bs : Bytes) :
    value bs = value (bs.take i) * 256 ^ (bs.length - i) + value (bs.drop i) ∧
      value (bs.drop i) < 256 ^ (bs.length - i) := by
  have hlt : value (bs.drop i) < 256 ^ (bs.drop i).length := value_lt (bs.drop i)
  have happend := value_append (bs.take i) (bs.drop i)
  rw [List.take_append_drop, List.length_drop] at happend
  rw [List.length_drop] at hlt
  exact ⟨happend, hlt⟩

theorem value_take (i : Nat) (bs : Bytes) : value (bs.take i) = value bs / 256 ^ (bs.length - i) := by
  obtain ⟨hsplit, hlt⟩ := value_split i bs
  rw [hsplit, Nat.mul_comm, Nat.mul_add_div (by positivity), Nat.div_eq_of_lt hlt, Nat.add_zero]

theorem value_drop (i : Nat) (bs : Bytes) : value (bs.drop i) = value bs % 256 ^ (bs.length - i) := by
  obtain ⟨hsplit, hlt⟩ := value_split i bs
  rw [hsplit, Nat.mul_add_mod_of_lt hlt]

/-- A byte string after its length, in a field of `w` bytes. -/
def sized (w : Nat) (bs : Bytes) : Bytes := bigEndian w bs.length ++ bs

/-- Two byte strings with their lengths in front, and whatever follows them, can be told apart. -/
theorem sized_append_inj {w : Nat} {as bs as' bs' : Bytes} (ha : as.length < 256 ^ w) (hb : bs.length < 256 ^ w)
    (h : sized w as ++ as' = sized w bs ++ bs') : as = bs ∧ as' = bs' := by
  rw [sized, sized, List.append_assoc, List.append_assoc] at h
  obtain ⟨hfield, hrest⟩ := List.append_inj h (by simp)
  exact List.append_inj hrest (bigEndian_inj ha hb hfield)

end Bytes

theorem Text.utf8_injective : Function.Injective Text.utf8 := by
  intro s t h
  apply String.toByteArray_inj.1
  exact ByteArray.ext (Array.toList_inj.1 h)

namespace TwosComplement

/-- A byte string holds its unsigned value, less the whole range if the first bit is set. -/
theorem decode_eq (bs : Bytes) :
    decode bs = if 2 * Bytes.value bs < 256 ^ bs.length then (Bytes.value bs : Int)
      else Bytes.value bs - (256 ^ bs.length : Nat) := by
  cases bs with
  | nil => rfl
  | cons b bs =>
    have hv := Bytes.value_cons b bs
    have hr : Bytes.value bs < 256 ^ bs.length := Bytes.value_lt bs
    have hb : b < 128 ↔ 2 * Bytes.value (b :: bs) < 256 ^ (b :: bs).length := by
      rw [hv, List.length_cons, pow_succ, UInt8.lt_iff_toNat_lt]
      change b.toNat < 128 ↔ _
      constructor <;> intro h <;> nlinarith
    rw [decode]
    by_cases h : b < 128
    · rw [if_pos h, if_pos (hb.1 h)]
    · rw [if_neg h, if_neg (fun h' => h (hb.2 h'))]
      rfl

theorem lt_two_pow_bitLength (n : Nat) : n < 2 ^ bitLength n := by
  unfold bitLength
  split
  · next h => simp [h]
  · exact Nat.lt_log2_self

/-- The width of an integer goes by its bits apart from the sign. -/
theorem width_eq (n : Int) : ∃ m : Nat, (m : Int) = (if n < 0 then -n - 1 else n) ∧ width n = bitLength m / 8 + 1 := by
  refine ⟨(if n < 0 then -n - 1 else n).toNat, Int.toNat_of_nonneg ?_, rfl⟩
  split <;> omega

/-- The shortest form has room for the sign. -/
theorem width_spec (n : Int) : -(256 ^ width n : Nat) ≤ 2 * n ∧ 2 * n < (256 ^ width n : Nat) := by
  obtain ⟨m, hm, hw⟩ := width_eq n
  have hlt : 2 * (m + 1) ≤ 256 ^ width n := by
    have hpow : 2 ^ (bitLength m + 1) ≤ 256 ^ width n := by
      rw [hw, show (256 : Nat) = 2 ^ 8 from rfl, ← pow_mul]
      exact Nat.pow_le_pow_right (by decide) (by omega)
    have := lt_two_pow_bitLength m
    rw [pow_succ] at hpow
    omega
  generalize 256 ^ width n = range at hlt ⊢
  split at hm <;> omega

/-- The shortest form of an integer holds it. -/
theorem decode_encode (n : Int) : decode (encode n) = n := by
  -- the form holds the residue of `n` that is not negative, whose upper half stands for negative numbers
  obtain ⟨hlo, hhi⟩ := width_spec n
  have hpos : (0 : Int) < (256 ^ width n : Nat) := by exact_mod_cast Nat.pow_pos (by decide)
  obtain ⟨m, hm⟩ : ∃ m : Nat, (m : Int) = n % (256 ^ width n : Nat) :=
    ⟨_, Int.toNat_of_nonneg (Int.emod_nonneg _ hpos.ne')⟩
  have hlt : m < 256 ^ width n := by
    have := Int.emod_lt_of_pos n hpos
    omega
  have hbytes : encode n = Bytes.bigEndian (width n) m := by
    rw [encode]
    congr 1
    change (n % (256 ^ width n : Nat)).toNat = m
    rw [← hm, Int.toNat_natCast]
  have hv : Bytes.value (encode n) = m := by rw [hbytes, Bytes.value_bigEndian_of_lt hlt]
  have hl : (encode n).length = width n := by rw [hbytes, Bytes.length_bigEndian]
  rw [decode_eq, hv, hl]
  by_cases hn : 0 ≤ n
  · have : n % (256 ^ width n : Nat) = n := Int.emod_eq_of_lt hn (by omega)
    rw [if_pos (by omega)]
    omega
  · have : n % (256 ^ width n : Nat) = n + (256 ^ width n : Nat) := by
      rw [← Int.add_emod_right, Int.emod_eq_of_lt (by omega) (by omega)]
    rw [if_neg (by omega)]
    omega

theorem encode_injective : Function.Injective encode :=
  Function.LeftInverse.injective decode_encode

end TwosComplement

end WideColumn
