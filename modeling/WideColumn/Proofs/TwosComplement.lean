import WideColumn.Proofs.Bytes
import WideColumn.Scalar.Basic
/-!
# One shortest form for every integer

A byte string of a given length holds an integer of a range that depends on the length
alone, and no two of that length hold the same one. So the strings that hold an integer
are its shortest form and what comes of it by copies of the byte that shows the sign
(`TwosComplement.decode_eq_iff`).
-/

namespace WideColumn

namespace Bytes

theorem bigEndian_succ (w n : Nat) : bigEndian (w + 1) n = bigEndian w (n / 256) ++ [UInt8.ofNat n] := by
  simp [bigEndian, littleEndian]

/-- A byte string is the field of its own length with the number that it denotes. -/
theorem bigEndian_value (bs : Bytes) : bigEndian bs.length (value bs) = bs := by
  induction bs using List.reverseRecOn with
  | nil => rfl
  | append_singleton bs b ih =>
    have hb : b.toNat < 256 := b.toNat_lt
    have high : (value bs * 256 + b.toNat) / 256 = value bs := by omega
    have low : UInt8.ofNat (value bs * 256 + b.toNat) = b := by
      apply UInt8.toNat_inj.1
      rw [UInt8.toNat_ofNat']
      omega
    rw [List.length_append, List.length_singleton, value_append_singleton, bigEndian_succ, high, low, ih]

theorem eq_of_value_eq {as bs : Bytes} (hl : as.length = bs.length) (hv : value as = value bs) : as = bs := by
  rw [← bigEndian_value as, hl, hv, bigEndian_value]

end Bytes

namespace TwosComplement

/-! ## What a length has room for -/

/-- A byte string holds an integer between the two halves of its range. -/
theorem decode_bounds (bs : Bytes) :
    -(256 ^ bs.length : Nat) ≤ 2 * decode bs ∧ 2 * decode bs < (256 ^ bs.length : Nat) := by
  have hv : Bytes.value bs < 256 ^ bs.length := Bytes.value_lt bs
  rw [decode_eq]
  generalize 256 ^ bs.length = range at hv ⊢
  split <;> omega

/-- Byte strings of one length that hold the same integer are the same. -/
theorem eq_of_decode_eq {as bs : Bytes} (hl : as.length = bs.length) (h : decode as = decode bs) : as = bs := by
  have ha : Bytes.value as < 256 ^ as.length := Bytes.value_lt as
  have hb : Bytes.value bs < 256 ^ bs.length := Bytes.value_lt bs
  rw [decode_eq, decode_eq] at h
  rw [hl] at h ha
  apply Bytes.eq_of_value_eq hl
  generalize 256 ^ bs.length = range at h ha hb
  split at h <;> split at h <;> omega

theorem bitLength_le {n k : Nat} (h : n < 2 ^ k) : bitLength n ≤ k := by
  unfold bitLength
  split
  · exact Nat.zero_le k
  · next hn => exact (Nat.log2_lt hn).2 h

theorem bitLength_le_succ {n k : Nat} (h : n ≤ 2 ^ k) : bitLength n ≤ k + 1 :=
  bitLength_le (h.trans_lt (Nat.pow_lt_pow_right (by decide) (Nat.lt_succ_self k)))

@[simp]
theorem length_encode (n : Int) : (encode n).length = width n := Bytes.length_bigEndian _ _

theorem encode_ne_nil (n : Int) : encode n ≠ [] := by
  intro h
  have := congrArg List.length h
  simp [width] at this

/-- No integer takes more bytes than a length that has room for it. -/
theorem width_le {n : Int} {w : Nat} (hw : 0 < w) (hlo : -(256 ^ w : Nat) ≤ 2 * n) (hhi : 2 * n < (256 ^ w : Nat)) :
    width n ≤ w := by
  obtain ⟨m, hm, hwidth⟩ := width_eq n
  -- with its sign apart, the integer has one bit less than there is room for
  have hlt : m < 2 ^ (8 * w - 1) := by
    have hpow : 256 ^ w = 2 * 2 ^ (8 * w - 1) := by
      rw [show (256 : Nat) = 2 ^ 8 from rfl, ← pow_mul, ← pow_succ', Nat.sub_add_cancel (by omega)]
    rw [hpow] at hlo hhi
    generalize 2 ^ (8 * w - 1) = half at hlo hhi ⊢
    split at hm <;> omega
  have := bitLength_le hlt
  omega

/-! ## Copies of the sign -/

/-- The byte that shows the sign: all bits set below zero, and none otherwise. -/
def signByte (n : Int) : UInt8 := if 0 ≤ n then 0 else 255

/-- One more copy of the sign changes nothing. -/
theorem decode_signByte_cons (bs : Bytes) : decode (signByte (decode bs) :: bs) = decode bs := by
  have hv : Bytes.value bs < 256 ^ bs.length := Bytes.value_lt bs
  have hd := decode_eq bs
  rw [decode_eq, Bytes.value_cons, List.length_cons, pow_succ]
  generalize 256 ^ bs.length = range at hv hd ⊢
  by_cases hs : 0 ≤ decode bs
  · have hb : (signByte (decode bs)).toNat = 0 := by simp [signByte, hs]
    rw [hb]
    split at hd <;> split <;> omega
  · have hb : (signByte (decode bs)).toNat = 255 := by simp [signByte, hs]
    rw [hb]
    split at hd <;> split <;> omega

theorem decode_replicate_append (n : Int) (k : Nat) : decode (List.replicate k (signByte n) ++ encode n) = n := by
  induction k with
  | zero => exact decode_encode n
  | succ k ih =>
    have h := decode_signByte_cons (List.replicate k (signByte n) ++ encode n)
    rw [ih] at h
    rwa [List.replicate_succ, List.cons_append]

/-- What holds an integer is its shortest form after copies of the sign, and nothing else. -/
theorem decode_eq_iff {bs : Bytes} (hbs : bs ≠ []) {n : Int} :
    decode bs = n ↔ ∃ k, bs = List.replicate k (signByte n) ++ encode n := by
  constructor
  · rintro rfl
    obtain ⟨hlo, hhi⟩ := decode_bounds bs
    have hle := width_le (List.length_pos_iff.2 hbs) hlo hhi
    refine ⟨bs.length - width (decode bs), ?_⟩
    apply eq_of_decode_eq
    · simp [hle]
    · rw [decode_replicate_append]
  · rintro ⟨k, rfl⟩
    exact decode_replicate_append n k

/-! ## The codec -/

/-- Every integer has one shortest form, which is not empty and holds it. Any other byte
string that holds it is longer, by copies of the byte that shows its sign. Varints and
decimals come back from the bytes of their integers, and different integers have
different bytes. -/
theorem encode_shortest (n : Int) :
    decode (encode n) = n ∧ encode n ≠ [] ∧
    (∀ bs, bs ≠ [] → decode bs = n →
      (encode n).length ≤ bs.length ∧ (bs.length = (encode n).length → bs = encode n) ∧
      ∃ k, bs = List.replicate k (if 0 ≤ n then 0x00 else 0xFF) ++ encode n) ∧
    decode (Scalar.varint n).bytes = n ∧
    (∀ d : Decimal, Decimal.ofBytes d.unscaledBytes d.scale = d) ∧
    ∀ m, encode m = encode n → m = n := by
  refine ⟨decode_encode n, encode_ne_nil n, ?others, decode_encode n, ?decimals, fun m h => encode_injective h⟩
  case others =>
    intro bs hbs h
    obtain ⟨k, hk⟩ := (decode_eq_iff hbs).1 h
    have hlen : bs.length = k + (encode n).length := by
      rw [hk, List.length_append, List.length_replicate]
    refine ⟨by omega, fun hl => ?_, k, hk⟩
    have hzero : k = 0 := by omega
    rw [hk, hzero, List.replicate_zero, List.nil_append]
  case decimals =>
    intro d
    rw [Decimal.ofBytes, Decimal.unscaledBytes, decode_encode]

/-- Two needless copies of the sign before the two bytes of -129. -/
theorem encode_shortest_padded :
    decode [0xFF, 0xFF, 0xFF, 0x7F] = -129 ∧ encode (-129) = [0xFF, 0x7F] ∧
    ∃ k, [0xFF, 0xFF, 0xFF, 0x7F] = List.replicate k (if (0 : Int) ≤ -129 then 0x00 else 0xFF) ++ encode (-129) := by
  have held : decode [0xFF, 0xFF, 0xFF, 0x7F] = -129 := by decide
  obtain ⟨-, -, others, -⟩ := encode_shortest (-129)
  exact ⟨held, by decide, (others _ (by simp) held).2.2⟩

end TwosComplement

end WideColumn
