import Mathlib
import WideColumn.Proofs.Except
import WideColumn.Proofs.Integer.Checked
import WideColumn.Proofs.TwosComplement
import WideColumn.Scalar.Text
/-!
# The time in an identifier

The ticks of an identifier are a number of 60 bits whose bytes stand in another order than
they count (`TimeUuid.ticks_eq`). From 1970 on its milliseconds are the ticks since then over
ten thousand, rounded down. For earlier times the ticks since 1970 wrap around, so that these
identifiers seem to be of a far future (`TimeUuid.millis_eq`). Either way nothing overflows
that is computed in signed words.
-/

namespace WideColumn

theorem Uuid.bytes_ofBytes {bs : Bytes} (h : bs.length = 16) : (ofBytes bs).bytes = bs := by
  have hlt : Bytes.value bs < 2 ^ 128 := by
    have := Bytes.value_lt bs
    rwa [h] at this
  rw [bytes, ofBytes, BitVec.toNat_ofNat, Nat.mod_eq_of_lt hlt, ← h, Bytes.bigEndian_value]

namespace TimeUuid

/-! ## Ticks -/

/-- The bytes with the time, most significant first. The high end of the time, with the
version before it, stands last in an identifier, and the low end first. -/
def timeBytes (bs : Bytes) : Bytes := (bs.drop 6).take 2 ++ (bs.drop 4).take 2 ++ bs.take 4

theorem value_timeBytes {bs : Bytes} (h : bs.length = 16) :
    Bytes.value (timeBytes bs) = Bytes.value bs / 2 ^ 64 % 2 ^ 16 * 2 ^ 48 +
      Bytes.value bs / 2 ^ 80 % 2 ^ 16 * 2 ^ 32 + Bytes.value bs / 2 ^ 96 := by
  simp only [timeBytes, Bytes.value_append, Bytes.value_take, Bytes.value_drop, List.length_take, List.length_drop, h]
  norm_num
  omega

/-- The ticks of an identifier are in its time bytes, apart from the four bits of the version. -/
theorem ticks_eq (u : TimeUuid) : u.ticks = Bytes.value (timeBytes u.uuid.bytes) % 2 ^ 60 := by
  have hvalue : Bytes.value u.uuid.bytes = u.uuid.bits.toNat := Bytes.value_bigEndian_of_lt u.uuid.bits.isLt
  have hlength : u.uuid.bytes.length = 16 := Bytes.length_bigEndian 16 _
  have hlow : u.uuid.bits.toNat / 2 ^ 96 < 2 ^ 32 := by
    have := u.uuid.bits.isLt
    omega
  have hmiddle : u.uuid.bits.toNat / 2 ^ 80 % 2 ^ 16 < 2 ^ 16 := Nat.mod_lt _ (by decide)
  have hhigh : u.uuid.bits.toNat / 2 ^ 64 % 2 ^ 16 % 2 ^ 12 = u.uuid.bits.toNat / 2 ^ 64 % 2 ^ 12 :=
    Nat.mod_mod_of_dvd _ (by decide)
  rw [value_timeBytes hlength, hvalue]
  simp only [ticks, BitVec.extractLsb'_toNat, Nat.shiftRight_eq_div_pow, Nat.shiftLeft_eq, Nat.mod_eq_of_lt hlow]
  rw [← hhigh]
  generalize u.uuid.bits.toNat / 2 ^ 64 % 2 ^ 16 = high
  generalize u.uuid.bits.toNat / 2 ^ 80 % 2 ^ 16 = middle at hmiddle ⊢
  generalize u.uuid.bits.toNat / 2 ^ 96 = low at hlow ⊢
  omega

theorem ticks_lt (u : TimeUuid) : u.ticks < 2 ^ 60 := by
  rw [ticks_eq]
  exact Nat.mod_lt _ (by decide)

/-! ## Milliseconds -/

/-- The ticks since 1970, as a word of 64 bits without sign. -/
def sinceEpoch (u : TimeUuid) : Nat := (BitVec.ofNat 64 u.ticks - BitVec.ofNat 64 epoch).toNat

/-- Ticks before 1970 wrap around. -/
theorem sinceEpoch_eq (u : TimeUuid) :
    (u.sinceEpoch : Int) = if epoch ≤ u.ticks then (u.ticks : Int) - epoch else (u.ticks : Int) - epoch + 2 ^ 64 := by
  have hlt := u.ticks_lt
  rw [sinceEpoch, BitVec.toNat_sub, BitVec.toNat_ofNat, BitVec.toNat_ofNat]
  unfold epoch
  split <;> omega

/-- Seconds and the rest of a second make the ticks over ten thousand, rounded down. -/
theorem millis_eq (u : TimeUuid) : u.millis = u.sinceEpoch / 10000 := by
  change u.sinceEpoch / 10000000 * 1000 + u.sinceEpoch % 10000000 * 100 / 1000000 = u.sinceEpoch / 10000
  omega

/-- The milliseconds, computed from the seconds and the nanoseconds of a second in signed
words of 64 bits. -/
def checkedMillis (u : TimeUuid) : Except ArithmeticError (BitVec 64) := do
  let whole ← Integer.mul (.ofNat 64 (u.sinceEpoch / 10000000)) 1000
  Integer.add whole (.ofNat 64 (u.sinceEpoch % 10000000 * 100 / 1000000))

theorem checkedMillis_eq (u : TimeUuid) : ∃ r, u.checkedMillis = .ok r ∧ r.toInt = u.millis := by
  have hlt : u.sinceEpoch < 2 ^ 64 := BitVec.isLt _
  have hword {n : Nat} (hn : n < 2 ^ 63) : (BitVec.ofNat 64 n).toInt = n := by
    rw [BitVec.toInt_eq_toNat_of_lt, BitVec.toNat_ofNat, Nat.mod_eq_of_lt (hn.trans (by decide))]
    rw [BitVec.toNat_ofNat, Nat.mod_eq_of_lt (hn.trans (by decide))]
    omega
  have hseconds := hword (show u.sinceEpoch / 10000000 < 2 ^ 63 by omega)
  have hwhole := hword (show u.sinceEpoch / 10000000 * 1000 < 2 ^ 63 by omega)
  have hrest := hword (show u.sinceEpoch % 10000000 * 100 / 1000000 < 2 ^ 63 by omega)
  have hmillis := hword (show u.millis < 2 ^ 63 by rw [millis_eq]; omega)
  refine ⟨.ofNat 64 u.millis, Except.bind_eq_ok_iff.2 ⟨.ofNat 64 (u.sinceEpoch / 10000000 * 1000), ?_, ?_⟩, hmillis⟩
  · rw [Integer.mul_eq_ok_iff, hseconds, hwhole]
    rfl
  · rw [Integer.add_eq_ok_iff, hwhole, hrest, hmillis, millis_eq]
    omega

/-- Every time before 1970 is read as later than every time from then on. Otherwise an
identifier of no fewer ticks has no fewer milliseconds. -/
theorem millis_le_iff {u v : TimeUuid} (h : u.ticks ≤ v.ticks) : u.millis ≤ v.millis ↔ ¬(u.ticks < epoch ∧ epoch ≤ v.ticks) := by
  have hu := u.sinceEpoch_eq
  have hv := v.sinceEpoch_eq
  have hlt := v.ticks_lt
  rw [millis_eq, millis_eq]
  unfold epoch at hu hv ⊢
  split at hu <;> split at hv <;> omega

/-- Sixteen bytes that are an identifier with a time have it as a number of 60 bits of ticks.
Their milliseconds are computed without overflow. They are those since 1970, rounded down,
just for times from then on: for any other they are off by 2 ^ 64 ticks. So they grow with
the ticks except from before 1970 to after it. -/
theorem millis_of_ticks (bs : Bytes) (u : TimeUuid) (hbs : bs.length = 16)
    (hu : Scalar.ofTimeUuid (.ofBytes bs) = .ok (.timeuuid u)) :
    u.ticks = Bytes.value (timeBytes bs) % 2 ^ 60 ∧
    (∃ r, u.checkedMillis = .ok r ∧ r.toInt = u.millis) ∧
    ((u.millis : Int) = ((u.ticks : Int) - epoch) / 10000 ↔ epoch ≤ u.ticks) ∧
    (u.ticks < epoch → (u.millis : Int) = ((u.ticks : Int) - epoch + 2 ^ 64) / 10000) ∧
    ∀ v : TimeUuid, u.ticks ≤ v.ticks → (u.millis ≤ v.millis ↔ ¬(u.ticks < epoch ∧ epoch ≤ v.ticks)) := by
  have hbytes : u.uuid.bytes = bs := by
    unfold Scalar.ofTimeUuid at hu
    split at hu
    · cases hu
      exact Uuid.bytes_ofBytes hbs
    · cases hu
  have hmillis : (u.millis : Int) = (u.sinceEpoch : Int) / 10000 := by
    rw [millis_eq]
    rfl
  have hsince := u.sinceEpoch_eq
  refine ⟨hbytes ▸ u.ticks_eq, u.checkedMillis_eq, ?_, ?_, fun _ => millis_le_iff⟩
  · rw [hmillis]
    split at hsince <;> omega
  · intro hbefore
    rw [hmillis, hsince, if_neg (by omega)]

/-- The bytes of an identifier of the first tick of all, in 1582. -/
def firstBytes : Bytes := [0, 0, 0, 0, 0, 0, 0x10, 0, 0x80, 0, 0, 0, 0, 0, 0, 0]

def first : TimeUuid := ⟨.ofBytes firstBytes, by decide⟩

/-- An identifier of the start of 1970. -/
def start : TimeUuid := ⟨.ofBytes [0x13, 0x81, 0x40, 0, 0x1d, 0xd2, 0x11, 0xb2, 0x80, 0, 0, 0, 0, 0, 0, 0], by decide⟩

/-- The first tick is read as later than the start of 1970. -/
theorem millis_of_ticks_first : firstBytes.length = 16 ∧ Scalar.ofTimeUuid (.ofBytes firstBytes) = .ok (.timeuuid first) ∧
    first.ticks ≤ start.ticks ∧ start.millis < first.millis := by
  have hticks : first.ticks = 0 ∧ start.ticks = epoch := by decide
  obtain ⟨hfirst, hstart⟩ := hticks
  have hle : first.ticks ≤ start.ticks := by omega
  have hread : Scalar.ofTimeUuid (.ofBytes firstBytes) = .ok (.timeuuid first) := rfl
  obtain ⟨-, -, -, -, horder⟩ := millis_of_ticks firstBytes first rfl hread
  refine ⟨rfl, hread, hle, not_le.1 fun h => (horder start hle).1 h ⟨?_, hstart.ge⟩⟩
  rw [hfirst]
  decide

/-- The milliseconds of the first tick are not those before 1970. -/
theorem first_not_before_1970 : Scalar.ofTimeUuid (.ofBytes firstBytes) = .ok (.timeuuid first) ∧
    ((first.ticks : Int) - epoch) / 10000 = -12219292800000 ∧ (first.millis : Int) = 1832455114570955 :=
  ⟨rfl, by decide, by decide⟩

end TimeUuid

end WideColumn
