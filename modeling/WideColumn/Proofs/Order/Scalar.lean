import WideColumn.Proofs.Bytes
import WideColumn.Proofs.Order.Binary
import WideColumn.Scalar.Basic
/-!
# The order of types and single values

Types are totally ordered, and so are the single values of each of the sixteen
scalar types and all of them together. Equal means the same value: no two texts,
numbers, identifiers or addresses that differ compare equal.
-/

namespace WideColumn

/-! ## Types -/

theorem ScalarType.rank_injective : Function.Injective rank := by
  intro a b h
  revert h
  cases a <;> cases b <;> decide

theorem DataType.order_of_formRank_ne (t u : DataType) (h : t.formRank ≠ u.formRank) :
    t.order u = compare t.formRank u.formRank := by
  cases t <;> cases u <;> first | rfl | exact absurd rfl h

theorem DataType.lawfulAt_order (t : DataType) : LawfulAt DataType.order t := by
  induction t with
  | scalar a => exact .constructor formRank order_of_formRank_ne scalar (.on ScalarType.rank_injective (.ofOrd _))
  | list e ih => exact .constructor formRank order_of_formRank_ne list ih
  | set e ih => exact .constructor formRank order_of_formRank_ne set ih
  | map k v ihk ihv =>
    refine .constructor formRank order_of_formRank_ne (fun p : DataType × DataType => map p.1 p.2) (ihk.andThen ihv) ?_ ?_ ?_
    · rintro ⟨_, _⟩ ⟨_, _⟩ h; cases h; rfl
    · exact fun _ _ => rfl
    · rintro _ (_ | _) h <;> first | exact ⟨(_, _), rfl⟩ | cases h
  | custom name =>
    exact .constructor formRank order_of_formRank_ne custom (.ofOrd name)

/-! ## Parts of single values -/

theorem Bytes.lawfulAt_order (bs : Bytes) : LawfulAt Bytes.order bs :=
  .on (f := fun bs : Bytes => (bs.length, bs)) (fun _ _ h => (Prod.mk.inj h).2) (.andThen (.ofOrd _) (.ofOrd _))

theorem Bool.toNat_injective : Function.Injective Bool.toNat := by decide

theorem Timestamp.value_injective : Function.Injective value := by
  rintro ⟨a⟩ ⟨b⟩ h
  exact congrArg mk (BitVec.eq_of_toInt_eq h)

theorem Decimal.parts_injective : Function.Injective fun d : Decimal => (d.scale.val, d.unscaled) := by
  rintro ⟨m, s, _, _⟩ ⟨n, t, _, _⟩ h
  cases h
  rfl

/-- The two halves of an identifier determine it. -/
theorem Uuid.halves_injective : Function.Injective fun u : Uuid => (u.high.toNat, u.low.toNat) := by
  rintro ⟨a⟩ ⟨b⟩ h
  obtain ⟨hh, hl⟩ := Prod.mk.inj h
  simp only [high, low, BitVec.extractLsb'_toNat, Nat.shiftRight_eq_div_pow] at hh hl
  have ha := a.isLt
  have hb := b.isLt
  have : a.toNat = b.toNat := by omega
  rw [BitVec.eq_of_toNat_eq this]

theorem TimeUuid.uuid_injective : Function.Injective uuid := by
  rintro ⟨u, _⟩ ⟨v, _⟩ rfl
  rfl

/-- Addresses of one version differ in their bytes, those of different versions in length. -/
theorem Inet.bytes_injective : Function.Injective bytes := by
  rintro (a | a) (b | b) h
  · exact congrArg v4 (BitVec.eq_of_toNat_eq (Bytes.bigEndian_inj a.isLt b.isLt h))
  · have := congrArg List.length h
    simp [bytes] at this
  · have := congrArg List.length h
    simp [bytes] at this
  · exact congrArg v6 (BitVec.eq_of_toNat_eq (Bytes.bigEndian_inj a.isLt b.isLt h))

/-! ## Single values -/

namespace Scalar

theorem order_of_rank_ne (a b : Scalar) (h : a.type.rank ≠ b.type.rank) :
    a.order b = compare a.type.rank b.type.rank := by
  cases a <;> cases b <;> first | rfl | exact absurd rfl h

/-- Values of one type are compared by what they hold, if `make` makes all values of the
type. -/
theorem lawfulAt_of_type {β : Type} (make : β → Scalar) {cmp : β → β → Ordering} {x : β} (h : LawfulAt cmp x)
    (inj : Function.Injective make := by rintro _ _ h; cases h; rfl)
    (within : ∀ x y, (make x).order (make y) = cmp x y := by intros; rfl)
    (covers : ∀ x b, b.type = (make x).type → ∃ y, b = make y := by
      intro _ b h; cases b <;> first | exact ⟨_, rfl⟩ | cases h) : LawfulAt Scalar.order (make x) :=
  .constructor (fun a => a.type.rank) order_of_rank_ne make h inj within
    fun x b hb => covers x b (ScalarType.rank_injective hb)

/-- Single values are totally ordered, and only the same value compares equal. -/
theorem lawfulAt_order (a : Scalar) : LawfulAt Scalar.order a := by
  have text (s : String) : LawfulAt (fun s t => Bytes.order (Text.utf8 s) (Text.utf8 t)) s :=
    .on Text.utf8_injective (Bytes.lawfulAt_order _)
  have word {w : Nat} (n : BitVec w) : LawfulAt (fun m n : BitVec w => compare m.toInt n.toInt) n :=
    .on (fun _ _ => BitVec.eq_of_toInt_eq) (.ofOrd _)
  have uuid (u : Uuid) : LawfulAt Uuid.order u :=
    .on Uuid.halves_injective (.andThen (.ofOrd _)
      (.ofOrd _))
  cases a with
  | ascii s => exact lawfulAt_of_type ascii (text s)
  | varchar s => exact lawfulAt_of_type varchar (text s)
  | text s => exact lawfulAt_of_type Scalar.text (text s)
  | blob bs => exact lawfulAt_of_type blob (Bytes.lawfulAt_order bs)
  | boolean b =>
    exact lawfulAt_of_type boolean (.on Bool.toNat_injective (.ofOrd _))
  | int n => exact lawfulAt_of_type int (word n)
  | bigint n => exact lawfulAt_of_type bigint (word n)
  | counter n => exact lawfulAt_of_type counter (word n)
  | timestamp t =>
    exact lawfulAt_of_type timestamp
      (.on Timestamp.value_injective (.ofOrd _))
  | float x => exact lawfulAt_of_type float (Binary.lawfulAt_order BinaryFormat.proper_single x)
  | double x => exact lawfulAt_of_type double (Binary.lawfulAt_order BinaryFormat.proper_double x)
  | decimal d =>
    exact lawfulAt_of_type decimal (.on Decimal.parts_injective
      (.andThen (.ofOrd _)
        (.ofOrd _)))
  | varint n => exact lawfulAt_of_type varint (.ofOrd n)
  | uuid u => exact lawfulAt_of_type Scalar.uuid (uuid u)
  | timeuuid u => exact lawfulAt_of_type timeuuid (.on TimeUuid.uuid_injective (uuid u.uuid))
  | inet a => exact lawfulAt_of_type inet (.on Inet.bytes_injective (Bytes.lawfulAt_order _))

end Scalar

end WideColumn
