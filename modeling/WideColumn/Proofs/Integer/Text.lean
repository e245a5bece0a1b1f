import Mathlib
import WideColumn.Proofs.Integer.Checked
import WideColumn.Proofs.Numeral.Grammar
import WideColumn.Scalar.Text
/-!
# Integers from text

Words are read from an optional sign and digits, and just from those whose integer fits.
Integers without bounds are read from the same texts, but also from texts with underscores
between and after the digits, which words do not allow.
-/

namespace WideColumn

open Numeral

theorem Varint.ofText?_eq_some_iff {s : String} {n : Int} : ofText? s = some n ↔ Signed (Digits ['_']) s.toList n :=
  groupedInteger?_eq_some_iff

theorem Varint.ofText?_text (n : Int) : ofText? (Numeral.text n) = some n :=
  ofText?_eq_some_iff.2 (signed_digits_iff.1 (signed_text n)).1

/-- A word is read from the digits of an integer that fits. -/
theorem Integer.exists_ofText?_iff {w : Nat} (hw : 0 < w) {s : String} {n : Int} :
    (∃ a, ofText? w s = some a ∧ a.toInt = n) ↔ Signed (Digits []) s.toList n ∧ Fits w n := by
  simp only [ofText?, Option.bind_eq_bind, Option.bind_eq_some_iff, integer?_eq_some_iff, ofInt?_eq_some_iff hw]
  constructor
  · rintro ⟨a, ⟨m, hm, rfl⟩, rfl⟩
    exact ⟨hm, fits_toInt a⟩
  · rintro ⟨hs, hfits⟩
    obtain ⟨a, rfl⟩ := (exists_toInt_eq_iff hw).2 hfits
    exact ⟨a, ⟨a.toInt, hs, rfl⟩, rfl⟩

theorem Integer.ofText?_text {w : Nat} (hw : 0 < w) (a : BitVec w) : ofText? w (text a) = some a := by
  obtain ⟨b, hread, hvalue⟩ := (exists_ofText?_iff hw).2 ⟨signed_text a.toInt, fits_toInt a⟩
  rwa [BitVec.toInt_inj.1 hvalue] at hread

namespace Scalar

/-- The integer that a value is, if it is one. -/
def integer? : Scalar → Option Int
  | int a => some a.toInt
  | bigint a | counter a => some a.toInt
  | varint n => some n
  | _ => none

/-- As a text of the type, `s` is read as the integer `n`. -/
def Reads (type : ScalarType) (s : String) (n : Int) : Prop := ∃ v, ofText type s = .ok v ∧ v.integer? = some n

/-- As a text of the type, `s` is refused as an invalid argument. -/
def Refuses (type : ScalarType) (s : String) : Prop := ∃ e, ofText type s = .error e ∧ e.kind = .invalidArgument

section Readings

variable {α : Type} {type : ScalarType} {s : String} (make : α → Scalar) {r : Option α} {value : α → Int}

theorem reads_iff (hread : ofText type s = reading type s make r) (hmake : ∀ a, (make a).integer? = some (value a)) {n : Int} :
    Reads type s n ↔ ∃ a, r = some a ∧ value a = n := by
  unfold Reads
  rw [hread]
  cases r <;> simp [reading, hmake]

/-- There is nothing between a text that is read and one that is refused. -/
theorem reads_or_refuses (hread : ofText type s = reading type s make r) (hmake : ∀ a, (make a).integer? = some (value a)) :
    (∃ n, Reads type s n) ∨ Refuses type s := by
  cases r with
  | none => exact .inr ⟨_, hread, rfl⟩
  | some a => exact .inl ⟨value a, (reads_iff make hread hmake).2 ⟨a, rfl, rfl⟩⟩

end Readings

section Types

variable {s : String} {n : Int}

theorem reads_or_refuses_int (s : String) : (∃ n, Reads .int s n) ∨ Refuses .int s :=
  reads_or_refuses int rfl fun _ => rfl

theorem reads_or_refuses_bigint (s : String) : (∃ n, Reads .bigint s n) ∨ Refuses .bigint s :=
  reads_or_refuses bigint rfl fun _ => rfl

theorem reads_or_refuses_varint (s : String) : (∃ n, Reads .varint s n) ∨ Refuses .varint s :=
  reads_or_refuses varint rfl fun n => Option.some_inj.2 (Eq.refl (id n))

theorem reads_int_iff : Reads .int s n ↔ Signed (Digits []) s.toList n ∧ Integer.Fits 32 n :=
  (reads_iff int rfl fun _ => rfl).trans (Integer.exists_ofText?_iff (by decide))

theorem reads_bigint_iff : Reads .bigint s n ↔ Signed (Digits []) s.toList n ∧ Integer.Fits 64 n :=
  (reads_iff bigint rfl fun _ => rfl).trans (Integer.exists_ofText?_iff (by decide))

theorem reads_varint_iff : Reads .varint s n ↔ Signed (Digits ['_']) s.toList n := by
  rw [reads_iff varint rfl fun n => Option.some_inj.2 (Eq.refl (id n)), ← Varint.ofText?_eq_some_iff]
  simp

end Types

/-- An integer without bounds is read from an optional sign and digits, with underscores
anywhere behind the first digit. Without underscores these are an optional sign and digits,
and from just those that are read so, and whose integer fits, words are read. All other texts
are refused as invalid arguments. -/
theorem integers_from_text (s : String) (n : Int) :
    (Reads .varint s n ↔ Signed (Digits ['_']) s.toList n) ∧
    (Reads .varint s n ∧ '_' ∉ s.toList ↔ Signed (Digits []) s.toList n) ∧
    (Reads .bigint s n ↔ Reads .varint s n ∧ '_' ∉ s.toList ∧ Integer.Fits 64 n) ∧
    (Reads .int s n ↔ Reads .varint s n ∧ '_' ∉ s.toList ∧ Integer.Fits 32 n) ∧
    ((∃ m, Reads .varint s m) ∨ Refuses .varint s) ∧
    ((∃ m, Reads .bigint s m) ∨ Refuses .bigint s) ∧
    ((∃ m, Reads .int s m) ∨ Refuses .int s) := by
  have hplain : Reads .varint s n ∧ '_' ∉ s.toList ↔ Signed (Digits []) s.toList n := by
    rw [reads_varint_iff, signed_digits_iff]
  refine ⟨reads_varint_iff, hplain, ?_, ?_, reads_or_refuses_varint s, reads_or_refuses_bigint s, reads_or_refuses_int s⟩
  · rw [← and_assoc, hplain, reads_bigint_iff]
  · rw [← and_assoc, hplain, reads_int_iff]

/-- Digits with an underscore among them are read as an integer without bounds, although they
are not an optional sign and digits. No words are read from them. -/
theorem underscore_read :
    Reads .varint "1_2" 12 ∧ ¬Signed (Digits []) "1_2".toList 12 ∧ Refuses .bigint "1_2" ∧ Refuses .int "1_2" := by
  have hgrouped : Digits ['_'] ['1', '_', '2'] 12 :=
    ((Digits.first (show 1 < 10 by decide)).mark (List.mem_singleton.2 rfl)).digit (show 2 < 10 by decide)
  have hplain : ∀ n, ¬Signed (Digits []) "1_2".toList n := fun n h => (signed_digits_iff.1 h).2 (by simp)
  refine ⟨reads_varint_iff.2 (.of .none hgrouped), hplain 12, ?_, ?_⟩
  · exact (reads_or_refuses_bigint _).resolve_left fun ⟨n, hn⟩ => hplain n (reads_bigint_iff.1 hn).1
  · exact (reads_or_refuses_int _).resolve_left fun ⟨n, hn⟩ => hplain n (reads_int_iff.1 hn).1

end Scalar

end WideColumn
