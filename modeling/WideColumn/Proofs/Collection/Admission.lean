import Mathlib
import WideColumn.Collection.Admission
import WideColumn.Proofs.Except
/-!
# What may enter a slot

`Stored t v` says what a value in a slot of type `t` is like. Whatever is admitted
is of that kind, and what is of that kind is admitted as it is, so that a second
admission changes nothing. Texts keep their characters when they take on a type.
-/

namespace WideColumn

/-! ## Texts -/

/-- Only bytes below 128. -/
def Text.IsAscii (s : String) : Prop := ∀ b ∈ Text.utf8 s, b < 128

theorem Scalar.checkAscii_eq_ok_iff {s : String} {u : Unit} : checkAscii s = .ok u ↔ Text.IsAscii s := by
  have find : firstNonAscii? s = none ↔ Text.IsAscii s := by
    rw [firstNonAscii?, List.findIdx?_eq_none_iff]
    exact forall₂_congr fun b _ => by simp
  rw [checkAscii]
  cases h : firstNonAscii? s with
  | none => exact ⟨fun _ => find.1 h, fun _ => rfl⟩
  | some i =>
    refine ⟨fun h' => ?_, fun h' => ?_⟩
    · cases h'
    · rw [find.2 h'] at h
      cases h

theorem ScalarType.accepts_iff {t u : ScalarType} : t.accepts u = true ↔
    u = t ∨ (t = .text ∧ u = .varchar) ∨ (t = .varchar ∧ u = .text) ∨ (t = .ascii ∧ (u = .varchar ∨ u = .text)) := by
  unfold accepts
  rw [Bool.or_eq_true, beq_iff_eq, eq_comm (a := u)]
  split <;> simp_all

theorem ScalarType.accepts_self (t : ScalarType) : t.accepts t = true := accepts_iff.2 (.inl rfl)

namespace Scalar

/-- A text that is recast takes on the type, if its characters are fit for it; all else
stays what it is. -/
theorem recast_cases {t : ScalarType} {s r : Scalar} (h : s.recast t = .ok r) :
    (s.asText? = none ∧ s.type = t ∧ r = s) ∨
      ∃ c, s.asText? = some c ∧ r.asText? = some c ∧ r.type = t ∧ (t = .ascii → Text.IsAscii c) := by
  unfold recast at h
  split at h
  · next c hs =>
    obtain ⟨_, hcheck, rfl⟩ := Except.map_eq_ok_iff.1 h
    exact .inr ⟨c, hs, rfl, rfl, fun _ => checkAscii_eq_ok_iff.1 hcheck⟩
  · next hchecked =>
    split at h
    · next htype =>
      cases h
      cases hs : s.asText? with
      | none => exact .inl ⟨rfl, htype, rfl⟩
      | some c => exact .inr ⟨c, rfl, rfl, htype, fun ht => (hchecked c hs ht).elim⟩
    · split at h
      · cases h
        exact .inr ⟨_, rfl, rfl, rfl, by simp⟩
      · cases h
        exact .inr ⟨_, rfl, rfl, rfl, by simp⟩
      · cases h

theorem recast_ascii {s : Scalar} {c : String} (h : s.asText? = some c) : s.recast .ascii = ofAscii c := by
  simp only [recast, h]

theorem asText?_eq_none_iff {s : Scalar} : s.asText? = none ↔ s.type ≠ .ascii ∧ s.type ≠ .varchar ∧ s.type ≠ .text := by
  cases s <;> simp [asText?, type]

/-- What a type accepts is recast, but for the check of the characters of `ascii`. -/
theorem exists_recast {t : ScalarType} {s : Scalar} (ht : t.accepts s.type = true) (h : t = .ascii → s.asText? = none) :
    ∃ r, s.recast t = .ok r := by
  rcases ScalarType.accepts_iff.1 ht with htype | ⟨rfl, htype⟩ | ⟨rfl, htype⟩ | ⟨rfl, htype⟩
  · refine ⟨s, ?_⟩
    unfold recast
    split
    · next c hs =>
      rw [h rfl] at hs
      cases hs
    · exact if_pos htype
  · cases s <;> cases htype
    exact ⟨_, rfl⟩
  · cases s <;> cases htype
    exact ⟨_, rfl⟩
  · obtain ⟨-, hvarchar, htext⟩ := asText?_eq_none_iff.1 (h rfl)
    rcases htype with htype | htype
    · exact absurd htype hvarchar
    · exact absurd htype htext

/-- A value is recast to the types that accept it and to no others. A slot asks that first, so it refuses
a value that its type accepts only for its characters. -/
theorem recast_eq_unaccepted_iff {t : ScalarType} {s : Scalar} :
    s.recast t = .error (.unaccepted t s.type) ↔ t.accepts s.type = false := by
  constructor
  · intro h
    by_contra ht
    rw [Bool.not_eq_false] at ht
    cases hs : s.asText? with
    | none =>
      obtain ⟨r, hr⟩ := exists_recast ht fun _ => hs
      rw [hr] at h
      cases h
    | some c =>
      by_cases hascii : t = .ascii
      · subst hascii
        rw [recast_ascii hs, ofAscii, checkAscii] at h
        split at h <;> cases h
      · obtain ⟨r, hr⟩ := exists_recast ht fun h => absurd h hascii
        rw [hr] at h
        cases h
  · intro ht
    unfold recast
    split
    · next c hs =>
      cases s <;> cases hs <;> cases ht
    · split
      · next htype =>
        rw [htype, ScalarType.accepts_self] at ht
        cases ht
      · split
        · cases ht
        · cases ht
        · rfl

end Scalar

/-! ## Slots -/

/-- A value as it may stand in a slot of type `t`: of exactly that type, so not null, and
if it is of type `ascii`, a text of 7-bit bytes. -/
@[mk_iff]
structure Stored (t : DataType) (v : Value) : Prop where
  type_eq : v.type? = some t
  ascii : ∀ s, v = .scalar (.ascii s) → Text.IsAscii s

theorem Stored.not_null {t : DataType} {v : Value} (h : Stored t v) : v ≠ .null := by
  rintro rfl
  cases h.type_eq

/-- What is wrong with a collection in a slot of another type. -/
def Value.misfit (declared : DataType) (slot : Slot) (v : Value) : Error :=
  match declared with
  | .custom name => .customSlot slot name v.typeName
  | _ => .wrongType slot declared v.typeName

/-- A collection is admitted as it is, where its type is declared and nowhere else. -/
theorem admitted_collection {v : Value} (hn : v ≠ .null) (hs : v.asScalar? = none) (t : DataType) (slot : Slot) :
    admitted t slot v = if v.type? = some t then .ok v else .error (v.misfit t slot) := by
  cases v with
  | null => exact absurd rfl hn
  | scalar s => cases hs
  | list l => cases t <;> simp [admitted, Value.type?, Value.misfit]
  | set s => cases t <;> simp [admitted, Value.type?, Value.misfit]
  | map m => cases t <;> simp [admitted, Value.type?, Value.misfit]

theorem admitted_cases {t : DataType} {slot : Slot} {v w : Value} (h : admitted t slot v = .ok w) :
    (∃ u s r, t = .scalar u ∧ v = .scalar s ∧ u.accepts s.type = true ∧ s.recast u = .ok r ∧ w = .scalar r) ∨
      (v.type? = some t ∧ v.asScalar? = none ∧ w = v) := by
  cases v with
  | null => cases t <;> cases h
  | scalar s =>
    cases t with
    | scalar u =>
      simp only [admitted, Except.ite_error_eq_ok_iff, Except.map_eq_ok_iff] at h
      obtain ⟨hu, r, hr, rfl⟩ := h
      exact .inl ⟨u, s, r, rfl, rfl, hu, hr, rfl⟩
    | _ => simp [admitted, Value.type?] at h
  | list | set | map =>
    rw [admitted_collection (by simp) rfl, Except.ite_error_eq_ok_iff] at h
    exact .inr ⟨h.1, rfl, (Except.ok.inj h.2).symm⟩

theorem Stored.of_admitted {t : DataType} {slot : Slot} {v w : Value} (h : admitted t slot v = .ok w) : Stored t w := by
  rcases admitted_cases h with ⟨u, s, r, rfl, rfl, hu, hr, rfl⟩ | ⟨ht, hs, rfl⟩
  · rcases Scalar.recast_cases hr with ⟨hs, ht, rfl⟩ | ⟨c, -, hc, ht, hascii⟩
    · refine ⟨by rw [Value.type?, ht], ?_⟩
      rintro d hd
      cases hd
      cases hs
    · refine ⟨by rw [Value.type?, ht], ?_⟩
      rintro d hd
      cases hd
      cases hc
      exact hascii ht.symm
  · refine ⟨ht, ?_⟩
    rintro d rfl
    cases hs

/-- What may stand in a slot is admitted as it is. -/
theorem Stored.admitted_eq {t : DataType} {v : Value} (h : Stored t v) (slot : Slot) : admitted t slot v = .ok v := by
  obtain ⟨htype, hascii⟩ := h
  cases v with
  | null => cases htype
  | scalar s =>
    cases htype
    rw [admitted, if_pos (ScalarType.accepts_self _)]
    cases s with
    | ascii c =>
      have hcheck : Scalar.checkAscii c = .ok () := Scalar.checkAscii_eq_ok_iff.2 (hascii c rfl)
      simp only [Scalar.recast, Scalar.asText?, Scalar.type, Scalar.ofAscii, hcheck]
      rfl
    | _ => rfl
  | list | set | map => rw [admitted_collection (by simp) rfl, if_pos htype]

/-- Admission leaves texts their characters and everything else as it is. -/
theorem asText?_of_admitted {t : DataType} {slot : Slot} {v w : Value} (h : admitted t slot v = .ok w) :
    w.asText? = v.asText? ∧ (v.asText? = none → w = v) := by
  rcases admitted_cases h with ⟨u, s, r, rfl, rfl, hu, hr, rfl⟩ | ⟨-, -, rfl⟩
  · rcases Scalar.recast_cases hr with ⟨-, -, rfl⟩ | ⟨c, hs, hc, -⟩
    · exact ⟨rfl, fun _ => rfl⟩
    · change r.asText? = s.asText? ∧ (s.asText? = none → _)
      rw [hs, hc]
      exact ⟨rfl, by simp⟩
  · exact ⟨rfl, fun _ => rfl⟩

end WideColumn
