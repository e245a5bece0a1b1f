import Mathlib
import WideColumn.Proofs.Except
import WideColumn.Proofs.Integer.Checked
import WideColumn.Scalar.Text
/-!
# Instants from their parts

Whole seconds and microseconds make the instant of their exact sum in milliseconds, and
nothing else (`Timestamp.ofParts?_eq_some_iff`). But the seconds have to fit as milliseconds
on their own: some parts of opposite signs are refused although their sum fits, and the parts of
the first instants of all do not make them again.
-/

namespace WideColumn.Timestamp

open Integer

/-- The milliseconds of whole seconds and of microseconds, the latter cut off toward zero. -/
def millisOfParts (seconds micros : BitVec 64) : Int := seconds.toInt * 1000 + micros.toInt.tdiv 1000

theorem toInt_sdiv_thousand (micros : BitVec 64) : (micros.sdiv 1000).toInt = micros.toInt.tdiv 1000 :=
  BitVec.toInt_sdiv_of_ne_or_ne micros 1000 (.inr (by decide))

/-- The instant of some parts has just their milliseconds. There is one if those fit, and
those of the seconds alone as well. -/
theorem ofParts?_eq_some_iff {seconds micros : BitVec 64} {t : Timestamp} :
    ofParts? seconds micros = some t ↔ Fits 64 (seconds.toInt * 1000) ∧ t.value = millisOfParts seconds micros := by
  have hproduct (m : BitVec 64) : mul seconds 1000 = .ok m ↔ m.toInt = seconds.toInt * 1000 := mul_eq_ok_iff
  unfold ofParts?
  cases hmul : mul seconds 1000 with
  | error e =>
    have hwide : ¬Fits 64 (seconds.toInt * 1000) := by
      rw [← exists_toInt_eq_iff (by decide)]
      rintro ⟨m, hm⟩
      rw [(hproduct m).2 hm] at hmul
      cases hmul
    simp [hwide]
  | ok m =>
    have hm := (hproduct m).1 hmul
    have hsum (n : BitVec 64) : add m (micros.sdiv 1000) = .ok n ↔ n.toInt = millisOfParts seconds micros := by
      rw [add_eq_ok_iff, hm, toInt_sdiv_thousand, millisOfParts]
    simp only [← hm, fits_toInt, true_and, Option.map_eq_some_iff, Except.toOption_eq_some_iff, hsum]
    constructor
    · rintro ⟨n, hn, rfl⟩
      exact hn
    · exact fun ht => ⟨t.millis, ht, rfl⟩

/-- The whole seconds of an instant, rounded down, as a word. -/
def secondsWord (t : Timestamp) : BitVec 64 := .ofInt 64 t.seconds

/-- What an instant has beyond its whole seconds, in microseconds. -/
def microsWord (t : Timestamp) : BitVec 64 := .ofInt 64 ((t.value - 1000 * t.seconds) * 1000)

theorem value_bounds (t : Timestamp) : -9223372036854775808 ≤ t.value ∧ t.value < 9223372036854775808 :=
  fits_iff.1 (fits_toInt t.millis)

theorem toInt_secondsWord (t : Timestamp) : t.secondsWord.toInt = t.value / 1000 := by
  have hbounds := t.value_bounds
  exact toInt_ofInt_of_fits (by decide) (fits_iff.2 (by unfold seconds; omega))

theorem toInt_microsWord (t : Timestamp) : t.microsWord.toInt = t.value % 1000 * 1000 := by
  have hrest : t.value - 1000 * t.seconds = t.value % 1000 := by
    unfold seconds
    omega
  rw [microsWord, hrest]
  exact toInt_ofInt_of_fits (by decide) (fits_iff.2 (by omega))

theorem millisOfParts_words (t : Timestamp) : millisOfParts t.secondsWord t.microsWord = t.value := by
  rw [millisOfParts, toInt_secondsWord, toInt_microsWord, Int.mul_tdiv_cancel _ (by decide)]
  omega

/-- Parts are refused as out of range if their milliseconds do not fit, or if those of the
seconds alone do not. All others make the instant of exactly their milliseconds. The parts of
an instant make it again from the first whole second on whose milliseconds fit. -/
theorem ofParts_exact (seconds micros : BitVec 64) (t : Timestamp) :
    (if Fits 64 (seconds.toInt * 1000) ∧ Fits 64 (millisOfParts seconds micros) then
      ∃ r, Scalar.ofParts seconds micros = .ok (.timestamp r) ∧ r.value = millisOfParts seconds micros
    else ∃ e, Scalar.ofParts seconds micros = .error e ∧ e.kind = .range) ∧
    (Scalar.ofParts t.secondsWord t.microsWord = .ok (.timestamp t) ↔ -9223372036854775000 ≤ t.value) := by
  have hread (s m : BitVec 64) (r : Timestamp) :
      Scalar.ofParts s m = .ok (.timestamp r) ↔ Fits 64 (s.toInt * 1000) ∧ r.value = millisOfParts s m := by
    rw [← ofParts?_eq_some_iff, Scalar.ofParts]
    cases ofParts? s m <;> simp
  constructor
  · split
    · next h =>
      obtain ⟨millis, hmillis⟩ := (exists_toInt_eq_iff (by decide)).2 h.2
      exact ⟨⟨millis⟩, (hread _ _ _).2 ⟨h.1, hmillis⟩, hmillis⟩
    · next h =>
      refine ⟨.instantOutside, ?_, rfl⟩
      have hnone : ofParts? seconds micros = none := by
        rw [Option.eq_none_iff_forall_ne_some]
        intro r hr
        obtain ⟨hseconds, hr⟩ := ofParts?_eq_some_iff.1 hr
        exact h ⟨hseconds, hr ▸ fits_toInt r.millis⟩
      rw [Scalar.ofParts, hnone]
      rfl
  · have hbounds := t.value_bounds
    rw [hread, millisOfParts_words, toInt_secondsWord, fits_iff]
    omega

/-- The parts of the first instant of all are refused, although they have its milliseconds. -/
theorem ofParts_refuses_first :
    millisOfParts (.ofInt 64 (-9223372036854776)) (.ofInt 64 192000) = -9223372036854775808 ∧
    Fits 64 (-9223372036854775808) ∧
    Scalar.ofParts (.ofInt 64 (-9223372036854776)) (.ofInt 64 192000) = .error .instantOutside :=
  ⟨by decide, by decide, rfl⟩

end WideColumn.Timestamp
