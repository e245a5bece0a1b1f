import WideColumn.Proofs.Decimal.Literal
/-!
# Decimals read back from their text

Every text that is written of a decimal is a literal behind a sign: a mantissa, which may have
a point in it, and an exponent that may be absent (`Decimal.Literal`). So it is read as what
the literal says (`Decimal.Literal.standard`). What the text does not keep is the scale of a
number with zeros written for its missing places.
-/

namespace WideColumn.Decimal

open Numeral

/-! ## Literals -/

/-- The end of a literal: nothing, or an exponent. -/
inductive Exponent : List Char → Int → Prop
  | absent : Exponent [] 0
  | written (e : Int) : Exponent (exponentText e) e

/-- A literal without sign, with the number that its digits write and its scale. -/
inductive Literal : List Char → Nat → Int → Prop
  | of {mantissa ds exponent : List Char} {places : Nat} {e : Int} (hm : Mantissa mantissa ds places)
      (hd : AllDigits ds) (hne : ds ≠ []) (he : Exponent exponent e) :
      Literal (mantissa ++ exponent) (Nat.ofDigitChars 10 ds 0) (places - e)

/-! ## Reading -/

theorem Exponent.part {cs : List Char} {e : Int} (h : Exponent cs e) : ExponentPart cs e := by
  cases h with
  | absent => exact .absent
  | written e => exact .marked (by simp) (signed_of_sign e)

/-- A literal of the text of a decimal is one of the grammar, also behind a minus sign. -/
theorem Literal.standard {cs : List Char} {n : Nat} {s : Int} (h : Literal cs n s) (negative : Bool) :
    Standard (signed negative cs) (if negative then -(n : Int) else n) s := by
  obtain ⟨hm, hd, hne, he⟩ := h
  rw [signed_append]
  exact .of (signed_signed ⟨_, hm, natural?_eq_some_iff.1 (natural?_eq hne hd)⟩ negative) he.part

/-- A literal with a sign is read as the number that it writes, at its scale. -/
theorem ofText?_withSign {cs : List Char} {n : Nat} {s : Scale} (h : Literal cs n s.val) (negative : Bool) :
    ofText? (withSign negative cs) = some (.ok ⟨if negative then -(n : Int) else n, s⟩) := by
  have hread := literal?_eq_some_iff.2 ⟨(h.standard negative).lenient, s.fits⟩
  rw [ofText?, toList_withSign, hread]
  exact congrArg some (ofScaled_val _ s)

/-! ## Writing -/

theorem Mantissa.literal {mantissa ds : List Char} {places : Nat} (hm : Mantissa mantissa ds places) (hd : AllDigits ds)
    (hne : ds ≠ []) : Literal mantissa (Nat.ofDigitChars 10 ds 0) places := by
  simpa using Literal.of hm hd hne .absent

/-- A point among the digits and zeros in front of them leave the number as it is. -/
theorem pointed_literal {ds : List Char} (hd : AllDigits ds) (hne : ds ≠ []) (places : Nat) :
    Literal (Binary.pointed ds places) (Nat.ofDigitChars 10 ds 0) places := by
  unfold Binary.pointed
  by_cases hplaces : places = 0
  · rw [if_pos hplaces, hplaces]
    exact (Mantissa.plain ds).literal hd hne
  · rw [if_neg hplaces, ← ofDigitChars_zeros_append (places + 1 - ds.length) ds]
    have hlength : places < (List.replicate (places + 1 - ds.length) '0' ++ ds).length := by
      rw [List.length_append, List.length_replicate]
      omega
    have hall := (allDigits_zeros (places + 1 - ds.length)).append hd
    have hpadded : List.replicate (places + 1 - ds.length) '0' ++ ds ≠ [] := List.append_ne_nil_of_right_ne_nil _ hne
    generalize List.replicate (places + 1 - ds.length) '0' ++ ds = padded at hlength hall hpadded ⊢
    have hm := Mantissa.pointed (padded.take (padded.length - places)) (padded.drop (padded.length - places))
    rw [List.take_append_drop, List.length_drop, Nat.sub_sub_self hlength.le] at hm
    exact hm.literal hall hpadded

/-- Digits with all their places are a literal: zeros are powers of ten behind them, and
without weight in front of them. -/
theorem positional_literal {ds : List Char} (hd : AllDigits ds) (hne : ds ≠ []) (e : Int) :
    Literal (Binary.positional ds e) (Nat.ofDigitChars 10 ds 0 * 10 ^ e.toNat) (-e).toNat := by
  unfold Binary.positional
  by_cases he : 0 ≤ e
  · have hplaces : (-e).toNat = 0 := by omega
    rw [if_pos he, hplaces, ← ofDigitChars_append_zeros]
    exact (Mantissa.plain _).literal (hd.append (allDigits_zeros _)) (List.append_ne_nil_of_left_ne_nil hne _)
  · have hpower : e.toNat = 0 := by omega
    rw [if_neg he, hpower, pow_zero, mul_one]
    exact pointed_literal hd hne _

theorem mantissa_pointAfterFirst {ds : List Char} (hne : ds ≠ []) : Mantissa (pointAfterFirst ds) ds (ds.length - 1) := by
  cases ds with
  | nil => exact absurd rfl hne
  | cons first rest =>
    cases rest with
    | nil => exact .plain [first]
    | cons second rest => exact .pointed [first] (second :: rest)

theorem scientific_literal {ds : List Char} (hd : AllDigits ds) (hne : ds ≠ []) (s : Int) :
    Literal (pointAfterFirst ds ++ exponentText (ds.length - 1 - s)) (Nat.ofDigitChars 10 ds 0) s := by
  have hlength : 0 < ds.length := List.length_pos_of_ne_nil hne
  have hscale : ((ds.length - 1 : Nat) : Int) - (ds.length - 1 - s) = s := by omega
  have h := Literal.of (mantissa_pointAfterFirst hne) hd hne (.written (ds.length - 1 - s))
  rwa [hscale] at h

/-- What is read back from the text of a decimal: with scale zero, if zeros were written for
missing places, and otherwise the decimal as it was. -/
def restored (d : Decimal) : Decimal :=
  if (-64 ≤ d.scale.val ∧ d.scale.val ≤ -1) ∨ (d.scale.val < 0 ∧ d.unscaled = 0) then
    ⟨d.unscaled * 10 ^ (-d.scale.val).toNat, .zero⟩
  else d

theorem restored_of_whole {d : Decimal} (hs : d.scale.val ≤ 0) (h : -64 ≤ d.scale.val ∨ d.unscaled = 0) :
    d.restored = ⟨d.unscaled * 10 ^ (-d.scale.val).toNat, .zero⟩ := by
  by_cases hzero : d.scale.val = 0
  · have hscale : d.scale = .zero := Scale.ext hzero
    have hself : d.restored = d := if_neg (by omega)
    rw [hself]
    obtain ⟨n, s⟩ := d
    cases hscale
    exact congrArg₂ Decimal.mk (mul_one n).symm rfl
  · exact if_pos (by omega)

theorem restored_of_not_whole {d : Decimal} (h : 0 < d.scale.val ∨ (d.scale.val < -64 ∧ d.unscaled ≠ 0)) :
    d.restored = d := if_neg (by omega)

theorem mostPadding_lt_padding_iff (d : Decimal) (digitCount : Nat) :
    mostPadding < d.padding digitCount ↔ d.scale.val < -64 ∨ 64 + digitCount < d.scale.val := by
  unfold mostPadding padding
  split <;> omega

/-- The text of a magnitude is a literal of what is read back from it. -/
theorem magnitudeText_literal (d : Decimal) : Literal d.magnitudeText d.restored.unscaled.natAbs d.restored.scale.val := by
  have hd := allDigits_digits d.unscaled.natAbs
  have hne := digits_ne_nil d.unscaled.natAbs
  have hscientific := scientific_literal hd hne d.scale.val
  have hpositional := positional_literal hd hne (-d.scale.val)
  rw [ofDigitChars_digits] at hscientific hpositional
  have hwhole (k : Nat) : (d.unscaled * 10 ^ k).natAbs = d.unscaled.natAbs * 10 ^ k := by
    rw [Int.natAbs_mul, Int.natAbs_pow]
    rfl
  unfold magnitudeText
  by_cases hnothing : d.scale.val ≤ 0 ∧ d.unscaled = 0
  · rw [if_pos hnothing, restored_of_whole hnothing.1 (.inr hnothing.2), hwhole, hnothing.2, Int.natAbs_zero, Nat.zero_mul]
    exact (Mantissa.plain ['0']).literal (allDigits_zeros 1) (by decide)
  rw [if_neg hnothing]
  have hpadding := d.mostPadding_lt_padding_iff (digits d.unscaled.natAbs).length
  by_cases hlong : mostPadding < d.padding (digits d.unscaled.natAbs).length
  · rw [if_pos hlong, restored_of_not_whole (by omega)]
    by_cases hzero : d.unscaled = 0
    · have hdigits : digits d.unscaled.natAbs = ['0'] := by rw [hzero]; rfl
      rw [if_pos hzero]
      simpa [hdigits, pointAfterFirst] using hscientific
    · rw [if_neg hzero]
      exact hscientific
  rw [if_neg hlong]
  -- a scale of zero or less is written as zeros, and any other as a point
  by_cases hs : d.scale.val ≤ 0
  · have hplaces : (- -d.scale.val).toNat = 0 := by omega
    rw [restored_of_whole hs (.inl (by omega)), hwhole]
    rwa [hplaces] at hpositional
  · have hpower : (-d.scale.val).toNat = 0 := by omega
    have hplaces : ((- -d.scale.val).toNat : Int) = d.scale.val := by omega
    rw [restored_of_not_whole (.inl (not_le.1 hs))]
    rwa [hpower, pow_zero, mul_one, hplaces] at hpositional

theorem restored_sign (d : Decimal) : d.restored.unscaled < 0 ↔ d.unscaled < 0 := by
  unfold restored
  split
  · have hten : (0 : Int) < 10 ^ (-d.scale.val).toNat := by positivity
    exact ⟨fun h => neg_of_mul_neg_left h hten.le, fun h => mul_neg_of_neg_of_pos h hten⟩
  · rfl

theorem restored_value (d : Decimal) : d.restored.value = d.value := by
  unfold restored
  split
  · next h =>
    have hnat : ((-d.scale.val).toNat : Int) = -d.scale.val := by omega
    have hzero : Scale.zero.val = 0 := rfl
    rw [value, value, hzero, neg_zero, zpow_zero, mul_one, Int.cast_mul, Int.cast_pow, Int.cast_ofNat, ← zpow_natCast, hnat]
  · rfl

theorem ofText?_text (d : Decimal) : ofText? d.text = some (.ok d.restored) := by
  have hn : (if decide (d.unscaled < 0) then -(d.restored.unscaled.natAbs : Int) else d.restored.unscaled.natAbs) =
      d.restored.unscaled := by
    have hsign := d.restored_sign
    simp only [decide_eq_true_eq]
    split <;> omega
  rw [text, ofText?_withSign d.magnitudeText_literal, hn]

/-- The text of every decimal is read back as a decimal of the same value. It is the same
decimal, unless zeros stand in the text for missing places or it is that of a zero with such
places: those come back with scale zero. -/
theorem text_round_trip (d : Decimal) :
    ∃ r, ofText? d.text = some (.ok r) ∧ r.value = d.value ∧
      r = if (-64 ≤ d.scale.val ∧ d.scale.val ≤ -1) ∨ (d.scale.val < 0 ∧ d.unscaled = 0) then
        ⟨d.unscaled * 10 ^ (-d.scale.val).toNat, .zero⟩
      else d :=
  ⟨d.restored, d.ofText?_text, d.restored_value, rfl⟩

end WideColumn.Decimal
