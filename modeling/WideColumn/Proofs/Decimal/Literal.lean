import Mathlib
import WideColumn.Proofs.Decimal.Arithmetic
import WideColumn.Proofs.Numeral.Grammar
import WideColumn.Scalar.Text
/-!
# The literals of decimals

A decimal literal is an optional sign, digits that may have a point among them, and an
exponent that may be absent (`Decimal.Standard`). Reading takes the first point out and reads
what is left as an integer, so it accepts more: underscores among the digits, and a sign
behind a point at the start (`Decimal.Lenient`). All that it accepts beside the literals has
one or the other (`Decimal.standard_iff`).
-/

namespace WideColumn

open Numeral

attribute [ext] Scale Decimal

theorem Scale.narrow (s : Scale) : Integer.Fits 32 s.val := ⟨s.lower, s.upper⟩

theorem Scale.fits (s : Scale) : Integer.Fits 64 s.val := by
  have hlower := s.lower
  have hupper := s.upper
  unfold Integer.Fits Integer.least Integer.greatest
  norm_num
  omega

namespace Decimal

/-! ## Grammar -/

/-- The digits as they are, or with a point before the last few of them. -/
inductive Mantissa : List Char → List Char → Nat → Prop
  | plain (ds : List Char) : Mantissa ds ds 0
  | pointed (whole fraction : List Char) : Mantissa (whole ++ '.' :: fraction) (whole ++ fraction) fraction.length

/-- The end of a literal: nothing, or a mark and an integer. -/
inductive ExponentPart : List Char → Int → Prop where
  | absent : ExponentPart [] 0
  | marked {mark : Char} {cs : List Char} {e : Int} (hmark : mark ∈ ['e', 'E']) (he : Signed (Digits []) cs e) :
    ExponentPart (mark :: cs) e

/-- `Standard cs n s`: the characters `cs` are a literal, with `n` as the number that all its digits
write and `s` digits behind the point less the exponent. -/
inductive Standard : List Char → Int → Int → Prop where
  | of {cs exponent : List Char} {n e : Int} {places : Nat}
      (hn : Signed (fun mantissa m => ∃ ds, Mantissa mantissa ds places ∧ Digits [] ds m) cs n)
      (he : ExponentPart exponent e) : Standard (cs ++ exponent) n (places - e)

/-- The characters as they are, or with a point put anywhere among them. What is behind the
point counts as places, except for underscores. -/
inductive Pointed : List Char → List Char → Nat → Prop where
  | plain (cs : List Char) : Pointed cs cs 0
  | pointed (whole fraction : List Char) :
    Pointed (whole ++ '.' :: fraction) (whole ++ fraction) (fraction.filter (· ≠ '_')).length

/-- `Lenient cs n s`: the characters `cs` are read as the number `n` at the scale `s`. A point stands
anywhere in an integer whose digits underscores may group, and an exponent may follow. -/
inductive Lenient : List Char → Int → Int → Prop where
  | of {cs integer exponent : List Char} {n e : Int} {places : Nat} (hp : Pointed cs integer places)
      (hn : Signed (Digits ['_']) integer n) (he : ExponentPart exponent e) : Lenient (cs ++ exponent) n (places - e)

/-- A sign stands behind a point, at the start of the characters. -/
def SignBehindPoint (cs : List Char) : Prop := ∃ sign ∈ ['+', '-'], ∃ rest, cs = '.' :: sign :: rest

/-! ## Reading -/

theorem isExponentMark_iff {c : Char} : isExponentMark c = true ↔ c ∈ ['e', 'E'] := by
  simp [isExponentMark]

theorem splitExponent?_of_no_mark {cs : List Char} (hcs : ∀ c ∈ cs, isExponentMark c = false) :
    splitExponent? cs = some (cs, 0) := by
  have hpass : ∀ c ∈ cs, (!isExponentMark c) = true := fun c hc => by simp [hcs c hc]
  rw [splitExponent?, List.dropWhile_eq_nil_iff.2 hpass]

/-- The first mark is where the exponent begins. -/
theorem splitExponent?_of_mark {cs exponent : List Char} {mark : Char} (hcs : ∀ c ∈ cs, isExponentMark c = false)
    (hmark : isExponentMark mark = true) :
    splitExponent? (cs ++ mark :: exponent) = (integer? exponent).map fun e => (cs, e) := by
  have hpass : ∀ c ∈ cs, (!isExponentMark c) = true := fun c hc => by simp [hcs c hc]
  rw [splitExponent?, List.dropWhile_append_of_pos hpass, List.takeWhile_append_of_pos hpass]
  simp [hmark]

theorem splitExponent?_of_exponentPart {cs exponent : List Char} {e : Int} (hcs : ∀ c ∈ cs, isExponentMark c = false)
    (he : ExponentPart exponent e) : splitExponent? (cs ++ exponent) = some (cs, e) := by
  cases he with
  | absent => rw [List.append_nil, splitExponent?_of_no_mark hcs]
  | marked hmark he =>
    rw [splitExponent?_of_mark hcs (isExponentMark_iff.2 hmark), integer?_eq_some_iff.2 he, Option.map_some]

theorem exponentPart_of_splitExponent? {cs mantissa : List Char} {e : Int} (h : splitExponent? cs = some (mantissa, e)) :
    ∃ exponent, cs = mantissa ++ exponent ∧ ExponentPart exponent e := by
  cases hfind : cs.find? isExponentMark with
  | none =>
    have hcs : ∀ c ∈ cs, isExponentMark c = false := by simpa using hfind
    rw [splitExponent?_of_no_mark hcs] at h
    cases h
    exact ⟨[], by rw [List.append_nil], .absent⟩
  | some mark =>
    obtain ⟨hmark, before, exponent, rfl, hbefore⟩ := List.find?_eq_some_iff_append.1 hfind
    rw [splitExponent?_of_mark (by simpa using hbefore) hmark] at h
    obtain ⟨e, he, heq⟩ := Option.map_eq_some_iff.1 h
    cases heq
    exact ⟨mark :: exponent, rfl, .marked (isExponentMark_iff.1 hmark) (integer?_eq_some_iff.1 he)⟩

theorem splitPoint_of_no_point {cs : List Char} (hcs : '.' ∉ cs) : splitPoint cs = (cs, 0) := by
  have hpass : ∀ c ∈ cs, decide (c ≠ '.') = true := fun c hc => by simpa using ne_of_mem_of_not_mem hc hcs
  rw [splitPoint, List.dropWhile_eq_nil_iff.2 hpass]

/-- The first point is taken out, and what follows it counts as places. -/
theorem splitPoint_of_point {whole : List Char} (hwhole : '.' ∉ whole) (fraction : List Char) :
    splitPoint (whole ++ '.' :: fraction) = (whole ++ fraction, (fraction.filter (· ≠ '_')).length) := by
  have hpass : ∀ c ∈ whole, decide (c ≠ '.') = true := fun c hc => by simpa using ne_of_mem_of_not_mem hc hwhole
  rw [splitPoint, List.dropWhile_append_of_pos hpass, List.takeWhile_append_of_pos hpass,
    List.dropWhile_cons_of_neg (by decide), List.takeWhile_cons_of_neg (by decide), List.append_nil]

theorem pointed_splitPoint (cs : List Char) : Pointed cs (splitPoint cs).1 (splitPoint cs).2 := by
  by_cases hpoint : '.' ∈ cs
  · obtain ⟨whole, fraction, rfl, hwhole⟩ := List.eq_append_cons_of_mem hpoint
    rw [splitPoint_of_point hwhole]
    exact .pointed whole fraction
  · rw [splitPoint_of_no_point hpoint]
    exact .plain cs

theorem splitPoint_of_pointed {cs integer : List Char} {places : Nat} (h : Pointed cs integer places)
    (hinteger : '.' ∉ integer) : splitPoint cs = (integer, places) := by
  cases h with
  | plain => exact splitPoint_of_no_point hinteger
  | pointed whole fraction => exact splitPoint_of_point (fun h => hinteger (List.mem_append_left _ h)) fraction

theorem Pointed.mem {cs integer : List Char} {places : Nat} (h : Pointed cs integer places) :
    ∀ c ∈ cs, c = '.' ∨ c ∈ integer := by
  cases h with
  | plain => exact fun c hc => .inr hc
  | pointed whole fraction =>
    intro c hc
    simp only [List.mem_append, List.mem_cons] at hc ⊢
    tauto

/-- No point and no mark of an exponent stands in an integer. -/
theorem not_mem_marks_of_signed {integer : List Char} {n : Int} (hn : Signed (Digits ['_']) integer n) :
    ∀ c ∈ integer, c ∉ ['.', 'e', 'E'] := by
  intro c hc hmem
  rcases hn.mem c hc with hdigit | hmark | hsign
  · have hmarks : ['.', 'e', 'E'] ⊆ ['_', '+', '-', '.', 'e', 'E'] := by decide
    rw [isDigit_eq_false_of_mem (hmarks hmem)] at hdigit
    cases hdigit
  · have hfree : ∀ c ∈ ['_'], c ∉ ['.', 'e', 'E'] := by simp
    exact hfree c hmark hmem
  · have hfree : ∀ c ∈ ['+', '-'], c ∉ ['.', 'e', 'E'] := by simp
    exact hfree c hsign hmem

/-- What is read are the numbers of the grammar whose scales have 64 bits. -/
theorem literal?_eq_some_iff {cs : List Char} {n s : Int} :
    literal? cs = some (n, s) ↔ Lenient cs n s ∧ Integer.Fits 64 s := by
  constructor
  · intro h
    simp only [literal?, Option.bind_eq_bind, Option.bind_eq_some_iff] at h
    obtain ⟨⟨mantissa, e⟩, hsplit, m, hm, h⟩ := h
    obtain ⟨hfits, h⟩ := Option.ite_none_right_eq_some.1 h
    cases h
    obtain ⟨exponent, rfl, he⟩ := exponentPart_of_splitExponent? hsplit
    exact ⟨.of (pointed_splitPoint mantissa) (groupedInteger?_eq_some_iff.1 hm) he, hfits⟩
  · rintro ⟨@⟨cs, integer, exponent, n, e, places, hp, hn, he⟩, hfits⟩
    have hplain := not_mem_marks_of_signed hn
    have hunmarked : ∀ c ∈ cs, isExponentMark c = false := by
      intro c hc
      rw [← Bool.not_eq_true, isExponentMark_iff]
      rcases hp.mem c hc with rfl | hc
      · simp
      · exact fun hmem => hplain c hc (List.mem_cons_of_mem _ hmem)
    have hpoint := splitPoint_of_pointed hp fun hmem => hplain _ hmem (by simp)
    have hnumber := groupedInteger?_eq_some_iff.2 hn
    simp [literal?, splitExponent?_of_exponentPart hunmarked he, hpoint, hnumber, hfits]

theorem ofScaled_val (n : Int) (s : Scale) : ofScaled n s.val = .ok ⟨n, s⟩ := by
  rw [ofScaled, Scale.ofInt?_of_fits s.narrow]

/-! ## Literals among what is read -/

theorem ExponentPart.not_underscore {exponent : List Char} {e : Int} (h : ExponentPart exponent e) : '_' ∉ exponent := by
  cases h with
  | absent => exact List.not_mem_nil
  | marked hmark he =>
    have hunmarked : '_' ∉ ['e', 'E'] := by simp
    exact List.not_mem_cons_of_ne_of_not_mem (ne_of_mem_of_not_mem hmark hunmarked).symm (signed_digits_iff.1 he).2

theorem Mantissa.not_underscore {mantissa ds : List Char} {places : Nat} (hm : Mantissa mantissa ds places)
    (hd : AllDigits ds) : '_' ∉ mantissa := by
  have hfree : '_' ∉ ds := hd.not_mem (by decide)
  cases hm with
  | plain => exact hfree
  | pointed whole fraction =>
    simp only [List.mem_append, List.mem_cons, not_or] at hfree ⊢
    exact ⟨hfree.1, by decide, hfree.2⟩

/-- Among digits a point may stand anywhere, also behind a sign. -/
theorem Mantissa.toPointed {mantissa ds : List Char} {places : Nat} (hm : Mantissa mantissa ds places)
    (hd : AllDigits ds) (sign : List Char) : Pointed (sign ++ mantissa) (sign ++ ds) places := by
  cases hm with
  | plain => exact .plain _
  | pointed whole fraction =>
    have hfraction : AllDigits fraction := fun c hc => hd c (List.mem_append_right _ hc)
    have h := Pointed.pointed (sign ++ whole) fraction
    rwa [hfraction.filter_eq, List.append_assoc, List.append_assoc] at h

/-- A mantissa begins with a digit, or with a point and a digit behind it. -/
theorem Mantissa.not_signBehindPoint {mantissa ds : List Char} {places m : Nat} (hm : Mantissa mantissa ds places)
    (hd : Digits [] ds m) (exponent : List Char) : ¬SignBehindPoint (mantissa ++ exponent) := by
  rintro ⟨mark, hmark, rest, heq⟩
  have hsigns : ['+', '-'] ⊆ ['_', '+', '-', '.', 'e', 'E'] := by decide
  have hmark : isDigit mark = false := isDigit_eq_false_of_mem (hsigns hmark)
  obtain ⟨c, tail, hds, hc⟩ := hd.head
  have hpoint : c ≠ '.' := ne_of_isDigit hc (by decide)
  cases hm with
  | plain =>
    rw [hds] at heq
    exact hpoint (List.cons.inj heq).1
  | pointed whole fraction =>
    cases whole with
    | nil =>
      rw [List.nil_append] at hds
      rw [hds] at heq
      exact ne_of_isDigit hc hmark (List.cons.inj (List.cons.inj heq).2).1
    | cons w whole => exact hpoint ((List.cons.inj hds).1 ▸ (List.cons.inj heq).1)

/-- Where a point is taken out and leaves a sign in front, the sign stood before the point, or
right behind it at the start. -/
theorem whole_of_signed {sign whole fraction digits : List Char} {factor : Int} (hs : Sign sign factor)
    (heq : whole ++ fraction = sign ++ digits) (exponent : List Char)
    (hfree : ¬SignBehindPoint (whole ++ '.' :: fraction ++ exponent)) : ∃ w, whole = sign ++ w ∧ w ++ fraction = digits := by
  have hfirst {mark : Char} (hmark : mark ∈ ['+', '-']) (heq : whole ++ fraction = mark :: digits) :
      ∃ w, whole = mark :: w ∧ w ++ fraction = digits := by
    cases whole with
    | nil =>
      rw [List.nil_append] at heq
      exact absurd ⟨mark, hmark, digits ++ exponent, by rw [heq]; rfl⟩ hfree
    | cons c w =>
      obtain ⟨rfl, hrest⟩ := List.cons.inj heq
      exact ⟨w, rfl, hrest⟩
  cases hs with
  | none => exact ⟨whole, rfl, heq⟩
  | plus => exact hfirst (by simp) heq
  | minus => exact hfirst (by simp) heq

theorem Standard.lenient {cs : List Char} {n s : Int} (h : Standard cs n s) : Lenient cs n s := by
  obtain @⟨cs, exponent, n, e, places, @⟨sign, mantissa, factor, m, hs, ds, hm, hd⟩, he⟩ := h
  exact .of (hm.toPointed hd.allDigits sign) (.of hs (hd.mono (List.nil_subset _))) he

/-- A literal is what is read without underscores and without a sign behind a point. -/
theorem standard_iff {cs : List Char} {n s : Int} :
    Standard cs n s ↔ Lenient cs n s ∧ '_' ∉ cs ∧ ¬SignBehindPoint cs := by
  constructor
  · intro h
    refine ⟨h.lenient, ?_⟩
    obtain @⟨cs, exponent, n, e, places, @⟨sign, mantissa, factor, m, hs, ds, hm, hd⟩, he⟩ := h
    constructor
    · exact List.not_mem_append (List.not_mem_append hs.not_underscore (hm.not_underscore hd.allDigits)) he.not_underscore
    · cases hs with
      | none => exact hm.not_signBehindPoint hd exponent
      | plus | minus =>
        rintro ⟨_, _, _, heq⟩
        exact absurd (List.cons.inj heq).1 (by decide)
  · rintro ⟨@⟨cs, integer, exponent, n, e, places, hp, @⟨sign, digits, factor, m, hs, hn⟩, he⟩, hfree, hsign⟩
    have hfree : '_' ∉ cs := fun hmem => hfree (List.mem_append_left _ hmem)
    generalize hinteger : sign ++ digits = integer at hp
    cases hp with
    | plain =>
      subst hinteger
      have hdigits : '_' ∉ digits := fun hmem => hfree (List.mem_append_right _ hmem)
      exact .of (.of hs ⟨digits, .plain _, hn.unmarked (List.forall_mem_singleton.2 hdigits)⟩) he
    | pointed whole fraction =>
      -- with the sign in front, there are only digits on both sides of the point
      obtain ⟨w, rfl, rfl⟩ := whole_of_signed hs hinteger.symm exponent hsign
      simp only [List.mem_append, List.mem_cons, not_or] at hfree
      obtain ⟨⟨-, hw⟩, -, hfraction⟩ := hfree
      have hdigits : Digits [] (w ++ fraction) m :=
        hn.unmarked (List.forall_mem_singleton.2 (List.not_mem_append hw hfraction))
      have hplaces : fraction.filter (· ≠ '_') = fraction :=
        List.filter_eq_self.2 fun c hc => by simpa using ne_of_mem_of_not_mem hc hfraction
      rw [hplaces, List.append_assoc sign]
      exact .of (.of hs ⟨_, .pointed w fraction, hdigits⟩) he

end Decimal

namespace Scalar

open Decimal

/-! ## Decimals from text -/

/-- A text is no literal, one of a decimal, or one whose scale is too wide for decimals. -/
theorem ofText_decimal_cases (s : String) :
    (literal? s.toList = none ∧ ofText .decimal s = .error (.unreadable .decimal s)) ∨
    (∃ d, literal? s.toList = some (d.unscaled, d.scale.val) ∧ ofText .decimal s = .ok (.decimal d)) ∨
    (∃ n k, literal? s.toList = some (n, k) ∧ ¬Integer.Fits 32 k ∧
      ofText .decimal s = .error (.arithmetic (.scaleTooWide k))) := by
  rw [show ofText .decimal s = ofDecimal (.unreadable .decimal s) (ofText? s) from rfl, ofText?]
  rcases literal? s.toList with _ | ⟨n, k⟩
  · exact .inl ⟨rfl, rfl⟩
  by_cases hk : Integer.Fits 32 k
  · exact .inr (.inl ⟨⟨n, ⟨k, hk.1, hk.2⟩⟩, rfl, congrArg (ofDecimal _ ∘ some) (ofScaled_val n ⟨k, hk.1, hk.2⟩)⟩)
  · have hscaled : ofScaled n k = .error (.scaleTooWide k) := by rw [ofScaled, Scale.ofInt?_eq_none hk]
    exact .inr (.inr ⟨n, k, rfl, hk, congrArg (ofDecimal _ ∘ some) hscaled⟩)

variable {s : String}

theorem ofText_decimal_eq_ok_iff {d : Decimal} :
    ofText .decimal s = .ok (.decimal d) ↔ Lenient s.toList d.unscaled d.scale.val := by
  have hfits : Lenient s.toList d.unscaled d.scale.val ↔ literal? s.toList = some (d.unscaled, d.scale.val) :=
    (literal?_eq_some_iff.trans (and_iff_left d.scale.fits)).symm
  rw [hfits]
  rcases ofText_decimal_cases s with ⟨hliteral, hout⟩ | ⟨d', hliteral, hout⟩ | ⟨n, k, hliteral, hk, hout⟩
  · simp [hliteral, hout]
  · simp [hliteral, hout, Decimal.ext_iff, Scale.ext_iff]
  · have hscale : k ≠ d.scale.val := fun h => hk (h ▸ d.scale.narrow)
    simp [hliteral, hout, hscale]

theorem ofText_decimal_range_iff :
    (∃ e, ofText .decimal s = .error e ∧ e.kind = .range) ↔
      ∃ n k, Lenient s.toList n k ∧ Integer.Fits 64 k ∧ ¬Integer.Fits 32 k := by
  simp only [← and_assoc, ← literal?_eq_some_iff]
  rcases ofText_decimal_cases s with ⟨hliteral, hout⟩ | ⟨d, hliteral, hout⟩ | ⟨n, k, hliteral, hk, hout⟩
  · simp [hliteral, hout, Error.kind]
  · simp [hliteral, hout, d.scale.narrow]
  · simp [hliteral, hout, hk, Error.kind]

theorem ofText_decimal_invalid_iff :
    (∃ e, ofText .decimal s = .error e ∧ e.kind = .invalidArgument) ↔
      ¬∃ n k, Lenient s.toList n k ∧ Integer.Fits 64 k := by
  simp only [← literal?_eq_some_iff]
  rcases ofText_decimal_cases s with ⟨hliteral, hout⟩ | ⟨d, hliteral, hout⟩ | ⟨n, k, hliteral, -, hout⟩ <;>
    simp [hliteral, hout, Error.kind]

/-- Decimals are read from the literals of the lenient grammar whose scale has 32 bits, and those
among them without underscores and without a sign behind a point are the standard literals.
A scale of more bits is out of range up to 64, and invalid beyond, as is any other text. -/
theorem decimal_from_text (s : String) :
    (∀ d, ofText .decimal s = .ok (.decimal d) ↔ Lenient s.toList d.unscaled d.scale.val) ∧
    (∀ d, ofText .decimal s = .ok (.decimal d) ∧ '_' ∉ s.toList ∧ ¬SignBehindPoint s.toList ↔
      Standard s.toList d.unscaled d.scale.val) ∧
    ((∃ e, ofText .decimal s = .error e ∧ e.kind = .range) ↔
      ∃ n k, Lenient s.toList n k ∧ Integer.Fits 64 k ∧ ¬Integer.Fits 32 k) ∧
    ((∃ e, ofText .decimal s = .error e ∧ e.kind = .invalidArgument) ↔
      ¬∃ n k, Lenient s.toList n k ∧ Integer.Fits 64 k) :=
  ⟨fun _ => ofText_decimal_eq_ok_iff, fun _ => by rw [ofText_decimal_eq_ok_iff, standard_iff],
    ofText_decimal_range_iff, ofText_decimal_invalid_iff⟩

/-- A sign behind a point is read, and counts as one of the places. So are underscores. Neither
stands in a standard literal. -/
theorem sign_behind_point_read :
    ofText .decimal ".-5" = .ok (.decimal ⟨-5, ⟨2, by decide, by decide⟩⟩) ∧ (∀ n k, ¬Standard ".-5".toList n k) ∧
      ofText .decimal "1_0" = .ok (.decimal ⟨10, .zero⟩) ∧ ∀ n k, ¬Standard "1_0".toList n k := by
  have hfive : Signed (Digits ['_']) (['-'] ++ ['5']) (-1 * (5 : Nat)) := .of .minus (.first (show 5 < 10 by decide))
  have hten : Digits ['_'] ['1', '_', '0'] 10 :=
    ((Digits.first (show 1 < 10 by decide)).mark (List.mem_singleton.2 rfl)).digit (show 0 < 10 by decide)
  refine ⟨?_, fun n k h => (standard_iff.1 h).2.2 ⟨'-', by simp, ['5'], rfl⟩, ?_, fun n k h => ?_⟩
  · exact ofText_decimal_eq_ok_iff.2 (.of (.pointed [] ['-', '5']) hfive .absent)
  · exact ofText_decimal_eq_ok_iff.2 (.of (.plain _) (.of .none hten) .absent)
  · exact (standard_iff.1 h).2.1 (by simp)

end Scalar

end WideColumn
