import Mathlib
import WideColumn.Proofs.Numeral
/-!
# The grammar of numerals

A numeral is a row of digits, among which marks may stand to group them, behind an optional
sign (`Digits`, `Signed`). Reading accepts just the numerals of the grammar: those without
marks (`integer?_eq_some_iff`), or those that underscores may group
(`groupedInteger?_eq_some_iff`).
-/

namespace WideColumn.Numeral

/-! ## Digits -/

/-- `Digits marks cs n`: the characters `cs` are digits of `n`, at least one and from the most
significant on, with marks anywhere behind the first of them. -/
inductive Digits (marks : List Char) : List Char → Nat → Prop where
  | first {d : Nat} (hd : d < 10) : Digits marks [Nat.digitChar d] d
  | digit {cs : List Char} {n d : Nat} (hcs : Digits marks cs n) (hd : d < 10) :
    Digits marks (cs ++ [Nat.digitChar d]) (10 * n + d)
  | mark {cs : List Char} {n : Nat} {c : Char} (hcs : Digits marks cs n) (hc : c ∈ marks) : Digits marks (cs ++ [c]) n

theorem isDigit_iff {c : Char} : isDigit c = true ↔ ∃ d < 10, Nat.digitChar d = c := by
  have hrange : isDigit c = true ↔ 48 ≤ c.toNat ∧ c.toNat ≤ 57 := by
    simp [isDigit, Char.le_def, UInt32.le_iff_toNat_le]
  rw [hrange]
  constructor
  · rintro ⟨hlower, hupper⟩
    refine ⟨c.toNat - 48, by omega, Char.toNat_inj.1 ?_⟩
    rw [Nat.toNat_digitChar_of_lt_ten (by omega)]
    omega
  · rintro ⟨d, hd, rfl⟩
    rw [Nat.toNat_digitChar_of_lt_ten hd]
    omega

theorem isDigit_digitChar {d : Nat} (hd : d < 10) : isDigit (Nat.digitChar d) = true := isDigit_iff.2 ⟨d, hd, rfl⟩

theorem ofDigitChars_append_digitChar {d : Nat} (hd : d < 10) (cs : List Char) :
    Nat.ofDigitChars 10 (cs ++ [Nat.digitChar d]) 0 = 10 * Nat.ofDigitChars 10 cs 0 + d := by
  rw [Nat.ofDigitChars_append, Nat.ofDigitChars_cons_digitChar_of_lt_ten hd, Nat.ofDigitChars_nil]

namespace Digits

variable {marks cs : List Char} {n : Nat}

theorem head (h : Digits marks cs n) : ∃ c rest, cs = c :: rest ∧ isDigit c = true := by
  induction h with
  | first hd => exact ⟨_, [], rfl, isDigit_digitChar hd⟩
  | digit _ _ ih | mark _ _ ih =>
    obtain ⟨c, rest, rfl, hc⟩ := ih
    exact ⟨c, rest ++ [_], rfl, hc⟩

theorem mem (h : Digits marks cs n) : ∀ c ∈ cs, isDigit c = true ∨ c ∈ marks := by
  induction h with
  | first hd => exact List.forall_mem_singleton.2 (.inl (isDigit_digitChar hd))
  | digit _ hd ih => exact List.forall_mem_append.2 ⟨ih, List.forall_mem_singleton.2 (.inl (isDigit_digitChar hd))⟩
  | mark _ hc ih => exact List.forall_mem_append.2 ⟨ih, List.forall_mem_singleton.2 (.inr hc)⟩

/-- Without the marks the digits write the same number. -/
theorem filter_isDigit (hmarks : ∀ c ∈ marks, isDigit c = false) (h : Digits marks cs n) :
    Digits [] (cs.filter isDigit) n := by
  induction h with
  | first hd =>
    rw [List.filter_cons_of_pos (isDigit_digitChar hd), List.filter_nil]
    exact .first hd
  | digit _ hd ih =>
    rw [List.filter_append, List.filter_cons_of_pos (isDigit_digitChar hd), List.filter_nil]
    exact ih.digit hd
  | mark _ hc ih =>
    rw [List.filter_append, List.filter_cons_of_neg (by simp [hmarks _ hc]), List.filter_nil, List.append_nil]
    exact ih

theorem value_eq (h : Digits [] cs n) : n = Nat.ofDigitChars 10 cs 0 := by
  induction h with
  | first hd => rw [Nat.ofDigitChars_cons_digitChar_of_lt_ten hd, Nat.ofDigitChars_nil, Nat.mul_zero, Nat.zero_add]
  | digit _ hd ih => rw [ofDigitChars_append_digitChar hd, ← ih]
  | mark _ hc _ => cases hc

/-- Nothing but digits and marks, with a digit first, is a row of digits. -/
theorem of_mem {c : Char} {rest : List Char} (hc : isDigit c = true) (hrest : ∀ x ∈ rest, isDigit x = true ∨ x ∈ marks) :
    ∃ n, Digits marks (c :: rest) n := by
  -- rows grow at the end, where each character is a digit or a mark
  induction rest using List.reverseRecOn with
  | nil =>
    obtain ⟨d, hd, rfl⟩ := isDigit_iff.1 hc
    exact ⟨d, .first hd⟩
  | append_singleton rest x ih =>
    obtain ⟨hinit, hx⟩ := List.forall_mem_append.1 hrest
    obtain ⟨n, hn⟩ := ih hinit
    rcases hx x (List.mem_singleton.2 rfl) with hx | hx
    · obtain ⟨d, hd, rfl⟩ := isDigit_iff.1 hx
      exact ⟨_, hn.digit hd⟩
    · exact ⟨n, hn.mark hx⟩

theorem mono {others : List Char} (hsub : marks ⊆ others) (h : Digits marks cs n) : Digits others cs n := by
  induction h with
  | first hd => exact .first hd
  | digit _ hd ih => exact ih.digit hd
  | mark _ hc ih => exact ih.mark (hsub hc)

/-- Marks that do not stand among the digits need not be allowed. -/
theorem unmarked (hfree : ∀ c ∈ marks, c ∉ cs) (h : Digits marks cs n) : Digits [] cs n := by
  induction h with
  | first hd => exact .first hd
  | digit _ hd ih => exact (ih fun c hc hmem => hfree c hc (List.mem_append_left _ hmem)).digit hd
  | mark _ hc _ => exact absurd (List.mem_append_right _ (List.mem_singleton.2 rfl)) (hfree _ hc)

theorem allDigits (h : Digits [] cs n) : AllDigits cs := fun c hc => (h.mem c hc).resolve_right List.not_mem_nil

end Digits

theorem natural?_of_digits {cs : List Char} {n : Nat} (h : Digits [] cs n) : natural? cs = some n := by
  obtain ⟨c, rest, hcs, -⟩ := h.head
  rw [natural?_eq (hcs ▸ List.cons_ne_nil c rest) h.allDigits, ← h.value_eq]

theorem natural?_eq_some_iff {cs : List Char} {n : Nat} : natural? cs = some n ↔ Digits [] cs n := by
  constructor
  · intro h
    obtain ⟨⟨hne, hall⟩, -⟩ := Option.ite_none_right_eq_some.1 h
    obtain ⟨c, rest, rfl⟩ := List.exists_cons_of_ne_nil hne
    obtain ⟨hc, hrest⟩ := List.forall_mem_cons.1 (List.all_eq_true.1 hall)
    obtain ⟨m, hm⟩ : ∃ m, Digits [] (c :: rest) m := Digits.of_mem hc fun x hx => .inl (hrest x hx)
    rw [natural?_of_digits hm] at h
    exact Option.some.inj h ▸ hm
  · exact natural?_of_digits

theorem isDigit_eq_false_of_mem {c : Char} (h : c ∈ ['_', '+', '-', '.', 'e', 'E']) : isDigit c = false := by
  revert c
  simp [isDigit]

theorem grouped?_of_digits {cs : List Char} {n : Nat} (h : Digits ['_'] cs n) : grouped? cs = some n := by
  have hdigits : natural? (cs.filter isDigit) = some n :=
    natural?_of_digits (h.filter_isDigit fun c hc => isDigit_eq_false_of_mem (List.mem_append_left _ hc))
  have hfilter : cs.filter (· ≠ '_') = cs.filter isDigit := by
    apply List.filter_congr
    intro c hc
    rcases h.mem c hc with hc | hc
    · simpa [hc] using ne_of_isDigit hc (isDigit_eq_false_of_mem (by simp))
    · rw [List.mem_singleton.1 hc]
      rfl
  obtain ⟨c, rest, rfl, hc⟩ := h.head
  unfold grouped?
  split
  · next heq =>
    cases heq
    cases hc
  · rw [hfilter, hdigits]

theorem grouped?_eq_some_iff {cs : List Char} {n : Nat} : grouped? cs = some n ↔ Digits ['_'] cs n := by
  constructor
  · intro hread
    have h := hread
    unfold grouped? at h
    split at h
    · cases h
    next hhead =>
    have hdigits := natural?_eq_some_iff.1 h
    have hmem : ∀ x ∈ cs, isDigit x = true ∨ x ∈ ['_'] := by
      intro x hx
      by_cases hmark : x = '_'
      · exact .inr (List.mem_singleton.2 hmark)
      · exact .inl (hdigits.allDigits x (List.mem_filter.2 ⟨hx, by simpa using hmark⟩))
    cases cs with
    | nil =>
      obtain ⟨c, rest, hnil, -⟩ := hdigits.head
      cases hnil
    | cons c rest =>
      have hc : c ≠ '_' := fun hc => hhead rest (hc ▸ rfl)
      obtain ⟨hfirst, hrest⟩ := List.forall_mem_cons.1 hmem
      obtain ⟨m, hm⟩ := Digits.of_mem (hfirst.resolve_right (by simpa using hc)) hrest
      rw [grouped?_of_digits hm] at hread
      exact Option.some.inj hread ▸ hm
  · exact grouped?_of_digits

/-! ## Signs -/

/-- An optional sign, and the factor that it stands for. -/
inductive Sign : List Char → Int → Prop where
  | none : Sign [] 1
  | plus : Sign ['+'] 1
  | minus : Sign ['-'] (-1)

/-- `Signed numeral cs i`: the characters `cs` are a numeral behind an optional sign, and denote `i`. -/
inductive Signed (numeral : List Char → Nat → Prop) : List Char → Int → Prop where
  | of {sign cs : List Char} {factor : Int} {n : Nat} (hs : Sign sign factor) (hn : numeral cs n) :
    Signed numeral (sign ++ cs) (factor * n)

theorem signed_signed {numeral : List Char → Nat → Prop} {cs : List Char} {n : Nat} (hn : numeral cs n) (negative : Bool) :
    Signed numeral (signed negative cs) (if negative then -(n : Int) else n) := by
  cases negative with
  | false => simpa [signed] using Signed.of .none hn
  | true => simpa [signed] using Signed.of .minus hn

theorem Sign.mem {sign : List Char} {factor : Int} (h : Sign sign factor) : ∀ c ∈ sign, c ∈ ['+', '-'] := by
  cases h <;> simp

theorem Sign.not_underscore {sign : List Char} {factor : Int} (h : Sign sign factor) : '_' ∉ sign :=
  fun hmem => absurd (h.mem _ hmem) (by simp)

/-- A signed numeral is read by reading the numeral behind the sign, as none begins with a sign itself. -/
theorem signed?_eq_some_iff {unsigned : List Char → Option Nat} {numeral : List Char → Nat → Prop}
    (hread : ∀ {cs n}, unsigned cs = some n ↔ numeral cs n)
    (hhead : ∀ {cs n}, numeral cs n → ∃ c rest, cs = c :: rest ∧ isDigit c = true) {cs : List Char} {i : Int} :
    signed? unsigned cs = some i ↔ Signed numeral cs i := by
  constructor
  · intro h
    unfold signed? at h
    split at h <;> simp [Option.bind_eq_some_iff] at h <;> obtain ⟨n, hn, rfl⟩ := h
    · rw [← neg_one_mul]
      exact .of .minus (hread.1 hn)
    · rw [← one_mul (n : Int)]
      exact .of .plus (hread.1 hn)
    · rw [← one_mul (n : Int)]
      exact .of .none (hread.1 hn)
  · rintro ⟨hs, hn⟩
    cases hs with
    | none =>
      obtain ⟨c, rest, rfl, hc⟩ := hhead hn
      have hminus : c ≠ '-' := ne_of_isDigit hc (isDigit_eq_false_of_mem (by simp))
      have hplus : c ≠ '+' := ne_of_isDigit hc (isDigit_eq_false_of_mem (by simp))
      simp [signed?, hminus, hplus, hread.2 hn]
    | plus => simp [signed?, hread.2 hn]
    | minus => simp [signed?, hread.2 hn]

theorem integer?_eq_some_iff {cs : List Char} {i : Int} : integer? cs = some i ↔ Signed (Digits []) cs i :=
  signed?_eq_some_iff natural?_eq_some_iff Digits.head

theorem groupedInteger?_eq_some_iff {cs : List Char} {i : Int} :
    groupedInteger? cs = some i ↔ Signed (Digits ['_']) cs i :=
  signed?_eq_some_iff grouped?_eq_some_iff Digits.head

/-- An integer is written by its digits after either sign. -/
theorem signed_of_sign (e : Int) : Signed (Digits []) ((if e < 0 then '-' else '+') :: digits e.natAbs) e := by
  have hdigits : Digits [] (digits e.natAbs) e.natAbs := natural?_eq_some_iff.1 (natural?_digits _)
  split
  · next h =>
    have hvalue : (-1 * e.natAbs : Int) = e := by omega
    have hsigned := Signed.of .minus hdigits
    rwa [hvalue] at hsigned
  · next h =>
    have hvalue : (1 * e.natAbs : Int) = e := by omega
    have hsigned := Signed.of .plus hdigits
    rwa [hvalue] at hsigned

/-- The text of an integer is its digits, after a minus sign below zero. -/
theorem signed_text (n : Int) : Signed (Digits []) (text n).toList n := by
  have hdigits : Digits [] (digits n.natAbs) n.natAbs := natural?_eq_some_iff.1 (natural?_digits _)
  have hsigned := signed_signed hdigits (n < 0)
  have hvalue : (if decide (n < 0) = true then -(n.natAbs : Int) else n.natAbs) = n := by
    simp only [decide_eq_true_eq]
    split <;> omega
  rw [text, toList_withSign]
  rwa [hvalue] at hsigned

theorem Signed.mem {marks cs : List Char} {i : Int} (h : Signed (Digits marks) cs i) :
    ∀ c ∈ cs, isDigit c = true ∨ c ∈ marks ∨ c ∈ ['+', '-'] := by
  obtain ⟨hs, hn⟩ := h
  refine List.forall_mem_append.2 ⟨fun c hc => .inr (.inr (hs.mem c hc)), fun c hc => ?_⟩
  exact (hn.mem c hc).imp_right .inl

/-- An integer without underscores is one that they may group, but do not. -/
theorem signed_digits_iff {cs : List Char} {i : Int} :
    Signed (Digits []) cs i ↔ Signed (Digits ['_']) cs i ∧ '_' ∉ cs := by
  constructor
  · rintro ⟨hs, hn⟩
    refine ⟨.of hs (hn.mono (List.nil_subset _)), List.not_mem_append hs.not_underscore (hn.allDigits.not_mem ?_)⟩
    exact isDigit_eq_false_of_mem (by simp)
  · rintro ⟨⟨hs, hn⟩, hfree⟩
    refine .of hs (hn.unmarked (List.forall_mem_singleton.2 fun hmem => hfree ?_))
    exact List.mem_append_right _ hmem

end WideColumn.Numeral
