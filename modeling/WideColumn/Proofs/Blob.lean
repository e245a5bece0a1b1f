import WideColumn.Blob
import WideColumn.Proofs.Bytes
/-!
# Hexadecimal text

Bytes are read from just the texts of hexadecimal digits in pairs, of either case and with or
without the mark (`Blob.Spells`). The digits in lower case are those that the bytes are
written with (`Blob.ofText_eq_ok_iff`), so that nothing else of a text is of importance.
-/

namespace WideColumn

namespace Text

/-! ## Bytes as characters -/

theorem utf8_eq (s : String) : utf8 s = s.toList.flatMap String.utf8EncodeChar := by
  change s.toByteArray.data.toList = _
  rw [← String.utf8Encode_toList, List.utf8Encode, List.data_toByteArray]

/-- The character of each byte's number. -/
def characters (bs : Bytes) : List Char := bs.map fun b => Char.ofNat b.toNat

theorem characters_append (as bs : Bytes) : characters (as ++ bs) = characters as ++ characters bs := List.map_append

theorem characters_injective : Function.Injective characters := by
  have valid (b : UInt8) : (Char.ofNat b.toNat).toNat = b.toNat := by
    rw [Char.toNat_ofNat, if_pos (.inl (b.toNat_lt.trans (by decide)))]
  refine List.map_injective_iff.2 fun b c h => UInt8.toNat_inj.1 ?_
  rw [← valid b, h, valid c]

theorem utf8Size_eq_one {c : Char} (h : c.toNat < 128) : c.utf8Size = 1 :=
  Char.utf8Size_eq_one_iff.2 (UInt32.le_iff_toNat_le.2 (Nat.le_of_lt_succ h))

theorem characters_utf8EncodeChar {c : Char} (h : c.toNat < 128) : characters (String.utf8EncodeChar c) = [c] := by
  have hbyte : c.val.toUInt8.toNat = c.toNat := by
    rw [UInt32.toNat_toUInt8]
    exact Nat.mod_eq_of_lt (h.trans (by decide))
  rw [String.utf8EncodeChar_eq_singleton (utf8Size_eq_one h), characters, List.map_singleton, hbyte, Char.ofNat_toNat]

theorem characters_utf8_ofList {cs : List Char} (h : ∀ c ∈ cs, c.toNat < 128) : characters (utf8 (String.ofList cs)) = cs := by
  rw [utf8_eq, String.toList_ofList]
  induction cs with
  | nil => rfl
  | cons c cs ih =>
    obtain ⟨hc, hcs⟩ := List.forall_mem_cons.1 h
    rw [List.flatMap_cons, characters_append, characters_utf8EncodeChar hc, ih hcs, List.singleton_append]

/-- The bytes of 7-bit characters are these characters, and the bytes of no other text are. -/
theorem characters_utf8_eq_iff {s : String} {cs : List Char} (h : ∀ c ∈ cs, c.toNat < 128) :
    characters (utf8 s) = cs ↔ s.toList = cs := by
  have hself := characters_utf8_ofList h
  constructor
  · intro hs
    rw [← hself] at hs
    rw [utf8_injective (characters_injective hs), String.toList_ofList]
  · intro hs
    rwa [← hs, String.ofList_toList, hs] at hself

end Text

namespace Bytes

/-! ## Digits -/

/-- The hexadecimal digits of both cases. -/
def hexAlphabet : List Char :=
  ['0', '1', '2', '3', '4', '5', '6', '7', '8', '9', 'a', 'b', 'c', 'd', 'e', 'f', 'A', 'B', 'C', 'D', 'E', 'F']

/-- A digit of either case stands for the number whose digit it is in lower case. -/
theorem hexValue?_of_mem {c : Char} (h : c ∈ hexAlphabet) : ∃ n < 16, hexValue? c = some n ∧ Nat.digitChar n = c.toLower := by
  have hall : hexAlphabet.all fun c => (hexValue? c).any fun n => n < 16 ∧ Nat.digitChar n = c.toLower := by decide
  obtain ⟨n, hn, hdigit⟩ := (Option.any_eq_true ..).1 (List.all_eq_true.1 hall c h)
  obtain ⟨hlt, hlower⟩ := of_decide_eq_true hdigit
  exact ⟨n, hlt, hn, hlower⟩

theorem mem_of_hexValue? {c : Char} {n : Nat} (h : hexValue? c = some n) : c ∈ hexAlphabet := by
  have hletters : ∀ k < 103, (48 ≤ k ∧ k ≤ 57) ∨ (97 ≤ k ∧ k ≤ 102) ∨ (65 ≤ k ∧ k ≤ 70) → Char.ofNat k ∈ hexAlphabet := by
    decide
  have hrange : (48 ≤ c.toNat ∧ c.toNat ≤ 57) ∨ (97 ≤ c.toNat ∧ c.toNat ≤ 102) ∨ (65 ≤ c.toNat ∧ c.toNat ≤ 70) := by
    unfold hexValue? at h
    split at h
    · next hc => exact .inl hc
    split at h
    · next hc => exact .inr (.inl hc)
    split at h
    · next hc => exact .inr (.inr hc)
    · cases h
  rw [← Char.ofNat_toNat c]
  exact hletters _ (by omega) hrange

theorem digitChar_of_hexValue? {c : Char} {n : Nat} (h : hexValue? c = some n) : n < 16 ∧ Nat.digitChar n = c.toLower := by
  obtain ⟨m, hm, hvalue, hlower⟩ := hexValue?_of_mem (mem_of_hexValue? h)
  obtain rfl : n = m := Option.some.inj (h.symm.trans hvalue)
  exact ⟨hm, hlower⟩

/-! ## Pairs of digits -/

theorem length_hexDigits (bs : Bytes) : bs.hexDigits.length = 2 * bs.length := by
  induction bs with
  | nil => rfl
  | cons b bs ih =>
    rw [hexDigits_cons, List.length_cons, List.length_cons, List.length_cons, ih]
    omega

theorem hexDigits_injective : Function.Injective hexDigits := by
  intro as bs h
  have hread := ofHexDigits?_hexDigits as
  rw [h, ofHexDigits?_hexDigits bs] at hread
  exact (Option.some.inj hread).symm

/-- Digits in pairs denote bytes. -/
theorem exists_ofHexDigits? {cs : List Char} (h : ∀ c ∈ cs, c ∈ hexAlphabet) (hpairs : 2 ∣ cs.length) :
    ∃ bs, ofHexDigits? cs = some bs := by
  fun_induction ofHexDigits? cs with
  | case1 => exact ⟨[], rfl⟩
  | case2 => simp at hpairs
  | case3 c d rest ih =>
    simp only [List.forall_mem_cons] at h
    obtain ⟨hc, hd, hrest⟩ := h
    obtain ⟨high, -, hhigh, -⟩ := hexValue?_of_mem hc
    obtain ⟨low, -, hlow, -⟩ := hexValue?_of_mem hd
    obtain ⟨bs, hbs⟩ := ih hrest (by simpa [Nat.dvd_add_left] using hpairs)
    exact ⟨UInt8.ofNat (high * 16 + low) :: bs, by simp [hhigh, hlow, hbs]⟩

/-- What denotes bytes are digits, and in lower case the bytes are written with the same ones. -/
theorem hexDigits_of_ofHexDigits? {cs : List Char} {bs : Bytes} (h : ofHexDigits? cs = some bs) :
    (∀ c ∈ cs, c ∈ hexAlphabet) ∧ bs.hexDigits = cs.map Char.toLower := by
  fun_induction ofHexDigits? cs generalizing bs with
  | case1 =>
    cases h
    exact ⟨List.forall_mem_nil _, rfl⟩
  | case2 => cases h
  | case3 c d rest ih =>
    simp only [Option.bind_eq_bind, Option.bind_eq_some_iff] at h
    obtain ⟨high, hhigh, low, hlow, tail, htail, hbs⟩ := h
    cases hbs
    obtain ⟨hrest, hdigits⟩ := ih htail
    obtain ⟨hc, hc'⟩ := digitChar_of_hexValue? hhigh
    obtain ⟨hd, hd'⟩ := digitChar_of_hexValue? hlow
    have hbyte : (UInt8.ofNat (high * 16 + low)).toNat = high * 16 + low := Nat.mod_eq_of_lt (by omega)
    have hhalves : (high * 16 + low) / 16 = high ∧ (high * 16 + low) % 16 = low := by omega
    constructor
    · exact List.forall_mem_cons.2 ⟨mem_of_hexValue? hhigh, List.forall_mem_cons.2 ⟨mem_of_hexValue? hlow, hrest⟩⟩
    · rw [hexDigits_cons, hbyte, hhalves.1, hhalves.2, hdigits, hc', hd', List.map_cons, List.map_cons]

theorem ofHexDigits?_eq_some_iff {cs : List Char} {bs : Bytes} :
    ofHexDigits? cs = some bs ↔ (∀ c ∈ cs, c ∈ hexAlphabet) ∧ 2 ∣ cs.length ∧ bs.hexDigits = cs.map Char.toLower := by
  constructor
  · intro h
    obtain ⟨hall, hdigits⟩ := hexDigits_of_ofHexDigits? h
    have hlength := congrArg List.length hdigits
    rw [length_hexDigits, List.length_map] at hlength
    exact ⟨hall, ⟨bs.length, hlength.symm⟩, hdigits⟩
  · rintro ⟨hall, hpairs, hdigits⟩
    obtain ⟨as, has⟩ := exists_ofHexDigits? hall hpairs
    obtain rfl : as = bs := hexDigits_injective (by rw [(hexDigits_of_ofHexDigits? has).2, hdigits])
    exact has

theorem mem_hexAlphabet_of_mem_hexDigits {bs : Bytes} : ∀ c ∈ bs.hexDigits, c ∈ hexAlphabet :=
  (ofHexDigits?_eq_some_iff.1 (ofHexDigits?_hexDigits bs)).1

theorem toNat_lt_of_mem_hexAlphabet {c : Char} (h : c ∈ hexAlphabet) : c.toNat < 128 := by
  have hall : hexAlphabet.all fun c => c.toNat < 128 := by decide
  exact of_decide_eq_true (List.all_eq_true.1 hall c h)

end Bytes

namespace Blob

/-! ## Texts of bytes -/

/-- A text that is `ds`, with the mark `0x` or `0X` in front or without it. -/
def Marked (cs ds : List Char) : Prop := cs = ds ∨ cs = '0' :: 'x' :: ds ∨ cs = '0' :: 'X' :: ds

/-- A text that is made up of the digits `ds` in pairs, behind a mark or without it. -/
structure Spells (s : String) (ds : List Char) : Prop where
  marked : Marked s.toList ds
  digits : ∀ c ∈ ds, c ∈ Bytes.hexAlphabet
  paired : 2 ∣ ds.length

theorem Marked.toNat_lt {cs ds : List Char} (h : Marked cs ds) (hds : ∀ c ∈ ds, c ∈ Bytes.hexAlphabet) :
    ∀ c ∈ cs, c.toNat < 128 := by
  have hdigits : ∀ c ∈ ds, c.toNat < 128 := fun c hc => Bytes.toNat_lt_of_mem_hexAlphabet (hds c hc)
  rcases h with rfl | rfl | rfl
  · exact hdigits
  · exact List.forall_mem_cons.2 ⟨by decide, List.forall_mem_cons.2 ⟨by decide, hdigits⟩⟩
  · exact List.forall_mem_cons.2 ⟨by decide, List.forall_mem_cons.2 ⟨by decide, hdigits⟩⟩

theorem marked_digitsOf (s : String) : Marked (Text.characters (Text.utf8 s)) (digitsOf s) := by
  unfold digitsOf Text.characters
  split
  · next h => exact .inr (.inl h)
  · next h => exact .inr (.inr h)
  · exact .inl rfl

/-- The letter of the mark is no digit, so a mark is not taken for digits nor they for it. -/
theorem digitsOf_eq {s : String} {ds : List Char} (h : Marked (Text.characters (Text.utf8 s)) ds)
    (hds : ∀ c ∈ ds, c ∈ Bytes.hexAlphabet) : digitsOf s = ds := by
  have hx : 'x' ∉ ds := fun hmem => absurd (hds _ hmem) (by decide)
  have hX : 'X' ∉ ds := fun hmem => absurd (hds _ hmem) (by decide)
  unfold digitsOf
  unfold Text.characters at h
  rcases h with h | h | h
  · rw [h]
    split
    · simp at hx
    · simp at hX
    · rfl
  · rw [h]
    rfl
  · rw [h]
    rfl

theorem spells_digitsOf {s : String} {bs : Bytes} (h : Bytes.ofHexDigits? (digitsOf s) = some bs) : Spells s (digitsOf s) := by
  obtain ⟨hall, hpairs, -⟩ := Bytes.ofHexDigits?_eq_some_iff.1 h
  have hmarked := marked_digitsOf s
  have htext := (Text.characters_utf8_eq_iff (hmarked.toNat_lt hall)).1 rfl
  exact ⟨htext ▸ hmarked, hall, hpairs⟩

/-- Digits are read whatever their case and their mark are, and nothing else is read. -/
theorem ofText_eq_ok_iff {s : String} {bs : Bytes} : ofText s = .ok bs ↔ ∃ ds, Spells s ds ∧ bs.hexDigits = ds.map Char.toLower := by
  have hread : ofText s = .ok bs ↔ Bytes.ofHexDigits? (digitsOf s) = some bs := by
    unfold ofText
    cases Bytes.ofHexDigits? (digitsOf s) <;> simp
  rw [hread]
  constructor
  · intro h
    exact ⟨digitsOf s, spells_digitsOf h, (Bytes.ofHexDigits?_eq_some_iff.1 h).2.2⟩
  · rintro ⟨ds, ⟨hmarked, hall, hpairs⟩, hdigits⟩
    have htext := (Text.characters_utf8_eq_iff (hmarked.toNat_lt hall)).2 rfl
    rw [digitsOf_eq (htext ▸ hmarked) hall]
    exact Bytes.ofHexDigits?_eq_some_iff.2 ⟨hall, hpairs, hdigits⟩

/-- The text of bytes spells them in digits that are in lower case already. -/
theorem ofText_text (bs : Bytes) : ofText (text bs) = .ok bs := by
  obtain ⟨-, hpairs, hdigits⟩ := Bytes.ofHexDigits?_eq_some_iff.1 (Bytes.ofHexDigits?_hexDigits bs)
  have hmarked : (text bs).toList = '0' :: 'x' :: bs.hexDigits := by simp [text, Bytes.hex]
  exact ofText_eq_ok_iff.2 ⟨bs.hexDigits, ⟨.inr (.inl hmarked), Bytes.mem_hexAlphabet_of_mem_hexDigits, hpairs⟩, hdigits⟩

end Blob

end WideColumn
