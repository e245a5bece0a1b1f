import WideColumn.Proofs.Blob
import WideColumn.Uuid
/-!
# Identifiers read back from their text

The text of an identifier has a hyphen in each of its four places, and the groups between them
are its digits (`Uuid.text_grouped`). A text of that form is read without the hyphens.
-/

namespace WideColumn.Uuid

/-- Five groups of digits with hyphens between them. -/
structure Grouped (cs : List Char) (first second third fourth last : List Char) : Prop where
  text_eq : cs = first ++ '-' :: second ++ '-' :: third ++ '-' :: fourth ++ '-' :: last
  length_first : first.length = 8
  length_second : second.length = 4
  length_third : third.length = 4
  length_fourth : fourth.length = 4
  length_last : last.length = 12

variable {cs a b c d e : List Char}

theorem Grouped.ofGroups?_eq (h : Grouped cs a b c d e) : ofGroups? cs = ofDigits? (a ++ b ++ c ++ d ++ e) := by
  obtain ⟨rfl, ha, hb, hc, hd, he⟩ := h
  have hhyphens : hyphens.all fun i => (a ++ '-' :: b ++ '-' :: c ++ '-' :: d ++ '-' :: e)[i]? == some '-' := by
    simp [hyphens, List.getElem?_append, ha, hb, hc, hd]
  rw [ofGroups?, if_pos hhyphens]
  simp (disch := omega) [List.drop_append, List.drop_eq_nil_of_le, ha, hb, hc, hd]

theorem byteCount_eq_length {cs : List Char} (h : ∀ c ∈ cs, c.toNat < 128) : byteCount cs = cs.length := by
  induction cs with
  | nil => rfl
  | cons c cs ih =>
    obtain ⟨hc, hcs⟩ := List.forall_mem_cons.1 h
    rw [byteCount, ih hcs, Text.utf8Size_eq_one hc, List.length_cons, Nat.add_comm]

theorem Grouped.length_eq (h : Grouped cs a b c d e) : cs.length = 36 := by
  obtain ⟨rfl, ha, hb, hc, hd, he⟩ := h
  simp [ha, hb, hc, hd, he]

theorem Grouped.mem (h : Grouped cs a b c d e) : ∀ x ∈ cs, x = '-' ∨ x ∈ a ++ b ++ c ++ d ++ e := by
  intro x hx
  rw [h.text_eq] at hx
  simp only [List.mem_append, List.mem_cons] at hx ⊢
  tauto

theorem length_hexDigits_bytes (u : Uuid) : u.bytes.hexDigits.length = 32 := by
  rw [Bytes.length_hexDigits, bytes, Bytes.length_bigEndian]

/-- The groups of a text are the digits of the identifier. -/
theorem text_grouped (u : Uuid) : ∃ a b c d e, Grouped u.text.toList a b c d e ∧ a ++ b ++ c ++ d ++ e = u.bytes.hexDigits := by
  have hlength := u.length_hexDigits_bytes
  generalize hdigits : u.bytes.hexDigits = ds at hlength
  have cut (n k : Nat) : (ds.drop n).take k ++ ds.drop (n + k) = ds.drop n := by
    rw [← List.drop_drop, List.take_append_drop]
  refine ⟨ds.take 8, (ds.drop 8).take 4, (ds.drop 12).take 4, (ds.drop 16).take 4, ds.drop 20, ⟨?_, ?_, ?_, ?_, ?_, ?_⟩, ?_⟩
  · rw [text, hdigits, String.toList_ofList]
  · simp [hlength]
  · simp [hlength]
  · simp [hlength]
  · simp [hlength]
  · simp [hlength]
  · simp only [List.append_assoc]
    rw [cut 16 4, cut 12 4, cut 8 4, List.take_append_drop]

theorem ofBytes_bytes (u : Uuid) : ofBytes u.bytes = u := by
  have hvalue : Bytes.value u.bytes = u.bits.toNat := Bytes.value_bigEndian_of_lt u.bits.isLt
  rw [ofBytes, hvalue, BitVec.ofNat_toNat, BitVec.setWidth_eq]

theorem ofDigits?_hexDigits (u : Uuid) : ofDigits? u.bytes.hexDigits = some u := by
  rw [ofDigits?, if_pos u.length_hexDigits_bytes, Bytes.ofHexDigits?_hexDigits, Option.map_some, ofBytes_bytes]

/-- Every identifier is read back from its text. -/
theorem ofText_text (u : Uuid) : ofText u.text = .ok u := by
  obtain ⟨a, b, c, d, e, hgroups, hdigits⟩ := u.text_grouped
  have hascii : ∀ x ∈ u.text.toList, x.toNat < 128 := by
    intro x hx
    rcases hgroups.mem x hx with rfl | hx
    · decide
    · rw [hdigits] at hx
      exact Bytes.toNat_lt_of_mem_hexAlphabet (Bytes.mem_hexAlphabet_of_mem_hexDigits x hx)
  have hcount : byteCount u.text.toList = 36 := by rw [byteCount_eq_length hascii, hgroups.length_eq]
  have hread : ofGroups? u.text.toList = some u := by rw [hgroups.ofGroups?_eq, hdigits, ofDigits?_hexDigits]
  unfold ofText
  rw [if_pos hcount, hread]
  rfl

end WideColumn.Uuid
