import WideColumn.Proofs.Except
import WideColumn.Proofs.Inet
import WideColumn.Proofs.Integer.Text
import WideColumn.Proofs.Uuid
/-!
# Values read back from their text

Integers, instants, bytes, identifiers and addresses are the same when they are read back from
their own text (`Scalar.ofText_format`). Of the other texts of bytes just the digits are of
importance, in either case (`Scalar.format_of_ofText_blob`, `Scalar.ofText_blob_eq_iff`).
-/

namespace WideColumn

theorem Timestamp.ofText?_text (t : Timestamp) : ofText? t.text = some t := by
  unfold ofText? text
  rw [Integer.ofText?_text (by decide)]

namespace Scalar

/-! ## Own texts -/

/-- The types with texts that say all there is to a value. -/
def exactTypes : List ScalarType := [.int, .bigint, .varint, .timestamp, .blob, .uuid, .timeuuid, .inet]

theorem readUuid_text (u : Uuid) : readUuid u.text = .ok u := by
  unfold readUuid
  rw [Uuid.ofText_text]
  rfl

theorem ofTimeUuid_uuid (u : TimeUuid) : ofTimeUuid u.uuid = .ok (timeuuid u) := by
  unfold ofTimeUuid
  exact dif_pos u.version_eq

theorem ofText_format {v : Scalar} (h : v.type ∈ exactTypes) (places : Nat) : ofText v.type (v.format places) = .ok v := by
  cases v with
  | int n => simp [ofText, type, format, reading, Integer.ofText?_text (w := 32) (by decide) n]
  | bigint n => simp [ofText, type, format, reading, Integer.ofText?_text (w := 64) (by decide) n]
  | varint n => simp [ofText, type, format, reading, Varint.ofText?_text]
  | timestamp t => simp [ofText, type, format, reading, Timestamp.ofText?_text]
  | blob bs => simp [ofText, type, format, Blob.ofText_text]
  | uuid u => simp [ofText, type, format, readUuid_text]
  | timeuuid u => simp [ofText, type, format, readUuid_text, ofTimeUuid_uuid]
  | inet a => simp [ofText, type, format, reading, Inet.ofText?_text]
  | ascii | varchar | text | boolean | counter | float | double | decimal => simp [type, exactTypes] at h

/-! ## Texts of bytes -/

variable {s t : String} {ds es : List Char} {v : Scalar}

theorem ofText_blob_eq_ok_iff : ofText .blob s = .ok v ↔ ∃ bs, Blob.ofText s = .ok bs ∧ blob bs = v := by
  simp [ofText]

theorem format_blob {bs : Bytes} (h : bs.hexDigits = ds.map Char.toLower) (places : Nat) :
    (blob bs).format places = "0x" ++ String.ofList (ds.map Char.toLower) := by
  rw [format, Blob.text, Bytes.hex, h]

/-- What is read as bytes is written with the digits that it was read from. -/
theorem format_of_ofText_blob (h : ofText .blob s = .ok v) (places : Nat) :
    ∃ ds, Blob.Spells s ds ∧ v.format places = "0x" ++ String.ofList (ds.map Char.toLower) := by
  obtain ⟨bs, hread, rfl⟩ := ofText_blob_eq_ok_iff.1 h
  obtain ⟨ds, hs, hdigits⟩ := Blob.ofText_eq_ok_iff.1 hread
  exact ⟨ds, hs, format_blob hdigits places⟩

/-- Digits in pairs are read as bytes, behind a mark or without it. -/
theorem ofText_blob_of_spells (h : Blob.Spells s ds) : ∃ bs, ofText .blob s = .ok (blob bs) ∧ bs.hexDigits = ds.map Char.toLower := by
  obtain ⟨bs, hbs⟩ := Bytes.exists_ofHexDigits? h.digits h.paired
  have hdigits := (Bytes.ofHexDigits?_eq_some_iff.1 hbs).2.2
  exact ⟨bs, ofText_blob_eq_ok_iff.2 ⟨bs, Blob.ofText_eq_ok_iff.2 ⟨ds, h, hdigits⟩, rfl⟩, hdigits⟩

/-- Texts are read as the same bytes if they have the same digits but for the case, and only then. -/
theorem ofText_blob_eq_iff (hs : Blob.Spells s ds) (ht : Blob.Spells t es) :
    ofText .blob s = ofText .blob t ↔ ds.map Char.toLower = es.map Char.toLower := by
  obtain ⟨as, has, hds⟩ := ofText_blob_of_spells hs
  obtain ⟨bs, hbs, hes⟩ := ofText_blob_of_spells ht
  rw [has, hbs, ← hds, ← hes, Bytes.hexDigits_injective.eq_iff]
  simp

/-- Values of the types with exact texts are read back from their own. A text is read as bytes
if it is made up of digits in pairs, with or without a mark, and only then. The bytes are
written with these digits in lower case, and no two texts with the same ones are read apart. -/
theorem texts_read_back (places : Nat) :
    (∀ v : Scalar, v.type ∈ exactTypes → ofText v.type (v.format places) = .ok v) ∧
    (∀ s v, ofText .blob s = .ok v →
      ∃ ds, Blob.Spells s ds ∧ v.format places = "0x" ++ String.ofList (ds.map Char.toLower)) ∧
    (∀ s ds, Blob.Spells s ds →
      ∃ v, ofText .blob s = .ok v ∧ v.format places = "0x" ++ String.ofList (ds.map Char.toLower)) ∧
    (∀ s t ds es, Blob.Spells s ds → Blob.Spells t es →
      (ofText .blob s = ofText .blob t ↔ ds.map Char.toLower = es.map Char.toLower)) := by
  refine ⟨fun v h => ofText_format h places, fun s v h => format_of_ofText_blob h places, ?_, fun s t ds es => ofText_blob_eq_iff⟩
  intro s ds h
  obtain ⟨bs, hread, hdigits⟩ := ofText_blob_of_spells h
  exact ⟨blob bs, hread, format_blob hdigits places⟩

/-- An address with zeros left out, and digits of both cases behind the mark in upper case. -/
theorem texts_read_back_compressed :
    let a := inet (.v6 0x20010db8000000000001000000000001)
    let b := blob [0xca, 0xfe]
    a.format 0 = "2001:db8::1:0:0:1" ∧ ofText .inet (a.format 0) = .ok a ∧ ofText .blob (b.format 0) = .ok b ∧
    (∃ ds, Blob.Spells (b.format 0) ds ∧ b.format 0 = "0x" ++ String.ofList (ds.map Char.toLower)) ∧
    (∃ v, ofText .blob "0XCaFe" = .ok v ∧ v.format 0 = "0xcafe") ∧ ofText .blob "0XCaFe" = ofText .blob "cafe" := by
  have hmarked : Blob.Spells "0XCaFe" ['C', 'a', 'F', 'e'] := ⟨.inr (.inr rfl), by simp [Bytes.hexAlphabet], ⟨2, rfl⟩⟩
  have hplain : Blob.Spells "cafe" ['c', 'a', 'f', 'e'] := ⟨.inl rfl, by simp [Bytes.hexAlphabet], ⟨2, rfl⟩⟩
  obtain ⟨hown, hdigits, hread, hsame⟩ := texts_read_back 0
  have hblob := hown (blob [0xca, 0xfe]) (by simp [type, exactTypes])
  exact ⟨rfl, hown (inet _) (by simp [type, exactTypes]), hblob, hdigits _ _ hblob, hread _ _ hmarked,
    (hsame _ _ _ _ hmarked hplain).2 rfl⟩

end Scalar

end WideColumn
